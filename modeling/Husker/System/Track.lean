import Husker.Relational.Machine
import Husker.Journal.Effects

/-! # Calls on the state store

Every public operation of the journal and of the host-resource tables as one type of calls,
and the machine whose steps are calls in any order.  A call carries what it reads from the
clock, the random generator and the host, and which of its transactions the database refuses.
-/
namespace Husker.System
open Relational Store Journal Lease

inductive Tx where
  | acceptJob (seed : AcceptSeed) (s : Submission)
  | acceptJobWithBudget (seed : AcceptSeed) (s : Submission) (request : BudgetRequest)
  | reserveJobVm (now : DateTime) (id : Uuid)
  | claimJobVm (now : DateTime) (id : Uuid)
  | bindJobVm (now : DateTime) (id vmId : Uuid) (name : String)
  | bindJobVmWithLease (seed : LeaseSeed) (now : DateTime) (id vmId : Uuid) (name : String)
  | markJobRunning (now : DateTime) (id : Uuid)
  | appendJobEvents (id : Uuid) (events : List JobEvent) (guestTruncated : Bool)
  | stageJobManifest (id : Uuid) (manifest : String)
  | retainJobArtifact (id : Uuid) (index : ℕ) (path digest : String) (data : Bytes)
  | finishJob (id : Uuid) (state : JobState) (collection : CollectionState) (manifest : String)
  | finishJobFailure (id : Uuid) (state : JobState) (envelope : String)
  | recordJobVmDestruction (vmId : Uuid)
  | recordJobVmAllocationAbort (id vmId : Uuid)
  | recordJobLeasedPrebackendAbort (id vmId leaseId : Uuid)
  | confirmJobCleanup (id vmId : Uuid)
  | confirmUnallocatedJobCleanup (id : Uuid) (name : String)
  | deleteJobEvidence (id : Uuid)
  | observeLegacyLeaseBoots (identity : Option HostBoot)
  | beginHostResourceLease (seed : LeaseSeed) (vmName : String)
  | beginHostResourceLeaseForVm (seed : LeaseSeed) (vmName : String) (vmId : Uuid)
  | enterHostResourceLeaseBackend (id vmId : Uuid) (identity : Option HostBoot)
  | recordHostResourceLeaseDestruction (id vmId : Uuid)
  | setHostResourceLeaseNetwork (id : Uuid) (tapDevice guestIp : Option String)
  | confirmHostResourceLeaseReboot (id : Uuid) (identity : Option HostBoot)
  | commitVmFromHostResourceLease (record : VmRow) (leaseId : Uuid)
      (expiration : Option ExpirationRow)
  | releaseHostResourceLease (id : Uuid)
  | updateVmState (id : Uuid) (state : VmLifecycleState)
  | retireVm (id : Uuid)
  | insertPool (record : PoolRow)
  | retirePoolTemplate (poolId templateVmId : Uuid)

inductive Call where
  | tx (t : Tx)
  | expireJobEvidence (now : DateTime)
  | ensureCidBase (base : ℕ)

inductive Reply where
  | done
  | job (record : JobRecord)
  | accepted (record : JobRecord) (fresh : Bool)
  | bound (record : JobRecord) (lease : LeaseRow)
  | artifact (record : JobArtifactRecord)
  | lease (row : LeaseRow)
  | confirmed (proof : Bool)
  | count (n : ℕ)

abbrev Outcome := Except JournalError Reply

def noReply (x : Except JournalError Db) : Except JournalError (Reply × Db) := x.map (Reply.done, ·)

def withReply {α : Type} (f : α → Reply) (x : Except JournalError (α × Db)) :
    Except JournalError (Reply × Db) :=
  x.map fun p => (f p.1, p.2)

def body (c : Codec) (db : Db) : Tx → Except JournalError (Reply × Db)
  | .acceptJob seed s => withReply (fun p => .accepted p.1 p.2) (acceptJob c db seed s)
  | .acceptJobWithBudget seed s request =>
    withReply (fun p => .accepted p.1 p.2) (acceptJobWithBudget c db seed s request)
  | .reserveJobVm now id => withReply .job (reserveJobVm db now id)
  | .claimJobVm now id => withReply .job (claimJobVm db now id)
  | .bindJobVm now id vmId name => withReply .job (bindJobVm db now id vmId name)
  | .bindJobVmWithLease seed now id vmId name =>
    withReply (fun p => .bound p.1 p.2) (bindJobVmWithLease db seed now id vmId name)
  | .markJobRunning now id => noReply (markJobRunning db now id)
  | .appendJobEvents id events guestTruncated =>
    noReply (appendJobEvents c db id events guestTruncated)
  | .stageJobManifest id manifest => noReply (stageJobManifest c db id manifest)
  | .retainJobArtifact id index path digest data =>
    withReply .artifact (retainJobArtifact c db id index path digest data)
  | .finishJob id state collection manifest =>
    withReply .job (finishJob c db id state collection manifest)
  | .finishJobFailure id state envelope =>
    withReply .job (finishJobFailure c db id state envelope)
  | .recordJobVmDestruction vmId => noReply (recordJobVmDestruction db vmId)
  | .recordJobVmAllocationAbort id vmId => noReply (recordJobVmAllocationAbort db id vmId)
  | .recordJobLeasedPrebackendAbort id vmId leaseId =>
    noReply (recordJobLeasedPrebackendAbort db id vmId leaseId)
  | .confirmJobCleanup id vmId => noReply (confirmJobCleanup db id vmId)
  | .confirmUnallocatedJobCleanup id name => noReply (confirmUnallocatedJobCleanup db id name)
  | .deleteJobEvidence id => noReply (deleteJobEvidence db id)
  | .observeLegacyLeaseBoots identity =>
    noReply ((observeLegacyLeaseBoots db identity).mapError .state)
  | .beginHostResourceLease seed vmName =>
    withReply .lease ((beginHostResourceLease db seed vmName).mapError .state)
  | .beginHostResourceLeaseForVm seed vmName vmId =>
    withReply .lease ((beginHostResourceLeaseForVm db seed vmName vmId).mapError .state)
  | .enterHostResourceLeaseBackend id vmId identity =>
    noReply ((enterHostResourceLeaseBackend db id vmId identity).mapError .state)
  | .recordHostResourceLeaseDestruction id vmId =>
    noReply ((recordHostResourceLeaseDestruction db id vmId).mapError .state)
  | .setHostResourceLeaseNetwork id tapDevice guestIp =>
    noReply ((setHostResourceLeaseNetwork db id tapDevice guestIp).mapError .state)
  | .confirmHostResourceLeaseReboot id identity =>
    withReply .confirmed ((confirmLeaseRebootOn db id identity).mapError .state)
  | .commitVmFromHostResourceLease record leaseId expiration =>
    noReply ((commitVmFromHostResourceLeaseWithExpiration db record leaseId expiration).mapError
      .state)
  | .releaseHostResourceLease id => noReply ((releaseHostResourceLease db id).mapError .state)
  | .updateVmState id state => noReply ((updateVmState db id state).mapError .state)
  | .retireVm id => noReply ((retireVm db id).mapError .state)
  | .insertPool record => noReply ((insertPool db record).mapError .state)
  | .retirePoolTemplate poolId templateVmId =>
    noReply ((retirePoolTemplate db poolId templateVmId).mapError .state)

def storageFailure : JournalError := .database .storage

/-- Delete evidence job by job, each in its own transaction, and stop at the first error. -/
def deleteAll : Option ℕ → Db → List Uuid → Except JournalError Unit × Db
  | _, db, [] => (.ok (), db)
  | some 0, db, _ :: _ => (.error storageFailure, db)
  | fault, db, id :: ids =>
    match deleteJobEvidence db id with
    | .ok db' => deleteAll (fault.map (· - 1)) db' ids
    | .error e => (.error e, db)

/-- Run a call; `fault` is the position of the first transaction the database refuses. -/
def perform (c : Codec) (fault : Option ℕ) (db : Db) : Call → Outcome × Db
  | .tx t =>
    match fault with
    | some 0 => (.error storageFailure, db)
    | _ => transact db (body c db t)
  | .expireJobEvidence now =>
    let ids := expiredJobs db now
    let (result, db) := deleteAll fault db ids
    (result.map fun _ => .count ids.length, db)
  | .ensureCidBase base =>
    match fault with
    | some 0 => (.error storageFailure, db)
    | some 1 => (.error storageFailure, purgeFreedBelow db base)
    | _ => (.ok .done, raiseNextCid (purgeFreedBelow db base) base)

variable {db' : Db} {reply : Reply}

lemma noReply_eq_ok {x : Except JournalError Db} :
    noReply x = .ok (reply, db') ↔ x = .ok db' ∧ reply = .done := by
  cases x with
  | error e => simp [noReply, Except.map]
  | ok db => simp [noReply, Except.map, and_comm, eq_comm]

lemma quiet_ok {ε : Type} {x : Except ε Db} {g : ε → JournalError}
    (h : noReply (x.mapError g) = .ok (reply, db')) : x = .ok db' :=
  mapError_eq_ok.mp (noReply_eq_ok.mp h).1

lemma withReply_eq_ok {α : Type} {f : α → Reply} {x : Except JournalError (α × Db)} :
    withReply f x = .ok (reply, db') ↔ ∃ a, x = .ok (a, db') ∧ reply = f a := by
  cases x with
  | error e => simp [withReply, Except.map]
  | ok p =>
    obtain ⟨a, db⟩ := p
    simp only [withReply, Except.map, eq_ok]
    exact ⟨fun ⟨h, h'⟩ => ⟨a, ⟨rfl, h'⟩, h.symm⟩, fun ⟨b, ⟨hab, h'⟩, h⟩ => ⟨hab ▸ h.symm, h'⟩⟩

lemma perform_tx (c : Codec) (fault : Option ℕ) (db : Db) (t : Tx) :
    (∃ reply db', body c db t = .ok (reply, db') ∧ perform c fault db (.tx t) = (.ok reply, db')) ∨
      ∃ e, perform c fault db (.tx t) = (.error e, db) := by
  have hrun : (∃ reply db', body c db t = .ok (reply, db') ∧
      transact db (body c db t) = (.ok reply, db')) ∨
      ∃ e, transact db (body c db t) = (.error e, db) :=
    (transact_cases db (body c db t)).imp_right fun ⟨e, _, h⟩ => ⟨e, h⟩
  match fault with
  | some 0 => exact .inr ⟨storageFailure, rfl⟩
  | some (_ + 1) => exact hrun
  | none => exact hrun

/-! ## The machine -/

def Tx.draws : Tx → List Uuid
  | .acceptJob seed _ | .acceptJobWithBudget seed _ _ => [seed.id, seed.session]
  | .bindJobVmWithLease seed _ _ _ _ | .beginHostResourceLease seed _
  | .beginHostResourceLeaseForVm seed _ _ => [seed.id]
  | _ => []

def Call.draws : Call → List Uuid
  | .tx t => t.draws
  | _ => []

def Tx.readings : Tx → List DateTime
  | .acceptJob seed _ | .acceptJobWithBudget seed _ _ => [seed.now]
  | .reserveJobVm now _ | .claimJobVm now _ | .bindJobVm now _ _ _ | .markJobRunning now _ => [now]
  | .bindJobVmWithLease seed now _ _ _ => [now, seed.createdAt]
  | .beginHostResourceLease seed _ | .beginHostResourceLeaseForVm seed _ _ => [seed.createdAt]
  | _ => []

def Call.readings : Call → List DateTime
  | .tx t => t.readings
  | _ => []

/-- The identity of the host a call reads, absent where none is read or it cannot be. -/
def Tx.identity : Tx → Option HostBoot
  | .bindJobVmWithLease seed _ _ _ _ | .beginHostResourceLease seed _
  | .beginHostResourceLeaseForVm seed _ _ => seed.identity
  | .observeLegacyLeaseBoots identity | .enterHostResourceLeaseBackend _ _ identity
  | .confirmHostResourceLeaseReboot _ identity => identity
  | _ => none

def Call.identity : Call → Option HostBoot
  | .tx t => t.identity
  | _ => none

structure Offer where
  seed : AcceptSeed
  submission : Submission
  request : Option BudgetRequest

def Tx.offer : Tx → Option Offer
  | .acceptJob seed s => some ⟨seed, s, none⟩
  | .acceptJobWithBudget seed s request => some ⟨seed, s, some request⟩
  | _ => none

def Call.offer : Call → Option Offer
  | .tx t => t.offer
  | _ => none

structure Event where
  call : Call
  fault : Option ℕ
  outcome : Outcome

structure World where
  db : Db
  issued : List Uuid

def World.init : World := ⟨.fresh, []⟩

/-- Calls run one after another; the random generator does not repeat itself. -/
def store (c : Codec) : Machine World Event where
  step w e w' :=
    (∀ x ∈ e.call.draws, x ∉ w.issued) ∧
    perform c e.fault w.db e.call = (e.outcome, w'.db) ∧
    w'.issued = w.issued ++ e.call.draws

def World.call (c : Codec) (w : World) (call : Call) : Event × World :=
  let (outcome, db) := perform c none w.db call
  (⟨call, none, outcome⟩, ⟨db, w.issued ++ call.draws⟩)

def World.calls (c : Codec) : World → List Call → List Event × World
  | w, [] => ([], w)
  | w, call :: rest =>
    let (e, w) := w.call c call
    let (es, w) := World.calls c w rest
    (e :: es, w)

def freshDraws : List Uuid → List Call → Bool
  | _, [] => true
  | issued, call :: rest =>
    call.draws.all (· ∉ issued) && freshDraws (issued ++ call.draws) rest

lemma World.calls_run (c : Codec) (w : World) (calls : List Call)
    (h : freshDraws w.issued calls = true) :
    (store c).Run w (w.calls c calls).1 (w.calls c calls).2 := by
  induction calls generalizing w with
  | nil => exact .nil w
  | cons call rest ih =>
    simp only [freshDraws, Bool.and_eq_true, List.all_eq_true, decide_eq_true_eq] at h
    exact .cons ⟨h.1, rfl, rfl⟩ (ih (w.call c call).2 h.2)

def Reachable (c : Codec) (w : World) : Prop := ∃ trace, (store c).Run .init trace w

/-! # Following one job through a run

Identifiers are never drawn twice, so a row found later under the same identifier is the
same job.  The two rules here turn a fact about `Change` into a fact about every run.
-/
open List

/-! ## What a call does to the journal

A call rewrites the jobs it finds by `Change`s, answers a resubmission, or accepts a job.
-/

section
variable {c : Codec} {db db' : Db}

def Tx.grant : Tx → Grant
  | .finishJob id state collection _ => ⟨{(id, state, collection)}, ∅⟩
  | .finishJobFailure id state _ => ⟨{(id, state, .failed)}, ∅⟩
  | .deleteJobEvidence id => ⟨∅, {id}⟩
  | _ => ⟨∅, ∅⟩

def Call.grant : Call → Grant
  | .tx t => t.grant
  | .expireJobEvidence _ => ⟨∅, Set.univ⟩
  | .ensureCidBase _ => ⟨∅, ∅⟩

variable {reply : Reply} {t : Tx}

lemma body_rewrites (ht : t.offer = none)
    (h : body c db t = .ok (reply, db')) : Rewrites (Change c t.grant) db db' := by
  cases t with
  | acceptJob | acceptJobWithBudget => simp [Tx.offer] at ht
  | reserveJobVm | claimJobVm =>
    obtain ⟨_, h, -⟩ := withReply_eq_ok.mp h
    exact reserveJobVmInner_rewrites h
  | bindJobVm =>
    obtain ⟨_, h, -⟩ := withReply_eq_ok.mp h
    simp only [bindJobVm, eq_ok] at h
    obtain ⟨db₁, hbind, -, -, -, rfl⟩ := h
    exact bindOn_rewrites hbind
  | bindJobVmWithLease =>
    rw [body] at h
    obtain ⟨_, h, -⟩ := withReply_eq_ok.mp h
    exact bindJobVmWithLease_rewrites h
  | markJobRunning => exact markJobRunning_rewrites (noReply_eq_ok.mp h).1
  | appendJobEvents => exact appendJobEvents_rewrites (noReply_eq_ok.mp h).1
  | stageJobManifest => exact stageJobManifest_rewrites (noReply_eq_ok.mp h).1
  | retainJobArtifact =>
    obtain ⟨_, h, -⟩ := withReply_eq_ok.mp h
    exact retainJobArtifact_rewrites h
  | finishJob =>
    obtain ⟨_, h, -⟩ := withReply_eq_ok.mp h
    exact finishJobInner_rewrites h rfl
  | finishJobFailure =>
    obtain ⟨_, h, -⟩ := withReply_eq_ok.mp h
    exact finishJobInner_rewrites (finishJobFailure_eq_ok h).2.2 rfl
  | recordJobVmDestruction => exact recordJobVmDestruction_rewrites (noReply_eq_ok.mp h).1
  | recordJobVmAllocationAbort => exact recordJobVmAllocationAbort_rewrites (noReply_eq_ok.mp h).1
  | recordJobLeasedPrebackendAbort =>
    exact recordJobLeasedPrebackendAbort_rewrites (noReply_eq_ok.mp h).1
  | confirmJobCleanup => exact confirmJobCleanup_rewrites (noReply_eq_ok.mp h).1
  | confirmUnallocatedJobCleanup =>
    exact confirmUnallocatedJobCleanup_rewrites (noReply_eq_ok.mp h).1
  | deleteJobEvidence =>
    have h := deleteJobEvidence_rewrites (noReply_eq_ok.mp h).1 (Set.mem_singleton _)
    exact h.mono fun _ _ he => he.change subset_rfl
  | observeLegacyLeaseBoots =>
    have hdb := (observeLegacyLeaseBoots_eq_ok (quiet_ok h)).1
    exact .of_same .same (by constructor <;> rw [hdb])
  | beginHostResourceLease | beginHostResourceLeaseForVm =>
    obtain ⟨_, h, -⟩ := withReply_eq_ok.mp h
    exact .of_same .same
      (Begins.sameJournal (insertHostResourceLease_eq_ok (mapError_eq_ok.mp h)))
  | enterHostResourceLeaseBackend =>
    obtain ⟨-, -, -, hdb, -⟩ := enterHostResourceLeaseBackend_eq_ok (quiet_ok h)
    exact .of_same .same (by constructor <;> rw [hdb])
  | recordHostResourceLeaseDestruction =>
    obtain ⟨-, -, -, -, -, hdb⟩ := recordHostResourceLeaseDestruction_eq_ok (quiet_ok h)
    exact .of_same .same (by constructor <;> rw [hdb])
  | setHostResourceLeaseNetwork =>
    obtain ⟨-, -, -, -, hdb⟩ := setHostResourceLeaseNetwork_eq_ok (quiet_ok h)
    exact .of_same .same (by constructor <;> rw [hdb])
  | confirmHostResourceLeaseReboot =>
    obtain ⟨_, h, -⟩ := withReply_eq_ok.mp h
    have hdb := (confirmLeaseRebootOn_eq_ok (mapError_eq_ok.mp h)).1
    exact .of_same .same (by constructor <;> rw [hdb])
  | commitVmFromHostResourceLease =>
    obtain ⟨-, -, -, -, hdb, -⟩ := commit_eq_ok (quiet_ok h)
    exact .of_same .same (by constructor <;> rw [hdb])
  | releaseHostResourceLease =>
    rcases releaseHostResourceLease_eq_ok (quiet_ok h) with rfl | ⟨_, -, -, -, hdb⟩
    · exact .of_same .same ⟨rfl, rfl, rfl⟩
    · exact .of_same .same (by constructor <;> rw [hdb])
  | updateVmState =>
    have hdb := (updateVmState_eq_ok (quiet_ok h)).1
    exact .of_same .same (by constructor <;> rw [hdb])
  | retireVm =>
    obtain ⟨_, hv, -⟩ := retireVm_eq_ok (quiet_ok h)
    exact .of_same .same (by constructor <;> rw [hv.frame])
  | insertPool =>
    have hdb := insertPool_eq_ok (quiet_ok h)
    exact .of_same .same (by constructor <;> rw [hdb])
  | retirePoolTemplate =>
    obtain ⟨_, hv, -⟩ := retirePoolTemplate_eq_ok (quiet_ok h)
    exact .of_same .same (by constructor <;> rw [hv.frame])

lemma body_not_accepted {record : JobRecord} {fresh : Bool} (ht : t.offer = none) :
    body c db t ≠ .ok (.accepted record fresh, db') := by
  intro h
  cases t with
  | acceptJob | acceptJobWithBudget => simp [Tx.offer] at ht
  | _ => simp [body, noReply_eq_ok, withReply_eq_ok] at h

lemma deleteAll_rewrites {fault : Option ℕ} {ids : List Uuid} :
    Rewrites (Erases Set.univ) db (deleteAll fault db ids).2 := by
  induction ids generalizing fault db with
  | nil =>
    rw [deleteAll]
    exact .of_same .same ⟨rfl, rfl, rfl⟩
  | cons id ids ih =>
  rw [deleteAll.eq_def]
  split
  · exact .of_same .same ⟨rfl, rfl, rfl⟩
  · exact .of_same .same ⟨rfl, rfl, rfl⟩
  rename_i heq
  cases heq
  split
  · rename_i hdelete
    exact .trans (fun _ _ _ => Erases.trans) (fun _ _ => Erases.id_eq)
      (deleteJobEvidence_rewrites hdelete trivial) ih
  · exact .of_same .same ⟨rfl, rfl, rfl⟩

inductive Effect (c : Codec) (db : Db) (call : Call) (outcome : Outcome) (db' : Db) : Prop
  | rewrite (h : Rewrites (Change c call.grant) db db')
      (hreply : ∀ record fresh, outcome ≠ .ok (.accepted record fresh))
  | replay (o : Offer) (record : JobRecord) (hcall : call.offer = some o)
      (hout : outcome = .ok (.accepted record false))
      (hdb : db' = purgeTombstones db o.seed.now) (h : Replays c db o.seed o.submission record)
  | accept (o : Offer) (record : JobRecord) (hcall : call.offer = some o)
      (hout : outcome = .ok (.accepted record true)) (hid : record.id = o.seed.id)
      (h : Accepts c db o.seed o.submission o.request db')

lemma acceptJobWithBudget_eq_ok {seed : AcceptSeed} {s : Submission} {q : BudgetRequest}
    {p : (JobRecord × Bool) × Db} (h : acceptJobWithBudget c db seed s q = .ok p) :
    acceptJobInner c db seed s (some q) = .ok p := by
  simp only [acceptJobWithBudget, eq_ok] at h
  obtain ⟨-, -, h⟩ := h
  exact h

lemma accept_effect {o : Offer} (ht : t.offer = some o)
    (h : body c db t = .ok (reply, db')) : Effect c db (.tx t) (.ok reply) db' := by
  obtain ⟨record, fresh, rfl, hinner⟩ : ∃ record fresh, reply = .accepted record fresh ∧
      acceptJobInner c db o.seed o.submission o.request = .ok ((record, fresh), db') := by
    cases t with
    | acceptJob seed s =>
      obtain rfl : o = ⟨seed, s, none⟩ := by simpa [Tx.offer, eq_comm] using ht
      rw [body] at h
      obtain ⟨⟨record, fresh⟩, hbody, rfl⟩ := withReply_eq_ok.mp h
      exact ⟨record, fresh, rfl, hbody⟩
    | acceptJobWithBudget seed s q =>
      obtain rfl : o = ⟨seed, s, some q⟩ := by simpa [Tx.offer, eq_comm] using ht
      rw [body] at h
      obtain ⟨⟨record, fresh⟩, hbody, rfl⟩ := withReply_eq_ok.mp h
      exact ⟨record, fresh, rfl, acceptJobWithBudget_eq_ok hbody⟩
    | _ => simp [Tx.offer] at ht
  rcases acceptJobInner_eq_ok hinner with ⟨rfl, hdb, hreplay⟩ | ⟨rfl, hid, haccept⟩
  · exact .replay o record ht rfl hdb hreplay
  · exact .accept o record ht rfl hid haccept

lemma failure_effect {call : Call} {e : JournalError} (h : Rewrites (Change c call.grant) db db') :
    Effect c db call (.error e) db' := .rewrite h (by simp)

lemma perform_effect (c : Codec) (fault : Option ℕ) (db : Db) (call : Call) :
    Effect c db call (perform c fault db call).1 (perform c fault db call).2 := by
  have hsame : Rewrites (Change c call.grant) db db := .of_same .same ⟨rfl, rfl, rfl⟩
  cases call with
  | tx t =>
    rcases perform_tx c fault db t with ⟨reply, db', hbody, ht⟩ | ⟨e, ht⟩
    · rw [ht]
      cases hoffer : t.offer with
      | some o => exact accept_effect hoffer hbody
      | none =>
        refine .rewrite (body_rewrites hoffer hbody) fun record fresh hreply => ?_
        rw [Except.ok.injEq] at hreply
        exact body_not_accepted hoffer (hreply ▸ hbody)
    · rw [ht]
      exact failure_effect hsame
  | expireJobEvidence now =>
    refine .rewrite (deleteAll_rewrites.mono fun _ _ he => he.change subset_rfl)
      fun record fresh => ?_
    simp only [perform]
    cases (deleteAll fault db (expiredJobs db now)).1 <;> simp [Except.map]
  | ensureCidBase base =>
  refine .rewrite (.of_same .same ?_) fun record fresh => ?_
  · simp only [perform]
    split <;> exact ⟨rfl, rfl, rfl⟩
  · simp only [perform]
    split <;> simp

end

variable {c : Codec} {w w' : World} {e : Event}

lemma step_effect (h : (store c).step w e w') : Effect c w.db e.call e.outcome w'.db := by
  have := perform_effect c e.fault w.db e.call
  rwa [h.2.1] at this

variable {t : Tx}

lemma step_body (h : (store c).step w e w') {reply : Reply} (hcall : e.call = .tx t)
    (hout : e.outcome = .ok reply) : body c w.db t = .ok (reply, w'.db) := by
  have hperform := h.2.1
  rw [hcall, hout] at hperform
  rcases perform_tx c e.fault w.db t with ⟨reply', db', hbody, ht⟩ | ⟨err, ht⟩
  · rw [ht, Prod.mk.injEq, Except.ok.injEq] at hperform
    rw [hbody, hperform.1, hperform.2]
  · rw [ht] at hperform
    simp at hperform

lemma step_failed (h : (store c).step w e w') {err : JournalError}
    (hcall : e.call = .tx t) (hout : e.outcome = .error err) : w'.db = w.db := by
  have hperform := h.2.1
  rw [hcall, hout] at hperform
  rcases perform_tx c e.fault w.db t with ⟨reply, db', -, ht⟩ | ⟨e', ht⟩
  · rw [ht] at hperform
    simp at hperform
  · rw [ht, Prod.mk.injEq] at hperform
    exact hperform.2.symm

lemma Reachable.step (hw : Reachable c w) (h : (store c).step w e w') : Reachable c w' :=
  hw.elim fun _ hrun => ⟨_, hrun.snoc h⟩

variable {trace : List Event}

lemma Reachable.run (hw : Reachable c w) (h : (store c).Run w trace w') : Reachable c w' :=
  hw.elim fun _ hrun => ⟨_, hrun.append h⟩

lemma issued_mono (h : (store c).step w e w') (id : Uuid) (hid : id ∈ w.issued) :
    id ∈ w'.issued := by
  rw [h.2.2]
  exact mem_append_left _ hid

variable {o : Offer}

lemma offer_seed {call : Call} (h : call.offer = some o) :
    o.seed.now ∈ call.readings ∧ o.seed.id ∈ call.draws := by
  cases call with
  | tx t =>
    cases t with
    | acceptJob | acceptJobWithBudget =>
      simp only [Call.offer, Tx.offer, Option.some.injEq] at h
      subst h
      simp [Call.readings, Tx.readings, Call.draws, Tx.draws]
    | _ => simp [Call.offer, Tx.offer] at h
  | _ => simp [Call.offer] at h

structure Issued (w : World) : Prop where
  jobs : ∀ r ∈ w.db.jobs.rows, r.id ∈ w.issued
  evidence : ∀ id, id ∉ w.issued → evidenceRows w.db id = ([], [])

variable {db : Db} {r' r : JobRow}

lemma evidenceRows_purgeTombstones {now : DateTime} {id : Uuid}
    (h : evidenceRows db id = ([], [])) : evidenceRows (purgeTombstones db now) id = ([], []) := by
  simp only [evidenceRows, eventsOf, artifactsOf, Prod.mk.injEq, filter_eq_nil_iff,
    purgeTombstones, Table.rows_delete, mem_filter] at h ⊢
  exact ⟨fun e he => h.1 e he.1, fun a ha => h.2 a ha.1⟩

variable {db' : Db}

lemma evidenceRows_of_accepts {seed : AcceptSeed} {s : Submission}
    {request : Option BudgetRequest} (h : Accepts c db seed s request db') (id : Uuid) :
    evidenceRows db' id = evidenceRows (purgeTombstones db seed.now) id := by
  rw [h.frame]
  rfl

lemma step_rows (h : (store c).step w e w') (hr' : r' ∈ w'.db.jobs.rows) :
    (∃ r ∈ w.db.jobs.rows, Change c e.call.grant (viewOf w.db r) (viewOf w'.db r')) ∨
      ∃ o record, e.call.offer = some o ∧ e.outcome = .ok (.accepted record true) ∧
        Accepts c w.db o.seed o.submission o.request w'.db ∧
        r' = acceptedRow c o.seed o.submission := by
  cases step_effect h with
  | rewrite hrewrites =>
    obtain ⟨next, hrows, hnext⟩ := hrewrites.jobs
    rw [hrows] at hr'
    obtain ⟨r, hr, rfl⟩ := mem_map.mp hr'
    exact .inl ⟨r, hr, hnext r hr⟩
  | replay o record _ _ hdb =>
    rw [hdb] at hr'
    refine .inl ⟨r', (mem_purgeTombstones.mp hr').1, ?_⟩
    rw [hdb, viewOf_purgeTombstones hr']
    exact .same _
  | accept o record hcall hout _ haccept =>
  rw [haccept.rows, mem_append, mem_singleton] at hr'
  rcases hr' with hr' | rfl
  · refine .inl ⟨r', (mem_purgeTombstones.mp hr').1, ?_⟩
    rw [viewOf_eq w'.db, evidenceRows_of_accepts haccept, ← viewOf_eq, viewOf_purgeTombstones hr']
    exact .same _
  · exact .inr ⟨o, record, hcall, hout, haccept, rfl⟩

lemma step_keeps (h : (store c).step w e w') (hr : r ∈ w.db.jobs.rows)
    (hlive : r.state ≠ .deleted) :
    ∃ r' ∈ w'.db.jobs.rows, Change c e.call.grant (viewOf w.db r) (viewOf w'.db r') := by
  have hkept (now : DateTime) : r ∈ (purgeTombstones w.db now).jobs.rows :=
    mem_purgeTombstones.mpr ⟨hr, fun h => hlive h.1⟩
  cases step_effect h with
  | rewrite hrewrites =>
    obtain ⟨next, hrows, hnext⟩ := hrewrites.jobs
    exact ⟨next r, by rw [hrows]; exact mem_map_of_mem hr, hnext r hr⟩
  | replay o record _ _ hdb =>
    refine ⟨r, by rw [hdb]; exact hkept _, ?_⟩
    rw [hdb, viewOf_purgeTombstones (hkept _)]
    exact .same _
  | accept o record _ _ _ haccept =>
    refine ⟨r, by rw [haccept.rows]; exact mem_append_left _ (hkept _), ?_⟩
    rw [viewOf_eq w'.db, evidenceRows_of_accepts haccept, ← viewOf_eq,
      viewOf_purgeTombstones (hkept _)]
    exact .same _

lemma Change.id_eq {g : Grant} (h : Change c g (viewOf db r) (viewOf db' r')) :
    r'.id = r.id := h.identity.1

lemma Issued.step (hw : Issued w) (h : (store c).step w e w') : Issued w' := by
  have hgrow : ∀ id ∈ w.issued, id ∈ w'.issued := by
    intro id hid
    rw [h.2.2]
    exact mem_append_left _ hid
  constructor
  · intro r' hr'
    rcases step_rows h hr' with ⟨r, hr, hchange⟩ | ⟨o, -, hcall, -, -, rfl⟩
    · rw [Change.id_eq hchange]
      exact hgrow _ (hw.jobs r hr)
    · rw [h.2.2]
      exact mem_append_right _ (offer_seed hcall).2
  · intro id hid
    have hold := hw.evidence id fun hmem => hid (hgrow id hmem)
    cases step_effect h with
    | rewrite hrewrites =>
      rw [hrewrites.others id fun r hr hrid => hid (hgrow id (hrid ▸ hw.jobs r hr)), hold]
    | replay o record _ _ hdb =>
      rw [hdb]
      exact evidenceRows_purgeTombstones hold
    | accept o record _ _ _ haccept =>
      rw [evidenceRows_of_accepts haccept]
      exact evidenceRows_purgeTombstones hold

lemma issued_init : Issued .init := ⟨by simp [World.init, Db.fresh], fun _ _ => rfl⟩

lemma Reachable.issued (h : Reachable c w) : Issued w := by
  obtain ⟨trace, hrun⟩ := h
  exact hrun.invariant issued_init fun _ _ _ hw hstep => hw.step hstep

lemma viewOf_accepted (hw : Issued w) (h : (store c).step w e w') (hcall : e.call.offer = some o) (haccept : Accepts c w.db o.seed o.submission o.request w'.db) :
    viewOf w'.db (acceptedRow c o.seed o.submission) =
      ⟨acceptedRow c o.seed o.submission, [], []⟩ := by
  have hnone := hw.evidence o.seed.id (h.1 _ (offer_seed hcall).2)
  rw [viewOf_eq, evidenceRows_of_accepts haccept]
  change JobView.mk _ (evidenceRows _ o.seed.id).1 (evidenceRows _ o.seed.id).2 = _
  rw [evidenceRows_purgeTombstones hnone]

variable {I : JobView → Prop}

lemma view_invariant (hnew : ∀ seed s, Admissible c s → I ⟨acceptedRow c seed s, [], []⟩)
    (hchange : ∀ g v v', I v → Change c g v v' → I v') (hw : Reachable c w) :
    ∀ r ∈ w.db.jobs.rows, I (viewOf w.db r) := by
  obtain ⟨trace, hrun⟩ := hw
  refine (hrun.invariant (I := fun w => Issued w ∧ ∀ r ∈ w.db.jobs.rows, I (viewOf w.db r))
    ⟨issued_init, by simp [World.init, Db.fresh]⟩ ?_).2
  intro w e w' ⟨hissued, hI⟩ hstep
  refine ⟨hissued.step hstep, fun r' hr' => ?_⟩
  rcases step_rows hstep hr' with ⟨r, hr, hch⟩ | ⟨o, -, hcall, -, haccept, rfl⟩
  · exact hchange _ _ _ (hI r hr) hch
  · rw [viewOf_accepted hissued hstep hcall haccept]
    exact hnew _ _ haccept.admissible

def World.stores (w : World) (v : JobView) : Prop := ∃ r ∈ w.db.jobs.rows, v = viewOf w.db r

/-- A later row of a job is related to the earlier one by whatever relates the two sides of
each change. -/
lemma run_tracks {R : JobView → JobView → Prop} (hrefl : ∀ v, R v v)
    (htrans : ∀ u v w, R u v → R v w → R u w) (hnew : ∀ seed s, Admissible c s → I ⟨acceptedRow c seed s, [], []⟩)
    (hinv : ∀ g v v', I v → Change c g v v' → I v')
    (hchange : ∀ g v v', I v → Change c g v v' → R v v') (hw : Reachable c w) (hrun : (store c).Run w trace w') (hr : r ∈ w.db.jobs.rows)
    (hr' : r' ∈ w'.db.jobs.rows) (hid : r'.id = r.id) : R (viewOf w.db r) (viewOf w'.db r') := by
  have hstep : ∀ w₁ e w₂, Reachable c w₁ → (store c).step w₁ e w₂ → ∀ v', w₂.stores v' →
      (∃ v, w₁.stores v ∧ v'.row.id = v.row.id ∧ R v v') ∨ v'.row.id ∉ w₁.issued := by
    rintro w₁ e w₂ hw₁ hstep _ ⟨r', hr', rfl⟩
    rcases step_rows hstep hr' with ⟨r, hr, hch⟩ | ⟨o, -, hcall, -, -, rfl⟩
    · have hI := view_invariant hnew hinv hw₁ r hr
      exact .inl ⟨_, ⟨r, hr, rfl⟩, Change.id_eq hch, hchange _ _ _ hI hch⟩
    · exact .inr (hstep.1 _ (offer_seed hcall).2)
  have hissued : r'.id ∈ w.issued := hid ▸ (Reachable.issued hw).jobs r hr
  obtain ⟨_, ⟨r₀, hr₀, rfl⟩, hid₀, hR⟩ := hrun.tracks (U := fun w id => id ∈ w.issued) hw
    (fun _ _ _ => Reachable.step) hrefl htrans (fun _ _ _ => issued_mono) hstep
    (viewOf w'.db r') ⟨r', hr', rfl⟩ hissued
  have hid₀ : r'.id = r₀.id := hid₀
  rwa [row_unique hr₀ hr (hid₀.symm.trans hid)] at hR

end Husker.System
