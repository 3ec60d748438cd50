import Husker.System.Publication
import Husker.System.Custody

/-! # What the transactions of a recovery can do

Each transaction publishes one of three outcomes for an open job, or marks a lease and its
job as aborted.  Whatever is reflexive, transitive and true of these two holds across every
attempt, whether it completes or not.
-/
namespace Husker.Recovery
open Relational Store Journal Lease Husker.System Table

/-! ## Recovery after a daemon restart

Recovery never resumes guest execution: it publishes an outcome for every job that has none
and then fences the leases whose backend was not entered.  It is a loop of separate
transactions, and the daemon may die, or the database refuse, at each of them.
-/

/-! ## What recovery reads -/

def recoverableJobs (db : Db) : Except JournalError (List JobRecord) := do
  let rows := db.jobs.rows.filter fun r =>
    r.state ∈ [.live .accepted, .live .preparing, .live .running] || r.cleanupPending
  let jobs ← (rows.mapM readRecord).mapError .database
  return jobs.insertionSort recoverBefore

def leaseBefore (a b : LeaseRow) : Prop :=
  a.createdAt.nanos < b.createdAt.nanos ∨
    (a.createdAt.nanos = b.createdAt.nanos ∧ a.id.bits ≤ b.id.bits)

instance : DecidableRel leaseBefore := fun _ _ => inferInstanceAs (Decidable (_ ∨ _))

def listHostResourceLeases (db : Db) : List LeaseRow := db.leases.rows.insertionSort leaseBefore

def jobForPendingVmName (db : Db) (name : String) : Except JournalError (Option JobRecord) :=
  match db.jobs.rows.find? fun r => r.vmName = some name && r.cleanupPending with
  | none => .ok none
  | some row => do
    let job ← (readRecord row).mapError .database
    return some job

def remainingDeadline (now : DateTime) (deadline : ℤ) : ℕ :=
  ((DateTime.ofSeconds deadline).nanos - now.nanos).toNat

/-! ## What it decides -/

def hostError (error : String) : Json :=
  .object [
    ("collection", .string "failed"),
    ("host_error", .string (String.ofList (error.toList.take 512))),
    ("retained_output", .string "journaled prefix; final tail may be unavailable")]

def restartError : String :=
  "daemon restarted; execution will not be resubmitted; confirmed VM cleanup required"

def restartOutcome (now : DateTime) (job : JobRecord) : JobState :=
  if remainingDeadline now job.deadline = 0 then .timedOut
  else if job.state = .accepted then .interrupted
  else .unknown

/-- `try_seal` of the restart outcome. -/
def sealing (c : Codec) (now : DateTime) (job : JobRecord) : Tx :=
  .finishJobFailure job.id (restartOutcome now job) (c.toText (hostError restartError))

/-- The job whose abort fences a lease, when the lease was planned and not entered. -/
def fencedJob (db : Db) (lease : LeaseRow) : Except JournalError (Option (JobRecord × Uuid)) :=
  match lease.vmId with
  | none => .ok none
  | some vmId =>
    if lease.backendEntered || lease.vmDestroyed then .ok none
    else do
      match ← jobForPendingVmName db lease.vmName with
      | none => return none
      | some job =>
        if !job.state.terminal || job.vmId ≠ lease.vmId then return none
        else return some (job, vmId)

/-! ## The attempt -/

/-- What becomes of a transaction: the database commits or refuses it, or the daemon dies first. -/
inductive Fate where
  | commit | refuse | crash
  deriving DecidableEq

def Fate.fault : Fate → Option ℕ
  | .refuse => some 0
  | _ => none

/-- The clock readings of one attempt and the fate of its transactions, by job and by lease. -/
structure Conditions where
  clock : Uuid → DateTime
  sealing : Uuid → Fate
  fencing : Uuid → Fate

inductive Halt where
  | crashed
  | failed (e : JournalError)
  deriving DecidableEq

/-- The first loop.  A publication that fails is only logged, but the outcome is read back. -/
def sealAll (c : Codec) (env : Conditions) : Db → List JobRecord → Except Halt ℕ × Db
  | db, [] => (.ok 0, db)
  | db, job :: jobs =>
    if job.state.terminal then sealAll c env db jobs
    else if env.sealing job.id = .crash then (.error .crashed, db)
    else
      let db := (perform c (env.sealing job.id).fault db (.tx (sealing c (env.clock job.id) job))).2
      match getOn db job.id with
      | .error e => (.error (.failed e), db)
      | .ok read =>
        if read.state.terminal then
          let (interrupted, db) := sealAll c env db jobs
          (interrupted.map (· + 1), db)
        else (.error (.failed (.conflict "restart outcome was not persisted")), db)

/-- The second loop.  A conflict preserves the lease, any other error ends the attempt. -/
def fenceAll (c : Codec) (env : Conditions) : Db → List LeaseRow → Except Halt Unit × Db
  | db, [] => (.ok (), db)
  | db, lease :: leases =>
    match fencedJob db lease with
    | .error e => (.error (.failed e), db)
    | .ok none => fenceAll c env db leases
    | .ok (some (job, vmId)) =>
      if env.fencing lease.id = .crash then (.error .crashed, db)
      else
        let abort := Tx.recordJobLeasedPrebackendAbort job.id vmId lease.id
        match perform c (env.fencing lease.id).fault db (.tx abort) with
        | (.ok _, db) | (.error (.conflict _), db) => fenceAll c env db leases
        | (.error e, db) => (.error (.failed e), db)

def recoverAfterRestart (c : Codec) (env : Conditions) (db : Db) : Except Halt ℕ × Db :=
  match recoverableJobs db with
  | .error e => (.error (.failed e), db)
  | .ok jobs =>
    match sealAll c env db jobs with
    | (.error halt, db) => (.error halt, db)
    | (.ok interrupted, db) =>
      let (fenced, db) := fenceAll c env db (listHostResourceLeases db)
      (fenced.map fun _ => interrupted, db)

def afterAttempts (c : Codec) (db : Db) (attempts : List Conditions) : Db :=
  attempts.foldl (fun db env => (recoverAfterRestart c env db).2) db

variable {c : Codec} {db db' : Db} {env : Conditions}

/-! ## Induction over an attempt -/

section
variable {R : Db → Db → Prop} (hrefl : ∀ db, R db db) (htrans : ∀ a b d, R a b → R b d → R a d)
  (hseal : ∀ db fault now job, R db (perform c fault db (.tx (sealing c now job))).2)
  (hfence : ∀ db fault id vmId leaseId,
    R db (perform c fault db (.tx (.recordJobLeasedPrebackendAbort id vmId leaseId))).2)

include hrefl htrans hseal in
lemma sealAll_closed (env : Conditions) (db : Db) (jobs : List JobRecord) :
    R db (sealAll c env db jobs).2 := by
  induction jobs generalizing db with
  | nil => exact hrefl db
  | cons job jobs ih =>
  rw [sealAll]
  split_ifs
  · exact ih db
  · exact hrefl db
  have hone := hseal db (env.sealing job.id).fault (env.clock job.id) job
  dsimp only
  split
  · exact hone
  · split_ifs
    · exact htrans _ _ _ hone (ih _)
    · exact hone

include hrefl htrans hfence in
lemma fenceAll_closed (env : Conditions) (db : Db) (leases : List LeaseRow) :
    R db (fenceAll c env db leases).2 := by
  induction leases generalizing db with
  | nil => exact hrefl db
  | cons lease leases ih =>
  rw [fenceAll]
  split
  · exact hrefl db
  · exact ih db
  rename_i job vmId _
  have hone := hfence db (env.fencing lease.id).fault job.id vmId lease.id
  split_ifs
  · exact hrefl db
  · dsimp only
    split <;> rename_i heq <;> rw [heq] at hone
    · exact htrans _ _ _ hone (ih _)
    · exact htrans _ _ _ hone (ih _)
    · exact hone

include hrefl htrans hseal hfence

lemma recoverAfterRestart_closed (env : Conditions) (db : Db) :
    R db (recoverAfterRestart c env db).2 := by
  rw [recoverAfterRestart]
  split
  · exact hrefl db
  · rename_i jobs _
    have hsealed := sealAll_closed hrefl htrans hseal env db jobs
    split <;> rename_i heq <;> rw [heq] at hsealed
    · exact hsealed
    · exact htrans _ _ _ hsealed (fenceAll_closed hrefl htrans hfence env _ _)

lemma afterAttempts_closed (db : Db) (attempts : List Conditions) :
    R db (afterAttempts c db attempts) := by
  induction attempts generalizing db with
  | nil => exact hrefl db
  | cons env attempts ih =>
    exact htrans _ _ _ (recoverAfterRestart_closed hrefl htrans hseal hfence env db) (ih _)

end

/-! ## Jobs and leases under recovery -/

def restartOutcomes : List JobState := [.timedOut, .interrupted, .unknown]

lemma restartOutcome_mem (now : DateTime) (job : JobRecord) :
    restartOutcome now job ∈ restartOutcomes := by
  unfold restartOutcome
  split_ifs <;> decide

def jobKey (r : JobRow) : Uuid × Option Uuid × Option String × Bool × Bool × Option String :=
  (r.id, r.vmId, r.vmName, r.cleanupPending, r.vmDestroyed, r.specification)

/-- What recovery makes of a job: an open one gets an outcome, and its allocation may be
recorded as aborted. -/
structure JobRecovers (r r' : JobRow) : Prop where
  key : jobKey r' = jobKey r
  state : (r'.state = r.state ∧ r'.manifest = r.manifest) ∨
    (∃ s, r.state = .live s ∧ s.terminal = false) ∧ ∃ s ∈ restartOutcomes, r'.state = .live s
  aborted : r.vmAllocationAborted = true → r'.vmAllocationAborted = true

def leaseKey (l : LeaseRow) : Uuid × String × Option Uuid × Bool × Bool :=
  (l.id, l.vmName, l.vmId, l.backendEntered, l.vmDestroyed)

structure LeaseRecovers (l l' : LeaseRow) : Prop where
  key : leaseKey l' = leaseKey l
  aborted : l.allocationAborted = true → l'.allocationAborted = true

lemma JobRecovers.id_eq {r r' : JobRow} (h : JobRecovers r r') : r'.id = r.id :=
  congrArg Prod.fst h.key

lemma LeaseRecovers.id_eq {l l' : LeaseRow} (h : LeaseRecovers l l') : l'.id = l.id :=
  congrArg Prod.fst h.key

lemma JobRecovers.refl (r : JobRow) : JobRecovers r r := ⟨rfl, .inl ⟨rfl, rfl⟩, id⟩

lemma terminal_of_mem {s : JobState} (h : s ∈ restartOutcomes) : s.terminal = true := by
  fin_cases h <;> rfl

lemma JobRecovers.trans {r r' r'' : JobRow} (h : JobRecovers r r') (h' : JobRecovers r' r'') :
    JobRecovers r r'' := by
  refine ⟨h'.key.trans h.key, ?_, fun hr => h'.aborted (h.aborted hr)⟩
  rcases h'.state with ⟨heq', hmanifest⟩ | ⟨⟨s, hs, hopen⟩, hdecided⟩
  · rw [heq', hmanifest]
    exact h.state
  · rcases h.state with ⟨heq, -⟩ | ⟨-, t, ht, hstate⟩
    · exact .inr ⟨⟨s, heq ▸ hs, hopen⟩, hdecided⟩
    · rw [hs, StoredState.live.injEq] at hstate
      rw [hstate, terminal_of_mem ht] at hopen
      contradiction

lemma LeaseRecovers.refl (l : LeaseRow) : LeaseRecovers l l := ⟨rfl, id⟩

lemma LeaseRecovers.trans {l l' l'' : LeaseRow} (h : LeaseRecovers l l')
    (h' : LeaseRecovers l' l'') : LeaseRecovers l l'' :=
  ⟨h'.key.trans h.key, fun hl => h'.aborted (h.aborted hl)⟩

structure Recovers (db db' : Db) : Prop where
  jobs : ∀ r ∈ db.jobs.rows, ∃ r' ∈ db'.jobs.rows, JobRecovers r r'
  leases : ∀ l ∈ db.leases.rows, ∃ l' ∈ db'.leases.rows, LeaseRecovers l l'
  jobs_back : ∀ r' ∈ db'.jobs.rows, ∃ r ∈ db.jobs.rows, JobRecovers r r'
  leases_back : ∀ l' ∈ db'.leases.rows, ∃ l ∈ db.leases.rows, LeaseRecovers l l'
  vms : db'.vms = db.vms

lemma Recovers.refl (db : Db) : Recovers db db :=
  ⟨fun r hr => ⟨r, hr, .refl r⟩, fun l hl => ⟨l, hl, .refl l⟩, fun r hr => ⟨r, hr, .refl r⟩,
    fun l hl => ⟨l, hl, .refl l⟩, rfl⟩

lemma Recovers.trans {a b d : Db} (h : Recovers a b) (h' : Recovers b d) : Recovers a d := by
  refine ⟨fun r hr => ?_, fun l hl => ?_, fun r hr => ?_, fun l hl => ?_, h'.vms.trans h.vms⟩
  · obtain ⟨r₁, hr₁, hstep⟩ := h.jobs r hr
    obtain ⟨r₂, hr₂, hstep'⟩ := h'.jobs r₁ hr₁
    exact ⟨r₂, hr₂, hstep.trans hstep'⟩
  · obtain ⟨l₁, hl₁, hstep⟩ := h.leases l hl
    obtain ⟨l₂, hl₂, hstep'⟩ := h'.leases l₁ hl₁
    exact ⟨l₂, hl₂, hstep.trans hstep'⟩
  · obtain ⟨r₁, hr₁, hstep'⟩ := h'.jobs_back r hr
    obtain ⟨r₀, hr₀, hstep⟩ := h.jobs_back r₁ hr₁
    exact ⟨r₀, hr₀, hstep.trans hstep'⟩
  · obtain ⟨l₁, hl₁, hstep'⟩ := h'.leases_back l hl
    obtain ⟨l₀, hl₀, hstep⟩ := h.leases_back l₁ hl₁
    exact ⟨l₀, hl₀, hstep.trans hstep'⟩

lemma finishJobFailure_recovers {id : Uuid} {state : JobState} {envelope : String}
    {record : JobRecord} (hstate : state ∈ restartOutcomes)
    (h : finishJobFailure c db id state envelope = .ok (record, db')) : Recovers db db' := by
  obtain ⟨r, hr, rfl, hopen, m, hupdate⟩ := finishJobFailure_publishes h
  obtain ⟨hframe, hjobs⟩ := updateJob_eq_ok hupdate
  have hrows := (update?_eq_some hjobs).1
  have hjob : ∀ x ∈ db.jobs.rows, decide (x.id = r.id) = true →
      JobRecovers x (publishedRow state .failed m x) := by
    intro x hx hp
    rw [row_unique hx hr (of_decide_eq_true hp)]
    exact ⟨rfl, .inr ⟨hopen, state, hstate, rfl⟩, id⟩
  obtain ⟨hforward, hback⟩ := exists_updated JobRecovers.refl hjob
  rw [← hrows] at hforward hback
  have hleases : db'.leases = db.leases := by rw [hframe]
  refine ⟨hforward, fun l hl => ⟨l, ?_, .refl l⟩, hback, fun l hl => ⟨l, ?_, .refl l⟩, ?_⟩
  · rw [hleases]
    exact hl
  · rw [← hleases]
    exact hl
  · rw [hframe]

lemma recordJobLeasedPrebackendAbort_recovers {id vmId leaseId : Uuid}
    (h : recordJobLeasedPrebackendAbort db id vmId leaseId = .ok db') : Recovers db db' := by
  obtain ⟨r, -, -, -, -, -, -, -, l, hl, -, hframe, hjobs⟩ := recordJobLeasedPrebackendAbort_eq_ok h
  have hjob : (∀ r ∈ db.jobs.rows, ∃ r' ∈ db'.jobs.rows, JobRecovers r r') ∧
      ∀ r' ∈ db'.jobs.rows, ∃ r ∈ db.jobs.rows, JobRecovers r r' := by
    rw [hjobs]
    exact exists_updated JobRecovers.refl fun _ _ _ => ⟨rfl, .inl ⟨rfl, rfl⟩, fun _ => rfl⟩
  have hlease : (∀ l ∈ db.leases.rows, ∃ l' ∈ db'.leases.rows, LeaseRecovers l l') ∧
      ∀ l' ∈ db'.leases.rows, ∃ l ∈ db.leases.rows, LeaseRecovers l l' := by
    rw [hl.rows]
    exact exists_updated LeaseRecovers.refl fun _ _ _ => ⟨rfl, fun _ => rfl⟩
  exact ⟨hjob.1, hlease.1, hjob.2, hlease.2, by rw [hframe]⟩

variable {t : Tx}

lemma perform_recovers {fault : Option ℕ} (h : ∀ reply db', body c db t = .ok (reply, db') → Recovers db db') :
    Recovers db (perform c fault db (.tx t)).2 := by
  rcases perform_tx c fault db t with ⟨reply, db', hbody, ht⟩ | ⟨e, ht⟩
  · rw [ht]
    exact h reply db' hbody
  · rw [ht]
    exact .refl db

lemma sealing_recovers (db : Db) (fault : Option ℕ) (now : DateTime) (job : JobRecord) :
    Recovers db (perform c fault db (.tx (sealing c now job))).2 := by
  refine perform_recovers fun reply db' hbody => ?_
  obtain ⟨_, h, -⟩ := withReply_eq_ok.mp hbody
  exact finishJobFailure_recovers (restartOutcome_mem now job) h

lemma fencing_recovers (db : Db) (fault : Option ℕ) (id vmId leaseId : Uuid) :
    Recovers db (perform c fault db (.tx (.recordJobLeasedPrebackendAbort id vmId leaseId))).2 :=
  perform_recovers fun _ _ hbody =>
    recordJobLeasedPrebackendAbort_recovers (noReply_eq_ok.mp hbody).1

lemma sealAll_recovers (env : Conditions) (db : Db) (jobs : List JobRecord) :
    Recovers db (sealAll c env db jobs).2 :=
  sealAll_closed .refl (fun _ _ _ => .trans) sealing_recovers env db jobs

lemma fenceAll_recovers (env : Conditions) (db : Db) (leases : List LeaseRow) :
    Recovers db (fenceAll c env db leases).2 :=
  fenceAll_closed .refl (fun _ _ _ => .trans) fencing_recovers env db leases

lemma recoverAfterRestart_recovers (env : Conditions) (db : Db) :
    Recovers db (recoverAfterRestart c env db).2 :=
  recoverAfterRestart_closed .refl (fun _ _ _ => .trans) sealing_recovers fencing_recovers env db

lemma afterAttempts_recovers (db : Db) (attempts : List Conditions) :
    Recovers db (afterAttempts c db attempts) :=
  afterAttempts_closed .refl (fun _ _ _ => .trans) sealing_recovers fencing_recovers db attempts

/-! ## Attempts as calls on the store -/

/-- Calls that delete no evidence and draw no identifier lead from one state to the other. -/
def Called (c : Codec) (db db' : Db) : Prop :=
  ∀ issued, ∃ trace, (store c).Run ⟨db, issued⟩ trace ⟨db', issued⟩ ∧
    ∀ e ∈ trace, e.call.grant.deletes = ∅

lemma Called.refl (db : Db) : Called c db db := fun _ => ⟨[], .nil _, by simp⟩

lemma Called.trans {a b d : Db} (h : Called c a b) (h' : Called c b d) : Called c a d := by
  intro issued
  obtain ⟨t₁, hrun₁, hkeep₁⟩ := h issued
  obtain ⟨t₂, hrun₂, hkeep₂⟩ := h' issued
  refine ⟨t₁ ++ t₂, hrun₁.append hrun₂, fun e he => ?_⟩
  exact (List.mem_append.mp he).elim (hkeep₁ e) (hkeep₂ e)

lemma called_perform (db : Db) (fault : Option ℕ) (hdraws : t.draws = [])
    (hdeletes : t.grant.deletes = ∅) : Called c db (perform c fault db (.tx t)).2 := by
  intro issued
  have hcall : Call.draws (.tx t) = [] := hdraws
  refine ⟨[⟨.tx t, fault, (perform c fault db (.tx t)).1⟩], .cons ⟨?_, rfl, ?_⟩ (.nil _), ?_⟩
  · simp [hcall]
  · simp [hcall]
  · simpa [Call.grant] using hdeletes

lemma afterAttempts_called (db : Db) (attempts : List Conditions) :
    Called c db (afterAttempts c db attempts) :=
  afterAttempts_closed .refl (fun _ _ _ => .trans)
    (fun db fault _ _ => called_perform db fault rfl rfl)
    (fun db fault _ _ _ => called_perform db fault rfl rfl) db attempts

end Husker.Recovery
