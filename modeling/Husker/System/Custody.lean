import Husker.System.Track

/-! # Following one lease through a run

Lease identifiers are drawn once, so a lease found later under the same identifier is the same
lease, and a lease that left the table never comes back.
-/
namespace Husker.System
open Relational Store Journal Lease List Rewritten

/-! ## What a call does to leases, VM records and CIDs

Everything a committed transaction can do to the host tables, one constructor for each
operation that writes them.  The invariants of leases, CIDs and boot evidence are derived
from this list alone.
-/

section
variable {c : Codec} {db db' : Db}

def owner (v : VmRow) : Uuid × String × ℕ := (v.id, v.name, v.vsockCid)

inductive HostEffect (db : Db) (t : Tx) (db' : Db) : Prop
  | idle (h : SameHost db db')
  | relabel (hleases : db'.leases = db.leases) (hepochs : db'.epochs = db.epochs)
      (hnext : db'.nextCid = db.nextCid) (hfreed : db'.freedCids = db.freedCids)
      (hvms : db'.vms.rows.map owner = db.vms.rows.map owner)
  | begins (seed : LeaseSeed) (name : String) (vmId : Option Uuid) (lease : LeaseRow)
      (hdraw : t.draws = [seed.id]) (hidentity : t.identity = seed.identity)
      (h : Begins { db with jobs := db'.jobs } db' seed name vmId lease)
  | enter (id vmId : Uuid) (identity : Option HostBoot) (l : LeaseRow)
      (ht : t = .enterHostResourceLeaseBackend id vmId identity)
      (hl : Rewritten db db' l (enteredRow vmId)) (heligible : eligible id vmId l = true)
      (hframe : db' = { db with leases := db'.leases, epochs := db'.epochs })
      (hepochs : ∃ db₁, prepareEntryOn db id identity = .ok db₁ ∧ db'.epochs = db₁.epochs)
  | destroy (id vmId : Uuid) (l : LeaseRow) (ht : t = .recordHostResourceLeaseDestruction id vmId)
      (hl : Rewritten db db' l destroyedLease) (hid : l.id = id) (hvm : l.vmId = some vmId)
      (hentered : l.backendEntered = true) (hframe : db' = { db with leases := db'.leases })
  | network (tapDevice guestIp : Option String) (l : LeaseRow)
      (ht : t = .setHostResourceLeaseNetwork l.id tapDevice guestIp)
      (hl : Rewritten db db' l (networkLease tapDevice guestIp))
      (hentered : l.backendEntered = true → tapDevice = l.tapDevice ∧ guestIp = l.guestIp)
      (hframe : db' = { db with leases := db'.leases })
  | abort (id vmId leaseId : Uuid) (l : LeaseRow)
      (ht : t = .recordJobLeasedPrebackendAbort id vmId leaseId)
      (hl : Rewritten db db' l abortedLease)
      (hfence : fenceable vmId leaseId (jobVmName id) l = true)
      (hframe : db' = { db with leases := db'.leases, jobs := db'.jobs })
  | observe (identity : Option HostBoot) (ht : t = .observeLegacyLeaseBoots identity)
      (hframe : db' = { db with epochs := db'.epochs })
      (hepochs : ∃ new, db'.epochs.rows = db.epochs.rows ++ new ∧
        ∀ e ∈ new, ∃ i, identity = some i ∧ FreshEvidence db i e)
  | confirm (id : Uuid) (identity : HostBoot) (e : EpochRow)
      (ht : t = .confirmHostResourceLeaseReboot id (some identity))
      (hframe : db' = { db with epochs := db'.epochs }) (he : e ∈ db.epochs.rows)
      (hid : e.leaseId = id) (hentered : entered db id = true)
      (hhost : identity.host = e.baseline.host) (hboot : identity.boot ≠ e.baseline.boot)
      (hepochs : db'.epochs.rows = Table.updated db.epochs.rows (fun x => decide (x.leaseId = id))
        fun x => { x with confirmed := true })
  | transfer (record : VmRow) (expiration : Option ExpirationRow) (l : LeaseRow)
      (ht : t = .commitVmFromHostResourceLease record l.id expiration) (hl : Drops db db' l)
      (hrecord : transfersTo l record = true)
      (hframe : db' = { db with
        leases := db'.leases, epochs := db'.epochs, vms := db'.vms
        expirations := db'.expirations })
      (hvms : db'.vms.rows = db.vms.rows ++ [record])
  | release (l : LeaseRow) (ht : t = .releaseHostResourceLease l.id) (hl : Drops db db' l)
      (hproof : l.backendEntered = false ∨ l.vmDestroyed = true ∨ confirmedOn db l.id = true)
      (hframe : db' = { db with
        leases := db'.leases, epochs := db'.epochs
        freedCids := insert l.vsockCid db.freedCids })
  | retire (v : VmRow) (ht : t = .retireVm v.id ∨ ∃ pool, t = .retirePoolTemplate pool v.id)
      (hv : Retires db db' v)

variable {id : Uuid}

lemma bindJobVmWithLease_begins {seed : LeaseSeed} {now : DateTime} {vmId : Uuid}
    {name : String} {job : JobRecord} {lease : LeaseRow}
    (h : bindJobVmWithLease db seed now id vmId name = .ok ((job, lease), db')) :
    Begins { db with jobs := db'.jobs } db' seed name (some vmId) lease := by
  obtain ⟨db₁, hbind, -, hbegins⟩ := bindJobVmWithLease_eq_ok h
  have hdb₁ : db₁ = { db with jobs := db'.jobs } := by
    have hjobs : db'.jobs = db₁.jobs := by rw [hbegins.frame]
    obtain ⟨r, -, -, -, -, ⟨rfl, -⟩ | ⟨-, -, -, hupdate⟩⟩ := bindOn_eq_ok hbind
    · rw [hjobs]
    · rw [hjobs]
      exact (updateJob_eq_ok hupdate).1
  rwa [← hdb₁]

lemma confirmHostResourceLeaseReboot_effect {identity : Option HostBoot} {proof : Bool}
    (h : confirmLeaseRebootOn db id identity = .ok (proof, db')) :
    HostEffect db (.confirmHostResourceLeaseReboot id identity) db' := by
  obtain ⟨hframe, hrows | ⟨e, he, hid, hentered, ⟨i, rfl, hhost, hboot⟩, hepochs⟩⟩ :=
    confirmLeaseRebootOn_eq_ok h
  · refine .idle ⟨?_, Table.ext hrows, ?_, ?_, ?_⟩ <;> rw [hframe]
  · exact .confirm id i e rfl hframe he hid hentered hhost hboot hepochs

lemma recordJobLeasedPrebackendAbort_effect {vmId leaseId : Uuid}
    (h : recordJobLeasedPrebackendAbort db id vmId leaseId = .ok db') :
    HostEffect db (.recordJobLeasedPrebackendAbort id vmId leaseId) db' := by
  obtain ⟨r, -, -, -, -, -, -, -, l, hl, hfence, hframe, -⟩ := recordJobLeasedPrebackendAbort_eq_ok h
  exact .abort id vmId leaseId l rfl hl hfence hframe

lemma body_host {t : Tx} {reply : Reply} (h : body c db t = .ok (reply, db')) :
    HostEffect db t db' := by
  cases t with
  | acceptJob =>
    rw [body] at h
    obtain ⟨_, h, -⟩ := withReply_eq_ok.mp h
    exact .idle (acceptJobInner_sameHost h)
  | acceptJobWithBudget =>
    rw [body] at h
    obtain ⟨_, h, -⟩ := withReply_eq_ok.mp h
    simp only [acceptJobWithBudget, eq_ok] at h
    obtain ⟨-, -, h⟩ := h
    exact .idle (acceptJobInner_sameHost h)
  | reserveJobVm | claimJobVm =>
    obtain ⟨_, h, -⟩ := withReply_eq_ok.mp h
    exact .idle (reserveJobVmInner_sameHost h)
  | bindJobVm =>
    obtain ⟨_, h, -⟩ := withReply_eq_ok.mp h
    simp only [bindJobVm, eq_ok] at h
    obtain ⟨db₁, hbind, -, -, -, rfl⟩ := h
    exact .idle (bindOn_sameHost hbind)
  | bindJobVmWithLease =>
    rw [body] at h
    obtain ⟨_, h, -⟩ := withReply_eq_ok.mp h
    exact .begins _ _ _ _ rfl rfl (bindJobVmWithLease_begins h)
  | markJobRunning => exact .idle (markJobRunning_sameHost (noReply_eq_ok.mp h).1)
  | appendJobEvents => exact .idle (appendJobEvents_sameHost (noReply_eq_ok.mp h).1)
  | stageJobManifest => exact .idle (stageJobManifest_sameHost (noReply_eq_ok.mp h).1)
  | retainJobArtifact =>
    obtain ⟨_, h, -⟩ := withReply_eq_ok.mp h
    exact .idle (retainJobArtifact_sameHost h)
  | finishJob =>
    obtain ⟨_, h, -⟩ := withReply_eq_ok.mp h
    exact .idle (finishJobInner_sameHost h)
  | finishJobFailure =>
    obtain ⟨_, h, -⟩ := withReply_eq_ok.mp h
    exact .idle (finishJobInner_sameHost (finishJobFailure_eq_ok h).2.2)
  | recordJobVmDestruction =>
    have h := (noReply_eq_ok.mp h).1
    simp only [recordJobVmDestruction, eq_ok] at h
    obtain ⟨⟨n, db₁⟩, hupdate, rfl⟩ := h
    exact .idle (updateJobs_sameHost hupdate)
  | recordJobVmAllocationAbort | confirmJobCleanup | confirmUnallocatedJobCleanup =>
    exact .idle (updateExact_sameHost (noReply_eq_ok.mp h).1)
  | recordJobLeasedPrebackendAbort =>
    exact recordJobLeasedPrebackendAbort_effect (noReply_eq_ok.mp h).1
  | deleteJobEvidence => exact .idle (deleteJobEvidence_sameHost (noReply_eq_ok.mp h).1)
  | observeLegacyLeaseBoots =>
    obtain ⟨hframe, hepochs⟩ := observeLegacyLeaseBoots_eq_ok (quiet_ok h)
    exact .observe _ rfl hframe hepochs
  | beginHostResourceLease | beginHostResourceLeaseForVm =>
    obtain ⟨_, h, -⟩ := withReply_eq_ok.mp h
    have hbegins := insertHostResourceLease_eq_ok (mapError_eq_ok.mp h)
    have hjobs : db'.jobs = db.jobs := by rw [hbegins.frame]
    exact .begins _ _ _ _ rfl rfl (by rw [hjobs]; exact hbegins)
  | enterHostResourceLeaseBackend =>
    obtain ⟨l, hl, heligible, hframe, hepochs⟩ := enterHostResourceLeaseBackend_eq_ok (quiet_ok h)
    exact .enter _ _ _ l rfl hl heligible hframe hepochs
  | recordHostResourceLeaseDestruction =>
    obtain ⟨l, hl, hid, hvm, hentered, hframe⟩ :=
      recordHostResourceLeaseDestruction_eq_ok (quiet_ok h)
    exact .destroy _ _ l rfl hl hid hvm hentered hframe
  | setHostResourceLeaseNetwork =>
    obtain ⟨l, hl, rfl, hentered, hframe⟩ := setHostResourceLeaseNetwork_eq_ok (quiet_ok h)
    exact .network _ _ l rfl hl hentered hframe
  | confirmHostResourceLeaseReboot =>
    obtain ⟨_, h, -⟩ := withReply_eq_ok.mp h
    exact confirmHostResourceLeaseReboot_effect (mapError_eq_ok.mp h)
  | commitVmFromHostResourceLease =>
    obtain ⟨l, hl, rfl, hrecord, hframe, hvms⟩ := commit_eq_ok (quiet_ok h)
    exact .transfer _ _ l rfl hl hrecord hframe hvms
  | releaseHostResourceLease =>
    rcases releaseHostResourceLease_eq_ok (quiet_ok h) with rfl | ⟨l, hl, rfl, hproof, hframe⟩
    · exact .idle (.refl _)
    · exact .release l rfl hl hproof hframe
  | updateVmState =>
    obtain ⟨hframe, hvms⟩ := updateVmState_eq_ok (quiet_ok h)
    refine .relabel ?_ ?_ ?_ ?_ (by rw [hvms]; exact Table.map_updated fun _ => rfl) <;> rw [hframe]
  | retireVm =>
    obtain ⟨v, hv, rfl⟩ := retireVm_eq_ok (quiet_ok h)
    exact .retire v (.inl rfl) hv
  | insertPool =>
    have hframe := insertPool_eq_ok (quiet_ok h)
    refine .idle ?_
    constructor <;> rw [hframe]
  | retirePoolTemplate =>
    obtain ⟨v, hv, rfl⟩ := retirePoolTemplate_eq_ok (quiet_ok h)
    exact .retire v (.inr ⟨_, rfl⟩) hv

lemma deleteAll_sameHost {fault : Option ℕ} {ids : List Uuid} :
    SameHost db (deleteAll fault db ids).2 := by
  induction ids generalizing fault db with
  | nil =>
    rw [deleteAll]
    exact .refl _
  | cons id ids ih =>
  rw [deleteAll.eq_def]
  split
  · exact .refl _
  · exact .refl _
  rename_i heq
  cases heq
  split
  · rename_i hdelete
    exact (deleteJobEvidence_sameHost hdelete).trans ih
  · exact .refl _

inductive HostStep (db : Db) (call : Call) (outcome : Outcome) (db' : Db) : Prop
  | idle (h : SameHost db db')
  | commit (t : Tx) (reply : Reply) (hcall : call = .tx t) (hout : outcome = .ok reply)
      (h : HostEffect db t db')
  | purge (base : ℕ) (hcall : call = .ensureCidBase base) (hout : outcome = .error storageFailure)
      (hdb : db' = purgeFreedBelow db base)
  | raise (base : ℕ) (hcall : call = .ensureCidBase base) (hout : outcome = .ok .done)
      (hdb : db' = raiseNextCid (purgeFreedBelow db base) base)

lemma perform_host (c : Codec) (fault : Option ℕ) (db : Db) (call : Call) :
    HostStep db call (perform c fault db call).1 (perform c fault db call).2 := by
  cases call with
  | tx t =>
    rcases perform_tx c fault db t with ⟨reply, db', hbody, ht⟩ | ⟨e, ht⟩
    · rw [ht]
      exact .commit t reply rfl rfl (body_host hbody)
    · rw [ht]
      exact .idle (.refl db)
  | expireJobEvidence now => exact .idle deleteAll_sameHost
  | ensureCidBase base =>
  simp only [perform]
  split
  · exact .idle (.refl db)
  · exact .purge base rfl rfl rfl
  · exact .raise base rfl rfl rfl

lemma step_host {w w' : World} {e : Event} (h : (store c).step w e w') :
    HostStep w.db e.call e.outcome w'.db := by
  have := perform_host c e.fault w.db e.call
  rwa [h.2.1] at this

end

variable {c : Codec} {db db' : Db} {w w' : World} {e : Event} {leaseId : Uuid}

def Event.enters (e : Event) (leaseId : Uuid) : Prop :=
  ∃ vmId identity reply, e.call = .tx (.enterHostResourceLeaseBackend leaseId vmId identity) ∧
    e.outcome = .ok reply

def Event.transfers (e : Event) (leaseId : Uuid) (record : VmRow) : Prop :=
  ∃ expiration reply, e.call = .tx (.commitVmFromHostResourceLease record leaseId expiration) ∧
    e.outcome = .ok reply

variable {l l' x : LeaseRow} {f : LeaseRow → LeaseRow} {t : Tx}

lemma Rewritten.mem_rows (h : Rewritten db db' l f) :
    l' ∈ db'.leases.rows ↔ l' = f l ∨ (l' ∈ db.leases.rows ∧ l'.id ≠ l.id) := by
  rw [h.rows]
  exact Table.mem_updated_key (fun _ _ => clash_of_leaseId) h.mem rfl

lemma Rewritten.change (h : Rewritten db db' l f)
    (hf : LeaseChange l (f l)) (hl' : l' ∈ db'.leases.rows) :
    ∃ l ∈ db.leases.rows, LeaseChange l l' := by
  rcases (mem_rows h).mp hl' with rfl | ⟨hmem, -⟩
  · exact ⟨l, h.mem, hf⟩
  · exact ⟨l', hmem, .same l'⟩

lemma Rewritten.at_id (h : Rewritten db db' l f)
    (hl' : l' ∈ db'.leases.rows) (hid : l'.id = l.id) : l' = f l := by
  rcases (mem_rows h).mp hl' with rfl | ⟨-, hne⟩
  · rfl
  · exact absurd hid hne

lemma Drops.change (h : Drops db db' l) (hl' : l' ∈ db'.leases.rows) :
    ∃ l ∈ db.leases.rows, LeaseChange l l' := by
  rw [h.leases] at hl'
  exact ⟨l', mem_of_mem_filter hl', .same l'⟩

lemma eligible_eq_true {id vmId : Uuid} (h : eligible id vmId l = true) :
    l.id = id ∧ l.backendEntered = false ∧ (l.vmId = none ∨ l.vmId = some vmId) ∧
      l.vmDestroyed = false ∧ l.allocationAborted = false := by
  simp only [eligible, Bool.and_eq_true, Bool.or_eq_true, decide_eq_true_eq, Bool.not_eq_true',
    Option.isNone_iff_eq_none] at h
  exact ⟨h.1.1.1.1, h.1.1.1.2, h.1.1.2, h.1.2, h.2⟩

lemma fenceable_eq_true {vmId leaseId : Uuid} {name : String}
    (h : fenceable vmId leaseId name l = true) :
    l.id = leaseId ∧ l.vmName = name ∧ l.vmId = some vmId ∧ l.backendEntered = false ∧
      l.vmDestroyed = false := by
  simp only [fenceable, Bool.and_eq_true, decide_eq_true_eq, Bool.not_eq_true'] at h
  exact ⟨h.1.1.1.1, h.1.1.1.2, h.1.1.2, h.1.2, h.2⟩

lemma HostEffect.lease (h : HostEffect db t db') (hl' : l' ∈ db'.leases.rows) :
    (∃ l ∈ db.leases.rows, LeaseChange l l') ∨
      ∃ seed name cid vmId, t.draws = [seed.id] ∧ l' = newLease seed name cid vmId := by
  cases h with
  | idle h => exact .inl ⟨l', h.leases ▸ hl', .same l'⟩
  | relabel hleases => exact .inl ⟨l', hleases ▸ hl', .same l'⟩
  | begins seed name vmId lease hdraw _ h =>
    rw [h.rows, mem_append, mem_singleton] at hl'
    rcases hl' with hl' | rfl
    · exact .inl ⟨l', hl', .same l'⟩
    · exact .inr ⟨seed, name, _, vmId, hdraw, h.lease_eq⟩
  | enter id vmId identity l ht hl heligible =>
    obtain ⟨-, hentered, hvm, -, haborted⟩ := eligible_eq_true heligible
    exact .inl (Rewritten.change hl (.enter l vmId hentered hvm haborted) hl')
  | destroy id vmId l ht hl hid hvm hentered =>
    exact .inl (Rewritten.change hl (.destroy l hentered (by rw [hvm]; rfl)) hl')
  | network tapDevice guestIp l ht hl hentered =>
    exact .inl (Rewritten.change hl (.network l tapDevice guestIp hentered) hl')
  | abort id vmId leaseId l ht hl hfence =>
    obtain ⟨-, -, hvm, hentered, -⟩ := fenceable_eq_true hfence
    exact .inl (Rewritten.change hl (.abort l hentered (by rw [hvm]; rfl)) hl')
  | observe identity ht hframe | confirm id identity e ht hframe =>
    rw [hframe] at hl'
    exact .inl ⟨l', hl', .same l'⟩
  | transfer record expiration l ht hl | release l ht hl => exact .inl (Drops.change hl hl')
  | retire v ht hv =>
    rw [hv.frame] at hl'
    exact .inl ⟨l', hl', .same l'⟩

lemma step_lease (h : (store c).step w e w') (hl' : l' ∈ w'.db.leases.rows) :
    (∃ l ∈ w.db.leases.rows, LeaseChange l l') ∨
      ∃ seed name cid vmId, seed.id ∈ e.call.draws ∧ l' = newLease seed name cid vmId := by
  cases step_host h with
  | idle hsame => exact .inl ⟨l', hsame.leases ▸ hl', .same l'⟩
  | commit t reply hcall _ heffect =>
    refine heffect.lease hl' |>.imp_right ?_
    rintro ⟨seed, name, cid, vmId, hdraws, heq⟩
    exact ⟨seed, name, cid, vmId, by simp [hcall, Call.draws, hdraws], heq⟩
  | purge base _ _ hdb | raise base _ _ hdb =>
    rw [hdb] at hl'
    exact .inl ⟨l', hl', .same l'⟩

lemma lease_issued (hw : Reachable c w) : ∀ l ∈ w.db.leases.rows, l.id ∈ w.issued := by
  obtain ⟨trace, hrun⟩ := hw
  refine hrun.invariant (I := fun w => ∀ l ∈ w.db.leases.rows, l.id ∈ w.issued)
    (by simp [World.init, Db.fresh]) ?_
  intro w e w' hI hstep l' hl'
  rcases step_lease hstep hl' with ⟨l, hl, hchange⟩ | ⟨seed, name, cid, vmId, hdraw, rfl⟩
  · rw [hchange.identity.1]
    exact issued_mono hstep _ (hI l hl)
  · rw [hstep.2.2]
    exact mem_append_right _ hdraw

open Rewritten

lemma step_enters (h : (store c).step w e w') (he : e.enters leaseId) :
    (∃ l ∈ w.db.leases.rows, l.id = leaseId ∧ l.allocationAborted = false) ∧
      ∀ l' ∈ w'.db.leases.rows, l'.id = leaseId → l'.backendEntered = true := by
  obtain ⟨vmId, identity, reply, hcall, hout⟩ := he
  have hbody := (noReply_eq_ok.mp (step_body h hcall hout)).1
  obtain ⟨l, hl, heligible, -⟩ := enterHostResourceLeaseBackend_eq_ok (mapError_eq_ok.mp hbody)
  obtain ⟨rfl, -, -, -, haborted⟩ := eligible_eq_true heligible
  refine ⟨⟨l, hl.mem, rfl, haborted⟩, fun l' hl' hid => ?_⟩
  rw [at_id hl hl' hid]
  rfl

lemma lease_invariant {I : LeaseRow → Prop}
    (hnew : ∀ seed name cid vmId, I (newLease seed name cid vmId))
    (hchange : ∀ l l', I l → LeaseChange l l' → I l') (hw : Reachable c w) :
    ∀ l ∈ w.db.leases.rows, I l := by
  obtain ⟨trace, hrun⟩ := hw
  refine hrun.invariant (I := fun w => ∀ l ∈ w.db.leases.rows, I l)
    (by simp [World.init, Db.fresh]) ?_
  intro w e w' hI hstep l' hl'
  rcases step_lease hstep hl' with ⟨l, hl, h⟩ | ⟨seed, name, cid, vmId, -, rfl⟩
  · exact hchange l l' (hI l hl) h
  · exact hnew seed name cid vmId

lemma run_never_enters {trace : List Event} (hissued : leaseId ∈ w.issued)
    (haborted : ∀ l ∈ w.db.leases.rows, l.id = leaseId → l.allocationAborted = true)
    (h : (store c).Run w trace w') : ∀ e ∈ trace, ¬e.enters leaseId := by
  induction h with
  | nil w => simp
  | cons hstep _ ih =>
  intro e he henters
  rcases mem_cons.mp he with rfl | he
  · obtain ⟨⟨l, hl, hid, hfree⟩, -⟩ := step_enters hstep henters
    cases hfree.symm.trans (haborted l hl hid)
  · refine ih (issued_mono hstep _ hissued) (fun l' hl' hid => ?_) e he henters
    rcases step_lease hstep hl' with ⟨l, hl, hchange⟩ | ⟨seed, name, cid, vmId, hdraw, rfl⟩
    · exact hchange.aborted (haborted l hl (hchange.identity.1.symm.trans hid))
    · rw [← hid] at hissued
      exact absurd hissued (hstep.1 _ hdraw)

/-! ## How owners leave -/

lemma Rewritten.keeps (h : Rewritten db db' l f)
    (hf : LeaseChange l (f l)) (hx : x ∈ db.leases.rows) :
    ∃ x' ∈ db'.leases.rows, LeaseChange x x' := by
  by_cases hid : x.id = l.id
  · refine ⟨f l, (mem_rows h).mpr (.inl rfl), ?_⟩
    rwa [lease_unique hx h.mem hid]
  · exact ⟨x, (mem_rows h).mpr (.inr ⟨hx, hid⟩), .same x⟩

lemma Drops.keeps (h : Drops db db' l) (hx : x ∈ db.leases.rows) (hne : x ≠ l) :
    ∃ x' ∈ db'.leases.rows, LeaseChange x x' := by
  refine ⟨x, ?_, .same x⟩
  rw [h.leases, mem_filter]
  exact ⟨hx, by simpa using fun hid => hne (lease_unique hx h.mem hid)⟩

lemma HostEffect.keeps_lease (h : HostEffect db t db') (hx : x ∈ db.leases.rows) :
    (∃ x' ∈ db'.leases.rows, LeaseChange x x') ∨
    (∃ record expiration, t = .commitVmFromHostResourceLease record x.id expiration ∧
      transfersTo x record = true ∧ record ∈ db'.vms.rows) ∨
    (t = .releaseHostResourceLease x.id ∧
      (x.backendEntered = false ∨ x.vmDestroyed = true ∨ confirmedOn db x.id = true)) := by
  cases h with
  | idle h => exact .inl ⟨x, by rw [h.leases]; exact hx, .same x⟩
  | relabel hleases => exact .inl ⟨x, by rw [hleases]; exact hx, .same x⟩
  | begins seed name vmId lease hdraw _ h =>
    exact .inl ⟨x, by rw [h.rows]; exact mem_append_left _ hx, .same x⟩
  | enter id vmId identity l ht hl heligible =>
    obtain ⟨-, hentered, hvm, -, haborted⟩ := eligible_eq_true heligible
    exact .inl (keeps hl (.enter l vmId hentered hvm haborted) hx)
  | destroy id vmId l ht hl hid hvm hentered =>
    exact .inl (keeps hl (.destroy l hentered (by rw [hvm]; rfl)) hx)
  | network tapDevice guestIp l ht hl hentered =>
    exact .inl (keeps hl (.network l tapDevice guestIp hentered) hx)
  | abort id vmId leaseId l ht hl hfence =>
    obtain ⟨-, -, hvm, hentered, -⟩ := fenceable_eq_true hfence
    exact .inl (keeps hl (.abort l hentered (by rw [hvm]; rfl)) hx)
  | observe identity ht hframe => exact .inl ⟨x, by rw [hframe]; exact hx, .same x⟩
  | confirm id identity e ht hframe => exact .inl ⟨x, by rw [hframe]; exact hx, .same x⟩
  | transfer record expiration l ht hl hrecord hframe hvms =>
    by_cases hxl : x = l
    · exact .inr (.inl ⟨record, expiration, hxl ▸ ht, hxl ▸ hrecord, by rw [hvms]; simp⟩)
    · exact .inl (Drops.keeps hl hx hxl)
  | release l ht hl hproof =>
    by_cases hxl : x = l
    · exact .inr (.inr ⟨hxl ▸ ht, hxl ▸ hproof⟩)
    · exact .inl (Drops.keeps hl hx hxl)
  | retire v ht hv => exact .inl ⟨x, by rw [hv.frame]; exact hx, .same x⟩

variable {v : VmRow}

lemma HostEffect.keeps_vm (h : HostEffect db t db') (hv : v ∈ db.vms.rows) :
    (∃ v' ∈ db'.vms.rows, owner v' = owner v) ∨
      t = .retireVm v.id ∨ ∃ pool, t = .retirePoolTemplate pool v.id := by
  have hsame (hvms : db'.vms = db.vms) : ∃ v' ∈ db'.vms.rows, owner v' = owner v :=
    ⟨v, by rw [hvms]; exact hv, rfl⟩
  cases h with
  | idle h => exact .inl (hsame h.vms)
  | relabel _ _ _ _ hvms =>
    left
    apply mem_map.mp
    rw [hvms]
    exact mem_map_of_mem hv
  | begins seed name vmId lease hdraw _ h => exact .inl (hsame (by rw [h.frame]))
  | enter _ _ _ _ _ _ _ hframe | destroy _ _ _ _ _ _ _ _ hframe | network _ _ _ _ _ _ hframe
  | abort _ _ _ _ _ _ _ hframe | observe _ _ hframe | confirm _ _ _ _ hframe
  | release _ _ _ _ hframe => exact .inl (hsame (by rw [hframe]))
  | transfer record expiration l ht hl hrecord hframe hvms =>
    exact .inl ⟨v, by rw [hvms]; exact mem_append_left _ hv, rfl⟩
  | retire u ht hu =>
  by_cases hid : v.id = u.id
  · exact .inr (hid ▸ ht)
  · refine .inl ⟨v, ?_, rfl⟩
    rw [hu.vms, mem_filter]
    exact ⟨hv, by simpa using hid⟩

lemma step_keeps_lease (h : (store c).step w e w') (hx : x ∈ w.db.leases.rows) :
    (∃ x' ∈ w'.db.leases.rows, LeaseChange x x') ∨
    (∃ record expiration reply, e.call = .tx (.commitVmFromHostResourceLease record x.id expiration) ∧
      e.outcome = .ok reply ∧ transfersTo x record = true ∧ record ∈ w'.db.vms.rows) ∨
    (∃ reply, e.call = .tx (.releaseHostResourceLease x.id) ∧ e.outcome = .ok reply ∧
      (x.backendEntered = false ∨ x.vmDestroyed = true ∨ confirmedOn w.db x.id = true)) := by
  cases step_host h with
  | idle hsame => exact .inl ⟨x, by rw [hsame.leases]; exact hx, .same x⟩
  | commit t reply hcall hout heffect =>
    rcases heffect.keeps_lease hx with hkept | ⟨record, expiration, rfl, htransfer, hmem⟩ | ⟨rfl, hproof⟩
    · exact .inl hkept
    · exact .inr (.inl ⟨record, expiration, reply, hcall, hout, htransfer, hmem⟩)
    · exact .inr (.inr ⟨reply, hcall, hout, hproof⟩)
  | purge base _ _ hdb | raise base _ _ hdb => exact .inl ⟨x, by rw [hdb]; exact hx, .same x⟩

lemma step_keeps_vm (h : (store c).step w e w') (hv : v ∈ w.db.vms.rows) :
    (∃ v' ∈ w'.db.vms.rows, owner v' = owner v) ∨
      ((e.call = .tx (.retireVm v.id) ∨ ∃ pool, e.call = .tx (.retirePoolTemplate pool v.id)) ∧
        ∃ reply, e.outcome = .ok reply) := by
  cases step_host h with
  | idle hsame => exact .inl ⟨v, by rw [hsame.vms]; exact hv, rfl⟩
  | commit t reply hcall hout heffect =>
    rcases heffect.keeps_vm hv with hkept | rfl | ⟨pool, rfl⟩
    · exact .inl hkept
    · exact .inr ⟨.inl hcall, reply, hout⟩
    · exact .inr ⟨.inr ⟨pool, hcall⟩, reply, hout⟩
  | purge base _ _ hdb | raise base _ _ hdb => exact .inl ⟨v, by rw [hdb]; exact hv, rfl⟩

end Husker.System
