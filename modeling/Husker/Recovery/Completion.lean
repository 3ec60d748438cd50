import Husker.Recovery.Steps

/-! # Attempts that complete

An attempt completes only when every outcome was read back and every planned generation was
fenced, so another attempt finds nothing to change.
-/
namespace Husker.Recovery
open Relational Store Journal Lease Husker.System List Option Table

/-! ## Fencing the planned generations

A generation is planned when its job still holds it and its lease was not entered.  The abort
succeeds exactly on the planned generations of finished jobs, and recovery neither plans a
generation nor gives one up.
-/

section
variable {c : Codec} {db db' : Db} {r : JobRow} {l : LeaseRow} {vmId : Uuid}

structure Sane (db : Db) : Prop where
  readable : ∀ r ∈ db.jobs.rows, r.state ≠ .deleted → r.specification.isSome = true
  retired : ∀ r ∈ db.jobs.rows, r.state = .deleted → r.cleanupPending = false
  unentered : ∀ l ∈ db.leases.rows, l.backendEntered = false → l.vmDestroyed = false

lemma Reachable.sane {w : World} (hw : Reachable c w) : Sane w.db := by
  constructor
  · refine view_invariant (I := fun v => v.row.state ≠ .deleted → v.row.specification.isSome = true)
      (fun _ _ _ _ => rfl) (fun g v v' hv h hlive => ?_) hw
    rcases h.specification with heq | ⟨hdeleted, -⟩
    · rw [heq]
      exact hv fun hdeleted => hlive (h.deleted hdeleted)
    · exact absurd hdeleted hlive
  · exact view_invariant (I := fun v => v.row.state = .deleted → v.row.cleanupPending = false)
      (by simp [acceptedRow]) (fun g v v' hv h hdeleted => h.retired hv hdeleted) hw
  · refine lease_invariant (I := fun l => l.backendEntered = false → l.vmDestroyed = false)
      (fun _ _ _ _ _ => rfl) (fun l l' hl h => ?_) hw
    cases h with
    | enter => simp [enteredRow]
    | destroy hentered => simp [destroyedLease, hentered]
    | same | network | abort => exact hl

lemma Sane.read (h : Sane db) (hr : r ∈ db.jobs.rows) (hlive : r.state ≠ .deleted) :
    ∃ s spec, r.state = .live s ∧ readRecord r = .ok (recordOf r s spec) := by
  obtain ⟨spec, hspec⟩ := isSome_iff_exists.mp (h.readable r hr hlive)
  cases hstate : r.state with
  | deleted => exact absurd hstate hlive
  | live s => exact ⟨s, spec, rfl, readRecord_eq_ok.mpr ⟨s, spec, hstate, hspec, rfl⟩⟩

lemma Sane.getOn (h : Sane db) (hr : r ∈ db.jobs.rows) {s : JobState} (hs : r.state = .live s) :
    ∃ spec, getOn db r.id = .ok (recordOf r s spec) := by
  obtain ⟨spec, hspec⟩ := isSome_iff_exists.mp (h.readable r hr (by rw [hs]; simp))
  exact ⟨spec, getOn_eq_ok.mpr ⟨r, hr, rfl, s, spec, hs, hspec, rfl⟩⟩

/-! ## Planned generations -/

/-- A generation its job holds under its own name, and whose lease was not entered, while no
VM record and no other lease holds its identifier or name. -/
structure Planned (db : Db) (r : JobRow) (l : LeaseRow) (vmId : Uuid) : Prop where
  job : r ∈ db.jobs.rows
  lease : l ∈ db.leases.rows
  bound : r.vmId = some vmId
  planned : l.vmId = some vmId
  name : r.vmName = some (jobVmName r.id)
  lease_name : l.vmName = jobVmName r.id
  intact : r.vmDestroyed = false
  pending : r.cleanupPending = true
  unentered : l.backendEntered = false
  unheld : generationHeld db vmId l.id (jobVmName r.id) = false

lemma Recovers.generationHeld (h : Recovers db db') (leaseId : Uuid) (name : String) :
    generationHeld db' vmId leaseId name = generationHeld db vmId leaseId name := by
  unfold Journal.generationHeld
  rw [h.vms]
  congr 1
  rw [Bool.eq_iff_iff, List.any_eq_true, List.any_eq_true]
  constructor
  · rintro ⟨l', hl', hheld⟩
    obtain ⟨l, hl, hstep⟩ := h.leases_back l' hl'
    have hkey := hstep.key
    simp only [leaseKey, Prod.mk.injEq] at hkey
    rw [hkey.1, hkey.2.1, hkey.2.2.1] at hheld
    exact ⟨l, hl, hheld⟩
  · rintro ⟨l, hl, hheld⟩
    obtain ⟨l', hl', hstep⟩ := h.leases l hl
    have hkey := hstep.key
    simp only [leaseKey, Prod.mk.injEq] at hkey
    rw [← hkey.1, ← hkey.2.1, ← hkey.2.2.1] at hheld
    exact ⟨l', hl', hheld⟩

lemma Planned.congr (h : Planned db r l vmId) {r' : JobRow} {l' : LeaseRow}
    (hr' : r' ∈ db'.jobs.rows) (hl' : l' ∈ db'.leases.rows) (hjob : jobKey r' = jobKey r)
    (hlease : leaseKey l' = leaseKey l) (hheld : generationHeld db' vmId l.id (jobVmName r.id) =
      generationHeld db vmId l.id (jobVmName r.id)) : Planned db' r' l' vmId := by
  simp only [jobKey, leaseKey, Prod.mk.injEq] at hjob hlease
  obtain ⟨hid, hvm, hname, hpending, hdestroyed, -⟩ := hjob
  obtain ⟨hlid, hlname, hlvm, hentered, -⟩ := hlease
  refine ⟨hr', hl', hvm.trans h.bound, hlvm.trans h.planned, ?_, ?_, hdestroyed.trans h.intact,
    hpending.trans h.pending, hentered.trans h.unentered, ?_⟩
  · rw [hname, hid]
    exact h.name
  · rw [hlname, hid]
    exact h.lease_name
  · rw [hlid, hid, hheld]
    exact h.unheld

lemma planned_of_abort {id leaseId : Uuid}
    (h : recordJobLeasedPrebackendAbort db id vmId leaseId = .ok db') :
    ∃ r l, Planned db r l vmId ∧ r.id = id ∧ l.id = leaseId ∧
      r.state ∈ abortable.map StoredState.live := by
  have hheld : generationHeld db vmId leaseId (jobVmName id) = false := by
    simp only [recordJobLeasedPrebackendAbort, eq_ok] at h
    obtain ⟨-, -, -, -, -, hheld, -⟩ := h
    exact hheld
  obtain ⟨r, hr, rfl, hvm, hname, hdestroyed, hpending, hstate, l, hl, hfence, -⟩ :=
    recordJobLeasedPrebackendAbort_eq_ok h
  obtain ⟨rfl, hlname, hlvm, hentered, -⟩ := fenceable_eq_true hfence
  exact ⟨r, l, ⟨hr, hl.mem, hvm, hlvm, hname, hlname, hdestroyed, hpending, hentered, hheld⟩, rfl,
    rfl, hstate⟩

lemma updateLeases_abort (db : Db) {p : LeaseRow → Bool}
    (hp : ∀ l, p l = true → l.backendEntered = false ∧ l.vmId.isSome = true) :
    ∃ db₁, updateLeases db [.allocationAborted] p abortedLease = .ok (db.leases.matched p, db₁) ∧
      db₁.jobs = db.jobs := by
  obtain ⟨leases, hleases⟩ : ∃ leases, db.leases.update? [.allocationAborted] p abortedLease =
      some leases := by
    refine update?_isSome (fun l _ hl => ?_) (fun _ _ _ => rfl) fun a _ b _ h => ?_
    · obtain ⟨hentered, hvm⟩ := hp l hl
      simp [Schema.aborts, leaseSchema, leaseTriggers, abortedLease, LeaseRow.sameResources,
        hentered, hvm]
    · simp only [leaseSchema, abortedLease] at h ⊢
      split_ifs at h <;> exact h
  refine ⟨{ db with leases }, ?_, rfl⟩
  simp only [updateLeases, eq_ok]
  exact ⟨(), by simp, leases, hleases, trivial, rfl⟩

lemma updateJob_abort (hr : r ∈ db.jobs.rows) (hvm : r.vmId.isSome = true)
    (hdestroyed : r.vmDestroyed = false) (hstate : r.state ∈ abortable.map StoredState.live) :
    ∃ db', updateJob db [.vmAllocationAborted] r.id abortedRow = .ok db' := by
  obtain ⟨jobs, hjobs⟩ : ∃ jobs, db.jobs.update? [.vmAllocationAborted]
      (fun x => decide (x.id = r.id)) abortedRow = some jobs := by
    refine update?_isSome (fun x _ _ => ?_) (fun x hx hp => ?_) fun a _ b _ h => ?_
    · simp [Schema.aborts, jobSchema, jobTriggers, abortedRow]
    · obtain rfl := row_unique hx hr (of_decide_eq_true hp)
      have hcheck : x.check = true := db.jobs.checked x hx
      simp only [JobRow.check, Bool.and_eq_true] at hcheck
      simp only [jobSchema, JobRow.check, abortedRow, Bool.and_eq_true, hcheck.1, true_and]
      obtain ⟨s, hs, heq⟩ := List.mem_map.mp hstate
      rw [hdestroyed, hvm, ← heq]
      fin_cases hs <;> decide
    · simp only [jobSchema, JobRow.clash, abortedRow] at h ⊢
      split_ifs at h <;> exact h
  refine ⟨{ db with jobs }, ?_⟩
  simp only [updateJob, updateJobs, eq_ok]
  exact ⟨(_, _), ⟨jobs, hjobs, rfl⟩, rfl⟩

/-- The abort of a job that can be read succeeds on a planned generation, and is a conflict
otherwise. -/
lemma abort_ok_or_conflict {job : JobRecord} {id leaseId : Uuid} (hsane : Sane db)
    (hjob : getOn db id = .ok job) :
    (∃ db', recordJobLeasedPrebackendAbort db id vmId leaseId = .ok db') ∨
      ((∃ reason, recordJobLeasedPrebackendAbort db id vmId leaseId = .error (.conflict reason)) ∧
        ∀ r l, Planned db r l vmId → r.id = id → l.id = leaseId →
          r.state ∉ abortable.map StoredState.live) := by
  obtain ⟨r, hr, rfl, s, spec, hstate, -, rfl⟩ := getOn_eq_ok.mp hjob
  have hkey (x : JobRow) (y : LeaseRow) (h : Planned db x y vmId) (hid : x.id = r.id) : x = r :=
    row_unique h.job hr hid
  simp only [recordJobLeasedPrebackendAbort, hjob, ok_bind]
  by_cases hown : (recordOf r s spec).vmId = some vmId ∧
      (recordOf r s spec).vmName = some (jobVmName r.id) ∧
      (recordOf r s spec).vmDestroyed = false ∧ (recordOf r s spec).cleanupPending = true ∧
      (recordOf r s spec).state ∈ abortable
  case neg =>
    refine .inr ⟨⟨_, by rw [ensure_of_false _ hown]; rfl⟩, fun x y h hid _ hx => hown ?_⟩
    obtain rfl := hkey x y h hid
    rw [hstate, List.mem_map_of_injective fun _ _ => StoredState.live.inj] at hx
    exact ⟨h.bound, h.name, h.intact, h.pending, hx⟩
  rw [ensure_of_true _ hown, ok_bind]
  by_cases hheld : generationHeld db vmId leaseId (jobVmName r.id) = false
  case neg =>
    refine .inr ⟨⟨_, by rw [ensure_of_false _ hheld]; rfl⟩, fun x y h hid hlid _ => hheld ?_⟩
    rw [← hid, ← hlid]
    exact h.unheld
  rw [ensure_of_true _ hheld, ok_bind]
  obtain ⟨db₁, hupdate, hjobs⟩ := updateLeases_abort db
    (p := fenceable vmId leaseId (jobVmName r.id)) fun l hl => by
      obtain ⟨-, -, hvm, hentered, -⟩ := fenceable_eq_true hl
      exact ⟨hentered, by rw [hvm]; rfl⟩
  simp only [hupdate, Except.mapError, ok_bind]
  by_cases hlease : ∃ l ∈ db.leases.rows, fenceable vmId leaseId (jobVmName r.id) l = true
  case neg =>
    push Not at hlease
    have hnone : db.leases.matched (fenceable vmId leaseId (jobVmName r.id)) ≠ 1 := by
      rw [matched_eq_zero.mpr fun l hl => by simpa using hlease l hl]
      exact zero_ne_one
    refine .inr ⟨⟨_, by rw [ensure_of_false _ hnone]; rfl⟩, fun x y h hid hlid _ => ?_⟩
    obtain rfl := hkey x y h hid
    apply hlease y h.lease
    simp [fenceable, hlid, h.lease_name, h.planned, h.unentered,
      hsane.unentered y h.lease h.unentered]
  obtain ⟨l, hl, hfence⟩ := hlease
  have hone : db.leases.matched (fenceable vmId leaseId (jobVmName r.id)) = 1 :=
    matched_eq_one hl hfence fun x y hx hy =>
      clash_of_leaseId ((fenceable_eq_true hx).1.trans (fenceable_eq_true hy).1.symm)
  rw [ensure_of_true _ hone, ok_bind]
  obtain ⟨hvm, -, hdestroyed, -, habortable⟩ := hown
  have hvm : r.vmId.isSome = true := isSome_iff_exists.mpr ⟨vmId, hvm⟩
  exact .inl (updateJob_abort (hjobs ▸ hr) hvm hdestroyed
    (hstate ▸ List.mem_map_of_mem habortable))

/-! ## The job behind a lease -/

lemma jobForPendingVmName_of_planned (hsane : Sane db) (h : Planned db r l vmId)
    (hlive : r.state ≠ .deleted) : ∃ s spec, r.state = .live s ∧
      jobForPendingVmName db l.vmName = .ok (some (recordOf r s spec)) := by
  obtain ⟨s, spec, hstate, hread⟩ := hsane.read h.job hlive
  refine ⟨s, spec, hstate, ?_⟩
  have hfind : db.jobs.rows.find? (fun x => x.vmName = some l.vmName && x.cleanupPending) =
      some r := by
    cases hfind : db.jobs.rows.find? fun x => x.vmName = some l.vmName && x.cleanupPending with
    | none =>
      have := find?_eq_none.mp hfind r h.job
      simp [h.name, h.lease_name, h.pending] at this
    | some x =>
    have hx := find?_some hfind
    simp only [Bool.and_eq_true, decide_eq_true_eq] at hx
    -- a pending name has one owner
    have hclash : jobSchema.clash x r = true := by
      simp [jobSchema, JobRow.clash, hx.1, hx.2, h.name, h.lease_name, h.pending]
    rw [db.jobs.eq_of_clash (mem_of_find?_eq_some hfind) h.job hclash]
  simp only [jobForPendingVmName, hfind, hread]
  rfl

lemma fencedJob_of_planned (hsane : Sane db) (h : Planned db r l vmId)
    (hsettled : r.state.settled = true) {lease : LeaseRow} (hkey : leaseKey lease = leaseKey l) :
    ∃ s spec, r.state = .live s ∧ fencedJob db lease = .ok (some (recordOf r s spec, vmId)) := by
  have hlive : r.state ≠ .deleted := by
    intro hdeleted
    simp [hdeleted, StoredState.settled] at hsettled
  obtain ⟨s, spec, hstate, hfind⟩ := jobForPendingVmName_of_planned hsane h hlive
  simp only [leaseKey, Prod.mk.injEq] at hkey
  obtain ⟨-, hname, hvm, hentered, hdestroyed⟩ := hkey
  have hterminal : s.terminal = true := by rwa [hstate] at hsettled
  refine ⟨s, spec, hstate, ?_⟩
  simp only [fencedJob, hvm, h.planned, hentered, h.unentered, hdestroyed,
    hsane.unentered l h.lease h.unentered, hname, hfind]
  simp [ok_bind, recordOf, hterminal, h.bound, pure_eq_ok]

lemma fencedJob_readable (hsane : Sane db) (lease : LeaseRow) :
    fencedJob db lease = .ok none ∨ ∃ job vmId, fencedJob db lease = .ok (some (job, vmId)) ∧
      getOn db job.id = .ok job := by
  have hfind : jobForPendingVmName db lease.vmName = .ok none ∨
      ∃ job, jobForPendingVmName db lease.vmName = .ok (some job) ∧ getOn db job.id = .ok job := by
    unfold jobForPendingVmName
    split
    · exact .inl rfl
    rename_i row hrow
    have hmem := mem_of_find?_eq_some hrow
    have hpending := find?_some hrow
    simp only [Bool.and_eq_true] at hpending
    have hlive : row.state ≠ .deleted := by
      intro hdeleted
      simp [hsane.retired row hmem hdeleted] at hpending
    obtain ⟨s, spec, hstate, hread⟩ := hsane.read hmem hlive
    obtain ⟨s', spec', hs', hspec', heq⟩ := readRecord_eq_ok.mp hread
    refine .inr ⟨recordOf row s spec, by rw [hread]; rfl, getOn_eq_ok.mpr ?_⟩
    exact ⟨row, hmem, rfl, s', spec', hs', hspec', heq⟩
  unfold fencedJob
  split
  · exact .inl rfl
  split
  · exact .inl rfl
  · rcases hfind with hfind | ⟨job, hfind, hget⟩
    · rw [hfind]
      exact .inl rfl
    · rw [hfind, ok_bind]
      dsimp only
      split_ifs
      · exact .inl rfl
      · exact .inr ⟨job, _, rfl, hget⟩

end

variable {c : Codec} {env : Conditions} {db db' : Db} {r : JobRow} {l : LeaseRow} {vmId : Uuid}

def Settled (db : Db) : Prop :=
  ∀ r ∈ db.jobs.rows, r.state.settled = true ∨ r.state = .deleted

lemma JobRecovers.settled {r' : JobRow} (h : JobRecovers r r') (hr : r.state.settled = true) :
    r'.state = r.state := by
  rcases h.state with ⟨heq, -⟩ | ⟨⟨s, hs, hopen⟩, -⟩
  · exact heq
  · rw [hs, StoredState.settled, hopen] at hr
    contradiction

lemma Sane.recovers (hsane : Sane db) (h : Recovers db db') : Sane db' := by
  have hjob : ∀ r' ∈ db'.jobs.rows, ∃ r ∈ db.jobs.rows, r'.specification = r.specification ∧
      r'.cleanupPending = r.cleanupPending ∧ (r'.state = .deleted ↔ r.state = .deleted) := by
    intro r' hr'
    obtain ⟨r, hr, hstep⟩ := h.jobs_back r' hr'
    have hkey := hstep.key
    simp only [jobKey, Prod.mk.injEq] at hkey
    refine ⟨r, hr, hkey.2.2.2.2.2, hkey.2.2.2.1, ?_⟩
    rcases hstep.state with ⟨heq, -⟩ | ⟨⟨s, hs, -⟩, s', -, hs'⟩
    · rw [heq]
    · simp [hs, hs']
  refine ⟨fun r' hr' hlive => ?_, fun r' hr' hdeleted => ?_, fun l' hl' hentered => ?_⟩
  · obtain ⟨r, hr, hspec, -, hiff⟩ := hjob r' hr'
    rw [hspec]
    exact hsane.readable r hr (hiff.not.mp hlive)
  · obtain ⟨r, hr, -, hpending, hiff⟩ := hjob r' hr'
    rw [hpending]
    exact hsane.retired r hr (hiff.mp hdeleted)
  · obtain ⟨l, hl, hstep⟩ := h.leases_back l' hl'
    have hkey := hstep.key
    simp only [leaseKey, Prod.mk.injEq] at hkey
    rw [hkey.2.2.2.2]
    exact hsane.unentered l hl (hkey.2.2.2.1 ▸ hentered)

/-! ## Sealing -/

def recoverable (r : JobRow) : Bool :=
  r.state ∈ [.live .accepted, .live .preparing, .live .running] || r.cleanupPending

variable {jobs : List JobRecord} {n : ℕ} {id leaseId : Uuid}

lemma recoverableJobs_eq_ok (h : recoverableJobs db = .ok jobs) :
    (∀ r ∈ db.jobs.rows, recoverable r = true → ∃ job ∈ jobs, readRecord r = .ok job) ∧
      ∀ job ∈ jobs, ∃ r ∈ db.jobs.rows, recoverable r = true ∧ readRecord r = .ok job := by
  simp only [recoverableJobs, eq_ok, mapM_eq_ok] at h
  obtain ⟨read, hread, rfl⟩ := h
  constructor
  · intro r hr hrecoverable
    have hok : readRecord r ∈ read.map .ok :=
      hread ▸ List.mem_map_of_mem (mem_filter.mpr ⟨hr, hrecoverable⟩)
    obtain ⟨job, hjob, heq⟩ := List.mem_map.mp hok
    exact ⟨job, (mem_insertionSort _).mpr hjob, heq.symm⟩
  intro job hjob
  have hok : (.ok job : Except SqlError JobRecord) ∈ read.map .ok :=
    List.mem_map_of_mem ((mem_insertionSort _).mp hjob)
  rw [← hread] at hok
  obtain ⟨r, hr, heq⟩ := List.mem_map.mp hok
  exact ⟨r, mem_of_mem_filter hr, (mem_filter.mp hr).2, heq⟩

lemma mem_recoverableJobs (h : recoverableJobs db = .ok jobs)
    (hr : r ∈ db.jobs.rows) {s : JobState} (hs : r.state = .live s) (hopen : s.terminal = false) :
    ∃ job ∈ jobs, job.id = r.id ∧ job.state = s := by
  have hrecoverable : recoverable r = true := by
    rw [recoverable, hs]
    cases s <;> simp [JobState.terminal] at hopen ⊢
  obtain ⟨job, hjob, heq⟩ := (recoverableJobs_eq_ok h).1 r hr hrecoverable
  obtain ⟨s', spec, hs', -, rfl⟩ := readRecord_eq_ok.mp heq
  rw [hs, StoredState.live.injEq] at hs'
  exact ⟨_, hjob, rfl, hs'.symm⟩

lemma terminal_of_settled (hsettled : Settled db) (h : recoverableJobs db = .ok jobs) :
    ∀ job ∈ jobs, job.state.terminal = true := by
  intro job hjob
  obtain ⟨r, hr, -, heq⟩ := (recoverableJobs_eq_ok h).2 job hjob
  obtain ⟨s, spec, hs, -, rfl⟩ := readRecord_eq_ok.mp heq
  rcases hsettled r hr with hterminal | hdeleted
  · rwa [hs] at hterminal
  · cases hs.symm.trans hdeleted

lemma sealAll_settles (h : (sealAll c env db jobs).1 = .ok n) :
    ∀ job ∈ jobs, job.state.terminal = false →
      ∃ r ∈ (sealAll c env db jobs).2.jobs.rows, r.id = job.id ∧ r.state.settled = true := by
  induction jobs generalizing db n with
  | nil => simp
  | cons job jobs ih =>
  intro x hx hopen
  rw [sealAll] at h ⊢
  split_ifs at h ⊢ with hterminal hcrash
  · rcases mem_cons.mp hx with rfl | hx
    · cases hterminal.symm.trans hopen
    · exact ih h x hx hopen
  dsimp only at h ⊢
  generalize (perform c (env.sealing job.id).fault db
    (.tx (sealing c (env.clock job.id) job))).2 = db₁ at h ⊢
  split at h
  · simp at h
  rename_i read hread
  split_ifs at h ⊢ with hdone
  cases hrest : (sealAll c env db₁ jobs).1 with
  | error e => simp [hrest, Except.map] at h
  | ok m =>
  rcases mem_cons.mp hx with rfl | hx
  · obtain ⟨r, hr, hid, s, spec, hs, -, rfl⟩ := getOn_eq_ok.mp hread
    obtain ⟨r', hr', hstep⟩ := (sealAll_recovers env _ jobs).jobs r hr
    have hsettled : r.state.settled = true := by rw [hs]; exact hdone
    exact ⟨r', hr', hstep.id_eq.trans hid, by rw [hstep.settled hsettled]; exact hsettled⟩
  · exact ih hrest x hx hopen

lemma sealAll_terminal (h : ∀ job ∈ jobs, job.state.terminal = true) :
    sealAll c env db jobs = (.ok 0, db) := by
  induction jobs with
  | nil => rfl
  | cons job jobs ih =>
    rw [sealAll, if_pos (h job mem_cons_self)]
    exact ih fun x hx => h x (.tail _ hx)

/-! ## Fencing -/

def Fenced (db : Db) (id leaseId : Uuid) : Prop :=
  (∃ r ∈ db.jobs.rows, r.id = id ∧ r.vmAllocationAborted = true) ∧
    ∃ l ∈ db.leases.rows, l.id = leaseId ∧ l.allocationAborted = true

lemma Fenced.recovers (hfenced : Fenced db id leaseId)
    (h : Recovers db db') : Fenced db' id leaseId := by
  obtain ⟨⟨r, hr, hid, haborted⟩, l, hl, hlid, hlaborted⟩ := hfenced
  obtain ⟨r', hr', hjob⟩ := h.jobs r hr
  obtain ⟨l', hl', hlease⟩ := h.leases l hl
  exact ⟨⟨r', hr', hjob.id_eq.trans hid, hjob.aborted haborted⟩, l', hl', hlease.id_eq.trans hlid,
    hlease.aborted hlaborted⟩

lemma fenced_of_abort (h : recordJobLeasedPrebackendAbort db id vmId leaseId = .ok db') :
    Fenced db' id leaseId := by
  obtain ⟨r, hr, hid, -, -, -, -, -, l, hl, hfence, -, hjobs⟩ := recordJobLeasedPrebackendAbort_eq_ok h
  refine ⟨⟨abortedRow r, ?_, hid, rfl⟩, abortedLease l, (Rewritten.mem_rows hl).mpr (.inl rfl),
    (fenceable_eq_true hfence).1, rfl⟩
  rw [hjobs]
  exact (mem_updated_key (fun _ _ => clash_of_id) hr hid).mpr (.inl rfl)

variable {leases : List LeaseRow}

lemma fenceAll_cons {lease : LeaseRow} (h : (fenceAll c env db (lease :: leases)).1 = .ok ()) :
    ∃ db₁, fenceAll c env db (lease :: leases) = fenceAll c env db₁ leases ∧ Recovers db db₁ ∧
      ∀ job vmId, fencedJob db lease = .ok (some (job, vmId)) → ∀ db',
        recordJobLeasedPrebackendAbort db job.id vmId lease.id = .ok db' → db₁ = db' := by
  rw [fenceAll] at h ⊢
  split at h
  case h_1 => simp at h
  case h_2 hnone => exact ⟨db, rfl, .refl db, by simp [hnone]⟩
  case h_3 job vmId hsome =>
    dsimp only at h ⊢
    split_ifs at h ⊢ with hcrash
    have hrecovers := fencing_recovers (c := c) db (env.fencing lease.id).fault job.id vmId lease.id
    have hcommit (db' : Db) (hok : recordJobLeasedPrebackendAbort db job.id vmId lease.id = .ok db') :
        perform c (env.fencing lease.id).fault db
            (.tx (.recordJobLeasedPrebackendAbort job.id vmId lease.id)) = (.ok .done, db') ∨
          perform c (env.fencing lease.id).fault db
            (.tx (.recordJobLeasedPrebackendAbort job.id vmId lease.id)) =
              (.error storageFailure, db) := by
      cases hfate : env.fencing lease.id with
      | crash => exact absurd hfate hcrash
      | refuse => exact .inr rfl
      | commit =>
        left
        exact transact_ok (noReply_eq_ok.mpr ⟨hok, rfl⟩)
    have hsame (job' : JobRecord) (vmId' : Uuid)
        (h' : fencedJob db lease = .ok (some (job', vmId'))) : job = job' ∧ vmId = vmId' := by
      rwa [hsome, Except.ok.injEq, some.injEq, Prod.mk.injEq] at h'
    split at h
    case h_1 reply db₁ heq =>
      rw [heq] at hrecovers hcommit
      refine ⟨db₁, rfl, hrecovers, fun job' vmId' hsome' db' hok => ?_⟩
      obtain ⟨rfl, rfl⟩ := hsame job' vmId' hsome'
      rcases hcommit db' hok with hcase | hcase
      · exact congrArg Prod.snd hcase
      · simp at hcase
    case h_2 reason db₁ heq =>
      rw [heq] at hrecovers hcommit
      refine ⟨db₁, rfl, hrecovers, fun job' vmId' hsome' db' hok => ?_⟩
      obtain ⟨rfl, rfl⟩ := hsame job' vmId' hsome'
      rcases hcommit db' hok with hcase | hcase <;> simp [storageFailure] at hcase
    case h_3 => simp at h

lemma Planned.recovers (hplanned : Planned db r l vmId) (h : Recovers db db') :
    ∃ r' l', Planned db' r' l' vmId ∧ JobRecovers r r' ∧ LeaseRecovers l l' := by
  obtain ⟨r', hr', hjob⟩ := h.jobs r hplanned.job
  obtain ⟨l', hl', hlease⟩ := h.leases l hplanned.lease
  exact ⟨r', l', hplanned.congr hr' hl' hjob.key hlease.key (h.generationHeld _ _), hjob, hlease⟩

lemma Planned.recovered (hplanned : Planned db' r l vmId) (h : Recovers db db') :
    ∃ r₀ l₀, Planned db r₀ l₀ vmId ∧ JobRecovers r₀ r ∧ LeaseRecovers l₀ l := by
  obtain ⟨r₀, hr₀, hjob⟩ := h.jobs_back r hplanned.job
  obtain ⟨l₀, hl₀, hlease⟩ := h.leases_back l hplanned.lease
  exact ⟨r₀, l₀, hplanned.congr hr₀ hl₀ hjob.key.symm hlease.key.symm
    (h.generationHeld _ _).symm, hjob, hlease⟩

lemma fenceAll_fences (hsane : Sane db)
    (h : (fenceAll c env db leases).1 = .ok ()) (hplanned : Planned db r l vmId)
    (hstate : r.state ∈ abortable.map StoredState.live) (hsettled : r.state.settled = true)
    (hlease : ∃ lease ∈ leases, leaseKey lease = leaseKey l) :
    Fenced (fenceAll c env db leases).2 r.id l.id := by
  induction leases generalizing db r l with
  | nil => simp at hlease
  | cons lease leases ih =>
  obtain ⟨db₁, heq, hrecovers, hcommit⟩ := fenceAll_cons h
  rw [heq] at h ⊢
  obtain ⟨x, hx, hkey⟩ := hlease
  rcases mem_cons.mp hx with rfl | hx
  · have hid : x.id = l.id := congrArg Prod.fst hkey
    obtain ⟨s, spec, hs, hjob⟩ := fencedJob_of_planned hsane hplanned hsettled hkey
    obtain ⟨_, hget⟩ := hsane.getOn hplanned.job hs
    rcases abort_ok_or_conflict hsane hget with ⟨db', hok⟩ | ⟨-, hnone⟩
    · obtain rfl := hcommit _ _ hjob db' (hid ▸ hok)
      exact (fenced_of_abort hok).recovers (fenceAll_recovers env _ leases)
    · exact absurd hstate (hnone r l hplanned rfl rfl)
  · obtain ⟨r₁, l₁, hplanned₁, hjob, hlease₁⟩ := hplanned.recovers hrecovers
    have hsame := hjob.settled hsettled
    rw [← hjob.id_eq, ← hlease₁.id_eq]
    exact ih (hsane.recovers hrecovers) h hplanned₁ (hsame ▸ hstate) (hsame ▸ hsettled)
      ⟨x, hx, hkey.trans hlease₁.key.symm⟩

/-! ## Again -/

lemma abort_fenced (hfenced : Fenced db id leaseId)
    (h : recordJobLeasedPrebackendAbort db id vmId leaseId = .ok db') : db' = db := by
  obtain ⟨⟨r, hr, hid, haborted⟩, l, hl, hlid, hlaborted⟩ := hfenced
  obtain ⟨-, -, -, -, -, -, -, -, l₀, hl₀, hfence, hframe, hjobs⟩ :=
    recordJobLeasedPrebackendAbort_eq_ok h
  have hlid₀ := (fenceable_eq_true hfence).1
  have hleases : db'.leases = db.leases := by
    refine Table.ext (hl₀.rows.trans (updated_eq_self fun x hx hp => ?_))
    rw [lease_unique hx hl ((of_decide_eq_true hp).trans (hlid₀.trans hlid.symm)), abortedLease,
      ← hlaborted]
  have hrows : db'.jobs = db.jobs := by
    refine Table.ext (hjobs.trans (updated_eq_self fun x hx hp => ?_))
    rw [row_unique hx hr ((of_decide_eq_true hp).trans hid.symm), abortedRow, ← haborted]
  rw [hframe, hleases, hrows]

def AllFenced (db : Db) : Prop :=
  ∀ r l vmId, Planned db r l vmId → r.state ∈ abortable.map StoredState.live → Fenced db r.id l.id

lemma fenceAll_again (hfenced : AllFenced db) (leases : List LeaseRow) :
    (fenceAll c env db leases).2 = db := by
  induction leases with
  | nil => rfl
  | cons lease leases ih =>
  rw [fenceAll]
  split
  · rfl
  · exact ih
  rename_i job vmId _
  split_ifs
  · rfl
  have hsame : (perform c (env.fencing lease.id).fault db
      (.tx (.recordJobLeasedPrebackendAbort job.id vmId lease.id))).2 = db := by
    rcases perform_tx c (env.fencing lease.id).fault db
      (.recordJobLeasedPrebackendAbort job.id vmId lease.id) with ⟨reply, db', hbody, ht⟩ | ⟨e, ht⟩
    · rw [ht]
      have hok := (noReply_eq_ok.mp hbody).1
      obtain ⟨r, l, hplanned, hid, hlid, hstate⟩ := planned_of_abort hok
      have hmarks := hfenced r l vmId hplanned hstate
      rw [hid, hlid] at hmarks
      exact abort_fenced hmarks hok
    · rw [ht]
  dsimp only
  split <;> rename_i heq <;> rw [heq] at hsame
  · exact hsame ▸ ih
  · exact hsame ▸ ih
  · exact hsame

lemma recover_again (hsettled : Settled db) (hfenced : AllFenced db) (env : Conditions) :
    (recoverAfterRestart c env db).2 = db := by
  rw [recoverAfterRestart]
  split
  · rfl
  · rename_i jobs hjobs
    rw [sealAll_terminal (terminal_of_settled hsettled hjobs)]
    exact fenceAll_again hfenced _

/-! ## The whole attempt -/

lemma recoverAfterRestart_eq_ok (h : (recoverAfterRestart c env db).1 = .ok n) :
    ∃ jobs db₁, recoverableJobs db = .ok jobs ∧ sealAll c env db jobs = (.ok n, db₁) ∧
      fenceAll c env db₁ (listHostResourceLeases db₁) =
        (.ok (), (recoverAfterRestart c env db).2) := by
  rw [recoverAfterRestart] at h ⊢
  split at h
  · simp at h
  rename_i jobs hjobs
  split at h
  · simp at h
  rename_i m db₁ hseal
  cases hfence : fenceAll c env db₁ (listHostResourceLeases db₁) with
  | mk result db₂ =>
  cases result with
  | error e => simp [hfence, Except.map] at h
  | ok =>
    obtain rfl : m = n := by simpa [hfence, Except.map] using h
    exact ⟨jobs, db₁, hjobs, hseal, by simp [hfence]⟩

lemma settled_of_sealAll {db₁ : Db}
    (hjobs : recoverableJobs db = .ok jobs) (h : sealAll c env db jobs = (.ok n, db₁)) :
    Settled db₁ := by
  have hrecovers : Recovers db db₁ := by
    have := sealAll_recovers (c := c) env db jobs
    rwa [h] at this
  intro r₁ hr₁
  obtain ⟨r, hr, hstep⟩ := hrecovers.jobs_back r₁ hr₁
  cases hs : r.state with
  | deleted =>
    rcases hstep.state with ⟨heq, -⟩ | ⟨⟨s, hlive, -⟩, -⟩
    · exact .inr (heq.trans hs)
    · cases hs.symm.trans hlive
  | live s =>
  left
  cases hterminal : s.terminal with
  | true =>
    have hsettled : r.state.settled = true := by rw [hs]; exact hterminal
    rw [hstep.settled hsettled]
    exact hsettled
  | false =>
  obtain ⟨job, hjob, hid, hstate⟩ := mem_recoverableJobs hjobs hr hs hterminal
  have hdone := sealAll_settles (by rw [h]) job hjob (hstate ▸ hterminal)
  rw [h] at hdone
  obtain ⟨x, hx, hxid, hxsettled⟩ := hdone
  rwa [row_unique hr₁ hx (hstep.id_eq.trans (hid.symm.trans hxid.symm))]

lemma Settled.recovers (hsettled : Settled db) (h : Recovers db db') : Settled db' := by
  intro r' hr'
  obtain ⟨r, hr, hstep⟩ := h.jobs_back r' hr'
  rcases hsettled r hr with hterminal | hdeleted
  · exact .inl (by rw [hstep.settled hterminal]; exact hterminal)
  · rcases hstep.state with ⟨heq, -⟩ | ⟨⟨s, hlive, -⟩, -⟩
    · exact .inr (heq.trans hdeleted)
    · cases hdeleted.symm.trans hlive

/-- What a completed attempt leaves: outcomes for all jobs, and a fence for all plans. -/
lemma recoverAfterRestart_completes (hsane : Sane db)
    (h : (recoverAfterRestart c env db).1 = .ok n) :
    Settled (recoverAfterRestart c env db).2 ∧ AllFenced (recoverAfterRestart c env db).2 := by
  obtain ⟨jobs, db₁, hjobs, hseal, hfence⟩ := recoverAfterRestart_eq_ok h
  have hsettled := settled_of_sealAll hjobs hseal
  have hsane₁ : Sane db₁ := by
    have := hsane.recovers (sealAll_recovers (c := c) env db jobs)
    rwa [hseal] at this
  have hrecovers : Recovers db₁ (recoverAfterRestart c env db).2 := by
    have := fenceAll_recovers (c := c) env db₁ (listHostResourceLeases db₁)
    rwa [hfence] at this
  refine ⟨hsettled.recovers hrecovers, fun r' l' vmId hplanned hstate => ?_⟩
  obtain ⟨r, l, hplanned₁, hjob, hlease⟩ := hplanned.recovered hrecovers
  have hdone : r.state.settled = true := by
    refine (hsettled r hplanned₁.job).resolve_right fun hdeleted => ?_
    have := hsane₁.retired r hplanned₁.job hdeleted
    simp [hplanned₁.pending] at this
  have hmem : ∃ lease ∈ listHostResourceLeases db₁, leaseKey lease = leaseKey l :=
    ⟨l, (mem_insertionSort _).mpr hplanned₁.lease, rfl⟩
  have hfenced := fenceAll_fences hsane₁ (by rw [hfence]) hplanned₁
    (hjob.settled hdone ▸ hstate) hdone hmem
  rw [hfence, ← hjob.id_eq, ← hlease.id_eq] at hfenced
  exact hfenced

end Husker.Recovery
