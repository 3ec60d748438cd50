import Husker.Lease.Lease
import Husker.Journal.Record

/-! # Cleanup receipts and deletion

A job keeps ownership of its VM until a receipt says that the bound generation was destroyed
or never allocated.  Only then may its evidence be deleted.
-/
namespace Husker.Journal
open Relational Store Lease

/-! ## VM allocation of a job

A job reserves a VM name, binds the exact generation that will be created under it, and
only then runs.
-/

def jobVmName (id : Uuid) : String := "job-" ++ id.toText

def reservedRow (name : String) (r : JobRow) : JobRow :=
  { r with vmName := some name, state := .live .preparing, cleanupPending := true }

def reserveJobVmInner (db : Db) (now : DateTime) (id : Uuid) (replay : Bool) :
    Except JournalError (JobRecord × Db) := do
  let job ← getOn db id
  ensure (job.vmName = none ∨ replay = true) (.conflict "allocation already claimed")
  let db ←
    if job.vmName = none then do
      ensure (job.state = .accepted ∧ now.timestamp < job.deadline)
        (.conflict "job is no longer accepting a VM")
      updateJob db [.vmName, .state, .cleanupPending] id (reservedRow (jobVmName id))
    else pure db
  let record ← getOn db id
  return (record, db)

def reserveJobVm (db : Db) (now : DateTime) (id : Uuid) : Except JournalError (JobRecord × Db) :=
  reserveJobVmInner db now id true

def claimJobVm (db : Db) (now : DateTime) (id : Uuid) : Except JournalError (JobRecord × Db) :=
  reserveJobVmInner db now id false

/-- Whether some job already owns this generation, or a different job still owns the name. -/
def vmOwned (db : Db) (id vmId : Uuid) (name : String) : Bool :=
  db.jobs.rows.any fun r =>
    r.vmId = some vmId || (r.vmName = some name && r.cleanupPending && r.id ≠ id)

/-- The row after binding a generation; a terminal winner stays. -/
def boundRow (vmId : Uuid) (name : String) (r : JobRow) : JobRow :=
  { r with
    vmId := some vmId
    vmName := some name
    state := if r.state = .live .accepted then .live .preparing else r.state
    cleanupPending := true }

def bindOn (db : Db) (now : DateTime) (id vmId : Uuid) (name : String) :
    Except JournalError Db := do
  ensure (printable 255 name = true) (.invalid "invalid VM name")
  let job ← getOn db id
  ensure (job.vmAllocationAborted = false) (.conflict "VM allocation was permanently aborted")
  match job.vmId with
  | some bound => do
    ensure (bound = vmId ∧ job.vmName = some name) (.conflict "VM generation changed")
    return db
  | none => do
    match job.vmName with
    | some reserved =>
      ensure (reserved = name ∧ job.cleanupPending = true)
        (.conflict "VM reservation changed or released")
    | none =>
      ensure (job.state = .accepted ∧ now.timestamp < job.deadline)
        (.conflict "job is no longer accepting a VM")
    ensure (vmOwned db id vmId name = false) (.conflict "VM is already owned by another job")
    updateJob db [.vmId, .vmName, .state, .cleanupPending] id (boundRow vmId name)

def bindJobVm (db : Db) (now : DateTime) (id vmId : Uuid) (name : String) :
    Except JournalError (JobRecord × Db) := do
  let db ← bindOn db now id vmId name
  let job ← getOn db id
  return (job, db)

def bindJobVmWithLease (db : Db) (seed : LeaseSeed) (now : DateTime) (id vmId : Uuid)
    (name : String) : Except JournalError ((JobRecord × LeaseRow) × Db) := do
  let job ← getOn db id
  ensure (job.vmId = none) (.conflict "VM generation is already bound")
  let db ← bindOn db now id vmId name
  let (lease, db) ← (insertHostResourceLease db seed name (some vmId)).mapError .state
  let job ← getOn db id
  return ((job, lease), db)

def runningRow (r : JobRow) : JobRow := { r with state := .live .running }

/-- A prepared job whose generation is bound and whose deadline is ahead. -/
def runnable (now : DateTime) (r : JobRow) : Bool :=
  r.state = .live .preparing && r.vmId.isSome && !r.vmDestroyed && !r.vmAllocationAborted &&
    now.timestamp < r.deadline

def markJobRunning (db : Db) (now : DateTime) (id : Uuid) : Except JournalError Db := do
  let (changed, db) ← updateJobs db [.state] (fun r => r.id = id && runnable now r) runningRow
  if changed = 0 then do
    let job ← getOn db id
    ensure (job.state = .running ∧ job.vmDestroyed = false ∧ job.vmAllocationAborted = false)
      (.conflict "job cannot enter running state")
  return db

def destroyedRow (r : JobRow) : JobRow := { r with vmDestroyed := true }

def abortedRow (r : JobRow) : JobRow := { r with vmAllocationAborted := true }

def confirmedRow (r : JobRow) : JobRow := { r with cleanupPending := false }

def recordJobVmDestruction (db : Db) (vmId : Uuid) : Except JournalError Db := do
  let (_, db) ← updateJobs db [.vmDestroyed] (fun r => r.vmId = some vmId) destroyedRow
  return db

def abortable : List JobState :=
  [.preparing, .infrastructureFailed, .interrupted, .cancelled, .timedOut, .unknown]

/-- An update that must match a row; otherwise the job is missing or in conflict. -/
def updateExact (db : Db) (columns : List JobColumn) (id : Uuid) (p : JobRow → Bool)
    (f : JobRow → JobRow) (reason : String) : Except JournalError Db := do
  let (changed, db) ← updateJobs db columns (fun r => r.id = id && p r) f
  if changed = 0 then do
    let _ ← getOn db id
    .error (.conflict reason)
  else return db

def recordJobVmAllocationAbort (db : Db) (id vmId : Uuid) : Except JournalError Db :=
  updateExact db [.vmAllocationAborted] id
    (fun r => r.vmId = some vmId && !r.vmDestroyed && r.cleanupPending &&
      r.state ∈ abortable.map StoredState.live)
    abortedRow "allocation abort ownership or state mismatch"

/-- Whether a VM record, or a lease other than this one, holds the generation or its name. -/
def generationHeld (db : Db) (vmId leaseId : Uuid) (name : String) : Bool :=
  db.vms.rows.any (fun v => v.id = vmId || v.name = name) ||
    db.leases.rows.any fun l => l.id ≠ leaseId && (l.vmId = some vmId || l.vmName = name)

def fenceable (vmId leaseId : Uuid) (name : String) (l : LeaseRow) : Bool :=
  l.id = leaseId && l.vmName = name && l.vmId = some vmId && !l.backendEntered && !l.vmDestroyed

/-- Fence the exact planned lease and record the abort of its job in one transaction. -/
def recordJobLeasedPrebackendAbort (db : Db) (id vmId leaseId : Uuid) :
    Except JournalError Db := do
  let job ← getOn db id
  let name := jobVmName id
  ensure (job.vmId = some vmId ∧ job.vmName = some name ∧ job.vmDestroyed = false ∧
      job.cleanupPending = true ∧ job.state ∈ abortable)
    (.conflict "pre-backend abort job ownership mismatch")
  ensure (generationHeld db vmId leaseId name = false)
    (.conflict "exact unentered creation lease required")
  let (changed, db) ← (updateLeases db [.allocationAborted] (fenceable vmId leaseId name)
    abortedLease).mapError .database
  ensure (changed = 1) (.conflict "exact unentered creation lease required")
  updateJob db [.vmAllocationAborted] id abortedRow

def confirmJobCleanup (db : Db) (id vmId : Uuid) : Except JournalError Db :=
  updateExact db [.cleanupPending] id
    (fun r => r.vmId = some vmId && (r.vmDestroyed || r.vmAllocationAborted) && r.state.settled)
    confirmedRow "cleanup generation or terminal state mismatch"

def confirmUnallocatedJobCleanup (db : Db) (id : Uuid) (name : String) : Except JournalError Db :=
  updateExact db [.cleanupPending] id
    (fun r => r.vmId.isNone && r.vmName = some name && r.state.settled)
    confirmedRow "unallocated cleanup ownership or terminal state mismatch"

def tombstone (r : JobRow) : JobRow :=
  { r with
    state := .deleted, specification := none, manifest := none, captureCursor := 0
    retainedBytes := 0 }

def deleteJobEvidence (db : Db) (id : Uuid) : Except JournalError Db := do
  let job ← getOn db id
  ensure (job.state.terminal = true ∧ job.cleanupPending = false)
    (.conflict "active execution or unconfirmed VM cleanup")
  let db := { db with
    artifacts := db.artifacts.delete fun a => a.jobId = id
    events := db.events.delete fun e => e.jobId = id }
  updateJob db [.state, .specification, .manifest, .captureCursor, .retainedBytes] id tombstone

def expiredJobs (db : Db) (now : DateTime) : List Uuid :=
  (db.jobs.rows.filter fun r =>
    r.state.settled && !r.cleanupPending && r.retentionUntil ≤ now.timestamp).map JobRow.id

def recoverBefore (a b : JobRecord) : Prop :=
  a.createdAt < b.createdAt ∨ (a.createdAt = b.createdAt ∧ a.id.bits ≤ b.id.bits)

instance : DecidableRel recoverBefore := fun _ _ => inferInstanceAs (Decidable (_ ∨ _))

/-! # The life of one job

A job is its row together with its event and artifact rows.  `Change` lists everything a
journal operation can do to one job, each with the guard under which it happens; the
statements of the source are shown to do nothing else.
-/
open List

structure JobView where
  row : JobRow
  events : List EventRow
  artifacts : List ArtifactRow

def viewOf (db : Db) (r : JobRow) : JobView := ⟨r, eventsOf db r.id, artifactsOf db r.id⟩

inductive Captures (c : Codec) (id : Uuid) : Capture → List EventRow → Capture → Prop
  | nil (s : Capture) : Captures c id s [] s
  | cons {s s' : Capture} {rows : List EventRow} (e : JobEvent) (hseq : e.sequence = s.cursor + 1)
      (hrest : Captures c id (s.advance e.sequence e.data.length) rows s') :
      Captures c id s (s.row c id e :: rows) s'

/-- The decisions a call may take: which outcomes it publishes, whose evidence it deletes. -/
structure Grant where
  publishes : Set (Uuid × JobState × CollectionState)
  deletes : Set Uuid

inductive Change (c : Codec) (g : Grant) : JobView → JobView → Prop
  | same (v : JobView) : Change c g v v
  | reserve (r : JobRow) (es : List EventRow) (as : List ArtifactRow) (name : String)
      (hstate : r.state = .live .accepted) (hname : r.vmName = none) :
      Change c g ⟨r, es, as⟩ ⟨reservedRow name r, es, as⟩
  | bind (r : JobRow) (es : List EventRow) (as : List ArtifactRow) (vmId : Uuid) (name : String)
      (hlive : r.state ≠ .deleted) (hvm : r.vmId = none)
      (hclaim : (r.vmName = some name ∧ r.cleanupPending = true) ∨
        (r.vmName = none ∧ r.state = .live .accepted)) :
      Change c g ⟨r, es, as⟩ ⟨boundRow vmId name r, es, as⟩
  | run (r : JobRow) (es : List EventRow) (as : List ArtifactRow)
      (hstate : r.state = .live .preparing) (hvm : r.vmId.isSome = true)
      (hdestroyed : r.vmDestroyed = false) (haborted : r.vmAllocationAborted = false) :
      Change c g ⟨r, es, as⟩ ⟨runningRow r, es, as⟩
  | capture (r : JobRow) (es rows : List EventRow) (as : List ArtifactRow) (s s' : Capture)
      (hlive : r.state ≠ .deleted) (hpending : r.collection = .pending)
      (hcursor : s.cursor = r.captureCursor) (hbytes : s.bytes = r.retainedBytes)
      (htruncated : r.outputTruncated = true → s.truncated = true)
      (hdropped : s.hostDropped = es.any fun e => e.data.isNone)
      (hrows : Captures c r.id s rows s') :
      Change c g ⟨r, es, as⟩ ⟨capturedRow s' r, es ++ rows, as⟩
  | stage (r : JobRow) (es : List EventRow) (as : List ArtifactRow) (manifest : String)
      (hstate : r.state = .live .running) (hpending : r.collection = .pending)
      (hjson : c.boundedObject manifest maxManifestBytes = true) :
      Change c g ⟨r, es, as⟩ ⟨stagedRow manifest r, es, as⟩
  | retain (r : JobRow) (es : List EventRow) (as : List ArtifactRow) (a : ArtifactRow)
      (hstate : r.state = .live .running) (hpending : r.collection = .pending) :
      Change c g ⟨r, es, as⟩ ⟨r, es, as ++ [a]⟩
  | publish (r : JobRow) (es : List EventRow) (as : List ArtifactRow) (old new : JobState)
      (collection : CollectionState) (manifest : String) (hstate : r.state = .live old)
      (hopen : old.terminal = false) (hterminal : new.terminal = true)
      (hcollection : collection ≠ .pending)
      (hcommand : new = .completed ∨ new = .commandFailed → old = .running)
      (htruncated : r.outputTruncated = true → collection ≠ .complete)
      (hgrant : (r.id, new, collection) ∈ g.publishes) :
      Change c g ⟨r, es, as⟩ ⟨publishedRow new collection manifest r, es, as⟩
  | destroy (r : JobRow) (es : List EventRow) (as : List ArtifactRow)
      (hvm : r.vmId.isSome = true) : Change c g ⟨r, es, as⟩ ⟨destroyedRow r, es, as⟩
  | abort (r : JobRow) (es : List EventRow) (as : List ArtifactRow) (hvm : r.vmId.isSome = true)
      (hdestroyed : r.vmDestroyed = false) (hpending : r.cleanupPending = true)
      (hstate : r.state ∈ abortable.map StoredState.live) :
      Change c g ⟨r, es, as⟩ ⟨abortedRow r, es, as⟩
  | confirm (r : JobRow) (es : List EventRow) (as : List ArtifactRow)
      (hsettled : r.state.settled = true)
      (hproof : (r.vmId.isSome = true ∧ (r.vmDestroyed = true ∨ r.vmAllocationAborted = true)) ∨
        (r.vmId = none ∧ r.vmName.isSome = true)) :
      Change c g ⟨r, es, as⟩ ⟨confirmedRow r, es, as⟩
  | erase (r : JobRow) (es : List EventRow) (as : List ArtifactRow)
      (hsettled : r.state.settled = true) (hpending : r.cleanupPending = false)
      (hgrant : r.id ∈ g.deletes) :
      Change c g ⟨r, es, as⟩ ⟨tombstone r, [], []⟩

variable {c : Codec} {g : Grant} {v v' : JobView} {R : JobView → JobView → Prop} {db db' : Db} {f : JobRow → JobRow}

section
variable (h : Change c g v v')
include h

lemma Change.identity : v'.row.id = v.row.id ∧ v'.row.submissionKey = v.row.submissionKey ∧
      v'.row.specDigest = v.row.specDigest ∧ v'.row.deadline = v.row.deadline ∧
      v'.row.sessionId = v.row.sessionId := by
  cases h <;> exact ⟨rfl, rfl, rfl, rfl, rfl⟩

lemma Change.specification : v'.row.specification = v.row.specification ∨
      (v'.row.state = .deleted ∧ v'.row.specification = none) := by
  cases h with
  | erase => exact .inr ⟨rfl, rfl⟩
  | _ => exact .inl rfl

lemma Change.deleted (hv : v.row.state = .deleted) : v'.row.state = .deleted := by
  cases h with
  | reserve _ _ _ _ hstate | run _ _ _ hstate => cases hstate.symm.trans hv
  | bind _ _ _ _ _ hlive => exact absurd hv hlive
  | publish _ _ _ _ _ _ _ hstate => cases hstate.symm.trans hv
  | erase => rfl
  | _ => exact hv

lemma Change.retired (hv : v.row.state = .deleted → v.row.cleanupPending = false)
    (hv' : v'.row.state = .deleted) : v'.row.cleanupPending = false := by
  cases h with
  | reserve | run | publish => simp [reservedRow, runningRow, publishedRow] at hv'
  | bind _ _ _ _ _ hlive =>
    simp only [boundRow] at hv'
    split_ifs at hv'
    exact absurd hv' hlive
  | confirm => rfl
  | erase _ _ _ _ hpending => exact hpending
  | same | capture | stage | retain | destroy | abort => exact hv hv'

end

/-! ## Changes of a whole journal -/

def evidenceRows (db : Db) (id : Uuid) : List EventRow × List ArtifactRow :=
  (eventsOf db id, artifactsOf db id)

lemma viewOf_eq (db : Db) (r : JobRow) :
    viewOf db r = ⟨r, (evidenceRows db r.id).1, (evidenceRows db r.id).2⟩ := rfl

/-- Every job changes by `R`, none appears or disappears, and no evidence is written for an
identifier that is not a job's. -/
structure Rewrites (R : JobView → JobView → Prop) (db db' : Db) : Prop where
  jobs : ∃ next : JobRow → JobRow, db'.jobs.rows = db.jobs.rows.map next ∧
    ∀ r ∈ db.jobs.rows, R (viewOf db r) (viewOf db' (next r))
  others : ∀ id, (∀ r ∈ db.jobs.rows, r.id ≠ id) → evidenceRows db' id = evidenceRows db id

lemma Rewrites.mono {R' : JobView → JobView → Prop} (h : Rewrites R db db')
    (hR : ∀ v v', R v v' → R' v v') : Rewrites R' db db' := by
  obtain ⟨⟨next, hrows, hnext⟩, hothers⟩ := h
  exact ⟨⟨next, hrows, fun r hr => hR _ _ (hnext r hr)⟩, hothers⟩

structure SameJournal (db db' : Db) : Prop where
  jobs : db'.jobs = db.jobs
  events : db'.events = db.events
  artifacts : db'.artifacts = db.artifacts

lemma SameJournal.evidence (h : SameJournal db db') (id : Uuid) :
    evidenceRows db' id = evidenceRows db id := by
  simp [evidenceRows, eventsOf, artifactsOf, h.events, h.artifacts]

lemma SameJournal.view (h : SameJournal db db') (r : JobRow) : viewOf db' r = viewOf db r := by
  rw [viewOf_eq, h.evidence, ← viewOf_eq]

lemma Rewrites.of_same (hrefl : ∀ v, R v v) (h : SameJournal db db') : Rewrites R db db' := by
  refine ⟨⟨id, by rw [h.jobs, map_id], fun r _ => ?_⟩, fun id _ => h.evidence id⟩
  rw [id, h.view]
  exact hrefl _

lemma Rewrites.same_right {db₁ : Db}
    (h : Rewrites R db db₁) (hsame : SameJournal db₁ db') : Rewrites R db db' := by
  obtain ⟨⟨next, hrows, hnext⟩, hothers⟩ := h
  refine ⟨⟨next, by rw [hsame.jobs, hrows], fun r hr => ?_⟩, fun id hid => ?_⟩
  · rw [hsame.view]
    exact hnext r hr
  · rw [hsame.evidence, hothers id hid]

lemma Rewrites.trans {a b d : Db}
    (htrans : ∀ u v w, R u v → R v w → R u w) (hid : ∀ u v, R u v → v.row.id = u.row.id)
    (h₁ : Rewrites R a b) (h₂ : Rewrites R b d) : Rewrites R a d := by
  obtain ⟨⟨f, hf, hR⟩, hothers⟩ := h₁
  obtain ⟨⟨g, hg, hR'⟩, hothers'⟩ := h₂
  refine ⟨⟨g ∘ f, by rw [hg, hf, map_map], fun r hr => ?_⟩, fun id hne => ?_⟩
  · exact htrans _ _ _ (hR r hr) (hR' (f r) (by rw [hf]; exact mem_map_of_mem hr))
  rw [hothers' id fun x hx => ?_, hothers id hne]
  rw [hf] at hx
  obtain ⟨r, hr, rfl⟩ := mem_map.mp hx
  have hkeep : (f r).id = r.id := hid _ _ (hR r hr)
  rw [hkeep]
  exact hne r hr

variable {p : JobRow → Bool}

lemma Rewrites.of_updated (hrefl : ∀ v, R v v)
    (hrows : db'.jobs.rows = Table.updated db.jobs.rows p f)
    (hhit : ∀ r ∈ db.jobs.rows, p r = true → R (viewOf db r) (viewOf db' (f r)))
    (hmiss : ∀ id, (∀ r ∈ db.jobs.rows, r.id = id → p r = false) →
      evidenceRows db' id = evidenceRows db id) :
    Rewrites R db db' := by
  refine ⟨⟨fun r => if p r then f r else r, hrows, fun r hr => ?_⟩, fun id hne => ?_⟩
  · by_cases hp : p r = true
    · simpa [hp] using hhit r hr hp
    · have hp : p r = false := by simpa using hp
      have hsame : evidenceRows db' r.id = evidenceRows db r.id :=
        hmiss r.id fun x hx hid => by rwa [row_unique hx hr hid]
      simp only [hp, Bool.false_eq_true, if_false, viewOf_eq, hsame]
      exact hrefl _
  · exact hmiss id fun r hr hid => absurd hid (hne r hr)

variable {columns : List JobColumn}

/-- An `UPDATE` of job rows alone. -/
lemma updateJobs_rewrites {n : ℕ} (hrefl : ∀ v, R v v)
    (h : updateJobs db columns p f = .ok (n, db')) (hid : ∀ r, (f r).id = r.id)
    (hhit : ∀ r ∈ db.jobs.rows, p r = true →
      R (viewOf db r) ⟨f r, eventsOf db r.id, artifactsOf db r.id⟩) :
    Rewrites R db db' := by
  obtain ⟨-, hdb, hupdate⟩ := updateJobs_eq_ok h
  rw [hdb]
  refine .of_updated hrefl (Table.update?_eq_some hupdate).1 (fun r hr hp => ?_) fun _ _ => rfl
  have := hhit r hr hp
  rwa [← hid r] at this

/-- An `UPDATE` of the row a lookup found. -/
lemma updateJob_rewrites {r : JobRow} {id : Uuid} (hrefl : ∀ v, R v v)
    (h : updateJob db columns id f = .ok db') (hid : ∀ r, (f r).id = r.id)
    (hr : r ∈ db.jobs.rows) (hrid : r.id = id)
    (hhit : R (viewOf db r) ⟨f r, eventsOf db r.id, artifactsOf db r.id⟩) : Rewrites R db db' := by
  simp only [updateJob, eq_ok] at h
  obtain ⟨⟨n, db''⟩, hupdate, rfl⟩ := h
  refine updateJobs_rewrites hrefl hupdate hid fun x hx hp => ?_
  rw [row_unique hx hr ((of_decide_eq_true hp).trans hrid.symm)]
  exact hhit

/-! # Terminal evidence of one job

A job moves forward through its states.  Publishing seals the collection, and every writer of
evidence asks for an open collection or a running job, so sealed evidence stays as it is.
-/
open JobState StoredState

section

def rank : StoredState → ℕ
  | .live .accepted => 0
  | .live .preparing => 1
  | .live .running => 2
  | .live _ => 3
  | .deleted => 4

variable {s : JobState}

lemma rank_terminal (h : s.terminal = true) : rank (.live s) = 3 := by
  cases s <;> first | rfl | simp [terminal] at h

lemma rank_open (h : s.terminal = false) : rank (.live s) ≤ 2 := by
  cases s <;> first | decide | simp [terminal] at h

lemma rank_le_deleted (s : StoredState) : rank s ≤ rank .deleted := by
  cases s with
  | live s => cases s <;> decide
  | deleted => exact le_rfl

lemma rank_eq_deleted {s : StoredState} (h : rank s = rank .deleted) : s = .deleted := by
  cases s with
  | live s => cases s <;> simp [rank] at h
  | deleted => rfl

lemma three_le_rank {s : StoredState} : 3 ≤ rank s ↔ s.settled = true ∨ s = .deleted := by
  cases s with
  | live s => cases s <;> simp [rank, settled, terminal]
  | deleted => simp [rank]

structure TerminalEvidence where
  state : StoredState
  collection : CollectionState
  manifest : Option String
  events : List EventRow
  artifacts : List ArtifactRow
  captureCursor : ℕ
  retainedBytes : ℕ
  outputTruncated : Bool

def evidenceOf (v : JobView) : TerminalEvidence where
  state := v.row.state
  collection := v.row.collection
  manifest := v.row.manifest
  events := v.events
  artifacts := v.artifacts
  captureCursor := v.row.captureCursor
  retainedBytes := v.row.retainedBytes
  outputTruncated := v.row.outputTruncated

def Sealed (v : JobView) : Prop := v.row.state.settled = true → v.row.collection ≠ .pending

variable {c : Codec} {g : Grant} {v v' : JobView}

lemma settled_of_boundRow {vmId : Uuid} {name : String} {r : JobRow}
    (h : (boundRow vmId name r).state.settled = true) : (boundRow vmId name r).state = r.state := by
  simp only [boundRow] at h ⊢
  split_ifs with haccepted
  · simp [haccepted, settled, terminal] at h
  · rfl

section
variable (h : Change c g v v')
include h

lemma Change.sealed (hv : Sealed v) : Sealed v' := by
  cases h with
  | same => exact hv
  | reserve => simp [Sealed, reservedRow, settled, terminal]
  | bind r es as vmId name =>
    intro hsettled
    rw [settled_of_boundRow hsettled] at hsettled
    exact hv hsettled
  | run => simp [Sealed, runningRow, settled, terminal]
  | publish _ _ _ _ _ _ _ _ _ _ hcollection => exact fun _ => hcollection
  | erase => simp [Sealed, tombstone, settled]
  | capture | stage | retain | destroy | abort | confirm => exact hv

lemma Change.rank_le : rank v.row.state ≤ rank v'.row.state := by
  cases h with
  | reserve _ _ _ _ hstate => simp [hstate, rank]
  | bind r es as vmId name =>
    simp only [boundRow]
    split_ifs with haccepted
    · simp [haccepted, rank]
    · exact le_rfl
  | run _ _ _ hstate => simp [hstate, runningRow, rank]
  | publish _ _ _ _ _ _ _ hstate hopen hterminal =>
    simp only [hstate, publishedRow, rank_terminal hterminal]
    exact (rank_open hopen).trans (by decide)
  | erase r => exact rank_le_deleted r.state
  | same | capture | stage | retain | destroy | abort | confirm => exact le_rfl

lemma Change.command (hv' : v'.row.state = .live .completed ∨ v'.row.state = .live .commandFailed) :
    v.row.state = v'.row.state ∨ v.row.state = .live .running := by
  cases h with
  | reserve | run | erase => simp [reservedRow, runningRow, tombstone] at hv'
  | bind r es as vmId name =>
    refine .inl (settled_of_boundRow ?_).symm
    rcases hv' with hv' | hv' <;> rw [hv'] <;> rfl
  | publish _ _ _ old new _ _ hstate _ _ _ hcommand =>
    simp only [publishedRow, live.injEq] at hv'
    exact .inr (by rw [hstate, hcommand hv'])
  | same | capture | stage | retain | destroy | abort | confirm => exact .inl rfl

lemma Change.frozen (hv : Sealed v) (hsettled : v.row.state.settled = true) :
    evidenceOf v' = evidenceOf v ∨ (v'.row.state = .deleted ∧ v.row.id ∈ g.deletes) := by
  cases h with
  | reserve _ _ _ _ hstate => simp [hstate, settled, terminal] at hsettled
  | run _ _ _ hstate => simp [hstate, settled, terminal] at hsettled
  | stage _ _ _ _ hstate => simp [hstate, settled, terminal] at hsettled
  | retain _ _ _ _ hstate => simp [hstate, settled, terminal] at hsettled
  | capture _ _ _ _ _ _ _ hpending => exact absurd hpending (hv hsettled)
  | publish _ _ _ _ _ _ _ hstate hopen =>
    simp [hstate, settled, hopen] at hsettled
  | bind r es as vmId name =>
    have hkeep : (boundRow vmId name r).state = r.state := by
      simp only [boundRow]
      split_ifs with haccepted
      · simp [haccepted, settled, terminal] at hsettled
      · rfl
    simp only [evidenceOf, hkeep]
    exact .inl rfl
  | erase r es as _ _ hgrant => exact .inr ⟨rfl, hgrant⟩
  | same | destroy | abort | confirm => exact .inl rfl

lemma Change.published (hopen : v.row.state.settled = false)
    (hs : v'.row.state = .live s) (hterminal : s.terminal = true) :
    (v.row.id, s, v'.row.collection) ∈ g.publishes := by
  have hsame : v'.row.state ≠ v.row.state := by
    intro heq
    rw [← heq, hs] at hopen
    simp [settled, hterminal] at hopen
  cases h with
  | reserve | run =>
    simp only [reservedRow, runningRow, live.injEq] at hs
    simp [← hs, terminal] at hterminal
  | bind r es as vmId name =>
    simp only [boundRow] at hs hsame
    split_ifs at hs hsame
    · simp only [live.injEq] at hs
      simp [← hs, terminal] at hterminal
    · exact absurd rfl hsame
  | publish r es as old new collection manifest _ _ _ _ _ _ hgrant =>
    simp only [publishedRow, live.injEq] at hs
    exact hs ▸ hgrant
  | erase => simp [tombstone] at hs
  | same | capture | stage | retain | destroy | abort | confirm => exact absurd rfl hsame

end

end

/-! ## Ownership of a VM by one job

A job that names a VM owes its cleanup until a receipt releases it.  The receipt is final: no
operation takes the name, the generation or the release back.
-/

structure Released (r : JobRow) : Prop where
  decided : r.state.settled = true ∨ r.state = .deleted
  gone : r.vmId = none ∨ r.vmDestroyed = true ∨ r.vmAllocationAborted = true

structure Owned (r : JobRow) : Prop where
  pending : r.cleanupPending = true → r.vmName.isSome = true ∧ r.state ≠ .deleted
  named : r.vmName.isSome = true → r.cleanupPending = true ∨ Released r
  bound : r.vmId.isSome = true → r.vmName.isSome = true

lemma Change.owned (h : Change c g v v') (hv : Owned v.row) : Owned v'.row := by
  obtain ⟨hpending, hnamed, hbound⟩ := hv
  cases h with
  | same | capture | stage | retain =>
    exact ⟨hpending, fun hname => (hnamed hname).imp_right fun h => ⟨h.decided, h.gone⟩, hbound⟩
  | reserve => exact ⟨fun _ => ⟨rfl, by simp [reservedRow]⟩, fun _ => .inl rfl, fun _ => rfl⟩
  | bind r es as vmId name hlive =>
    refine ⟨fun _ => ⟨rfl, ?_⟩, fun _ => .inl rfl, fun _ => rfl⟩
    simp only [boundRow]
    split_ifs
    · simp
    · exact hlive
  | run r es as hstate =>
    refine ⟨fun hp => ⟨(hpending hp).1, by simp [runningRow]⟩, fun hname => ?_, hbound⟩
    rcases hnamed hname with hp | ⟨hdecided, -⟩
    · exact .inl hp
    · simp [hstate, settled, terminal] at hdecided
  | publish r es as old new collection manifest hstate hopen hterminal =>
    refine ⟨fun hp => ⟨(hpending hp).1, by simp [publishedRow]⟩, fun hname => ?_, hbound⟩
    rcases hnamed hname with hp | ⟨-, hgone⟩
    · exact .inl hp
    · exact .inr ⟨.inl hterminal, hgone⟩
  | destroy =>
    exact ⟨hpending, fun hname => (hnamed hname).imp_right fun h => ⟨h.decided, .inr (.inl rfl)⟩,
      hbound⟩
  | abort =>
    exact ⟨hpending, fun hname => (hnamed hname).imp_right fun h => ⟨h.decided, .inr (.inr rfl)⟩,
      hbound⟩
  | confirm r es as hsettled hproof =>
    refine ⟨fun hp => absurd hp (by simp [confirmedRow]), fun _ => .inr ⟨.inl hsettled, ?_⟩, hbound⟩
    rcases hproof with ⟨-, hgone⟩ | ⟨hnone, -⟩
    · exact .inr hgone
    · exact .inl hnone
  | erase r es as hsettled hpending' =>
    refine ⟨fun hp => absurd (hpending'.symm.trans hp) (by simp), fun hname => ?_, hbound⟩
    rcases hnamed hname with hp | ⟨-, hgone⟩
    · cases hpending'.symm.trans hp
    · exact .inr ⟨.inr rfl, hgone⟩

structure Holds (r r' : JobRow) : Prop where
  vmName : ∀ name, r.vmName = some name → r'.vmName = some name
  vmId : ∀ vmId, r.vmId = some vmId → r'.vmId = some vmId
  destroyed : r.vmDestroyed = true → r'.vmDestroyed = true
  aborted : r.vmAllocationAborted = true → r'.vmAllocationAborted = true
  released : r.vmName.isSome = true → r.cleanupPending = false →
    r'.cleanupPending = false ∧ r'.vmId = r.vmId

lemma Holds.refl (r : JobRow) : Holds r r :=
  ⟨fun _ h => h, fun _ h => h, fun h => h, fun h => h, fun _ h => ⟨h, rfl⟩⟩

lemma Holds.trans {r₁ r₂ r₃ : JobRow} (h₁ : Holds r₁ r₂) (h₂ : Holds r₂ r₃) : Holds r₁ r₃ := by
  refine ⟨fun n h => h₂.vmName n (h₁.vmName n h), fun x h => h₂.vmId x (h₁.vmId x h),
    fun h => h₂.destroyed (h₁.destroyed h), fun h => h₂.aborted (h₁.aborted h), fun hname hp => ?_⟩
  obtain ⟨name, hname'⟩ := Option.isSome_iff_exists.mp hname
  obtain ⟨hp₂, hvm₂⟩ := h₁.released hname hp
  obtain ⟨hp₃, hvm₃⟩ := h₂.released (by rw [h₁.vmName name hname']; rfl) hp₂
  exact ⟨hp₃, hvm₃.trans hvm₂⟩

lemma Change.holds (h : Change c g v v') : Holds v.row v'.row := by
  cases h with
  | reserve r es as name hstate hnone =>
    refine ⟨fun n h => ?_, fun _ h => h, fun h => h, fun h => h, fun hname _ => ?_⟩
    · cases hnone.symm.trans h
    · simp [hnone] at hname
  | bind r es as vmId name hlive hvm hclaim =>
    refine ⟨fun n h => ?_, fun x h => ?_, fun h => h, fun h => h, fun hname hp => ?_⟩
    · rcases hclaim with ⟨hname, -⟩ | ⟨hnone, -⟩
      · exact hname.symm.trans h
      · cases hnone.symm.trans h
    · cases hvm.symm.trans h
    · rcases hclaim with ⟨-, hpending⟩ | ⟨hnone, -⟩
      · cases hpending.symm.trans hp
      · simp [hnone] at hname
  | destroy => exact ⟨fun _ h => h, fun _ h => h, fun _ => rfl, fun h => h, fun _ h => ⟨h, rfl⟩⟩
  | abort => exact ⟨fun _ h => h, fun _ h => h, fun h => h, fun _ => rfl, fun _ h => ⟨h, rfl⟩⟩
  | confirm => exact ⟨fun _ h => h, fun _ h => h, fun h => h, fun h => h, fun _ _ => ⟨rfl, rfl⟩⟩
  | same | run | capture | stage | retain | publish | erase =>
    exact ⟨fun _ h => h, fun _ h => h, fun h => h, fun h => h, fun _ h => ⟨h, rfl⟩⟩

structure Retains (v v' : JobView) : Prop where
  live : v'.row.state ≠ .deleted
  specification : v'.row.specification = v.row.specification
  manifest : v.row.manifest.isSome = true → v'.row.manifest.isSome = true
  events : v.events <+: v'.events
  artifacts : v.artifacts <+: v'.artifacts

lemma Change.retains (h : Change c g v v') (hv : Owned v.row) (hp : v.row.cleanupPending = true) :
    Retains v v' := by
  have hlive := (hv.pending hp).2
  have hlive' : v'.row.state ≠ .deleted := by
    cases h with
    | erase _ _ _ _ hpending => cases hpending.symm.trans hp
    | reserve | run | publish => simp [reservedRow, runningRow, publishedRow]
    | bind =>
      simp only [boundRow]
      split_ifs
      · simp
      · exact hlive
    | _ => exact hlive
  cases h with
  | capture => exact ⟨hlive', rfl, fun h => h, prefix_append _ _, prefix_rfl⟩
  | retain => exact ⟨hlive', rfl, fun h => h, prefix_rfl, prefix_append _ _⟩
  | stage | publish => exact ⟨hlive', rfl, fun _ => rfl, prefix_rfl, prefix_rfl⟩
  | erase => exact absurd rfl hlive'
  | _ => exact ⟨hlive', rfl, fun h => h, prefix_rfl, prefix_rfl⟩

end Husker.Journal
