import Husker.Store.Schema
import Husker.Relational.Text

/-! # Reading and updating one journal row -/
namespace Husker.Journal
open Relational Store List

section

def maxSpecBytes : ℕ := 64 * 1024
def maxManifestBytes : ℕ := 64 * 1024

structure JobRecord where
  id : Uuid
  specificationDigest : String
  specification : String
  state : JobState
  createdAt : ℤ
  deadline : ℤ
  retentionUntil : ℤ
  vmId : Option Uuid
  vmName : Option String
  sessionId : Uuid
  captureCursor : ℕ
  retainedBytes : ℕ
  outputTruncated : Bool
  collection : CollectionState
  manifest : Option String
  cleanupPending : Bool
  vmDestroyed : Bool
  vmAllocationAborted : Bool

/-- The record of a row, given what its `state` and `specification` columns decode to. -/
def recordOf (r : JobRow) (state : JobState) (specification : String) : JobRecord where
  id := r.id
  specificationDigest := r.specDigest
  specification := specification
  state := state
  createdAt := r.createdAt
  deadline := r.deadline
  retentionUntil := r.retentionUntil
  vmId := r.vmId
  vmName := r.vmName
  sessionId := r.sessionId
  captureCursor := r.captureCursor
  retainedBytes := r.retainedBytes
  outputTruncated := r.outputTruncated
  collection := r.collection
  manifest := r.manifest
  cleanupPending := r.cleanupPending
  vmDestroyed := r.vmDestroyed
  vmAllocationAborted := r.vmAllocationAborted

def readRecord (r : JobRow) : Except SqlError JobRecord :=
  match r.state, r.specification with
  | .live s, some specification => .ok (recordOf r s specification)
  | _, _ => .error .invalidQuery

def getOn (db : Db) (id : Uuid) : Except JournalError JobRecord := do
  let row ← orError (db.jobs.rows.find? fun r => r.id = id && r.state ≠ .deleted) (.notFound id)
  (readRecord row).mapError .database

def boundedJson (c : Codec) (value : String) (limit : ℕ) : Except JournalError Unit :=
  ensure (c.boundedObject value limit = true) (.invalid "expected a bounded JSON object")

/-- `UPDATE execution_jobs`, with the number of rows it matched. -/
def updateJobs (db : Db) (columns : List JobColumn) (p : JobRow → Bool) (f : JobRow → JobRow) :
    Except JournalError (ℕ × Db) := do
  let jobs ← orError (db.jobs.update? columns p f) (.database .constraint)
  return (db.jobs.matched p, { db with jobs })

def updateJob (db : Db) (columns : List JobColumn) (id : Uuid) (f : JobRow → JobRow) :
    Except JournalError Db := do
  let (_, db) ← updateJobs db columns (fun r => r.id = id) f
  return db

lemma clash_of_id {a b : JobRow} (h : a.id = b.id) : jobSchema.clash a b = true := by
  simp [jobSchema, JobRow.clash, h]

variable {db : Db}

lemma row_unique {a b : JobRow} (ha : a ∈ db.jobs.rows) (hb : b ∈ db.jobs.rows)
    (h : a.id = b.id) : a = b :=
  db.jobs.eq_of_clash ha hb (clash_of_id h)

variable {job : JobRecord}

lemma readRecord_eq_ok {r : JobRow} : readRecord r = .ok job ↔
      ∃ s spec, r.state = .live s ∧ r.specification = some spec ∧ job = recordOf r s spec := by
  unfold readRecord
  cases hstate : r.state with
  | deleted => simp
  | live s =>
    cases hspec : r.specification with
    | none => simp
    | some spec => simp [eq_comm]

variable {id : Uuid}

lemma getOn_eq_ok : getOn db id = .ok job ↔
      ∃ r ∈ db.jobs.rows, r.id = id ∧ ∃ s spec, r.state = .live s ∧
        r.specification = some spec ∧ job = recordOf r s spec := by
  simp only [getOn, eq_ok, readRecord_eq_ok]
  constructor
  · rintro ⟨r, hfind, hrec⟩
    have hid := find?_some hfind
    simp only [Bool.and_eq_true, decide_eq_true_eq] at hid
    exact ⟨r, mem_of_find?_eq_some hfind, hid.1, hrec⟩
  rintro ⟨r, hr, rfl, s, spec, hstate, hspec, rfl⟩
  refine ⟨r, ?_, s, spec, hstate, hspec, rfl⟩
  -- ids are unique, so the search cannot stop at another row
  cases hfind : db.jobs.rows.find? fun x => x.id = r.id && x.state ≠ .deleted with
  | none =>
    have := find?_eq_none.mp hfind r hr
    simp [hstate] at this
  | some x =>
    have hx := find?_some hfind
    simp only [Bool.and_eq_true, decide_eq_true_eq] at hx
    rw [row_unique (mem_of_find?_eq_some hfind) hr hx.1]

variable {columns : List JobColumn} {f : JobRow → JobRow}

lemma updateJobs_eq_ok {db' : Db} {p : JobRow → Bool}
    {n : ℕ} (h : updateJobs db columns p f = .ok (n, db')) :
    n = db.jobs.matched p ∧ db' = { db with jobs := db'.jobs } ∧
      db.jobs.update? columns p f = some db'.jobs := by
  simp only [updateJobs, eq_ok] at h
  obtain ⟨jobs, hjobs, rfl, rfl⟩ := h
  exact ⟨rfl, rfl, hjobs⟩

lemma updateJob_eq_ok {db' : Db} (h : updateJob db columns id f = .ok db') : db' = { db with jobs := db'.jobs } ∧
      db.jobs.update? columns (fun r => r.id = id) f = some db'.jobs := by
  simp only [updateJob, eq_ok] at h
  obtain ⟨⟨n, db''⟩, hupdate, rfl⟩ := h
  exact (updateJobs_eq_ok hupdate).2

end

/-! ## Evidence: guest receipts, artifacts and captured output -/

def maxOutputBytes : ℕ := 4 * 1024 * 1024
def maxEvents : ℕ := 4096
def maxEventBytes : ℕ := 8192
def eventPageSize : ℕ := 128
def maxArtifactBytes : ℕ := 4 * 1024 * 1024
def maxArtifactTotalBytes : ℕ := 16 * 1024 * 1024
def maxArtifacts : ℕ := 16

/-! ## Receipts and artifacts -/

def stagedRow (manifest : String) (r : JobRow) : JobRow := { r with manifest := some manifest }

def stageJobManifest (c : Codec) (db : Db) (id : Uuid) (manifest : String) :
    Except JournalError Db := do
  boundedJson c manifest maxManifestBytes
  let job ← getOn db id
  ensure (job.state = .running ∧ job.collection = .pending)
    (.conflict "manifest collection is not active")
  ensure (∀ old ∈ job.manifest, old = manifest) (.conflict "staged guest manifest changed")
  updateJob db [.manifest] id (stagedRow manifest)

structure JobArtifactRecord where
  index : ℕ
  path : String
  digest : String
  sizeBytes : ℕ

/-- A relative path without empty, `.` or `..` components, control characters or backslashes. -/
def artifactPath (path : String) : Bool :=
  printable 255 path && !path.toList.contains '\\' &&
    (path.toList.splitOn '/').all fun part => part ∉ [[], ['.'], ['.', '.']]

def artifactsOf (db : Db) (id : Uuid) : List ArtifactRow :=
  db.artifacts.rows.filter fun a => a.jobId = id

def retainJobArtifact (c : Codec) (db : Db) (id : Uuid) (index : ℕ) (path expectedDigest : String)
    (data : Bytes) : Except JournalError (JobArtifactRecord × Db) := do
  ensure (index < maxArtifacts ∧ data.length ≤ maxArtifactBytes ∧ artifactPath path = true)
    (.invalid "invalid artifact path, index or size")
  let digest := c.digest data
  ensure (digest = expectedDigest) (.invalid "artifact digest mismatch")
  let job ← getOn db id
  let db ← match (artifactsOf db id).find? fun a => a.artifactIndex = index with
    | some old => do
      ensure (old.path = path ∧ old.digest = digest ∧ old.data = data)
        (.conflict "retained artifact replay changed")
      pure db
    | none => do
      ensure (job.state = .running ∧ job.collection = .pending)
        (.conflict "artifact collection is not active")
      let total := ((artifactsOf db id).map fun a => a.data.length).sum
      ensure (total < 2 ^ 32) (.database .outOfRange)
      ensure (total + data.length ≤ maxArtifactTotalBytes) (.capacity "artifact total exceeds 16 MiB")
      ensure (∀ a ∈ artifactsOf db id, a.path ≠ path) (.conflict "artifact path already retained")
      let artifacts ← orError (db.artifacts.insert? ⟨id, index, path, digest, data⟩)
        (.database .constraint)
      pure { db with artifacts }
  return (⟨index, path, digest, data.length⟩, db)

/-! ## Captured output -/

structure JobEvent where
  sequence : ℕ
  stream : String
  data : Bytes
  deriving DecidableEq

structure Capture where
  cursor : ℕ
  bytes : ℕ
  truncated : Bool
  hostDropped : Bool

def eventsOf (db : Db) (id : Uuid) : List EventRow := db.events.rows.filter fun e => e.jobId = id

/-- Whether output of this size is still retained.  Once something was dropped nothing is:
what is retained is a prefix. -/
def Capture.keeps (s : Capture) (size : ℕ) : Bool :=
  !s.hostDropped && s.bytes + size ≤ maxOutputBytes

def Capture.advance (s : Capture) (sequence size : ℕ) : Capture :=
  if s.keeps size then { s with cursor := sequence, bytes := s.bytes + size }
  else { s with cursor := sequence, truncated := true, hostDropped := true }

def Capture.row (c : Codec) (s : Capture) (id : Uuid) (e : JobEvent) : EventRow where
  jobId := id
  sequence := e.sequence
  stream := e.stream
  digest := hexEncode (c.sha256 e.data)
  data := if s.keeps e.data.length then some e.data else none

/-- One turn of the append loop: a replayed event must match, a new one is next in order. -/
def appendEvent (c : Codec) (id : Uuid) (acc : Capture × Db) (e : JobEvent) :
    Except JournalError (Capture × Db) := do
  let (s, db) := acc
  ensure (e.sequence ≠ 0 ∧ e.sequence ≤ maxEvents ∧ e.data ≠ [] ∧ e.data.length ≤ maxEventBytes ∧
      (e.stream = "stdout" ∨ e.stream = "stderr"))
    (.invalid "invalid event sequence, stream or size")
  if e.sequence ≤ s.cursor then do
    let old := (eventsOf db id).find? fun r => r.sequence = e.sequence
    ensure (old.map (fun r => (r.stream, r.digest)) = some (e.stream, hexEncode (c.sha256 e.data)))
      (.conflict "guest event replay changed")
    return (s, db)
  else do
    ensure (e.sequence = s.cursor + 1) (.invalid "event cursor has a gap")
    let events ← orError (db.events.insert? (s.row c id e)) (.database .constraint)
    return (s.advance e.sequence e.data.length, { db with events })

def capturedRow (s : Capture) (r : JobRow) : JobRow :=
  { r with captureCursor := s.cursor, retainedBytes := s.bytes, outputTruncated := s.truncated }

def captureStart (db : Db) (job : JobRecord) (guestTruncated : Bool) : Capture where
  cursor := job.captureCursor
  bytes := job.retainedBytes
  truncated := job.outputTruncated || guestTruncated
  hostDropped := (eventsOf db job.id).any fun r => r.data.isNone

def appendJobEvents (c : Codec) (db : Db) (id : Uuid) (events : List JobEvent)
    (guestTruncated : Bool) : Except JournalError Db := do
  ensure (events.length ≤ eventPageSize) (.invalid "event batch exceeds page limit")
  let job ← getOn db id
  ensure (job.collection = .pending) (.conflict "evidence collection is sealed")
  let (s, db) ← events.foldlM (appendEvent c id) (captureStart db job guestTruncated, db)
  updateJob db [.captureCursor, .retainedBytes, .outputTruncated] id (capturedRow s)

structure JobEventPage where
  job : JobRecord
  events : List JobEvent
  nextCursor : ℕ
  hasMore : Bool

def retainedEvent (r : EventRow) : Option JobEvent :=
  r.data.map fun data => ⟨r.sequence, r.stream, data⟩

def retainedEvents (db : Db) (id : Uuid) : List JobEvent :=
  ((eventsOf db id).filterMap retainedEvent).insertionSort fun a b => a.sequence ≤ b.sequence

def jobEvents (db : Db) (id : Uuid) (after : ℕ) : Except JournalError JobEventPage := do
  ensure (after ≤ maxEvents) (.invalid "event cursor exceeds limit")
  let job ← getOn db id
  -- one row more than a page shows whether anything is left
  let found := ((retainedEvents db id).filter fun e => after < e.sequence).take (eventPageSize + 1)
  let hasMore : Bool := eventPageSize < found.length
  let events := found.take eventPageSize
  let nextCursor :=
    if hasMore then (events.getLast?.map JobEvent.sequence).getD after
    else max after job.captureCursor
  return ⟨job, events, nextCursor, hasMore⟩

/-! ## Terminal publication

The first publication decides the outcome.  A host-side failure is merged with the guest
receipt staged before it.
-/

/-- Add the staged guest receipt to a failure envelope, or its digest when it does not fit. -/
def mergeStaged (c : Codec) (envelope guest : Json) (staged : String) : Json :=
  match envelope with
  | .object members =>
    let merged := Json.insertMember "guest_result" guest members
    if (c.toText (.object merged)).utf8ByteSize ≤ maxManifestBytes then .object merged
    else
      .object <| Json.insertMember "guest_result_body_truncated" (.bool true) <|
        Json.insertMember "guest_result_sha256" (.string (c.digest (asBytes staged))) <|
          Json.removeMember "guest_result" merged
  | other => other

def publishedManifest (c : Codec) (old : JobRecord) (manifest : String) (preserveStaged : Bool) :
    Except JournalError String :=
  if preserveStaged then do
    let envelope ← orError (c.fromStr manifest) (.invalid "invalid failure envelope")
    match old.manifest with
    | none => return c.toText envelope
    | some staged =>
      let guest ← orError (c.fromStr staged) (.invalid "staged guest receipt is unreadable")
      return c.toText (mergeStaged c envelope guest staged)
  else .ok manifest

def publishedRow (state : JobState) (collection : CollectionState) (manifest : String)
    (r : JobRow) : JobRow :=
  { r with state := .live state, collection := collection, manifest := some manifest }

def finishJobInner (c : Codec) (db : Db) (id : Uuid) (state : JobState)
    (collection : CollectionState) (manifest : String) (preserveStaged : Bool) :
    Except JournalError (JobRecord × Db) := do
  ensure (state.terminal = true ∧ collection ≠ .pending)
    (.invalid "terminal result and explicit collection status required")
  boundedJson c manifest maxManifestBytes
  let old ← getOn db id
  let db ←
    if old.state.terminal = true then do
      ensure (preserveStaged = false) (.conflict "terminal evidence is immutable")
      ensure (old.state = state ∧ old.collection = collection ∧ old.manifest = some manifest)
        (.conflict "terminal evidence is immutable")
      pure db
    else do
      ensure (state = .completed ∨ state = .commandFailed → old.state = .running)
        (.conflict "unexecuted job cannot publish command completion")
      ensure (old.outputTruncated = true → collection ≠ .complete)
        (.invalid "truncated logs cannot be marked complete")
      let manifest ← publishedManifest c old manifest preserveStaged
      boundedJson c manifest maxManifestBytes
      updateJob db [.state, .collection, .manifest] id (publishedRow state collection manifest)
  let job ← getOn db id
  return (job, db)

def finishJob (c : Codec) (db : Db) (id : Uuid) (state : JobState) (collection : CollectionState)
    (manifest : String) : Except JournalError (JobRecord × Db) :=
  finishJobInner c db id state collection manifest false

def journalOwned : List String :=
  ["guest_result", "guest_result_sha256", "guest_result_body_truncated"]

def finishJobFailure (c : Codec) (db : Db) (id : Uuid) (state : JobState) (envelope : String) :
    Except JournalError (JobRecord × Db) := do
  ensure (state ≠ .completed ∧ state ≠ .commandFailed)
    (.invalid "host failure cannot publish a command result")
  boundedJson c envelope maxManifestBytes
  let value ← orError (c.fromStr envelope) (.invalid "invalid failure envelope")
  ensure (∀ key ∈ journalOwned, (value.get? key).isNone = true)
    (.invalid "guest receipt fields are journal-owned")
  finishJobInner c db id state .failed envelope true

end Husker.Journal
