import Husker.Journal.Record

/-! # Acceptance against a resource budget

Acceptance purges tombstones past their deadline, answers a resubmission from the row it
finds, and otherwise reserves capacity for a new job in the same transaction.
-/
namespace Husker.Journal
open Relational Store

def maxRetainedJobs : ℕ := 64
def maxActiveJobs : ℕ := 16
def maxSubmissionReceipts : ℕ := 4096
def journalHeadroomPerReceipt : UInt64 := 64 * 1024 * 1024

/-! ## The budget -/

namespace FactoryLimits

def kernelBytes : UInt64 := 256 * 1024 * 1024
def initrdBytes : UInt64 := 512 * 1024 * 1024
def serialStorageBytes : UInt64 := 2 * (8 * 1024 * 1024)

end FactoryLimits

structure FactoryResourceBudget where
  maxJobs : ℕ
  maxVcpus : UInt64
  maxMemoryMib : UInt64
  memoryOverheadMib : UInt32
  maxRootDiskBytes : UInt64
  maxBootStorageBytes : UInt64
  minFreeStorageBytes : UInt64

structure FactoryAvailableStorage where
  sharedFilesystem : Bool
  bootBytes : UInt64
  journalBytes : UInt64

structure Charge where
  cpus : UInt64
  memory : UInt64
  disks : UInt64
  bootStorage : UInt64

def resource (resources : Json) (name : String) : Except JournalError UInt64 :=
  orError ((resources.index name).asU64.filter (0 < ·))
    (.capacity "unaccounted execution reservation")

namespace FactoryResourceBudget

variable (b : FactoryResourceBudget)

def validate : Except JournalError Unit :=
  ensure ((1 ≤ b.maxJobs ∧ b.maxJobs ≤ maxActiveJobs) ∧ b.maxVcpus ≠ 0 ∧
      b.memoryOverheadMib.toUInt64 < b.maxMemoryMib ∧ b.maxRootDiskBytes ≠ 0 ∧
      b.maxBootStorageBytes ≠ 0 ∧ b.minFreeStorageBytes ≠ 0)
    (.invalid "invalid factory resource budget")

/-- The boot storage of one job: two root disks and the bounded boot inputs. -/
def bootStorageOf (disk : UInt64) : Option UInt64 := do
  checkedAdd (← checkedMul disk 2)
    (FactoryLimits.kernelBytes + FactoryLimits.initrdBytes + FactoryLimits.serialStorageBytes)

/-- One turn of the loop of `check`: add a specification and compare with the limits. -/
def charge (c : Codec) (acc : Charge) (specification : String) : Except JournalError Charge := do
  let value ← orError (c.fromStr specification) (.capacity "unaccounted execution reservation")
  let resources := value.index "resources"
  let vcpus ← resource resources "vcpu_count"
  let cpus ← orError (checkedAdd acc.cpus vcpus) (.capacity "factory vCPU budget")
  let mem ← resource resources "mem_size_mib"
  let memory ← orError
    (do checkedAdd (← checkedAdd acc.memory mem) b.memoryOverheadMib.toUInt64)
    (.capacity "factory memory budget")
  let disk ← resource resources "disk_size_bytes"
  let disks ← orError (checkedAdd acc.disks disk) (.capacity "factory root disk budget")
  let bootStorage ← orError (do checkedAdd acc.bootStorage (← bootStorageOf disk))
    (.capacity "factory boot storage budget")
  ensure (cpus ≤ b.maxVcpus) (.capacity "factory vCPU budget")
  ensure (memory ≤ b.maxMemoryMib) (.capacity "factory memory budget")
  ensure (disks ≤ b.maxRootDiskBytes) (.capacity "factory root disk budget")
  ensure (bootStorage ≤ b.maxBootStorageBytes) (.capacity "factory boot storage budget")
  return ⟨cpus, memory, disks, bootStorage⟩

def check (c : Codec) (specifications : List String) : Except JournalError UInt64 := do
  let total ← specifications.foldlM (b.charge c) ⟨0, 0, 0, 0⟩
  return total.bootStorage

def journalRequired (retained : ℕ) : Option UInt64 := do
  let n ← checkedAdd (UInt64.ofNat retained) 1
  let n ← checkedMul n journalHeadroomPerReceipt
  checkedAdd n b.minFreeStorageBytes

/-- The filesystem checks that follow `check` in an acceptance.  On a shared filesystem the
journal's headroom is added to the boot requirement, without counting the reserve twice. -/
def headroom (retained : ℕ) (bootStorage : UInt64) (storage : FactoryAvailableStorage) :
    Except JournalError Unit := do
  let bootRequired ← orError (checkedAdd bootStorage b.minFreeStorageBytes)
    (.capacity "factory storage headroom overflow")
  let journalRequired ← orError (b.journalRequired retained)
    (.capacity "factory journal headroom overflow")
  let bootRequired ←
    if storage.sharedFilesystem then
      orError (checkedAdd bootRequired (journalRequired - b.minFreeStorageBytes))
        (.capacity "factory storage headroom overflow")
    else pure bootRequired
  let bootAvailable :=
    if storage.sharedFilesystem then min storage.bootBytes storage.journalBytes
    else storage.bootBytes
  ensure (bootRequired ≤ bootAvailable) (.capacity "factory boot filesystem pressure")
  ensure (journalRequired ≤ storage.journalBytes) (.capacity "factory journal filesystem pressure")

end FactoryResourceBudget

/-! ## Acceptance -/

def charged (r : JobRow) : Bool :=
  r.state ∈ [.live .accepted, .live .preparing, .live .running] || r.cleanupPending

structure Submission where
  key : String
  specification : String
  deadline : DateTime
  retentionUntil : DateTime

structure AcceptSeed where
  now : DateTime
  id : Uuid
  session : Uuid

/-- The budget an acceptance is checked against, and what observing the storage returns. -/
structure BudgetRequest where
  budget : FactoryResourceBudget
  observed : Except JournalError FactoryAvailableStorage

/-- Forget tombstones whose deadline has passed; their evidence rows go with them. -/
def purgeTombstones (db : Db) (now : DateTime) : Db :=
  let gone : JobRow → Bool := fun r => r.state = .deleted && r.deadline ≤ now.timestamp
  let ids := (db.jobs.rows.filter gone).map JobRow.id
  { db with
    jobs := db.jobs.delete gone
    events := db.events.delete fun e => e.jobId ∈ ids
    artifacts := db.artifacts.delete fun a => a.jobId ∈ ids }

def acceptedRow (c : Codec) (seed : AcceptSeed) (s : Submission) : JobRow where
  id := seed.id
  submissionKey := s.key
  specDigest := c.digest (asBytes s.specification)
  specification := some s.specification
  state := .live .accepted
  createdAt := seed.now.timestamp
  deadline := s.deadline.timestamp
  retentionUntil := s.retentionUntil.timestamp
  vmId := none
  vmName := none
  sessionId := seed.session
  captureCursor := 0
  retainedBytes := 0
  outputTruncated := false
  collection := .pending
  manifest := none
  cleanupPending := false
  vmDestroyed := false
  vmAllocationAborted := false

def checkBudget (c : Codec) (db : Db) (specification : String) (request : BudgetRequest) :
    Except JournalError Unit := do
  let held := db.jobs.rows.filter charged
  ensure (held.length < request.budget.maxJobs) (.capacity "factory job budget")
  let specifications ← held.mapM fun r => orError r.specification (.database .invalidQuery)
  let bootStorage ← request.budget.check c (specifications ++ [specification])
  let storage ← request.observed
  request.budget.headroom (db.jobs.matched fun r => r.state ≠ .deleted) bootStorage storage

def acceptFresh (c : Codec) (db : Db) (seed : AcceptSeed) (s : Submission)
    (request : Option BudgetRequest) : Except JournalError ((JobRecord × Bool) × Db) := do
  ensure (seed.now.timestamp < s.deadline.timestamp ∧
      s.deadline.nanos < s.retentionUntil.nanos ∧
      s.retentionUntil.nanos ≤ (seed.now.addDays 30).nanos)
    (.invalid "deadline must be future; retention must exceed deadline and be at most 30 days")
  ensure (db.jobs.rows.length < maxSubmissionReceipts) (.capacity "submission receipts")
  ensure (db.jobs.matched (fun r => r.state ≠ .deleted) < maxRetainedJobs)
    (.capacity "retained jobs")
  ensure (db.jobs.matched charged < maxActiveJobs) (.capacity "active jobs")
  match request with
  | none => pure ()
  | some request => checkBudget c db s.specification request
  let jobs ← orError (db.jobs.insert? (acceptedRow c seed s)) (.database .constraint)
  let db := { db with jobs }
  let record ← getOn db seed.id
  return ((record, true), db)

def acceptJobInner (c : Codec) (db : Db) (seed : AcceptSeed) (s : Submission)
    (request : Option BudgetRequest) : Except JournalError ((JobRecord × Bool) × Db) := do
  ensure (printable 128 s.key = true)
    (.invalid "submission key must be 1–128 printable UTF-8 bytes")
  boundedJson c s.specification maxSpecBytes
  let db := purgeTombstones db seed.now
  match db.jobs.get? JobRow.submissionKey s.key with
  | some old =>
    ensure (old.state ≠ .deleted) (.conflict "evidence explicitly deleted; use a new key")
    ensure (old.specDigest = c.digest (asBytes s.specification) ∧
        old.deadline = s.deadline.timestamp)
      (.conflict "immutable specification or deadline changed")
    let record ← getOn db old.id
    return ((record, false), db)
  | none => acceptFresh c db seed s request

def acceptJob (c : Codec) (db : Db) (seed : AcceptSeed) (s : Submission) :
    Except JournalError ((JobRecord × Bool) × Db) :=
  acceptJobInner c db seed s none

def acceptJobWithBudget (c : Codec) (db : Db) (seed : AcceptSeed) (s : Submission)
    (request : BudgetRequest) : Except JournalError ((JobRecord × Bool) × Db) := do
  request.budget.validate
  acceptJobInner c db seed s (some request)

end Husker.Journal
