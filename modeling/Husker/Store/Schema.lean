import Husker.Relational.Transaction

/-! # Column values

Identifiers, timestamps, text and machine integers as the state store reads and writes them.
-/
namespace Husker.Store
open List Option Nat

/-- A 128-bit identifier; the store keeps its hyphenated text. -/
structure Uuid where
  bits : BitVec 128
  deriving DecidableEq

namespace Uuid

def ofNat (n : ℕ) : Uuid := ⟨BitVec.ofNat 128 n⟩

def isNil (u : Uuid) : Bool := u.bits = 0

/-- Thirty-two lower-case hexadecimal digits in groups of 8, 4, 4, 4 and 12. -/
def toText (u : Uuid) : String :=
  String.ofList <| (List.range 32).flatMap fun i =>
    (if i ∈ [8, 12, 16, 20] then ['-'] else []) ++
      [Nat.digitChar (u.bits.toNat / 16 ^ (31 - i) % 16)]

end Uuid

structure DateTime where
  nanos : ℤ
  deriving DecidableEq

namespace DateTime

def ofSeconds (s : ℤ) : DateTime := ⟨s * 1000000000⟩

def timestamp (t : DateTime) : ℤ := t.nanos / 1000000000

def addDays (t : DateTime) (days : ℤ) : DateTime := ⟨t.nanos + days * 86400 * 1000000000⟩

lemma timestamp_mono {a b : DateTime} (h : a.nanos ≤ b.nanos) : a.timestamp ≤ b.timestamp :=
  Int.ediv_le_ediv (by norm_num) h

end DateTime

/-- The Unicode category `Cc`. -/
def isControl (c : Char) : Bool := c.val < 0x20 || (0x7f ≤ c.val && c.val ≤ 0x9f)

/-- Nonempty, at most `limit` bytes of UTF-8, and free of control characters. -/
def printable (limit : ℕ) (s : String) : Bool :=
  !s.isEmpty && s.utf8ByteSize ≤ limit && !s.toList.any isControl

abbrev Bytes := List UInt8

def asBytes (s : String) : Bytes := s.toUTF8.toList

def hexDigits (bytes : Bytes) : List Char :=
  bytes.flatMap fun b => [Nat.digitChar (b.toNat / 16), Nat.digitChar (b.toNat % 16)]

def hexEncode (bytes : Bytes) : String := String.ofList (hexDigits bytes)

private lemma digitChar_inj : ∀ a < 16, ∀ b < 16, Nat.digitChar a = Nat.digitChar b → a = b := by
  decide

lemma hexDigits_injective : Function.Injective hexDigits := by
  intro xs ys h
  induction xs generalizing ys with
  | nil =>
    cases ys with
    | nil => rfl
    | cons y ys => simp [hexDigits] at h
  | cons x xs ih =>
  cases ys with
  | nil => simp [hexDigits] at h
  | cons y ys =>
  simp only [hexDigits, flatMap_cons, cons_append, nil_append, cons.injEq] at h
  have hx := x.toNat_lt
  have hy := y.toNat_lt
  have hhi := digitChar_inj _ (by omega) _ (by omega) h.1
  have hlo := digitChar_inj _ (by omega) _ (by omega) h.2.1
  have hxy : x = y := UInt8.toNat_inj.mp (by omega)
  rw [hxy, ih h.2.2]

lemma hexEncode_injective : Function.Injective hexEncode := fun _ _ h =>
  hexDigits_injective (String.ofList_injective h)

/-! ## Unsigned 64-bit arithmetic -/

def checkedAdd (a b : UInt64) : Option UInt64 :=
  if a.toNat + b.toNat < 2 ^ 64 then some (a + b) else none

def checkedMul (a b : UInt64) : Option UInt64 :=
  if a.toNat * b.toNat < 2 ^ 64 then some (a * b) else none

lemma checkedAdd_eq_some {a b c : UInt64} :
    checkedAdd a b = some c ↔ c.toNat = a.toNat + b.toNat := by
  unfold checkedAdd
  have hc := c.toNat_lt
  constructor
  · intro h
    split_ifs at h with hlt
    rw [some.injEq] at h
    rw [← h, UInt64.toNat_add, mod_eq_of_lt hlt]
  · intro h
    rw [if_pos (by omega), some.injEq, ← UInt64.toNat_inj, UInt64.toNat_add,
      mod_eq_of_lt (by omega), h]

lemma checkedMul_eq_some {a b c : UInt64} :
    checkedMul a b = some c ↔ c.toNat = a.toNat * b.toNat := by
  unfold checkedMul
  have hc := c.toNat_lt
  constructor
  · intro h
    split_ifs at h with hlt
    rw [some.injEq] at h
    rw [← h, UInt64.toNat_mul, mod_eq_of_lt hlt]
  · intro h
    have hlt : a.toNat * b.toNat < 2 ^ 64 := by omega
    rw [if_pos hlt, some.injEq, ← UInt64.toNat_inj, UInt64.toNat_mul, mod_eq_of_lt hlt, h]

/-- A checked computation of the number `n`: its value when 64 bits hold it, else nothing. -/
def Exact (o : Option UInt64) (n : ℕ) : Prop := ∀ x, o = some x ↔ x.toNat = n

lemma exact_checkedAdd (a b : UInt64) : Exact (checkedAdd a b) (a.toNat + b.toNat) :=
  fun _ => checkedAdd_eq_some

lemma exact_checkedMul (a b : UInt64) : Exact (checkedMul a b) (a.toNat * b.toNat) :=
  fun _ => checkedMul_eq_some

variable {o : Option UInt64}

lemma Exact.exists_eq {n : ℕ} (h : Exact o n) {y : UInt64}
    (hle : n ≤ y.toNat) : ∃ x, o = some x ∧ x.toNat = n := by
  have hn : (UInt64.ofNat n).toNat = n := UInt64.toNat_ofNat_of_lt' (hle.trans_lt y.toNat_lt)
  exact ⟨_, (h _).mpr hn, hn⟩

lemma Exact.bind {f : UInt64 → Option UInt64} {n m : ℕ} (ho : Exact o n)
    (hf : ∀ x, x.toNat = n → Exact (f x) m) (hle : n ≤ m) : Exact (o >>= f) m := by
  intro y
  rw [bind_eq_bind, bind_eq_some_iff]
  constructor
  · rintro ⟨x, hx, hy⟩
    exact (hf x ((ho x).mp hx) y).mp hy
  · intro hy
    obtain ⟨x, hx, hn⟩ := ho.exists_eq (y := y) (by omega)
    exact ⟨x, hx, (hf x hn y).mpr hy⟩

/-! # Tables of the state store

One row type per table, with the CHECK constraints, unique keys and update triggers of the
newest schema version.  Triggers that read another table stand with the statements that
arm them.
-/

/-! ## JSON values and the text codec

The value type and the accessors the store uses.  Parsing, printing and SHA-256 belong to
third-party crates, so the store is modelled over an arbitrary codec.
-/

section

/-- A JSON value; objects list their members in key order. -/
inductive Json where
  | null
  | bool (b : Bool)
  | posInt (n : UInt64)
  | negInt (n : Int64)
  | float (bits : UInt64)
  | string (s : String)
  | array (items : List Json)
  | object (members : List (String × Json))

namespace Json

def isObject : Json → Bool
  | .object _ => true
  | _ => false

def get? (v : Json) (key : String) : Option Json :=
  match v with
  | .object members => (members.find? fun m => decide (m.1 = key)).map Prod.snd
  | _ => none

/-- Indexing reads a missing member as `null`. -/
def index (v : Json) (key : String) : Json := (v.get? key).getD .null

def asU64 : Json → Option UInt64
  | .posInt n => some n
  | _ => none

def insertMember (key : String) (value : Json) : List (String × Json) → List (String × Json)
  | [] => [(key, value)]
  | (k, v) :: rest =>
    if k = key then (key, value) :: rest
    else if key < k then (key, value) :: (k, v) :: rest
    else (k, v) :: insertMember key value rest

lemma insertMember_between {key k₁ k₂ : String} (value v₁ v₂ : Json) (rest : List (String × Json))
    (h₁ : k₁ ≠ key ∧ ¬key < k₁) (h₂ : k₂ ≠ key ∧ key < k₂) :
    insertMember key value ((k₁, v₁) :: (k₂, v₂) :: rest) =
      (k₁, v₁) :: (key, value) :: (k₂, v₂) :: rest := by
  rw [insertMember, if_neg h₁.1, if_neg h₁.2, insertMember, if_neg h₂.1, if_pos h₂.2]

def removeMember (key : String) (members : List (String × Json)) : List (String × Json) :=
  members.filter fun m => m.1 ≠ key

end Json

structure Codec where
  sha256 : Bytes → Bytes
  fromStr : String → Option Json
  toText : Json → String

namespace Codec

def digest (c : Codec) (data : Bytes) : String := "sha256:" ++ hexEncode (c.sha256 data)

lemma digest_eq_iff (c : Codec) (a b : Bytes) :
    c.digest a = c.digest b ↔ c.sha256 a = c.sha256 b := by
  simp only [digest, String.append_right_inj, hexEncode_injective.eq_iff]

/-- At most `limit` bytes of text that parse as a JSON object. -/
def boundedObject (c : Codec) (text : String) (limit : ℕ) : Bool :=
  text.utf8ByteSize ≤ limit && (c.fromStr text).any Json.isObject

/-- A codec restricted to the empty object, which it reads, prints and hashes as the real
ones do. -/
def emptyObject : Codec where
  sha256 data :=
    if data = asBytes "\x7b\x7d" then
      [0x44, 0x13, 0x6f, 0xa3, 0x55, 0xb3, 0x67, 0x8a, 0x11, 0x46, 0xad, 0x16, 0xf7, 0xe8, 0x64, 0x9e,
        0x94, 0xfb, 0x4f, 0xc2, 0x1f, 0xe7, 0x7e, 0x83, 0x10, 0xc0, 0x60, 0xf6, 0x1c, 0xaa, 0xff, 0x8a]
    else []
  fromStr text := if text = "\x7b\x7d" then some (.object []) else none
  toText _ := "\x7b\x7d"

end Codec

end

open Relational

/-! ## Execution jobs -/

inductive JobState where
  | accepted | preparing | running
  | completed | commandFailed | infrastructureFailed | interrupted | cancelled | timedOut | unknown
  deriving DecidableEq

def JobState.terminal : JobState → Bool
  | .accepted | .preparing | .running => false
  | _ => true

/-- The `state` column: a job state, or the tombstone that evidence deletion leaves. -/
inductive StoredState where
  | live (s : JobState)
  | deleted
  deriving DecidableEq

/-- Published and not yet deleted: the states outside accepted, preparing, running, deleted. -/
def StoredState.settled : StoredState → Bool
  | .live s => s.terminal
  | .deleted => false

inductive CollectionState where
  | pending | complete | truncated | failed
  deriving DecidableEq

structure JobRow where
  id : Uuid
  submissionKey : String
  specDigest : String
  specification : Option String
  state : StoredState
  createdAt : ℤ
  deadline : ℤ
  retentionUntil : ℤ
  vmId : Option Uuid
  vmName : Option String
  sessionId : Uuid
  captureCursor : ℕ
  retainedBytes : ℕ
  outputTruncated : Bool
  collection : CollectionState
  manifest : Option String
  cleanupPending : Bool
  vmDestroyed : Bool
  vmAllocationAborted : Bool

inductive JobColumn where
  | id | submissionKey | specDigest | specification | state | deadline | vmId | vmName
  | sessionId | captureCursor | retainedBytes | outputTruncated | collection | manifest
  | cleanupPending | vmDestroyed | vmAllocationAborted
  deriving DecidableEq

def JobRow.check (r : JobRow) : Bool :=
  r.specification.all (·.utf8ByteSize ≤ 65536) &&
  r.captureCursor ≤ 4096 &&
  r.retainedBytes ≤ 4194304 &&
  r.manifest.all (·.utf8ByteSize ≤ 65536) &&
  (!r.vmAllocationAborted ||
    (!r.vmDestroyed && r.vmId.isSome &&
      r.state ∉ [.live .accepted, .live .running, .live .completed, .live .commandFailed]))

/-- `id`, `submission_key`, `vm_id` and `session_id` are unique; a VM name is unique among
the jobs whose cleanup is pending. -/
def JobRow.clash (a b : JobRow) : Bool :=
  a.id = b.id || a.submissionKey = b.submissionKey ||
  (a.vmId.isSome && a.vmId = b.vmId) || a.sessionId = b.sessionId ||
  (a.cleanupPending && b.cleanupPending && a.vmName.isSome && a.vmName = b.vmName)

lemma JobRow.clash_symm (a b : JobRow) (h : a.clash b = true) : b.clash a = true := by
  simp only [clash, Bool.or_eq_true, Bool.and_eq_true, decide_eq_true_eq] at h ⊢
  rcases h with (((h | h) | ⟨hs, h⟩) | h) | ⟨⟨⟨ha, hb⟩, hs⟩, h⟩
  · simp [h]
  · simp [h]
  · simp [← h, hs]
  · simp [h]
  · simp [← h, ha, hb, hs]

def jobTriggers : List (Trigger JobRow JobColumn) := [
  -- execution_job_identity_is_immutable
  ⟨[.id, .submissionKey, .specDigest, .deadline, .sessionId], fun _ _ => true⟩,
  -- execution_job_vm_generation_is_immutable
  ⟨[.vmId, .vmName], fun old new =>
    old.vmId.isSome && (new.vmId ≠ old.vmId || new.vmName ≠ old.vmName)⟩,
  -- execution_job_spec_is_immutable
  ⟨[.specification], fun old new =>
    new.specification ≠ old.specification && !(new.specification.isNone && new.state = .deleted)⟩,
  -- execution_job_vm_name_is_immutable
  ⟨[.vmName], fun old new => old.vmName.isSome && new.vmName ≠ old.vmName⟩,
  -- execution_job_vm_destruction_is_monotonic
  ⟨[.vmDestroyed], fun old new => old.vmDestroyed && !new.vmDestroyed⟩,
  -- execution_job_allocation_abort_is_monotonic
  ⟨[.vmAllocationAborted], fun old new => old.vmAllocationAborted && !new.vmAllocationAborted⟩]

def jobSchema : Schema JobRow JobColumn :=
  ⟨JobRow.check, JobRow.clash, JobRow.clash_symm, jobTriggers⟩

structure EventRow where
  jobId : Uuid
  sequence : ℕ
  stream : String
  digest : String
  data : Option Bytes

def eventSchema : Schema EventRow Unit where
  check r := 1 ≤ r.sequence && r.sequence ≤ 4096 && (r.stream = "stdout" || r.stream = "stderr") &&
    r.data.all (·.length ≤ 8192)
  clash a b := a.jobId = b.jobId && a.sequence = b.sequence
  clash_symm a b h := by
    simp only [Bool.and_eq_true, decide_eq_true_eq] at h ⊢
    exact ⟨h.1.symm, h.2.symm⟩
  triggers := []

structure ArtifactRow where
  jobId : Uuid
  artifactIndex : ℕ
  path : String
  digest : String
  data : Bytes

def artifactSchema : Schema ArtifactRow Unit where
  check r := r.artifactIndex ≤ 15 && 1 ≤ r.path.utf8ByteSize && r.path.utf8ByteSize ≤ 255 &&
    r.data.length ≤ 4194304
  clash a b := a.jobId = b.jobId && (a.artifactIndex = b.artifactIndex || a.path = b.path)
  clash_symm a b h := by
    simp only [Bool.and_eq_true, Bool.or_eq_true, decide_eq_true_eq] at h ⊢
    exact ⟨h.1.symm, h.2.imp Eq.symm Eq.symm⟩
  triggers := []

/-! ## Creation leases and their boot evidence -/

structure LeaseRow where
  id : Uuid
  vmName : String
  vsockCid : ℕ
  tapDevice : Option String
  guestIp : Option String
  createdAt : DateTime
  vmId : Option Uuid
  backendEntered : Bool
  vmDestroyed : Bool
  allocationAborted : Bool
  deriving DecidableEq

inductive LeaseColumn where
  | vmId | backendEntered | vmDestroyed | allocationAborted | vmName | vsockCid | tapDevice | guestIp
  deriving DecidableEq

def LeaseRow.sameResources (old new : LeaseRow) : Bool :=
  new.vmName = old.vmName && new.vsockCid = old.vsockCid && new.tapDevice = old.tapDevice &&
    new.guestIp = old.guestIp

def leaseTriggers : List (Trigger LeaseRow LeaseColumn) := [
  -- creation_lease_identity_is_immutable
  ⟨[.vmId, .backendEntered, .vmDestroyed, .vmName, .vsockCid, .tapDevice, .guestIp],
    fun old new =>
      (old.backendEntered &&
        (new.vmId ≠ old.vmId || !new.backendEntered || !old.sameResources new)) ||
      (old.vmDestroyed && !new.vmDestroyed) ||
      (new.vmDestroyed && (!new.backendEntered || new.vmId.isNone))⟩,
  -- creation_lease_planned_identity_is_immutable
  ⟨[.vmId, .backendEntered, .allocationAborted, .vmName, .vsockCid, .tapDevice, .guestIp],
    fun old new =>
      (old.vmId.isSome && new.vmId ≠ old.vmId) ||
      (old.allocationAborted &&
        (!new.allocationAborted || new.backendEntered || !old.sameResources new)) ||
      (new.allocationAborted && (new.backendEntered || new.vmId.isNone))⟩]

def leaseSchema : Schema LeaseRow LeaseColumn where
  check _ := true
  clash a b := a.id = b.id || a.vmName = b.vmName || a.vsockCid = b.vsockCid
  clash_symm a b h := by
    simp only [Bool.or_eq_true, decide_eq_true_eq] at h ⊢
    exact h.imp (Or.imp Eq.symm Eq.symm) Eq.symm
  triggers := leaseTriggers

structure HostBoot where
  host : Uuid
  boot : Uuid
  deriving DecidableEq

structure EpochRow where
  leaseId : Uuid
  baseline : HostBoot
  confirmed : Bool

def epochSchema : Schema EpochRow Unit where
  check _ := true
  clash a b := a.leaseId = b.leaseId
  clash_symm a b h := by simpa [eq_comm] using h
  -- creation_lease_boot_epoch_is_immutable
  triggers := [⟨[()], fun old new =>
    new.leaseId ≠ old.leaseId || new.baseline ≠ old.baseline || (old.confirmed && !new.confirmed)⟩]

/-! ## VM records and what refers to them -/

inductive VmLifecycleState where
  | creating | running | paused | stopped | failed | suspending | suspended
  deriving DecidableEq

structure VmRow where
  id : Uuid
  name : String
  state : VmLifecycleState
  vsockCid : ℕ
  tapDevice : Option String
  guestIp : Option String
  volume : Option String
  deriving DecidableEq

def vmSchema : Schema VmRow Unit where
  check _ := true
  clash a b := a.id = b.id || a.name = b.name || (a.volume.isSome && a.volume = b.volume)
  clash_symm a b h := by
    simp only [Bool.or_eq_true, Bool.and_eq_true, decide_eq_true_eq] at h ⊢
    rcases h with (h | h) | ⟨hs, h⟩
    · simp [h]
    · simp [h]
    · simp [← h, hs]
  triggers := []

structure ExpirationRow where
  vmId : Uuid
  owner : Option String
  expiresAt : ℤ

def expirationSchema : Schema ExpirationRow Unit where
  check _ := true
  clash a b := a.vmId = b.vmId
  clash_symm a b h := by simpa [eq_comm] using h
  triggers := []

structure PoolRow where
  id : Uuid
  name : String
  templateVmId : Uuid

def poolSchema : Schema PoolRow Unit where
  check _ := true
  clash a b := a.id = b.id || a.name = b.name || a.templateVmId = b.templateVmId
  clash_symm a b h := by
    simp only [Bool.or_eq_true, decide_eq_true_eq] at h ⊢
    exact h.imp (Or.imp Eq.symm Eq.symm) Eq.symm
  triggers := []

structure VolumeRow where
  id : Uuid
  name : String

def volumeSchema : Schema VolumeRow Unit where
  check _ := true
  clash a b := a.id = b.id || a.name = b.name
  clash_symm a b h := by
    simp only [Bool.or_eq_true, decide_eq_true_eq] at h ⊢
    exact h.imp Eq.symm Eq.symm
  triggers := []

structure Db where
  jobs : Table jobSchema
  events : Table eventSchema
  artifacts : Table artifactSchema
  leases : Table leaseSchema
  epochs : Table epochSchema
  vms : Table vmSchema
  expirations : Table expirationSchema
  pools : Table poolSchema
  volumes : Table volumeSchema
  nextCid : ℕ
  freedCids : Finset ℕ

def Db.fresh : Db := ⟨∅, ∅, ∅, ∅, ∅, ∅, ∅, ∅, ∅, 3, ∅⟩

/-! ## Errors -/

inductive SqlError where
  | constraint | invalidQuery | outOfRange | storage
  deriving DecidableEq

inductive StateError where
  | database (e : SqlError)
  | vmNotFound (id : Uuid)
  | vmAlreadyExists (name : String)
  | poolAlreadyExists (name : String)
  | poolNotFound (id : Uuid)
  | poolTemplateUnavailable (pool : String) (template : Uuid)
  | poolTemplateOwned (template : Uuid) (pool : String)
  | poolTemplateMismatch (pool template : Uuid)
  | volumeNotFoundByName (name : String)
  | volumeAttached (volume vm : String)
  | volumeNotFound (id : Uuid)
  | volumeAlreadyExists (name : String)
  | poolNotFoundByName (name : String)
  | hostResourcesLeased (name : String)
  | hostResourceLeaseNotFound (id : Uuid)
  | hostResourceLeaseMismatch (id : Uuid)
  | vmExpirationMismatch (id : Uuid)
  | corruptData (column message : String)
  deriving DecidableEq

inductive JournalError where
  | state (e : StateError)
  | database (e : SqlError)
  | notFound (id : Uuid)
  | submissionNotFound
  | conflict (reason : String)
  | capacity (reason : String)
  | invalid (reason : String)
  deriving DecidableEq

end Husker.Store
