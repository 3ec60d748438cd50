import Husker.Relational.JsonValue

/-! # The canonical text of a specification

The daemon serialises a specification, sorts all keys and writes the value.  A client reads that
text and writes it again with sorted keys.
-/
namespace Husker.Job
open List Option

/-! ## Job specifications

The frozen inputs of a job, what is accepted, and its canonical text.
-/

section
open Relational Relational.Json

structure PreparedJobImage where
  catalogId : ℕ
  rootfsDigest : String
  kernelDigest : String
  initrdDigest : Option String

structure JobBundle where
  digest : String
  sizeBytes : UInt64

structure JobResources where
  vcpuCount : UInt32
  memSizeMib : UInt32
  diskSizeBytes : UInt64
  pidsLimit : UInt32

structure JobEgressRule where
  host : String
  port : UInt16
  protocol : String

inductive JobNetwork where
  | none
  | filtered (rules : List JobEgressRule)

structure JobCommand where
  argv : List String
  timeoutSecs : UInt64

structure JobArtifact where
  path : String
  maxBytes : UInt64

structure JobCorrelation where
  job : String
  stage : String
  round : UInt32

structure DateTime where
  timestamp : ℤ
  subsecNanos : ℕ

structure JobSpec where
  version : UInt32
  image : PreparedJobImage
  source : JobBundle
  acceptance : JobBundle
  commands : List JobCommand
  workingDirectory : String
  writableDirectories : List String
  environment : OrderedMap String
  uid : UInt32
  gid : UInt32
  resources : JobResources
  network : JobNetwork
  deadline : DateTime
  artifacts : List JobArtifact
  correlation : JobCorrelation

/-! ## Validation -/

def len (s : String) : ℕ := Json.size s.toList

def isControl (c : Char) : Bool := c.toNat < 0x20 || 0x7f ≤ c.toNat && c.toNat < 0xa0

def digestValid (value : String) : Bool :=
  "sha256:".toList.isPrefixOf value.toList &&
    (let hex := value.toList.drop 7
     hex.length = 64 && hex.all fun c => c.isDigit || ('a' ≤ c && c ≤ 'f'))

def excludedBundleComponent (part : String) : Bool :=
  part ∈ [".git", ".ssh", ".aws", ".azure", ".config", ".codex", ".claude", ".gnupg", ".kube", ".docker",
    ".netrc", ".npmrc", ".pypirc", ".gitconfig", ".git-credentials", "credentials.json", "auth.json",
    ".env"] || ".env.".toList.isPrefixOf part.toList

def safeRelative (path : String) : Bool :=
  path ≠ "" && len path ≤ 255 && '\\' ∉ path.toList && !path.toList.any isControl &&
    !((path.toList.splitOn '/').map String.ofList).any fun part =>
      part = "" || part = "." || part = ".." || excludedBundleComponent part

def printable (value : String) (max : ℕ) : Bool :=
  value ≠ "" && len value ≤ max && !value.toList.any isControl

def allowedKeys : List String :=
  ["PATH", "HOME", "LANG", "LC_ALL", "TZ", "TMPDIR", "RUSTUP_HOME", "CARGO_HOME", "CARGO_NET_OFFLINE",
    "RUSTFLAGS", "WERKT_ACCEPTANCE_DIR", "GIT_CONFIG_NOSYSTEM", "GIT_CONFIG_GLOBAL"]

def overlaps (a b : String) : Bool :=
  a = b || (b.toList ++ ['/']).isPrefixOf a.toList || (a.toList ++ ['/']).isPrefixOf b.toList

def hasNul (s : String) : Bool := Char.ofNat 0 ∈ s.toList

def badBundle (bundle : JobBundle) : Bool :=
  !digestValid bundle.digest || bundle.sizeBytes = 0 || bundle.sizeBytes.toNat > 32 * 1024 * 1024

def badCommand (command : JobCommand) : Bool :=
  command.argv = [] || command.argv.length > 128 || command.argv.head? = some "" ||
    command.argv.any (fun arg => len arg > 4096 || hasNul arg) ||
    command.timeoutSecs = 0 || command.timeoutSecs.toNat > 1200

def badNetwork : JobNetwork → Bool
  | .none => false
  | .filtered rules =>
    rules = [] || rules.length > 32 ||
      rules.any fun r => !printable r.host 253 || r.port = 0 || r.protocol ∉ ["tcp", "udp"]

namespace JobSpec

/-- The checks in the order of the source, each with its message; a check that holds rejects. -/
def checks (s : JobSpec) : List (Bool × String) :=
  [(s.version ≠ 1, "unsupported contract version"),
    (s.image.catalogId = 0 || !digestValid s.image.rootfsDigest || !digestValid s.image.kernelDigest ||
        s.image.initrdDigest.any (!digestValid ·),
      "immutable prepared image/kernel identities required"),
    ([s.source, s.acceptance].any badBundle, "bundle identity or size invalid"),
    (s.uid.toNat < 1000 || s.gid.toNat < 1000 || s.uid.toNat = 2 ^ 32 - 1 || s.gid.toNat = 2 ^ 32 - 1,
      "unprivileged numeric user and group required"),
    (!(1 ≤ s.resources.vcpuCount.toNat && s.resources.vcpuCount.toNat ≤ 32) ||
        !(128 ≤ s.resources.memSizeMib.toNat && s.resources.memSizeMib.toNat ≤ 65536) ||
        !(2 ^ 30 ≤ s.resources.diskSizeBytes.toNat && s.resources.diskSizeBytes.toNat ≤ 2 ^ 40) ||
        !(1 ≤ s.resources.pidsLimit.toNat && s.resources.pidsLimit.toNat ≤ 512),
      "explicit bounded CPU, memory, disk and process limits required"),
    (s.workingDirectory ≠ "/workspace" &&
        !("/workspace/".toList.isPrefixOf s.workingDirectory.toList &&
          safeRelative (String.ofList (s.workingDirectory.toList.drop 11))),
      "working directory must be inside /workspace"),
    (s.writableDirectories.length > 16, "at most 16 declared build/output directories"),
    (s.writableDirectories.any (!safeRelative ·) ||
        !decide (s.writableDirectories.Pairwise fun a b => overlaps a b = false),
      "build/output directories must be safe and nonoverlapping"),
    (s.commands = [] || s.commands.length > 32, "1–32 trusted command argv arrays required"),
    (s.commands.any badCommand, "argv or command timeout invalid (maximum 20 minutes)"),
    (s.environment.entries.any fun (key, value) => key ∉ allowedKeys || len value > 4096 || hasNul value,
      "environment is outside the non-secret check allowlist"),
    (badNetwork s.network, "filtered network requires 1–32 bounded explicit egress rules"),
    (s.deadline.timestamp < 0 || s.deadline.subsecNanos ≠ 0,
      "deadline must be a nonnegative whole UTC second"),
    (s.artifacts.length > 16, "at most 16 declared artifacts"),
    (s.artifacts.any (fun a => !safeRelative a.path || a.maxBytes = 0 ||
        a.maxBytes.toNat > 4 * 1024 * 1024) || !decide (s.artifacts.map JobArtifact.path).Nodup,
      "artifact must have a unique safe relative path and a bounded size"),
    ((s.artifacts.map fun a => a.maxBytes.toNat).sum > 16 * 1024 * 1024, "artifact budget exceeds 16 MiB"),
    (!printable s.correlation.job 128 || !printable s.correlation.stage 64,
      "bounded non-secret job/stage correlation required")]

def validate (s : JobSpec) : Except String Unit :=
  match s.checks.find? Prod.fst with
  | some (_, message) => .error message
  | none => .ok ()

lemma validate_eq_ok {s : JobSpec} : s.validate = .ok () ↔ ∀ check ∈ s.checks, check.1 = false := by
  unfold validate
  cases h : s.checks.find? Prod.fst with
  | some check =>
    refine ⟨nofun, fun hall => ?_⟩
    have hfails := find?_some h
    rw [hall check (mem_of_find?_eq_some h)] at hfails
    cases hfails
  | none => simpa using h

end JobSpec

end

open Relational Relational.Json
open Value

/-- What comes from other crates and from Python: identifiers, times, and texts as values. -/
structure Crates where
  formatUuid : ℕ → String
  parseUuid : String → Option ℕ
  formatTime : DateTime → String
  parseTime : String → Option DateTime
  fromStr : List Char → Option Value
  loads : List Char → Option Value

def year10000 : ℤ := 253402300800

/-! ## Serialisation, in the order of the fields -/

def strings (ss : List String) : Value := .arr (ss.map .str)

def PreparedJobImage.toValue (c : Crates) (i : PreparedJobImage) : Value :=
  .obj [("catalog_id", .str (c.formatUuid i.catalogId)), ("rootfs_digest", .str i.rootfsDigest),
    ("kernel_digest", .str i.kernelDigest), ("initrd_digest", i.initrdDigest.elim .null .str)]

def JobBundle.toValue (b : JobBundle) : Value :=
  .obj [("digest", .str b.digest), ("size_bytes", .num b.sizeBytes.toNat)]

def JobResources.toValue (r : JobResources) : Value :=
  .obj [("vcpu_count", .num r.vcpuCount.toNat), ("mem_size_mib", .num r.memSizeMib.toNat),
    ("disk_size_bytes", .num r.diskSizeBytes.toNat), ("pids_limit", .num r.pidsLimit.toNat)]

def JobEgressRule.toValue (r : JobEgressRule) : Value :=
  .obj [("host", .str r.host), ("port", .num r.port.toNat), ("protocol", .str r.protocol)]

def JobNetwork.toValue : JobNetwork → Value
  | .none => .obj [("mode", .str "none")]
  | .filtered rules =>
    .obj [("mode", .str "filtered"), ("rules", .arr (rules.map JobEgressRule.toValue))]

def JobCommand.toValue (k : JobCommand) : Value :=
  .obj [("argv", strings k.argv), ("timeout_secs", .num k.timeoutSecs.toNat)]

def JobArtifact.toValue (a : JobArtifact) : Value :=
  .obj [("path", .str a.path), ("max_bytes", .num a.maxBytes.toNat)]

def JobCorrelation.toValue (k : JobCorrelation) : Value :=
  .obj [("job", .str k.job), ("stage", .str k.stage), ("round", .num k.round.toNat)]

def JobSpec.toValue (c : Crates) (s : JobSpec) : Value :=
  .obj [("version", .num s.version.toNat), ("image", s.image.toValue c), ("source", s.source.toValue),
    ("acceptance", s.acceptance.toValue), ("commands", .arr (s.commands.map JobCommand.toValue)),
    ("working_directory", .str s.workingDirectory),
    ("writable_directories", strings s.writableDirectories),
    ("environment", s.environment.encode .str), ("uid", .num s.uid.toNat), ("gid", .num s.gid.toNat),
    ("resources", s.resources.toValue), ("network", s.network.toValue),
    ("deadline", .str (c.formatTime s.deadline)),
    ("artifacts", .arr (s.artifacts.map JobArtifact.toValue)), ("correlation", s.correlation.toValue)]

def maxSpecBytes : ℕ := 64 * 1024

def JobSpec.canonicalJson (c : Crates) (s : JobSpec) : Except String (List Char) := do
  s.validate
  let json := (s.toValue c).sortKeys.encode
  if Json.size json > maxSpecBytes then throw "specification exceeds 64 KiB"
  return json

/-! ## Deserialisation -/

def u16? : Value → Option UInt16 := number? (2 ^ 16) UInt16.ofNat

def u32? : Value → Option UInt32 := number? (2 ^ 32) UInt32.ofNat

def u64? : Value → Option UInt64 := number? (2 ^ 64) UInt64.ofNat

def parsed {α : Type} (parse : String → Option α) (v : Value) : Option α := (string? v).bind parse

def PreparedJobImage.ofValue (c : Crates) : Value → Option PreparedJobImage :=
  record ["catalog_id", "rootfs_digest", "kernel_digest", "initrd_digest"] fun look => do
    return {
      catalogId := ← field look "catalog_id" (parsed c.parseUuid)
      rootfsDigest := ← field look "rootfs_digest" string?
      kernelDigest := ← field look "kernel_digest" string?
      initrdDigest := ← fieldOr look "initrd_digest" none (optional string?) }

def JobBundle.ofValue : Value → Option JobBundle :=
  record ["digest", "size_bytes"] fun look => do
    return { digest := ← field look "digest" string?, sizeBytes := ← field look "size_bytes" u64? }

def JobResources.ofValue : Value → Option JobResources :=
  record ["vcpu_count", "mem_size_mib", "disk_size_bytes", "pids_limit"] fun look => do
    return {
      vcpuCount := ← field look "vcpu_count" u32?
      memSizeMib := ← field look "mem_size_mib" u32?
      diskSizeBytes := ← field look "disk_size_bytes" u64?
      pidsLimit := ← field look "pids_limit" u32? }

def JobEgressRule.ofValue : Value → Option JobEgressRule :=
  record ["host", "port", "protocol"] fun look => do
    return {
      host := ← field look "host" string?
      port := ← field look "port" u16?
      protocol := ← field look "protocol" string? }

def JobNetwork.ofValue : Value → Option JobNetwork :=
  record ["mode", "rules"] fun look => do
    match ← field look "mode" string? with
    | "none" => if (look "rules").isNone then some .none else none
    | "filtered" => return .filtered (← field look "rules" (list JobEgressRule.ofValue))
    | _ => none

def JobCommand.ofValue : Value → Option JobCommand :=
  record ["argv", "timeout_secs"] fun look => do
    return { argv := ← field look "argv" (list string?), timeoutSecs := ← field look "timeout_secs" u64? }

def JobArtifact.ofValue : Value → Option JobArtifact :=
  record ["path", "max_bytes"] fun look => do
    return { path := ← field look "path" string?, maxBytes := ← field look "max_bytes" u64? }

def JobCorrelation.ofValue : Value → Option JobCorrelation :=
  record ["job", "stage", "round"] fun look => do
    return {
      job := ← field look "job" string?
      stage := ← field look "stage" string?
      round := ← field look "round" u32? }

def JobSpec.ofValue (c : Crates) : Value → Option JobSpec :=
  record ["version", "image", "source", "acceptance", "commands", "working_directory",
      "writable_directories", "environment", "uid", "gid", "resources", "network", "deadline", "artifacts",
      "correlation"] fun look => do
    return {
      version := ← field look "version" u32?
      image := ← field look "image" (PreparedJobImage.ofValue c)
      source := ← field look "source" JobBundle.ofValue
      acceptance := ← field look "acceptance" JobBundle.ofValue
      commands := ← field look "commands" (list JobCommand.ofValue)
      workingDirectory := ← field look "working_directory" string?
      writableDirectories := ← fieldOr look "writable_directories" [] (list string?)
      environment := ← field look "environment" (OrderedMap.decode string?)
      uid := ← field look "uid" u32?
      gid := ← field look "gid" u32?
      resources := ← field look "resources" JobResources.ofValue
      network := ← field look "network" JobNetwork.ofValue
      deadline := ← field look "deadline" (parsed c.parseTime)
      artifacts := ← field look "artifacts" (list JobArtifact.ofValue)
      correlation := ← field look "correlation" JobCorrelation.ofValue }

def JobSpec.fromStr (c : Crates) (text : List Char) : Option JobSpec :=
  (c.fromStr text).bind (JobSpec.ofValue c)

/-! ## The client -/

mutual

/-- `json.dumps(value, ensure_ascii=False, sort_keys=True, separators=(",", ":"))` -/
def dumps : Value → List Char
  | .null => "null".toList
  | .bool b => Json.bool b
  | .num n => Json.int n
  | .str s => Json.string s
  | .arr items => '[' :: [','].intercalate (dumpsItems items) ++ [']']
  | .obj members => Json.object (Value.byKey (dumpsMembers members))

def dumpsItems : List Value → List (List Char)
  | [] => []
  | v :: vs => dumps v :: dumpsItems vs

def dumpsMembers : List (String × Value) → List (String × List Char)
  | [] => []
  | (k, v) :: ms => (k, dumps v) :: dumpsMembers ms

end

/-- `_canonical` of what `json.loads` gives. -/
def canonicalAgain (c : Crates) (text : List Char) : Option (List Char) := (c.loads text).map dumps

/-- What is assumed of them: an identifier, a whole second before the year 10000 and the compact
text of a value are read back as they were written. -/
structure Crates.ReadsBack (c : Crates) (s : JobSpec) : Prop where
  uuid : c.parseUuid (c.formatUuid s.image.catalogId) = some s.image.catalogId
  time : 0 ≤ s.deadline.timestamp → s.deadline.timestamp < year10000 → s.deadline.subsecNanos = 0 →
    c.parseTime (c.formatTime s.deadline) = some s.deadline
  fromStr : c.fromStr (s.toValue c).sortKeys.encode = some (s.toValue c).sortKeys
  loads : c.loads (s.toValue c).sortKeys.encode = some (s.toValue c).sortKeys

/-! ## The order of members does not matter -/

lemma u16?_respects : Respects u16? := number?_respects _ _

lemma u32?_respects : Respects u32? := number?_respects _ _

lemma u64?_respects : Respects u64? := number?_respects _ _

variable {α : Type}

lemma parsed_respects (parse : String → Option α) : Respects (parsed parse) :=
  respects_of_atoms (fun _ => rfl) fun _ => rfl

lemma PreparedJobImage.ofValue_respects (c : Crates) : Respects (PreparedJobImage.ofValue c) := by
  apply record_respects
  intro look look' h
  simp only [field_alike h (parsed_respects c.parseUuid), field_alike h string?_respects,
    fieldOr_alike h (optional_respects string?_respects)]

lemma JobBundle.ofValue_respects : Respects JobBundle.ofValue := by
  apply record_respects
  intro look look' h
  simp only [field_alike h string?_respects, field_alike h u64?_respects]

lemma JobResources.ofValue_respects : Respects JobResources.ofValue := by
  apply record_respects
  intro look look' h
  simp only [field_alike h u32?_respects, field_alike h u64?_respects]

lemma JobEgressRule.ofValue_respects : Respects JobEgressRule.ofValue := by
  apply record_respects
  intro look look' h
  simp only [field_alike h string?_respects, field_alike h u16?_respects]

lemma JobNetwork.ofValue_respects : Respects JobNetwork.ofValue := by
  apply record_respects
  intro look other h
  have hrules : (look "rules").isNone = (other "rules").isNone := by
    rcases h "rules" with heq | ⟨v, v', hv, hv', -⟩
    · rw [heq]
    · rw [hv, hv']
      rfl
  simp only [field_alike h string?_respects, hrules,
    field_alike h (list_respects JobEgressRule.ofValue_respects)]

lemma JobCommand.ofValue_respects : Respects JobCommand.ofValue := by
  apply record_respects
  intro look look' h
  simp only [field_alike h (list_respects string?_respects), field_alike h u64?_respects]

lemma JobArtifact.ofValue_respects : Respects JobArtifact.ofValue := by
  apply record_respects
  intro look look' h
  simp only [field_alike h string?_respects, field_alike h u64?_respects]

lemma JobCorrelation.ofValue_respects : Respects JobCorrelation.ofValue := by
  apply record_respects
  intro look look' h
  simp only [field_alike h string?_respects, field_alike h u32?_respects]

open JobSpec

lemma JobSpec.ofValue_respects (c : Crates) : Respects (ofValue c) := by
  apply record_respects
  intro look look' h
  simp only [field_alike h u32?_respects, field_alike h (PreparedJobImage.ofValue_respects c),
    field_alike h JobBundle.ofValue_respects,
    field_alike h (list_respects JobCommand.ofValue_respects), field_alike h string?_respects,
    fieldOr_alike h (list_respects string?_respects),
    field_alike h (OrderedMap.decode_respects string?_respects),
    field_alike h JobResources.ofValue_respects, field_alike h JobNetwork.ofValue_respects,
    field_alike h (parsed_respects c.parseTime),
    field_alike h (list_respects JobArtifact.ofValue_respects),
    field_alike h JobCorrelation.ofValue_respects]

/-! ## What was written is read -/

@[simp] lemma string?_str (s : String) : string? (.str s) = some s := rfl

@[simp] lemma u16?_toNat (n : UInt16) : u16? (.num n.toNat) = some n := by
  have hlt := n.toNat_lt
  simp [u16?, number?]
  omega

@[simp] lemma u32?_toNat (n : UInt32) : u32? (.num n.toNat) = some n := by
  have hlt := n.toNat_lt
  simp [u32?, number?]
  omega

@[simp] lemma u64?_toNat (n : UInt64) : u64? (.num n.toNat) = some n := by
  have hlt := n.toNat_lt
  simp [u64?, number?]
  omega

lemma list_map {d : Value → Option α} {e : α → Value} (h : ∀ a, d (e a) = some a)
    (as : List α) : list d (.arr (as.map e)) = some as := by
  rw [list]
  induction as with
  | nil => rfl
  | cons a as ih => simp [ih, h]

@[simp] lemma list_strings (ss : List String) : list string? (strings ss) = some ss :=
  list_map string?_str ss

@[simp] lemma JobBundle.ofValue_toValue (b : JobBundle) : JobBundle.ofValue b.toValue = some b := by
  simp [JobBundle.ofValue, JobBundle.toValue, record]

@[simp] lemma JobResources.ofValue_toValue (r : JobResources) :
    JobResources.ofValue r.toValue = some r := by
  simp [JobResources.ofValue, JobResources.toValue, record]

@[simp] lemma JobEgressRule.ofValue_toValue (r : JobEgressRule) :
    JobEgressRule.ofValue r.toValue = some r := by
  simp [JobEgressRule.ofValue, JobEgressRule.toValue, record]

@[simp] lemma JobCommand.ofValue_toValue (k : JobCommand) : JobCommand.ofValue k.toValue = some k := by
  simp [JobCommand.ofValue, JobCommand.toValue, record]

@[simp] lemma JobArtifact.ofValue_toValue (a : JobArtifact) : JobArtifact.ofValue a.toValue = some a := by
  simp [JobArtifact.ofValue, JobArtifact.toValue, record]

@[simp] lemma JobCorrelation.ofValue_toValue (k : JobCorrelation) :
    JobCorrelation.ofValue k.toValue = some k := by
  simp [JobCorrelation.ofValue, JobCorrelation.toValue, record]

@[simp] lemma JobNetwork.ofValue_toValue (n : JobNetwork) : JobNetwork.ofValue n.toValue = some n := by
  cases n with
  | none => simp [JobNetwork.ofValue, JobNetwork.toValue, record]
  | filtered rules =>
    simp [JobNetwork.ofValue, JobNetwork.toValue, record, list_map JobEgressRule.ofValue_toValue]

lemma PreparedJobImage.ofValue_toValue {c : Crates} {i : PreparedJobImage}
    (hid : c.parseUuid (c.formatUuid i.catalogId) = some i.catalogId) :
    PreparedJobImage.ofValue c (i.toValue c) = some i := by
  obtain ⟨id, rootfs, kernel, initrd⟩ := i
  cases initrd <;>
    simp [PreparedJobImage.ofValue, PreparedJobImage.toValue, record, parsed, Value.optional, hid]

lemma JobSpec.ofValue_toValue {c : Crates} {s : JobSpec}
    (hid : c.parseUuid (c.formatUuid s.image.catalogId) = some s.image.catalogId)
    (htime : c.parseTime (c.formatTime s.deadline) = some s.deadline) :
    ofValue c (s.toValue c) = some s := by
  have himage := PreparedJobImage.ofValue_toValue hid
  have henv : OrderedMap.decode string? (s.environment.encode .str) = some s.environment :=
    OrderedMap.decode_encode string?_str _
  simp [ofValue, toValue, record, parsed, himage, henv, htime,
    list_map JobCommand.ofValue_toValue, list_map JobArtifact.ofValue_toValue]

/-! ## The client writes the same text -/

lemma encodeMembers_eq_map (ms : List (String × Value)) :
    Value.encodeMembers ms = ms.map fun m => (m.1, m.2.encode) := by
  induction ms with
  | nil => rfl
  | cons m ms ih => rw [Value.encodeMembers, ih, map_cons]

lemma byKey_encodeMembers (ms : List (String × Value)) :
    Value.byKey (Value.encodeMembers ms) = Value.encodeMembers (Value.byKey ms) := by
  rw [encodeMembers_eq_map, encodeMembers_eq_map]
  exact (map_insertionSort (fun a b : String × Value => a.1 ≤ b.1)
    (fun a b : String × List Char => a.1 ≤ b.1) (fun m => (m.1, m.2.encode)) ms
    fun _ _ _ _ => Iff.rfl).symm

mutual

lemma dumps_eq : ∀ v : Value, dumps v = v.sortKeys.encode
  | .obj members => by
    rw [dumps, dumpsMembers_eq members, byKey_encodeMembers, Value.sortKeys, Value.encode]
  | .arr items => by rw [dumps, dumpsItems_eq items, Value.sortKeys, Value.encode]
  | .null => rfl
  | .bool _ => rfl
  | .num _ => rfl
  | .str _ => rfl

lemma dumpsItems_eq : ∀ vs : List Value, dumpsItems vs = Value.encodeItems (Value.sortItems vs)
  | [] => rfl
  | v :: vs => by rw [dumpsItems, dumps_eq v, dumpsItems_eq vs, Value.sortItems, Value.encodeItems]

lemma dumpsMembers_eq :
    ∀ ms : List (String × Value), dumpsMembers ms = Value.encodeMembers (Value.sortMembers ms)
  | [] => rfl
  | (k, v) :: ms => by
    rw [dumpsMembers, dumps_eq v, dumpsMembers_eq ms, Value.sortMembers, Value.encodeMembers]

end

/-! ## Distinct keys -/

lemma distinctItems_map {e : α → Value} (h : ∀ a, (e a).Distinct) (as : List α) :
    Value.DistinctItems (as.map e) := by
  induction as with
  | nil => trivial
  | cons a as ih => exact ⟨h a, ih⟩

lemma strings_distinct (ss : List String) : (strings ss).Distinct :=
  distinctItems_map (e := Value.str) (fun _ => trivial) ss

lemma environment_distinct (m : OrderedMap String) : (m.encode .str).Distinct := by
  have hmembers : ∀ es : List (String × String),
      Value.DistinctMembers (es.map fun p => (p.1, Value.str p.2)) := by
    intro es
    induction es with
    | nil => trivial
    | cons p es ih => exact ⟨trivial, ih⟩
  refine ⟨?_, hmembers _⟩
  rw [List.map_map]
  exact m.nodup

lemma JobEgressRule.toValue_distinct (r : JobEgressRule) : r.toValue.Distinct :=
  ⟨by simp, trivial, trivial, trivial, trivial⟩

lemma JobNetwork.toValue_distinct (n : JobNetwork) : n.toValue.Distinct := by
  cases n with
  | none => exact ⟨by simp, trivial, trivial⟩
  | filtered rules =>
    exact ⟨by simp, trivial, distinctItems_map JobEgressRule.toValue_distinct rules, trivial⟩

lemma JobSpec.toValue_distinct (c : Crates) (s : JobSpec) : (s.toValue c).Distinct := by
  have himage : (s.image.toValue c).Distinct := by
    refine ⟨by simp, trivial, trivial, trivial, ?_, trivial⟩
    cases s.image.initrdDigest <;> trivial
  have hbundle : ∀ b : JobBundle, b.toValue.Distinct := fun b => ⟨by simp, trivial, trivial, trivial⟩
  have hcommand : ∀ k : JobCommand, k.toValue.Distinct :=
    fun k => ⟨by simp, strings_distinct k.argv, trivial, trivial⟩
  have hartifact : ∀ a : JobArtifact, a.toValue.Distinct := fun a => ⟨by simp, trivial, trivial, trivial⟩
  exact ⟨by simp, trivial, himage, hbundle _, hbundle _, distinctItems_map hcommand _, trivial,
    strings_distinct _, environment_distinct _, trivial, trivial,
    ⟨by simp, trivial, trivial, trivial, trivial, trivial⟩, s.network.toValue_distinct, trivial,
    distinctItems_map hartifact _, ⟨by simp, trivial, trivial, trivial, trivial⟩, trivial⟩

/-! ## Canonical texts -/

section
variable {c : Crates} {s t : JobSpec} {text : List Char}

lemma canonicalJson_eq_ok (h : s.canonicalJson c = .ok text) :
    s.validate = .ok () ∧ text = (s.toValue c).sortKeys.encode := by
  unfold canonicalJson at h
  cases hvalid : s.validate with
  | error e => simp [hvalid, bind, Except.bind] at h
  | ok _ =>
    simp only [hvalid, bind, Except.bind] at h
    split at h <;> cases h
    · exact ⟨rfl, rfl⟩

lemma deadline_of_validate (h : s.validate = .ok ()) :
    0 ≤ s.deadline.timestamp ∧ s.deadline.subsecNanos = 0 := by
  have hcheck := validate_eq_ok.mp h (s.deadline.timestamp < 0 || s.deadline.subsecNanos ≠ 0,
    "deadline must be a nonnegative whole UTC second") (by simp [checks])
  simpa using hcheck

lemma ofValue_same (hc : c.ReadsBack s) (hvalid : s.validate = .ok ())
    (hyear : s.deadline.timestamp < year10000) {v : Value} (h : Value.Same (s.toValue c) v) :
    ofValue c v = some s := by
  obtain ⟨htimestamp, hnanos⟩ := deadline_of_validate hvalid
  rw [← ofValue_respects c _ _ h]
  exact ofValue_toValue hc.uuid (hc.time htimestamp hyear hnanos)

lemma fromStr_canonical (hc : c.ReadsBack s) (h : s.canonicalJson c = .ok text)
    (hyear : s.deadline.timestamp < year10000) : fromStr c text = some s := by
  obtain ⟨hvalid, rfl⟩ := canonicalJson_eq_ok h
  rw [fromStr, hc.fromStr, bind_some]
  exact ofValue_same hc hvalid hyear (same_sortKeys _ (s.toValue_distinct c))

/-- The canonical text determines the specification and is read back as it, from any order of
members; its keys increase, and the client's text is the same. -/
theorem canonical_text_determines {text' : List Char} (hc : c.ReadsBack s) (hc' : c.ReadsBack t)
    (hs : s.canonicalJson c = .ok text) (ht : t.canonicalJson c = .ok text')
    (hsyear : s.deadline.timestamp < year10000) (htyear : t.deadline.timestamp < year10000) :
    (text = text' ↔ s = t) ∧ JobSpec.fromStr c text = some s ∧
      (∀ other v, c.fromStr other = some v → Value.Same (s.toValue c) v →
        ∃ s', JobSpec.fromStr c other = some s' ∧ s'.canonicalJson c = .ok text) ∧
      (∃ v, text = v.encode ∧ v.Ordered ∧ c.fromStr text = some v) ∧
      canonicalAgain c text = some text := by
  have hread := fromStr_canonical hc hs hsyear
  refine ⟨⟨?_, ?_⟩, hread, ?_, ?_, ?_⟩
  · rintro rfl
    exact some.inj (hread.symm.trans (fromStr_canonical hc' ht htyear))
  · rintro rfl
    exact Except.ok.inj (hs.symm.trans ht)
  · intro other v hother hsame
    refine ⟨s, ?_, hs⟩
    rw [fromStr, hother, bind_some]
    exact ofValue_same hc (canonicalJson_eq_ok hs).1 hsyear hsame
  all_goals
    obtain ⟨-, rfl⟩ := canonicalJson_eq_ok hs
    have hordered := Value.sortKeys_ordered _ (s.toValue_distinct c)
  · exact ⟨_, rfl, hordered, hc.fromStr⟩
  · rw [canonicalAgain, hc.loads, map_some, dumps_eq, Value.sortKeys_eq_self _ hordered]

end

/-! ## Samples -/

def sampleDigest : String := "sha256:" ++ String.ofList (List.replicate 64 'a')

def sampleSpec : JobSpec where
  version := 1
  image := ⟨7, sampleDigest, sampleDigest, none⟩
  source := ⟨sampleDigest, 10⟩
  acceptance := ⟨sampleDigest, 20⟩
  commands := [⟨["cargo", "t\"q\\ é\n"], 60⟩]
  workingDirectory := "/workspace/app"
  writableDirectories := ["build"]
  environment := OrderedMap.ofList [("PATH", "/p"), ("HOME", "/h")]
  uid := 1000
  gid := 1001
  resources := ⟨2, 512, 2147483648, 64⟩
  network := .filtered [⟨"example.test", 443, "tcp"⟩]
  deadline := ⟨1800000000, 0⟩
  artifacts := [⟨"out/r.txt", 5⟩]
  correlation := ⟨"job-1", "check", 3⟩

def sampleFormats : Crates where
  formatUuid := fun _ => "00000000-0000-0000-0000-000000000007"
  parseUuid := fun _ => some 7
  formatTime := fun _ => "2027-01-15T08:00:00Z"
  parseTime := fun _ => some ⟨1800000000, 0⟩
  fromStr := fun _ => none
  loads := fun _ => none

def sampleValue : Value := (sampleSpec.toValue sampleFormats).sortKeys

def sampleRead (text : List Char) : Option Value :=
  if text = sampleValue.encode then some sampleValue else none

def sampleCrates : Crates := { sampleFormats with fromStr := sampleRead, loads := sampleRead }

lemma sampleCrates_readsBack : sampleCrates.ReadsBack sampleSpec := by
  have hvalue : sampleSpec.toValue sampleCrates = sampleSpec.toValue sampleFormats := rfl
  have hread : sampleRead sampleValue.encode = some sampleValue := if_pos rfl
  have hfromStr : sampleCrates.fromStr = sampleRead := rfl
  have hloads : sampleCrates.loads = sampleRead := rfl
  rw [sampleValue] at hread
  refine ⟨rfl, fun _ _ _ => rfl, ?_, ?_⟩
  · rw [hfromStr, hvalue, hread]
  · rw [hloads, hvalue, hread]

/-- The daemon reads its text back, and the client's is the same. -/
theorem sample_text_agrees : JobSpec.fromStr sampleCrates sampleValue.encode = some sampleSpec ∧
      canonicalAgain sampleCrates sampleValue.encode = some sampleValue.encode := by
  have htext : sampleSpec.canonicalJson sampleCrates = .ok sampleValue.encode := by decide +kernel
  obtain ⟨-, hback, -, -, hagain⟩ := canonical_text_determines sampleCrates_readsBack
    sampleCrates_readsBack htext htext (by decide) (by decide)
  exact ⟨hback, hagain⟩

end Husker.Job
