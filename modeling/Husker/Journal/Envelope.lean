import Husker.Journal.Record
import Husker.Relational.JsonValue

/-! # Failure envelopes

The worker and the collection report a host-side failure as a small JSON object.  Merged with a
receipt of the guest it is stored if it is small enough, and with the digest of the receipt if not;
either way what is stored can be read again.
-/
namespace Husker.Journal
open Relational Store List Option Table Json

/-! ## Values -/

/-- Whole numbers only, and at most so many arrays and objects inside each other. -/
inductive Within : ℕ → Json → Prop
  | null {n : ℕ} : Within n .null
  | bool {n : ℕ} (b : Bool) : Within n (.bool b)
  | posInt {n : ℕ} (i : UInt64) : Within n (.posInt i)
  | negInt {n : ℕ} (i : Int64) : Within n (.negInt i)
  | string {n : ℕ} (s : String) : Within n (.string s)
  | array {n : ℕ} {items : List Json} (h : ∀ v ∈ items, Within n v) : Within (n + 1) (.array items)
  | object {n : ℕ} {members : List (String × Json)} (h : ∀ m ∈ members, Within n m.2) :
      Within (n + 1) (.object members)

inductive Tidy : Json → Prop
  | null : Tidy .null
  | bool (b : Bool) : Tidy (.bool b)
  | posInt (i : UInt64) : Tidy (.posInt i)
  | negInt (i : Int64) : Tidy (.negInt i)
  | float (bits : UInt64) : Tidy (.float bits)
  | string (s : String) : Tidy (.string s)
  | array {items : List Json} (h : ∀ v ∈ items, Tidy v) : Tidy (.array items)
  | object {members : List (String × Json)} (hkeys : (members.map Prod.fst).Pairwise (· < ·))
      (h : ∀ m ∈ members, Tidy m.2) : Tidy (.object members)

lemma Within.mono {n k : ℕ} {v : Json} (h : Within n v) (hnk : n ≤ k) : Within k v := by
  induction h generalizing k with
  | null => exact .null
  | bool b => exact .bool b
  | posInt i => exact .posInt i
  | negInt i => exact .negInt i
  | string s => exact .string s
  | array h ih =>
    obtain ⟨k, rfl⟩ : ∃ j, k = j + 1 := ⟨k - 1, by omega⟩
    exact .array fun v hv => ih v hv (by omega)
  | object h ih =>
    obtain ⟨k, rfl⟩ : ∃ j, k = j + 1 := ⟨k - 1, by omega⟩
    exact .object fun m hm => ih m hm (by omega)

/-- As deep as `serde_json` reads. -/
def maxDepth : ℕ := 127

def size (c : Codec) (v : Json) : ℕ := (c.toText v).utf8ByteSize

/-- What the journal relies on in `serde_json` and SHA-256, for the values `known`. -/
structure Dependable (c : Codec) (known : Json → Prop) : Prop where
  reads : ∀ members, known (.object members) → Tidy (.object members) →
    Within maxDepth (.object members) → c.fromStr (c.toText (.object members)) = some (.object members)
  tidy : ∀ text v, c.fromStr text = some v → Tidy v
  /-- A character becomes at most `\u001f`. -/
  string : ∀ s, known (.string s) → size c (.string s) ≤ 6 * s.length + 2
  number : ∀ n, known (.posInt n) → size c (.posInt n) ≤ 20
  bool : ∀ b, known (.bool b) → size c (.bool b) ≤ 5
  object : ∀ members, known (.object members) → size c (.object members) ≤
    2 + (members.map fun m => size c (.string m.1) + size c m.2 + 2).sum
  digest : ∀ data, (c.sha256 data).length = 32

/-! ## Members -/

section
variable {key k : String} {value v : Json} {members : List (String × Json)} {m : String × Json}

lemma mem_insertMember (h : m ∈ insertMember key value members) :
    m = (key, value) ∨ m ∈ members := by
  induction members with
  | nil => exact .inl (mem_singleton.mp h)
  | cons first members ih =>
  obtain ⟨k, v⟩ := first
  rw [insertMember] at h
  split_ifs at h
  · exact (mem_cons.mp h).imp id (.tail _)
  · exact mem_cons.mp h
  · rcases mem_cons.mp h with rfl | h
    · exact .inr (.head _)
    · exact (ih h).imp id (.tail _)

lemma forall_insertMember {P : Json → Prop} (hvalue : P value) (h : ∀ m ∈ members, P m.2) :
    ∀ m ∈ insertMember key value members, P m.2 := by
  intro m hm
  rcases mem_insertMember hm with rfl | hm
  · exact hvalue
  · exact h m hm

lemma insertMember_mem : (key, value) ∈ insertMember key value members := by
  induction members with
  | nil => exact mem_singleton_self _
  | cons first members ih =>
  obtain ⟨k, v⟩ := first
  rw [insertMember]
  split_ifs
  · exact .head _
  · exact .head _
  · exact .tail _ ih

lemma insertMember_mem_of_mem (h : m ∈ members) (hne : m.1 ≠ key) :
    m ∈ insertMember key value members := by
  induction members with
  | nil => cases h
  | cons first members ih =>
  obtain ⟨k, v⟩ := first
  rw [insertMember]
  split_ifs with hk
  · rcases mem_cons.mp h with rfl | h
    · exact absurd hk hne
    · exact .tail _ h
  · exact .tail _ h
  · rcases mem_cons.mp h with rfl | h
    · exact .head _
    · exact .tail _ (ih h)

lemma get?_insertMember_self : (Json.object (insertMember key value members)).get? key = some value := by
  induction members with
  | nil => simp [insertMember, Json.get?]
  | cons first members ih =>
  obtain ⟨k, v⟩ := first
  rw [insertMember]
  split_ifs with hk
  · simp [Json.get?]
  · simp [Json.get?]
  · simpa [Json.get?, hk] using ih

lemma get?_insertMember_of_ne (hne : k ≠ key) :
    (Json.object (insertMember key value members)).get? k = (Json.object members).get? k := by
  induction members with
  | nil => simp [insertMember, Json.get?, hne.symm]
  | cons first members ih =>
  obtain ⟨k', v⟩ := first
  rw [insertMember]
  split_ifs with hk
  · subst hk
    simp [Json.get?, hne.symm]
  · simp [Json.get?, hne.symm]
  · by_cases hkk : k' = k
    · simp [Json.get?, hkk]
    · simpa [Json.get?, hkk] using ih

lemma insertMember_keys (h : (members.map Prod.fst).Pairwise (· < ·)) :
    ((insertMember key value members).map Prod.fst).Pairwise (· < ·) := by
  induction members with
  | nil => simp [insertMember]
  | cons first members ih =>
  obtain ⟨k, v⟩ := first
  rw [map_cons, pairwise_cons] at h
  rw [insertMember]
  split_ifs with hk hlt
  · subst hk
    rw [map_cons, pairwise_cons]
    exact h
  · rw [map_cons, pairwise_cons, map_cons, pairwise_cons]
    refine ⟨fun x hx => ?_, h⟩
    rcases mem_cons.mp hx with rfl | hx
    · exact hlt
    · exact hlt.trans (h.1 x hx)
  · rw [map_cons, pairwise_cons]
    refine ⟨fun x hx => ?_, ih h.2⟩
    obtain ⟨m, hm, rfl⟩ := List.mem_map.mp hx
    rcases mem_insertMember hm with rfl | hm
    · exact lt_of_le_of_ne (not_lt.mp hlt) hk
    · exact h.1 _ (List.mem_map_of_mem hm)

end

/-! ## Receipts of the guest -/

/-- The types a receipt is made of, as derived deserialization reads them. -/
inductive Shape where
  | int
  | text
  | flag
  | choice
  | option (inner : Shape)
  | list (item : Shape)
  | record (fields : List (String × Shape))

/-- A value of a type.  A record takes no field it does not know; it may also be given as
an array, and a name as the only key of an object. -/
inductive Typed : Shape → Json → Prop
  | posInt (n : UInt64) : Typed .int (.posInt n)
  | negInt (n : Int64) : Typed .int (.negInt n)
  | text (s : String) : Typed .text (.string s)
  | flag (b : Bool) : Typed .flag (.bool b)
  | name (s : String) : Typed .choice (.string s)
  | tagged (s : String) : Typed .choice (.object [(s, .null)])
  | none (inner : Shape) : Typed (.option inner) .null
  | some {inner : Shape} {v : Json} (h : Typed inner v) : Typed (.option inner) v
  | list {item : Shape} {items : List Json} (h : ∀ v ∈ items, Typed item v) :
      Typed (.list item) (.array items)
  | record {fields : List (String × Shape)} {members : List (String × Json)}
      (shape : String × Json → Shape) (hfield : ∀ m ∈ members, (m.1, shape m) ∈ fields)
      (h : ∀ m ∈ members, Typed (shape m) m.2) : Typed (.record fields) (.object members)
  | sequence {fields : List (String × Shape)} {items : List Json} (shape : Json → Shape)
      (hfield : ∀ v ∈ items, ∃ name, (name, shape v) ∈ fields)
      (h : ∀ v ∈ items, Typed (shape v) v) : Typed (.record fields) (.array items)

mutual

def Shape.depth : Shape → ℕ
  | .int | .text | .flag => 0
  | .choice => 1
  | .option inner => inner.depth
  | .list item => item.depth + 1
  | .record fields => Shape.fieldsDepth fields + 1

def Shape.fieldsDepth : List (String × Shape) → ℕ
  | [] => 0
  | (_, s) :: fields => max s.depth (Shape.fieldsDepth fields)

end

variable {fields : List (String × Shape)} {s : Shape}

lemma Shape.depth_le {name : String} (h : (name, s) ∈ fields) : s.depth ≤ Shape.fieldsDepth fields := by
  induction fields with
  | nil => cases h
  | cons field fields ih =>
  obtain ⟨name', s'⟩ := field
  rw [Shape.fieldsDepth]
  rcases mem_cons.mp h with heq | h
  · cases heq
    exact le_max_left _ _
  · exact (ih h).trans (le_max_right _ _)

lemma Typed.within {v : Json} (h : Typed s v) : Within s.depth v := by
  induction h with
  | posInt n => exact .posInt n
  | negInt n => exact .negInt n
  | text s => exact .string s
  | flag b => exact .bool b
  | name s => exact .string s
  | tagged s =>
    refine .object fun m hm => ?_
    rw [mem_singleton.mp hm]
    exact .null
  | none inner => exact .null
  | some h ih => exact ih
  | list h ih => exact .array ih
  | record shape hfield h ih =>
    exact .object fun m hm => (ih m hm).mono (Shape.depth_le (hfield m hm))
  | sequence shape hfield h ih =>
    refine .array fun v hv => ?_
    obtain ⟨name, hname⟩ := hfield v hv
    exact (ih v hv).mono (Shape.depth_le hname)

def preparedJobImage : Shape := .record
  [("catalog_id", .text), ("rootfs_digest", .text), ("kernel_digest", .text),
    ("initrd_digest", .option .text)]

def jobBundle : Shape := .record [("digest", .text), ("size_bytes", .int)]

def jobCommandResult : Shape := .record
  [("command_index", .int), ("exit_code", .option .int), ("outcome", .choice), ("duration_ms", .int),
    ("output", .text), ("output_truncated", .flag), ("logs_truncated", .flag),
    ("termination_confirmed", .flag), ("termination_error", .option .text)]

def jobArtifactResult : Shape := .record
  [("path", .text), ("stored_name", .option .text), ("digest", .option .text),
    ("size_bytes", .option .int), ("error", .option .text)]

/-- The type `GuestJobManifest::decode_for` reads before it compares the receipt with the job. -/
def guestJobManifest : Shape := .record
  [("version", .int), ("job_id", .text), ("execution_specification_digest", .text),
    ("image", preparedJobImage), ("source", jobBundle), ("acceptance", jobBundle),
    ("commands", .list jobCommandResult), ("artifacts", .list jobArtifactResult),
    ("source_changed", .option .flag), ("source_verification_error", .option .text),
    ("collection_status", .choice), ("outcome", .choice)]

lemma guestJobManifest_depth : guestJobManifest.depth = 4 := by decide

/-! ## Envelopes -/

inductive HostFailure where
  | worker (error : String)
  | collection (id : Uuid) (error : String)
  | staging (id : Uuid) (error : String)

def bounded (error : String) : String := String.ofList (error.toList.take 512)

def HostFailure.members : HostFailure → List (String × Json)
  | .worker error =>
    [("collection", .string "failed"), ("host_error", .string (bounded error)),
      ("retained_output", .string "journaled prefix; final tail may be unavailable")]
  | .collection id error =>
    [("collection_error", .string (bounded error)), ("job_id", .string id.toText),
      ("version", .posInt 1)]
  | .staging id error =>
    [("job_id", .string id.toText), ("staging_error", .string (bounded error)),
      ("version", .posInt 1)]

def HostFailure.manifest (f : HostFailure) : Json := .object f.members

def Small (m : String × Json) : Prop :=
  m.1.length ≤ 20 ∧ ((∃ s, m.2 = .string s ∧ s.length ≤ 512) ∨ ∃ n, m.2 = .posInt n)

lemma bounded_length (error : String) : (bounded error).length ≤ 512 := by
  simp [bounded]

lemma toText_length (id : Uuid) : id.toText.length = 36 := by
  simp only [Uuid.toText, String.length_ofList, length_flatMap, length_append, length_singleton]
  decide

lemma HostFailure.keys (f : HostFailure) : (f.members.map Prod.fst).Pairwise (· < ·) := by
  cases f with
  | worker error =>
    have h : (["collection", "host_error", "retained_output"] : List String).Pairwise (· < ·) := by
      decide
    exact h
  | collection id error =>
    have h : (["collection_error", "job_id", "version"] : List String).Pairwise (· < ·) := by decide
    exact h
  | staging id error =>
    have h : (["job_id", "staging_error", "version"] : List String).Pairwise (· < ·) := by decide
    exact h

variable {text : String}

lemma small_string {key : String} (hkey : key.length ≤ 20) (htext : text.length ≤ 512) :
    Small (key, .string text) := ⟨hkey, .inl ⟨text, rfl, htext⟩⟩

lemma HostFailure.small (f : HostFailure) : ∀ m ∈ f.members, Small m := by
  have hid (id : Uuid) : Small ("job_id", .string id.toText) :=
    small_string (by decide) (by rw [toText_length]; decide)
  have hversion : Small ("version", .posInt 1) := ⟨by decide, .inr ⟨1, rfl⟩⟩
  cases f <;> simp only [members, forall_mem_cons]
  case worker error =>
    exact ⟨small_string (by decide) (by decide), small_string (by decide) (bounded_length error),
      small_string (by decide) (by decide), by simp⟩
  case collection id error =>
    exact ⟨small_string (by decide) (bounded_length error), hid id, hversion, by simp⟩
  case staging id error =>
    exact ⟨hid id, small_string (by decide) (bounded_length error), hversion, by simp⟩

lemma HostFailure.length_members (f : HostFailure) : f.members.length = 3 := by
  cases f <;> rfl

lemma HostFailure.free (f : HostFailure) : ∀ m ∈ f.members, m.1 ∉ journalOwned := by
  cases f <;> simp [members, journalOwned]

/-! ## Sizes -/

variable {guest : Json}

section
variable {c : Codec} {known : Json → Prop} {members : List (String × Json)} {key : String} {value : Json}

def parts (members : List (String × Json)) : List Json :=
  .object members :: members.flatMap fun m => [.string m.1, m.2]

variable {m : String × Json} {staged : String} {receipt : Option (String × Json)}

lemma mem_parts (hm : m ∈ members) : .string m.1 ∈ parts members ∧ m.2 ∈ parts members :=
  ⟨.tail _ (mem_flatMap.mpr ⟨m, hm, by simp⟩), .tail _ (mem_flatMap.mpr ⟨m, hm, by simp⟩)⟩

def memberSize (c : Codec) (m : String × Json) : ℕ := size c (.string m.1) + size c m.2 + 2

lemma Small.memberSize_le (h : Small m) (hc : Dependable c known)
    (hkey : known (.string m.1)) (hvalue : known m.2) : memberSize c m ≤ 3198 := by
  obtain ⟨hlength, hvalue'⟩ := h
  have hstring := hc.string _ hkey
  unfold memberSize
  rcases hvalue' with ⟨s, hs, hshort⟩ | ⟨n, hn⟩
  · rw [hs] at hvalue ⊢
    have htext := hc.string s hvalue
    omega
  · rw [hn] at hvalue ⊢
    have hnumber := hc.number n hvalue
    omega

lemma sum_insertMember_le (f : String × Json → ℕ) (key : String) (value : Json)
    (members : List (String × Json)) :
    ((insertMember key value members).map f).sum ≤ f (key, value) + (members.map f).sum := by
  induction members with
  | nil => simp [insertMember]
  | cons first members ih =>
  obtain ⟨k, v⟩ := first
  rw [insertMember]
  split_ifs with hk
  · simp only [map_cons, sum_cons]
    omega
  · simp only [map_cons, sum_cons]
    omega
  · simp only [map_cons, sum_cons]
    omega

lemma sum_small (hc : Dependable c known) (hsmall : ∀ m ∈ members, Small m)
    (hknown : ∀ v ∈ parts members, known v) :
    (members.map (memberSize c)).sum ≤ members.length * 3198 := by
  have hle : ∀ x ∈ members.map (memberSize c), x ≤ 3198 := by
    intro x hx
    obtain ⟨m, hm, rfl⟩ := List.mem_map.mp hx
    have hm' := mem_parts hm
    exact (hsmall m hm).memberSize_le hc (hknown _ hm'.1) (hknown _ hm'.2)
  simpa using sum_le_card_nsmul _ _ hle

lemma digest_length (hc : Dependable c known) (data : Bytes) : (c.digest data).length = 71 := by
  have hhex : (hexEncode (c.sha256 data)).length = 64 := by
    rw [hexEncode, String.length_ofList, hexDigits, length_flatMap]
    simp [hc.digest data]
  rw [Codec.digest, String.length_append, hhex]
  rfl

lemma reads_object (hc : Dependable c known) (hknown : known (.object members))
    (hkeys : (members.map Prod.fst).Pairwise (· < ·)) (htidy : ∀ m ∈ members, Tidy m.2)
    (hwithin : ∀ m ∈ members, Within (maxDepth - 1) m.2) :
    c.fromStr (c.toText (.object members)) = some (.object members) :=
  hc.reads _ hknown (.object hkeys htidy) (.object hwithin)

lemma Small.tidy (h : Small m) : Tidy m.2 := by
  rcases h.2 with ⟨s, hs, -⟩ | ⟨n, hn⟩
  · rw [hs]
    exact .string s
  · rw [hn]
    exact .posInt n

lemma Small.within {n : ℕ} (h : Small m) : Within n m.2 := by
  rcases h.2 with ⟨s, hs, -⟩ | ⟨k, hk⟩
  · rw [hs]
    exact .string s
  · rw [hk]
    exact .posInt k

/-! ## What is published -/

def mergedMembers (members : List (String × Json)) (guest : Json) : List (String × Json) :=
  Json.insertMember "guest_result" guest members

def digestMembers (c : Codec) (members : List (String × Json)) (staged : String) :
    List (String × Json) :=
  Json.insertMember "guest_result_body_truncated" (.bool true) <|
    Json.insertMember "guest_result_sha256" (.string (c.digest (asBytes staged))) members

lemma removeMember_insertMember (h : ∀ m ∈ members, m.1 ≠ key) :
    removeMember key (insertMember key value members) = members := by
  induction members with
  | nil => simp [insertMember, removeMember]
  | cons first members ih =>
  obtain ⟨k, v⟩ := first
  rw [forall_mem_cons] at h
  have hrest : removeMember key members = members :=
    filter_eq_self.mpr fun m hm => by simpa using h.2 m hm
  rw [insertMember, if_neg h.1]
  split_ifs
  · simpa [removeMember, h.1] using hrest
  · simpa [removeMember, h.1] using ih h.2

lemma mergeStaged_eq (hfree : ∀ m ∈ members, m.1 ∉ journalOwned) :
    mergeStaged c (.object members) guest staged =
      if size c (.object (mergedMembers members guest)) ≤ maxManifestBytes then
        .object (mergedMembers members guest)
      else .object (digestMembers c members staged) := by
  have hne : ∀ m ∈ members, m.1 ≠ "guest_result" := by
    intro m hm heq
    exact hfree m hm (by simp [journalOwned, heq])
  simp only [mergeStaged, mergedMembers, digestMembers, size, removeMember_insertMember hne]
  rfl

/-- The members that are published, given the receipt staged before: its text and its value. -/
def sealedMembers (c : Codec) (members : List (String × Json)) :
    Option (String × Json) → List (String × Json)
  | none => members
  | some (staged, guest) =>
    if size c (.object (mergedMembers members guest)) ≤ maxManifestBytes then
      mergedMembers members guest
    else digestMembers c members staged

def handled (c : Codec) (members : List (String × Json)) : Option (String × Json) → List Json
  | none => parts members
  | some (staged, guest) =>
    .object (mergedMembers members guest) :: parts members ++ parts (digestMembers c members staged)

/-- A receipt the journal holds, as `decode_for` accepted it. -/
structure Staged (c : Codec) (staged : String) (guest : Json) : Prop where
  reads : c.fromStr staged = some guest
  accepted : Typed guestJobManifest guest

lemma envelope_size (f : HostFailure) (hc : Dependable c known)
    (hknown : ∀ v ∈ parts f.members, known v) : size c f.manifest ≤ 2 + 3 * 3198 := by
  have hobject := hc.object _ (hknown _ (.head _))
  have hsum := sum_small hc f.small hknown
  rw [f.length_members] at hsum
  exact hobject.trans (Nat.add_le_add_left hsum 2)

lemma digestMembers_size (f : HostFailure) (hc : Dependable c known)
    (hknown : ∀ v ∈ parts f.members, known v)
    (hknown' : ∀ v ∈ parts (digestMembers c f.members staged), known v) :
    size c (.object (digestMembers c f.members staged)) ≤ maxManifestBytes := by
  have hobject : _ ≤ 2 + ((digestMembers c f.members staged).map (memberSize c)).sum :=
    hc.object _ (hknown' _ (.head _))
  have hsum := sum_small hc f.small hknown
  rw [f.length_members] at hsum
  have hdigest : memberSize c ("guest_result_sha256", .string (c.digest (asBytes staged))) ≤ 546 := by
    have hne : "guest_result_sha256" ≠ "guest_result_body_truncated" := by decide
    have hmem : ("guest_result_sha256", .string (c.digest (asBytes staged))) ∈
        digestMembers c f.members staged := insertMember_mem_of_mem insertMember_mem hne
    have hparts := mem_parts hmem
    have hkey := hc.string _ (hknown' _ hparts.1)
    have hvalue := hc.string _ (hknown' _ hparts.2)
    rw [digest_length hc] at hvalue
    have hlength : "guest_result_sha256".length = 19 := by decide
    simp only [memberSize] at hkey hvalue ⊢
    omega
  have hflag : memberSize c ("guest_result_body_truncated", .bool true) ≤ 171 := by
    have hmem : ("guest_result_body_truncated", .bool true) ∈ digestMembers c f.members staged :=
      insertMember_mem
    have hparts := mem_parts hmem
    have hkey := hc.string _ (hknown' _ hparts.1)
    have hvalue := hc.bool _ (hknown' _ hparts.2)
    have hlength : "guest_result_body_truncated".length = 27 := by decide
    simp only [memberSize] at hkey hvalue ⊢
    omega
  have hinner := sum_insertMember_le (memberSize c) "guest_result_sha256"
    (.string (c.digest (asBytes staged))) f.members
  have houter := sum_insertMember_le (memberSize c) "guest_result_body_truncated" (.bool true)
    (insertMember "guest_result_sha256" (.string (c.digest (asBytes staged))) f.members)
  rw [digestMembers] at hobject ⊢
  rw [maxManifestBytes]
  omega

structure Lasting (c : Codec) (members : List (String × Json)) : Prop where
  size_le : size c (.object members) ≤ maxManifestBytes
  reads : c.fromStr (c.toText (.object members)) = some (.object members)

lemma lasting_members (f : HostFailure) (hc : Dependable c known)
    (hknown : ∀ v ∈ parts f.members, known v) : Lasting c f.members := by
  refine ⟨(envelope_size f hc hknown).trans (by decide), ?_⟩
  apply reads_object hc (hknown _ (.head _)) f.keys
  · exact fun m hm => (f.small m hm).tidy
  · exact fun m hm => (f.small m hm).within

lemma lasting_sealed (f : HostFailure) (hc : Dependable c known)
    (hreceipt : ∀ staged guest, receipt = some (staged, guest) → Staged c staged guest)
    (hknown : ∀ v ∈ handled c f.members receipt, known v) :
    Lasting c (sealedMembers c f.members receipt) := by
  cases receipt with
  | none => exact lasting_members f hc hknown
  | some pair =>
  obtain ⟨staged, guest⟩ := pair
  have hstaged := hreceipt staged guest rfl
  have henvelope : ∀ v ∈ parts f.members, known v := fun v hv => hknown v (by simp [handled, hv])
  have hdigest : ∀ v ∈ parts (digestMembers c f.members staged), known v :=
    fun v hv => hknown v (by simp [handled, hv])
  have htidy : ∀ m ∈ f.members, Tidy m.2 := fun m hm => (f.small m hm).tidy
  have hsmall : ∀ m ∈ f.members, Within (maxDepth - 1) m.2 := fun m hm => (f.small m hm).within
  rw [sealedMembers]
  split_ifs with hfits
  · refine ⟨hfits, ?_⟩
    have hwithin := hstaged.accepted.within
    rw [guestJobManifest_depth] at hwithin
    apply reads_object hc (hknown _ (.head _)) (insertMember_keys f.keys)
    · exact forall_insertMember (hc.tidy _ _ hstaged.reads) htidy
    · exact forall_insertMember (hwithin.mono (by decide)) hsmall
  · refine ⟨digestMembers_size f hc henvelope hdigest, ?_⟩
    apply reads_object hc (hdigest _ (.head _)) (insertMember_keys (insertMember_keys f.keys))
    · exact forall_insertMember (.bool true) (forall_insertMember (.string _) htidy)
    · exact forall_insertMember (.bool true) (forall_insertMember (.string _) hsmall)

lemma Lasting.boundedJson (h : Lasting c members) :
    boundedJson c (c.toText (.object members)) maxManifestBytes = .ok () := by
  apply ensure_of_true
  have hsize := h.size_le
  rw [size] at hsize
  simp [Codec.boundedObject, h.reads, hsize, isObject]

lemma get?_of_mem (hkeys : (members.map Prod.fst).Pairwise (· < ·)) (hm : m ∈ members) :
    (Json.object members).get? m.1 = some m.2 := by
  induction members with
  | nil => cases hm
  | cons first members ih =>
  rw [map_cons, pairwise_cons] at hkeys
  rcases mem_cons.mp hm with rfl | hm
  · simp [Json.get?]
  · have hne : first.1 ≠ m.1 := (hkeys.1 _ (List.mem_map_of_mem hm)).ne
    simpa [Json.get?, hne] using ih hkeys.2 hm

lemma get?_of_forall_ne (h : ∀ m ∈ members, m.1 ≠ key) : (Json.object members).get? key = none := by
  simpa [Json.get?] using h

/-- What is said of the guest in a manifest that was sealed over its receipt. -/
inductive Tells (c : Codec) (members : List (String × Json)) (staged : String) (guest value : Json) : Prop
  | whole (hfits : size c (.object (mergedMembers members guest)) ≤ maxManifestBytes)
      (hguest : value.get? "guest_result" = some guest)
      (hdigest : value.get? "guest_result_sha256" = none)
      (hflag : value.get? "guest_result_body_truncated" = none)
  | digest (hlarge : maxManifestBytes < size c (.object (mergedMembers members guest)))
      (hguest : value.get? "guest_result" = none)
      (hdigest : value.get? "guest_result_sha256" = some (.string (c.digest (asBytes staged))))
      (hflag : value.get? "guest_result_body_truncated" = some (.bool true))

lemma sealedMembers_mem (hfree : ∀ m ∈ members, m.1 ∉ journalOwned) (hm : m ∈ members) :
    m ∈ sealedMembers c members receipt := by
  have hne := hfree m hm
  simp only [journalOwned, mem_cons, not_mem_nil, or_false, not_or] at hne
  cases receipt with
  | none => exact hm
  | some pair =>
  rw [sealedMembers]
  split_ifs
  · exact insertMember_mem_of_mem hm hne.1
  · exact insertMember_mem_of_mem (insertMember_mem_of_mem hm hne.2.1) hne.2.2

lemma sealedMembers_keys (hkeys : (members.map Prod.fst).Pairwise (· < ·)) :
    ((sealedMembers c members receipt).map Prod.fst).Pairwise (· < ·) := by
  cases receipt with
  | none => exact hkeys
  | some pair =>
  rw [sealedMembers]
  split_ifs
  · exact insertMember_keys hkeys
  · exact insertMember_keys (insertMember_keys hkeys)

lemma sealedMembers_tells (hfree : ∀ m ∈ members, m.1 ∉ journalOwned) :
    Tells c members staged guest (.object (sealedMembers c members (some (staged, guest)))) := by
  have habsent : ∀ key ∈ journalOwned, (Json.object members).get? key = none :=
    fun key hkey => get?_of_forall_ne fun m hm heq => hfree m hm (heq ▸ hkey)
  rw [sealedMembers]
  split_ifs with hfits
  · refine .whole hfits get?_insertMember_self ?_ ?_
    · rw [mergedMembers, get?_insertMember_of_ne (by decide)]
      exact habsent _ (by decide)
    · rw [mergedMembers, get?_insertMember_of_ne (by decide)]
      exact habsent _ (by decide)
  · refine .digest (not_le.mp hfits) ?_ ?_ get?_insertMember_self
    · rw [digestMembers, get?_insertMember_of_ne (by decide), get?_insertMember_of_ne (by decide)]
      exact habsent _ (by decide)
    · rw [digestMembers, get?_insertMember_of_ne (by decide)]
      exact get?_insertMember_self

end

/-! ## Publication -/

variable {f : HostFailure}

open HostFailure

section
variable {c : Codec} {known : Json → Prop} {db : Db} {id : Uuid} {old : JobRecord} {state : JobState}

structure Failing (state : JobState) : Prop where
  terminal : state.terminal = true
  completed : state ≠ .completed
  commandFailed : state ≠ .commandFailed

lemma updateJob_published {r : JobRow} (collection : CollectionState)
    (hr : r ∈ db.jobs.rows) (hstate : Failing state) (hsize : text.utf8ByteSize ≤ maxManifestBytes) :
    ∃ db', updateJob db [.state, .collection, .manifest] r.id
        (publishedRow state collection text) = .ok db' ∧
      publishedRow state collection text r ∈ db'.jobs.rows := by
  have hupdate : ∃ jobs, db.jobs.update? [.state, .collection, .manifest] (fun x => x.id = r.id)
      (publishedRow state collection text) = some jobs := by
    apply update?_isSome
    · exact fun x _ _ => rfl
    · intro x hx _
      have hcheck := db.jobs.checked x hx
      have hallowed : state ∉ [JobState.accepted, .running, .completed, .commandFailed] := by
        obtain ⟨hterminal, hcompleted, hfailed⟩ := hstate
        cases state <;> simp_all [JobState.terminal]
      simp only [jobSchema, JobRow.check, publishedRow, Bool.and_eq_true, Bool.or_eq_true] at hcheck ⊢
      refine ⟨⟨hcheck.1.1, decide_eq_true hsize⟩, hcheck.2.imp_right fun h => ⟨h.1, ?_⟩⟩
      simpa using hallowed
    · intro x _ y _ hclash
      split_ifs at hclash <;> exact hclash
  obtain ⟨jobs, hjobs⟩ := hupdate
  refine ⟨{ db with jobs }, ?_, ?_⟩
  · simp only [updateJob, updateJobs, hjobs, orError]
    rfl
  · rw [(update?_eq_some hjobs).1, mem_updated]
    exact .inl ⟨r, hr, decide_eq_true rfl, rfl⟩

lemma publishedManifest_sealed {receipt : Option (String × Json)}
    (henvelope : Lasting c f.members) (hmanifest : old.manifest = receipt.map Prod.fst)
    (hreceipt : ∀ staged guest, receipt = some (staged, guest) → Staged c staged guest) :
    publishedManifest c old (c.toText f.manifest) true =
      .ok (c.toText (.object (sealedMembers c f.members receipt))) := by
  have hreads : c.fromStr (c.toText f.manifest) = some f.manifest := henvelope.reads
  cases receipt with
  | none =>
    rw [map_none] at hmanifest
    simp only [publishedManifest, hreads, hmanifest, orError]
    rfl
  | some pair =>
  obtain ⟨staged, guest⟩ := pair
  rw [map_some] at hmanifest
  have hmerge : mergeStaged c f.manifest guest staged =
      .object (sealedMembers c f.members (some (staged, guest))) := by
    rw [manifest, mergeStaged_eq f.free, sealedMembers]
    split_ifs
    · rfl
    · rfl
  simp only [publishedManifest, hreads, hmanifest, (hreceipt staged guest rfl).reads, orError]
  rw [if_pos trivial, ← hmerge]
  rfl

lemma finishJobInner_sealed {receipt : Option (String × Json)}
    (hold : getOn db id = .ok old) (hopen : old.state.terminal = false)
    (henvelope : Lasting c f.members) (hmanifest : old.manifest = receipt.map Prod.fst)
    (hreceipt : ∀ staged guest, receipt = some (staged, guest) → Staged c staged guest)
    (hsealed : Lasting c (sealedMembers c f.members receipt)) (hstate : Failing state) :
    ∃ job db', finishJobInner c db id state .failed (c.toText f.manifest) true = .ok (job, db') ∧
      getOn db' id = .ok job ∧ job.state = state ∧
      job.manifest = some (c.toText (.object (sealedMembers c f.members receipt))) := by
  obtain ⟨r, hr, rfl, s, spec, hs, hspec, heq⟩ := getOn_eq_ok.mp hold
  obtain ⟨db', hupdate, hrow⟩ := updateJob_published .failed hr hstate hsealed.size_le
  have hjob : getOn db' r.id = .ok (recordOf (publishedRow state .failed
      (c.toText (.object (sealedMembers c f.members receipt))) r) state spec) :=
    getOn_eq_ok.mpr ⟨_, hrow, rfl, state, spec, rfl, hspec, rfl⟩
  refine ⟨_, db', ?_, hjob, rfl, rfl⟩
  have hcommand : state = .completed ∨ state = .commandFailed → old.state = .running :=
    fun h => absurd h (not_or.mpr ⟨hstate.completed, hstate.commandFailed⟩)
  have htruncated : old.outputTruncated = true → CollectionState.failed ≠ .complete :=
    fun _ => by decide
  simp only [finishJobInner]
  rw [ensure_of_true _ ⟨hstate.terminal, by decide⟩, ok_bind, manifest,
    henvelope.boundedJson, ok_bind, hold, ok_bind, if_neg (by simp [hopen]),
    ensure_of_true _ hcommand, ok_bind, ensure_of_true _ htruncated, ok_bind]
  rw [← manifest, publishedManifest_sealed henvelope hmanifest hreceipt, ok_bind,
    hsealed.boundedJson, ok_bind, hupdate, ok_bind, hjob]
  rfl

/-- A host-side failure of a job that is not over is always published: the manifest keeps the
envelope, and of a staged receipt the whole or, if that is too much, the digest. -/
theorem host_failure_is_published (hc : Dependable c known) (hold : getOn db id = .ok old)
    (hopen : old.state.terminal = false) (receipt : Option (String × Json))
    (hmanifest : old.manifest = receipt.map Prod.fst)
    (hreceipt : ∀ staged guest, receipt = some (staged, guest) → Staged c staged guest)
    (f : HostFailure) (hstate : Failing state)
    (hknown : ∀ v ∈ handled c f.members receipt, known v) :
    ∃ job db', finishJobFailure c db id state (c.toText f.manifest) = .ok (job, db') ∧
      getOn db' id = .ok job ∧ job.state = state ∧
      ∃ text value, job.manifest = some text ∧ text.utf8ByteSize ≤ maxManifestBytes ∧
        c.fromStr text = some value ∧ value.isObject = true ∧
        (∀ m ∈ f.members, value.get? m.1 = some m.2) ∧
        ∀ staged guest, receipt = some (staged, guest) → Tells c f.members staged guest value := by
  have hparts : ∀ v ∈ parts f.members, known v := by
    intro v hv
    apply hknown
    cases receipt with
    | none => exact hv
    | some pair => simp [handled, hv]
  have henvelope := lasting_members f hc hparts
  have hsealed := lasting_sealed f hc hreceipt hknown
  obtain ⟨job, db', hfinish, hjob, hpublished, htext⟩ :=
    finishJobInner_sealed hold hopen henvelope hmanifest hreceipt hsealed hstate
  have hfree : ∀ key ∈ journalOwned, (f.manifest.get? key).isNone = true := by
    intro key hkey
    rw [manifest, get?_of_forall_ne fun m hm heq => f.free m hm (heq ▸ hkey)]
    rfl
  refine ⟨job, db', ?_, hjob, hpublished, _, _, htext, hsealed.size_le, hsealed.reads, rfl, ?_, ?_⟩
  · have hreads : c.fromStr (c.toText f.manifest) = some f.manifest := henvelope.reads
    have hbounded : boundedJson c (c.toText f.manifest) maxManifestBytes = .ok () :=
      henvelope.boundedJson
    simp only [finishJobFailure, hreads, orError]
    rw [ensure_of_true _ ⟨hstate.completed, hstate.commandFailed⟩, ok_bind, hbounded, ok_bind, ok_bind,
      ensure_of_true _ hfree, ok_bind]
    exact hfinish
  · exact fun m hm => get?_of_mem (sealedMembers_keys f.keys) (sealedMembers_mem f.free hm)
  · rintro staged guest rfl
    exact sealedMembers_tells f.free

end

/-! ## A deadline after the receipt -/

mutual

/-- The compact text of a value; no float occurs here. -/
def jsonText : Json → List Char
  | .null => "null".toList
  | .bool b => Relational.Json.bool b
  | .posInt n => Relational.Json.nat n.toNat
  | .negInt n => Relational.Json.int n.toInt
  | .float _ => []
  | .string s => Relational.Json.string s
  | .array items => '[' :: [','].intercalate (itemTexts items) ++ [']']
  | .object members => Relational.Json.object (memberTexts members)

def itemTexts : List Json → List (List Char)
  | [] => []
  | v :: vs => jsonText v :: itemTexts vs

def memberTexts : List (String × Json) → List (String × List Char)
  | [] => []
  | (k, v) :: ms => (k, jsonText v) :: memberTexts ms

end

def bundleDigest : Json :=
  .string "sha256:44136fa355b3678a1146ad16f7e8649e94fb4fc21fe77e8310c060f61caaff8a"

def receipt : Json := .object
  [("acceptance", .object [("digest", bundleDigest), ("size_bytes", .posInt 10)]),
    ("artifacts", .array []),
    ("collection_status", .string "complete"),
    ("commands", .array [.object
      [("command_index", .posInt 0), ("duration_ms", .posInt 5), ("exit_code", .posInt 0),
        ("logs_truncated", .bool false), ("outcome", .string "completed"), ("output", .string ""),
        ("output_truncated", .bool false), ("termination_confirmed", .bool true),
        ("termination_error", .null)]]),
    ("execution_specification_digest", bundleDigest),
    ("image", .object [("catalog_id", .string "base"), ("initrd_digest", .null),
      ("kernel_digest", bundleDigest), ("rootfs_digest", bundleDigest)]),
    ("job_id", .string (Uuid.ofNat 1).toText),
    ("outcome", .string "completed"),
    ("source", .object [("digest", bundleDigest), ("size_bytes", .posInt 10)]),
    ("source_changed", .bool false),
    ("source_verification_error", .null),
    ("version", .posInt 1)]

def receiptText : String := String.ofList (jsonText receipt)

def receiptSum : Bytes :=
  [0x83, 0x2a, 0xc5, 0x54, 0xac, 0x0a, 0x3a, 0x08, 0xc3, 0xd4, 0x7f, 0x8a, 0xea, 0xc9, 0x39, 0xb8,
    0xc8, 0xfb, 0xb4, 0xb3, 0xd9, 0x38, 0x49, 0x5d, 0xd0, 0xfd, 0x74, 0xbf, 0xd6, 0x1d, 0x91, 0x91]

def receiptHash (data : Bytes) : Bytes :=
  if data = asBytes receiptText then receiptSum else List.replicate 32 0

def deadlineFailure : HostFailure := .worker "execution hard deadline expired"

def digestEnvelope : List (String × Json) :=
  Json.insertMember "guest_result_body_truncated" (.bool true) <|
    Json.insertMember "guest_result_sha256" (.string ("sha256:" ++ hexEncode receiptSum))
      deadlineFailure.members

/-- A codec that prints as the real one does, and reads the values of this run. -/
def receiptCodec : Codec where
  sha256 := receiptHash
  fromStr text :=
    [receipt, deadlineFailure.manifest, .object (mergedMembers deadlineFailure.members receipt),
      .object digestEnvelope].find? fun v => text.toList = jsonText v
  toText v := String.ofList (jsonText v)

def runningJob (staged : String) : JobRow where
  id := .ofNat 1
  submissionKey := "build"
  specDigest := "sha256:44136fa355b3678a1146ad16f7e8649e94fb4fc21fe77e8310c060f61caaff8a"
  specification := some "\x7b\x7d"
  state := .live .running
  createdAt := 0
  deadline := 100
  retentionUntil := 200
  vmId := some (.ofNat 7)
  vmName := some "job"
  sessionId := .ofNat 2
  captureCursor := 0
  retainedBytes := 0
  outputTruncated := false
  collection := .pending
  manifest := some staged
  cleanupPending := true
  vmDestroyed := false
  vmAllocationAborted := false

lemma receiptText_size : receiptText.utf8ByteSize = 946 := by
  rw [receiptText, String.utf8ByteSize_ofList]
  decide +kernel

lemma runningJob_check {staged : String} (hsize : staged.utf8ByteSize ≤ 65536) :
    jobSchema.check (runningJob staged) = true := by
  have hspec : "\x7b\x7d".utf8ByteSize ≤ 65536 := by decide
  simp [jobSchema, JobRow.check, runningJob, hsize, hspec]

def receiptDb : Db where
  __ := Db.fresh
  jobs := {
    rows := [runningJob receiptText]
    checked := List.forall_mem_singleton.mpr (runningJob_check (receiptText_size.trans_le (by decide)))
    unique := List.pairwise_singleton _ _ }

def keepsBounds (size : Json → ℕ) : Json → Bool
  | .string s => size (.string s) ≤ 6 * s.length + 2
  | .posInt n => size (.posInt n) ≤ 20
  | .bool b => size (.bool b) ≤ 5
  | .object members => size (.object members) ≤
      2 + (members.map fun m => size (.string m.1) + size m.2 + 2).sum
  | _ => true

lemma receiptCodec_size (v : Json) : size receiptCodec v = String.utf8Len (jsonText v) :=
  String.utf8ByteSize_ofList _

lemma receiptHash_receipt : receiptHash (asBytes receiptText) = receiptSum := by
  rw [receiptHash, if_pos rfl]

lemma receiptCodec_digest : digestMembers receiptCodec deadlineFailure.members receiptText =
    digestEnvelope := by
  simp only [digestMembers, Codec.digest, receiptCodec, receiptHash_receipt, digestEnvelope]

lemma receiptCodec_bounds :
    ∀ v ∈ handled receiptCodec deadlineFailure.members (some (receiptText, receipt)),
      keepsBounds (size receiptCodec) v = true := by
  rw [handled, receiptCodec_digest, funext receiptCodec_size]
  decide +kernel

lemma receiptCodec_reads {v : Json} (before after : List Json)
    (htable : [receipt, deadlineFailure.manifest, .object (mergedMembers deadlineFailure.members receipt),
      .object digestEnvelope] = before ++ v :: after)
    (hother : before.all (fun x => jsonText v ≠ jsonText x) = true) :
    receiptCodec.fromStr (receiptCodec.toText v) = some v := by
  simp only [receiptCodec, htable, String.toList_ofList, find?_append]
  have hnone : before.find? (fun x => decide (jsonText v = jsonText x)) = none := by
    simpa using hother
  simp [hnone]

lemma typed_record {members : List (String × Json)}
    (h : ∀ m ∈ members, ∃ s, (m.1, s) ∈ fields ∧ Typed s m.2) :
    Typed (.record fields) (.object members) := by
  have : Nonempty Shape := ⟨.int⟩
  choose! shape hfield htyped using h
  exact .record shape hfield htyped

lemma receipt_typed : Typed guestJobManifest receipt := by
  have hdigest : Typed .text bundleDigest := .text _
  have hbundle : Typed jobBundle (.object [("digest", bundleDigest), ("size_bytes", .posInt 10)]) := by
    apply typed_record
    simp only [forall_mem_cons]
    exact ⟨⟨_, by simp, hdigest⟩, ⟨_, by simp, .posInt 10⟩, by simp⟩
  have himage : Typed preparedJobImage (.object [("catalog_id", .string "base"), ("initrd_digest", .null),
      ("kernel_digest", bundleDigest), ("rootfs_digest", bundleDigest)]) := by
    apply typed_record
    simp only [forall_mem_cons]
    exact ⟨⟨_, by simp, .text _⟩, ⟨_, by simp, .none .text⟩, ⟨_, by simp, hdigest⟩,
      ⟨_, by simp, hdigest⟩, by simp⟩
  have hcommand : Typed jobCommandResult (.object
      [("command_index", .posInt 0), ("duration_ms", .posInt 5), ("exit_code", .posInt 0),
        ("logs_truncated", .bool false), ("outcome", .string "completed"), ("output", .string ""),
        ("output_truncated", .bool false), ("termination_confirmed", .bool true),
        ("termination_error", .null)]) := by
    apply typed_record
    simp only [forall_mem_cons]
    exact ⟨⟨_, by simp, .posInt 0⟩, ⟨_, by simp, .posInt 5⟩, ⟨_, by simp, .some (.posInt 0)⟩,
      ⟨_, by simp, .flag false⟩, ⟨_, by simp, .name _⟩, ⟨_, by simp, .text _⟩,
      ⟨_, by simp, .flag false⟩, ⟨_, by simp, .flag true⟩, ⟨_, by simp, .none .text⟩, by simp⟩
  have hartifacts : Typed (.list jobArtifactResult) (.array []) := .list (by simp)
  have hcommands := Typed.list (forall_mem_singleton.mpr hcommand)
  apply typed_record
  simp only [forall_mem_cons]
  exact ⟨⟨_, by simp, hbundle⟩, ⟨_, by simp, hartifacts⟩, ⟨_, by simp, .name _⟩,
    ⟨_, by simp, hcommands⟩, ⟨_, by simp, hdigest⟩,
    ⟨_, by simp, himage⟩, ⟨_, by simp, .text _⟩, ⟨_, by simp, .name _⟩, ⟨_, by simp, hbundle⟩,
    ⟨_, by simp, .some (.flag false)⟩, ⟨_, by simp, .none .text⟩, ⟨_, by simp, .posInt 1⟩, by simp⟩

lemma object_mem_parts {members ms : List (String × Json)} (h : .object ms ∈ parts members)
    (hflat : members.all (fun m => !m.2.isObject) = true) : ms = members := by
  rcases mem_cons.mp h with h | h
  · exact Json.object.inj h
  · obtain ⟨m, hm, heq⟩ := mem_flatMap.mp h
    have hobject := List.all_eq_true.mp hflat m hm
    simp only [mem_cons, not_mem_nil, or_false, reduceCtorEq, false_or] at heq
    simp [← heq, isObject] at hobject

lemma receipt_tidy : Tidy receipt := by
  have hbundle : Tidy (.object [("digest", bundleDigest), ("size_bytes", .posInt 10)]) := by
    refine .object (by decide) ?_
    simp only [forall_mem_cons]
    exact ⟨.string _, .posInt _, by simp⟩
  refine .object (by decide) ?_
  simp only [forall_mem_cons]
  refine ⟨hbundle, .array (by simp), .string _, .array (forall_mem_singleton.mpr ?_), .string _, ?_,
    .string _, .string _, hbundle, .bool _, .null, .posInt _, by simp⟩
  · refine .object (by decide) ?_
    simp only [forall_mem_cons]
    exact ⟨.posInt _, .posInt _, .posInt _, .bool _, .string _, .string _, .bool _, .bool _, .null,
      by simp⟩
  · refine .object (by decide) ?_
    simp only [forall_mem_cons]
    exact ⟨.string _, .null, .string _, .string _, by simp⟩

lemma receiptCodec_dependable : Dependable receiptCodec
    (· ∈ handled receiptCodec deadlineFailure.members (some (receiptText, receipt))) where
  reads members h _ _ := by
    rw [handled, receiptCodec_digest, cons_append, mem_cons, mem_append] at h
    rcases h with h | h | h
    · rw [h]
      exact receiptCodec_reads [_, _] [_] rfl (by decide +kernel)
    · rw [object_mem_parts h (by decide)]
      exact receiptCodec_reads [_] [_, _] rfl (by decide +kernel)
    · rw [object_mem_parts h (by decide +kernel)]
      exact receiptCodec_reads [_, _, _] [] rfl (by decide +kernel)
  tidy text v h := by
    have hmem := mem_of_find?_eq_some h
    have htidy : ∀ m ∈ deadlineFailure.members, Tidy m.2 :=
      fun m hm => (deadlineFailure.small m hm).tidy
    have hkeys := deadlineFailure.keys
    simp only [mem_cons, not_mem_nil, or_false] at hmem
    rcases hmem with rfl | rfl | rfl | rfl
    · exact receipt_tidy
    · exact .object hkeys htidy
    · exact .object (insertMember_keys hkeys) (forall_insertMember receipt_tidy htidy)
    · exact .object (insertMember_keys (insertMember_keys hkeys))
        (forall_insertMember (.bool true) (forall_insertMember (.string _) htidy))
  string s h := of_decide_eq_true (receiptCodec_bounds _ h)
  number n h := of_decide_eq_true (receiptCodec_bounds _ h)
  bool b h := of_decide_eq_true (receiptCodec_bounds _ h)
  object members h := of_decide_eq_true (receiptCodec_bounds _ h)
  digest data := by
    simp only [receiptCodec, receiptHash]
    split_ifs
    · rfl
    · rfl

/-- The deadline of a running job passes after its receipt was staged. -/
theorem deadline_keeps_receipt :
    ∃ job db', finishJobFailure receiptCodec receiptDb (.ofNat 1) .timedOut
        (receiptCodec.toText deadlineFailure.manifest) = .ok (job, db') ∧
      ∃ text value, job.manifest = some text ∧ receiptCodec.fromStr text = some value ∧
        Tells receiptCodec deadlineFailure.members receiptText receipt value := by
  have hold : getOn receiptDb (.ofNat 1) =
      .ok (recordOf (runningJob receiptText) .running "\x7b\x7d") :=
    getOn_eq_ok.mpr ⟨_, mem_singleton_self _, rfl, .running, _, rfl, rfl, rfl⟩
  have hreceipt : ∀ staged guest, some (receiptText, receipt) = some (staged, guest) →
      Staged receiptCodec staged guest := by
    intro staged guest h
    rw [some.injEq, Prod.mk.injEq] at h
    obtain ⟨rfl, rfl⟩ := h
    exact ⟨receiptCodec_reads [] [_, _, _] rfl rfl, receipt_typed⟩
  have hstate : Failing .timedOut := ⟨rfl, by decide, by decide⟩
  obtain ⟨job, db', hfinish, -, -, text, value, htext, -, hreads, -, -, htells⟩ :=
    host_failure_is_published receiptCodec_dependable hold rfl (some (receiptText, receipt)) rfl hreceipt
      deadlineFailure hstate (fun v hv => hv)
  exact ⟨job, db', hfinish, text, value, htext, hreads, htells _ _ rfl⟩

end Husker.Journal
