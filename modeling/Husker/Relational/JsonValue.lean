import Mathlib.Tactic
import Mathlib.Data.String.Basic

/-! # JSON values

A value, its compact text and its members in the order of their keys.  A decoder that only looks
members up does not see their order.
-/
namespace Husker.Relational.Json
open List Option

/-! ## Compact JSON

The text of objects of strings, numbers, booleans and nulls: no blanks, fields in the order of
their declaration, and only those characters escaped that have to be.
-/

def size (text : List Char) : ℕ := (text.map Char.utf8Size).sum

def control (n : ℕ) : List Char :=
  "\\u00".toList ++ [Nat.digitChar (n / 16), Nat.digitChar (n % 16)]

def escape (c : Char) : List Char :=
  match c.toNat with
  | 0x22 => "\\\"".toList
  | 0x5c => "\\\\".toList
  | 0x08 => "\\b".toList
  | 0x0c => "\\f".toList
  | 0x0a => "\\n".toList
  | 0x0d => "\\r".toList
  | 0x09 => "\\t".toList
  | n => if n < 0x20 then control n else [c]

def string (s : String) : List Char := '"' :: s.toList.flatMap escape ++ ['"']

def nat (n : ℕ) : List Char := Nat.toDigits 10 n

def int (n : ℤ) : List Char := if n < 0 then '-' :: nat n.natAbs else nat n.natAbs

def bool (b : Bool) : List Char := (if b then "true" else "false").toList

def option {α : Type} (text : α → List Char) : Option α → List Char
  | none => "null".toList
  | some a => text a

def field (f : String × List Char) : List Char := string f.1 ++ ':' :: f.2

def object (fields : List (String × List Char)) : List Char :=
  '\x7b' :: [','].intercalate (fields.map field) ++ ['\x7d']

inductive Value where
  | null
  | bool (b : Bool)
  | num (n : ℤ)
  | str (s : String)
  | arr (items : List Value)
  | obj (members : List (String × Value))

variable {k : String}

namespace Value

/-! ## Text -/

mutual

def encode : Value → List Char
  | .null => "null".toList
  | .bool b => Json.bool b
  | .num n => Json.int n
  | .str s => Json.string s
  | .arr items => '[' :: [','].intercalate (encodeItems items) ++ [']']
  | .obj members => Json.object (encodeMembers members)

def encodeItems : List Value → List (List Char)
  | [] => []
  | v :: vs => encode v :: encodeItems vs

def encodeMembers : List (String × Value) → List (String × List Char)
  | [] => []
  | (k, v) :: ms => (k, encode v) :: encodeMembers ms

end

/-! ## Order -/

def byKey {α : Type} (members : List (String × α)) : List (String × α) :=
  members.insertionSort fun a b => a.1 ≤ b.1

mutual

def sortKeys : Value → Value
  | .obj members => .obj (byKey (sortMembers members))
  | .arr items => .arr (sortItems items)
  | v => v

def sortItems : List Value → List Value
  | [] => []
  | v :: vs => sortKeys v :: sortItems vs

def sortMembers : List (String × Value) → List (String × Value)
  | [] => []
  | (k, v) :: ms => (k, sortKeys v) :: sortMembers ms

end

/-- One object, somewhere in the value, has its members in another order. -/
inductive Same : Value → Value → Prop
  | refl (v : Value) : Same v v
  | trans {u v w : Value} : Same u v → Same v w → Same u w
  | perm {ms ms' : List (String × Value)} (hkeys : (ms.map Prod.fst).Nodup) (h : ms.Perm ms') :
      Same (.obj ms) (.obj ms')
  | member {k : String} {v v' : Value} (ms ms' : List (String × Value)) :
      Same v v' → Same (.obj (ms ++ (k, v) :: ms')) (.obj (ms ++ (k, v') :: ms'))
  | item {v v' : Value} (vs vs' : List Value) :
      Same v v' → Same (.arr (vs ++ v :: vs')) (.arr (vs ++ v' :: vs'))

mutual

def Distinct : Value → Prop
  | .obj members => (members.map Prod.fst).Nodup ∧ DistinctMembers members
  | .arr items => DistinctItems items
  | _ => True

def DistinctItems : List Value → Prop
  | [] => True
  | v :: vs => Distinct v ∧ DistinctItems vs

def DistinctMembers : List (String × Value) → Prop
  | [] => True
  | (_, v) :: ms => Distinct v ∧ DistinctMembers ms

end

mutual

def Ordered : Value → Prop
  | .obj members => members.Pairwise (fun a b => a.1 < b.1) ∧ OrderedMembers members
  | .arr items => OrderedItems items
  | _ => True

def OrderedItems : List Value → Prop
  | [] => True
  | v :: vs => Ordered v ∧ OrderedItems vs

def OrderedMembers : List (String × Value) → Prop
  | [] => True
  | (_, v) :: ms => Ordered v ∧ OrderedMembers ms

end

lemma byKey_perm {α : Type} (members : List (String × α)) : (byKey members).Perm members :=
  perm_insertionSort _ members

lemma sortMembers_keys (ms : List (String × Value)) :
    (sortMembers ms).map Prod.fst = ms.map Prod.fst := by
  induction ms with
  | nil => rfl
  | cons m ms ih => rw [sortMembers, map_cons, map_cons, ih]

lemma byKey_pairwise {α : Type} {members : List (String × α)} (h : (members.map Prod.fst).Nodup) :
    (byKey members).Pairwise fun a b => a.1 < b.1 := by
  have hsorted : (byKey members).Pairwise fun a b => a.1 ≤ b.1 := pairwise_insertionSort _ members
  have hkeys : ((byKey members).map Prod.fst).Nodup := (((byKey_perm members).map _).nodup_iff).mpr h
  have hne : (byKey members).Pairwise fun a b => a.1 ≠ b.1 := pairwise_map.mp hkeys
  exact hsorted.imp₂ (fun a b hle hne => lt_of_le_of_ne hle hne) hne

lemma byKey_eq_self {α : Type} {members : List (String × α)}
    (h : members.Pairwise fun a b => a.1 < b.1) : byKey members = members :=
  List.Pairwise.insertionSort_eq (h.imp le_of_lt)

lemma orderedMembers_iff (ms : List (String × Value)) :
    OrderedMembers ms ↔ ∀ m ∈ ms, m.2.Ordered := by
  induction ms with
  | nil => simp [OrderedMembers]
  | cons m ms ih => simp [OrderedMembers, ih]

lemma orderedMembers_byKey {ms : List (String × Value)} (h : OrderedMembers ms) :
    OrderedMembers (byKey ms) := by
  rw [orderedMembers_iff] at h ⊢
  exact fun m hm => h m ((byKey_perm ms).mem_iff.mp hm)

mutual

lemma sortKeys_ordered : ∀ v : Value, v.Distinct → v.sortKeys.Ordered
  | .obj members, h => by
    refine ⟨byKey_pairwise ?_, orderedMembers_byKey (sortMembers_ordered members h.2)⟩
    rw [sortMembers_keys]
    exact h.1
  | .arr items, h => sortItems_ordered items h
  | .null, _ => trivial
  | .bool _, _ => trivial
  | .num _, _ => trivial
  | .str _, _ => trivial

lemma sortItems_ordered : ∀ vs : List Value, DistinctItems vs → OrderedItems (sortItems vs)
  | [], _ => trivial
  | v :: vs, h => ⟨sortKeys_ordered v h.1, sortItems_ordered vs h.2⟩

lemma sortMembers_ordered :
    ∀ ms : List (String × Value), DistinctMembers ms → OrderedMembers (sortMembers ms)
  | [], _ => trivial
  | (_, v) :: ms, h => ⟨sortKeys_ordered v h.1, sortMembers_ordered ms h.2⟩

end

mutual

lemma sortKeys_eq_self : ∀ v : Value, v.Ordered → v.sortKeys = v
  | .obj members, h => by
    rw [sortKeys, sortMembers_eq_self members h.2, byKey_eq_self h.1]
  | .arr items, h => by rw [sortKeys, sortItems_eq_self items h]
  | .null, _ => rfl
  | .bool _, _ => rfl
  | .num _, _ => rfl
  | .str _, _ => rfl

lemma sortItems_eq_self : ∀ vs : List Value, OrderedItems vs → sortItems vs = vs
  | [], _ => rfl
  | v :: vs, h => by rw [sortItems, sortKeys_eq_self v h.1, sortItems_eq_self vs h.2]

lemma sortMembers_eq_self : ∀ ms : List (String × Value), OrderedMembers ms → sortMembers ms = ms
  | [], _ => rfl
  | (k, v) :: ms, h => by rw [sortMembers, sortKeys_eq_self v h.1, sortMembers_eq_self ms h.2]

end

mutual

lemma same_sortKeys : ∀ v : Value, v.Distinct → Same v v.sortKeys
  | .obj members, h => by
    refine .trans (same_sortMembers [] members h.2) (.perm ?_ (byKey_perm _).symm)
    rw [nil_append, sortMembers_keys]
    exact h.1
  | .arr items, h => same_sortItems [] items h
  | .null, _ => .refl _
  | .bool _, _ => .refl _
  | .num _, _ => .refl _
  | .str _, _ => .refl _

lemma same_sortItems (before : List Value) :
    ∀ vs : List Value, DistinctItems vs → Same (.arr (before ++ vs)) (.arr (before ++ sortItems vs))
  | [], _ => .refl _
  | v :: vs, h => by
    refine .trans (.item before vs (same_sortKeys v h.1)) ?_
    have hrest := same_sortItems (before ++ [sortKeys v]) vs h.2
    rwa [append_assoc, append_assoc] at hrest

lemma same_sortMembers (before : List (String × Value)) :
    ∀ ms : List (String × Value), DistinctMembers ms →
      Same (.obj (before ++ ms)) (.obj (before ++ sortMembers ms))
  | [], _ => .refl _
  | (k, v) :: ms, h => by
    refine .trans (.member before ms (same_sortKeys v h.1)) ?_
    have hrest := same_sortMembers (before ++ [(k, sortKeys v)]) ms h.2
    rwa [append_assoc, append_assoc] at hrest

end

/-! ## Decoders -/

def Respects {α : Type} (d : Value → Option α) : Prop := ∀ v v', Same v v' → d v = d v'

def Alike (look look' : String → Option Value) : Prop :=
  ∀ k, look k = look' k ∨ ∃ v v', look k = some v ∧ look' k = some v' ∧ Same v v'

variable {α : Type} {d : Value → Option α}

lemma respects_of_atoms (hobj : ∀ ms, d (.obj ms) = none) (harr : ∀ vs, d (.arr vs) = none) :
    Respects d := by
  intro v v' h
  induction h with
  | refl v => rfl
  | trans _ _ ih₁ ih₂ => exact ih₁.trans ih₂
  | perm _ _ => rw [hobj, hobj]
  | member _ _ _ => rw [hobj, hobj]
  | item _ _ _ => rw [harr, harr]

def string? : Value → Option String
  | .str s => some s
  | _ => none

def number? {α : Type} (bound : ℕ) (make : ℕ → α) : Value → Option α
  | .num n => if 0 ≤ n ∧ n < bound then some (make n.toNat) else none
  | _ => none

def optional (d : Value → Option α) : Value → Option (Option α)
  | .null => some none
  | v => (d v).map some

def list (d : Value → Option α) : Value → Option (List α)
  | .arr items => items.mapM d
  | _ => none

def record (known : List String) (build : (String → Option Value) → Option α) : Value → Option α
  | .obj members =>
    if (∀ m ∈ members, m.1 ∈ known) ∧ (members.map Prod.fst).Nodup then build (members.lookup ·)
    else none
  | _ => none

def field (look : String → Option Value) (key : String) (d : Value → Option α) : Option α :=
  (look key).bind d

def fieldOr (look : String → Option Value) (key : String) (missing : α) (d : Value → Option α) : Option α :=
  (look key).elim (some missing) d

lemma string?_respects : Respects string? := respects_of_atoms (fun _ => rfl) fun _ => rfl

lemma number?_respects (bound : ℕ) (make : ℕ → α) : Respects (number? bound make) :=
  respects_of_atoms (fun _ => rfl) fun _ => rfl

lemma Same.null_iff {v v' : Value} (h : Same v v') : v = .null ↔ v' = .null := by
  induction h with
  | refl v => exact Iff.rfl
  | trans _ _ ih₁ ih₂ => exact ih₁.trans ih₂
  | perm _ _ => simp
  | member _ _ _ => simp
  | item _ _ _ => simp

lemma optional_respects (hd : Respects d) : Respects (optional d) := by
  intro v v' h
  by_cases hv : v = .null
  · rw [hv, h.null_iff.mp hv]
  have hv' := mt h.null_iff.mpr hv
  have heq : ∀ u : Value, u ≠ .null → optional d u = (d u).map some := by
    intro u hu
    unfold optional
    split
    · exact absurd rfl hu
    · rfl
  rw [heq v hv, heq v' hv', hd v v' h]

lemma list_respects (hd : Respects d) : Respects (list d) := by
  intro v v' h
  induction h with
  | refl v => rfl
  | trans _ _ ih₁ ih₂ => exact ih₁.trans ih₂
  | perm _ _ => rfl
  | member _ _ _ => rfl
  | item vs vs' hsame _ => simp only [list, mapM_append, mapM_cons, hd _ _ hsame]

lemma field_alike {look look' : String → Option Value} (h : Alike look look') (hd : Respects d)
    (key : String) : field look key d = field look' key d := by
  unfold field
  rcases h key with heq | ⟨v, v', hv, hv', hsame⟩
  · rw [heq]
  · rw [hv, hv']
    exact hd v v' hsame

lemma fieldOr_alike {look look' : String → Option Value} (h : Alike look look') (hd : Respects d)
    (key : String) (missing : α) : fieldOr look key missing d = fieldOr look' key missing d := by
  unfold fieldOr
  rcases h key with heq | ⟨v, v', hv, hv', hsame⟩
  · rw [heq]
  · rw [hv, hv']
    exact hd v v' hsame

@[simp] lemma field_here (k : String) (v : Value) (ms : List (String × Value)) :
    field (((k, v) :: ms).lookup ·) k d = d v := by
  simp [field]

@[simp] lemma field_there {k' : String} (h : k ≠ k') (v : Value) (ms : List (String × Value)) :
    field (((k', v) :: ms).lookup ·) k d = field (ms.lookup ·) k d := by
  have hk : (k == k') = false := by simpa using h
  simp [field, lookup_cons, hk]

@[simp] lemma fieldOr_here (k : String) (v : Value) (ms : List (String × Value)) (missing : α) :
    fieldOr (((k, v) :: ms).lookup ·) k missing d = d v := by
  simp [fieldOr]

@[simp] lemma fieldOr_there {k' : String} (h : k ≠ k') (v : Value) (ms : List (String × Value))
    (missing : α) : fieldOr (((k', v) :: ms).lookup ·) k missing d = fieldOr (ms.lookup ·) k missing d := by
  have hk : (k == k') = false := by simpa using h
  simp [fieldOr, lookup_cons, hk]

lemma lookup_eq_some {ms : List (String × α)} (h : (ms.map Prod.fst).Nodup) (k : String) (v : α) :
    ms.lookup k = some v ↔ (k, v) ∈ ms := by
  induction ms with
  | nil => simp
  | cons m ms ih =>
  obtain ⟨k', v'⟩ := m
  rw [map_cons, nodup_cons] at h
  rw [lookup_cons, mem_cons, Prod.mk.injEq]
  by_cases hk : k = k'
  · subst hk
    have hmem : (k, v) ∉ ms := fun hmem => h.1 (List.mem_map.mpr ⟨(k, v), hmem, rfl⟩)
    simp [hmem, eq_comm]
  · have hne : (k == k') = false := by simpa using hk
    rw [hne]
    simp [hk, ih h.2]

lemma lookup_perm {ms ms' : List (String × α)} (h : (ms.map Prod.fst).Nodup) (hperm : ms.Perm ms')
    (k : String) : ms.lookup k = ms'.lookup k := by
  have h' : (ms'.map Prod.fst).Nodup := ((hperm.map _).nodup_iff).mp h
  ext v
  rw [lookup_eq_some h, lookup_eq_some h', hperm.mem_iff]

lemma lookup_alike {v v' : Value} (ms ms' : List (String × Value)) (h : Same v v') :
    Alike ((ms ++ (k, v) :: ms').lookup ·) ((ms ++ (k, v') :: ms').lookup ·) := by
  intro key
  induction ms with
  | nil =>
    simp only [nil_append, lookup_cons]
    by_cases hk : key == k
    · rw [hk]
      exact .inr ⟨v, v', rfl, rfl, h⟩
    · rw [Bool.not_eq_true] at hk
      rw [hk]
      exact .inl rfl
  | cons m ms ih =>
  obtain ⟨k', u⟩ := m
  simp only [cons_append, lookup_cons]
  cases key == k' with
  | true => exact .inl rfl
  | false => exact ih

lemma record_respects {known : List String} {build : (String → Option Value) → Option α}
    (hbuild : ∀ look look', Alike look look' → build look = build look') :
    Respects (record known build) := by
  intro v v' h
  induction h with
  | refl v => rfl
  | trans _ _ ih₁ ih₂ => exact ih₁.trans ih₂
  | perm hkeys hperm =>
    have hkeys' := ((hperm.map Prod.fst).nodup_iff).mp hkeys
    have hlookup := funext (lookup_perm hkeys hperm)
    simp only [record, hkeys, hkeys', and_true, hperm.mem_iff]
    rw [hlookup]
  | @member k _ _ ms ms' hsame _ =>
    have halike := hbuild _ _ (lookup_alike (k := k) ms ms' hsame)
    simp only [record, map_append, map_cons, mem_append, mem_cons, or_imp,
      forall_and, forall_eq, halike]
  | item _ _ _ => rfl

end Value

/-! ## Maps -/

@[ext] structure OrderedMap (α : Type) where
  entries : List (String × α)
  ordered : entries.Pairwise fun a b => a.1 < b.1

open Value

namespace OrderedMap

variable {α : Type}

def lastWins : List (String × α) → List (String × α)
  | [] => []
  | m :: ms => if m.1 ∈ ms.map Prod.fst then lastWins ms else m :: lastWins ms

lemma mem_of_mem_lastWins {m : String × α} (ms : List (String × α)) (h : m ∈ lastWins ms) : m ∈ ms := by
  induction ms with
  | nil => exact h
  | cons m' ms ih =>
  rw [lastWins] at h
  split_ifs at h
  · exact .tail _ (ih h)
  · rcases mem_cons.mp h with rfl | h
    · exact .head _
    · exact .tail _ (ih h)

lemma lastWins_nodup (ms : List (String × α)) : ((lastWins ms).map Prod.fst).Nodup := by
  induction ms with
  | nil => exact nodup_nil
  | cons m ms ih =>
  rw [lastWins]
  split_ifs with hm
  · exact ih
  · refine nodup_cons.mpr ⟨fun hmem => hm ?_, ih⟩
    obtain ⟨m', hm', heq⟩ := List.mem_map.mp hmem
    exact List.mem_map.mpr ⟨m', mem_of_mem_lastWins ms hm', heq⟩

lemma lastWins_eq_self {ms : List (String × α)} (h : (ms.map Prod.fst).Nodup) : lastWins ms = ms := by
  induction ms with
  | nil => rfl
  | cons m ms ih =>
    rw [map_cons, nodup_cons] at h
    rw [lastWins, if_neg h.1, ih h.2]

def ofList (ms : List (String × α)) : OrderedMap α :=
  ⟨Value.byKey (lastWins ms), Value.byKey_pairwise (lastWins_nodup ms)⟩

lemma nodup (m : OrderedMap α) : (m.entries.map Prod.fst).Nodup :=
  pairwise_map.mpr (m.ordered.imp fun hlt => ne_of_lt hlt)

lemma ofList_entries (m : OrderedMap α) : ofList m.entries = m := by
  ext1
  change byKey (lastWins m.entries) = m.entries
  rw [lastWins_eq_self m.nodup, byKey_eq_self m.ordered]

lemma ofList_perm {ms ms' : List (String × α)} (h : (ms.map Prod.fst).Nodup) (hperm : ms.Perm ms') :
    ofList ms = ofList ms' := by
  have h' := ((hperm.map Prod.fst).nodup_iff).mp h
  have hasymm : ∀ a b : String × α, a ∈ (ofList ms).entries → b ∈ (ofList ms').entries →
      a.1 < b.1 → b.1 < a.1 → a = b := fun a b _ _ hab hba => absurd hab (lt_asymm hba)
  have hentries : (ofList ms).entries.Perm (ofList ms').entries := by
    change (byKey (lastWins ms)).Perm (byKey (lastWins ms'))
    rw [lastWins_eq_self h, lastWins_eq_self h']
    exact (byKey_perm ms).trans (hperm.trans (byKey_perm ms').symm)
  ext1
  exact hentries.eq_of_pairwise hasymm (ofList ms).ordered (ofList ms').ordered

def decode (d : Value → Option α) : Value → Option (OrderedMap α)
  | .obj members => (members.mapM fun m => (d m.2).map (m.1, ·)).map ofList
  | _ => none

variable {d : Value → Option α}

lemma mapM_keys (ms : List (String × Value)) {es : List (String × α)}
    (h : (ms.mapM fun m => (d m.2).map (m.1, ·)) = some es) : es.map Prod.fst = ms.map Prod.fst := by
  induction ms generalizing es with
  | nil =>
    cases h
    rfl
  | cons m ms ih =>
  simp only [mapM_cons, bind_eq_bind, bind_eq_some_iff, map_eq_some_iff] at h
  obtain ⟨e, ⟨a, -, rfl⟩, es', hes', hes⟩ := h
  cases hes
  rw [map_cons, map_cons, ih hes']

lemma mapM_perm {β : Type} {f : β → Option α} {l l' : List β} (h : l.Perm l') {es : List α}
    (hl : l.mapM f = some es) : ∃ es', l'.mapM f = some es' ∧ es.Perm es' := by
  induction h generalizing es with
  | nil => exact ⟨es, hl, .refl _⟩
  | cons x _ ih =>
    simp only [mapM_cons, bind_eq_bind, bind_eq_some_iff] at hl ⊢
    obtain ⟨e, he, es₁, hes₁, hes⟩ := hl
    cases hes
    obtain ⟨es₂, hes₂, hperm⟩ := ih hes₁
    exact ⟨e :: es₂, ⟨e, he, es₂, hes₂, rfl⟩, hperm.cons e⟩
  | swap x y l =>
    simp only [mapM_cons, bind_eq_bind, bind_eq_some_iff] at hl ⊢
    obtain ⟨a, ha, es₁, ⟨b, hb, es₂, hes₂, hes₁⟩, hes⟩ := hl
    cases hes₁
    cases hes
    exact ⟨b :: a :: es₂, ⟨b, hb, a :: es₂, ⟨a, ha, es₂, hes₂, rfl⟩, rfl⟩, .swap ..⟩
  | trans _ _ ih₁ ih₂ =>
    obtain ⟨es₁, hes₁, hperm₁⟩ := ih₁ hl
    obtain ⟨es₂, hes₂, hperm₂⟩ := ih₂ hes₁
    exact ⟨es₂, hes₂, hperm₁.trans hperm₂⟩

lemma decode_respects (hd : Value.Respects d) : Value.Respects (decode d) := by
  intro v v' h
  induction h with
  | refl v => rfl
  | trans _ _ ih₁ ih₂ => exact ih₁.trans ih₂
  | @perm ms ms' hkeys hperm =>
    simp only [decode]
    cases hms : ms.mapM fun m => (d m.2).map (m.1, ·) with
    | none =>
      cases hms' : ms'.mapM fun m => (d m.2).map (m.1, ·) with
      | none => rw [map_none]
      | some es' =>
        obtain ⟨es, hes, -⟩ := mapM_perm hperm.symm hms'
        cases hms.symm.trans hes
    | some es =>
    obtain ⟨es', hes', heq⟩ := mapM_perm hperm hms
    rw [hes', map_some, map_some, ofList_perm _ heq]
    rw [mapM_keys ms hms]
    exact hkeys
  | member ms ms' hsame _ =>
    simp only [decode, mapM_append, mapM_cons, hd _ _ hsame]
  | item _ _ _ => rfl

def encode (e : α → Value) (m : OrderedMap α) : Value := .obj (m.entries.map fun p => (p.1, e p.2))

lemma decode_encode {e : α → Value} (h : ∀ a, d (e a) = some a)
    (m : OrderedMap α) : decode d (m.encode e) = some m := by
  have hentries : (m.entries.map fun p => (p.1, e p.2)).mapM (fun q => (d q.2).map (q.1, ·)) =
      some m.entries := by
    induction m.entries with
    | nil => rfl
    | cons p ps ih => simp [ih, h]
  rw [encode, decode, hentries, map_some, ofList_entries]

end OrderedMap

end Husker.Relational.Json
