import Mathlib.Tactic

/-! # Pathname expansion

What a shell makes of an unquoted word that is not split: the existing paths it matches if it is a
pattern and matches any, and otherwise the word itself.
-/
namespace Husker.Relational.Glob
open List

abbrev Name := List (List UInt8)

/-! ## Patterns -/

inductive Item where
  | range (low high : UInt8)
  /-- A named class, such as `alpha`. -/
  | named (name : List UInt8)

inductive Atom where
  | byte (b : UInt8)
  | any
  | star
  | set (negated : Bool) (items : List Item)

def within (b : UInt8) (low high : Char) : Bool := low.toNat ≤ b.toNat && b.toNat ≤ high.toNat

def classes : List (String × (UInt8 → Bool)) :=
  [("digit", fun b => within b '0' '9'), ("lower", fun b => within b 'a' 'z'),
    ("upper", fun b => within b 'A' 'Z'), ("alpha", fun b => within b 'a' 'z' || within b 'A' 'Z'),
    ("alnum", fun b => within b 'a' 'z' || within b 'A' 'Z' || within b '0' '9'),
    ("space", fun b => b = 32 || within b '\t' '\r'), ("blank", fun b => b = 32 || b = 9)]

def Item.accepts (b : UInt8) : Item → Bool
  | .range low high => low ≤ b && b ≤ high
  | .named name =>
    classes.any fun entry => entry.1.toList.map (fun c => c.toNat.toUInt8) = name && entry.2 b

def Atom.accepts (b : UInt8) : Atom → Bool
  | .byte b' => b = b'
  | .any => true
  | .star => true
  | .set negated items => (items.any (Item.accepts b)) != negated

/-- The name of a class and what follows its `:]`. -/
def className : List UInt8 → Option (List UInt8 × List UInt8)
  | 58 :: 93 :: rest => some ([], rest)
  | b :: rest => (className rest).map fun found => (b :: found.1, found.2)
  | [] => none

/-- The items up to the closing bracket; one that comes first stands for itself. -/
def items : ℕ → Bool → List UInt8 → Option (List Item × List UInt8)
  | 0, _, _ => none
  | fuel + 1, first, text =>
    let more (item : Item) (rest : List UInt8) :=
      (items fuel false rest).map fun found => (item :: found.1, found.2)
    match text with
    | [] => none
    | 91 :: 58 :: rest =>
      match className rest with
      | some (name, rest) => more (.named name) rest
      | none => more (.range 91 91) (58 :: rest)
    | b :: rest =>
      if b = 93 ∧ ¬ first then some ([], rest)
      else match rest with
        | 45 :: high :: rest' =>
          if high = 93 then more (.range b b) rest else more (.range b high) rest'
        | _ => more (.range b b) rest

/-- A bracket expression after its `[`. -/
def bracket (text : List UInt8) : Option (Atom × List UInt8) :=
  match text with
  | 33 :: rest => (items rest.length.succ true rest).map fun found => (.set true found.1, found.2)
  | _ => (items text.length.succ true text).map fun found => (.set false found.1, found.2)

/-- The atoms of a component; a bracket that is not closed stands for itself. -/
def parse : ℕ → List UInt8 → List Atom
  | 0, _ => []
  | _, [] => []
  | fuel + 1, 42 :: rest => .star :: parse fuel rest
  | fuel + 1, 63 :: rest => .any :: parse fuel rest
  | fuel + 1, 92 :: b :: rest => .byte b :: parse fuel rest
  | fuel + 1, 91 :: rest =>
    match bracket rest with
    | some (atom, rest) => atom :: parse fuel rest
    | none => .byte 91 :: parse fuel rest
  | fuel + 1, b :: rest => .byte b :: parse fuel rest

def matchAtoms : List Atom → List UInt8 → Bool
  | [], text => text.isEmpty
  | .star :: atoms, text => text.tails.any (matchAtoms atoms)
  | atom :: atoms, text =>
    match text with
    | [] => false
    | b :: rest => atom.accepts b && matchAtoms atoms rest

def matchComponent (pattern text : List UInt8) : Bool :=
  matchAtoms (parse pattern.length pattern) text && (text.head? ≠ some 46 || pattern.head? = some 46)

/-! ## Words -/

def patterned (word : Name) : Bool := word.any fun part => part.any (· ∈ [42, 63, 91])

def matchName (word name : Name) : Bool :=
  word.length = name.length && (word.zip name).all fun pair => matchComponent pair.1 pair.2

def candidates (names : List Name) (word : Name) : List Name :=
  if patterned word then names.filter (matchName word) else []

def expand (names : List Name) (word : Name) : List Name :=
  if candidates names word = [] then [word] else candidates names word

def found (names : List Name) (word : Name) : List Name := (expand names word).filter (· ∈ names)

def Denotes (word name : Name) : Prop := patterned word = true ∧ matchName word name = true ∨ word = name

variable {names : List Name} {word name : Name}

lemma denotes_of_plain (h : patterned word = false) : Denotes word name ↔ name = word := by
  rw [Denotes, h]
  constructor
  · rintro (⟨hpattern, -⟩ | rfl)
    · cases hpattern
    · rfl
  · rintro rfl
    exact .inr rfl

lemma mem_candidates : name ∈ candidates names word ↔
    name ∈ names ∧ patterned word = true ∧ matchName word name = true := by
  unfold candidates
  split_ifs with h
  · simp [h]
  · simp [h]

lemma denotes_of_mem_found (h : name ∈ found names word) : name ∈ names ∧ Denotes word name := by
  obtain ⟨hexpand, hname⟩ := mem_filter.mp h
  refine ⟨of_decide_eq_true hname, ?_⟩
  unfold expand at hexpand
  split_ifs at hexpand
  · exact .inr (mem_singleton.mp hexpand).symm
  · exact .inl (mem_candidates.mp hexpand).2

lemma found_ne_nil (hname : name ∈ names) (h : Denotes word name) : found names word ≠ [] := by
  obtain ⟨x, hx, hmem⟩ : ∃ x ∈ expand names word, x ∈ names := by
    unfold expand
    split_ifs with hnone
    · rcases h with hmatch | rfl
      · have hmem := mem_candidates.mpr ⟨hname, hmatch⟩
        simp [hnone] at hmem
      · exact ⟨_, mem_singleton_self _, hname⟩
    · obtain ⟨x, hx⟩ := exists_mem_of_ne_nil _ hnone
      exact ⟨x, hx, (mem_candidates.mp hx).1⟩
  exact ne_nil_of_mem (mem_filter.mpr ⟨hx, decide_eq_true hmem⟩)

lemma mem_found_of_unique (hname : name ∈ names) (h : Denotes word name)
    (hunique : ∀ x ∈ names, Denotes word x → x = name) : name ∈ found names word := by
  obtain ⟨x, hx⟩ := exists_mem_of_ne_nil _ (found_ne_nil hname h)
  obtain ⟨hmem, hdenotes⟩ := denotes_of_mem_found hx
  exact hunique x hmem hdenotes ▸ hx

end Husker.Relational.Glob
