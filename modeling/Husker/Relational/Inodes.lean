import Mathlib.Tactic

/-! # Files behind names

A name stands for a numbered file and no two names for the same one.  A file that is open is written
through its number, whatever has become of its name.
-/
namespace Husker.Relational
open Function

structure Inodes (P α : Type) where
  name : P → Option ℕ
  data : ℕ → List α
  fresh : ℕ
  below : ∀ p i, name p = some i → i < fresh
  single : ∀ p q i, name p = some i → name q = some i → p = q

namespace Inodes

variable {P α : Type} [DecidableEq P] (d : Inodes P α)

def content (p : P) : Option (List α) := (d.name p).map d.data

def remove (p : P) : Inodes P α where
  name := Function.update d.name p none
  data := d.data
  fresh := d.fresh
  below q i h := by
    rw [Function.update_apply] at h
    split_ifs at h
    exact d.below q i h
  single q r i hq hr := by
    rw [Function.update_apply] at hq hr
    split_ifs at hq hr
    exact d.single q r i hq hr

def put (i : ℕ) (bytes : List α) : Inodes P α := { d with data := Function.update d.data i bytes }

def add (p : P) : Inodes P α where
  name := Function.update d.name p (some d.fresh)
  data := Function.update d.data d.fresh []
  fresh := d.fresh + 1
  below q i h := by
    rw [Function.update_apply] at h
    split_ifs at h
    · cases h
      omega
    · have := d.below q i h
      omega
  single q r i hq hr := by
    rw [Function.update_apply] at hq hr
    split_ifs at hq hr with hqp hrp hrp
    · rw [hqp, hrp]
    · cases hq
      exact absurd (d.below r _ hr) (lt_irrefl _)
    · cases hr
      exact absurd (d.below q _ hq) (lt_irrefl _)
    · exact d.single q r i hq hr

def create (p : P) : Inodes P α × ℕ :=
  match d.name p with
  | some i => (d.put i [], i)
  | none => (d.add p, d.fresh)

def rename (p q : P) : Option (Inodes P α) :=
  match h : d.name p with
  | none => none
  | some i => some
    { name := Function.update (Function.update d.name p none) q (some i)
      data := d.data
      fresh := d.fresh
      below := fun r j hr => by
        rw [Function.update_apply] at hr
        split_ifs at hr
        · cases hr
          exact d.below p i h
        · exact (d.remove p).below r j hr
      single := fun r r' j hr hr' => by
        have hgone : ∀ r, Function.update d.name p none r ≠ some i := by
          intro r hr
          rw [Function.update_apply] at hr
          split_ifs at hr with hrp
          exact hrp (d.single r p i hr h)
        rw [Function.update_apply] at hr hr'
        split_ifs at hr hr' with hrq hrq' hrq'
        · rw [hrq, hrq']
        · cases hr
          exact absurd hr' (hgone r')
        · cases hr'
          exact absurd hr (hgone r)
        · exact (d.remove p).single r r' j hr hr' }

/-- Bytes at a position of a file; a gap before them is filled. -/
def writeAt (fill : α) (pos : ℕ) (bytes old : List α) : List α :=
  let front := old.take pos
  front ++ List.replicate (pos - front.length) fill ++ bytes ++ old.drop (pos + bytes.length)

@[simp] lemma writeAt_length (fill : α) (bytes old : List α) :
    writeAt fill old.length bytes old = old ++ bytes := by
  simp [writeAt]

/-! ## What is found afterwards -/

variable {d} {p q : P} {i : ℕ}

lemma content_remove : (d.remove p).content = update d.content p none := by
  ext1 q
  by_cases h : q = p
  · subst h
    simp [content, remove]
  · simp [content, remove, h]

lemma content_put (h : d.name p = some i) (bytes : List α) :
    (d.put i bytes).content = update d.content p (some bytes) := by
  ext1 q
  by_cases hq : q = p
  · subst hq
    simp [content, put, h]
  rw [update_of_ne hq]
  unfold content put
  cases hname : d.name q with
  | none => rfl
  | some j =>
  have hne : j ≠ i := by
    rintro rfl
    exact hq (d.single q p j hname h)
  simp [update_of_ne hne]

lemma content_add : (d.add p).content = update d.content p (some []) := by
  ext1 q
  by_cases hq : q = p
  · subst hq
    simp [content, add]
  rw [update_of_ne hq]
  simp only [content, add, update_of_ne hq]
  cases hname : d.name q with
  | none => rfl
  | some j =>
    have hlt := d.below q j hname
    simp [update_of_ne (Nat.ne_of_lt hlt)]

lemma content_create : (d.create p).1.content = update d.content p (some []) := by
  unfold create
  split
  · exact content_put (by assumption) []
  · exact content_add

lemma name_create : (d.create p).1.name p = some (d.create p).2 := by
  unfold create
  split
  · assumption
  · simp [add]

lemma data_create : (d.create p).1.data (d.create p).2 = [] := by
  unfold create
  split
  · simp [put]
  · simp [add]

lemma content_rename {d' : Inodes P α} (h : d.rename p q = some d') :
    d'.content = update (update d.content p none) q (d.content p) := by
  unfold rename at h
  split at h
  · cases h
  rename_i i hi
  cases h
  ext1 r
  by_cases hq : r = q
  · subst hq
    simp [content, hi]
  · rw [update_of_ne hq, ← content_remove]
    simp [content, remove, update_of_ne hq]

lemma rename_isSome (h : d.content p ≠ none) : ∃ d', d.rename p q = some d' := by
  unfold rename
  split
  · rename_i hnone
    simp [content, hnone] at h
  · exact ⟨_, rfl⟩

end Inodes
end Husker.Relational
