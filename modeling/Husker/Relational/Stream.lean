import Mathlib.Tactic

/-! # Streams that deliver bytes in pieces

A read gets at least one byte while there are any, and how many more is not up to the reader.
-/
namespace Husker.Relational
open List

structure Stream (α : Type) where
  bytes : List α
  grants : ℕ → ℕ

namespace Stream

variable {α : Type}

def read (s : Stream α) (n : ℕ) : List α × Stream α :=
  let size := min n (max 1 (s.grants 0))
  (s.bytes.take size, ⟨s.bytes.drop size, fun i => s.grants (i + 1)⟩)

def readLoop : ℕ → ℕ → Stream α → Option (List α) × Stream α
  | 0, _, s => (some [], s)
  | fuel + 1, n, s =>
    if n = 0 then (some [], s)
    else
      match s.read n with
      | ([], s) => (none, s)
      | (piece, s) =>
        let (rest, s) := readLoop fuel (n - piece.length) s
        (rest.map (piece ++ ·), s)

def readExact (n : ℕ) (s : Stream α) : Option (List α) × Stream α := readLoop n n s

lemma readLoop_spec (fuel n : ℕ) (s : Stream α) (hfuel : n ≤ fuel) :
    (readLoop fuel n s).1 = (if n ≤ s.bytes.length then some (s.bytes.take n) else none) ∧
      (readLoop fuel n s).2.bytes = s.bytes.drop n := by
  induction fuel generalizing n s with
  | zero =>
    obtain rfl : n = 0 := by omega
    simp [readLoop]
  | succ fuel ih =>
  by_cases hn : n = 0
  · simp [readLoop, hn]
  rw [readLoop, if_neg hn, read]
  set size := min n (max 1 (s.grants 0)) with hsize
  have hpos : 1 ≤ size := by omega
  have hle : size ≤ n := by omega
  cases hpiece : s.bytes.take size with
  | nil =>
    have hempty : s.bytes = [] := by
      rcases take_eq_nil_iff.mp hpiece with h | h
      · omega
      · exact h
    simp [hempty, hn]
  | cons b piece =>
  have hlength : (b :: piece).length = min size s.bytes.length := by
    rw [← hpiece, length_take]
  obtain ⟨hrest, hleft⟩ := ih (n - (b :: piece).length)
    ⟨s.bytes.drop size, fun i => s.grants (i + 1)⟩ (by simp only [length_cons]; omega)
  simp only [hrest, hleft, length_drop, drop_drop]
  by_cases hshort : s.bytes.length < size
  · have hall : (b :: piece).length = s.bytes.length := by omega
    rw [if_neg (by omega), if_neg (by omega)]
    constructor
    · rfl
    · rw [drop_eq_nil_of_le (by omega), drop_eq_nil_of_le (by omega)]
  have hall : (b :: piece).length = size := by omega
  rw [hall, show size + (n - size) = n by omega]
  refine ⟨?_, rfl⟩
  by_cases henough : n ≤ s.bytes.length
  · rw [if_pos (by omega), if_pos henough, Option.map_some, ← hpiece, ← take_add,
      show size + (n - size) = n by omega]
  · rw [if_neg (by omega), if_neg henough, Option.map_none]

lemma readExact_spec (n : ℕ) (s : Stream α) :
    (readExact n s).1 = (if n ≤ s.bytes.length then some (s.bytes.take n) else none) ∧
      (readExact n s).2.bytes = s.bytes.drop n :=
  readLoop_spec n n s le_rfl

lemma readExact_append {n : ℕ} {s : Stream α} {front rest : List α}
    (hbytes : s.bytes = front ++ rest) (hn : front.length = n) :
    ∃ s', readExact n s = (some front, s') ∧ s'.bytes = rest := by
  obtain ⟨hread, hleft⟩ := readExact_spec n s
  refine ⟨(readExact n s).2, Prod.ext ?_ rfl, ?_⟩
  · rw [hread, hbytes, if_pos (by simp [hn])]
    simp [← hn]
  · rw [hleft, hbytes]
    simp [← hn]

lemma readExact_short {n : ℕ} {s : Stream α} (hshort : s.bytes.length < n) :
    ∃ s', readExact n s = (none, s') ∧ s'.bytes = [] := by
  obtain ⟨hread, hleft⟩ := readExact_spec n s
  refine ⟨(readExact n s).2, Prod.ext ?_ rfl, ?_⟩
  · rw [hread, if_neg (by omega)]
  · rw [hleft, drop_eq_nil_of_le (by omega)]

end Stream

/-! ## Reports -/

inductive Piece (α : Type) where
  | data (xs : List α)
  | gap (n : ℕ)
  | restart
  deriving DecidableEq

variable {α : Type}

/-- The pieces report the stream from one position to another: data where it is, and gaps by length. -/
def Covers (stream : List α) : ℕ → List (Piece α) → ℕ → Prop
  | p, [], q => p = q
  | p, .data xs :: pieces, q => xs <+: stream.drop p ∧ Covers stream (p + xs.length) pieces q
  | p, .gap n :: pieces, q => 0 < n ∧ Covers stream (p + n) pieces q
  | _, .restart :: _, _ => False

variable {stream : List α} {p : ℕ}

lemma covers_append {r : ℕ} {xs ys : List (Piece α)} :
    Covers stream p (xs ++ ys) r ↔ ∃ q, Covers stream p xs q ∧ Covers stream q ys r := by
  induction xs generalizing p with
  | nil => simp [Covers]
  | cons x xs ih => cases x <;> simp [Covers, ih, and_assoc]

lemma Covers.more {q : ℕ} {pieces : List (Piece α)}
    (h : Covers stream p pieces q) (more : List α) : Covers (stream ++ more) p pieces q := by
  induction pieces generalizing p with
  | nil => exact h
  | cons piece pieces ih =>
  cases piece with
  | data xs =>
    refine ⟨h.1.trans ?_, ih h.2⟩
    rw [drop_append]
    exact prefix_append _ _
  | gap n => exact ⟨h.1, ih h.2⟩
  | restart => exact h

lemma Covers.not_restart {q : ℕ} {pieces : List (Piece α)}
    (h : Covers stream p pieces q) : Piece.restart ∉ pieces := by
  induction pieces generalizing p with
  | nil => simp
  | cons piece pieces ih =>
  cases piece with
  | data xs => simpa using ih h.2
  | gap n => simpa using ih h.2
  | restart => exact h.elim

end Husker.Relational
