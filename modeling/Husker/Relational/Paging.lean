import Mathlib.Tactic

/-! # Reading a growing log by cursor

A log is ordered by a key and grows at its end.  A reader that has everything up to its cursor
still has it when the log grows, and has everything up to the last key of the next page.
-/
namespace Husker.Relational
open List

variable {α κ : Type} [LinearOrder κ] (key : α → κ)

def Ordered (log : List α) : Prop := log.Pairwise fun a b => key a < key b

def upTo (n : κ) (log : List α) : List α := log.filter fun a => key a ≤ n

def beyond (n : κ) (log : List α) : List α := log.filter fun a => n < key a

variable {key} {log later page : List α} {n : κ} {x : α}

lemma upTo_eq_self (h : ∀ a ∈ log, key a ≤ n) : upTo key n log = log := by
  apply filter_eq_self.mpr
  simpa using h

lemma upTo_eq_nil (h : ∀ a ∈ log, n < key a) : upTo key n log = [] := by
  apply filter_eq_nil_iff.mpr
  simpa using h

lemma upTo_append (h : ∀ a ∈ later, n < key a) : upTo key n (log ++ later) = upTo key n log := by
  rw [upTo, filter_append, ← upTo, ← upTo, upTo_eq_nil h, append_nil]

lemma upTo_append_beyond (h : Ordered key log) (n : κ) :
    upTo key n log ++ beyond key n log = log := by
  induction log with
  | nil => rfl
  | cons a log ih =>
  rw [Ordered, pairwise_cons] at h
  by_cases ha : key a ≤ n
  · rw [upTo, beyond, filter_cons_of_pos (by simpa using ha),
      filter_cons_of_neg (by simpa using ha), cons_append]
    exact congrArg _ (ih h.2)
  · have hlater : ∀ b ∈ log, n < key b := fun b hb => (not_le.mp ha).trans (h.1 b hb)
    rw [upTo_eq_nil (by simpa using ⟨not_le.mp ha, hlater⟩), nil_append]
    apply filter_eq_self.mpr
    simpa using ⟨not_le.mp ha, hlater⟩

lemma upTo_key (h : Ordered key (log ++ x :: later)) :
    upTo key (key x) (log ++ x :: later) = log ++ [x] := by
  rw [Ordered, pairwise_append, pairwise_cons] at h
  obtain ⟨-, ⟨hlater, -⟩, hearlier⟩ := h
  rw [append_cons, upTo_append hlater]
  apply upTo_eq_self
  intro a ha
  rcases mem_append.mp ha with ha | ha
  · exact (hearlier a ha x (.head _)).le
  · rw [mem_singleton.mp ha]

lemma upTo_page (h : Ordered key log) (hpage : page <+: beyond key n log)
    (hlast : page.getLast? = some x) : upTo key n log ++ page = upTo key (key x) log := by
  obtain ⟨rest, hrest⟩ := hpage
  obtain ⟨front, rfl⟩ := getLast?_eq_some_iff.mp hlast
  have hlog : (upTo key n log ++ front) ++ x :: rest = log := by
    calc (upTo key n log ++ front) ++ x :: rest
        = upTo key n log ++ ((front ++ [x]) ++ rest) := by simp
      _ = log := by rw [hrest, upTo_append_beyond h]
  generalize upTo key n log = read at hlog ⊢
  subst hlog
  rw [upTo_key h, append_assoc]

end Husker.Relational
