import Mathlib.Tactic

/-! # Numbers from a counter and a free list

An allocator hands out numbers that were given back, or the next one of a counter that only
grows.  Whoever holds a number holds it alone, and the free list never offers a number that is
held.
-/
namespace Husker.Relational
open Finset Nat
/-- The numbers held, the numbers given back, and the first one never handed out. -/
@[ext] structure Pool where
  held : Multiset ℕ
  free : Finset ℕ
  next : ℕ

namespace Pool

/-- No number is held twice or both held and free, and all lie between `floor` and the counter. -/
structure Sound (floor : ℕ) (p : Pool) : Prop where
  nodup : p.held.Nodup
  disjoint : ∀ n ∈ p.held, n ∉ p.free
  range : ∀ n, n ∈ p.held ∨ n ∈ p.free → floor ≤ n ∧ n < p.next
  floor_le : floor ≤ p.next

inductive Step : Pool → Pool → Prop
  | same (p : Pool) : Step p p
  | reuse (p : Pool) (n : ℕ) (h : n ∈ p.free) : Step p ⟨n ::ₘ p.held, p.free.erase n, p.next⟩
  | extend (p : Pool) : Step p ⟨p.next ::ₘ p.held, p.free, p.next + 1⟩
  | giveBack (p : Pool) (n : ℕ) (h : n ∈ p.held) : Step p ⟨p.held.erase n, insert n p.free, p.next⟩
  | forget (p : Pool) (free : Finset ℕ) (next : ℕ) (hfree : free ⊆ p.free) (hnext : p.next ≤ next) :
      Step p ⟨p.held, free, next⟩

variable {floor : ℕ} {p q : Pool}

lemma Sound.empty (floor : ℕ) : Sound floor ⟨0, ∅, floor⟩ :=
  ⟨Multiset.nodup_zero, by simp, by simp, le_rfl⟩

lemma Step.sound (h : Step p q) (hp : Sound floor p) : Sound floor q := by
  cases h with
  | same => exact hp
  | reuse n hfree =>
    have hheld : n ∉ p.held := fun hn => hp.disjoint n hn hfree
    refine ⟨Multiset.nodup_cons.mpr ⟨hheld, hp.nodup⟩, fun m hm => ?_, fun m hm => ?_, hp.floor_le⟩
    · rcases Multiset.mem_cons.mp hm with rfl | hm
      · exact notMem_erase m p.free
      · exact fun hmem => hp.disjoint m hm (mem_of_mem_erase hmem)
    · rcases hm with hm | hm
      · rcases Multiset.mem_cons.mp hm with rfl | hm
        · exact hp.range m (.inr hfree)
        · exact hp.range m (.inl hm)
      · exact hp.range m (.inr (mem_of_mem_erase hm))
  | extend =>
    have hnext : ∀ n, n ∈ p.held ∨ n ∈ p.free → n ≠ p.next := fun n hn => (hp.range n hn).2.ne
    refine ⟨Multiset.nodup_cons.mpr ⟨fun hn => hnext _ (.inl hn) rfl, hp.nodup⟩, fun m hm => ?_,
      fun m hm => ?_, hp.floor_le.trans (le_succ _)⟩
    · rcases Multiset.mem_cons.mp hm with rfl | hm
      · exact fun hmem => hnext _ (.inr hmem) rfl
      · exact hp.disjoint m hm
    have hold (hm : m ∈ p.held ∨ m ∈ p.free) : floor ≤ m ∧ m < p.next + 1 :=
      ⟨(hp.range m hm).1, lt_succ_of_lt (hp.range m hm).2⟩
    rcases hm with hm | hm
    · rcases Multiset.mem_cons.mp hm with rfl | hm
      · exact ⟨hp.floor_le, lt_succ_self _⟩
      · exact hold (.inl hm)
    · exact hold (.inr hm)
  | giveBack n hheld =>
    refine ⟨hp.nodup.erase n, fun m hm => ?_, fun m hm => ?_, hp.floor_le⟩
    · obtain ⟨hne, hm⟩ := (hp.nodup.mem_erase_iff).mp hm
      rw [mem_insert, not_or]
      exact ⟨hne, hp.disjoint m hm⟩
    · rcases hm with hm | hm
      · exact hp.range m (.inl (Multiset.mem_of_mem_erase hm))
      · rcases mem_insert.mp hm with rfl | hm
        · exact hp.range m (.inl hheld)
        · exact hp.range m (.inr hm)
  | forget free next hfree hnext =>
    refine ⟨hp.nodup, fun m hm hmem => hp.disjoint m hm (hfree hmem), fun m hm => ?_,
      hp.floor_le.trans hnext⟩
    have hm := hp.range m (hm.imp_right fun h => hfree h)
    exact ⟨hm.1, hm.2.trans_le hnext⟩

lemma Step.next_le (h : Step p q) : p.next ≤ q.next := by
  cases h with
  | same | reuse | giveBack => exact le_rfl
  | extend => exact le_succ _
  | forget _ _ _ hnext => exact hnext

end Pool
end Husker.Relational
