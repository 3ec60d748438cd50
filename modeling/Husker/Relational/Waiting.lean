import Mathlib.Tactic

/-! # Callers that wait for each other

A caller waits for another when it asks for a lock the other holds.  If every caller takes its
locks along a relation without cycles, the callers do not wait in a cycle either.
-/
namespace Husker.Relational
open Relation

variable {τ κ : Type} {holds waits : τ → κ → Prop} {R E : κ → κ → Prop}

def Acyclic (R : κ → κ → Prop) : Prop := ∀ k, ¬TransGen R k k

namespace Acyclic

lemma mono (h : Acyclic R) (hsub : ∀ k l, E k l → R k l) : Acyclic E :=
  fun k hk => h k (TransGen.mono hsub k k hk)

lemma of_rank (rank : κ → ℕ) (hE : Acyclic E)
    (h : ∀ k l, R k l → rank k < rank l ∨ rank k = rank l ∧ E k l) : Acyclic R := by
  have hchain : ∀ k l, TransGen R k l → rank k < rank l ∨ rank k = rank l ∧ TransGen E k l := by
    intro k l hkl
    induction hkl with
    | single hstep =>
      rcases h _ _ hstep with hlt | ⟨heq, hE⟩
      · exact .inl hlt
      · exact .inr ⟨heq, .single hE⟩
    | tail _ hstep ih =>
    rcases ih with hlt | ⟨heq, hkm⟩ <;> rcases h _ _ hstep with hlt' | ⟨heq', hml⟩
    · exact .inl (hlt.trans hlt')
    · exact .inl (heq' ▸ hlt)
    · exact .inl (heq ▸ hlt')
    · exact .inr ⟨heq.trans heq', hkm.tail hml⟩
  intro k hk
  rcases hchain k k hk with hlt | ⟨-, hE'⟩
  · exact lt_irrefl _ hlt
  · exact hE k hE'

lemma insert (h : Acyclic R) {a b : κ} (hback : ¬ReflTransGen R b a) :
    Acyclic fun k l => R k l ∨ k = a ∧ l = b := by
  -- A chain in the larger relation is one in the smaller or passes the new edge.
  have hchain : ∀ k l, TransGen (fun k l => R k l ∨ k = a ∧ l = b) k l →
      TransGen R k l ∨ ReflTransGen R k a ∧ ReflTransGen R b l := by
    intro k l hkl
    induction hkl with
    | single hstep =>
      rcases hstep with hstep | ⟨rfl, rfl⟩
      · exact .inl (.single hstep)
      · exact .inr ⟨.refl, .refl⟩
    | tail _ hstep ih =>
    rcases hstep with hstep | ⟨rfl, rfl⟩
    · rcases ih with hkm | ⟨hka, hbm⟩
      · exact .inl (hkm.tail hstep)
      · exact .inr ⟨hka, hbm.tail hstep⟩
    · rcases ih with hkm | ⟨-, hbm⟩
      · exact .inr ⟨hkm.to_reflTransGen, .refl⟩
      · exact absurd hbm hback
  intro k hk
  rcases hchain k k hk with hkk | ⟨hka, hbk⟩
  · exact h k hkk
  · exact hback (hbk.trans hka)

end Acyclic

def WaitsFor (holds waits : τ → κ → Prop) (t u : τ) : Prop := ∃ k, waits t k ∧ holds u k

def Deadlocked (holds waits : τ → κ → Prop) : Prop := ∃ t, TransGen (WaitsFor holds waits) t t

lemma not_deadlocked (hR : Acyclic R) (h : ∀ t k l, holds t k → waits t l → R k l) :
    ¬Deadlocked holds waits := by
  -- The lock at the end of a chain of waiting callers is that of its start or comes after it.
  have hchain : ∀ t u, TransGen (WaitsFor holds waits) t u →
      ∃ l k, waits t l ∧ holds u k ∧ ReflTransGen R l k := by
    intro t u htu
    induction htu with
    | single hstep =>
      obtain ⟨k, hwaits, hholds⟩ := hstep
      exact ⟨k, k, hwaits, hholds, .refl⟩
    | tail _ hstep ih =>
      obtain ⟨l, k, hwaits, hholds, hlk⟩ := ih
      obtain ⟨m, hwaits', hholds'⟩ := hstep
      exact ⟨l, m, hwaits, hholds', hlk.tail (h _ _ _ hholds hwaits')⟩
  rintro ⟨t, ht⟩
  obtain ⟨l, k, hwaits, hholds, hlk⟩ := hchain t t ht
  exact hR l (.tail' hlk (h t k l hholds hwaits))

end Husker.Relational
