import Mathlib.Tactic

/-! # Runs of a labelled machine

Safety over whole runs is derived from single steps: an invariant is a property every step
keeps, and a relation between two states of one run follows from a relation across each step.
-/
namespace Husker.Relational
open Option

structure Machine (σ α : Type) where
  step : σ → α → σ → Prop

namespace Machine

variable {σ α : Type} (M : Machine σ α)

/-- The calls `as`, one after another, lead from `s` to `s'`. -/
inductive Run : σ → List α → σ → Prop
  | nil (s : σ) : Run s [] s
  | cons {s s' s'' : σ} {a : α} {as : List α} : M.step s a s' → Run s' as s'' → Run s (a :: as) s''

variable {M} {s s' s'' : σ} {as : List α} {I : σ → Prop} {C : σ → α → Prop} {f : σ → α → Option σ}

lemma Run.append {bs : List α} (h : M.Run s as s') (h' : M.Run s' bs s'') :
    M.Run s (as ++ bs) s'' := by
  induction h with
  | nil s => exact h'
  | cons hs _ ih => exact .cons hs (ih h')

lemma Run.snoc {a : α} (h : M.Run s as s') (h' : M.step s' a s'') :
    M.Run s (as ++ [a]) s'' := h.append (.cons h' (.nil _))

lemma Run.split {bs : List α} (h : M.Run s (as ++ bs) s'') :
    ∃ s', M.Run s as s' ∧ M.Run s' bs s'' := by
  induction as generalizing s with
  | nil => exact ⟨s, .nil s, h⟩
  | cons a as ih =>
  cases h with
  | cons hs h =>
    obtain ⟨s', h₁, h₂⟩ := ih h
    exact ⟨s', .cons hs h₁, h₂⟩

lemma Run.invariant (h : M.Run s as s') (h₀ : I s)
    (hstep : ∀ s a s', I s → M.step s a s' → I s') : I s' := by
  induction h with
  | nil s => exact h₀
  | cons hs _ ih => exact ih (hstep _ _ _ h₀ hs)

lemma Run.history {I : List α → σ → Prop} {s₀ : σ} (h : M.Run s₀ as s) (h₀ : I [] s₀)
    (hstep : ∀ as s a s', M.Run s₀ as s → I as s → M.step s a s' → I (as ++ [a]) s') : I as s := by
  induction as using List.reverseRecOn generalizing s with
  | nil =>
    cases h
    exact h₀
  | append_singleton as a ih =>
  obtain ⟨s₁, hrun, hlast⟩ := h.split
  cases hlast with
  | cons ha hnil =>
    cases hnil
    exact hstep as s₁ a s hrun (ih hrun) ha

lemma Run.relates {R : σ → σ → Prop} (h : M.Run s as s') (h₀ : I s)
    (hinv : ∀ s a s', I s → M.step s a s' → I s')
    (hrefl : ∀ s, R s s) (htrans : ∀ a b c, R a b → R b c → R a c)
    (hstep : ∀ s a s', I s → M.step s a s' → R s s') : R s s' := by
  induction h with
  | nil s => exact hrefl s
  | cons hs _ ih =>
    exact htrans _ _ _ (hstep _ _ _ h₀ hs) (ih (hinv _ _ _ h₀ hs))

/-- Follow rows by a key that is never used again: a row found later under a key in use is
related to the row that had the key before. -/
lemma Run.tracks {ρ κ : Type} {P : σ → ρ → Prop} {U : σ → κ → Prop}
    {key : ρ → κ} {R : ρ → ρ → Prop} (h : M.Run s as s') (h₀ : I s)
    (hinv : ∀ s a s', I s → M.step s a s' → I s') (hrefl : ∀ r, R r r)
    (htrans : ∀ a b c, R a b → R b c → R a c)
    (hused : ∀ s a s', M.step s a s' → ∀ k, U s k → U s' k)
    (hstep : ∀ s a s', I s → M.step s a s' → ∀ r', P s' r' →
      (∃ r, P s r ∧ key r' = key r ∧ R r r') ∨ ¬U s (key r')) :
    ∀ r', P s' r' → U s (key r') → ∃ r, P s r ∧ key r' = key r ∧ R r r' := by
  induction h with
  | nil s => exact fun r' hr' _ => ⟨r', hr', rfl, hrefl r'⟩
  | cons hs _ ih =>
  intro r' hr' hkey
  obtain ⟨r₁, hr₁, hkey₁, hR₁⟩ := ih (hinv _ _ _ h₀ hs) r' hr' (hused _ _ _ hs _ hkey)
  rcases hstep _ _ _ h₀ hs r₁ hr₁ with ⟨r, hr, hkey', hR⟩ | hfresh
  · exact ⟨r, hr, hkey₁.trans hkey', htrans _ _ _ hR hR₁⟩
  · exact absurd (hkey₁ ▸ hkey) hfresh

/-- Somewhere in the run from `s` a step with this property was taken. -/
def Visits (M : Machine σ α) (s : σ) (as : List α) (P : σ → α → σ → Prop) : Prop :=
  ∃ as₁ a as₂ s₁ s₂, as = as₁ ++ a :: as₂ ∧ M.Run s as₁ s₁ ∧ M.step s₁ a s₂ ∧ P s₁ a s₂

lemma Visits.append {P : σ → α → σ → Prop} (h : M.Visits s as P)
    (bs : List α) : M.Visits s (as ++ bs) P := by
  obtain ⟨as₁, a, as₂, s₁, s₂, rfl, hrun, hstep, hP⟩ := h
  exact ⟨as₁, a, as₂ ++ bs, s₁, s₂, by simp, hrun, hstep, hP⟩

lemma Run.visits {s₁ s₂ : σ} {a : α} {P : σ → α → σ → Prop} (h : M.Run s as s₁)
    (hstep : M.step s₁ a s₂) (hP : P s₁ a s₂) : M.Visits s (as ++ [a]) P :=
  ⟨as, a, [], s₁, s₂, rfl, h, hstep, hP⟩

/-! ## Machines given by a step function -/

def ofStep (f : σ → α → Option σ) : Machine σ α where
  step s a s' := f s a = some s'

def when (M : Machine σ α) (C : σ → α → Prop) : Machine σ α where
  step s a s' := M.step s a s' ∧ C s a

lemma Run.when_of_mem (h : M.Run s as s')
    (hC : ∀ s a, a ∈ as → C s a) : (M.when C).Run s as s' := by
  induction h with
  | nil s => exact .nil s
  | cons hs _ ih =>
    refine .cons ⟨hs, hC _ _ (.head _)⟩ (ih ?_)
    exact fun s a ha => hC s a (.tail _ ha)

lemma Run.weaken {C' : σ → α → Prop} (h : (M.when C).Run s as s') (h₀ : I s)
    (hstep : ∀ s a s', I s → (M.when C).step s a s' → I s' ∧ C' s a) : (M.when C').Run s as s' := by
  induction h with
  | nil s => exact .nil s
  | cons hs _ ih =>
    obtain ⟨hI, hC⟩ := hstep _ _ _ h₀ hs
    exact .cons ⟨hs.1, hC⟩ (ih hI)

lemma run_ofStep (h : as.foldlM f s = some s') : (ofStep f).Run s as s' := by
  induction as generalizing s with
  | nil =>
    cases h
    exact .nil _
  | cons a as ih =>
    rw [List.foldlM_cons, bind_eq_bind, bind_eq_some_iff] at h
    obtain ⟨next, hnext, h⟩ := h
    exact .cons hnext (ih h)

lemma exists_run_ofStep {P : σ → Prop} [DecidablePred P] (h : (as.foldlM f s).any fun s' => P s') :
    ∃ s', (ofStep f).Run s as s' ∧ P s' := by
  obtain ⟨s', hs', hP⟩ := (any_eq_true _ _).mp h
  exact ⟨s', run_ofStep hs', of_decide_eq_true hP⟩

lemma exists_run_when {P : σ → Prop} [DecidablePred P] (c : σ → α → Bool)
    (hc : ∀ s a, c s a = true → C s a)
    (h : (as.foldlM (fun s a => if c s a then f s a else none) s).any fun s' => P s') :
    ∃ s', ((ofStep f).when C).Run s as s' ∧ P s' := by
  obtain ⟨s', hs', hP⟩ := (any_eq_true _ _).mp h
  refine ⟨s', ?_, of_decide_eq_true hP⟩
  clear hP h
  induction as generalizing s with
  | nil =>
    cases hs'
    exact .nil _
  | cons a as ih =>
  rw [List.foldlM_cons, bind_eq_bind, bind_eq_some_iff] at hs'
  obtain ⟨next, hnext, hrest⟩ := hs'
  obtain ⟨htest, hnext⟩ := ite_none_right_eq_some.mp hnext
  exact .cons ⟨hnext, hc s a htest⟩ (ih hrest)

end Machine
end Husker.Relational
