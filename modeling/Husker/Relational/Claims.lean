import Mathlib.Tactic

/-! # Claims on a pool

Values are handed out of a pool to claimants, pass from one claimant to another and come back.
A value that matters is claimed once, and only while the pool has it in use.
-/
namespace Husker.Relational
open Function

variable {κ α : Type} {P : α → Prop} {claim claim' : κ → Option α} {used : Set α}

structure Exclusive (P : α → Prop) (claim : κ → Option α) (used : Set α) : Prop where
  used : ∀ {x a}, claim x = some a → P a → a ∈ used
  single : ∀ {x y a}, claim x = some a → claim y = some a → P a → x = y

variable {a : α} {x : κ}

namespace Exclusive

lemma shrink (h : Exclusive P claim used) (hsub : ∀ x, claim' x = claim x ∨ claim' x = none) :
    Exclusive P claim' used := by
  have hback : ∀ {x a}, claim' x = some a → claim x = some a := by
    intro x a hx
    rcases hsub x with hsame | hnone
    · exact hsame.symm.trans hx
    · cases hnone.symm.trans hx
  exact ⟨fun hx => h.used (hback hx), fun hx hy => h.single (hback hx) (hback hy)⟩

lemma forget (h : Exclusive P claim used) (hfree : ∀ x, claim x ≠ some a) :
    Exclusive P claim (used \ {a}) where
  used := by
    intro x b hx hP
    refine ⟨h.used hx hP, ?_⟩
    rintro rfl
    exact hfree x hx
  single := h.single

variable [DecidableEq κ]

section
variable (h : Exclusive P claim used)
include h

lemma drop (x : κ) : Exclusive P (update claim x none) used := by
  apply h.shrink
  intro y
  by_cases hy : y = x
  · exact .inr (by simp [hy])
  · exact .inl (update_of_ne hy _ _)

lemma pass {y : κ} (hne : x ≠ y) (hy : claim y = none) :
    Exclusive P (update (update claim y (claim x)) x none) used := by
  -- Whoever claims now claimed before, with `y` in the place of `x`.
  have hback : ∀ {z a}, update (update claim y (claim x)) x none z = some a →
      z = y ∧ claim x = some a ∨ z ≠ x ∧ z ≠ y ∧ claim z = some a := by
    intro z a hz
    by_cases hzx : z = x
    · simp [hzx] at hz
    · rw [update_of_ne hzx] at hz
      by_cases hzy : z = y
      · subst hzy
        exact .inl ⟨rfl, by simpa using hz⟩
      · exact .inr ⟨hzx, hzy, by rwa [update_of_ne hzy] at hz⟩
  constructor
  · intro z a hz hP
    rcases hback hz with ⟨-, hx⟩ | ⟨-, -, hz⟩
    · exact h.used hx hP
    · exact h.used hz hP
  intro z w a hz hw hP
  rcases hback hz with ⟨hzy, hx⟩ | ⟨hzx, -, hz⟩ <;> rcases hback hw with ⟨hwy, hx'⟩ | ⟨hwx, -, hw⟩
  · exact hzy.trans hwy.symm
  · exact absurd (h.single hw hx hP) hwx
  · exact absurd (h.single hz hx' hP) hzx
  · exact h.single hz hw hP

lemma acquire (hfresh : a ∉ used) :
    Exclusive P (update claim x (some a)) (insert a used) := by
  have hback : ∀ {z b}, update claim x (some a) z = some b →
      z = x ∧ b = a ∨ z ≠ x ∧ claim z = some b := by
    intro z b hz
    by_cases hzx : z = x
    · subst hzx
      simp only [update_self, Option.some.injEq] at hz
      exact .inl ⟨rfl, hz.symm⟩
    · exact .inr ⟨hzx, by rwa [update_of_ne hzx] at hz⟩
  constructor
  · intro z b hz hP
    rcases hback hz with ⟨-, rfl⟩ | ⟨-, hz⟩
    · exact Set.mem_insert _ _
    · exact Set.mem_insert_of_mem _ (h.used hz hP)
  intro z w b hz hw hP
  rcases hback hz with ⟨hzx, hba⟩ | ⟨-, hz⟩ <;> rcases hback hw with ⟨hwx, hba'⟩ | ⟨-, hw⟩
  · exact hzx.trans hwx.symm
  · exact absurd (hba ▸ h.used hw hP) hfresh
  · exact absurd (hba' ▸ h.used hz hP) hfresh
  · exact h.single hz hw hP

lemma giveBack (hx : claim x = some a) (hP : P a) :
    Exclusive P (update claim x none) (used \ {a}) := by
  apply (h.drop x).forget
  intro y hy
  by_cases hyx : y = x
  · simp [hyx] at hy
  · rw [update_of_ne hyx] at hy
    exact hyx (h.single hy hx hP)

end

end Exclusive

end Husker.Relational
