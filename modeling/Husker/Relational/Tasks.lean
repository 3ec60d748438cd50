import Mathlib.Tactic

/-! # Calls in progress and the locks they hold

Several callers are each at some place of a call.  A table says who holds which lock; when every
place that holds a lock is recorded there, two callers never hold the same one.
-/
namespace Husker.Relational
open Option Function

abbrev Tasks (τ ℓ : Type) := τ → Option ℓ

variable {τ ℓ κ : Type} [DecidableEq τ] {b : ℓ} {Q : ℓ → Prop}

namespace Tasks

def set (ts : Tasks τ ℓ) (t : τ) (a : ℓ) : Tasks τ ℓ := Function.update ts t (some a)

def clear (ts : Tasks τ ℓ) (t : τ) : Tasks τ ℓ := Function.update ts t none

@[simp] lemma set_self (ts : Tasks τ ℓ) (t : τ) (a : ℓ) : ts.set t a t = some a := update_self ..

variable {ts : Tasks τ ℓ} {t u : τ} {a : ℓ} {P : ℓ → Prop}

@[simp] lemma set_of_ne (h : u ≠ t) : ts.set t a u = ts u := update_of_ne h _ _

@[simp] lemma clear_self (ts : Tasks τ ℓ) (t : τ) : ts.clear t t = none := update_self ..

@[simp] lemma clear_of_ne (h : u ≠ t) : ts.clear t u = ts u := update_of_ne h _ _

@[simp] lemma set_clear (ts : Tasks τ ℓ) (t : τ) (a : ℓ) : (ts.clear t).set t a = ts.set t a :=
  update_idem ..

@[simp] lemma set_set (ts : Tasks τ ℓ) (t : τ) (a b : ℓ) : (ts.set t a).set t b = ts.set t b :=
  update_idem ..

@[simp] lemma clear_set (ts : Tasks τ ℓ) (t : τ) (a : ℓ) : (ts.set t a).clear t = ts.clear t :=
  update_idem ..

@[simp] lemma clear_clear (ts : Tasks τ ℓ) (t : τ) : (ts.clear t).clear t = ts.clear t :=
  update_idem ..

lemma set_eq_some (h : ts.set t a u = some b) : (u = t ∧ b = a) ∨ (u ≠ t ∧ ts u = some b) := by
  by_cases hu : u = t
  · rw [hu, set_self] at h
    exact .inl ⟨hu, (some.inj h).symm⟩
  · exact .inr ⟨hu, by rwa [set_of_ne hu] at h⟩

lemma clear_eq_some (h : ts.clear t u = some b) : u ≠ t ∧ ts u = some b := by
  have hu : u ≠ t := by
    rintro rfl
    simp at h
  exact ⟨hu, by rwa [clear_of_ne hu] at h⟩

def All (ts : Tasks τ ℓ) (P : ℓ → Prop) : Prop := ∀ t a, ts t = some a → P a

lemma All.set (h : ts.All P) (ha : P a) : (ts.set t a).All P := by
  intro u b hb
  rcases set_eq_some hb with ⟨-, rfl⟩ | ⟨-, hb⟩
  · exact ha
  · exact h u b hb

lemma All.clear (h : ts.All P) : (ts.clear t).All P := fun u b hb => h u b (clear_eq_some hb).2

omit [DecidableEq τ] in
lemma All.mono (h : ts.All P) (hPQ : ∀ a, P a → Q a) : ts.All Q := fun t a ha => hPQ a (h t a ha)

def Any (ts : Tasks τ ℓ) (P : ℓ → Prop) : Prop := ∃ t a, ts t = some a ∧ P a

omit [DecidableEq τ] in
lemma Any.mono (h : ts.Any P) (hPQ : ∀ a, P a → Q a) : ts.Any Q := by
  obtain ⟨t, a, ha, hP⟩ := h
  exact ⟨t, a, ha, hPQ a hP⟩

lemma Any.set_self (ha : P a) : (ts.set t a).Any P := ⟨t, a, by simp, ha⟩

lemma Any.set (h : ts.Any P) (ha : ∀ b, ts t = some b → P b → P a) : (ts.set t a).Any P := by
  obtain ⟨u, b, hb, hP⟩ := h
  by_cases hu : u = t
  · exact Any.set_self (ha b (hu ▸ hb) hP)
  · exact ⟨u, b, by rwa [set_of_ne hu], hP⟩

lemma Any.clear (h : ts.Any P) (ha : ∀ b, ts t = some b → ¬P b) : (ts.clear t).Any P := by
  obtain ⟨u, b, hb, hP⟩ := h
  have hu : u ≠ t := by
    rintro rfl
    exact ha b hb hP
  exact ⟨u, b, by rwa [clear_of_ne hu], hP⟩

end Tasks

/-! ## Locks -/

variable {holds : ℓ → κ → Prop} {lock : κ → Option τ} {ts : Tasks τ ℓ} {t : τ} {a : ℓ} {k : κ}

def Guarded (holds : ℓ → κ → Prop) (lock : κ → Option τ) (ts : Tasks τ ℓ) : Prop :=
  ∀ t a k, ts t = some a → holds a k → lock k = some t

open Tasks

namespace Guarded

omit [DecidableEq τ] in
lemma exclusive {u : τ} (h : Guarded holds lock ts) (ha : ts t = some a)
    (hb : ts u = some b) (hak : holds a k) (hbk : holds b k) : t = u :=
  some.inj ((h t a k ha hak).symm.trans (h u b k hb hbk))

lemma move (h : Guarded holds lock ts) (ha : ∀ k, holds a k → lock k = some t) :
    Guarded holds lock (ts.set t a) := by
  intro u b k hb hk
  rcases set_eq_some hb with ⟨rfl, rfl⟩ | ⟨-, hb⟩
  · exact ha k hk
  · exact h u b k hb hk

lemma clear (h : Guarded holds lock ts) : Guarded holds lock (ts.clear t) :=
  fun u b k hb hk => h u b k (clear_eq_some hb).2 hk

variable [DecidableEq κ]

lemma take (h : Guarded holds lock ts) (hfree : lock k = none)
    (ha : ∀ k', holds a k' → k' = k ∨ lock k' = some t) :
    Guarded holds (update lock k (some t)) (ts.set t a) := by
  intro u b k' hb hk'
  by_cases hkk : k' = k
  · subst hkk
    rcases set_eq_some hb with ⟨rfl, -⟩ | ⟨-, hb⟩
    · exact update_self ..
    · simp [h u b k' hb hk'] at hfree
  · rw [update_of_ne hkk]
    rcases set_eq_some hb with ⟨rfl, rfl⟩ | ⟨-, hb⟩
    · exact (ha k' hk').resolve_left hkk
    · exact h u b k' hb hk'

lemma release (h : Guarded holds lock ts) (hk : lock k = some t) :
    Guarded holds (update lock k none) (ts.clear t) := by
  intro u b k' hb hk'
  obtain ⟨hu, hb⟩ := clear_eq_some hb
  have hkk : k' ≠ k := by
    rintro rfl
    exact hu (some.inj ((h u b k' hb hk').symm.trans hk))
  rw [update_of_ne hkk]
  exact h u b k' hb hk'

end Guarded

end Husker.Relational
