import Husker.Relational.Machine
import Husker.Relational.Program

/-! # Programs that share a state

Tasks run programs over one state, an action at a time and in any order; an action may have to
wait, and it may start a task.  A crash ends all tasks.  What each task assumes of the others and
what it promises them is a contract; a program that keeps it is safe among tasks that keep it too.
-/
namespace Husker.Relational
open List Option

section
variable {I : Interface} {σ χ ρ β γ ε : Type}

def Program.attempt (a : I.Act) (f : I.Resp a → Except ε β) : ExceptT ε (Program I) β :=
  ExceptT.mk (.act a fun r => .ret (f r))

namespace Program.Uses

variable {A B : I.Act → Prop} {m : ExceptT ε (Program I) β}

lemma attempt {a : I.Act} {f : I.Resp a → Except ε β} (h : A a) :
    (Program.attempt a f).run.Uses A := ⟨h, fun _ => trivial⟩

lemma andThen {f : β → ExceptT ε (Program I) γ} (h : m.run.Uses A)
    (hf : ∀ b, (f b).run.Uses A) : (m >>= f).run.Uses A := by
  apply Uses.bind h
  intro r
  cases r with
  | ok b => exact hf b
  | error e => trivial

lemma lift {p : Program I β} (h : p.Uses A) : (ExceptT.lift p : ExceptT ε (Program I) β).run.Uses A :=
  Uses.bind h fun _ => trivial

end Program.Uses

structure Shared (I : Interface) (σ χ : Type) where
  /-- What a task gets and leaves behind; nothing if it has to wait.  The second number is that of
  the task the action would start. -/
  run : ℕ → ℕ → (a : I.Act) → χ → σ → Option (I.Resp a × σ)
  fork : I.Act → Option (Program I Unit)
  crash : σ → σ

namespace Shared

structure Config (I : Interface) (σ : Type) where
  shared : σ
  tasks : List (Program I Unit)

inductive Event (ρ χ : Type) where
  | call (r : ρ)
  | run (t : ℕ) (x : χ)
  | crash

variable (S : Shared I σ χ) (body : ρ → Program I Unit)

def perform (c : Config I σ) (t : ℕ) (x : χ) : Program I Unit → Option (Config I σ)
  | .ret _ => none
  | .act a next =>
    (S.run t c.tasks.length a x c.shared).map fun (r, s) =>
      ⟨s, c.tasks.set t (next r) ++ (S.fork a).toList⟩

def step (c : Config I σ) : Event ρ χ → Option (Config I σ)
  | .call r => some { c with tasks := c.tasks ++ [body r] }
  | .run t x => c.tasks[t]?.bind (S.perform c t x)
  | .crash => some ⟨S.crash c.shared, []⟩

def interleaved : Machine (Config I σ) (Event ρ χ) := .ofStep (S.step body)

end Shared

/-- What the tasks hold each other to: an invariant, what a task relies on while it does not run,
what each of its steps guarantees, and which steps, calls and crashes are considered at all. -/
structure Contract (S : Shared I σ χ) (ρ : Type) where
  valid : σ → Prop
  rely : ℕ → σ → σ → Prop
  guar : ℕ → σ → σ → Prop
  allowed : ℕ → (a : I.Act) → χ → σ → Prop
  admits : ρ → Prop
  survives : σ → Prop
  starts : Program I Unit → ℕ → σ → Prop
  rely_refl : ∀ t s, rely t s s
  rely_trans : ∀ {t a b c}, rely t a b → rely t b c → rely t a c
  compat : ∀ {t u s s'}, t ≠ u → valid s → guar u s s' → rely t s s'

namespace Contract

variable {S : Shared I σ χ} (C : Contract S ρ)

def Considered (c : Shared.Config I σ) : Shared.Event ρ χ → Prop
  | .call r => C.admits r
  | .run t x => ∀ a next, c.tasks[t]? = some (.act a next) → C.allowed t a x c.shared
  | .crash => C.survives c.shared

/-- Run by task `t` from a state like `s`, the program keeps the contract and ends with `Q`. -/
def keeps (t : ℕ) : Program I β → (β → σ → Prop) → σ → Prop
  | .ret b, Q, s => Q b s
  | .act a next, Q, s => ∀ s₁, C.rely t s s₁ → C.valid s₁ →
    ∀ n x r s₂, t ≠ n → C.allowed t a x s₁ → S.run t n a x s₁ = some (r, s₂) →
      C.valid s₂ ∧ C.guar t s₁ s₂ ∧ (∀ p, S.fork a = some p → C.starts p n s₂) ∧
        keeps t (next r) Q s₂

variable {C} {t : ℕ} {p : Program I β} {Q R : β → σ → Prop} {s s' : σ}

lemma keeps.mono (h : C.keeps t p Q s) (hQ : ∀ b s, Q b s → R b s) : C.keeps t p R s := by
  induction p generalizing s with
  | ret b => exact hQ b s h
  | act a next ih =>
    intro s₁ hrely hvalid n x r s₂ hn hallowed hrun
    obtain ⟨hvalid₂, hguar, hstarts, hnext⟩ := h s₁ hrely hvalid n x r s₂ hn hallowed hrun
    exact ⟨hvalid₂, hguar, hstarts, ih r hnext⟩

lemma keeps.bind {f : β → Program I γ} {Q : γ → σ → Prop}
    (h : C.keeps t p (fun b => C.keeps t (f b) Q) s) : C.keeps t (p >>= f) Q s := by
  induction p generalizing s with
  | ret b => exact h
  | act a next ih =>
    intro s₁ hrely hvalid n x r s₂ hn hallowed hrun
    obtain ⟨hvalid₂, hguar, hstarts, hnext⟩ := h s₁ hrely hvalid n x r s₂ hn hallowed hrun
    exact ⟨hvalid₂, hguar, hstarts, ih r hnext⟩

lemma keeps.wait (h : C.keeps t p (fun _ _ => True) s) (hrely : C.rely t s s') :
    C.keeps t p (fun _ _ => True) s' := by
  cases p with
  | ret b => trivial
  | act a next => exact fun s₁ hrely₁ => h s₁ (C.rely_trans hrely hrely₁)

/-! ## Runs -/

structure Sound (C : Contract S ρ) (c : Shared.Config I σ) : Prop where
  valid : C.valid c.shared
  safe : ∀ t p, c.tasks[t]? = some p → C.keeps t p (fun _ _ => True) c.shared

structure Respects (C : Contract S ρ) (body : ρ → Program I Unit) : Prop where
  call : ∀ r t s, C.admits r → C.valid s → C.keeps t (body r) (fun _ _ => True) s
  fork : ∀ p t s, C.starts p t s → C.valid s → C.keeps t p (fun _ _ => True) s
  crash : ∀ s, C.survives s → C.valid s → C.valid (S.crash s)

variable {body : ρ → Program I Unit} {c c' : Shared.Config I σ} {x : χ}

lemma Sound.perform (hs : C.Sound c) (hbody : C.Respects body) {p : Program I Unit}
    (hp : c.tasks[t]? = some p) (hx : C.Considered c (.run t x))
    (hstep : S.perform c t x p = some c') : C.Sound c' ∧ C.guar t c.shared c'.shared := by
  cases p with
  | ret b => cases hstep
  | act a next =>
  simp only [Shared.perform, map_eq_some_iff] at hstep
  obtain ⟨⟨r, s₂⟩, hrun, rfl⟩ := hstep
  have ht : t < c.tasks.length := (List.getElem?_eq_some_iff.mp hp).1
  obtain ⟨hvalid, hguar, hstarts, hnext⟩ :=
    hs.safe t _ hp c.shared (C.rely_refl _ _) hs.valid _ x r s₂ ht.ne (hx a next hp) hrun
  refine ⟨⟨hvalid, ?_⟩, hguar⟩
  intro u q hq
  rw [getElem?_append] at hq
  split at hq
  · by_cases htu : t = u
    · subst htu
      rw [getElem?_set_self ht] at hq
      cases hq
      exact hnext
    · rw [getElem?_set_ne htu] at hq
      exact (hs.safe u q hq).wait (C.compat (Ne.symm htu) hs.valid hguar)
  · -- The new task has the number that the action was told.
    rename_i hu
    have hmem : q ∈ (S.fork a).toList := mem_of_getElem? hq
    have hlen : u - (c.tasks.set t (next r)).length < (S.fork a).toList.length :=
      (List.getElem?_eq_some_iff.mp hq).1
    have hnew : u = c.tasks.length := by
      have hone : (S.fork a).toList.length ≤ 1 := by cases S.fork a <;> simp
      simp only [length_set] at hu hlen
      omega
    rw [hnew]
    exact hbody.fork q _ s₂ (hstarts q (mem_toList.mp hmem)) hvalid

lemma Sound.step {e : Shared.Event ρ χ} (hs : C.Sound c) (hbody : C.Respects body)
    (he : C.Considered c e) (hstep : S.step body c e = some c') : C.Sound c' := by
  cases e with
  | call r =>
    cases hstep
    refine ⟨hs.valid, ?_⟩
    intro u q hq
    rw [getElem?_append] at hq
    split at hq
    · exact hs.safe u q hq
    · have hmem : q ∈ [body r] := mem_of_getElem? hq
      rw [mem_singleton.mp hmem]
      exact hbody.call r u _ he hs.valid
  | run t x =>
    obtain ⟨p, hp, hstep⟩ := bind_eq_some_iff.mp hstep
    exact (hs.perform hbody hp he hstep).1
  | crash =>
    cases hstep
    exact ⟨hbody.crash _ he hs.valid, by simp⟩

lemma Respects.sound (hbody : C.Respects body) {events : List (Shared.Event ρ χ)}
    (hrun : ((S.interleaved body).when C.Considered).Run c events c') (hc : C.Sound c) :
    C.Sound c' := by
  apply hrun.invariant hc
  rintro c e c' hs ⟨hstep, he⟩
  exact hs.step hbody he hstep

/-! ## Rules -/

/-- What holds before a task's next step also holds after steps of the others. -/
def Stable (C : Contract S ρ) (t : ℕ) (P : σ → Prop) : Prop :=
  ∀ s s', P s → C.valid s' → C.rely t s s' → P s'

lemma Stable.and {P P' : σ → Prop} (h : C.Stable t P) (h' : C.Stable t P') :
    C.Stable t fun s => P s ∧ P' s :=
  fun s s' hs hvalid hrely => ⟨h s s' hs.1 hvalid hrely, h' s s' hs.2 hvalid hrely⟩

lemma Stable.const (p : Prop) : C.Stable t fun _ => p := fun _ _ hp _ _ => hp

/-- Started in `P`, the program keeps the contract and ends in `Q`. -/
def Spec (C : Contract S ρ) (t : ℕ) (P : σ → Prop) (p : Program I β) (Q : β → σ → Prop) : Prop :=
  ∀ s, P s → C.keeps t p Q s

variable {P P' : σ → Prop}

lemma Spec.weaken (h : C.Spec t P p Q) (hP : ∀ s, P' s → P s) (hQ : ∀ b s, Q b s → R b s) :
    C.Spec t P' p R := fun s hs => (h s (hP s hs)).mono hQ

lemma Spec.seq {f : β → Program I γ} {Q : γ → σ → Prop} (h : C.Spec t P p R)
    (hf : ∀ b, C.Spec t (R b) (f b) Q) : C.Spec t P (p >>= f) Q :=
  fun s hs => keeps.bind ((h s hs).mono fun b s' hs' => hf b s' hs')

lemma Spec.uses {A : I.Act → Prop} (hp : p.Uses A) (hP : C.Stable t P)
    (h : ∀ a s n x r s', A a → C.valid s → P s → t ≠ n → C.allowed t a x s →
      S.run t n a x s = some (r, s') →
      C.valid s' ∧ C.guar t s s' ∧ (∀ p, S.fork a = some p → C.starts p n s') ∧ P s') :
    C.Spec t P p fun _ => P := by
  intro s hs
  induction p generalizing s with
  | ret b => exact hs
  | act a next ih =>
  intro s₁ hrely hvalid n x r s₂ hn hallowed hrun
  obtain ⟨hvalid₂, hguar, hstarts, hs₂⟩ :=
    h a s₁ n x r s₂ hp.1 hvalid (hP s s₁ hs hvalid hrely) hn hallowed hrun
  exact ⟨hvalid₂, hguar, hstarts, ih r (hp.2 r) s₂ hs₂⟩

/-! ## Programs that may throw -/

def post (G : β → σ → Prop) (E : σ → Prop) : Except ε β → σ → Prop
  | .ok b => G b
  | .error _ => E

/-- From `P` to `G`, or to `E` if it throws. -/
def Ends (C : Contract S ρ) (t : ℕ) (P : σ → Prop) (m : ExceptT ε (Program I) β)
    (G : β → σ → Prop) (E : σ → Prop) : Prop :=
  C.Spec t P m.run (post G E)

namespace Ends

variable {E E' : σ → Prop} {m : ExceptT ε (Program I) β} {G G' : β → σ → Prop}

lemma pure {b : β} (h : ∀ s, P s → G b s) : C.Ends t P (pure b : ExceptT ε (Program I) β) G E := h

lemma throw {e : ε} (h : ∀ s, P s → E s) : C.Ends t P (throw e : ExceptT ε (Program I) β) G E := h

lemma bind {f : β → ExceptT ε (Program I) γ} {F : γ → σ → Prop} (h : C.Ends t P m G E)
    (hf : ∀ b, C.Ends t (G b) (f b) F E) : C.Ends t P (m >>= f) F E := by
  apply Spec.seq h
  intro r
  cases r with
  | ok b => exact hf b
  | error e => exact fun s hs => hs

lemma conseq (h : C.Ends t P m G E) (hP : ∀ s, P' s → P s) (hG : ∀ b s, G b s → G' b s)
    (hE : ∀ s, E s → E' s) : C.Ends t P' m G' E' := by
  apply Spec.weaken h hP
  intro r s hs
  cases r with
  | ok b => exact hG b s hs
  | error e => exact hE s hs

lemma pre (h : C.Ends t P m G E) (hP : ∀ s, P' s → P s) : C.Ends t P' m G E :=
  h.conseq hP (fun _ _ hs => hs) fun _ hs => hs

lemma lift (h : C.Ends t P m G E) : C.Ends (ε := ε) t P (ExceptT.lift m.run) (post G E) E' :=
  Spec.seq h fun _ _ hs => hs

lemma attempt {a : I.Act} {f : I.Resp a → Except ε β} (hP : C.Stable t P)
    (h : ∀ s n x r s', C.valid s → P s → t ≠ n → C.allowed t a x s →
      S.run t n a x s = some (r, s') →
      C.valid s' ∧ C.guar t s s' ∧ (∀ p, S.fork a = some p → C.starts p n s') ∧ post G E (f r) s') :
    C.Ends t P (Program.attempt a f) G E := by
  intro s hs s₁ hrely hvalid n x r s₂ hn hallowed hrun
  exact h s₁ n x r s₂ hvalid (hP s s₁ hs hvalid hrely) hn hallowed hrun

lemma uses {A : I.Act → Prop} (hm : m.run.Uses A) (hP : C.Stable t P)
    (h : ∀ a s n x r s', A a → C.valid s → P s → t ≠ n → C.allowed t a x s →
      S.run t n a x s = some (r, s') →
      C.valid s' ∧ C.guar t s s' ∧ (∀ p, S.fork a = some p → C.starts p n s') ∧ P s') :
    C.Ends t P m (fun _ => P) P := by
  apply (Spec.uses hm hP h).weaken (fun _ hs => hs)
  intro r s hs
  cases r with
  | ok b => exact hs
  | error e => exact hs

end Ends

end Contract

end

/-! ## Tasks that share a lock

A task that holds the lock may do what it likes as long as the invariant survives; without the
lock it only makes changes that leave every fact about the state alone that the holder can rely on.
-/

variable {I : Interface} {σ χ ρ β γ ε : Type}

structure Discipline (S : Shared I σ χ) (ρ : Type) where
  owner : σ → Option ℕ
  valid : σ → Prop
  quiet : σ → σ → Prop
  /-- The changes that leave alone what belongs to a task. -/
  spares : ℕ → σ → σ → Prop
  each : ℕ → σ → σ → Prop
  allowed : ℕ → (a : I.Act) → χ → σ → Prop
  admits : ρ → Prop
  survives : σ → Prop
  starts : Program I Unit → ℕ → σ → Prop
  quiet_refl : ∀ s, quiet s s
  quiet_trans : ∀ {a b c}, quiet a b → quiet b c → quiet a c
  spares_refl : ∀ t s, spares t s s
  spares_trans : ∀ {t a b c}, spares t a b → spares t b c → spares t a c

open Contract

namespace Discipline

variable {S : Shared I σ χ} (D : Discipline S ρ)

def contract : Contract S ρ where
  valid := D.valid
  rely t s s' := D.spares t s s' ∧ (D.owner s = some t → D.quiet s s' ∧ D.owner s' = some t)
  guar t s s' := D.each t s s' ∧ (∀ u, u ≠ t → D.spares u s s') ∧
    (D.owner s = some t ∨ D.owner s = none ∨ D.quiet s s' ∧ D.owner s' = D.owner s)
  allowed := D.allowed
  admits := D.admits
  survives := D.survives
  starts := D.starts
  rely_refl t s := ⟨D.spares_refl t s, fun h => ⟨D.quiet_refl s, h⟩⟩
  rely_trans := by
    rintro t a b c ⟨hab, hab'⟩ ⟨hbc, hbc'⟩
    refine ⟨D.spares_trans hab hbc, fun ha => ?_⟩
    obtain ⟨hquiet, hb⟩ := hab' ha
    obtain ⟨hquiet', hc⟩ := hbc' hb
    exact ⟨D.quiet_trans hquiet hquiet', hc⟩
  compat := by
    rintro t u s s' htu - ⟨-, hspares, howner⟩
    refine ⟨hspares t htu, fun ht => ?_⟩
    rcases howner with hu | hnone | ⟨hquiet, hsame⟩
    · exact absurd (Option.some.inj (ht.symm.trans hu)) htu
    · cases ht.symm.trans hnone
    · exact ⟨hquiet, hsame.trans ht⟩

/-- What a step owes to the invariant, to the other tasks and to the task it starts. -/
structure Ok (t n : ℕ) (a : I.Act) (s s' : σ) : Prop where
  valid : D.valid s'
  each : D.each t s s'
  spares : ∀ u, u ≠ t → D.spares u s s'
  starts : ∀ p, S.fork a = some p → D.starts p n s'

def Firm (P : σ → Prop) : Prop := ∀ s s', P s → D.quiet s s' → P s'

variable {D} {P : σ → Prop} {t : ℕ}

lemma Firm.and {P' : σ → Prop} (h : D.Firm P) (h' : D.Firm P') : D.Firm fun s => P s ∧ P' s :=
  fun s s' hs hquiet => ⟨h s s' hs.1 hquiet, h' s s' hs.2 hquiet⟩

lemma Firm.const (p : Prop) : D.Firm fun _ => p := fun _ _ hp _ => hp

lemma Firm.top : D.Firm ⊤ := .const True

lemma Firm.imp {p : Prop} (h : D.Firm P) : D.Firm fun s => p → P s :=
  fun s s' hs hquiet hp => h s s' (hs hp) hquiet

def Holds (D : Discipline S ρ) (t : ℕ) (P : σ → Prop) (s : σ) : Prop := D.owner s = some t ∧ P s

lemma Firm.stable (h : D.Firm P) : D.contract.Stable t (D.Holds t P) := by
  rintro s s' ⟨howner, hP⟩ - ⟨-, hrely⟩
  obtain ⟨hquiet, howner'⟩ := hrely howner
  exact ⟨howner', h s s' hP hquiet⟩

/-! ## Facts that no quiet step takes away -/

/-- A fact that the others leave alone, and the quiet steps of the task itself. -/
structure Frame (D : Discipline S ρ) (t : ℕ) (R : σ → Prop) : Prop where
  stable : D.contract.Stable t R
  quiet : ∀ s s', R s → D.quiet s s' → D.owner s' = D.owner s → R s'

lemma Firm.frame (h : D.Firm P) : D.Frame t (D.Holds t P) where
  stable := h.stable
  quiet s s' hs hquiet hsame := ⟨hsame.trans hs.1, h s s' hs.2 hquiet⟩

lemma Frame.const (p : Prop) : D.Frame t fun _ => p := ⟨.const p, fun _ _ hp _ _ => hp⟩

lemma Frame.and {R : σ → Prop} (h : D.Frame t P) (h' : D.Frame t R) :
    D.Frame t fun s => P s ∧ R s where
  stable := h.stable.and h'.stable
  quiet s s' hs hquiet hsame := ⟨h.quiet s s' hs.1 hquiet hsame, h'.quiet s s' hs.2 hquiet hsame⟩

lemma Frame.imp {p : Prop} (h : D.Frame t P) : D.Frame t fun s => p → P s where
  stable s s' hs hvalid hrely hp := h.stable s s' (hs hp) hvalid hrely
  quiet s s' hs hquiet hsame hp := h.quiet s s' (hs hp) hquiet hsame

structure Calm (D : Discipline S ρ) (t n : ℕ) (a : I.Act) (s s' : σ) : Prop extends D.Ok t n a s s' where
  quiet : D.quiet s s'
  owner : D.owner s' = D.owner s

section
variable {t : ℕ} {P E : σ → Prop} {m : ExceptT ε (Program I) β} {G : β → σ → Prop}

lemma Calm.guar {n : ℕ} {a : I.Act} {s s' : σ} (h : D.Calm t n a s s') :
    D.contract.guar t s s' := ⟨h.each, h.spares, .inr (.inr ⟨h.quiet, h.owner⟩)⟩

lemma ends_calm {a : I.Act} {f : I.Resp a → Except ε β} (hP : D.contract.Stable t P)
    (h : ∀ s n x r s', D.valid s → P s → t ≠ n → D.allowed t a x s →
      S.run t n a x s = some (r, s') → D.Calm t n a s s' ∧ post G E (f r) s') :
    D.contract.Ends t P (Program.attempt a f) G E := by
  apply Contract.Ends.attempt hP
  intro s n x r s' hvalid hs hn hallowed hrun
  obtain ⟨hcalm, hpost⟩ := h s n x r s' hvalid hs hn hallowed hrun
  exact ⟨hcalm.valid, hcalm.guar, hcalm.starts, hpost⟩

lemma ends_uses {A : I.Act → Prop} (hm : m.run.Uses A) (hP : D.Frame t P)
    (h : ∀ a s n x r s', A a → D.valid s → t ≠ n → D.allowed t a x s →
      S.run t n a x s = some (r, s') → D.Calm t n a s s') (hE : ∀ s, P s → E s) :
    D.contract.Ends t P m (fun _ => P) E := by
  have huses : D.contract.Ends t P m (fun _ => P) P := by
    apply Contract.Ends.uses hm hP.stable
    intro a s n x r s' ha hvalid hs hn hallowed hrun
    have hcalm := h a s n x r s' ha hvalid hn hallowed hrun
    exact ⟨hcalm.valid, hcalm.guar, hcalm.starts, hP.quiet s s' hs hcalm.quiet hcalm.owner⟩
  exact huses.conseq (fun _ hs => hs) (fun _ _ hs => hs) hE

end

/-! ## Programs with the lock -/

/-- With the lock, from `P` to `G`, or to `E` if it throws. -/
def Does (D : Discipline S ρ) (t : ℕ) (P : σ → Prop) (m : ExceptT ε (Program I) β)
    (G : β → σ → Prop) (E : σ → Prop) : Prop :=
  D.contract.Ends t (D.Holds t P) m (fun b => D.Holds t (G b)) (D.Holds t E)

namespace Does

variable {t : ℕ} {P P' E E' : σ → Prop} {m : ExceptT ε (Program I) β} {G G' : β → σ → Prop}

lemma pure {b : β} (h : ∀ s, P s → G b s) : D.Does t P (pure b : ExceptT ε (Program I) β) G E :=
  Contract.Ends.pure fun s hs => ⟨hs.1, h s hs.2⟩

lemma throw {e : ε} (h : ∀ s, P s → E s) : D.Does t P (throw e : ExceptT ε (Program I) β) G E :=
  Contract.Ends.throw fun s hs => ⟨hs.1, h s hs.2⟩

lemma bind {f : β → ExceptT ε (Program I) γ} {F : γ → σ → Prop} (h : D.Does t P m G E)
    (hf : ∀ b, D.Does t (G b) (f b) F E) : D.Does t P (m >>= f) F E :=
  Contract.Ends.bind h hf

lemma conseq (h : D.Does t P m G E) (hP : ∀ s, P' s → P s) (hG : ∀ b s, G b s → G' b s)
    (hE : ∀ s, E s → E' s) : D.Does t P' m G' E' :=
  Contract.Ends.conseq h (fun s hs => ⟨hs.1, hP s hs.2⟩) (fun b s hs => ⟨hs.1, hG b s hs.2⟩)
    fun s hs => ⟨hs.1, hE s hs.2⟩

lemma pre (h : D.Does t P m G E) (hP : ∀ s, P' s → P s) : D.Does t P' m G E :=
  h.conseq hP (fun _ _ hs => hs) fun _ hs => hs

lemma lift (h : D.Does t P m G E) :
    D.Does (ε := ε) t P (ExceptT.lift m.run) (post G E) E' := by
  have hlift : D.contract.Ends t (D.Holds t P) (ExceptT.lift m.run : ExceptT ε (Program I) _)
      (post (fun b => D.Holds t (G b)) (D.Holds t E)) (D.Holds t E') := Contract.Ends.lift h
  apply hlift.conseq (fun _ hs => hs) _ fun _ hs => hs
  intro r s hs
  cases r with
  | ok b => exact hs
  | error e => exact hs

lemma step {a : I.Act} {f : I.Resp a → Except ε β} (hP : D.Firm P)
    (h : ∀ s n x r s', D.valid s → D.owner s = some t → P s → t ≠ n → D.allowed t a x s →
      S.run t n a x s = some (r, s') →
      D.Ok t n a s s' ∧ D.owner s' = some t ∧ post G E (f r) s') :
    D.Does t P (Program.attempt a f) G E := by
  apply Contract.Ends.attempt hP.stable
  rintro s n x r s' hvalid ⟨howner, hs⟩ hn hallowed hrun
  obtain ⟨hok, howner', hpost⟩ := h s n x r s' hvalid howner hs hn hallowed hrun
  refine ⟨hok.valid, ⟨hok.each, hok.spares, .inl howner⟩, hok.starts, ?_⟩
  cases hr : f r <;> rw [hr] at hpost <;> exact ⟨howner', hpost⟩

end Does

end Discipline

end Husker.Relational
