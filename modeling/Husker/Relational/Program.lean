import Mathlib.Tactic

/-! # Programs whose process may die

A program performs actions one after another and continues with their responses.  A device says
what an action does when it is carried out, and what is left of it when the process dies in the
middle.  The weakest precondition covers both ways a program can end.
-/
namespace Husker.Relational
open List

structure Interface where
  Act : Type
  Resp : Act → Type

inductive Program (I : Interface) (β : Type) where
  | ret (b : β)
  | act (a : I.Act) (next : I.Resp a → Program I β)

namespace Program

variable {I : Interface} {β γ : Type}

def bind : Program I β → (β → Program I γ) → Program I γ
  | .ret b, f => f b
  | .act a next, f => .act a fun r => (next r).bind f

instance : Monad (Program I) where
  pure := .ret
  bind := bind

def perform (a : I.Act) : Program I (I.Resp a) := .act a .ret

lemma ret_bind (b : β) (f : β → Program I γ) : (Program.ret b >>= f) = f b := rfl

lemma act_bind (a : I.Act) (next : I.Resp a → Program I β) (f : β → Program I γ) :
    (Program.act a next >>= f) = .act a fun r => next r >>= f := rfl

/-- All actions a program may come to are among `A`. -/
def Uses (A : I.Act → Prop) : Program I β → Prop
  | .ret _ => True
  | .act a next => A a ∧ ∀ r, (next r).Uses A

lemma Uses.bind {A : I.Act → Prop} {p : Program I β} {f : β → Program I γ} (hp : p.Uses A)
    (hf : ∀ b, (f b).Uses A) : (p >>= f).Uses A := by
  induction p with
  | ret b => exact hf b
  | act a next ih => exact ⟨hp.1, fun r => ih r (hp.2 r)⟩

lemma Uses.ite {A : I.Act → Prop} {p q : Program I β} {c : Prop} [Decidable c] (hp : p.Uses A)
    (hq : q.Uses A) : (if c then p else q).Uses A := by
  split_ifs
  · exact hp
  · exact hq

end Program

/-- How one action went: carried out, or cut short by the death of the process. -/
inductive Fate (χ : Type) where
  | done (x : χ)
  | died (x : χ)

/-- The meaning of actions; `χ` is what the environment decides about each of them. -/
structure Device (I : Interface) (σ χ : Type) where
  run : (a : I.Act) → χ → σ → I.Resp a × σ
  torn : I.Act → χ → σ → σ

namespace Device

variable {I : Interface} {σ χ β γ : Type} (D : Device I σ χ)

/-- An execution with the fate of each action; without a result the process died. -/
inductive Exec : σ → Program I β → List (I.Act × Fate χ) → Option β → σ → Prop
  | ret (s : σ) (b : β) : Exec s (.ret b) [] (some b) s
  | done {s s' : σ} {a : I.Act} {next : I.Resp a → Program I β} {trace : List (I.Act × Fate χ)}
      {result : Option β} (x : χ)
      (rest : Exec (D.run a x s).2 (next (D.run a x s).1) trace result s') :
      Exec s (.act a next) ((a, .done x) :: trace) result s'
  | died (s : σ) (a : I.Act) (next : I.Resp a → Program I β) (x : χ) :
      Exec s (.act a next) [(a, .died x)] none (D.torn a x s)

/-- What must hold for every execution whose fates are allowed to end with `Q`. -/
def wp (allowed : I.Act → Fate χ → Prop) :
    Program I β → (Option β → σ → Prop) → σ → Prop
  | .ret b, Q, s => Q (some b) s
  | .act a next, Q, s =>
    (∀ x, allowed a (.died x) → Q none (D.torn a x s)) ∧
      ∀ x, allowed a (.done x) → wp allowed (next (D.run a x s).1) Q (D.run a x s).2

variable {D} {allowed : I.Act → Fate χ → Prop} {Q R : Option β → σ → Prop} {s s' : σ}

lemma wp_act {a : I.Act} {next : I.Resp a → Program I β} : D.wp allowed (.act a next) Q s ↔
      (∀ x, allowed a (.died x) → Q none (D.torn a x s)) ∧
        ∀ x, allowed a (.done x) → D.wp allowed (next (D.run a x s).1) Q (D.run a x s).2 := Iff.rfl

variable {p : Program I β}

lemma wp_mono (hQ : ∀ o s, Q o s → R o s) (h : D.wp allowed p Q s) : D.wp allowed p R s := by
  induction p generalizing s with
  | ret b => exact hQ _ _ h
  | act a next ih => exact ⟨fun x hx => hQ _ _ (h.1 x hx), fun x hx => ih _ (h.2 x hx)⟩

/-- A program followed by another: the first one may also die. -/
lemma wp_bind {f : β → Program I γ} {Q : Option γ → σ → Prop} : D.wp allowed (p >>= f) Q s ↔
      D.wp allowed p (fun o s' => o.elim (Q none s') fun b => D.wp allowed (f b) Q s') s := by
  induction p generalizing s with
  | ret b => rfl
  | act a next ih =>
    rw [Program.act_bind, wp_act, wp_act]
    exact and_congr Iff.rfl (forall_congr' fun x => imp_congr Iff.rfl (ih _))

lemma wp_seq {f : β → Program I γ} {Q : Option γ → σ → Prop}
    (hp : D.wp allowed p R s) (hdied : ∀ s, R none s → Q none s)
    (hnext : ∀ b s, R (some b) s → D.wp allowed (f b) Q s) : D.wp allowed (p >>= f) Q s := by
  refine wp_bind.mpr (wp_mono (fun o s hs => ?_) hp)
  cases o with
  | none => exact hdied s hs
  | some b => exact hnext b s hs

lemma wp_of_uses {J : σ → Prop} {A : I.Act → Prop} (hp : p.Uses A)
    (hrun : ∀ a x s, A a → allowed a (.done x) → J s → J (D.run a x s).2)
    (htorn : ∀ a x s, A a → allowed a (.died x) → J s → J (D.torn a x s)) (hs : J s) :
    D.wp allowed p (fun _ => J) s := by
  induction p generalizing s with
  | ret b => exact hs
  | act a next ih =>
    exact ⟨fun x hx => htorn a x s hp.1 hx hs, fun x hx => ih _ (hp.2 _) (hrun a x s hp.1 hx hs)⟩

lemma Exec.post {trace : List (I.Act × Fate χ)} {o : Option β}
    (h : D.Exec s p trace o s') (hallowed : ∀ e ∈ trace, allowed e.1 e.2)
    (hwp : D.wp allowed p Q s) : Q o s' := by
  induction h with
  | ret s b => exact hwp
  | done x _ ih =>
    rw [forall_mem_cons] at hallowed
    exact ih hallowed.2 (hwp.2 x hallowed.1)
  | died s a next x => exact hwp.1 x (hallowed _ (.head _))

lemma Exec.post_all {trace : List (I.Act × Fate χ)} {o : Option β}
    (h : D.Exec s p trace o s') (hwp : D.wp (fun _ _ => True) p Q s) : Q o s' :=
  h.post (fun _ _ => trivial) hwp

variable (D) in
def exec (fates : I.Act → Fate χ) : Program I β → σ → List (I.Act × Fate χ) × Option β × σ
  | .ret b, s => ([], some b, s)
  | .act a next, s =>
    match fates a with
    | .died x => ([(a, .died x)], none, D.torn a x s)
    | .done x =>
      let (trace, result, s') := exec fates (next (D.run a x s).1) (D.run a x s).2
      ((a, .done x) :: trace, result, s')

lemma exec_exec (fates : I.Act → Fate χ) (p : Program I β) (s : σ) :
    D.Exec s p (D.exec fates p s).1 (D.exec fates p s).2.1 (D.exec fates p s).2.2 := by
  induction p generalizing s with
  | ret b => exact .ret s b
  | act a next ih =>
  rw [exec]
  cases fates a with
  | died x => exact .died s a next x
  | done x => exact .done x (ih _ _)

lemma exec_fates (fates : I.Act → Fate χ) (p : Program I β) (s : σ) :
    ∀ x ∈ (D.exec fates p s).1, x.2 = fates x.1 := by
  induction p generalizing s with
  | ret b => simp [exec]
  | act a next ih =>
  rw [exec]
  cases h : fates a with
  | died x => simp [h]
  | done x =>
  intro e he
  rcases mem_cons.mp he with rfl | he
  · exact h.symm
  · exact ih _ _ e he

end Device

/-! ## Conversations

Where nothing is known of the other side, a program is described by what it asks and what it is
told, in order.
-/
namespace Program

variable {I : Interface} {β γ ε : Type}

inductive Yields : Program I β → List ((a : I.Act) × I.Resp a) → β → Prop
  | ret (b : β) : Yields (.ret b) [] b
  | act {a : I.Act} {next : I.Resp a → Program I β} {talk : List ((a : I.Act) × I.Resp a)} {b : β}
      (r : I.Resp a) (rest : Yields (next r) talk b) : Yields (.act a next) (⟨a, r⟩ :: talk) b

variable {p : Program I β} {f : β → Program I γ} {talk : List ((a : I.Act) × I.Resp a)} {b c : β}

lemma yields_ret : Yields (.ret b : Program I β) talk c ↔ talk = [] ∧ c = b := by
  constructor
  · rintro ⟨⟩
    exact ⟨rfl, rfl⟩
  · rintro ⟨rfl, rfl⟩
    exact .ret _

lemma yields_act {a : I.Act} {next : I.Resp a → Program I β} :
    Yields (.act a next) talk b ↔ ∃ r rest, talk = ⟨a, r⟩ :: rest ∧ Yields (next r) rest b := by
  constructor
  · intro h
    cases h with
    | act r rest => exact ⟨r, _, rfl, rest⟩
  · rintro ⟨r, rest, rfl, h⟩
    exact .act r h

lemma yields_bind {c : γ} : Yields (p >>= f) talk c ↔
      ∃ first rest b, talk = first ++ rest ∧ Yields p first b ∧ Yields (f b) rest c := by
  induction p generalizing talk with
  | ret b =>
    rw [ret_bind]
    constructor
    · intro h
      exact ⟨[], talk, b, rfl, .ret b, h⟩
    · rintro ⟨first, rest, b', rfl, hp, h⟩
      obtain ⟨rfl, rfl⟩ := yields_ret.mp hp
      exact h
  | act a next ih =>
  rw [act_bind, yields_act]
  constructor
  · rintro ⟨r, tail, rfl, h⟩
    obtain ⟨first, rest, b, rfl, hp, hf⟩ := (ih r).mp h
    exact ⟨⟨a, r⟩ :: first, rest, b, rfl, .act r hp, hf⟩
  · rintro ⟨first, rest, b, rfl, hp, hf⟩
    obtain ⟨r, tail, rfl, hnext⟩ := yields_act.mp hp
    exact ⟨r, tail ++ rest, rfl, (ih r).mpr ⟨tail, rest, b, rfl, hnext, hf⟩⟩

/-- The conversation with an other side that has one answer to everything it can be asked. -/
def converse (answers : (a : I.Act) → I.Resp a) :
    Program I β → List ((a : I.Act) × I.Resp a) × β
  | .ret b => ([], b)
  | .act a next =>
    let (talk, b) := converse answers (next (answers a))
    (⟨a, answers a⟩ :: talk, b)

lemma yields_converse (answers : (a : I.Act) → I.Resp a) (p : Program I β) :
    Yields p (p.converse answers).1 (p.converse answers).2 := by
  induction p with
  | ret b => exact .ret b
  | act a next ih => exact .act _ (ih _)

lemma Yields.of_uses {A : I.Act → Prop} (h : Yields p talk b) (hp : p.Uses A) :
    ∀ e ∈ talk, A e.1 := by
  induction h with
  | ret b => exact fun e he => absurd he not_mem_nil
  | act r _ ih => exact forall_mem_cons.mpr ⟨hp.1, ih (hp.2 r)⟩

lemma Uses.run_bind {A : I.Act → Prop} {x : ExceptT ε (Program I) β}
    {g : β → ExceptT ε (Program I) γ} (hx : x.run.Uses A) (hg : ∀ b, (g b).run.Uses A) :
    (x >>= g).run.Uses A := by
  refine Uses.bind hx fun r => ?_
  cases r with
  | ok b => exact hg b
  | error e => exact trivial

def Achieves (x : ExceptT ε (Program I) β) (talk : List ((a : I.Act) × I.Resp a)) (b : β) : Prop :=
  Yields x.run talk (.ok b)

variable {x : ExceptT ε (Program I) β} {g : β → ExceptT ε (Program I) γ}

lemma achieves_bind {c : γ} : Achieves (x >>= g) talk c ↔
      ∃ first rest b, talk = first ++ rest ∧ Achieves x first b ∧ Achieves (g b) rest c := by
  refine yields_bind.trans ⟨?_, ?_⟩
  · rintro ⟨first, rest, (e | b), rfl, hx, hg⟩
    · cases (yields_ret.mp hg).2
    · exact ⟨first, rest, b, rfl, hx, hg⟩
  · rintro ⟨first, rest, b, rfl, hx, hg⟩
    exact ⟨first, rest, .ok b, rfl, hx, hg⟩

lemma achieves_pure : Achieves (pure b : ExceptT ε (Program I) β) talk c ↔ talk = [] ∧ c = b :=
  yields_ret.trans (and_congr_right fun _ => by simp)

lemma not_achieves_throw {e : ε} :
    ¬ Achieves (throw e : ExceptT ε (Program I) β) talk c := fun h => nomatch (yields_ret.mp h).2

end Program

end Husker.Relational
