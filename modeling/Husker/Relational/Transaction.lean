import Mathlib.Tactic

/-! # Transactions over an explicit state

A transaction body reads the state it starts from and either stops with an error or
produces a value and the next state.  Committing keeps the next state; an error rolls
back to the state the transaction started from.
-/
namespace Husker.Relational
open List

section
variable {ε ε' α β σ : Type}

/-- Go on when `c` holds, otherwise stop with `e`. -/
def ensure (c : Prop) [Decidable c] (e : ε) : Except ε Unit :=
  if c then .ok () else .error e

variable {c : Prop} {e : ε} {x : Except ε α} {f : α → Except ε β} {b : β} {a : α} {xs : List α}

lemma ensure_eq_ok [Decidable c] {u : Unit} : ensure c e = .ok u ↔ c := by
  unfold ensure
  split_ifs with h <;> simp [h]

lemma ensure_of_true [Decidable c] (e : ε) (h : c) : ensure c e = .ok () := if_pos h

lemma ensure_of_false [Decidable c] (e : ε) (h : ¬c) : ensure c e = .error e := if_neg h

lemma pure_eq_ok (a : α) : (pure a : Except ε α) = .ok a := rfl

lemma ok_bind (a : α) (f : α → Except ε β) : (Except.ok a >>= f) = f a := rfl

lemma error_bind (e : ε) (f : α → Except ε β) : (Except.error e >>= f) = .error e := rfl

lemma bind_eq_ok : (x >>= f) = .ok b ↔ ∃ a, x = .ok a ∧ f a = .ok b := by
  cases x with
  | error e => simp [error_bind]
  | ok a => simp [ok_bind]

lemma mapError_eq_ok {g : ε → ε'} : x.mapError g = .ok a ↔ x = .ok a := by
  cases x <;> simp [Except.mapError]

lemma map_eq_ok {f : α → β} : x.map f = .ok b ↔ ∃ a, x = .ok a ∧ f a = b := by
  cases x <;> simp [Except.map]

def orError (x : Option α) (e : ε) : Except ε α :=
  match x with
  | some a => .ok a
  | none => .error e

lemma orError_eq_ok {x : Option α} : orError x e = .ok a ↔ x = some a := by
  cases x <;> simp [orError]

/-- When each kind of step succeeds, as one rule. -/
lemma eq_ok : (∀ {ε α β : Type} {x : Except ε α} {f : α → Except ε β} {b : β},
      (x >>= f) = .ok b ↔ ∃ a, x = .ok a ∧ f a = .ok b) ∧
    (∀ {ε : Type} {c : Prop} [Decidable c] {e : ε} {u : Unit}, ensure c e = .ok u ↔ c) ∧
    (∀ {ε α : Type} {x : Option α} {e : ε} {a : α}, orError x e = .ok a ↔ x = some a) ∧
    (∀ {ε ε' α : Type} {x : Except ε α} {g : ε → ε'} {a : α}, x.mapError g = .ok a ↔ x = .ok a) ∧
    ∀ {ε α : Type} {a b : α}, ((pure a : Except ε α) = .ok b ↔ a = b) ∧
      ((.ok a : Except ε α) = .ok b ↔ a = b) ∧
      ∀ {a' b' : ε}, (a', a) = (b', b) ↔ a' = b' ∧ a = b :=
  ⟨bind_eq_ok, ensure_eq_ok, orError_eq_ok, mapError_eq_ok,
    .of_eq (Except.ok.injEq ..), .of_eq (Except.ok.injEq ..), Prod.mk_inj⟩

lemma foldlM_invariant {I : β → Prop} {f : β → α → Except ε β} {b' : β}
    (h : xs.foldlM f b = .ok b') (h₀ : I b)
    (hstep : ∀ b x b', x ∈ xs → I b → f b x = .ok b' → I b') : I b' := by
  induction xs generalizing b with
  | nil =>
    cases h
    exact h₀
  | cons x xs ih =>
  rw [foldlM_cons, bind_eq_ok] at h
  obtain ⟨b₁, hturn, h⟩ := h
  exact ih h (hstep b x b₁ (.head _) h₀ hturn) fun b y b' hy =>
    hstep b y b' (.tail _ hy)

lemma mapM_eq_ok {ys : List β} : xs.mapM f = .ok ys ↔ xs.map f = ys.map .ok := by
  induction xs generalizing ys with
  | nil =>
    rw [mapM_nil, pure_eq_ok, Except.ok.injEq, map_nil, eq_comm, eq_comm (a := []), map_eq_nil_iff]
  | cons x xs ih =>
  simp only [mapM_cons, bind_eq_ok, pure_eq_ok, Except.ok.injEq, ih]
  constructor
  · rintro ⟨y, hy, zs, hzs, rfl⟩
    rw [map_cons, map_cons, hy, hzs]
  intro h
  cases ys with
  | nil => simp at h
  | cons y ys =>
    rw [map_cons, map_cons, cons.injEq] at h
    exact ⟨y, h.1, ys, h.2, rfl⟩

lemma mapM_isOk (h : ∀ x ∈ xs, ∃ y, f x = .ok y) : ∃ ys, xs.mapM f = .ok ys := by
  induction xs with
  | nil => exact ⟨[], rfl⟩
  | cons x xs ih =>
    obtain ⟨y, hy⟩ := h x (.head _)
    obtain ⟨ys, hys⟩ := ih fun z hz => h z (.tail _ hz)
    exact ⟨y :: ys, by rw [mapM_cons, hy, ok_bind, hys]; rfl⟩

/-- Commit the state a body produced, or roll back to the state it started from. -/
def transact (s : σ) (body : Except ε (α × σ)) : Except ε α × σ :=
  match body with
  | .ok (a, s') => (.ok a, s')
  | .error e => (.error e, s)

variable {body : Except ε (α × σ)}

lemma transact_ok {s s' : σ} (h : body = .ok (a, s')) : transact s body = (.ok a, s') := by
  rw [h]
  rfl

lemma transact_error {s : σ} (h : body = .error e) : transact s body = (.error e, s) := by
  rw [h]
  rfl

lemma transact_cases (s : σ) (body : Except ε (α × σ)) :
    (∃ a s', body = .ok (a, s') ∧ transact s body = (.ok a, s')) ∨
      ∃ e, body = .error e ∧ transact s body = (.error e, s) := by
  cases body with
  | ok p => exact Or.inl ⟨p.1, p.2, rfl, rfl⟩
  | error e => exact Or.inr ⟨e, rfl, rfl⟩

end

/-! ## Tables that carry their schema

A schema lists what a database refuses: rows that fail a CHECK, pairs of rows that share
a unique key, and updates that a trigger aborts.  A table is a list of rows together with
the proof that nothing refused is stored, so the constraints need no invariant of their own.
-/

/-- A `BEFORE UPDATE OF columns` trigger that aborts the statement on some transitions. -/
structure Trigger (ρ γ : Type) where
  columns : List γ
  aborts : ρ → ρ → Bool

structure Schema (ρ γ : Type) where
  check : ρ → Bool
  clash : ρ → ρ → Bool
  clash_symm : ∀ a b, clash a b = true → clash b a = true
  triggers : List (Trigger ρ γ)

variable {ρ γ : Type}

/-- Whether a statement that sets `columns` is aborted by a trigger it arms. -/
def Schema.aborts [DecidableEq γ] (S : Schema ρ γ) (columns : List γ) (old new : ρ) : Bool :=
  S.triggers.any fun t => t.columns.any (· ∈ columns) && t.aborts old new

@[ext] structure Table (S : Schema ρ γ) where
  rows : List ρ
  checked : ∀ r ∈ rows, S.check r = true
  unique : rows.Pairwise fun a b => ¬S.clash a b = true

namespace Table

variable {S : Schema ρ γ}

def empty : Table S := ⟨[], by simp, .nil⟩

instance : EmptyCollection (Table S) := ⟨empty⟩

@[simp] lemma rows_empty : (∅ : Table S).rows = [] := rfl

lemma eq_of_clash (t : Table S) {a b : ρ} (ha : a ∈ t.rows) (hb : b ∈ t.rows)
    (h : S.clash a b = true) : a = b := by
  by_contra hne
  have : Std.Symm fun a b => ¬S.clash a b = true := ⟨fun a b hab hba => hab (S.clash_symm b a hba)⟩
  exact t.unique.forall ha hb hne h

/-- `INSERT`: refused when the row fails a check or repeats a unique key. -/
def insert? (t : Table S) (r : ρ) : Option (Table S) :=
  if h : S.check r = true ∧ ∀ x ∈ t.rows, ¬S.clash x r = true then
    some {
      rows := t.rows ++ [r]
      checked := by
        intro x hx
        rcases List.mem_append.mp hx with hx | hx
        · exact t.checked x hx
        · rw [List.mem_singleton.mp hx]
          exact h.1
      unique := by
        rw [List.pairwise_append]
        refine ⟨t.unique, List.pairwise_singleton _ _, ?_⟩
        intro a ha b hb
        rw [List.mem_singleton.mp hb]
        exact h.2 a ha }
  else none

variable {t : Table S} {r : ρ} {p : ρ → Bool} {rows : List ρ} {f : ρ → ρ}

lemma insert?_eq_some {t' : Table S} : t.insert? r = some t' ↔
      S.check r = true ∧ (∀ x ∈ t.rows, ¬S.clash x r = true) ∧ t'.rows = t.rows ++ [r] := by
  unfold insert?
  split_ifs with h
  · simp only [Option.some.injEq]
    refine ⟨?_, fun h' => Table.ext h'.2.2.symm⟩
    rintro rfl
    exact ⟨h.1, h.2, rfl⟩
  · simp only [false_iff]
    exact fun h' => h ⟨h'.1, h'.2.1⟩

/-- `DELETE`: removing rows breaks no constraint. -/
def delete (t : Table S) (p : ρ → Bool) : Table S where
  rows := t.rows.filter fun r => !p r
  checked r hr := t.checked r (List.mem_of_mem_filter hr)
  unique := t.unique.filter _

@[simp] lemma rows_delete (t : Table S) (p : ρ → Bool) :
    (t.delete p).rows = t.rows.filter fun r => !p r := rfl

lemma mem_delete : r ∈ (t.delete p).rows ↔ r ∈ t.rows ∧ p r = false := by
  simp [rows_delete]

/-- The rows after an `UPDATE` of every row selected by `p`. -/
def updated (rows : List ρ) (p : ρ → Bool) (f : ρ → ρ) : List ρ :=
  rows.map fun r => if p r then f r else r

lemma mem_updated {x : ρ} : x ∈ updated rows p f ↔
      (∃ r ∈ rows, p r = true ∧ f r = x) ∨ (x ∈ rows ∧ p x = false) := by
  simp only [updated, mem_map]
  constructor
  · rintro ⟨r, hr, rfl⟩
    by_cases hp : p r = true
    · exact Or.inl ⟨r, hr, hp, by rw [if_pos hp]⟩
    · rw [if_neg hp]
      exact Or.inr ⟨hr, by simpa using hp⟩
  · rintro (⟨r, hr, hp, rfl⟩ | ⟨hx, hp⟩)
    · exact ⟨r, hr, by rw [if_pos hp]⟩
    · exact ⟨x, hx, by simp [hp]⟩

/-- `UPDATE … SET columns`: the new rows, or nothing when a trigger aborts or a constraint
of the schema is violated. -/
def update? [DecidableEq γ] (t : Table S) (columns : List γ) (p : ρ → Bool) (f : ρ → ρ) :
    Option (Table S) :=
  if h : (∀ r ∈ t.rows, p r = true → S.aborts columns r (f r) = false) ∧
      (∀ r ∈ updated t.rows p f, S.check r = true) ∧
      (updated t.rows p f).Pairwise fun a b => ¬S.clash a b = true then
    some ⟨updated t.rows p f, h.2.1, h.2.2⟩
  else none

/-- The number of rows an `UPDATE` reports as changed. -/
def matched (t : Table S) (p : ρ → Bool) : ℕ := t.rows.countP p

lemma update?_eq_some [DecidableEq γ] {t' : Table S} {columns : List γ}
    (h : t.update? columns p f = some t') : t'.rows = updated t.rows p f ∧
      ∀ r ∈ t.rows, p r = true → S.aborts columns r (f r) = false ∧ S.check (f r) = true := by
  unfold update? at h
  split_ifs at h with hc
  rw [Option.some.injEq] at h
  subst h
  refine ⟨rfl, fun r hr hp => ⟨hc.1 r hr hp, hc.2.1 _ ?_⟩⟩
  exact mem_updated.mpr (Or.inl ⟨r, hr, hp, rfl⟩)

lemma update?_isSome [DecidableEq γ] {columns : List γ}
    (haborts : ∀ r ∈ t.rows, p r = true → S.aborts columns r (f r) = false)
    (hcheck : ∀ r ∈ t.rows, p r = true → S.check (f r) = true) (hclash : ∀ a ∈ t.rows, ∀ b ∈ t.rows,
      S.clash (if p a then f a else a) (if p b then f b else b) = true → S.clash a b = true) :
    ∃ t', t.update? columns p f = some t' := by
  have hchecked : ∀ r ∈ updated t.rows p f, S.check r = true := by
    intro x hx
    rcases mem_updated.mp hx with ⟨r, hr, hp, rfl⟩ | ⟨hx, -⟩
    · exact hcheck r hr hp
    · exact t.checked x hx
  have hunique : (updated t.rows p f).Pairwise fun a b => ¬S.clash a b = true := by
    rw [updated, pairwise_map]
    exact t.unique.imp_of_mem fun ha hb hab h => hab (hclash _ ha _ hb h)
  exact ⟨_, dif_pos ⟨haborts, hchecked, hunique⟩⟩

lemma matched_eq_zero : t.matched p = 0 ↔ ∀ r ∈ t.rows, p r = false := by
  simp [matched, countP_eq_zero]

lemma matched_eq_one (hr : r ∈ t.rows) (hp : p r = true)
    (hclash : ∀ x y, p x = true → p y = true → S.clash x y = true) : t.matched p = 1 := by
  have hmem : r ∈ t.rows.filter p := mem_filter.mpr ⟨hr, hp⟩
  have hsat : ∀ x ∈ t.rows.filter p, p x = true := fun x hx => (mem_filter.mp hx).2
  have hpair := t.unique.filter p
  rw [matched, countP_eq_length_filter]
  cases hrows : t.rows.filter p with
  | nil => simp [hrows] at hmem
  | cons x rest =>
  cases rest with
  | nil => rfl
  | cons y rest =>
    rw [hrows] at hpair hsat
    have hxy := rel_of_pairwise_cons hpair (.head _)
    exact absurd (hclash x y (hsat x (by simp)) (hsat y (by simp))) hxy

lemma updated_eq_self (h : ∀ r ∈ rows, p r = true → f r = r) : updated rows p f = rows := by
  unfold updated
  conv_rhs => rw [← map_id rows]
  apply map_congr_left
  intro r hr
  by_cases hp : p r = true
  · simp [hp, h r hr hp]
  · simp [hp]

lemma exists_updated {R : ρ → ρ → Prop}
    (hrefl : ∀ r, R r r) (hf : ∀ r ∈ rows, p r = true → R r (f r)) :
    (∀ r ∈ rows, ∃ r' ∈ updated rows p f, R r r') ∧
      ∀ r' ∈ updated rows p f, ∃ r ∈ rows, R r r' := by
  constructor
  · intro r hr
    by_cases hp : p r = true
    · exact ⟨f r, mem_updated.mpr (.inl ⟨r, hr, hp, rfl⟩), hf r hr hp⟩
    · exact ⟨r, mem_updated.mpr (.inr ⟨hr, by simpa using hp⟩), hrefl r⟩
  · intro r' hr'
    rcases mem_updated.mp hr' with ⟨r, hr, hp, rfl⟩ | ⟨hr, -⟩
    · exact ⟨r, hr, hf r hr hp⟩
    · exact ⟨r', hr, hrefl r'⟩

lemma map_updated {β : Type} {g : ρ → β}
    (h : ∀ r, g (f r) = g r) : (updated rows p f).map g = rows.map g := by
  rw [updated, map_map]
  refine map_congr_left fun r _ => ?_
  by_cases hp : p r = true
  · simp [hp, h]
  · simp [hp]

/-- Rows that stay selected keep their value, so what is selected after an update is part of
what was selected before. -/
lemma filter_map_sublist {β : Type} {next : ρ → ρ} {f : ρ → β}
    (h : ∀ r ∈ rows, p (next r) = true → p r = true ∧ f (next r) = f r) :
    (((rows.map next).filter p).map f).Sublist ((rows.filter p).map f) := by
  induction rows with
  | nil => exact .slnil
  | cons r rows ih =>
  have ih := ih fun x hx => h x (.tail _ hx)
  by_cases hnext : p (next r) = true
  · obtain ⟨hp, hf⟩ := h r (.head _) hnext
    simpa [hnext, hp, hf] using ih
  · by_cases hp : p r = true
    · simpa [hnext, hp] using ih.trans (sublist_cons_self _ _)
    · simpa [hnext, hp] using ih

section
variable {κ : Type} [DecidableEq κ] (key : ρ → κ)

def get? (t : Table S) (k : κ) : Option ρ := t.rows.find? fun r => decide (key r = k)

variable {key} {t : Table S} {k : κ} {r : ρ}

lemma get?_mem (h : t.get? key k = some r) : r ∈ t.rows ∧ key r = k := by
  refine ⟨mem_of_find?_eq_some h, ?_⟩
  simpa using find?_some h

lemma get?_eq_none : t.get? key k = none ↔ ∀ r ∈ t.rows, key r ≠ k := by
  simp [get?, find?_eq_none]

section
variable (hkey : ∀ a b, key a = key b → S.clash a b = true)
include hkey

lemma get?_eq_some : t.get? key k = some r ↔ r ∈ t.rows ∧ key r = k := by
  refine ⟨get?_mem, fun ⟨hr, hk⟩ => ?_⟩
  cases hg : t.get? key k with
  | none => exact absurd hk (get?_eq_none.mp hg r hr)
  | some x =>
    obtain ⟨hx, hxk⟩ := get?_mem hg
    rw [t.eq_of_clash hx hr (hkey _ _ (hxk.trans hk.symm))]

/-- A condition that only the row with key `k` can meet selects that row. -/
lemma updated_eq_updated_key {p : ρ → Bool} (hp : ∀ r, p r = true → key r = k) (hr : r ∈ t.rows)
    (hpr : p r = true) (f : ρ → ρ) :
    updated t.rows p f = updated t.rows (fun r => decide (key r = k)) f := by
  refine map_congr_left fun x hx => ?_
  by_cases hxk : key x = k
  · rw [t.eq_of_clash hx hr (hkey _ _ (hxk.trans (hp r hpr).symm))]
    simp [hpr, hp r hpr]
  · have : p x = false := by simpa using mt (hp x) hxk
    simp [this, hxk]

/-- Updating the row with key `k` replaces that row and keeps every other one. -/
lemma mem_updated_key (hr : r ∈ t.rows) (hk : key r = k) {f : ρ → ρ} {x : ρ} :
    x ∈ updated t.rows (fun r => decide (key r = k)) f ↔
      x = f r ∨ (x ∈ t.rows ∧ key x ≠ k) := by
  rw [mem_updated]
  simp only [decide_eq_true_eq, decide_eq_false_iff_not]
  refine or_congr_left ⟨?_, fun h => ⟨r, hr, hk, h.symm⟩⟩
  rintro ⟨y, hy, hyk, rfl⟩
  rw [t.eq_of_clash hy hr (hkey _ _ (hyk.trans hk.symm))]

lemma coe_delete_key [DecidableEq ρ] (hr : r ∈ t.rows) :
    ((t.rows.filter fun x => !decide (key x = key r) : List ρ) : Multiset ρ) =
      (t.rows : Multiset ρ).erase r := by
  have hnodup : t.rows.Nodup := by
    refine t.unique.imp fun h heq => h ?_
    rw [heq]
    exact hkey _ _ rfl
  rw [Multiset.Nodup.erase_eq_filter r (Multiset.coe_nodup.mpr hnodup), Multiset.filter_coe]
  congr 1
  refine filter_congr fun x hx => ?_
  have hiff : key x = key r ↔ x = r := ⟨fun h => t.eq_of_clash hx hr (hkey x r h), fun h => h ▸ rfl⟩
  simp [hiff]

end

end

end Table

end Husker.Relational
