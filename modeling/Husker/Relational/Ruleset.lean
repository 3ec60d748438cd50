import Mathlib.Tactic

/-! # Ordered rules with handles

Rules stand in the order in which they are tried.  Each has a handle that was never given to
another rule, so a list of handles names exactly the rules it was taken from.
-/
namespace Husker.Relational
open List

structure Entry (ρ : Type) where
  handle : ℕ
  rule : ρ

structure Ruleset (ρ : Type) where
  entries : List (Entry ρ)
  next : ℕ
  pos : 0 < next
  range : ∀ e ∈ entries, 0 < e.handle ∧ e.handle < next
  nodup : (entries.map Entry.handle).Nodup

namespace Ruleset

variable {ρ : Type} (t : Ruleset ρ)

def empty : Ruleset ρ := ⟨[], 1, one_pos, by simp, by simp⟩

def rules : List ρ := t.entries.map Entry.rule

lemma next_notMem : t.next ∉ t.entries.map Entry.handle := by
  intro h
  obtain ⟨e, he, heq⟩ := mem_map.mp h
  exact absurd (t.range e he).2 (by omega)

def append (r : ρ) : Ruleset ρ where
  entries := t.entries ++ [⟨t.next, r⟩]
  next := t.next + 1
  pos := Nat.succ_pos _
  range e he := by
    rcases List.mem_append.mp he with he | he
    · exact ⟨(t.range e he).1, Nat.lt_succ_of_lt (t.range e he).2⟩
    · rw [List.mem_singleton.mp he]
      exact ⟨t.pos, Nat.lt_succ_self _⟩
  nodup := by
    rw [List.map_append]
    refine List.nodup_append.mpr ⟨t.nodup, List.nodup_singleton _, fun a ha b hb hab => ?_⟩
    have hb : b = t.next := List.mem_singleton.mp hb
    exact t.next_notMem (hb ▸ hab ▸ ha)

def prepend (r : ρ) : Ruleset ρ where
  entries := ⟨t.next, r⟩ :: t.entries
  next := t.next + 1
  pos := Nat.succ_pos _
  range e he := by
    rcases List.mem_cons.mp he with rfl | he
    · exact ⟨t.pos, Nat.lt_succ_self _⟩
    · exact ⟨(t.range e he).1, Nat.lt_succ_of_lt (t.range e he).2⟩
  nodup := List.nodup_cons.mpr ⟨t.next_notMem, t.nodup⟩

def keep (p : Entry ρ → Bool) : Ruleset ρ where
  entries := t.entries.filter p
  next := t.next
  pos := t.pos
  range e he := t.range e (List.mem_of_mem_filter he)
  nodup := t.nodup.sublist (List.filter_sublist.map _)

def delete (handle : ℕ) : Ruleset ρ := t.keep fun e => e.handle ≠ handle

variable {t}

lemma rules_empty : (empty : Ruleset ρ).rules = [] := rfl

@[simp] lemma rules_append (r : ρ) : (t.append r).rules = t.rules ++ [r] := by
  simp [rules, append]

@[simp] lemma rules_prepend (r : ρ) : (t.prepend r).rules = r :: t.rules := rfl

@[simp] lemma entries_keep (p : Entry ρ → Bool) : (t.keep p).entries = t.entries.filter p := rfl

lemma entries_foldl_delete (handles : List ℕ) (t : Ruleset ρ) :
    (handles.foldl delete t).entries = t.entries.filter fun e => e.handle ∉ handles := by
  induction handles generalizing t with
  | nil => simp
  | cons h handles ih =>
    rw [foldl_cons, ih, delete, entries_keep, filter_filter]
    refine filter_congr fun e _ => ?_
    simp only [mem_cons, not_or, Bool.decide_and, Bool.and_comm]

lemma handle_inj {e e' : Entry ρ} (he : e ∈ t.entries) (he' : e' ∈ t.entries)
    (h : e.handle = e'.handle) : e = e' :=
  inj_on_of_nodup_map t.nodup he he' h

lemma rules_foldl_delete {handles : List ℕ} {q : ρ → Bool}
    (h : ∀ e ∈ t.entries, e.handle ∈ handles ↔ q e.rule = true) :
    (handles.foldl delete t).rules = t.rules.filter fun r => !q r := by
  rw [rules, rules, entries_foldl_delete, filter_map]
  refine congrArg (List.map Entry.rule) (filter_congr fun e he => ?_)
  simp [h e he]

end Ruleset

/-! ## Texts with a separator -/

lemma append_separator_inj {α : Type} {c : α} {l l' r r' : List α} (hl : c ∉ l) (hl' : c ∉ l')
    (h : l ++ c :: r = l' ++ c :: r') : l = l' ∧ r = r' := by
  induction l generalizing l' with
  | nil =>
    cases l' with
    | nil => exact ⟨rfl, (cons.inj h).2⟩
    | cons x l' => exact absurd (mem_cons.mpr (.inl (cons.inj h).1)) hl'
  | cons x l ih =>
  cases l' with
  | nil => exact absurd (mem_cons.mpr (.inl (cons.inj h).1.symm)) hl
  | cons y l' =>
    obtain ⟨rfl, htail⟩ := cons.inj h
    obtain ⟨rfl, rfl⟩ := ih (fun hc => hl (.tail _ hc)) (fun hc => hl' (.tail _ hc)) htail
    exact ⟨rfl, rfl⟩

end Husker.Relational
