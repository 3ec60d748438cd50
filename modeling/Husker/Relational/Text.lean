import Mathlib.Tactic

/-! # Cutting texts

A text is a list of characters.  Everything is cut at the first or the last place where it can be.
-/
namespace Husker.Relational
open List Option

abbrev Text := List Char

instance : LawfulBEq Text := inferInstance

namespace Text

def splitOnce (c : Char) : Text → Option (Text × Text)
  | [] => none
  | d :: text =>
    if d = c then some ([], text) else (splitOnce c text).map fun (a, b) => (d :: a, b)

def rsplitOnce (c : Char) (text : Text) : Option (Text × Text) :=
  (splitOnce c text.reverse).map fun (a, b) => (b.reverse, a.reverse)

def stripPrefix ( front text : Text) : Option Text :=
  if front <+: text then some (text.drop front.length) else none

variable {c : Char} {text a b : Text}

lemma splitOnce_eq_none : splitOnce c text = none ↔ c ∉ text := by
  induction text with
  | nil => simp [splitOnce]
  | cons d text ih =>
  rw [splitOnce]
  by_cases hd : d = c
  · simp [hd]
  · simp [hd, ih, Ne.symm hd]

lemma splitOnce_append (h : c ∉ a) : splitOnce c (a ++ c :: b) = some (a, b) := by
  induction a with
  | nil => simp [splitOnce]
  | cons d a ih =>
    have hd : d ≠ c := fun hd => h (hd ▸ (.head _))
    rw [cons_append, splitOnce, if_neg hd, ih fun hmem => h (mem_cons_of_mem _ hmem)]
    rfl

lemma splitOnce_eq_some (h : splitOnce c text = some (a, b)) : text = a ++ c :: b ∧ c ∉ a := by
  induction text generalizing a b with
  | nil => cases h
  | cons d text ih =>
  rw [splitOnce] at h
  split at h
  · cases h
    simp_all
  · rename_i hd
    obtain ⟨⟨a', b'⟩, hrest, heq⟩ := map_eq_some_iff.mp h
    cases heq
    obtain ⟨rfl, hmem⟩ := ih hrest
    exact ⟨rfl, by simp [hmem, Ne.symm hd]⟩

lemma rsplitOnce_append (h : c ∉ b) : rsplitOnce c (a ++ c :: b) = some (a, b) := by
  have hreverse : (a ++ c :: b).reverse = b.reverse ++ c :: a.reverse := by simp
  rw [rsplitOnce, hreverse, splitOnce_append (by simpa using h)]
  simp

lemma rsplitOnce_eq_none : rsplitOnce c text = none ↔ c ∉ text := by
  rw [rsplitOnce, map_eq_none_iff, splitOnce_eq_none, mem_reverse]

lemma stripPrefix_append ( front text : Text) : stripPrefix front (front ++ text) = some text := by
  simp [stripPrefix]

lemma stripPrefix_eq_some {front rest : Text} (h : stripPrefix front text = some rest) :
    text = front ++ rest := by
  unfold stripPrefix at h
  split at h
  · rename_i hfront
    obtain ⟨back, rfl⟩ := hfront
    rw [drop_left] at h
    rw [some.inj h]
  · cases h

/-! ## Words -/

section
variable {blank : Char → Bool} {text a b : Text}

def words (blank : Char → Bool) (text : Text) : List Text := (text.splitOnP blank).filter (· ≠ [])

lemma words_append {c : Char} (hc : blank c = true) :
    words blank (a ++ c :: b) = words blank a ++ words blank b := by
  rw [words, splitOnP_append_cons _ _ hc, filter_append, words, words]

lemma words_word (hne : a ≠ []) (h : ∀ c ∈ a, blank c = false) : words blank a = [a] := by
  rw [words, splitOnP_eq_singleton h]
  simp [hne]

lemma of_mem_splitOnP (h : a ∈ text.splitOnP blank) : ∀ c ∈ a, c ∈ text ∧ blank c = false := by
  induction text generalizing a with
  | nil =>
    rw [splitOnP_nil, mem_singleton] at h
    simp [h]
  | cons d text ih =>
  rw [splitOnP_cons_eq_if_modifyHead] at h
  split at h
  · rcases mem_cons.mp h with rfl | h
    · simp
    · exact fun c hc => (ih h c hc).imp_left (.tail _)
  rename_i hd
  cases hsplit : text.splitOnP blank with
  | nil => simp [hsplit] at h
  | cons first rest =>
  rw [hsplit, modifyHead_cons] at h
  rcases mem_cons.mp h with rfl | h
  · intro c hc
    rcases mem_cons.mp hc with rfl | hc
    · exact ⟨.head _, by simpa using hd⟩
    · exact (ih (by simp [hsplit]) c hc).imp_left (.tail _)
  · exact fun c hc => (ih (by simp [hsplit, h]) c hc).imp_left (.tail _)

lemma not_blank_of_mem_words (h : a ∈ words blank text) : ∀ c ∈ a, blank c = false :=
  fun c hc => (of_mem_splitOnP (mem_of_mem_filter h) c hc).2

lemma ne_nil_of_mem_words (h : a ∈ words blank text) : a ≠ [] := by
  simpa using (mem_filter.mp h).2

lemma words_intercalate {c : Char} (hc : blank c = true) (ws : List Text)
    (h : ∀ w ∈ ws, w ≠ [] ∧ ∀ d ∈ w, blank d = false) : words blank ([c].intercalate ws) = ws := by
  induction ws with
  | nil => simp [words, List.intercalate]
  | cons w ws ih =>
  obtain ⟨hne, hword⟩ := h w (.head _)
  cases ws with
  | nil => simpa [List.intercalate] using words_word hne hword
  | cons w' ws =>
  have hrest := ih fun v hv => h v (.tail _ hv)
  have hsplit : [c].intercalate (w :: w' :: ws) = w ++ c :: [c].intercalate (w' :: ws) := by
    simp [List.intercalate]
  rw [hsplit, words_append hc, words_word hne hword, hrest, singleton_append]

end

end Text
end Husker.Relational
