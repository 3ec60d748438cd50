import Husker.Relational.Paths

/-! # The path policy

A path and the entries of an allowlist are compared as texts, after each is normalised.
-/
namespace Husker.Api
open Relational Text List

def normal : Component → Option Text
  | .name seg => some seg
  | _ => none

def joined (out : List Text) : Text := '/' :: ['/'].intercalate out

def normalizeGuestPath (path : Text) : Option Text :=
  if path.head? = some '/' ∧ .parent ∉ Component.parse path then
    some (joined ((Component.parse path).filterMap normal))
  else none

def listed (normalized : Text) (allowlist : List Text) : Bool :=
  allowlist.any fun entry =>
    (normalizeGuestPath entry).any fun p => normalized = p || (p ++ ['/']).isPrefixOf normalized

def isAllowedGuestPath (path : Text) (allowlist : List Text) : Bool :=
  (normalizeGuestPath path).any fun normalized => allowlist.isEmpty || listed normalized allowlist

def isAllowedHostPath (path : Text) (allowlist : List Text) : Bool :=
  !allowlist.isEmpty && (normalizeGuestPath path).any (listed · allowlist)

/-! ## What it is for -/

/-- The components of a path but for the dots. -/
def segments (path : Text) : List Text := (words (· = '/') path).filter (· ≠ ['.'])

/-- An absolute path without a way up. -/
def Clean (path : Text) : Prop := path.head? = some '/' ∧ ['.', '.'] ∉ segments path

def Beneath (entry path : Text) : Prop := Clean entry ∧ segments entry <+: segments path

instance (path : Text) : Decidable (Clean path) := inferInstanceAs (Decidable (_ ∧ _))

instance (entry path : Text) : Decidable (Beneath entry path) := inferInstanceAs (Decidable (_ ∧ _))

variable {path entry n : Text} {xs allowlist : List Text}

lemma parent_mem_parse : .parent ∈ Component.parse path ↔ ['.', '.'] ∈ segments path := by
  have hinner (seg : Text) : .parent ∈ Component.inner seg ↔ seg = ['.', '.'] := by
    unfold Component.inner
    grind
  unfold segments words Component.parse
  cases hsplit : (path.splitOnP (· = '/')).filter (· ≠ []) with
  | nil => simp
  | cons seg segs =>
    simp
    grind

lemma normal_inner {segs : List Text} (h : ∀ seg ∈ segs, seg ≠ [] ∧ seg ≠ ['.', '.']) :
    (segs.flatMap Component.inner).filterMap normal = segs.filter (· ≠ ['.']) := by
  induction segs with
  | nil => rfl
  | cons seg segs ih =>
    rw [forall_mem_cons] at h
    rw [flatMap_cons, filterMap_append, ih h.2, Component.inner]
    by_cases hdot : seg = ['.'] <;> simp [hdot, h.1, normal]

lemma normal_parse (h : ['.', '.'] ∉ segments path) :
    (Component.parse path).filterMap normal = segments path := by
  have hsegs : ∀ seg ∈ words (· = '/') path, seg ≠ [] ∧ seg ≠ ['.', '.'] := by
    intro seg hseg
    refine ⟨ne_nil_of_mem_words hseg, ?_⟩
    rintro rfl
    exact h (mem_filter.mpr ⟨hseg, by decide⟩)
  rw [segments, ← normal_inner hsegs]
  unfold words Component.parse
  cases (path.splitOnP (· = '/')).filter (· ≠ []) with
  | nil => rfl
  | cons seg segs =>
    by_cases hdot : seg = ['.'] <;> simp [hdot, Component.inner, normal, filterMap_cons]

lemma normalizeGuestPath_eq_some :
    normalizeGuestPath path = some n ↔ Clean path ∧ n = joined (segments path) := by
  rw [normalizeGuestPath, Option.ite_none_right_eq_some, parent_mem_parse, Clean]
  grind [normal_parse]

lemma words_joined (path : Text) : words (· = '/') (joined (segments path)) = segments path := by
  have hwords : words (· = '/') (['/'].intercalate (segments path)) = segments path :=
    words_intercalate (c := '/') rfl _ fun w hw => ⟨ne_nil_of_mem_words (mem_of_mem_filter hw),
      not_blank_of_mem_words (mem_of_mem_filter hw)⟩
  exact (words_append (a := []) (by decide)).trans (by simpa [words] using hwords)

lemma joined_eq (hne : xs ≠ []) : joined xs = xs.flatMap ('/' :: ·) := by
  induction xs with
  | nil => contradiction
  | cons x xs ih =>
    cases xs with
    | nil => simp [joined, intercalate]
    | cons y ys => simpa [joined, intercalate] using ih (by simp)

lemma joined_prefix_iff (path : Text) (hroot : segments entry ≠ []) :
    joined (segments path) = joined (segments entry) ∨
        joined (segments entry) ++ ['/'] <+: joined (segments path) ↔
      segments entry <+: segments path := by
  constructor
  · rintro (heq | ⟨rest, hrest⟩)
    · rw [← words_joined path, heq, words_joined]
    · rw [← words_joined path, ← hrest, append_assoc, singleton_append, words_append (by decide),
        words_joined]
      exact prefix_append _ _
  · rintro ⟨rest, hrest⟩
    rw [← hrest, joined_eq (append_ne_nil_of_left_ne_nil hroot _), joined_eq hroot, flatMap_append]
    cases rest with
    | nil => simp
    | cons x xs => simp

lemma listed_iff (path : Text) (hroot : ∀ entry ∈ allowlist, Clean entry → segments entry ≠ []) :
    listed (joined (segments path)) allowlist ↔ ∃ entry ∈ allowlist, Beneath entry path := by
  simp only [listed, any_eq_true, Option.any_eq_true, normalizeGuestPath_eq_some]
  refine exists_congr fun entry => and_congr_right fun hin => ?_
  have hjoined := fun hclean => joined_prefix_iff path (hroot entry hin hclean)
  simpa [Beneath] using hjoined

end Husker.Api
