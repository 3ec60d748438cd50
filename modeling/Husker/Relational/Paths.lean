import Husker.Relational.Text

/-! # Paths in a tree with links

A tree of files is a partial function on paths from its root.  A path that is followed component by
component goes on at the target of each link it meets, up to a number of links.
-/
namespace Husker.Relational
open List

abbrev Path := List Text

inductive Component where
  | current
  | parent
  | name (n : Text)
  deriving DecidableEq

inductive Node (κ : Type) where
  | dir
  | file (content : κ)
  /-- An absolute target starts at the root, another one where the link is. -/
  | link (absolute : Bool) (target : List Component)
  deriving DecidableEq

abbrev Files (κ : Type) := Path → Option (Node κ)

inductive Failure where
  | notFound
  | notADirectory
  | tooManyLinks
  deriving DecidableEq

open Component

namespace Component

/-- A component after the first; a dot says nothing there. -/
def inner (seg : Text) : List Component :=
  if seg = [] ∨ seg = ['.'] then [] else if seg = ['.', '.'] then [.parent] else [.name seg]

def parse (path : Text) : List Component :=
  match (path.splitOnP (· = '/')).filter (· ≠ []) with
  | [] => []
  | seg :: segs => (if seg = ['.'] then [.current] else inner seg) ++ segs.flatMap inner

def fileName (cs : List Component) : Option Text :=
  match cs.getLast? with
  | some (.name n) => some n
  | _ => none

lemma inner_shape {seg : Text} (h : parent ∉ inner seg) :
    inner seg = [] ∨ inner seg = [.name seg] := by
  unfold inner at h ⊢
  split_ifs at h ⊢
  · exact .inl rfl
  · simp at h
  · exact .inr rfl

lemma flatMap_inner_shape (segs : List Text) (h : parent ∉ segs.flatMap inner) :
    ∃ ns : List Text, segs.flatMap inner = ns.map .name ∧ ∀ n ∈ ns, n ∈ segs := by
  induction segs with
  | nil => exact ⟨[], rfl, by simp⟩
  | cons seg segs ih =>
  simp only [flatMap_cons, mem_append, not_or] at h ⊢
  obtain ⟨ns, hns, hmem⟩ := ih h.2
  rw [hns]
  rcases inner_shape h.1 with hseg | hseg
  · exact ⟨ns, by rw [hseg, nil_append], fun n hn => mem_cons_of_mem _ (hmem n hn)⟩
  · refine ⟨seg :: ns, by rw [hseg]; rfl, ?_⟩
    simpa using fun n hn => Or.inr (hmem n hn)

/-- A path without a way up: names, and perhaps a dot before them. -/
lemma parse_shape {path : Text} (h : parent ∉ parse path) :
    ∃ (dot : List Component) (ns : List Text), (dot = [] ∨ dot = [current]) ∧ parse path = dot ++ ns.map .name ∧
      ∀ n ∈ ns, '/' ∉ n := by
  have hslash : ∀ n ∈ (path.splitOnP (· = '/')).filter (· ≠ []), '/' ∉ n := by
    intro n hn hmem
    have := (Text.of_mem_splitOnP (mem_of_mem_filter hn) '/' hmem).2
    simp at this
  unfold parse at h ⊢
  split at h
  · exact ⟨[], [], .inl rfl, rfl, by simp⟩
  rename_i seg segs hsegs
  rw [hsegs] at hslash
  simp only [mem_append, not_or] at h
  obtain ⟨ns, hns, hmem⟩ := flatMap_inner_shape segs h.2
  have hrest : ∀ n ∈ ns, '/' ∉ n := fun n hn => hslash n (.tail _ (hmem n hn))
  rw [hns]
  split_ifs at h ⊢ with hdot
  · exact ⟨[.current], ns, .inr rfl, rfl, hrest⟩
  · rcases inner_shape h.1 with hseg | hseg
    · exact ⟨[], ns, .inl rfl, by rw [hseg], hrest⟩
    · refine ⟨[], seg :: ns, .inl rfl, by rw [hseg]; rfl, ?_⟩
      simpa using ⟨hslash seg (.head _), hrest⟩

end Component

variable {ds : List Component} {here : Path} {r : Except Failure Path}

namespace Files

variable {κ : Type} (files : Files κ)

def follow (link : Path → List Component → Except Failure Path) :
    Path → List Component → Except Failure Path
  | here, [] => .ok here
  | here, .current :: rest => follow link here rest
  | here, .parent :: rest => follow link here.dropLast rest
  | here, .name n :: rest =>
    match files (here ++ [n]) with
    | none => .error .notFound
    | some .dir => follow link (here ++ [n]) rest
    | some (.file _) => if rest = [] then .ok (here ++ [n]) else .error .notADirectory
    | some (.link absolute target) => link (if absolute then [] else here) (target ++ rest)

def walk : ℕ → Path → List Component → Except Failure Path
  | 0 => files.follow fun _ _ => .error .tooManyLinks
  | links + 1 => files.follow (walk links)

def maxLinks : ℕ := 40

def canonicalize (cs : List Component) : Except Failure Path := files.walk maxLinks [] cs

def locate (cs : List Component) : Except Failure Path :=
  match Component.fileName cs with
  | some n => (files.canonicalize cs.dropLast).map (· ++ [n])
  | none => files.canonicalize cs

def AgreesOutside (dir : Path) (files files' : Files κ) : Prop :=
  ∀ q, ¬(dir <+: q ∧ q ≠ dir) → files' q = files q

variable {files} {files' files'' : Files κ} {dir : Path}

lemma AgreesOutside.refl : AgreesOutside dir files files := fun _ _ => rfl

lemma AgreesOutside.trans (h : AgreesOutside dir files files')
    (h' : AgreesOutside dir files' files'') : AgreesOutside dir files files'' :=
  fun q hq => (h' q hq).trans (h q hq)

/-! ## Trees -/

def Tree (files : Files κ) : Prop := ∀ p n, (files (p ++ [n])).isSome → files p = some .dir

variable {p : Path} {cs : List Component}

lemma Tree.dir_of_starts (htree : files.Tree) {q : Path} (hq : (files q).isSome) (hp : p <+: q)
    (hne : p ≠ q) : files p = some .dir := by
  obtain ⟨rest, rfl⟩ := hp
  induction rest using List.reverseRecOn with
  | nil => simp at hne
  | append_singleton rest n ih =>
  rw [← append_assoc] at hq
  have hdir := htree _ _ hq
  cases rest with
  | nil => simpa using hdir
  | cons m rest => exact ih (by rw [hdir]; rfl) (by simp)

lemma follow_append {link : Path → List Component → Except Failure Path} (hdir : files p = some .dir)
    (hrest : files.follow link p ds = r)
    (hlink : ∀ here cs, link here cs = .ok p → link here (cs ++ ds) = r)
    (h : files.follow link here cs = .ok p) : files.follow link here (cs ++ ds) = r := by
  induction cs generalizing here with
  | nil =>
    cases h
    exact hrest
  | cons c cs ih =>
  cases c with
  | current => exact ih h
  | parent => exact ih h
  | name m =>
  rw [cons_append, follow]
  rw [follow] at h
  split at h
  · cases h
  · exact ih h
  · rename_i hm
    split at h <;> cases h
    cases hm.symm.trans hdir
  · rw [← append_assoc]
    exact hlink _ _ h

lemma walk_append {links : ℕ} (hdir : files p = some .dir) (hrest : ∀ link, files.follow link p ds = r)
    (h : files.walk links here cs = .ok p) : files.walk links here (cs ++ ds) = r := by
  induction links generalizing here cs with
  | zero => exact follow_append hdir (hrest _) nofun h
  | succ links ih => exact follow_append hdir (hrest _) (fun _ _ => ih) h

lemma follow_names (htree : files.Tree) (hdir : files p = some .dir)
    (hlinks : ∀ q, p <+: q → ∀ absolute target, files q ≠ some (.link absolute target))
    (ns : List Text) : ∃ r, (∀ link, files.follow link p (ns.map .name) = r) ∧
      (files (p ++ ns) = none ∧ (r = .error .notFound ∨ r = .error .notADirectory) ∨
        (files (p ++ ns)).isSome ∧ r = .ok (p ++ ns)) := by
  induction ns generalizing p with
  | nil => exact ⟨.ok p, fun link => rfl, .inr ⟨by simp [hdir], by simp⟩⟩
  | cons n ns ih =>
  have hnone : files (p ++ [n]) ≠ some .dir → ns ≠ [] ∨ files (p ++ [n]) = none →
      files (p ++ n :: ns) = none := by
    intro hn hor
    rw [Option.eq_none_iff_forall_not_mem]
    intro node hnode
    by_cases hns : ns = []
    · subst hns
      rw [hor.resolve_left (by simp)] at hnode
      cases hnode
    · refine hn (htree.dir_of_starts (Option.isSome_of_mem hnode) ⟨ns, by simp⟩ ?_)
      simpa using Ne.symm hns
  simp only [map_cons, follow]
  cases hn : files (p ++ [n]) with
  | none => exact ⟨_, fun link => rfl, .inl ⟨hnone (by simp [hn]) (.inr hn), .inl rfl⟩⟩
  | some node =>
  cases node with
  | dir =>
    have hgo := ih hn fun q hq => hlinks q ((prefix_append p [n]).trans hq)
    simpa using hgo
  | file content =>
    by_cases hns : ns = []
    · subst hns
      exact ⟨_, fun link => rfl, .inr ⟨by simp [hn], rfl⟩⟩
    · refine ⟨.error .notADirectory, fun link => ?_, .inl ⟨hnone (by simp [hn]) (.inl hns), .inr rfl⟩⟩
      simp [hns]
  | link absolute target => exact absurd hn (hlinks _ (prefix_append p [n]) _ _)

lemma eq_append_of_fileName {n : Text} (h : fileName cs = some n) :
    cs = cs.dropLast ++ [.name n] := by
  unfold fileName at h
  split at h
  · rename_i m hlast
    cases h
    exact (dropLast_append_getLast? _ hlast).symm
  · cases h

lemma canonicalize_of_locate (htree : files.Tree)
    (h : files.locate cs = .ok p) (hdir : files p = some .dir) : files.canonicalize cs = .ok p := by
  unfold locate at h
  split at h
  · rename_i n hname
    cases hparent : files.canonicalize cs.dropLast with
    | error e => simp [hparent, Except.map] at h
    | ok parent =>
    simp only [hparent, Except.map] at h
    cases h
    rw [eq_append_of_fileName hname]
    apply walk_append (htree _ n (by rw [hdir]; rfl)) _ hparent
    intro link
    simp [follow, hdir]
  · exact h

end Files
end Husker.Relational
