import Husker.Image.Flatten

/-! # Layers as an overlay

A layer hides parts of the tree below it and puts its own entries on top, in whatever order the
archive has them.  The code does the same if no marker comes after an entry that it would delete.
-/
namespace Husker.Image
open Relational List Option
set_option linter.unusedSectionVars false

variable {κ : Type}

/-! ## The specification -/

def names (cs : List Component) : Path :=
  cs.filterMap fun
    | .name n => some n
    | _ => none

inductive Meaning where
  | node (path : Path)
  | whiteout (dir : Path) (name : Text)
  | hideContents (dir : Path)

def meaning (ns : Path) : Meaning :=
  match ns.getLast? with
  | none => .node ns
  | some n =>
    if n = opaqueMarker then .hideContents ns.dropLast
    else
      match Text.stripPrefix whiteoutMarker n with
      | some name => .whiteout ns.dropLast name
      | none => .node ns

/-- What a marker hides of the layers below; names that no file has hide nothing. -/
def Meaning.Hides (realDest : Path) : Meaning → Path → Prop
  | .node _, _ => False
  | .whiteout dir name, q =>
    Ordinary name ∧ realDest ++ dir ++ [name] <+: q
  | .hideContents dir, q => realDest ++ dir <+: q ∧ q ≠ realDest ++ dir

instance (name : Text) : Decidable (Ordinary name) :=
  decidable_of_iff (name ≠ [] ∧ name ≠ ['.'] ∧ name ≠ ['.', '.'])
    ⟨fun h => ⟨h.1, h.2.1, h.2.2⟩, fun h => ⟨h.nonempty, h.current, h.parent⟩⟩

instance (realDest : Path) (m : Meaning) (q : Path) : Decidable (m.Hides realDest q) := by
  cases m <;> unfold Meaning.Hides <;> infer_instance

/-- An entry is written: the way to it are directories, and it replaces what was there, but a
directory keeps what is in it. -/
def put [DecidableEq κ] (path : Path) (node : Node κ) (files : Files κ) : Files κ := fun q =>
  if q = path then some node
  else if q <+: path then some .dir
  else if path <+: q ∧ ¬(node = .dir ∧ files path = some .dir) then none
  else files q

def hide (realDest : Path) (meanings : List Meaning) (files : Files κ) : Files κ := fun q =>
  if ∃ m ∈ meanings, m.Hides realDest q then none else files q

variable [DecidableEq κ]

def Entry.meaning (entry : Entry (Node κ)) : Meaning := Image.meaning (names (Component.parse entry.path))

def putEntry (realDest : Path) (files : Files κ) (entry : Entry (Node κ)) : Files κ :=
  match entry.meaning with
  | .node path => put (realDest ++ path) entry.content files
  | _ => files

/-- A layer over a tree: what it hides goes, and then its entries are written. -/
def overlay (realDest : Path) (files : Files κ) (entries : List (Entry (Node κ))) : Files κ :=
  entries.foldl (putEntry realDest) (hide realDest (entries.map Entry.meaning) files)

/-! ## Order -/

def applyEntry (realDest : Path) (files : Files κ) (entry : Entry (Node κ)) : Files κ :=
  match entry.meaning with
  | .node path => put (realDest ++ path) entry.content files
  | m => hide realDest [m] files

variable {realDest : Path} {files : Files κ} {entry : Entry (Node κ)} {entries : List (Entry (Node κ))}

def Spares (realDest : Path) (entry marker : Entry (Node κ)) : Prop :=
  match entry.meaning with
  | .node path => ¬marker.meaning.Hides realDest (realDest ++ path)
  | _ => True

instance (entry marker : Entry (Node κ)) : Decidable (Spares realDest entry marker) := by
  unfold Spares
  split <;> infer_instance

variable {q : Path} {meanings : List Meaning} {m : Meaning}

lemma Meaning.Hides.below {p : Path} (h : m.Hides realDest p) (hpq : p <+: q) :
    m.Hides realDest q := by
  cases m with
  | node path => exact h
  | whiteout dir name => exact ⟨h.1, h.2.trans hpq⟩
  | hideContents dir =>
    refine ⟨h.1.trans hpq, ?_⟩
    rintro rfl
    exact h.2 (hpq.eq_of_length (le_antisymm hpq.length_le h.1.length_le))

lemma hide_of_hides (hm : m ∈ meanings)
    (h : m.Hides realDest q) : hide realDest meanings files q = none :=
  if_pos ⟨m, hm, h⟩

lemma hide_of_not_hides (h : ∀ m ∈ meanings, ¬m.Hides realDest q) :
    hide realDest meanings files q = files q := by
  apply if_neg
  rintro ⟨m, hm, hhides⟩
  exact h m hm hhides

variable {node : Node κ} {path : Path}

lemma hide_put (h : ∀ m ∈ meanings, ¬m.Hides realDest path) :
    hide realDest meanings (put path node files) = put path node (hide realDest meanings files) := by
  funext q
  by_cases hhidden : ∃ m ∈ meanings, m.Hides realDest q
  · obtain ⟨m, hm, hhides⟩ := hhidden
    have hup : ¬q <+: path := fun hup => h m hm (hhides.below hup)
    have hq : q ≠ path := by
      rintro rfl
      exact hup prefix_rfl
    rw [hide_of_hides hm hhides, put, if_neg hq, if_neg hup, hide_of_hides hm hhides]
    split_ifs <;> rfl
  · push Not at hhidden
    rw [hide_of_not_hides hhidden, put, put, hide_of_not_hides hhidden]
    simp only [hide_of_not_hides h]

lemma hide_nil : hide realDest [] files = files := by
  funext q
  apply hide_of_not_hides
  simp

lemma hide_cons (m : Meaning) (meanings : List Meaning) :
    hide realDest (m :: meanings) files = hide realDest meanings (hide realDest [m] files) := by
  funext q
  unfold hide
  by_cases hm : m.Hides realDest q <;> by_cases hrest : ∃ m' ∈ meanings, m'.Hides realDest q <;>
    simp [hm, hrest]

lemma hide_node (path : Path) (meanings : List Meaning) :
    hide realDest (.node path :: meanings) files = hide realDest meanings files := by
  have hnode : hide realDest [.node path] files = files := by
    funext q
    apply hide_of_not_hides
    simp [Meaning.Hides]
  rw [hide_cons, hnode]

lemma foldl_applyEntry (h : entries.Pairwise (Spares realDest)) :
    entries.foldl (applyEntry realDest) files = overlay realDest files entries := by
  induction entries generalizing files with
  | nil => rw [overlay, map_nil, hide_nil, foldl_nil, foldl_nil]
  | cons entry entries ih =>
  obtain ⟨hspares, hrest⟩ := pairwise_cons.mp h
  rw [foldl_cons, ih hrest, overlay, overlay, foldl_cons, map_cons]
  congr 1
  cases hm : entry.meaning with
  | node path =>
    rw [hide_node, applyEntry, putEntry, hm]
    apply hide_put
    intro m hmem
    obtain ⟨marker, hmarker, rfl⟩ := List.mem_map.mp hmem
    have hspared := hspares marker hmarker
    rwa [Spares, hm] at hspared
  | whiteout dir name | hideContents dir => rw [hide_cons, applyEntry, putEntry, hm]

/-! ## Entries of plain trees -/

structure Plain (place : Destination) (files : Files κ) : Prop where
  tree : files.Tree
  dir : files place.realDest = some .dir
  stands : place.Stands files
  located : ∀ files', Files.AgreesOutside place.realDest files files' →
    files'.locate place.dest = .ok place.realDest
  links : ∀ q, place.realDest <+: q → ∀ absolute target, files q ≠ some (.link absolute target)

/-- An entry of a file or a directory, whose path stays where it is unpacked. -/
structure Entry.Proper (entry : Entry (Node κ)) : Prop where
  safe : isSafeRelative entry.path = true
  link : ∀ absolute target, entry.content ≠ .link absolute target
  root : names (Component.parse entry.path) = [] → entry.content = .dir

/-- Not a marker of a directory by a name such as a dot, and not one of the root after a dot. -/
def Entry.Clear (entry : Entry (Node κ)) : Prop :=
  match entry.meaning with
  | .node _ => True
  | .whiteout dir name => Ordinary name ∨ name = ['.', '.'] ∨ dir = []
  | .hideContents dir => dir = [] → Component.parse entry.path = [.name opaqueMarker]

instance (entry : Entry (Node κ)) : Decidable entry.Clear := by
  unfold Entry.Clear
  split <;> infer_instance

section
variable {place : Destination} {dot : List Component} {dir ns : Path} {name : Text}

lemma Plain.resolve (h : Plain place files) (hdot : dot = [] ∨ dot = [.current])
    (ns : Path) (n : Text) : resolveInsideRootfs place files (dot ++ ns.map .name ++ [.name n]) =
      .ok (if (files (place.realDest ++ ns)).isSome then some (place.realDest ++ ns ++ [n]) else none) := by
  have hlast : Component.fileName (dot ++ ns.map .name ++ [.name n]) = some n := by
    simp [Component.fileName]
  obtain ⟨r, hfollow, hr⟩ := Files.follow_names h.tree h.dir h.links ns
  have hgo : ∀ link, files.follow link place.realDest (dot ++ ns.map .name) = r := by
    rcases hdot with rfl | rfl
    · exact hfollow
    · exact hfollow
  have hparent : files.canonicalize (place.dest ++ (dot ++ ns.map .name)) = r :=
    Files.walk_append h.dir hgo (h.stands files .refl)
  unfold resolveInsideRootfs
  rw [hlast, dropLast_concat]
  dsimp only
  rw [hparent]
  rcases hr with ⟨hnone, rfl | rfl⟩ | ⟨hsome, rfl⟩
  · simp [hnone]
  · simp [hnone]
  · simp [hsome]

section
variable (htree : files.Tree)
include htree

lemma removePath_files (path : Path) :
    (removePath files path).1 = fun q => if path <+: q then none else files q := by
  have hbelow : files path ≠ some .dir → ∀ q, path <+: q → q ≠ path → files q = none := by
    intro hdir q hq hne
    by_contra hsome
    exact hdir (htree.dir_of_starts (isSome_iff_ne_none.mpr hsome) hq hne.symm)
  unfold removePath
  split
  · rfl
  · rename_i node hnode hpath
    funext q
    dsimp only
    by_cases hq : q = path
    · simp [hq]
    rw [if_neg hq]
    split_ifs with hstarts
    · refine hbelow ?_ q hstarts hq
      rw [hpath]
      simpa using hnode
    · rfl
  · rename_i hpath
    funext q
    dsimp only
    split_ifs with hstarts
    · by_cases hq : q = path
      · rw [hq, hpath]
      · exact hbelow (by simp [hpath]) q hstarts hq
    · rfl

lemma clearDir_files (dir : Path) :
    (clearDir files dir).1 = fun q => if dir <+: q ∧ q ≠ dir then none else files q := by
  unfold clearDir
  split
  · rfl
  rename_i hdir
  funext q
  dsimp only
  split_ifs with hq
  · by_contra hsome
    exact hdir (htree.dir_of_starts (isSome_iff_ne_none.mpr hsome) hq.1 hq.2.symm)
  · rfl

lemma hide_whiteout (hname : Ordinary name) :
    hide realDest [.whiteout dir name] files = (removePath files (realDest ++ dir ++ [name])).1 := by
  rw [removePath_files htree]
  funext q
  simp [hide, Meaning.Hides, hname]

lemma hide_hideContents :
    hide realDest [.hideContents dir] files = (clearDir files (realDest ++ dir)).1 := by
  rw [clearDir_files htree]
  funext q
  simp [hide, Meaning.Hides]

lemma hide_missing (hdir : files dir = none)
    (hm : ∀ q, m.Hides realDest q → dir <+: q) : hide realDest [m] files = files := by
  funext q
  by_cases hq : m.Hides realDest q
  · rw [hide_of_hides mem_cons_self hq, eq_comm]
    by_contra hsome
    by_cases hne : dir = q
    · exact hsome (hne ▸ hdir)
    · cases hdir.symm.trans (htree.dir_of_starts (isSome_iff_ne_none.mpr hsome) (hm q hq) hne)
  · apply hide_of_not_hides
    simpa using hq

end

lemma classifyEntry_eq (hdot : dot = [] ∨ dot = [.current]) (ns : Path) :
    classifyEntry (dot ++ ns.map .name) =
      match meaning ns with
      | .node _ => (.regular, dot ++ ns.map .name)
      | .whiteout dir name => (.whiteout, joinName (dot ++ dir.map .name) name)
      | .hideContents dir => (.opaqueDir, dot ++ dir.map .name) := by
  induction ns using List.reverseRecOn with
  | nil =>
    rcases hdot with rfl | rfl
    · decide
    · decide
  | append_singleton ns n _ =>
  have hlast : Component.fileName (dot ++ (ns ++ [n]).map .name) = some n := by
    simp [Component.fileName]
  have hparent : (dot ++ (ns ++ [n]).map Component.name).dropLast = dot ++ ns.map .name := by
    rw [map_append, ← append_assoc, map_singleton, dropLast_concat]
  unfold classifyEntry meaning
  rw [hlast, hparent, getLast?_concat, dropLast_concat]
  dsimp only [getD_some]
  by_cases hmarker : n = opaqueMarker
  · rw [if_pos hmarker, if_pos hmarker]
  · rw [if_neg hmarker, if_neg hmarker]
    cases Text.stripPrefix whiteoutMarker n <;> rfl

lemma meaning_node (h : meaning ns = .node path) : path = ns := by
  unfold meaning at h
  split at h
  · cases h
    rfl
  · split_ifs at h
    split at h <;> cases h
    rfl

lemma meaning_whiteout (h : meaning ns = .whiteout dir name) : whiteoutMarker ++ name ∈ ns := by
  unfold meaning at h
  split at h
  · cases h
  rename_i n hlast
  split_ifs at h
  split at h <;> cases h
  rename_i hstrip
  rw [← Text.stripPrefix_eq_some hstrip]
  exact mem_of_getLast? hlast

lemma joinName_of_ordinary (parent : List Component) (hname : Ordinary name)
    (hslash : '/' ∉ name) : joinName parent name = parent ++ [.name name] := by
  unfold joinName
  split_ifs with hparent
  · subst hparent
    have hsplit : name.splitOnP (· = '/') = [name] := by
      apply splitOnP_eq_singleton
      simpa using fun c hc => by
        rintro rfl
        exact hslash hc
    simp [Component.parse, hsplit, hname.nonempty, hname.current, hname.inner]
  · rw [hname.inner]

/-- A name no file has: the path of the marker's target ends before it. -/
lemma fileName_joinName (hdot : dot = [] ∨ dot = [.current]) (hname : ¬Ordinary name)
    (h : name = ['.', '.'] ∨ dir = []) :
    Component.fileName (joinName (dot ++ dir.map .name) name) = none := by
  have hnames : name = [] ∨ name = ['.'] ∨ name = ['.', '.'] := by
    by_contra hnot
    push Not at hnot
    exact hname ⟨hnot.1, hnot.2.1, hnot.2.2⟩
  rcases h with rfl | rfl
  · unfold joinName
    split_ifs
    · decide
    · simp [Component.fileName, Component.inner]
  · rcases hdot with rfl | rfl <;> rcases hnames with rfl | rfl | rfl <;> decide

/-- What is assumed of `tar`: a file or a directory is written where its path says. -/
def Faithful (place : Destination) (unpackIn : Files κ → Entry (Node κ) → Except Text (Files κ)) : Prop :=
  ∀ files entry, Plain place files → entry.Proper →
    unpackIn files entry =
      .ok (put (place.realDest ++ names (Component.parse entry.path)) entry.content files)

variable {unpackIn : Files κ → Entry (Node κ) → Except Text (Files κ)}

lemma unpackEntry_whiteout (hplain : Plain place files) (hdot : dot = [] ∨ dot = [.current])
    (hslash : '/' ∉ name) (hclear : Ordinary name ∨ name = ['.', '.'] ∨ dir = []) :
    ∃ target removals, resolveInsideRootfs place files (joinName (dot ++ dir.map .name) name) = .ok target ∧
      (match target with
        | some target => removePath files target
        | none => (files, [])) = (hide place.realDest [.whiteout dir name] files, removals) := by
  by_cases hname : Ordinary name
  · rw [joinName_of_ordinary _ hname hslash, hplain.resolve hdot]
    split_ifs with hdir
    · exact ⟨_, _, rfl, by rw [hide_whiteout hplain.tree hname]⟩
    · refine ⟨_, [], rfl, ?_⟩
      rw [hide_missing hplain.tree (not_isSome_iff_eq_none.mp hdir)]
      intro q hq
      exact (prefix_append _ [name]).trans hq.2
  · have hnone := fileName_joinName hdot hname (hclear.resolve_left hname)
    refine ⟨none, [], by rw [resolveInsideRootfs, hnone], ?_⟩
    have hkept : hide place.realDest [.whiteout dir name] files = files := by
      funext q
      apply hide_of_not_hides
      simp [Meaning.Hides, hname]
    rw [hkept]

lemma unpackEntry_hideContents (hplain : Plain place files) (hdot : dot = [] ∨ dot = [.current])
    (hne : dir ≠ []) :
    ∃ target removals, resolveInsideRootfs place files (dot ++ dir.map .name) = .ok target ∧
      (match target with
        | some target => clearDir files target
        | none => (files, [])) = (hide place.realDest [.hideContents dir] files, removals) := by
  obtain ⟨parent, n, rfl⟩ := eq_nil_or_concat dir |>.resolve_left hne
  rw [concat_eq_append, map_append, ← append_assoc, map_singleton, hplain.resolve hdot]
  split_ifs with hdir
  · exact ⟨_, _, rfl, by rw [hide_hideContents hplain.tree, append_assoc]⟩
  · refine ⟨_, [], rfl, ?_⟩
    rw [hide_missing hplain.tree (not_isSome_iff_eq_none.mp hdir)]
    intro q hq
    rw [Meaning.Hides, ← append_assoc] at hq
    exact (prefix_append _ [n]).trans hq.1

lemma unpackEntry_eq (hplain : Plain place files) (hunpack : Faithful place unpackIn)
    (hproper : entry.Proper) (hclear : entry.Clear) :
    ∃ removals, unpackEntry place unpackIn files entry =
      .ok (applyEntry place.realDest files entry, removals) := by
  have hsafe := hproper.safe
  simp only [isSafeRelative, Bool.and_eq_true, decide_eq_true_eq] at hsafe
  obtain ⟨dot, ns, hdot, hparse, hslash⟩ := Component.parse_shape hsafe.2
  have hnames : names (Component.parse entry.path) = ns := by
    rw [hparse]
    rcases hdot with rfl | rfl <;> simp [names, filterMap_map]
  have hmeaning : entry.meaning = meaning ns := by rw [Entry.meaning, hnames]
  unfold unpackEntry
  rw [if_neg (by simp [hproper.safe]), hparse, classifyEntry_eq hdot, applyEntry, hmeaning]
  unfold Entry.Clear at hclear
  rw [hmeaning] at hclear
  cases hm : meaning ns with
  | node path =>
    cases meaning_node hm
    dsimp only
    rw [hunpack files entry hplain hproper, hnames]
    exact ⟨[], rfl⟩
  | whiteout dir name =>
    rw [hm] at hclear
    have hname : '/' ∉ name := fun hmem =>
      hslash _ (meaning_whiteout hm) (mem_append_right _ hmem)
    obtain ⟨target, removals, hresolve, hremove⟩ := unpackEntry_whiteout hplain hdot hname hclear
    refine ⟨removals, ?_⟩
    dsimp only
    rw [hresolve, ← hremove]
    cases target <;> rfl
  | hideContents dir =>
  rw [hm] at hclear
  dsimp only
  by_cases hdir : dir = []
  · have hroot := hclear hdir
    subst hdir
    have hnodot : dot = [] := by
      rw [hparse] at hroot
      rcases hdot with rfl | rfl
      · rfl
      · simp at hroot
    subst hnodot
    rw [if_pos (by rfl), hplain.located files .refl]
    dsimp only
    exact ⟨_, by rw [hide_hideContents hplain.tree, append_nil]; rfl⟩
  · obtain ⟨target, removals, hresolve, hclearDir⟩ := unpackEntry_hideContents hplain hdot hdir
    refine ⟨removals, ?_⟩
    rw [if_neg (by simp [hdir]), hresolve, ← hclearDir]
    cases target <;> rfl

/-! ## Layers of plain trees -/

lemma Plain.of_agrees {files' : Files κ} (h : Plain place files)
    (houtside : Files.AgreesOutside place.realDest files files') (htree : files'.Tree)
    (hlinks : ∀ q, place.realDest <+: q → ∀ absolute target, files' q ≠ some (.link absolute target)) :
    Plain place files' where
  tree := htree
  dir := (houtside _ (by simp)).trans h.dir
  stands := fun files'' h'' => h.stands files'' (houtside.trans h'')
  located := fun files'' h'' => h.located files'' (houtside.trans h'')
  links := hlinks

lemma Meaning.Hides.inside {q : Path} (h : m.Hides realDest q) : realDest <+: q ∧ q ≠ realDest := by
  cases m with
  | node path => exact h.elim
  | whiteout dir name =>
    obtain ⟨rest, rfl⟩ := h.2
    simp
  | hideContents dir =>
  obtain ⟨⟨rest, rfl⟩, hne⟩ := h
  refine ⟨by simp, fun heq => hne ?_⟩
  simp at heq
  simp [heq]

lemma Plain.hide (h : Plain place files) (meanings : List Meaning) :
    Plain place (hide place.realDest meanings files) := by
  apply h.of_agrees
  · intro q hq
    apply hide_of_not_hides
    exact fun m _ hm => hq hm.inside
  · intro p n hn
    by_cases hhidden : ∃ m ∈ meanings, m.Hides place.realDest (p ++ [n])
    · obtain ⟨m, hm, hhides⟩ := hhidden
      rw [hide_of_hides hm hhides] at hn
      cases hn
    · push Not at hhidden
      rw [hide_of_not_hides hhidden] at hn
      rw [hide_of_not_hides, h.tree p n hn]
      exact fun m hm hp => hhidden m hm (hp.below (prefix_append p [n]))
  · intro q hq absolute target hlink
    unfold Image.hide at hlink
    split_ifs at hlink
    exact h.links q hq _ _ hlink

lemma put_tree (htree : files.Tree) : (put path node files).Tree := by
  intro p n hn
  unfold put at hn ⊢
  by_cases hup : p ++ [n] <+: path
  · have hp : p <+: path := (prefix_append p [n]).trans hup
    have hne : p ≠ path := by
      rintro rfl
      simpa using hup.length_le
    rw [if_neg hne, if_pos hp]
  have hne : p ++ [n] ≠ path := by
    rintro rfl
    exact hup prefix_rfl
  rw [if_neg hne, if_neg hup] at hn
  split_ifs at hn with hbelow
  · cases hn
  have hdir := htree p n hn
  split_ifs with hp hstarts hkept
  · subst hp
    by_contra hnode
    exact hbelow ⟨prefix_append p [n], fun h => hnode (by rw [h.1])⟩
  · rfl
  · exact absurd ⟨hkept.1.trans (prefix_append p [n]), hkept.2⟩ hbelow
  · exact hdir

lemma Plain.put (h : Plain place files) (hlink : ∀ absolute target, node ≠ .link absolute target) (hroot : ns = [] → node = .dir) :
    Plain place (put (place.realDest ++ ns) node files) := by
  apply h.of_agrees
  · intro q hq
    unfold Image.put
    split_ifs with heq hup hbelow
    · subst heq
      have hns : ns = [] := by
        by_contra hne
        exact hq ⟨prefix_append _ _, by simpa using hne⟩
      rw [hroot hns, hns, append_nil, h.dir]
    · -- outside, the way to the entry is the way to the destination
      by_cases hdest : q = place.realDest
      · rw [hdest, h.dir]
      · have hstarts : q <+: place.realDest := by
          refine ( prefix_or_prefix_of_prefix hup (prefix_append _ _)).resolve_right fun hin => ?_
          exact hq ⟨hin, hdest⟩
        rw [h.tree.dir_of_starts (by rw [h.dir]; rfl) hstarts hdest]
    · refine absurd ⟨(prefix_append _ _).trans hbelow.1, ?_⟩ hq
      rintro rfl
      exact heq (hbelow.1.eq_of_length (le_antisymm hbelow.1.length_le (by simp))).symm
    · rfl
  · exact put_tree h.tree
  · intro q hq absolute target
    unfold Image.put
    split_ifs
    · simpa using hlink absolute target
    · simp
    · simp
    · exact h.links q hq absolute target

lemma Plain.applyEntry (h : Plain place files) (hproper : entry.Proper) :
    Plain place (applyEntry place.realDest files entry) := by
  unfold Image.applyEntry
  split
  · rename_i path hm
    cases meaning_node hm
    exact h.put hproper.link hproper.root
  · exact h.hide _

lemma unpackEntries_eq (hplain : Plain place files) (hunpack : Faithful place unpackIn)
    (hentries : ∀ entry ∈ entries, entry.Proper ∧ entry.Clear) :
    (unpackEntries place unpackIn files entries).2 =
      .ok (entries.foldl (applyEntry place.realDest) files) := by
  induction entries generalizing files with
  | nil => rfl
  | cons entry entries ih =>
  obtain ⟨hproper, hclear⟩ := hentries entry (.head _)
  obtain ⟨removals, hentry⟩ := unpackEntry_eq hplain hunpack hproper hclear
  rw [unpackEntries, hentry]
  exact ih (hplain.applyEntry hproper) fun e he => hentries e (.tail _ he)

lemma Plain.foldl_applyEntry (h : Plain place files) (hentries : ∀ entry ∈ entries, entry.Proper) :
    Plain place (entries.foldl (Image.applyEntry place.realDest) files) := by
  induction entries generalizing files with
  | nil => exact h
  | cons entry entries ih =>
    exact ih (h.applyEntry (hentries entry (.head _)))
      fun e he => hentries e (.tail _ he)

/-- A layer whose markers come before the entries they would delete, and have names. -/
structure Layer.Tidy (realDest : Path) (layer : Layer (Node κ)) : Prop where
  clear : ∀ entry ∈ layer.entries, entry.Clear
  order : layer.entries.Pairwise (Spares realDest)

lemma flattenLoop_eq {limit used : ℕ} {layers : List (Layer (Node κ))} (hplain : Plain place files)
    (hunpack : Faithful place unpackIn) (hknown : ∀ layer ∈ layers, layer.known = true)
    (hproper : ∀ layer ∈ layers, ∀ entry ∈ layer.entries, entry.Proper)
    (htidy : ∀ layer ∈ layers, layer.Tidy place.realDest)
    (hsize : used + (layers.map Layer.size).sum ≤ limit) :
    flattenLoop place unpackIn limit files used layers =
      .ok (layers.foldl (fun files layer => overlay place.realDest files layer.entries) files) := by
  induction layers generalizing files used with
  | nil => rfl
  | cons layer layers ih =>
  rw [map_cons, sum_cons] at hsize
  have htop := htidy layer (.head _)
  have hentries := hproper layer (.head _)
  have hrun : (unpackEntries place unpackIn files layer.entries).2 =
      .ok (overlay place.realDest files layer.entries) := by
    rw [unpackEntries_eq hplain hunpack fun e he => ⟨hentries e he, htop.clear e he⟩,
      foldl_applyEntry htop.order]
  have hlayer : applyLayer place unpackIn limit files used layer =
      .ok (overlay place.realDest files layer.entries, used + layer.size) := by
    have hfits : ¬used + layer.size > limit := by omega
    unfold applyLayer
    rw [if_neg (by simp [hknown layer mem_cons_self]), if_neg hfits, hrun]
  have hplain' : Plain place (overlay place.realDest files layer.entries) := by
    rw [← foldl_applyEntry htop.order]
    exact hplain.foldl_applyEntry hentries
  rw [flattenLoop, hlayer]
  exact ih hplain' (fun l hl => hknown l (.tail _ hl))
    (fun l hl => hproper l (.tail _ hl))
    (fun l hl => htidy l (.tail _ hl)) (by omega)

end

/-! ## Samples -/

/-- `tar` on files and directories. -/
def unpackPlain (place : Destination) (files : Files Unit) (entry : Entry (Node Unit)) :
    Except Text (Files Unit) :=
  .ok (put (place.realDest ++ names (Component.parse entry.path)) entry.content files)

def layerOf (entries : List (String × Node Unit)) : Layer (Node Unit) :=
  ⟨true, 1, entries.map fun (path, node) => ⟨path.toList, node⟩⟩

lemma sampleFiles_plain : Plain sampleDest sampleFiles where
  tree := sampleFiles_tree
  dir := by decide
  stands := sampleDest_stands
  located := by
    intro files' hagrees
    rfl
  links := by
    intro q hq absolute target hlink
    unfold sampleFiles at hlink
    split_ifs at hlink
    cases hlink

/-- What is at a path of the destination after the layers, and what should be there. -/
def flattened (layers : List (Layer (Node Unit))) (path : List String) :
    Except FlattenError (Option (Node Unit)) × Option (Node Unit) :=
  let q := sampleDest.realDest ++ path.map String.toList
  ((flattenLayers sampleDest (unpackPlain sampleDest) 10 sampleFiles layers).map (· q),
    layers.foldl (fun files layer => overlay sampleDest.realDest files layer.entries) sampleFiles q)

def lowerLayer : Layer (Node Unit) := layerOf [("a", .file ()), ("b", .dir), ("b/c", .file ())]

def upperLayer : Layer (Node Unit) :=
  layerOf [("./.wh.a", .file ()), ("b/.wh..wh..opq", .file ()), ("b/d", .file ())]

end Husker.Image
