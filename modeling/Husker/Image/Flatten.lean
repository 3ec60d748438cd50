import Husker.Relational.Paths
import Husker.Image.Reference

/-! # Flattening the layers of an image

A layer is unpacked entry by entry.  Markers delete what is there at that moment, below the
destination and never through a link.
-/
namespace Husker.Image
open Relational List Files

variable {κ : Type}

inductive WhiteoutKind where
  | regular
  | whiteout
  | opaqueDir
  deriving DecidableEq

def opaqueMarker : Text := ".wh..wh..opq".toList

def whiteoutMarker : Text := ".wh.".toList

/-- `format!("{parent}/{name}")`, or the name alone. -/
def joinName (parent : List Component) (name : Text) : List Component :=
  if parent = [] then Component.parse name else parent ++ Component.inner name

def classifyEntry (path : List Component) : WhiteoutKind × List Component :=
  let name := (Component.fileName path).getD []
  if name = opaqueMarker then (.opaqueDir, path.dropLast)
  else
    match Text.stripPrefix whiteoutMarker name with
    | some target => (.whiteout, joinName path.dropLast target)
    | none => (.regular, path)

def isSafeRelative (path : Text) : Bool :=
  path.head? ≠ some '/' && Component.parent ∉ Component.parse path

inductive Removal where
  | tree (path : Path)
  | contents (dir : Path)

def Removal.Removes : Removal → Path → Prop
  | .tree path, q => path <+: q
  | .contents dir, q => dir <+: q ∧ q ≠ dir

def removePath (files : Files κ) (path : Path) : Files κ × List Removal :=
  match files path with
  | some .dir => (fun q => if path <+: q then none else files q, [.tree path])
  | some _ => (fun q => if q = path then none else files q, [.tree path])
  | none => (files, [])

def clearDir (files : Files κ) (dir : Path) : Files κ × List Removal :=
  match files dir with
  | some .dir => (fun q => if dir <+: q ∧ q ≠ dir then none else files q, [.contents dir])
  | _ => (files, [])

def text (cs : List Component) : Text :=
  ['/'].intercalate (cs.map fun
    | .current => ['.']
    | .parent => ['.', '.']
    | .name n => n)

structure Destination where
  dest : List Component
  realDest : Path

section
variable (place : Destination)

/-- The containing directory is resolved and the last component is not.  Nothing, if there is no
such directory. -/
def resolveInsideRootfs (files : Files κ) (relative : List Component) : Except Text (Option Path) :=
  match Component.fileName relative with
  | none => .ok none
  | some name =>
    match files.canonicalize (place.dest ++ relative.dropLast) with
    | .ok realParent =>
      if place.realDest <+: realParent then .ok (some (realParent ++ [name]))
      else .error ("layer entry ".toList ++ text relative ++ " resolves outside the rootfs".toList)
    | .error .notFound | .error .notADirectory => .ok none
    | .error .tooManyLinks =>
      .error ("resolve layer entry ".toList ++ text relative ++ ": too many links".toList)

structure Entry (κ : Type) where
  path : Text
  content : κ

variable {ι : Type} (unpackIn : Files κ → Entry ι → Except Text (Files κ))

def unpackEntry (files : Files κ) (entry : Entry ι) : Except Text (Files κ × List Removal) :=
  if !isSafeRelative entry.path then .error ("unsafe layer entry path: ".toList ++ entry.path)
  else
    match classifyEntry (Component.parse entry.path) with
    | (.regular, _) => do
      let files ← (unpackIn files entry).mapError fun e => "unpack ".toList ++ entry.path ++ ": ".toList ++ e
      return (files, [])
    | (.whiteout, target) => do
      match ← resolveInsideRootfs place files target with
      | some target => return removePath files target
      | none => return (files, [])
    | (.opaqueDir, dir) =>
      if dir = [] then
        match files.locate place.dest with
        | .ok dest => return clearDir files dest
        | .error _ => return (files, [])
      else do
        match ← resolveInsideRootfs place files dir with
        | some dir => return clearDir files dir
        | none => return (files, [])

def unpackEntries : Files κ → List (Entry ι) → List Removal × Except Text (Files κ)
  | files, [] => ([], .ok files)
  | files, entry :: entries =>
    match unpackEntry place unpackIn files entry with
    | .error e => ([], .error e)
    | .ok (files, removals) =>
      let rest := unpackEntries files entries
      (removals ++ rest.1, rest.2)

end

/-! ## Layers -/

structure Layer (ι : Type) where
  known : Bool
  size : ℕ
  entries : List (Entry ι)

inductive FlattenError where
  | extract (message : Text)
  | unpackedTooLarge (limit : ℕ)
  deriving DecidableEq

section
variable (place : Destination) {ι : Type} (unpackIn : Files κ → Entry ι → Except Text (Files κ))

def applyLayer (limit : ℕ) (files : Files κ) (used : ℕ) (layer : Layer ι) :
    Except FlattenError (Files κ × ℕ) :=
  if !layer.known then
    .error (.extract "unsupported layer compression (expected gzip or zstd)".toList)
  else if used + layer.size > limit then .error (.unpackedTooLarge limit)
  else
    match (unpackEntries place unpackIn files layer.entries).2 with
    | .error e => .error (.extract e)
    | .ok files => .ok (files, used + layer.size)

def flattenLoop (limit : ℕ) : Files κ → ℕ → List (Layer ι) → Except FlattenError (Files κ)
  | files, _, [] => .ok files
  | files, used, layer :: layers => do
    let (files, used) ← applyLayer place unpackIn limit files used layer
    flattenLoop limit files used layers

def flattenLayers (maxUnpackedBytes : ℕ) (files : Files κ) (layers : List (Layer ι)) :
    Except FlattenError (Files κ) :=
  flattenLoop place unpackIn maxUnpackedBytes files 0 layers

end

/-! ## Confinement -/

section
variable {place : Destination} {files files' : Files κ} {ι : Type}
  {unpackIn : Files κ → Entry ι → Except Text (Files κ)} {removals : List Removal} {path : Path}

def Confined (realDest : Path) (removals : List Removal) : Prop :=
  ∀ removal ∈ removals, ∀ q, removal.Removes q → realDest <+: q ∧ q ≠ realDest

structure Inside (realDest : Path) (files files' : Files κ) (removals : List Removal) : Prop where
  confined : Confined realDest removals
  outside : Files.AgreesOutside realDest files files'
  tree : files.Tree → files'.Tree

lemma Inside.refl {realDest : Path} : Inside realDest files files [] :=
  ⟨by simp [Confined], .refl, fun h => h⟩

variable {dir : Path} {name : Text}

lemma below_of_starts {q : Path} (h : place.realDest <+: dir)
    (hq : dir ++ [name] <+: q) : place.realDest <+: q ∧ q ≠ place.realDest := by
  refine ⟨h.trans ((prefix_append dir [name]).trans hq), ?_⟩
  rintro rfl
  have hdir := h.length_le
  have hlong := hq.length_le
  rw [length_append, length_singleton] at hlong
  omega

lemma removePath_inside (h : place.realDest <+: dir) :
    Inside place.realDest files (removePath files (dir ++ [name])).1
      (removePath files (dir ++ [name])).2 := by
  have hconfined : Confined place.realDest [.tree (dir ++ [name])] := by
    intro removal hmem q hq
    rw [mem_singleton.mp hmem] at hq
    exact below_of_starts h hq
  unfold removePath
  split
  · refine ⟨hconfined, fun q hq => ?_, fun htree p n hn => ?_⟩
    · dsimp only
      rw [if_neg fun hstarts => hq (below_of_starts h hstarts)]
    · dsimp only at hn ⊢
      split at hn
      · cases hn
      · rw [if_neg fun hstarts => ‹¬_› (hstarts.trans (prefix_append p [n]))]
        exact htree p n hn
  · rename_i node hnode hfile
    refine ⟨hconfined, fun q hq => ?_, fun htree p n hn => ?_⟩
    · dsimp only
      rw [if_neg]
      rintro rfl
      exact hq (below_of_starts h prefix_rfl)
    dsimp only at hn ⊢
    split at hn
    · cases hn
    · rw [if_neg]
      · exact htree p n hn
      · rintro rfl
        cases hfile.symm.trans (htree _ n hn)
        exact hnode rfl
  · exact .refl

lemma clearDir_inside (h : place.realDest <+: dir) :
    Inside place.realDest files (clearDir files dir).1 (clearDir files dir).2 := by
  have hbelow : ∀ q, dir <+: q ∧ q ≠ dir → place.realDest <+: q ∧ q ≠ place.realDest := by
    rintro q ⟨hq, hne⟩
    refine ⟨h.trans hq, ?_⟩
    rintro rfl
    exact hne (h.eq_of_length (le_antisymm h.length_le hq.length_le))
  unfold clearDir
  split
  · refine ⟨?_, fun q hq => ?_, fun htree p n hn => ?_⟩
    · intro removal hmem q hq
      rw [mem_singleton.mp hmem] at hq
      exact hbelow q hq
    · dsimp only
      rw [if_neg fun hclear => hq (hbelow q hclear)]
    · dsimp only at hn ⊢
      split at hn
      · cases hn
      rename_i hkept
      rw [if_neg]
      · exact htree p n hn
      rintro ⟨hp, -⟩
      refine hkept ⟨hp.trans (prefix_append p [n]), ?_⟩
      rintro rfl
      have hlength := hp.length_le
      rw [length_append, length_singleton] at hlength
      omega
  · exact .refl

lemma resolveInsideRootfs_eq_ok {relative : List Component}
    (h : resolveInsideRootfs place files relative = .ok (some path)) :
    ∃ dir name, place.realDest <+: dir ∧ path = dir ++ [name] := by
  unfold resolveInsideRootfs at h
  split at h
  · cases h
  split at h
  · split at h <;> cases h
    · exact ⟨_, _, ‹_›, rfl⟩
  · cases h
  · cases h
  · cases h

/-- What is assumed of `tar`: regular entries are written below the destination only. -/
def UnpacksInside (place : Destination) (unpackIn : Files κ → Entry ι → Except Text (Files κ)) : Prop :=
  ∀ files entry files', unpackIn files entry = .ok files' →
    Files.AgreesOutside place.realDest files files' ∧ (files.Tree → files'.Tree)

lemma unpackEntry_inside {entry : Entry ι} (htree : files.Tree)
    (hdest : files.canonicalize place.dest = .ok place.realDest) (hunpack : UnpacksInside place unpackIn)
    (h : unpackEntry place unpackIn files entry = .ok (files', removals)) :
    Inside place.realDest files files' removals := by
  unfold unpackEntry at h
  split at h
  · cases h
  split at h
  · cases hrun : unpackIn files entry with
    | error e => simp [hrun, Except.mapError, bind, Except.bind] at h
    | ok unpacked =>
      simp only [hrun, Except.mapError, bind, Except.bind] at h
      cases h
      obtain ⟨houtside, htree'⟩ := hunpack _ _ _ hrun
      exact ⟨by simp [Confined], houtside, htree'⟩
  · rename_i target _
    cases hresolve : resolveInsideRootfs place files target with
    | error e => simp [hresolve, bind, Except.bind] at h
    | ok path =>
    simp only [hresolve, bind, Except.bind] at h
    cases path with
    | none =>
      cases h
      exact .refl
    | some path =>
    obtain ⟨dir, name, hdir, rfl⟩ := resolveInsideRootfs_eq_ok hresolve
    have hremove : removePath files (dir ++ [name]) = (files', removals) := Except.ok.inj h
    have hinside : Inside place.realDest files (removePath files (dir ++ [name])).1 _ :=
      removePath_inside hdir
    rwa [hremove] at hinside
  · rename_i dir _
    split at h
    · split at h
      · rename_i dest hlocated
        have hclear : clearDir files dest = (files', removals) := Except.ok.inj h
        by_cases hdir : files dest = some .dir
        · have hreal : dest = place.realDest :=
            Except.ok.inj ((canonicalize_of_locate htree hlocated hdir).symm.trans hdest)
          have hinside : Inside place.realDest files (clearDir files dest).1 _ :=
            clearDir_inside (by rw [hreal])
          rwa [hclear] at hinside
        · unfold clearDir at hclear
          split at hclear
          · exact absurd ‹_› hdir
          · cases hclear
            exact .refl
      · cases h
        exact .refl
    · cases hresolve : resolveInsideRootfs place files dir with
      | error e => simp [hresolve, bind, Except.bind] at h
      | ok path =>
        simp only [hresolve, bind, Except.bind] at h
        cases path with
        | none =>
          cases h
          exact .refl
        | some path =>
        obtain ⟨dir, name, hdir, rfl⟩ := resolveInsideRootfs_eq_ok hresolve
        have hclear : clearDir files (dir ++ [name]) = (files', removals) := Except.ok.inj h
        have hinside : Inside place.realDest files (clearDir files (dir ++ [name])).1 _ :=
          clearDir_inside (hdir.trans (prefix_append _ _))
        rwa [hclear] at hinside

def Destination.Stands (place : Destination) (files : Files κ) : Prop :=
  ∀ files', Files.AgreesOutside place.realDest files files' →
    files'.canonicalize place.dest = .ok place.realDest

lemma unpackEntries_inside (entries : List (Entry ι)) (htree : files.Tree)
    (hdest : place.Stands files) (hunpack : UnpacksInside place unpackIn) :
    Confined place.realDest (unpackEntries place unpackIn files entries).1 ∧
      ∀ files', (unpackEntries place unpackIn files entries).2 = .ok files' →
        Files.AgreesOutside place.realDest files files' := by
  induction entries generalizing files with
  | nil =>
    refine ⟨by simp [unpackEntries, Confined], ?_⟩
    rintro files' ⟨⟩
    exact .refl
  | cons entry entries ih =>
  rw [unpackEntries]
  cases hentry : unpackEntry place unpackIn files entry with
  | error e => exact ⟨by simp [Confined], nofun⟩
  | ok result =>
  obtain ⟨files₁, removals⟩ := result
  have hinside := unpackEntry_inside htree (hdest files .refl) hunpack hentry
  obtain ⟨hconfined, houtside⟩ := ih (hinside.tree htree)
    fun files' hagrees => hdest files' (hinside.outside.trans hagrees)
  refine ⟨?_, fun files' hfiles' => hinside.outside.trans (houtside files' hfiles')⟩
  intro removal hmem
  exact (mem_append.mp hmem).elim (hinside.confined removal) (hconfined removal)

lemma unpackEntries_append (before after : List (Entry ι)) {files₁ : Files κ}
    (h : (unpackEntries place unpackIn files before).2 = .ok files₁) :
    (unpackEntries place unpackIn files (before ++ after)).2 =
      (unpackEntries place unpackIn files₁ after).2 := by
  induction before generalizing files with
  | nil =>
    cases h
    rfl
  | cons entry before ih =>
  rw [cons_append, unpackEntries]
  rw [unpackEntries] at h
  cases hentry : unpackEntry place unpackIn files entry with
  | error e => simp [hentry] at h
  | ok result =>
    rw [hentry] at h
    exact ih h

structure Ordinary (name : Text) : Prop where
  nonempty : name ≠ []
  current : name ≠ ['.']
  parent : name ≠ ['.', '.']

lemma Ordinary.inner (h : Ordinary name) : Component.inner name = [.name name] := by
  rw [Component.inner, if_neg (not_or.mpr ⟨h.nonempty, h.current⟩), if_neg h.parent]

lemma classifyEntry_whiteout {parent : List Component} (hparent : parent ≠ [])
    (hname : Ordinary name) (hmarker : whiteoutMarker ++ name ≠ opaqueMarker) :
    classifyEntry (parent ++ [.name (whiteoutMarker ++ name)]) = (.whiteout, parent ++ [.name name]) := by
  have hlast : Component.fileName (parent ++ [.name (whiteoutMarker ++ name)]) =
      some (whiteoutMarker ++ name) := by
    simp [Component.fileName]
  unfold classifyEntry
  rw [hlast, dropLast_concat]
  dsimp only [Option.getD_some]
  rw [if_neg hmarker, Text.stripPrefix_append]
  dsimp only
  rw [joinName, if_neg hparent, hname.inner]

lemma whiteout_outside_fails {entry : Entry ι} {parent : List Component} {realParent : Path}
    (hpath : Component.parse entry.path = parent ++ [.name (whiteoutMarker ++ name)])
    (hname : Ordinary name) (hmarker : whiteoutMarker ++ name ≠ opaqueMarker)
    (hdest : files.canonicalize place.dest = .ok place.realDest)
    (hparent : files.canonicalize (place.dest ++ parent) = .ok realParent)
    (houtside : ¬place.realDest <+: realParent) :
    ∃ e, unpackEntry place unpackIn files entry = .error e := by
  have hne : parent ≠ [] := by
    rintro rfl
    rw [append_nil] at hparent
    cases hdest.symm.trans hparent
    exact houtside prefix_rfl
  have hresolve : ∃ e, resolveInsideRootfs place files (parent ++ [.name name]) = .error e := by
    have hlast : Component.fileName (parent ++ [.name name]) = some name := by
      simp [Component.fileName]
    unfold resolveInsideRootfs
    rw [hlast, dropLast_concat]
    dsimp only
    rw [hparent]
    dsimp only
    rw [if_neg houtside]
    exact ⟨_, rfl⟩
  obtain ⟨e, hresolve⟩ := hresolve
  unfold unpackEntry
  split
  · exact ⟨_, rfl⟩
  · rw [hpath, classifyEntry_whiteout hne hname hmarker]
    dsimp only
    rw [hresolve]
    exact ⟨e, rfl⟩

/-- Whatever links the layers make, only what is below the destination is ever deleted, and a
whiteout of an ordinary name in a directory elsewhere fails the layer. -/
theorem deletions_stay_below (entries : List (Entry ι)) (htree : files.Tree)
    (hdest : place.Stands files) (hunpack : UnpacksInside place unpackIn) :
    Confined place.realDest (unpackEntries place unpackIn files entries).1 ∧
      (∀ files', (unpackEntries place unpackIn files entries).2 = .ok files' →
        Files.AgreesOutside place.realDest files files') ∧
      ∀ before entry after files₁ parent name realParent, entries = before ++ entry :: after →
        (unpackEntries place unpackIn files before).2 = .ok files₁ →
        Component.parse entry.path = parent ++ [.name (whiteoutMarker ++ name)] → Ordinary name →
        whiteoutMarker ++ name ≠ opaqueMarker →
        files₁.canonicalize (place.dest ++ parent) = .ok realParent → ¬place.realDest <+: realParent →
        ∃ e, (unpackEntries place unpackIn files entries).2 = .error e := by
  obtain ⟨hconfined, houtside⟩ := unpackEntries_inside entries htree hdest hunpack
  refine ⟨hconfined, houtside, ?_⟩
  rintro before entry after files₁ parent name realParent rfl hbefore hpath hname hmarker hparent hescapes
  have hagrees := (unpackEntries_inside before htree hdest hunpack).2 files₁ hbefore
  obtain ⟨e, hentry⟩ : ∃ e, unpackEntry place unpackIn files₁ entry = .error e :=
    whiteout_outside_fails hpath hname hmarker (hdest files₁ hagrees) hparent hescapes
  refine ⟨e, ?_⟩
  rw [unpackEntries_append _ _ hbefore, unpackEntries, hentry]

end

/-! ## Samples -/

def sampleFiles : Files Unit := fun q =>
  if q = [] ∨ q = ["dest".toList] ∨ q = ["host".toList] then some .dir else none

def sampleDest : Destination := ⟨[.name "dest".toList], ["dest".toList]⟩

def sampleUnpack (files : Files Unit) (entry : Entry (Node Unit)) : Except Text (Files Unit) :=
  let names := (Component.parse entry.path).filterMap fun
    | .name n => some n
    | _ => none
  match names.getLast? with
  | none => .error "nothing to unpack".toList
  | some n =>
    let dir := sampleDest.realDest ++ names.dropLast
    if files dir = some .dir ∧ files (dir ++ [n]) = none then
      .ok fun q => if q = dir ++ [n] then some entry.content else files q
    else .error "cannot be unpacked".toList

def escapingLink : Entry (Node Unit) := ⟨"a".toList, .link true [.name "host".toList]⟩

/-- A marker for a name that no file has is ignored wherever it stands. -/
theorem degenerate_whiteout_outside_accepted :
    ∃ files₁, (unpackEntries sampleDest sampleUnpack sampleFiles [escapingLink]).2 = .ok files₁ ∧
      files₁.canonicalize (sampleDest.dest ++ [.name "a".toList]) = .ok ["host".toList] ∧
      ¬sampleDest.realDest <+: ["host".toList] ∧
      (unpackEntries sampleDest sampleUnpack sampleFiles
        [escapingLink, ⟨"a/.wh...".toList, .dir⟩]).2.isOk = true := by
  refine ⟨_, rfl, ?_, ?_, ?_⟩
  · decide +kernel
  · decide +kernel
  · decide +kernel

lemma sampleUnpack_inside : UnpacksInside sampleDest sampleUnpack := by
  intro files entry files' h
  unfold sampleUnpack at h
  dsimp only at h
  split at h
  · cases h
  rename_i n _
  split at h
  · rename_i hfree
    cases h
    refine ⟨fun q hq => ?_, fun htree p m hm => ?_⟩
    · dsimp only
      rw [if_neg]
      rintro rfl
      exact hq (below_of_starts (prefix_append _ _) prefix_rfl)
    dsimp only at hm ⊢
    split at hm
    · rename_i hp
      obtain ⟨rfl, -⟩ := append_inj' hp rfl
      rw [if_neg (by simp)]
      exact hfree.1
    · rw [if_neg]
      · exact htree p m hm
      · rintro rfl
        cases hfree.2.symm.trans (htree _ m hm)
  · cases h

lemma sampleFiles_tree : sampleFiles.Tree := by
  intro p n hn
  unfold sampleFiles at hn ⊢
  cases p with
  | nil => rfl
  | cons d p => simp at hn

lemma sampleDest_stands : sampleDest.Stands sampleFiles := by
  intro files' hagrees
  have hdir : files' ["dest".toList] = some .dir := hagrees _ fun hbelow => hbelow.2 rfl
  unfold canonicalize maxLinks walk
  simp only [sampleDest, follow, nil_append, hdir]

/-- A whiteout through a link to elsewhere fails, and nothing is deleted. -/
theorem escaping_whiteout_fails :
    Confined sampleDest.realDest (unpackEntries sampleDest sampleUnpack sampleFiles
        [escapingLink, ⟨"a/.wh.x".toList, .dir⟩]).1 ∧
      ∃ e, (unpackEntries sampleDest sampleUnpack sampleFiles
        [escapingLink, ⟨"a/.wh.x".toList, .dir⟩]).2 = .error e := by
  obtain ⟨hconfined, -, hfails⟩ := deletions_stay_below [escapingLink, ⟨"a/.wh.x".toList, .dir⟩]
    sampleFiles_tree sampleDest_stands sampleUnpack_inside
  refine ⟨hconfined, ?_⟩
  apply hfails [escapingLink] ⟨"a/.wh.x".toList, .dir⟩ [] _ [.name "a".toList] "x".toList
    ["host".toList] rfl rfl
  · decide +kernel
  · exact ⟨by decide, by decide, by decide⟩
  · decide +kernel
  · decide +kernel
  · decide +kernel

end Husker.Image
