import Husker.Image.Reference
import Husker.Service.Calls

/-! # Images imported on first use

A root file system may be given as an image reference.  It is imported once, under a catalog name
made from the reference, and found again under that name.
-/
namespace Husker.Image
open Relational List
open Service (validateResourceName)

inductive RootfsError where
  | core (e : Service.CoreError)
  | imageAlreadyExists (name : Text)
  | materialization

structure ImageRecord where
  name : Text
  sourcePath : Text
  filePath : Text
  reference : Text

abbrev Catalog := List ImageRecord

def getImageByName (catalog : Catalog) (name : Text) : Option ImageRecord :=
  catalog.find? fun image => image.name = name

def nameChar (c : Char) : Bool := c.isAlphanum || c == '-' || c == '_' || c == '.'

def ociRefToCatalogName (reference : Text) : Text :=
  reference.map fun c => if nameChar c then c else '-'

def looksLikePath (arg : Text) : Bool :=
  "/".toList.isPrefixOf arg || "./".toList.isPrefixOf arg || "../".toList.isPrefixOf arg

def ociSourcePath (reference : Text) : Text := "oci://".toList ++ stripOciScheme reference

/-- What an import finds: the agent to put into the image, and whether the registry answers. -/
structure Materializer where
  agent : Bool
  works : Bool

def materialize (m : Materializer) (reference : Text) : Except RootfsError Unit :=
  match ImageReference.parse reference with
  | .error _ => .error .materialization
  | .ok _ => ensure (m.works = true) .materialization

def needsAgent : String :=
  "OCI import needs the embedded guest agent; build the daemon with " ++
    "`make build-agent` (or set HUSKER_EMBED_AGENT_BIN) first"

def importedRecord (name reference : Text) : ImageRecord where
  name := name
  sourcePath := ociSourcePath reference
  filePath := "catalog/".toList ++ name ++ ".ext4".toList
  reference := reference

def importOciImage (catalog : Catalog) (m : Materializer) (name reference : Text) :
    Except RootfsError (ImageRecord × Catalog) := do
  (validateResourceName "image" (String.ofList name)).mapError .core
  ensure (m.agent = true) (.core (.invalidArgument needsAgent))
  ensure (getImageByName catalog name = none) (.imageAlreadyExists name)
  materialize m (stripOciScheme reference)
  return (importedRecord name reference, importedRecord name reference :: catalog)

inductive Rootfs where
  | path (arg : Text)
  | image (record : ImageRecord)

def unknownRootfs (s : Text) : String :=
  "'" ++ String.ofList s ++ "' is not a rootfs path, a catalog image, or an OCI reference; " ++
    "pass a path, a catalog image name, or a reference like 'repo:tag'"

def resolveRootfsArg (catalog : Catalog) (isFile : Text → Bool) (m : Materializer) (s : Text) :
    Except RootfsError (Rootfs × Catalog) :=
  if isFile s || looksLikePath s then .ok (.path s, catalog)
  else
    match getImageByName catalog s with
    | some image => .ok (.image image, catalog)
    | none =>
      if ':' ∈ s ∨ '/' ∈ s then
        match getImageByName catalog (ociRefToCatalogName s) with
        | some image => .ok (.image image, catalog)
        | none => do
          let (record, catalog) ← importOciImage catalog m (ociRefToCatalogName s) s
          return (.image record, catalog)
      else .error (.core (.invalidArgument (unknownRootfs s)))

/-! ## Sequences of calls -/

structure Lookup where
  reference : Text
  materializer : Materializer
  found : Except RootfsError Rootfs

def IsReference (isFile : Text → Bool) (s : Text) : Prop :=
  isFile s = false ∧ looksLikePath s = false ∧ (':' ∈ s ∨ '/' ∈ s)

/-- The calls of `resolve_rootfs_arg` with references; a call that fails leaves the catalog. -/
def lookups (isFile : Text → Bool) : Machine Catalog Lookup where
  step catalog call catalog' :=
    IsReference isFile call.reference ∧
      match resolveRootfsArg catalog isFile call.materializer call.reference with
      | .ok (found, next) => call.found = .ok found ∧ catalog' = next
      | .error e => call.found = .error e ∧ catalog' = catalog

def Importable (s : Text) : Prop :=
  validateResourceName "image" (String.ofList (ociRefToCatalogName s)) = .ok () ∧
    ∃ image, ImageReference.parse (stripOciScheme s) = .ok image

variable {isFile : Text → Bool} {catalog catalog' : Catalog} {call : Lookup} {s : Text} {R : Set Text}

lemma nameChar_of_mem_catalogName {c : Char} (h : c ∈ ociRefToCatalogName s) :
    nameChar c = true := by
  obtain ⟨d, -, rfl⟩ := mem_map.mp h
  split
  · assumption
  · rfl

lemma ne_catalogName {t : Text} (h : ':' ∈ s ∨ '/' ∈ s) : s ≠ ociRefToCatalogName t := by
  rintro rfl
  rcases h with h | h
  · exact absurd (nameChar_of_mem_catalogName h) (by decide)
  · exact absurd (nameChar_of_mem_catalogName h) (by decide)

/-- Every image of the catalog was imported from one of these references under its name. -/
def Imported (R : Set Text) (catalog : Catalog) : Prop :=
  ∀ image ∈ catalog, image.reference ∈ R ∧ image.name = ociRefToCatalogName image.reference ∧
    Importable image.reference

variable {name : Text}

lemma importOciImage_eq_ok {m : Materializer} {reference : Text} {record : ImageRecord}
    (h : importOciImage catalog m name reference = .ok (record, catalog')) :
    validateResourceName "image" (String.ofList name) = .ok () ∧
    (∃ image, ImageReference.parse (stripOciScheme reference) = .ok image) ∧
      record.name = name ∧ record.reference = reference ∧ catalog' = record :: catalog := by
  simp only [importOciImage, eq_ok] at h
  obtain ⟨⟨⟩, hname, -, -, -, -, ⟨⟩, hmaterialize, rfl, rfl⟩ := h
  refine ⟨hname, ?_, rfl, rfl, rfl⟩
  unfold materialize at hmaterialize
  split at hmaterialize
  · cases hmaterialize
  · exact ⟨_, by assumption⟩

variable {image : ImageRecord}

lemma getImageByName_eq_some (h : getImageByName catalog name = some image) : image ∈ catalog ∧ image.name = name :=
  ⟨mem_of_find?_eq_some h, by simpa using find?_some h⟩

lemma Imported.getImageByName_reference (h : Imported R catalog) (hs : ':' ∈ s ∨ '/' ∈ s) :
    getImageByName catalog s = none := by
  cases hfound : getImageByName catalog s with
  | none => rfl
  | some image =>
    obtain ⟨hmem, hname⟩ := getImageByName_eq_some hfound
    exact absurd (hname.symm.trans (h image hmem).2.1) (ne_catalogName hs)

def Lookup.Named (call : Lookup) (catalog : Catalog) : Prop :=
  ∀ found, call.found = .ok found → ∃ image ∈ catalog, found = .image image ∧
    image.name = ociRefToCatalogName call.reference

lemma Imported.step (h : Imported R catalog) (hcall : call.reference ∈ R)
    (hstep : (lookups isFile).step catalog call catalog') :
    Imported R catalog' ∧ call.Named catalog' := by
  obtain ⟨⟨hfile, hpath, hs⟩, hstep⟩ := hstep
  rw [resolveRootfsArg, hfile, hpath, h.getImageByName_reference hs] at hstep
  simp only [Bool.or_self, Bool.false_eq_true, if_false, if_pos hs] at hstep
  cases hcached : getImageByName catalog (ociRefToCatalogName call.reference) with
  | some image =>
    simp only [hcached] at hstep
    obtain ⟨hfound, rfl⟩ := hstep
    refine ⟨h, fun found hok => ?_⟩
    cases hfound.symm.trans hok
    obtain ⟨hmem, hname⟩ := getImageByName_eq_some hcached
    exact ⟨image, hmem, rfl, hname⟩
  | none =>
  simp only [hcached] at hstep
  cases himport : importOciImage catalog call.materializer (ociRefToCatalogName call.reference)
      call.reference with
  | error e =>
    rw [himport] at hstep
    obtain ⟨hfound, rfl⟩ := hstep
    exact ⟨h, fun found hok => by cases hfound.symm.trans hok⟩
  | ok p =>
    obtain ⟨record, next⟩ := p
    rw [himport] at hstep
    obtain ⟨hfound, rfl⟩ := hstep
    obtain ⟨hname, hparse, hrecord, hreference, rfl⟩ := importOciImage_eq_ok himport
    constructor
    · intro image himage
      rcases mem_cons.mp himage with rfl | himage
      · rw [hreference]
        exact ⟨hcall, hrecord, hname, hparse⟩
      · exact h image himage
    · intro found hok
      cases hfound.symm.trans hok
      exact ⟨record, .head _, rfl, hrecord⟩

/-! ## Whether the image is the one that was asked for -/

/-- The call returned an image that was imported from a reference to the same image. -/
def Lookup.Faithful (call : Lookup) : Prop :=
  ∀ found, call.found = .ok found → ∃ image, found = .image image ∧
    ImageReference.parse image.reference = ImageReference.parse call.reference

def lookupsIn (isFile : Text → Bool) (R : Set Text) : Machine Catalog Lookup :=
  (lookups isFile).when fun _ call => call.reference ∈ R

/-- No two references of the set share a catalog name unless they denote one image. -/
def Apart (isFile : Text → Bool) (R : Set Text) : Prop :=
  ∀ a ∈ R, ∀ b ∈ R, IsReference isFile a → IsReference isFile b → Importable a →
    ociRefToCatalogName a = ociRefToCatalogName b → ImageReference.parse a = ImageReference.parse b

lemma faithful_of_apart (hapart : Apart isFile R)
    (h : Imported {s ∈ R | IsReference isFile s} catalog) (hcall : call.reference ∈ R)
    (href : IsReference isFile call.reference) (hnamed : call.Named catalog) : call.Faithful := by
  intro found hok
  obtain ⟨image, himage, rfl, hname⟩ := hnamed found hok
  obtain ⟨⟨hmem, hown⟩, hcatalog, himportable⟩ := h image himage
  exact ⟨image, rfl, hapart _ hmem _ hcall hown href himportable (hcatalog.symm.trans hname)⟩

lemma resolve_import {a : Text} (href : IsReference isFile a) (himport : Importable a) :
    resolveRootfsArg [] isFile ⟨true, true⟩ a =
      .ok (.image (importedRecord (ociRefToCatalogName a) a),
        [importedRecord (ociRefToCatalogName a) a]) := by
  obtain ⟨hfile, hpath, hs⟩ := href
  obtain ⟨hname, image, hparse⟩ := himport
  have hmaterialize : materialize ⟨true, true⟩ (stripOciScheme a) = .ok () := by
    rw [materialize, hparse]
    rfl
  have hcreated : importOciImage [] ⟨true, true⟩ (ociRefToCatalogName a) a =
      .ok (importedRecord (ociRefToCatalogName a) a, [importedRecord (ociRefToCatalogName a) a]) := by
    rw [importOciImage, hname, hmaterialize]
    rfl
  rw [resolveRootfsArg, hfile, hpath]
  simp only [Bool.or_self, Bool.false_eq_true, if_false, getImageByName, find?_nil, if_pos hs,
    hcreated]
  rfl

lemma resolve_cached {b : Text} (href : IsReference isFile b)
    (hname : image.name = ociRefToCatalogName b) (m : Materializer) :
    resolveRootfsArg [image] isFile m b = .ok (.image image, [image]) := by
  obtain ⟨hfile, hpath, hs⟩ := href
  have hliteral : ociRefToCatalogName b ≠ b := (ne_catalogName hs).symm
  rw [resolveRootfsArg, hfile, hpath]
  simp [getImageByName, hname, hliteral, hs]

/-- From an empty catalog, every call returns an image imported from a reference to the same image
exactly if no two references share a catalog name unless they denote one image. -/
theorem cached_images_faithful_iff (isFile : Text → Bool) (R : Set Text) :
    (∀ calls catalog, (lookupsIn isFile R).Run [] calls catalog → ∀ call ∈ calls, call.Faithful) ↔
      Apart isFile R := by
  constructor
  · intro h a ha b hb hrefa hrefb himport hname
    let image := importedRecord (ociRefToCatalogName a) a
    have hfirst : (lookupsIn isFile R).step [] ⟨a, ⟨true, true⟩, .ok (.image image)⟩ [image] := by
      refine ⟨⟨hrefa, ?_⟩, ha⟩
      rw [resolve_import hrefa himport]
      exact ⟨rfl, rfl⟩
    have hsecond : (lookupsIn isFile R).step [image] ⟨b, ⟨true, true⟩, .ok (.image image)⟩ [image] := by
      refine ⟨⟨hrefb, ?_⟩, hb⟩
      rw [resolve_cached hrefb hname]
      exact ⟨rfl, rfl⟩
    obtain ⟨found, hfound, hparse⟩ := h _ _ (.cons hfirst (.cons hsecond (.nil _)))
      ⟨b, ⟨true, true⟩, .ok (.image image)⟩ (by simp) _ rfl
    cases hfound
    exact hparse
  · intro hapart calls catalog hrun
    have hempty : Imported {s ∈ R | IsReference isFile s} [] := by simp [Imported]
    generalize ([] : Catalog) = start at hrun hempty
    induction hrun with
    | nil => simp
    | cons hstep _ ih =>
    obtain ⟨hnext, hnamed⟩ := hempty.step ⟨hstep.2, hstep.1.1⟩ hstep.1
    intro x hx
    rcases mem_cons.mp hx with rfl | hx
    · exact faithful_of_apart hapart hnext hstep.2 hstep.1.1 hnamed
    · exact ih hnext x hx

/-- Two images of different repositories share a catalog name, so the second call returns the
first image. -/
theorem dashed_reference_returns_other_image :
    ∃ image : ImageRecord, (lookups fun _ => false).Run []
      [⟨"team/app:v1".toList, ⟨true, true⟩, .ok (.image image)⟩,
        ⟨"team-app:v1".toList, ⟨true, true⟩, .ok (.image image)⟩] [image] ∧
      ImageReference.parse "team/app:v1".toList =
        .ok ⟨"docker.io".toList, "team/app".toList, "v1".toList⟩ ∧
      ImageReference.parse "team-app:v1".toList =
        .ok ⟨"docker.io".toList, "library/team-app".toList, "v1".toList⟩ := by
  have hrefa : IsReference (fun _ => false) "team/app:v1".toList := ⟨rfl, by decide, by decide⟩
  have hrefb : IsReference (fun _ => false) "team-app:v1".toList := ⟨rfl, by decide, by decide⟩
  have himport : Importable "team/app:v1".toList := ⟨by decide +kernel,
    ⟨"docker.io".toList, "team/app".toList, "v1".toList⟩, by decide +kernel⟩
  let image := importedRecord (ociRefToCatalogName "team/app:v1".toList) "team/app:v1".toList
  have hfirst : (lookups fun _ => false).step []
      ⟨"team/app:v1".toList, ⟨true, true⟩, .ok (.image image)⟩ [image] := by
    refine ⟨hrefa, ?_⟩
    rw [resolve_import hrefa himport]
    exact ⟨rfl, rfl⟩
  have hsecond : (lookups fun _ => false).step [image]
      ⟨"team-app:v1".toList, ⟨true, true⟩, .ok (.image image)⟩ [image] := by
    refine ⟨hrefb, ?_⟩
    rw [resolve_cached hrefb (by decide +kernel)]
    exact ⟨rfl, rfl⟩
  exact ⟨image, .cons hfirst (.cons hsecond (.nil _)), by decide +kernel, by decide +kernel⟩

end Husker.Image
