import Husker.Relational.Text

/-! # Image references

Which registry to talk to, the repository there, and the tag or digest to resolve.
-/
namespace Husker.Image
open Relational List Option Text

inductive OciError where
  | invalidReference (reference message : Text)
  | http (message : String)
  | status (status : ℕ) (url : Text) (detail : String)
  | malformed (message : String)
  | unsupported (message : String)
  | downloadTooLarge (limit : ℕ)
  deriving DecidableEq

structure ImageReference where
  registry : Text
  repository : Text
  reference : Text
  deriving DecidableEq

def stripOciScheme (input : Text) : Text :=
  (Text.stripPrefix "oci://".toList input).getD input

def normalizeRegistry (host : Text) : Text :=
  if host ∈ ["docker.io".toList, "index.docker.io".toList, "registry-1.docker.io".toList] then
    "docker.io".toList
  else host

def splitRegistry (input : Text) : Text × Text :=
  match Text.splitOnce '/' input with
  | some (head, rest) =>
    if '.' ∈ head ∨ ':' ∈ head ∨ head = "localhost".toList then (normalizeRegistry head, rest)
    else ("docker.io".toList, input)
  | none => ("docker.io".toList, input)

/-- A digest stands behind `@`, a tag behind `:`. -/
def splitReference (remainder : Text) : Text × Text :=
  match Text.splitOnce '@' remainder with
  | some parts => parts
  | none => (Text.rsplitOnce ':' remainder).getD (remainder, "latest".toList)

def ImageReference.parse (input : Text) : Except OciError ImageReference :=
  let bad (message : String) := OciError.invalidReference input message.toList
  let stripped := stripOciScheme input
  if stripped = [] then .error (bad "empty reference")
  else
    let (registry, remainder) := splitRegistry stripped
    let (name, reference) := splitReference remainder
    if name = [] ∨ reference = [] then .error (bad "missing repository or tag")
    else
      -- Docker Hub keeps images of one component in a namespace of their own.
      let repository :=
        if registry = "docker.io".toList ∧ '/' ∉ name then "library/".toList ++ name else name
      .ok ⟨registry, repository, reference⟩

namespace ImageReference

def scheme (r : ImageReference) : Text :=
  let host := ((Text.splitOnce ':' r.registry).map Prod.fst).getD r.registry
  if host ∈ ["localhost".toList, "127.0.0.1".toList, "::1".toList] then "http".toList
  else "https".toList

def registryBase (r : ImageReference) : Text :=
  if r.registry = "docker.io".toList then "https://registry-1.docker.io".toList
  else r.scheme ++ "://".toList ++ r.registry

def authEndpoint (r : ImageReference) : Text × Text :=
  if r.registry = "docker.io".toList then
    ("https://auth.docker.io/token".toList, "registry.docker.io".toList)
  else (r.scheme ++ "://".toList ++ r.registry ++ "/token".toList, r.registry)

end ImageReference

/-! ## What a reference says -/

/-- The parts of `[registry/]name[:tag][@digest]`. -/
structure Written where
  registry : Option Text
  name : Text
  tag : Option Text
  digest : Option Text

def LooksLikeHost (head : Text) : Prop := '.' ∈ head ∨ ':' ∈ head ∨ head = "localhost".toList

namespace Written

def tagged (r : Written) : Text := r.name ++ r.tag.elim [] (':' :: ·)

def remainder (r : Written) : Text := r.tagged ++ r.digest.elim [] ('@' :: ·)

def text (r : Written) : Text := r.registry.elim [] (· ++ ['/']) ++ r.remainder

/-- A first component that looks like a host is a registry, and a digest is no path. -/
structure WellFormed (r : Written) : Prop where
  registry : ∀ host ∈ r.registry, LooksLikeHost host ∧ '/' ∉ host
  hub : r.registry = none → ∀ head rest, r.name = head ++ '/' :: rest → ¬LooksLikeHost head
  name : r.name ≠ [] ∧ r.name.head? ≠ some '/' ∧ ':' ∉ r.name ∧ '@' ∉ r.name
  tag : ∀ tag ∈ r.tag, tag ≠ [] ∧ '/' ∉ tag ∧ ':' ∉ tag ∧ '@' ∉ tag
  digest : ∀ digest ∈ r.digest, digest ≠ [] ∧ '/' ∉ digest

def host (r : Written) : Text := (r.registry.map normalizeRegistry).getD "docker.io".toList

def reference (r : Written) : Text := r.digest.getD (r.tag.getD "latest".toList)

/-- The repository a name stands for at the registry of the reference. -/
def repository (r : Written) (name : Text) : Text :=
  if r.host = "docker.io".toList ∧ '/' ∉ name then "library/".toList ++ name else name

def meant (r : Written) : ImageReference := ⟨r.host, r.repository r.name, r.reference⟩

variable {r : Written}

section
variable (h : r.WellFormed)
include h

lemma WellFormed.slash_mem : '/' ∈ r.remainder ↔ '/' ∈ r.name := by
  have htag : '/' ∉ r.tag.elim [] (':' :: ·) := by
    cases htag : r.tag with
    | none => simp
    | some tag => simpa using (h.tag tag htag).2.1
  have hdigest : '/' ∉ r.digest.elim [] ('@' :: ·) := by
    cases hdigest : r.digest with
    | none => simp
    | some digest => simpa using (h.digest digest hdigest).2
  simp only [remainder, tagged, mem_append, htag, hdigest, or_false]

lemma WellFormed.splitRegistry_text : splitRegistry r.text = (r.host, r.remainder) := by
  cases hregistry : r.registry with
  | some host =>
    obtain ⟨hhost, hslash⟩ := h.registry host hregistry
    have htext : r.text = host ++ '/' :: r.remainder := by simp [text, hregistry]
    rw [splitRegistry, htext, splitOnce_append hslash]
    simp only [Written.host, hregistry, map_some, getD_some]
    exact if_pos hhost
  | none =>
  have htext : r.text = r.remainder := by simp [text, hregistry]
  have hhost : r.host = "docker.io".toList := by simp [Written.host, hregistry]
  rw [splitRegistry, htext, hhost]
  cases hsplit : Text.splitOnce '/' r.name with
  | some parts =>
    obtain ⟨hname, hfirst⟩ := splitOnce_eq_some hsplit
    simp only [remainder, tagged, hname, append_assoc, cons_append, splitOnce_append hfirst]
    exact if_neg (h.hub hregistry _ _ hname)
  | none =>
    rw [splitOnce_eq_none, ← h.slash_mem, ← splitOnce_eq_none] at hsplit
    rw [hsplit]

lemma WellFormed.splitReference_remainder : splitReference r.remainder =
      (if r.digest.isSome then r.tagged else r.name, r.reference) := by
  obtain ⟨-, -, hcolon, hat⟩ := h.name
  have hat' : '@' ∉ r.tagged := by
    cases htag : r.tag with
    | none => simpa [tagged, htag] using hat
    | some tag => simpa [tagged, htag, hat] using (h.tag tag htag).2.2.2
  cases hdigest : r.digest with
  | some digest =>
    simp only [splitReference, remainder, hdigest, elim_some, splitOnce_append hat',
      isSome_some, if_true, reference, getD_some]
  | none =>
  have hremainder : r.remainder = r.tagged := by simp [remainder, hdigest]
  rw [splitReference, hremainder, splitOnce_eq_none.mpr hat']
  simp only [reference, hdigest, getD_none, isSome_none, Bool.false_eq_true, if_false]
  cases htag : r.tag with
  | none =>
    have htagged : r.tagged = r.name := by simp [tagged, htag]
    rw [htagged, rsplitOnce_eq_none.mpr hcolon]
    rfl
  | some tag =>
    have htagged : r.tagged = r.name ++ ':' :: tag := by simp [tagged, htag]
    rw [htagged, rsplitOnce_append (h.tag tag htag).2.2.1]
    rfl

/-- A well-formed reference does not look as if it had the scheme. -/
lemma WellFormed.stripOciScheme_text : stripOciScheme r.text = r.text := by
  rw [stripOciScheme, Text.stripPrefix, if_neg, getD_none]
  rintro ⟨rest, hrest⟩
  have hsplit : splitRegistry r.text = ("oci:".toList, '/' :: rest) := by
    rw [← hrest]
    rfl
  have hremainder := (Prod.mk.inj (h.splitRegistry_text.symm.trans hsplit)).2
  rw [remainder, tagged, append_assoc] at hremainder
  apply h.name.2.1
  rw [← head?_append_of_ne_nil _ h.name.1, hremainder, head?_cons]

lemma WellFormed.parse_stripped {input : Text} (hinput : stripOciScheme input = r.text) :
    ImageReference.parse input = .ok ⟨r.host,
      r.repository (if r.digest.isSome then r.tagged else r.name), r.reference⟩ := by
  have hname := h.name.1
  have htagged : r.tagged ≠ [] := by simp [tagged, hname]
  have hempty : r.text ≠ [] := by simp [text, remainder, htagged]
  have hreference : r.reference ≠ [] := by
    cases hdigest : r.digest with
    | some digest => simpa [reference, hdigest] using (h.digest digest hdigest).1
    | none =>
      cases htag : r.tag with
      | some tag => simpa [reference, hdigest, htag] using (h.tag tag htag).1
      | none => simp [reference, hdigest, htag]
  simp only [ImageReference.parse, hinput, if_neg hempty, h.splitRegistry_text,
    h.splitReference_remainder]
  rw [if_neg]
  · rfl
  · rintro (hnil | hnil)
    · split at hnil
      · exact htagged hnil
      · exact hname hnil
    · exact hreference hnil

end

end Written

/-- `alpine:3.20@sha256:abc`. -/
def taggedDigest : Written := ⟨none, "alpine".toList, some "3.20".toList, some "sha256:abc".toList⟩

/-- `localhost:5000/a/b@sha256:abc`. -/
def digestOnly : Written :=
  ⟨some "localhost:5000".toList, "a/b".toList, none, some "sha256:abc".toList⟩

end Husker.Image
