import Husker.Cli.Success
import Husker.Relational.Glob

/-! # Writing back

The guest's shell expands every path that is to come back, lists the positions of those that match
nothing, and packs the rest.  A file of the working tree is named by its path, which the shell
reads as a pattern.
-/
namespace Husker.Cli
open Relational Wire List Function Nat Glob

abbrev Name := Glob.Name

/-! ## The guest -/

def Entry (part : Bytes) : Prop :=
  part ≠ [] ∧ part ≠ [PathBuf.dot] ∧ part ≠ [PathBuf.dot, PathBuf.dot] ∧ PathBuf.slash ∉ part ∧ 0 ∉ part

instance : DecidablePred Entry := fun _ => inferInstanceAs (Decidable (_ ∧ _ ∧ _ ∧ _ ∧ _))

def Valid (name : Name) : Prop := name ≠ [] ∧ ∀ part ∈ name, Entry part

instance : DecidablePred Valid := fun _ => inferInstanceAs (Decidable (_ ∧ _))

structure Guest where
  files : List (Name × Bytes)
  /-- Directories; those above a file or another directory need not be listed. -/
  dirs : List Name
  valid : ∀ name ∈ files.map Prod.fst ++ dirs, Valid name
  apart : ∀ f ∈ files, (∀ g ∈ files, f.1 <+: g.1 → f.1 = g.1) ∧ ∀ d ∈ dirs, ¬ f.1 <+: d

namespace Guest

def names (g : Guest) : List Name :=
  (g.files.map Prod.fst ++ g.dirs).flatMap fun name => name.inits.filter (· ≠ [])

def file? (g : Guest) (name : Name) : Option Bytes := g.files.lookup name

def IsDir (g : Guest) (name : Name) : Prop := name ∈ g.names ∧ g.file? name = none

end Guest

/-! ## The script -/

section
variable (lossy : Bytes → Text) (other : PathBuf → List Name) (g : Guest)

def utf8 (text : Text) : Bytes := (String.ofList text).toUTF8.toList

def segments (path : Bytes) : Name :=
  (path.splitOnP (· = PathBuf.slash)).filter fun part => part ≠ [] ∧ part ≠ [PathBuf.dot]

def PathBuf.name (path : PathBuf) : Name := segments path.bytes

def word (path : PathBuf) : Name := segments ([PathBuf.dot, PathBuf.slash] ++ utf8 (lossy path.bytes))

/-- What passes the `-e` test; `other` is what is found for a path that goes through `..`. -/
def matched (path : PathBuf) : List Name :=
  if .parent ∈ path.components then other path else Glob.found g.names (word lossy path)

def unmatchedPositions (paths : List PathBuf) : List ℕ :=
  (paths.zipIdx.filter fun p => matched lossy other g p.1 = []).map fun p => p.2 + 1

def manifestText (positions : List ℕ) : Text := positions.flatMap fun i => Nat.toDigits 10 i ++ ['\n']

def asciiBytes (text : Text) : Bytes := text.map fun c => c.toNat.toUInt8

/-- The files that are packed: those matched, and those below a directory that is. -/
def packed (paths : List PathBuf) : List (Name × Bytes) :=
  g.files.filter fun f => paths.any fun p => (matched lossy other g p).any fun name => name <+: f.1

def extract (archive : List (Name × Bytes)) (host : Name → Option Bytes) : Name → Option Bytes :=
  fun name => (archive.lookup name).or (host name)

structure Outcome where
  host : Name → Option Bytes
  archive : List (Name × Bytes)
  unmatchedOut : List String
  unmatchedWriteBack : List String

/-- The end of a job whose command returned zero and whose guest was heard. -/
def writeBack (tree out : List PathBuf) (host : Name → Option Bytes) : Outcome :=
  let paths := retrievePaths tree out
  let manifest := asciiBytes (manifestText (unmatchedPositions lossy other g paths))
  let unmatched := classify lossy paths out (parseUnmatchedManifest lossy manifest paths.length)
  let archive := packed lossy other g paths
  ⟨extract archive host, archive, unmatched.1, unmatched.2⟩

/-- A success means that every file of the tree is as in the guest, or reported if the guest has
none, and that nothing else came back unless it was named. -/
def Faithful (tree out : List PathBuf) (host : Name → Option Bytes) : Prop :=
  let r := writeBack lossy other g tree out host
  r.unmatchedOut = [] →
    (∀ p ∈ tree, (g.file? p.name = none ↔ display lossy p ∈ r.unmatchedWriteBack) ∧
      ∀ bytes, g.file? p.name = some bytes → r.host p.name = some bytes) ∧
    ∀ f ∈ r.archive, (∃ p ∈ tree, p.name = f.1) ∨
      ∃ p ∈ out, ∃ name ∈ matched lossy other g p, name <+: f.1

end

/-! ## The list of paths -/

section
variable {tree out l before after : List PathBuf} {p q : PathBuf}

lemma mem_destutter' (h : ∀ x ∈ before, ¬ x.Same p) (hq : ¬ q.Same p) :
    p ∈ (before ++ p :: after).destutter' (fun p q => ¬ p.Same q) q := by
  induction before generalizing q with
  | nil =>
    rw [nil_append, destutter'_cons_pos _ hq]
    exact .tail _ (List.mem_destutter' _ _ _)
  | cons x before ih =>
  rw [forall_mem_cons] at h
  rw [cons_append, destutter'_cons]
  split_ifs
  · exact ih h.2 hq
  · exact .tail _ (ih h.2 h.1)

lemma mem_dedup (h : ∀ x ∈ before, ¬ x.Same p) : p ∈ dedup (before ++ p :: after) := by
  cases before with
  | nil => exact List.mem_destutter' _ _ _
  | cons x before =>
    rw [forall_mem_cons] at h
    exact mem_destutter' h.2 h.1

instance : Std.ReflOrd Part := ⟨by
  intro a
  cases a with
  | normal name =>
    change (compare name name).then .eq = .eq
    rw [Std.compare_self]
    rfl
  | _ => rfl⟩

lemma sort_filter (l : List PathBuf) (p : PathBuf) :
    (sort l).filter (fun q => q.Same p) = l.filter fun q => q.Same p := by
  have hpairwise : (l.filter fun q => q.Same p).Pairwise
      fun a b => (compare a.components b.components).isLE = true := by
    apply pairwise_of_forall_mem_list
    intro a ha b hb
    have hab : a.components = b.components :=
      (of_decide_eq_true (mem_filter.mp ha).2).trans (of_decide_eq_true (mem_filter.mp hb).2).symm
    rw [hab, Std.compare_self]
    rfl
  have hsublist := (sublist_insertionSort hpairwise filter_sublist).filter fun q => q.Same p
  rw [filter_filter] at hsublist
  simp only [Bool.and_self] at hsublist
  exact (hsublist.eq_of_length ((perm_insertionSort _ l).filter _).length_eq.symm).symm

lemma mem_retrievePaths (out : List PathBuf) (htree : tree.Pairwise fun p q => ¬ p.Same q)
    (hp : p ∈ tree) : p ∈ retrievePaths tree out := by
  obtain ⟨front, rest, rfl⟩ := append_of_mem hp
  have hfront : ∀ x ∈ front, ¬ x.Same p :=
    fun x hx => (pairwise_append.mp htree).2.2 x hx p (.head _)
  have hfirst : (sort ((front ++ p :: rest) ++ out)).filter (fun q => q.Same p) =
      p :: (rest ++ out).filter fun q => q.Same p := by
    have hnone : front.filter (fun q => q.Same p) = [] := by simpa using hfront
    have hself : p.Same p := rfl
    simp [sort_filter, filter_append, hnone, hself]
  obtain ⟨before, after, hsplit, hbefore, -, -⟩ := filter_eq_cons_iff.mp hfirst
  rw [retrievePaths, hsplit]
  exact mem_dedup fun x hx => by simpa using hbefore x hx

lemma mem_of_mem_retrievePaths (h : p ∈ retrievePaths tree out) : p ∈ tree ∨ p ∈ out := by
  have hsort : p ∈ sort (tree ++ out) := (destutter_sublist _ _).subset h
  exact mem_append.mp ((mem_insertionSort _).mp hsort)

end

/-! ## The manifest -/

variable {n : ℕ}

section
variable {lossy : Bytes → Text} {other : PathBuf → List Name} {g : Guest} {positions : List ℕ}
  {paths tree out : List PathBuf} {p : PathBuf} {host : Name → Option Bytes}

/-- `from_utf8_lossy` reads ASCII as it is. -/
def ReadsAscii (lossy : Bytes → Text) : Prop :=
  ∀ text : Text, (∀ c ∈ text, c.toNat < 128) → lossy (asciiBytes text) = text

lemma digit_range {c : Char} (h : c ∈ Nat.toDigits 10 n) : 48 ≤ c.toNat ∧ c.toNat ≤ 57 := by
  have hdigit := isDigit_of_mem_toDigits (by norm_num) (by norm_num) h
  simp only [Char.isDigit, Bool.and_eq_true, decide_eq_true_eq, UInt32.le_iff_toNat_le] at hdigit
  exact hdigit

lemma lines_manifestText : lines (manifestText positions) = positions.map (Nat.toDigits 10) := by
  have hsplit : (manifestText positions).splitOnP (· = '\n') =
      positions.map (Nat.toDigits 10) ++ [[]] := by
    induction positions with
    | nil => rfl
    | cons i positions ih =>
    have hdigits : ∀ c ∈ Nat.toDigits 10 i, decide (c = '\n') = false := by
      intro c hc
      have hrange := digit_range hc
      simp only [decide_eq_false_iff_not]
      rintro rfl
      exact absurd hrange (by decide)
    rw [manifestText, flatMap_cons, append_assoc, singleton_append,
      splitOnP_append_cons_of_forall_mem hdigits _ (by decide)]
    exact congrArg _ ih
  have hstrip : ∀ line ∈ positions.map (Nat.toDigits 10),
      (if line.getLast? = some '\r' then line.dropLast else line) = line := by
    intro line hline
    obtain ⟨i, -, rfl⟩ := mem_map.mp hline
    rw [if_neg]
    intro hlast
    exact absurd (digit_range (mem_of_getLast? hlast)) (by decide)
  simp only [lines, hsplit, dropLast_concat, getLast?_concat]
  exact (map_congr_left hstrip).trans (map_id' _)

lemma trim_digits (n : ℕ) : trim (Nat.toDigits 10 n) = Nat.toDigits 10 n := by
  have hdrop : ∀ text : Text, (∀ c ∈ text, Mount.isWhitespace c = false) →
      text.dropWhile Mount.isWhitespace = text := by
    intro text htext
    cases text with
    | nil => rfl
    | cons c text => exact dropWhile_cons_of_neg (by simp [htext c mem_cons_self])
  have hplain := Mount.digits_plain n
  rw [trim, hdrop _ hplain, hdrop _ (by simpa using hplain), reverse_reverse]

lemma parseUsize_digits (hn : n < 2 ^ 64) : parseUsize (Nat.toDigits 10 n) = some n := by
  have hdigits : ∀ c ∈ Nat.toDigits 10 n, c.isDigit = true :=
    fun c hc => isDigit_of_mem_toDigits (by norm_num) (by norm_num) hc
  have hvalue : Nat.ofDigitChars 10 (Nat.toDigits 10 n) 0 = n :=
    ofDigitChars_toDigits (by norm_num) (by norm_num)
  have hne : Nat.toDigits 10 n ≠ [] := toDigits_ne_nil
  generalize Nat.toDigits 10 n = text at hdigits hvalue hne
  unfold parseUsize
  split
  · have hsign := hdigits '+' (.head _)
    cases hsign
  · rw [if_pos ⟨hne, by simpa using hdigits⟩]
    unfold Nat.ofDigitChars at hvalue
    simp only [hvalue]
    exact if_pos hn

lemma parse_manifestText (hlossy : ReadsAscii lossy) (hn : n < 2 ^ 64)
    (hpositions : ∀ i ∈ positions, 1 ≤ i ∧ i ≤ n) :
    parseUnmatchedManifest lossy (asciiBytes (manifestText positions)) n = positions.map (· - 1) := by
  have hascii : ∀ c ∈ manifestText positions, c.toNat < 128 := by
    intro c hc
    obtain ⟨i, -, hc⟩ := mem_flatMap.mp hc
    rcases mem_append.mp hc with hc | hc
    · have hrange := digit_range hc
      omega
    · rw [mem_singleton.mp hc]
      decide
  have hparse : (positions.map (Nat.toDigits 10)).filterMap (fun line => parseUsize (trim line)) =
      positions := by
    rw [filterMap_map]
    refine (filterMap_congr fun i hi => ?_).trans filterMap_some
    rw [comp_apply, trim_digits, parseUsize_digits ((hpositions i hi).2.trans_lt hn)]
  rw [parseUnmatchedManifest, hlossy _ hascii, lines_manifestText, hparse]
  congr 1
  exact filter_eq_self.mpr fun i hi => decide_eq_true (hpositions i hi)

lemma unmatched_paths (paths : List PathBuf) :
    ((unmatchedPositions lossy other g paths).map (· - 1)).filterMap (paths[·]?) =
      paths.filter fun p => matched lossy other g p = [] := by
  have hget : ∀ e ∈ paths.zipIdx.filter (fun e => matched lossy other g e.1 = []),
      paths[e.2 + 1 - 1]? = some e.1 := by
    intro e he
    have hmem := mem_zipIdx (mem_filter.mp he).1
    have hlt : e.2 < paths.length := by simpa using hmem.2.1
    rw [Nat.add_sub_cancel, getElem?_eq_getElem hlt]
    simpa using hmem.2.2.symm
  have hzip : (paths.zipIdx.filter fun e => matched lossy other g e.1 = []).map Prod.fst =
      paths.filter fun p => matched lossy other g p = [] := by
    conv_rhs => rw [← zipIdx_map_fst 0 paths, filter_map]
    rfl
  rw [unmatchedPositions, map_map, filterMap_map, ← hzip, ← filterMap_eq_map]
  exact filterMap_congr fun e he => hget e he

lemma writeBack_unmatched (other : PathBuf → List Name) (g : Guest) (host : Name → Option Bytes)
    (hlossy : ReadsAscii lossy) (hcount : (retrievePaths tree out).length < 2 ^ 64) :
    (writeBack lossy other g tree out host).unmatchedOut =
        (((retrievePaths tree out).filter fun p => matched lossy other g p = []).filter
          fun p => out.any fun q => p.Same q).map (display lossy) ∧
      (writeBack lossy other g tree out host).unmatchedWriteBack =
        (((retrievePaths tree out).filter fun p => matched lossy other g p = []).filter
          fun p => ! out.any fun q => p.Same q).map (display lossy) := by
  have hpositions : ∀ i ∈ unmatchedPositions lossy other g (retrievePaths tree out),
      1 ≤ i ∧ i ≤ (retrievePaths tree out).length := by
    intro i hi
    obtain ⟨e, he, rfl⟩ := mem_map.mp hi
    have hmem := mem_zipIdx (mem_filter.mp he).1
    have hlt : e.2 < (retrievePaths tree out).length := by simpa using hmem.2.1
    omega
  simp only [writeBack, classify, parse_manifestText hlossy hcount hpositions, unmatched_paths,
    and_self]

end

/-! ## Names -/

open Guest

section
variable {lossy : Bytes → Text} {other : PathBuf → List Name} {g : Guest} {tree out : List PathBuf}
  {p : PathBuf} {q : Name} {bytes : Bytes} {host : Name → Option Bytes}

structure Tree (tree : List PathBuf) : Prop where
  distinct : tree.Pairwise fun p q => ¬ p.Same q
  valid : ∀ p ∈ tree, Valid p.name
  normal : ∀ p ∈ tree, p.components = p.name.map .normal
  apart : ∀ p ∈ tree, ∀ q ∈ tree, p.name <+: q.name → p.name = q.name

def Possible (tree : List PathBuf) (name : Name) : Prop :=
  Valid name ∧ ∀ p ∈ tree, p.name <+: name → p.name = name

lemma Guest.mem_names : q ∈ g.names ↔ q ≠ [] ∧ ∃ e ∈ g.files.map Prod.fst ++ g.dirs, q <+: e := by
  simp only [names, mem_flatMap, mem_filter, mem_inits, decide_eq_true_eq]
  constructor
  · rintro ⟨e, he, hfront, hne⟩
    exact ⟨hne, e, he, hfront⟩
  · rintro ⟨hne, e, he, hfront⟩
    exact ⟨e, he, hfront, hne⟩

lemma Valid.of_front {e : Name} (h : Valid e) (hne : q ≠ []) (hfront : q <+: e) : Valid q :=
  ⟨hne, fun part hpart => h.2 part (hfront.subset hpart)⟩

lemma Guest.mem_files (h : g.file? q = some bytes) : (q, bytes) ∈ g.files := by
  obtain ⟨before, after, hfiles, -⟩ := lookup_eq_some_iff.mp h
  rw [hfiles]
  simp

lemma Guest.mem_names_of_file (h : g.file? q = some bytes) : q ∈ g.names := by
  have hmem : q ∈ g.files.map Prod.fst := mem_map_of_mem (g.mem_files h)
  have hentry := mem_append_left g.dirs hmem
  exact mem_names.mpr ⟨(g.valid q hentry).1, q, hentry, prefix_rfl⟩

lemma Guest.possible (htree : Tree tree) (hdirs : ∀ p ∈ tree, ¬ g.IsDir p.name) (hq : q ∈ g.names) :
    Possible tree q := by
  obtain ⟨hne, e, he, hfront⟩ := mem_names.mp hq
  refine ⟨(g.valid e he).of_front hne hfront, fun p hp hbelow => ?_⟩
  have hname : p.name ∈ g.names := mem_names.mpr ⟨(htree.valid p hp).1, e, he, hbelow.trans hfront⟩
  cases hfile : g.file? p.name with
  | none => exact absurd ⟨hname, hfile⟩ (hdirs p hp)
  | some bytes =>
  have hapart := g.apart _ (g.mem_files hfile)
  rcases mem_append.mp he with he | he
  · obtain ⟨f, hf, rfl⟩ := mem_map.mp he
    have heq : p.name = f.1 := hapart.1 f hf (hbelow.trans hfront)
    exact hbelow.eq_of_length_le (heq ▸ hfront.length_le)
  · exact absurd (hbelow.trans hfront) (hapart.2 e he)

lemma matched_tree (htree : Tree tree) (hp : p ∈ tree) :
    matched lossy other g p = found g.names (word lossy p) := by
  apply if_neg
  rw [htree.normal p hp]
  simp

def Exact (lossy : Bytes → Text) (tree : List PathBuf) (p : PathBuf) : Prop :=
  ∀ q, Possible tree q → (Glob.Denotes (word lossy p) q ↔ q = p.name)

lemma Exact.of_matched (h : Exact lossy tree p) (htree : Tree tree)
    (hdirs : ∀ p ∈ tree, ¬ g.IsDir p.name) (hp : p ∈ tree) (hq : q ∈ matched lossy other g p) :
    q = p.name ∧ ∃ bytes, g.file? p.name = some bytes := by
  rw [matched_tree htree hp] at hq
  obtain ⟨hname, hdenotes⟩ := denotes_of_mem_found hq
  have heq := (h q (g.possible htree hdirs hname)).mp hdenotes
  refine ⟨heq, ?_⟩
  cases hfile : g.file? p.name with
  | none => exact absurd ⟨heq ▸ hname, hfile⟩ (hdirs p hp)
  | some bytes => exact ⟨bytes, rfl⟩

lemma Exact.matched (other : PathBuf → List Name) (h : Exact lossy tree p) (htree : Tree tree)
    (hdirs : ∀ p ∈ tree, ¬ g.IsDir p.name) (hp : p ∈ tree) (hfile : g.file? p.name = some bytes) :
    p.name ∈ matched lossy other g p := by
  have hname := g.mem_names_of_file hfile
  rw [matched_tree htree hp]
  apply mem_found_of_unique hname
  · exact (h _ (g.possible htree hdirs hname)).mpr rfl
  · exact fun x hx hdenotes => (h x (g.possible htree hdirs hx)).mp hdenotes

lemma lookup_filter {l : List (Name × Bytes)} (keep : Name → Bool) (hq : keep q = true) :
    (l.filter fun f => keep f.1).lookup q = l.lookup q := by
  induction l with
  | nil => rfl
  | cons f l ih =>
  obtain ⟨name, bytes⟩ := f
  by_cases heq : q = name
  · subst heq
    simp [hq]
  · have hne : (q == name) = false := by simpa using heq
    by_cases hkeep : keep name = true
    · simp [hkeep, lookup_cons, hne, ih]
    · simp [hkeep, lookup_cons, hne, ih]

lemma packed_lookup {paths : List PathBuf} (hp : p ∈ paths) (hq : q ∈ matched lossy other g p) :
    (packed lossy other g paths).lookup q = g.file? q := by
  have hkeep : (paths.any fun p => (matched lossy other g p).any fun name => decide (name <+: q)) = true := by
    rw [any_eq_true]
    exact ⟨p, hp, any_eq_true.mpr ⟨q, hq, decide_eq_true prefix_rfl⟩⟩
  exact lookup_filter (fun q => paths.any fun p => (matched lossy other g p).any
    fun name => decide (name <+: q)) hkeep

lemma mem_unmatchedWriteBack (hlossy : ReadsAscii lossy) (htree : Tree tree)
    (hcount : (retrievePaths tree out).length < 2 ^ 64) (hp : p ∈ tree)
    (hsuccess : (writeBack lossy other g tree out host).unmatchedOut = []) :
    display lossy p ∈ (writeBack lossy other g tree out host).unmatchedWriteBack ↔
      matched lossy other g p = [] := by
  obtain ⟨hout, hback⟩ := writeBack_unmatched other g host hlossy hcount
  rw [hout, map_eq_nil_iff] at hsuccess
  rw [hback]
  constructor
  · intro hlisted
    obtain ⟨p', hp', hdisplay⟩ := mem_map.mp hlisted
    obtain ⟨hunmatched, hunnamed⟩ := mem_filter.mp hp'
    obtain ⟨hpaths, hnone⟩ := mem_filter.mp hunmatched
    rcases mem_of_mem_retrievePaths hpaths with htree' | hout'
    · -- paths that read alike have the same word
      have hword : word lossy p' = word lossy p := by rw [word, word, String.ofList_inj.mp hdisplay]
      rw [matched_tree htree hp, ← hword, ← matched_tree htree htree']
      exact of_decide_eq_true hnone
    · simp only [Bool.not_eq_true', any_eq_false, decide_eq_true_eq] at hunnamed
      exact absurd rfl (hunnamed p' hout')
  · intro hnone
    have hunmatched : p ∈ (retrievePaths tree out).filter fun p => matched lossy other g p = [] :=
      mem_filter.mpr ⟨mem_retrievePaths out htree.distinct hp, decide_eq_true hnone⟩
    apply mem_map_of_mem
    refine mem_filter.mpr ⟨hunmatched, ?_⟩
    by_contra hnamed
    rw [Bool.not_eq_true', Bool.not_eq_false] at hnamed
    exact filter_eq_nil_iff.mp hsuccess p hunmatched hnamed

lemma faithful_of_exact (hlossy : ReadsAscii lossy) (htree : Tree tree)
    (hexact : ∀ p ∈ tree, Exact lossy tree p) (hcount : (retrievePaths tree out).length < 2 ^ 64)
    (hdirs : ∀ p ∈ tree, ¬ g.IsDir p.name) : Faithful lossy other g tree out host := by
  intro hsuccess
  refine ⟨fun p hp => ⟨?_, fun bytes hfile => ?_⟩, fun f hf => ?_⟩
  · rw [mem_unmatchedWriteBack hlossy htree hcount hp hsuccess, eq_nil_iff_forall_not_mem]
    constructor
    · intro hnone q hq
      obtain ⟨-, bytes, hfile⟩ := (hexact p hp).of_matched htree hdirs hp hq
      rw [hnone] at hfile
      cases hfile
    · intro hempty
      cases hfile : g.file? p.name with
      | none => rfl
      | some bytes => exact absurd (Exact.matched other (hexact p hp) htree hdirs hp hfile) (hempty _)
  · have hmatched := Exact.matched other (hexact p hp) htree hdirs hp hfile
    have hlookup := packed_lookup (mem_retrievePaths out htree.distinct hp) hmatched
    change ((packed lossy other g (retrievePaths tree out)).lookup p.name).or (host p.name) = some bytes
    rw [hlookup, hfile]
    rfl
  · obtain ⟨hfile, hpacked⟩ := mem_filter.mp hf
    obtain ⟨p, hp, hany⟩ := any_eq_true.mp hpacked
    obtain ⟨name, hname, hfront⟩ := any_eq_true.mp hany
    have hfront := of_decide_eq_true hfront
    rcases mem_of_mem_retrievePaths hp with hp | hp
    · obtain ⟨rfl, bytes, hbytes⟩ := (hexact p hp).of_matched htree hdirs hp hname
      exact .inl ⟨p, hp, (g.apart _ (g.mem_files hbytes)).1 f hfile hfront⟩
    · exact .inr ⟨p, hp, name, hname, hfront⟩

/-! ## A guest with one file -/

def lone (q : Name) (hq : Valid q) : Guest where
  files := [(q, [])]
  dirs := []
  valid := by simpa using hq
  apart := by simp

lemma lone_file? (hq : Valid q) (x : Name) : (lone q hq).file? x = if x = q then some [] else none := by
  by_cases h : x = q
  · simp [lone, file?, h]
  · have hne : (x == q) = false := by simpa using h
    simp [lone, file?, lookup_cons, h, hne]

lemma lone_names (hq : Valid q) {x : Name} : x ∈ (lone q hq).names ↔ x ≠ [] ∧ x <+: q := by
  simp [mem_names, lone]

lemma lone_dirs (hq : Possible tree q) : ∀ p ∈ tree, ¬ (lone q hq.1).IsDir p.name := by
  rintro p hp ⟨hname, hfile⟩
  rw [lone_file?, if_pos (hq.2 p hp (lone_names hq.1 |>.mp hname).2)] at hfile
  cases hfile

lemma retrievePaths_length_le (tree out : List PathBuf) :
    (retrievePaths tree out).length ≤ (tree ++ out).length := by
  have hle := (destutter_sublist (fun p q : PathBuf => ¬ p.Same q) (sort (tree ++ out))).length_le
  exact hle.trans_eq (length_insertionSort _ _)

lemma exact_of_faithful (hlossy : ReadsAscii lossy) (htree : Tree tree)
    (hcount : (retrievePaths tree []).length < 2 ^ 64)
    (hfaithful : ∀ q (hq : Possible tree q), Faithful lossy (fun _ => []) (lone q hq.1) tree [] fun _ => none)
    (hp : p ∈ tree) : Exact lossy tree p := by
  have hsuccess (g : Guest) :
      (writeBack lossy (fun _ => []) g tree [] fun _ => none).unmatchedOut = [] := by
    rw [(writeBack_unmatched _ g _ hlossy hcount).1]
    simp
  have hlisted (q : Name) (hq : Possible tree q) :
      (lone q hq.1).file? p.name = none ↔ matched lossy (fun _ => []) (lone q hq.1) p = [] := by
    rw [((hfaithful q hq (hsuccess _)).1 p hp).1]
    exact mem_unmatchedWriteBack hlossy htree hcount hp (hsuccess _)
  have hother : ∀ x, Possible tree x → Glob.Denotes (word lossy p) x → x = p.name := by
    intro x hx hdenotes
    by_contra hne
    have hnone := (hlisted x hx).mp (by rw [lone_file?, if_neg (Ne.symm hne)])
    rw [matched_tree htree hp] at hnone
    exact found_ne_nil ((lone_names hx.1).mpr ⟨hx.1.1, prefix_rfl⟩) hdenotes hnone
  intro q hq
  refine ⟨hother q hq, ?_⟩
  rintro rfl
  by_contra hnot
  -- then nothing is found where only the file itself is there
  have hnone : matched lossy (fun _ => []) (lone p.name hq.1) p = [] := by
    rw [matched_tree htree hp, eq_nil_iff_forall_not_mem]
    intro x hx
    obtain ⟨hname, hdenotes⟩ := denotes_of_mem_found hx
    have heq := hother x (possible htree (lone_dirs hq) hname) hdenotes
    exact hnot (heq ▸ hdenotes)
  have hfile := (hlisted _ hq).mpr hnone
  rw [lone_file?, if_pos rfl] at hfile
  cases hfile

end

lemma ascii_readsAscii : ReadsAscii ascii := by
  intro text htext
  rw [ascii, asciiBytes, map_map]
  refine (map_congr_left fun c hc => ?_).trans (map_id' _)
  have hbyte : c.toNat.toUInt8.toNat = c.toNat := mod_eq_of_lt ((htext c hc).trans (by norm_num))
  rw [comp_apply, hbyte, Char.ofNat_toNat]

/-- The file `a`, edited in the guest. -/
def edited : Guest where
  files := [([[97]], [1])]
  dirs := []
  valid := by decide
  apart := by decide

/-- The files `[ab]` and `a`. -/
def bracketTree : List PathBuf := [⟨[91, 97, 98, 93]⟩, ⟨[97]⟩]

def bracketGuest : Guest where
  files := [([[91, 97, 98, 93]], [1]), ([[97]], [0])]
  dirs := []
  valid := by decide
  apart := by decide

/-- The command replaced `a` by a directory with a file. -/
def directoryGuest : Guest where
  files := [([[97], [98]], [1])]
  dirs := []
  valid := by decide
  apart := by decide

end Husker.Cli
