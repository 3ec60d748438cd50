import Husker.Net.Address
import Husker.Relational.Text

/-! # Host directories in a guest

A mount string becomes a token of the kernel command line, and the guest reads the tokens back.
-/
namespace Husker.Mount
open Relational List Text Text

/-! ## Mount strings -/

structure HostShare where
  host : Text
  guest : Text
  readOnly : Bool
  tag : Text
  deriving DecidableEq

/-- The last component of a path; dots and empty components do not count. -/
def fileName (path : Text) : Option Text :=
  ((path.splitOnP (· = '/')).filter fun seg => seg ≠ [] ∧ seg ≠ ['.']).getLast?

/-- `splitn(3, ':')`. -/
def splitThree (spec : Text) : Text × Option (Text × Option Text) :=
  match Text.splitOnce ':' spec with
  | none => (spec, none)
  | some (first, rest) =>
    match Text.splitOnce ':' rest with
    | none => (first, some (rest, none))
    | some (second, third) => (first, some (second, some third))

def mountSpec (spec : Text) (complaint : String) : Text :=
  "mount spec '".toList ++ spec ++ "': ".toList ++ complaint.toList

def checkGuest (spec guest : Text) : Except Text Unit :=
  if guest = [] then .error (mountSpec spec "guest path is empty")
  else if guest.head? ≠ some '/' then
    .error (mountSpec spec "guest path must be absolute, got '" ++ guest ++ "'".toList)
  else .ok ()

def parseMountSpec (spec : Text) (index : ℕ) : Except Text HostShare :=
  let (host, rest) := splitThree spec
  if host = [] then .error (mountSpec spec "host path is empty")
  else if host.head? ≠ some '/' then
    .error (mountSpec spec "host path must be absolute, got '" ++ host ++ "'".toList)
  else if "..".toList ∈ host.splitOnP (· = '/') then
    .error (mountSpec spec "host path must not contain '..' components")
  else
    let tag := "fs".toList ++ Nat.toDigits 10 index
    let defaultGuest := "/mnt/".toList ++ (fileName host).getD "share".toList
    match rest with
    | none => .ok ⟨host, defaultGuest, false, tag⟩
    | some (guest, none) =>
      if guest = "ro".toList then .ok ⟨host, defaultGuest, true, tag⟩
      else do
        checkGuest spec guest
        return ⟨host, guest, false, tag⟩
    | some (guest, some trailing) => do
      checkGuest spec guest
      if trailing ≠ "ro".toList then
        throw (mountSpec spec "trailing option must be 'ro', got '" ++ trailing ++ "'".toList)
      return ⟨host, guest, true, tag⟩

def parseMounts : ℕ → List Text → Except Text (List HostShare)
  | _, [] => .ok []
  | index, spec :: specs => do
    let share ← parseMountSpec spec index
    let shares ← parseMounts (index + 1) specs
    return share :: shares

/-! ## The command line -/

/-- `char::is_whitespace`. -/
def isWhitespace (c : Char) : Bool :=
  let n := c.toNat
  (0x09 ≤ n && n ≤ 0x0d) || n = 0x20 || n = 0x85 || n = 0xa0 || n = 0x1680 ||
    (0x2000 ≤ n && n ≤ 0x200a) || n = 0x2028 || n = 0x2029 || n = 0x202f || n = 0x205f || n = 0x3000

lemma not_whitespace_of_all {text : Text} (h : text.all (isWhitespace · = false) = true) :
    ∀ c ∈ text, isWhitespace c = false := by
  simpa using h

def splitWhitespace (text : Text) : List Text := Text.words isWhitespace text

def dotted (a : Net.Ipv4Addr) : Text :=
  ['.'].intercalate ([24, 16, 8, 0].map fun shift => Nat.toDigits 10 (a.val >>> shift % 256))

def legacyProbeSuppression : String := "i8042.noaux i8042.nomux i8042.nopnp i8042.dumbkbd"

def directKernelBaseArgs (ip : Option Net.Ipv4Addr) (gateway netmask : Net.Ipv4Addr) (hasInitrd : Bool) :
    Text :=
  let root := if hasInitrd then [] else " root=/dev/vda rw".toList
  let net := match ip with
    | some ip => " ip=".toList ++ dotted ip ++ "::".toList ++ dotted gateway ++ ":".toList ++
        dotted netmask ++ "::eth0:off".toList
    | none => []
  "console=ttyS0 reboot=k panic=1 pci=off ".toList ++ legacyProbeSuppression.toList ++ root ++ net

def applyBootInit (base : Text) (bootInit : Option Text) : Text :=
  match bootInit with
  | some path =>
    if (splitWhitespace base).any fun t => decide ("init=".toList <+: t) then base
    else base ++ " init=".toList ++ path ++ " husker.init=1".toList
  | none => base

/-- What an imported image boots with; other images have none. -/
def ociBootInit : Text := "/usr/local/bin/husker-agent".toList

def shareToken (share : HostShare) : Text :=
  "husker.share=".toList ++ share.tag ++ '=' :: share.guest ++
    if share.readOnly then ":ro".toList else []

structure Boot where
  ip : Option Net.Ipv4Addr
  gateway : Net.Ipv4Addr
  netmask : Net.Ipv4Addr
  hasInitrd : Bool
  imported : Bool

def Boot.args (boot : Boot) : Text :=
  applyBootInit (directKernelBaseArgs boot.ip boot.gateway boot.netmask boot.hasInitrd)
    (if boot.imported then some ociBootInit else none)

def kernelArgs (boot : Boot) (shares : List HostShare) : Text :=
  shares.foldl (fun args share => args ++ ' ' :: shareToken share) boot.args

def buildArgs (args : Text) : Text :=
  [' '].intercalate ((splitWhitespace args).filter (· ≠ "pci=off".toList)) ++ " root=/dev/vda rw".toList

/-! ## The guest -/

def parseShare (v : Text) : Option (Text × Text × Bool) :=
  match Text.splitOnce '=' v with
  | none => none
  | some (tag, rest) =>
    if ":ro".toList <:+ rest then some (tag, rest.take (rest.length - 3), true)
    else some (tag, rest, false)

def parseShares (cmdline : Text) : List (Text × Text × Bool) :=
  ((splitWhitespace cmdline).filterMap (Text.stripPrefix "husker.share=".toList)).filterMap parseShare

/-! ## Shares -/

variable {spec : Text} {index : ℕ} {share : HostShare} {shares : List HostShare} {boot : Boot}

structure HostShare.Sound (share : HostShare) : Prop where
  tag : '=' ∉ share.tag
  blank : ∀ c ∈ share.tag, isWhitespace c = false
  guest : ':' ∉ share.guest

lemma splitThree_first (spec : Text) : ':' ∉ (splitThree spec).1 := by
  unfold splitThree
  split
  · exact splitOnce_eq_none.mp ‹_›
  · split <;> exact (splitOnce_eq_some ‹splitOnce ':' spec = _›).2

lemma splitThree_second {first second : Text} {third : Option Text}
    (h : splitThree spec = (first, some (second, third))) : ':' ∉ second := by
  unfold splitThree at h
  split at h
  · cases h
  · split at h <;> cases h
    · exact splitOnce_eq_none.mp ‹_›
    · exact (splitOnce_eq_some ‹_›).2

lemma digits_plain (n : ℕ) : ∀ c ∈ Nat.toDigits 10 n, isWhitespace c = false := by
  intro c hc
  have hdigit := Nat.isDigit_of_mem_toDigits (by norm_num) (by norm_num) hc
  simp only [Char.isDigit, Bool.and_eq_true, decide_eq_true_eq, UInt32.le_iff_toNat_le] at hdigit
  simp only [isWhitespace, Bool.or_eq_false_iff, Bool.and_eq_false_iff, decide_eq_false_iff_not]
  have hlow : 48 ≤ c.toNat := hdigit.1
  have hhigh : c.toNat ≤ 57 := hdigit.2
  omega

lemma tag_blank (index : ℕ) : ∀ c ∈ "fs".toList ++ Nat.toDigits 10 index, isWhitespace c = false := by
  have hfs : ∀ c ∈ "fs".toList, isWhitespace c = false := not_whitespace_of_all (by decide +kernel)
  intro c hc
  exact (mem_append.mp hc).elim (hfs c) (digits_plain index c)

lemma tag_plain (index : ℕ) : '=' ∉ "fs".toList ++ Nat.toDigits 10 index := by
  intro hmem
  rcases mem_append.mp hmem with h | h
  · revert h
    decide
  · have hdigit := Nat.isDigit_of_mem_toDigits (by norm_num) (by norm_num) h
    revert hdigit
    decide

lemma defaultGuest_plain {host : Text} (h : ':' ∉ host) :
    ':' ∉ "/mnt/".toList ++ (fileName host).getD "share".toList := by
  intro hmem
  rcases mem_append.mp hmem with hmem | hmem
  · revert hmem
    decide
  cases hname : fileName host with
  | none =>
    rw [hname] at hmem
    revert hmem
    decide
  | some name =>
    rw [hname] at hmem
    have hpiece := mem_of_mem_filter (mem_of_getLast? hname)
    exact h (of_mem_splitOnP hpiece _ hmem).1

lemma parseMountSpec_sound (h : parseMountSpec spec index = .ok share) : share.Sound := by
  have hfirst := splitThree_first spec
  unfold parseMountSpec at h
  cases hsplit : splitThree spec with
  | mk host rest =>
  rw [hsplit] at h hfirst
  simp only at h hfirst
  split at h
  · cases h
  split at h
  · cases h
  split at h
  · cases h
  split at h
  · cases h
    exact ⟨tag_plain index, tag_blank index, defaultGuest_plain hfirst⟩
  · split at h
    · cases h
      exact ⟨tag_plain index, tag_blank index, defaultGuest_plain hfirst⟩
    · cases hguest : checkGuest spec ‹_› with
      | error e => simp [hguest, bind, Except.bind] at h
      | ok _ =>
        simp only [hguest, bind, Except.bind] at h
        cases h
        exact ⟨tag_plain index, tag_blank index, splitThree_second hsplit⟩
  · rename_i guest trailing
    cases hguest : checkGuest spec guest with
    | error e => simp [hguest, bind, Except.bind] at h
    | ok _ =>
      simp only [hguest, bind, Except.bind] at h
      split at h <;> cases h
      · exact ⟨tag_plain index, tag_blank index, splitThree_second hsplit⟩

lemma parseMounts_sound {specs : List Text} (h : parseMounts index specs = .ok shares) :
    ∀ share ∈ shares, share.Sound := by
  induction specs generalizing index shares with
  | nil =>
    cases h
    simp
  | cons spec specs ih =>
  rw [parseMounts] at h
  cases hspec : parseMountSpec spec index with
  | error e => simp [hspec, bind, Except.bind] at h
  | ok share =>
  cases hrest : parseMounts (index + 1) specs with
  | error e => simp [hspec, hrest, bind, Except.bind] at h
  | ok rest =>
  simp only [hspec, hrest, bind, Except.bind] at h
  cases h
  intro s hs
  rcases mem_cons.mp hs with rfl | hs
  · exact parseMountSpec_sound hspec
  · exact ih hrest s hs

/-! ## Tokens -/

def shareKey : Text := "husker.share=".toList

def Plain (token : Text) : Prop := ¬shareKey <+: token

instance : DecidablePred Plain := fun token => by unfold Plain; infer_instance

lemma dotted_plain (a : Net.Ipv4Addr) : ∀ c ∈ dotted a, isWhitespace c = false := by
  intro c hc
  simp only [dotted, List.intercalate, map_cons, map_nil, List.intersperse,
    flatten_cons, flatten_nil, mem_append, mem_singleton] at hc
  rcases hc with hc | rfl | hc | rfl | hc | rfl | hc | hc
  all_goals first | exact digits_plain _ _ hc | rfl | simp at hc

lemma plain_append {a b : Text} (ha : ∀ w ∈ splitWhitespace a, Plain w)
    (hb : ∀ w ∈ splitWhitespace b, Plain w) : ∀ w ∈ splitWhitespace (a ++ ' ' :: b), Plain w := by
  intro w hw
  rw [splitWhitespace, words_append rfl] at hw
  exact (mem_append.mp hw).elim (ha w) (hb w)

lemma base_plain (ip : Option Net.Ipv4Addr) (gateway netmask : Net.Ipv4Addr) (hasInitrd : Bool) :
    ∀ w ∈ splitWhitespace (directKernelBaseArgs ip gateway netmask hasInitrd), Plain w := by
  have hfixed : ∀ w ∈ splitWhitespace ("console=ttyS0 reboot=k panic=1 pci=off ".toList ++
      legacyProbeSuppression.toList), Plain w := by decide +kernel
  have hroot : ∀ w ∈ splitWhitespace "root=/dev/vda rw".toList, Plain w := by decide +kernel
  have hstart : ∀ w ∈ splitWhitespace ("console=ttyS0 reboot=k panic=1 pci=off ".toList ++
      legacyProbeSuppression.toList ++ if hasInitrd then [] else " root=/dev/vda rw".toList),
      Plain w := by
    cases hasInitrd with
    | true =>
      rw [if_pos rfl, append_nil]
      exact hfixed
    | false => exact plain_append hfixed hroot
  unfold directKernelBaseArgs
  cases ip with
  | none =>
    dsimp only
    rw [append_nil]
    exact hstart
  | some ip =>
  have htoken : ∀ c ∈ "ip=".toList ++ dotted ip ++ "::".toList ++ dotted gateway ++ ":".toList ++
      dotted netmask ++ "::eth0:off".toList, isWhitespace c = false := by
    intro c hc
    simp only [mem_append] at hc
    rcases hc with (((((hc | hc) | hc) | hc) | hc) | hc) | hc
    · exact not_whitespace_of_all (by decide +kernel) c hc
    · exact dotted_plain ip c hc
    · exact not_whitespace_of_all (by decide +kernel) c hc
    · exact dotted_plain gateway c hc
    · exact not_whitespace_of_all (by decide +kernel) c hc
    · exact dotted_plain netmask c hc
    · exact not_whitespace_of_all (by decide +kernel) c hc
  have hnet : ∀ w ∈ splitWhitespace ("ip=".toList ++ dotted ip ++ "::".toList ++ dotted gateway ++
      ":".toList ++ dotted netmask ++ "::eth0:off".toList), Plain w := by
    intro w hw
    rw [splitWhitespace, words_word (by simp) htoken, mem_singleton] at hw
    rw [hw]
    rintro ⟨rest, hrest⟩
    cases hrest
  exact plain_append hstart hnet

lemma args_plain (boot : Boot) : ∀ w ∈ splitWhitespace boot.args, Plain w := by
  have hbase := base_plain boot.ip boot.gateway boot.netmask boot.hasInitrd
  have hinit : ∀ w ∈ splitWhitespace ("init=".toList ++ ociBootInit ++ " husker.init=1".toList),
      Plain w := by decide +kernel
  unfold Boot.args applyBootInit
  split
  · rename_i path hpath
    obtain rfl : path = ociBootInit := by
      split at hpath <;> cases hpath
      rfl
    split
    · exact hbase
    · rw [append_assoc, append_assoc]
      exact plain_append hbase hinit
  · exact hbase

/-! ## The command line as the guest sees it -/

lemma splitWhitespace_kernelArgs (boot : Boot) (shares : List HostShare) :
    splitWhitespace (kernelArgs boot shares) =
      splitWhitespace boot.args ++ shares.flatMap fun share => splitWhitespace (shareToken share) := by
  unfold kernelArgs
  generalize boot.args = args
  induction shares generalizing args with
  | nil => simp
  | cons share shares ih =>
    rw [foldl_cons, ih, splitWhitespace, words_append rfl, flatMap_cons, append_assoc]
    rfl

lemma splitWhitespace_buildArgs (args : Text) : splitWhitespace (buildArgs args) =
      (splitWhitespace args).filter (· ≠ "pci=off".toList) ++ ["root=/dev/vda".toList, "rw".toList] := by
  have hroot : splitWhitespace "root=/dev/vda rw".toList = ["root=/dev/vda".toList, "rw".toList] := by
    decide +kernel
  have hwords : ∀ w ∈ (splitWhitespace args).filter (· ≠ "pci=off".toList),
      w ≠ [] ∧ ∀ c ∈ w, isWhitespace c = false := by
    intro w hw
    have hmem := mem_of_mem_filter hw
    exact ⟨ne_nil_of_mem_words hmem, not_blank_of_mem_words hmem⟩
  have happend : splitWhitespace (buildArgs args) =
      words isWhitespace ([' '].intercalate
        ((splitWhitespace args).filter (· ≠ "pci=off".toList))) ++
      splitWhitespace "root=/dev/vda rw".toList := words_append rfl
  rw [happend, words_intercalate rfl _ hwords, hroot]

def shareValue (share : HostShare) : Text :=
  share.tag ++ '=' :: (share.guest ++ if share.readOnly then ":ro".toList else [])

lemma shareToken_eq (share : HostShare) : shareToken share = shareKey ++ shareValue share := by
  unfold shareToken shareValue shareKey
  simp only [append_assoc, cons_append]

lemma shareToken_word (htag : ∀ c ∈ share.tag, isWhitespace c = false)
    (hguest : ∀ c ∈ share.guest, isWhitespace c = false) :
    splitWhitespace (shareToken share) = [shareToken share] := by
  have hkey : ∀ c ∈ shareKey, isWhitespace c = false := not_whitespace_of_all (by decide +kernel)
  have hsuffix : ∀ c ∈ ":ro".toList, isWhitespace c = false := not_whitespace_of_all (by decide +kernel)
  rw [shareToken_eq]
  apply words_word
  · exact append_ne_nil_of_left_ne_nil (by decide) _
  intro c hc
  rcases mem_append.mp hc with hc | hc
  · exact hkey c hc
  rcases mem_append.mp hc with hc | hc
  · exact htag c hc
  rcases mem_cons.mp hc with rfl | hc
  · rfl
  rcases mem_append.mp hc with hc | hc
  · exact hguest c hc
  · split at hc
    · exact hsuffix c hc
    · cases hc

lemma parseShare_value (h : share.Sound) :
    parseShare (shareValue share) = some (share.tag, share.guest, share.readOnly) := by
  unfold parseShare shareValue
  rw [splitOnce_append h.tag]
  cases hro : share.readOnly with
  | true =>
    dsimp only
    rw [if_pos rfl, if_pos (suffix_append _ _), length_append]
    exact congrArg (fun path => some (share.tag, path, true)) (take_left ..)
  | false =>
  have hsuffix : ¬":ro".toList <:+ share.guest :=
    fun hsuffix => h.guest (hsuffix.subset (by decide))
  dsimp only
  rw [if_neg Bool.false_ne_true, append_nil, if_neg hsuffix]

lemma parseShare_mem {v tag guest : Text} {readOnly : Bool}
    (h : parseShare v = some (tag, guest, readOnly)) : ∀ c ∈ guest, c ∈ v := by
  unfold parseShare at h
  split at h
  · cases h
  · rename_i tag' rest hsplit
    obtain ⟨rfl, -⟩ := splitOnce_eq_some hsplit
    split at h <;> cases h
    · exact fun c hc => by simp [mem_of_mem_take hc]
    · exact fun c hc => by simp [hc]

lemma filterMap_plain {tokens : List Text} (h : ∀ w ∈ tokens, Plain w) :
    tokens.filterMap (stripPrefix shareKey) = [] := by
  apply filterMap_eq_nil_iff.mpr
  intro w hw
  rw [stripPrefix, if_neg (h w hw)]

/-- The guest finds the shares as they were asked for, and the rest of the command line is as it is
without them. -/
structure Rendered (boot : Boot) (shares : List HostShare) : Prop where
  found : parseShares (buildArgs (kernelArgs boot shares)) =
    shares.map fun share => (share.tag, share.guest, share.readOnly)
  others : (splitWhitespace (buildArgs (kernelArgs boot shares))).filter (Plain ·) =
    splitWhitespace (buildArgs (kernelArgs boot []))

lemma tokens_of_plain_guests (h : ∀ share ∈ shares, share.Sound)
    (hguests : ∀ share ∈ shares, ∀ c ∈ share.guest, isWhitespace c = false) :
    (shares.flatMap fun share => splitWhitespace (shareToken share)) = shares.map shareToken := by
  induction shares with
  | nil => rfl
  | cons share shares ih =>
  rw [flatMap_cons, map_cons, shareToken_word (h share (.head _)).blank (hguests share (.head _)),
    ih (fun s hs => h s (.tail _ hs)) fun s hs => hguests s (.tail _ hs)]
  rfl

lemma shareToken_not_plain (share : HostShare) : ¬Plain (shareToken share) := by
  rw [shareToken_eq]
  exact not_not.mpr (prefix_append _ _)

lemma filterMap_tokens (h : ∀ share ∈ shares, share.Sound) :
    ((shares.map shareToken).filterMap (stripPrefix shareKey)).filterMap parseShare =
      shares.map fun share => (share.tag, share.guest, share.readOnly) := by
  induction shares with
  | nil => rfl
  | cons share shares ih =>
  have hstrip : stripPrefix shareKey (shareToken share) = some (shareValue share) := by
    rw [shareToken_eq, stripPrefix_append]
  rw [map_cons, filterMap_cons_some hstrip,
    filterMap_cons_some (parseShare_value (h share (.head _))), map_cons,
    ih fun s hs => h s (.tail _ hs)]

lemma words_rendered (h : ∀ share ∈ shares, share.Sound)
    (hguests : ∀ share ∈ shares, ∀ c ∈ share.guest, isWhitespace c = false) :
    splitWhitespace (buildArgs (kernelArgs boot shares)) =
      (splitWhitespace boot.args).filter (· ≠ "pci=off".toList) ++ shares.map shareToken ++
        ["root=/dev/vda".toList, "rw".toList] := by
  have hkeep : (shares.map shareToken).filter (· ≠ "pci=off".toList) = shares.map shareToken := by
    apply filter_eq_self.mpr
    intro w hw
    obtain ⟨share, -, rfl⟩ := mem_map.mp hw
    apply decide_eq_true
    intro heq
    apply shareToken_not_plain share
    rw [heq]
    decide +kernel
  rw [splitWhitespace_buildArgs, splitWhitespace_kernelArgs, tokens_of_plain_guests h hguests,
    filter_append, hkeep]

/-- Mounts are rendered faithfully exactly if no guest path has a blank. -/
theorem mounts_rendered_iff {specs : List Text} (hparse : parseMounts 0 specs = .ok shares) :
    Rendered boot shares ↔ ∀ share ∈ shares, ∀ c ∈ share.guest, isWhitespace c = false := by
  have hsound := parseMounts_sound hparse
  have hroot : ∀ w ∈ ["root=/dev/vda".toList, "rw".toList], Plain w := by decide +kernel
  have hbase : ∀ w ∈ (splitWhitespace boot.args).filter (· ≠ "pci=off".toList), Plain w :=
    fun w hw => args_plain boot w (mem_of_mem_filter hw)
  constructor
  · -- What the guest reads are pieces of words.
    intro hrendered share hshare c hc
    have hmem : (share.tag, share.guest, share.readOnly) ∈
        parseShares (buildArgs (kernelArgs boot shares)) := by
      rw [hrendered.found]
      exact mem_map_of_mem hshare
    obtain ⟨v, hv, hparsed⟩ := mem_filterMap.mp hmem
    obtain ⟨w, hw, hstrip⟩ := mem_filterMap.mp hv
    apply not_blank_of_mem_words hw
    rw [stripPrefix_eq_some hstrip]
    exact mem_append_right _ (parseShare_mem hparsed c hc)
  · intro hguests
    have hwords : splitWhitespace (buildArgs (kernelArgs boot shares)) = _ :=
      words_rendered hsound hguests
    refine ⟨?_, ?_⟩
    · change ((splitWhitespace _).filterMap (stripPrefix shareKey)).filterMap parseShare = _
      rw [hwords, ← filterMap_tokens hsound]
      simp only [filterMap_append, filterMap_plain hbase, filterMap_plain hroot,
        nil_append, append_nil]
    have hnone : splitWhitespace (buildArgs (kernelArgs boot [])) =
        (splitWhitespace boot.args).filter (· ≠ "pci=off".toList) ++
          ["root=/dev/vda".toList, "rw".toList] := splitWhitespace_buildArgs boot.args
    have htokens : (shares.map shareToken).filter (Plain ·) = [] := by
      apply filter_eq_nil_iff.mpr
      intro w hw
      obtain ⟨share, -, rfl⟩ := mem_map.mp hw
      simpa using shareToken_not_plain share
    rw [hwords, hnone, filter_append, filter_append, htokens, append_nil,
      filter_eq_self.mpr fun w hw => decide_eq_true (hbase w hw),
      filter_eq_self.mpr fun w hw => decide_eq_true (hroot w hw)]

/-! ## Samples -/

def sampleBoot : Boot := ⟨some ⟨0xc0a86402, by norm_num⟩, ⟨0xc0a86401, by norm_num⟩,
  ⟨0xfffffffc, by norm_num⟩, true, true⟩

/-- A guest path with a blank loses the rest of its name and its read-only flag, and adds a
parameter of its own. -/
theorem mount_adds_kernel_parameter :
    ∃ shares, parseMounts 0 ["/srv:/data init=/evil:ro".toList] = .ok shares ∧
      parseShares (buildArgs (kernelArgs sampleBoot shares)) = [("fs0".toList, "/data".toList, false)] ∧
      "init=/evil:ro".toList ∈ splitWhitespace (buildArgs (kernelArgs sampleBoot shares)) := by
  refine ⟨[⟨"/srv".toList, "/data init=/evil".toList, true, "fs0".toList⟩], ?_, ?_, ?_⟩
  · decide +kernel
  · decide +kernel
  · decide +kernel

theorem two_mounts_rendered :
    ∃ shares, parseMounts 0 ["/srv/src".toList, "/etc/ssl:/certs:ro".toList] = .ok shares ∧
      Rendered sampleBoot shares := by
  have hparse : parseMounts 0 ["/srv/src".toList, "/etc/ssl:/certs:ro".toList] =
      .ok [⟨"/srv/src".toList, "/mnt/src".toList, false, "fs0".toList⟩,
        ⟨"/etc/ssl".toList, "/certs".toList, true, "fs1".toList⟩] := by decide +kernel
  refine ⟨_, hparse, (mounts_rendered_iff hparse).mpr ?_⟩
  rw [forall_mem_cons, forall_mem_singleton]
  exact ⟨not_whitespace_of_all (by decide +kernel), not_whitespace_of_all (by decide +kernel)⟩

end Husker.Mount
