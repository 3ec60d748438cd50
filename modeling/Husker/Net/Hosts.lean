import Husker.Net.Resolve

/-! # Names pinned in the hosts file

The names of an egress policy are pinned to the addresses they resolved to.  Whatever the file said
about them before goes, and everything else in it stays.
-/
namespace Husker.Net
open Relational Mount List Option Nat Text

section

/-! ## Merging -/

def newline (c : Char) : Bool := c = '\n'

def stripCr (line : Text) : Text := if line.getLast? = some '\r' then line.dropLast else line

/-- What stands between newlines, without the carriage return before one and without an empty end. -/
def linesOf : List Text → List Text
  | [] => []
  | [last] => if last = [] then [] else [last]
  | part :: rest => stripCr part :: linesOf rest

/-- `str::lines`. -/
def lines (text : Text) : List Text := linesOf (text.splitOnP newline)

def splitComment (raw : Text) : Text × Option Text :=
  match Text.splitOnce '#' raw with
  | some (body, comment) => (body, some comment)
  | none => (raw, none)

def unlines (ls : List Text) : Text := ls.flatMap (· ++ ['\n'])

def mergeLine (targets : List Text) (raw : Text) : Option Text :=
  let (body, comment) := splitComment raw
  match splitWhitespace body with
  | [] => some raw
  | address :: names =>
    if names.all (· ∉ targets) then some raw
    else
      let retained := names.filter (· ∉ targets)
      if retained ≠ [] then
        some (address ++ '\t' :: ['\t'].intercalate retained ++
          comment.elim [] fun comment => " #".toList ++ comment)
      else
        match comment with
        | some comment => if trim comment ≠ [] then some ('#' :: comment) else none
        | none => none

def pinLine (host : Text) (address : Ipv4Addr) : Text :=
  dotted address ++ '\t' :: host ++ "\t# husker-egress-pin".toList

def pinnedTo (entries : List (Text × Ipv4Addr)) (host : Text) : List Ipv4Addr :=
  ((entries.filter fun e => e.1 = host).map Prod.snd).dedup.insertionSort (· ≤ ·)

def pinnedHosts (entries : List (Text × Ipv4Addr)) : List Text :=
  (entries.map Prod.fst).dedup.insertionSort fun a b => (compare a b).isLE

def pinLines (entries : List (Text × Ipv4Addr)) : List Text :=
  (pinnedHosts entries).flatMap fun host => (pinnedTo entries host).map (pinLine host)

def mergeEgressHosts (existing : Text) (entries : List (Text × Ipv4Addr)) : Text :=
  unlines ((lines existing).filterMap (mergeLine (entries.map Prod.fst))) ++
    unlines (pinLines entries)

/-! ## Reading -/

def fieldsOf (line : Text) : List Text := splitWhitespace (splitComment line).1

def lineAddress (name line : Text) : Option Text :=
  match fieldsOf line with
  | [] => none
  | address :: names => if name ∈ names then some address else none

def addressesFor (text name : Text) : List Text :=
  (text.splitOnP newline).filterMap (lineAddress name)

lemma unlines_append (a b : List Text) : unlines (a ++ b) = unlines a ++ unlines b := flatMap_append

variable {ls : List Text}

lemma splitOnP_unlines (h : ∀ l ∈ ls, '\n' ∉ l) : (unlines ls).splitOnP newline = ls ++ [[]] := by
  induction ls with
  | nil => simp [unlines]
  | cons l ls ih =>
  have hl : ∀ c ∈ l, newline c = false := by
    intro c hc
    apply decide_eq_false
    rintro rfl
    exact h l (.head _) hc
  have hcons : unlines (l :: ls) = l ++ '\n' :: unlines ls := by simp [unlines]
  rw [hcons, splitOnP_append_cons_of_forall_mem hl '\n' (by rfl),
    ih fun x hx => h x (.tail _ hx), cons_append]

lemma addressesFor_unlines (h : ∀ l ∈ ls, '\n' ∉ l) (name : Text) :
    addressesFor (unlines ls) name = ls.filterMap (lineAddress name) := by
  rw [addressesFor, splitOnP_unlines h, filterMap_append]
  simp [lineAddress, fieldsOf, splitComment, Text.splitOnce, splitWhitespace, Text.words]

lemma fieldsOf_stripCr (line : Text) : fieldsOf (stripCr line) = fieldsOf line := by
  unfold stripCr
  split_ifs with hlast
  · obtain ⟨front, rfl⟩ : ∃ front, line = front ++ ['\r'] := by
      rw [getLast?_eq_some_iff] at hlast
      exact hlast
    rw [dropLast_concat]
    unfold fieldsOf splitComment
    by_cases hhash : '#' ∈ front
    · obtain ⟨⟨body, comment⟩, hsplit⟩ : ∃ p, Text.splitOnce '#' front = some p := by
        rw [← ne_none_iff_exists']
        exact fun hnone => splitOnce_eq_none.mp hnone hhash
      obtain ⟨rfl, hbody⟩ := splitOnce_eq_some hsplit
      have hsplit' : Text.splitOnce '#' (body ++ '#' :: comment ++ ['\r']) =
          some (body, comment ++ ['\r']) := by
        rw [append_assoc, cons_append]
        exact splitOnce_append hbody
      simp only [hsplit, hsplit']
    · have hnone : Text.splitOnce '#' front = none := splitOnce_eq_none.mpr hhash
      have hnone' : Text.splitOnce '#' (front ++ ['\r']) = none :=
        splitOnce_eq_none.mpr (by simp [hhash])
      simp only [hnone, hnone', splitWhitespace]
      rw [words_append (by decide)]
      simp [Text.words]
  · rfl

lemma lineAddress_stripCr (name line : Text) :
    lineAddress name (stripCr line) = lineAddress name line := by
  rw [lineAddress, fieldsOf_stripCr, lineAddress]

lemma lineAddress_nil (name : Text) : lineAddress name [] = none := by
  simp [lineAddress, fieldsOf, splitComment, Text.splitOnce, splitWhitespace, Text.words]

lemma filterMap_linesOf (name : Text) (parts : List Text) :
    (linesOf parts).filterMap (lineAddress name) = parts.filterMap (lineAddress name) := by
  induction parts using linesOf.induct with
  | case1 => rfl
  | case2 => simp [linesOf, lineAddress_nil]
  | case3 last hlast => simp [linesOf, hlast]
  | case4 part rest hrest ih =>
    rw [linesOf]
    · rw [filterMap_cons, filterMap_cons, lineAddress_stripCr, ih]
    · exact hrest

lemma addressesFor_eq_lines (text name : Text) :
    addressesFor text name = (lines text).filterMap (lineAddress name) :=
  (filterMap_linesOf name _).symm

lemma newline_notMem_linesOf {parts : List Text} (h : ∀ part ∈ parts, '\n' ∉ part) :
    ∀ line ∈ linesOf parts, '\n' ∉ line := by
  induction parts using linesOf.induct with
  | case1 => simp [linesOf]
  | case2 => simp [linesOf]
  | case3 last hlast => simpa [linesOf, hlast] using h
  | case4 part rest hrest ih =>
  rw [linesOf]
  · intro line hline
    rcases mem_cons.mp hline with rfl | hline
    · intro hmem
      apply h part (.head _)
      unfold stripCr at hmem
      split_ifs at hmem
      · exact mem_of_mem_dropLast hmem
      · exact hmem
    · exact ih (fun x hx => h x (.tail _ hx)) line hline
  · exact hrest

lemma newline_notMem_lines (text : Text) : ∀ line ∈ lines text, '\n' ∉ line := by
  apply newline_notMem_linesOf
  intro part hpart hmem
  exact absurd (of_mem_splitOnP hpart '\n' hmem).2 (by decide)

/-! ## What merging keeps -/

structure Field (text : Text) : Prop where
  ne_nil : text ≠ []
  blank : ∀ c ∈ text, isWhitespace c = false
  hash : '#' ∉ text

lemma hash_notMem_body (raw : Text) : '#' ∉ (splitComment raw).1 := by
  unfold splitComment
  split
  · exact (splitOnce_eq_some ‹_›).2
  · exact splitOnce_eq_none.mp ‹_›

variable {w : Text}

lemma Field.of_mem_fieldsOf (line : Text) (h : w ∈ fieldsOf line) : Field w where
  ne_nil := ne_nil_of_mem_words h
  blank := not_blank_of_mem_words h
  hash hw := hash_notMem_body line (of_mem_splitOnP (mem_of_mem_filter h) '#' hw).1

lemma Field.newline (h : Field w) : '\n' ∉ w := fun hmem =>
  absurd (h.blank '\n' hmem) (by decide)

variable {c : Char}

lemma fieldsOf_append_comment {front rest : Text} (hc : isWhitespace c = true)
    (hhash : c ≠ '#') (hfront : '#' ∉ front) :
    fieldsOf (front ++ c :: '#' :: rest) = splitWhitespace front := by
  have hsplit : Text.splitOnce '#' (front ++ [c] ++ '#' :: rest) = some (front ++ [c], rest) :=
    splitOnce_append (by simp [hfront, hhash.symm])
  have hsame : front ++ c :: '#' :: rest = front ++ [c] ++ '#' :: rest := by simp
  rw [fieldsOf, splitComment, hsame, hsplit]
  change splitWhitespace (front ++ [c]) = _
  rw [splitWhitespace, words_append hc]
  simp [Text.words, splitWhitespace]

variable {line : Text}

lemma fieldsOf_plain (h : '#' ∉ line) : fieldsOf line = splitWhitespace line := by
  rw [fieldsOf, splitComment, splitOnce_eq_none.mpr h]

lemma notMem_intercalate {ws : List Text} (hc : c ≠ '\t') (h : ∀ w ∈ ws, c ∉ w) :
    c ∉ ['\t'].intercalate ws := by
  induction ws with
  | nil => simp [List.intercalate]
  | cons w ws ih =>
  have hw := h w (.head _)
  have hws := ih fun x hx => h x (.tail _ hx)
  cases ws with
  | nil => simpa [List.intercalate] using hw
  | cons w' ws =>
  have hcons : ['\t'].intercalate (w :: w' :: ws) = w ++ '\t' :: ['\t'].intercalate (w' :: ws) := by
    simp [List.intercalate]
  rw [hcons]
  simp [hw, hws, hc]

lemma fieldsOf_retained {address : Text} {retained : List Text} (haddress : Field address)
    (hretained : ∀ w ∈ retained, Field w) (comment : Option Text) :
    fieldsOf (address ++ '\t' :: ['\t'].intercalate retained ++
      comment.elim [] fun comment => " #".toList ++ comment) = address :: retained := by
  have hwords : splitWhitespace (address ++ '\t' :: ['\t'].intercalate retained) =
      address :: retained := by
    rw [splitWhitespace, words_append (by decide), words_word haddress.ne_nil haddress.blank,
      words_intercalate (by decide) retained fun w hw =>
        ⟨(hretained w hw).ne_nil, (hretained w hw).blank⟩, singleton_append]
  have hhash : '#' ∉ address ++ '\t' :: ['\t'].intercalate retained := by
    have hrest := notMem_intercalate (by decide) fun w hw => (hretained w hw).hash
    simp [haddress.hash, hrest]
  cases comment with
  | none =>
    rw [elim_none, append_nil, fieldsOf_plain hhash, hwords]
  | some comment =>
    rw [elim_some]
    exact (fieldsOf_append_comment (by decide) (by decide) hhash).trans hwords

lemma fieldsOf_comment (comment : Text) : fieldsOf ('#' :: comment) = [] := by
  simp [fieldsOf, splitComment, Text.splitOnce, splitWhitespace, Text.words]

lemma mergeLine_lineAddress (targets : List Text) (raw name : Text) :
    (mergeLine targets raw).bind (lineAddress name) =
      if name ∈ targets then none else lineAddress name raw := by
  unfold mergeLine
  rcases hsplit : splitComment raw with ⟨body, comment⟩
  have hfields : fieldsOf raw = splitWhitespace body := by rw [fieldsOf, hsplit]
  cases hwords : splitWhitespace body with
  | nil =>
    have hnone : lineAddress name raw = none := by rw [lineAddress, hfields, hwords]
    simp [hwords, hnone]
  | cons address names =>
  have hraw : lineAddress name raw = if name ∈ names then some address else none := by
    rw [lineAddress, hfields, hwords]
  have hfield : ∀ w ∈ address :: names, Field w := fun w hw =>
    Field.of_mem_fieldsOf raw (by rw [hfields, hwords]; exact hw)
  simp only [hwords]
  by_cases hall : names.all (· ∉ targets) = true
  · rw [if_pos hall, bind_some]
    by_cases hname : name ∈ targets
    · have hother : name ∉ names := fun hmem => by
        simpa [hname] using List.all_eq_true.mp hall name hmem
      simp [hname, hraw, hother]
    · rw [if_neg hname]
  · rw [if_neg hall]
    by_cases hretained : names.filter (· ∉ targets) = []
    · -- every name of the line is pinned; at most the comment is left
      rw [if_neg (not_not.mpr hretained), hraw]
      have hright : (if name ∈ targets then none else if name ∈ names then some address else none) =
          (none : Option Text) := by
        split_ifs with hname hmem
        · rfl
        · exact absurd hname (by simpa using filter_eq_nil_iff.mp hretained name hmem)
        · rfl
      rw [hright]
      cases comment with
      | none => rfl
      | some comment =>
      have hcomment : lineAddress name ('#' :: comment) = none := by
        rw [lineAddress, fieldsOf_comment]
      dsimp only
      split_ifs
      · exact hcomment
      · rfl
    · have hkept : ∀ w ∈ names.filter (· ∉ targets), Field w := fun w hw =>
        hfield w (.tail _ (mem_of_mem_filter hw))
      rw [if_pos hretained, bind_some, lineAddress,
        fieldsOf_retained (hfield address (.head _)) hkept, hraw]
      by_cases hname : name ∈ targets
      · simp [hname]
      · simp [hname]

lemma mem_comment {raw comment : Text} (h : (splitComment raw).2 = some comment) (hc : c ∈ comment) : c ∈ raw := by
  unfold splitComment at h
  split at h
  · rename_i hsplit
    cases h
    rw [(splitOnce_eq_some hsplit).1]
    simp [hc]
  · cases h

lemma newline_notMem_mergeLine {targets : List Text} {raw out : Text} (hraw : '\n' ∉ raw)
    (h : mergeLine targets raw = some out) : '\n' ∉ out := by
  unfold mergeLine at h
  rcases hsplit : splitComment raw with ⟨body, comment⟩
  have hcomment : ∀ t, comment = some t → '\n' ∉ t := fun t ht hmem =>
    hraw (mem_comment (by rw [hsplit]; exact ht) hmem)
  have hfields : fieldsOf raw = splitWhitespace body := by rw [fieldsOf, hsplit]
  simp only [hsplit] at h
  cases hwords : splitWhitespace body with
  | nil =>
    simp only [hwords] at h
    cases h
    exact hraw
  | cons address names =>
  have hfield : ∀ w ∈ address :: names, '\n' ∉ w := fun w hw =>
    (Field.of_mem_fieldsOf raw (by rw [hfields, hwords]; exact hw)).newline
  simp only [hwords] at h
  by_cases hall : names.all (· ∉ targets) = true
  · rw [if_pos hall] at h
    cases h
    exact hraw
  rw [if_neg hall] at h
  by_cases hretained : names.filter (· ∉ targets) = []
  · rw [if_neg (not_not.mpr hretained)] at h
    cases comment with
    | none => cases h
    | some comment =>
      obtain ⟨-, h⟩ := ite_none_right_eq_some.mp h
      cases h
      simp [hcomment comment rfl]
  · rw [if_pos hretained, some.injEq] at h
    subst h
    have hkept : ∀ w ∈ names.filter (· ∉ targets), '\n' ∉ w := fun w hw =>
      hfield w (.tail _ (mem_of_mem_filter hw))
    have hnames := notMem_intercalate (by decide) hkept
    simp only [decide_not] at hnames
    cases comment with
    | none => simp [hfield address mem_cons_self, hnames]
    | some comment => simp [hfield address mem_cons_self, hnames, hcomment comment rfl]

/-! ## What pinning adds -/

variable {entries : List (Text × Ipv4Addr)} {host : Text}

lemma mem_pinnedTo {address : Ipv4Addr} :
    address ∈ pinnedTo entries host ↔ (host, address) ∈ entries := by
  rw [pinnedTo, mem_insertionSort, List.mem_dedup, List.mem_map]
  constructor
  · rintro ⟨⟨h, a⟩, hmem, rfl⟩
    obtain ⟨hmem, hhost⟩ := mem_filter.mp hmem
    rwa [← of_decide_eq_true hhost]
  · intro hmem
    exact ⟨(host, address), mem_filter.mpr ⟨hmem, by simp⟩, rfl⟩

lemma mem_pinLines : line ∈ pinLines entries ↔
    ∃ host address, (host, address) ∈ entries ∧ line = pinLine host address := by
  simp only [pinLines, mem_flatMap, pinnedHosts, mem_insertionSort, List.mem_dedup,
    List.mem_map, mem_pinnedTo]
  constructor
  · rintro ⟨host, -, address, hmem, rfl⟩
    exact ⟨host, address, hmem, rfl⟩
  · rintro ⟨host, address, hmem, rfl⟩
    exact ⟨host, ⟨_, hmem, rfl⟩, address, hmem, rfl⟩

lemma dotted_field (address : Ipv4Addr) : Field (dotted address) := by
  refine ⟨?_, dotted_plain address, ?_⟩
  · simp [dotted, List.intercalate]
  intro hmem
  simp only [dotted, List.intercalate, map_cons, map_nil, List.intersperse,
    flatten_cons, flatten_nil, mem_append, mem_singleton] at hmem
  have hdigits (n : ℕ) : '#' ∉ Nat.toDigits 10 n := fun hc =>
    absurd (isDigit_of_mem_toDigits (by norm_num) (by norm_num) hc) (by decide)
  simp [hdigits] at hmem

lemma lineAddress_pinLine (hhost : Field host) (address : Ipv4Addr) (name : Text) :
    lineAddress name (pinLine host address) = if name = host then some (dotted address) else none := by
  have hfields : fieldsOf (pinLine host address) = [dotted address, host] := by
    have hhash : '#' ∉ dotted address ++ '\t' :: host := by
      simp [(dotted_field address).hash, hhost.hash]
    refine (fieldsOf_append_comment (by decide) (by decide) hhash).trans ?_
    rw [splitWhitespace, words_append (by decide),
      words_word (dotted_field address).ne_nil (dotted_field address).blank,
      words_word hhost.ne_nil hhost.blank, singleton_append]
  simp [lineAddress, hfields]

lemma newline_notMem_pinLine (hhost : Field host) (address : Ipv4Addr) :
    '\n' ∉ pinLine host address := by
  have hpin : '\n' ∉ "\t# husker-egress-pin".toList := by decide
  unfold pinLine
  rw [mem_append, mem_append, mem_cons]
  rintro ((hmem | heq | hmem) | hmem)
  · exact (dotted_field address).newline hmem
  · exact absurd heq (by decide)
  · exact hhost.newline hmem
  · exact hpin hmem

lemma addressesFor_merge (existing : Text) (hhosts : ∀ e ∈ entries, Field e.1) (name : Text) :
    addressesFor (mergeEgressHosts existing entries) name =
      (if name ∈ entries.map Prod.fst then [] else addressesFor existing name) ++
        (pinLines entries).filterMap (lineAddress name) := by
  have hkept : ∀ line ∈ (lines existing).filterMap (mergeLine (entries.map Prod.fst)), '\n' ∉ line := by
    intro line hline
    obtain ⟨raw, hraw, hmerge⟩ := mem_filterMap.mp hline
    exact newline_notMem_mergeLine (newline_notMem_lines existing raw hraw) hmerge
  have hpins : ∀ line ∈ pinLines entries, '\n' ∉ line := by
    intro line hline
    obtain ⟨host, address, hmem, rfl⟩ := mem_pinLines.mp hline
    exact newline_notMem_pinLine (hhosts _ hmem) address
  rw [mergeEgressHosts, ← unlines_append, addressesFor_unlines, filterMap_append,
    filterMap_filterMap]
  · congr 1
    simp only [mergeLine_lineAddress]
    split_ifs with hname
    · simp
    · exact (addressesFor_eq_lines existing name).symm
  · intro line hline
    exact (mem_append.mp hline).elim (hkept line) (hpins line)

/-- Read as a hosts file, the merged text gives every pinned host exactly its pinned addresses, and
every other name the addresses it had, in their order, provided that every pinned host is a name. -/
theorem merged_hosts_read_back (existing : Text) (entries : List (Text × Ipv4Addr))
    (hhosts : ∀ e ∈ entries, Field e.1) : (∀ host ∈ entries.map Prod.fst, ∀ text,
      text ∈ addressesFor (mergeEgressHosts existing entries) host ↔
        ∃ address, (host, address) ∈ entries ∧ text = dotted address) ∧
    ∀ name, name ∉ entries.map Prod.fst →
      addressesFor (mergeEgressHosts existing entries) name = addressesFor existing name := by
  refine ⟨fun host hhost text => ?_, fun name hname => ?_⟩
  · rw [addressesFor_merge existing hhosts, if_pos hhost, nil_append, mem_filterMap]
    constructor
    · rintro ⟨line, hline, htext⟩
      obtain ⟨host', address, hmem, rfl⟩ := mem_pinLines.mp hline
      rw [lineAddress_pinLine (hhosts _ hmem), ite_none_right_eq_some] at htext
      obtain ⟨rfl, htext⟩ := htext
      exact ⟨address, hmem, (some.inj htext).symm⟩
    · rintro ⟨address, hmem, rfl⟩
      refine ⟨pinLine host address, mem_pinLines.mpr ⟨host, address, hmem, rfl⟩, ?_⟩
      rw [lineAddress_pinLine (hhosts _ hmem), if_pos rfl]
  · rw [addressesFor_merge existing hhosts, if_neg hname]
    have hpins : (pinLines entries).filterMap (lineAddress name) = [] := by
      rw [filterMap_eq_nil_iff]
      intro line hline
      obtain ⟨host, address, hmem, rfl⟩ := mem_pinLines.mp hline
      have hne : name ≠ host := by
        rintro rfl
        exact hname (List.mem_map_of_mem hmem)
      rw [lineAddress_pinLine (hhosts _ hmem), if_neg hne]
    rw [hpins, append_nil]

def hostsFile : Text := "192.0.2.1 api old # kept\r\n192.0.2.2 api\n".toList

def apiPins : List (Text × Ipv4Addr) := [("api".toList, apiServer)]

theorem pinned_host_is_replaced :
    addressesFor hostsFile "api".toList = ["192.0.2.1".toList, "192.0.2.2".toList] ∧
    (∀ text, text ∈ addressesFor (mergeEgressHosts hostsFile apiPins) "api".toList ↔
      ∃ address, ("api".toList, address) ∈ apiPins ∧ text = dotted address) ∧
    addressesFor (mergeEgressHosts hostsFile apiPins) "old".toList = ["192.0.2.1".toList] := by
  have hhosts : ∀ e ∈ apiPins, Field e.1 := by
    intro e he
    rw [mem_singleton.mp he]
    exact ⟨by decide, not_whitespace_of_all (by decide), by decide⟩
  obtain ⟨hpinned, hother⟩ := merged_hosts_read_back hostsFile apiPins hhosts
  refine ⟨by decide +kernel, hpinned _ (by decide), ?_⟩
  rw [hother _ (by decide)]
  decide +kernel

theorem blank_in_host_is_lost :
    addressesFor (mergeEgressHosts [] [("a b".toList, apiServer)]) "a b".toList = [] ∧
      addressesFor (mergeEgressHosts [] [("a b".toList, apiServer)]) "a".toList =
        ["203.0.113.8".toList] := by
  decide +kernel

end

/-! ## Routes that collide with the bridge's subnet

Before the bridge is set up, the host's routes are searched for one that shares addresses with the
subnet it is to get.
-/

/-- The prefix length is clamped, so the shift is by less than the width. -/
def networkAddr (addr : Ipv4Addr) (prefixLen : ℕ) : U32 :=
  match min prefixLen 32 with
  | 0 => 0
  | p => ⟨addr.val &&& (2 ^ 32 - 1) <<< (32 - p) % 2 ^ 32, Nat.and_le_left.trans_lt addr.isLt⟩

def cidrsOverlap (a : Ipv4Addr) (aPrefix : ℕ) (b : Ipv4Addr) (bPrefix : ℕ) : Bool :=
  let p := min aPrefix bPrefix
  networkAddr a p = networkAddr b p

structure RouteEntry where
  base : Ipv4Addr
  prefixLen : ℕ
  dev : Option Text

/-- A bare address is a network of its own. -/
def parseDestCidr (std : Parsers) (s : Text) : Option (Ipv4Addr × ℕ) :=
  match Text.splitOnce '/' s with
  | some (ip, pfx) => do
    let ip ← std.ipv4 (.ofList ip)
    let pfx ← std.u8 (.ofList pfx)
    if pfx.toNat ≤ 32 then some (ip, pfx.toNat) else none
  | none => (std.ipv4 (.ofList s)).map fun ip => (ip, 32)

/-- The word after the first `dev`. -/
def routeDev : List Text → Option Text
  | [] => none
  | t :: toks => if t = "dev".toList then toks.head? else routeDev toks

def parseRouteEntry (std : Parsers) (line : Text) : Option RouteEntry :=
  match splitWhitespace line with
  | [] => none
  | dest :: toks =>
    if dest = "default".toList then none
    else (parseDestCidr std dest).map fun (base, prefixLen) => ⟨base, prefixLen, routeDev toks⟩

def defaultEquivalentMaxPrefix : ℕ := 1

def parsedRoutes (std : Parsers) (routeOutput : Text) : List RouteEntry :=
  (lines routeOutput).filterMap (parseRouteEntry std)

def findSubnetConflict (std : Parsers) (configured : Ipv4Addr × ℕ) (routeOutput ownBridge : Text) :
    Option RouteEntry :=
  (parsedRoutes std routeOutput).find? fun r =>
    r.prefixLen > defaultEquivalentMaxPrefix && r.dev ≠ some ownBridge &&
      cidrsOverlap configured.1 configured.2 r.base r.prefixLen

/-! ## Blocks of addresses -/

/-- The address agrees with the base in the bits of the prefix. -/
def InBlock (base : Ipv4Addr) (prefixLen : ℕ) (x : Ipv4Addr) : Prop :=
  x.val / 2 ^ (32 - prefixLen) = base.val / 2 ^ (32 - prefixLen)

lemma and_high_mask {x k : ℕ} (hx : x < 2 ^ 32) :
    x &&& (2 ^ 32 - 1) <<< k % 2 ^ 32 = x / 2 ^ k * 2 ^ k := by
  rw [← shiftRight_eq_div_pow, ← shiftLeft_eq]
  apply eq_of_testBit_eq
  intro i
  simp only [testBit_and, testBit_mod_two_pow, testBit_shiftLeft,
    testBit_two_pow_sub_one, testBit_shiftRight]
  by_cases hi : i < 32
  · by_cases hk : k ≤ i
    · have hlow : i - k < 32 := by omega
      simp [hi, hk, hlow]
    · simp [hk]
  · have hbit : x.testBit i = false :=
      testBit_lt_two_pow (hx.trans_le (Nat.pow_le_pow_right (by norm_num) (by omega)))
    by_cases hk : k ≤ i
    · simp [hi, hbit, hk]
    · simp [hk]

variable {p q : ℕ} {a b : Ipv4Addr}

lemma networkAddr_val (a : Ipv4Addr) (hp : p ≤ 32) :
    (networkAddr a p).val = a.val / 2 ^ (32 - p) * 2 ^ (32 - p) := by
  unfold networkAddr
  rw [Nat.min_eq_left hp]
  split
  · rw [div_eq_of_lt a.isLt, zero_mul]
    rfl
  · exact and_high_mask a.isLt

lemma networkAddr_eq_iff (hp : p ≤ 32) : networkAddr a p = networkAddr b p ↔ InBlock a p b := by
  have hpos : 0 < 2 ^ (32 - p) := Nat.two_pow_pos _
  rw [Fin.ext_iff, networkAddr_val a hp, networkAddr_val b hp, Nat.mul_left_inj hpos.ne', InBlock]
  exact eq_comm

/-- A longer prefix gives a smaller block. -/
lemma InBlock.mono {x : Ipv4Addr} (h : InBlock b q x) (hpq : p ≤ q) : InBlock b p x := by
  have hsplit : 2 ^ (32 - p) = 2 ^ (32 - q) * 2 ^ (32 - p - (32 - q)) := by
    rw [← pow_add]
    congr 1
    omega
  rw [InBlock, hsplit, ← Nat.div_div_eq_div_mul, ← Nat.div_div_eq_div_mul, h]

lemma share_iff (hpq : p ≤ q) : (∃ x, InBlock a p x ∧ InBlock b q x) ↔ InBlock a p b := by
  constructor
  · rintro ⟨x, ha, hb⟩
    have hb := hb.mono hpq
    unfold InBlock at ha hb ⊢
    omega
  · intro h
    exact ⟨b, h, rfl⟩

lemma cidrsOverlap_iff (hp : p ≤ 32) (hq : q ≤ 32) :
    cidrsOverlap a p b q = true ↔ ∃ x, InBlock a p x ∧ InBlock b q x := by
  rw [cidrsOverlap, decide_eq_true_iff]
  rcases Nat.le_total p q with hpq | hqp
  · rw [Nat.min_eq_left hpq, networkAddr_eq_iff hp, share_iff hpq]
  · rw [Nat.min_eq_right hqp, eq_comm, networkAddr_eq_iff hq, ← share_iff hqp]
    simp only [and_comm]

/-! ## The first collision -/

variable {std : Parsers}

lemma parseDestCidr_le {s : Text} {ip : Ipv4Addr}
    (h : parseDestCidr std s = some (ip, p)) : p ≤ 32 := by
  unfold parseDestCidr at h
  split at h
  · simp only [bind_eq_bind, bind_eq_some_iff] at h
    obtain ⟨ip', -, pfx, -, h⟩ := h
    split_ifs at h with hle
    cases h
    exact hle
  · obtain ⟨ip', -, h⟩ := map_eq_some_iff.mp h
    cases h
    exact le_rfl

lemma prefixLen_le {routeOutput : Text} {r : RouteEntry}
    (h : r ∈ parsedRoutes std routeOutput) : r.prefixLen ≤ 32 := by
  obtain ⟨line, -, hline⟩ := mem_filterMap.mp h
  unfold parseRouteEntry at hline
  split at hline
  · cases hline
  split_ifs at hline
  obtain ⟨⟨base, p⟩, hdest, hr⟩ := map_eq_some_iff.mp hline
  cases hr
  exact parseDestCidr_le hdest

/-- A foreign route, narrower than half the internet, that shares an address with the subnet. -/
structure Collides (configured : Ipv4Addr × ℕ) (ownBridge : Text) (r : RouteEntry) : Prop where
  foreign : r.dev ≠ some ownBridge
  specific : ¬r.prefixLen ≤ defaultEquivalentMaxPrefix
  shared : ∃ x, InBlock configured.1 configured.2 x ∧ InBlock r.base r.prefixLen x

/-- Overlap is a shared address, and the conflict found is the first route that collides. -/
theorem findSubnetConflict_first (a : Ipv4Addr) (p : Fin 33) : (∀ (b : Ipv4Addr) (q : Fin 33),
      cidrsOverlap a p b q = true ↔ ∃ x, InBlock a p x ∧ InBlock b q x) ∧
    ∀ (std : Parsers) (routeOutput ownBridge : Text),
      (∀ r, findSubnetConflict std (a, p) routeOutput ownBridge = some r ↔
        Collides (a, p) ownBridge r ∧ ∃ before after,
          parsedRoutes std routeOutput = before ++ r :: after ∧
            ∀ r' ∈ before, ¬Collides (a, p) ownBridge r') ∧
      (findSubnetConflict std (a, p) routeOutput ownBridge = none ↔
        ∀ r ∈ parsedRoutes std routeOutput, ¬Collides (a, p) ownBridge r) := by
  refine ⟨fun b q => cidrsOverlap_iff (le_of_lt_succ p.isLt) (le_of_lt_succ q.isLt), ?_⟩
  intro std routeOutput ownBridge
  set test : RouteEntry → Bool := fun r => r.prefixLen > defaultEquivalentMaxPrefix &&
    r.dev ≠ some ownBridge && cidrsOverlap a p r.base r.prefixLen
  have htest : ∀ r ∈ parsedRoutes std routeOutput,
      test r = true ↔ Collides (a, ↑p) ownBridge r := by
    intro r hr
    have hoverlap := cidrsOverlap_iff (a := a) (b := r.base) (le_of_lt_succ p.isLt)
      (prefixLen_le hr)
    simp only [test, Bool.and_eq_true, decide_eq_true_eq, hoverlap]
    constructor
    · rintro ⟨⟨hspecific, hforeign⟩, hshared⟩
      exact ⟨hforeign, not_le.mpr hspecific, hshared⟩
    · rintro ⟨hforeign, hspecific, hshared⟩
      exact ⟨⟨not_le.mp hspecific, hforeign⟩, hshared⟩
  constructor
  · intro r
    rw [findSubnetConflict, find?_eq_some_iff_append]
    constructor
    · rintro ⟨hr, before, after, hroutes, hbefore⟩
      have hmem : r ∈ parsedRoutes std routeOutput := by simp [hroutes]
      refine ⟨(htest r hmem).mp hr, before, after, hroutes, fun r' hr' hcollides => ?_⟩
      have hmem' : r' ∈ parsedRoutes std routeOutput := by simp [hroutes, hr']
      have hno := hbefore r' hr'
      rw [Bool.not_eq_true'] at hno
      exact Bool.false_ne_true (hno.symm.trans ((htest r' hmem').mpr hcollides))
    · rintro ⟨hr, before, after, hroutes, hbefore⟩
      have hmem : r ∈ parsedRoutes std routeOutput := by simp [hroutes]
      refine ⟨(htest r hmem).mpr hr, before, after, hroutes, fun r' hr' => ?_⟩
      have hmem' : r' ∈ parsedRoutes std routeOutput := by simp [hroutes, hr']
      rw [Bool.not_eq_true', Bool.eq_false_iff]
      exact fun h => hbefore r' hr' ((htest r' hmem').mp h)
  · rw [findSubnetConflict, find?_eq_none]
    exact forall₂_congr fun r hr => not_congr (htest r hr)

end Husker.Net
