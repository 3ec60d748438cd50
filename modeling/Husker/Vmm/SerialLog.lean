import Mathlib.Tactic

/-! # The bounded serial log

The capture appends guest output to a log and, over the cap, replaces the file by a marker that
counts what was dropped and the newest output.
-/
namespace Husker.Vmm
open List Function Nat

section

/-! ## The marker -/

def ascii (text : List Char) : List UInt8 := text.map Char.toUInt8

def discardMarkerPrefix : List UInt8 := ascii "[husker: earlier serial output discarded: ".toList

def discardMarkerSuffix : List UInt8 := ascii " bytes]\n".toList

def discardMarkerMax : ℕ := discardMarkerPrefix.length + 20 + discardMarkerSuffix.length

def discardMarker (discarded : ℕ) : List UInt8 :=
  discardMarkerPrefix ++ ascii (Nat.toDigits 10 discarded) ++ discardMarkerSuffix

def isAsciiDigit (b : UInt8) : Bool := 48 ≤ b.toNat && b.toNat ≤ 57

/-- `str::parse::<u64>` of digits. -/
def parseCount (digits : List UInt8) : Option ℕ :=
  let value := digits.foldl (fun n b => 10 * n + (b.toNat - 48)) 0
  if digits = [] ∨ 2 ^ 64 ≤ value then none else some value

structure SerialLogOrigin where
  discarded : ℕ
  contentOffset : ℕ

def SerialLogOrigin.parse (head : List UInt8) : Option SerialLogOrigin :=
  if discardMarkerPrefix <+: head then
    let rest := head.drop discardMarkerPrefix.length
    let digits := rest.takeWhile isAsciiDigit
    if discardMarkerSuffix <+: rest.drop digits.length then
      (parseCount digits).map fun discarded =>
        ⟨discarded, discardMarkerPrefix.length + digits.length + discardMarkerSuffix.length⟩
    else none
  else some ⟨0, 0⟩

lemma isDigit_range {c : Char} (h : c.isDigit = true) : 48 ≤ c.toNat ∧ c.toNat ≤ 57 := by
  simp only [Char.isDigit, Bool.and_eq_true, decide_eq_true_eq, ge_iff_le, UInt32.le_iff_toNat_le] at h
  exact h

lemma toNat_toUInt8 {c : Char} (h : c.isDigit = true) : c.toUInt8.toNat = c.toNat := by
  have hrange := isDigit_range h
  rw [Char.toUInt8, UInt32.toNat_toUInt8]
  exact mod_eq_of_lt (by change c.toNat < 2 ^ 8; omega)

variable {n : ℕ}

lemma isAsciiDigit_of_mem {b : UInt8} (h : b ∈ ascii (Nat.toDigits 10 n)) :
    isAsciiDigit b = true := by
  obtain ⟨c, hc, rfl⟩ := mem_map.mp h
  have hdigit := isDigit_of_mem_toDigits (by norm_num) (by norm_num) hc
  have hrange := isDigit_range hdigit
  simp [isAsciiDigit, toNat_toUInt8 hdigit, hrange]

lemma foldl_ascii {cs : List Char} (h : ∀ c ∈ cs, c.isDigit = true) (n : ℕ) :
    (ascii cs).foldl (fun n b => 10 * n + (b.toNat - 48)) n = Nat.ofDigitChars 10 cs n := by
  induction cs generalizing n with
  | nil => rfl
  | cons c cs ih =>
    rw [ofDigitChars_cons, ← ih fun d hd => h d (mem_cons_of_mem _ hd)]
    simp only [ascii, map_cons, foldl_cons, toNat_toUInt8 (h c mem_cons_self)]
    rfl

lemma parseCount_toDigits (h : n < 2 ^ 64) : parseCount (ascii (Nat.toDigits 10 n)) = some n := by
  have hdigits : ∀ c ∈ Nat.toDigits 10 n, c.isDigit = true :=
    fun c hc => isDigit_of_mem_toDigits (by norm_num) (by norm_num) hc
  have hvalue := foldl_ascii hdigits 0
  rw [ofDigitChars_toDigits (by norm_num) (by norm_num)] at hvalue
  have hne : ascii (Nat.toDigits 10 n) ≠ [] := by simp [ascii, toDigits_ne_nil]
  simp only [parseCount, hvalue]
  rw [if_neg (by rintro (h' | h') <;> [exact hne h'; omega])]

lemma discardMarker_length (h : n < 2 ^ 64) : (discardMarker n).length ≤ discardMarkerMax := by
  have hdigits := toDigits_length 10 n 20 (by norm_num) (by omega)
  simp only [discardMarker, discardMarkerMax, length_append, ascii, length_map] at hdigits ⊢
  omega

lemma parse_marker {digits : List UInt8} (h : ∀ b ∈ digits, isAsciiDigit b = true)
    (rest : List UInt8) :
    SerialLogOrigin.parse (discardMarkerPrefix ++ digits ++ discardMarkerSuffix ++ rest) =
      (parseCount digits).map fun n =>
        ⟨n, (discardMarkerPrefix ++ digits ++ discardMarkerSuffix).length⟩ := by
  have htake : (digits ++ (discardMarkerSuffix ++ rest)).takeWhile isAsciiDigit = digits := by
    rw [takeWhile_append_of_pos h]
    have hblank : (discardMarkerSuffix ++ rest).takeWhile isAsciiDigit = [] := rfl
    rw [hblank, append_nil]
  rw [append_assoc, append_assoc, SerialLogOrigin.parse, if_pos (prefix_append _ _), drop_left]
  simp only [htake, drop_left]
  rw [if_pos (prefix_append _ _)]
  simp only [length_append]

lemma parse_discardMarker (h : n < 2 ^ 64) (rest : List UInt8) :
    SerialLogOrigin.parse (discardMarker n ++ rest) = some ⟨n, (discardMarker n).length⟩ := by
  rw [discardMarker, parse_marker (fun b hb => isAsciiDigit_of_mem hb), parseCount_toDigits h]
  rfl

/-! ## The log and its capture -/

/-- How much output `SerialCapture::new` accepts to keep. -/
structure Limit where
  bytes : ℕ
  roomy : 2 * discardMarkerMax < bytes

/-- One file under the log's path, with the part of the guest's output it holds (not in the source). -/
structure LogFile where
  inode : ℕ
  bytes : List UInt8
  first : ℕ
  last : ℕ

/-- The files the path has named, the locals of `drain_serial`, and what it has read so far. -/
structure Capture where
  limit : Limit
  file : ℕ → LogFile
  newest : ℕ
  length : ℕ
  markerLen : ℕ
  discarded : ℕ
  pending : List UInt8
  taken : List UInt8

namespace Capture

def create (limit : Limit) (inode : ℕ) : Capture where
  limit := limit
  file := fun _ => ⟨inode, [], 0, 0⟩
  newest := 0
  length := 0
  markerLen := 0
  discarded := 0
  pending := []
  taken := []

/-- `retain_tail`: the path names a new file, with a marker and the last bytes of the old one. -/
def retainTail (c : Capture) (chunk kept : List UInt8) (keep inode : ℕ) : Capture :=
  let dropped := (c.length - c.markerLen - keep) + (chunk.length - kept.length)
  let marker := discardMarker (c.discarded + dropped)
  let tail := ((c.file c.newest).bytes.drop (c.length - keep)).take keep
  { c with
    newest := c.newest + 1
    file := Function.update c.file (c.newest + 1)
      ⟨inode, marker ++ tail, c.discarded + dropped, c.discarded + dropped + keep⟩
    discarded := c.discarded + dropped
    markerLen := marker.length
    length := marker.length + keep
    pending := kept
    taken := c.taken ++ chunk }

def drain (c : Capture) (chunk : List UInt8) (inode : ℕ) : Capture :=
  if c.length + chunk.length > c.limit.bytes then
    let room := c.limit.bytes - discardMarkerMax
    let kept := chunk.drop (chunk.length - room)
    let keep := min (min (room - kept.length) (c.limit.bytes / 2)) (c.length - c.markerLen)
    c.retainTail chunk kept keep inode
  else
    { c with
      pending := chunk
      taken := c.taken ++ chunk }

def append (c : Capture) (n : ℕ) : Capture :=
  let old := c.file c.newest
  let bytes := c.pending.take n
  { c with
    file := Function.update c.file c.newest
      { old with bytes := old.bytes ++ bytes, last := old.last + bytes.length }
    length := c.length + bytes.length
    pending := c.pending.drop n }

end Capture

/-! ## What a log holds -/

def header (discarded : ℕ) : List UInt8 := if discarded = 0 then [] else discardMarker discarded

structure LogFile.Holds (f : LogFile) (stream : List UInt8) : Prop where
  ordered : f.first ≤ f.last
  within : f.last ≤ stream.length
  small : f.first < 2 ^ 64
  bytes : f.bytes = header f.first ++ (stream.take f.last).drop f.first

variable {f : LogFile} {stream : List UInt8}

lemma LogFile.Holds.length_eq (h : f.Holds stream) :
    f.bytes.length = (header f.first).length + (f.last - f.first) := by
  have hwithin := h.within
  rw [h.bytes, length_append, length_drop, length_take]
  omega

lemma LogFile.Holds.append (h : f.Holds stream) (more : List UInt8) : f.Holds (stream ++ more) where
  ordered := h.ordered
  within := by
    rw [length_append]
    exact h.within.trans (Nat.le_add_right _ _)
  small := h.small
  bytes := by rw [h.bytes, take_append_of_le_length h.within]

lemma header_length (h : n < 2 ^ 64) : (header n).length ≤ discardMarkerMax := by
  unfold header
  split
  · exact Nat.zero_le _
  · exact discardMarker_length h

/-- Every file under the path holds what it should, and a later one starts later. -/
structure Capture.Sound (c : Capture) : Prop where
  held : ∀ g ≤ c.newest, (c.file g).Holds c.taken
  ordered : ∀ g g', g < g' → g' ≤ c.newest →
    (c.file g).first < (c.file g').first ∧ (c.file g).last ≤ (c.file g').last
  discarded : c.discarded = (c.file c.newest).first
  markerLen : c.markerLen = (header c.discarded).length
  length : c.length = (c.file c.newest).bytes.length
  pending : c.pending = c.taken.drop (c.file c.newest).last

lemma Capture.create_sound (limit : Limit) (inode : ℕ) : (create limit inode).Sound where
  held := fun g _ => ⟨le_rfl, le_rfl, by norm_num [create], rfl⟩
  ordered := fun g g' hlt hle => by
    have hzero : g' ≤ 0 := hle
    omega
  discarded := rfl
  markerLen := rfl
  length := rfl
  pending := rfl

variable {c : Capture}

lemma Capture.append_sound (h : c.Sound) (n : ℕ) : (c.append n).Sound := by
  have hnew := h.held c.newest le_rfl
  have hwithin := hnew.within
  have hordered := hnew.ordered
  have hlength : (c.pending.take n).length ≤ c.taken.length - (c.file c.newest).last := by
    rw [h.pending, length_take, length_drop]
    omega
  -- what moves is what follows the file in the guest's output
  have hmoved : (c.taken.take ((c.file c.newest).last + (c.pending.take n).length)).drop
      (c.file c.newest).first =
      (c.taken.take (c.file c.newest).last).drop (c.file c.newest).first ++ c.pending.take n := by
    have htake : c.taken.take ((c.file c.newest).last + (c.pending.take n).length) =
        c.taken.take (c.file c.newest).last ++ c.pending.take n := by
      rw [take_add, ← h.pending]
      rw [← prefix_iff_eq_take.mp ( take_prefix n c.pending)]
    rw [htake, drop_append_of_le_length]
    rw [length_take]
    omega
  refine ⟨fun g hg => ?_, fun g g' hlt hle => ?_, ?_, ?_, ?_, ?_⟩
  · by_cases hgn : g = c.newest
    · subst hgn
      simp only [append, update_self]
      refine ⟨hordered.trans (Nat.le_add_right _ _), ?_, hnew.small, ?_⟩
      · change (c.file c.newest).last + (c.pending.take n).length ≤ c.taken.length
        omega
      · rw [hmoved, hnew.bytes, append_assoc]
    · simp only [append, update_of_ne hgn]
      exact h.held g hg
  · have hold := h.ordered g g' hlt hle
    have hne : g ≠ c.newest := fun hg => by
      have hle' : g' ≤ c.newest := hle
      omega
    simp only [append, update_of_ne hne]
    by_cases hgn : g' = c.newest
    · subst hgn
      simp only [update_self]
      omega
    · simp only [update_of_ne hgn]
      exact hold
  · simp only [append, update_self]
    exact h.discarded
  · exact h.markerLen
  · simp only [append, update_self, length_append, h.length]
  · simp only [append, update_self, h.pending, length_take, drop_drop, length_drop]
    by_cases hn : n ≤ c.taken.length - (c.file c.newest).last
    · rw [Nat.min_eq_left hn]
    · rw [drop_eq_nil_of_le (by omega), drop_eq_nil_of_le (by omega)]

lemma Capture.Sound.last_eq (h : c.Sound) (hidle : c.pending = []) :
    (c.file c.newest).last = c.taken.length := by
  have hdrop : c.taken.length ≤ (c.file c.newest).last := by
    rw [← drop_eq_nil_iff, ← h.pending, hidle]
  exact le_antisymm (h.held c.newest le_rfl).within hdrop

lemma Capture.Sound.length_eq (h : c.Sound) (hidle : c.pending = []) :
    c.length = c.markerLen + (c.taken.length - c.discarded) := by
  rw [h.length, (h.held c.newest le_rfl).length_eq, h.markerLen, h.discarded, h.last_eq hidle]

variable {chunk : List UInt8}

lemma Capture.retainTail_sound {keep cut : ℕ} (inode : ℕ)
    (h : c.Sound) (hidle : c.pending = []) (hsmall : c.taken.length + chunk.length < 2 ^ 64)
    (hkeep : keep ≤ c.length - c.markerLen) (hcut : keep = 0 ∨ cut = 0) (hle : cut ≤ chunk.length)
    (hdrops : 0 < (c.length - c.markerLen - keep) + cut) :
    (c.retainTail chunk (chunk.drop cut) keep inode).Sound := by
  have hnew := h.held c.newest le_rfl
  have hlast := h.last_eq hidle
  have hlength := h.length_eq hidle
  have hordered := hnew.ordered
  have hdiscarded := h.discarded
  have hcount : chunk.length - (chunk.drop cut).length = cut := by
    rw [length_drop]
    omega
  have hfirst : c.discarded + (c.length - c.markerLen - keep + cut) + keep = c.taken.length + cut := by
    omega
  have htail : ((c.file c.newest).bytes.drop (c.length - keep)).take keep =
      ((c.taken ++ chunk).take (c.taken.length + cut)).drop
        (c.discarded + (c.length - c.markerLen - keep + cut)) := by
    rcases hcut with rfl | rfl
    · rw [take_zero, drop_eq_nil_of_le]
      rw [length_take]
      omega
    rw [hnew.bytes, hlast, take_length, Nat.add_zero, Nat.add_zero, take_left,
      ← hdiscarded, drop_append, drop_drop, drop_eq_nil_of_le, nil_append]
    · rw [take_of_length_le]
      · congr 1
        rw [h.markerLen] at *
        omega
      · rw [length_drop]
        rw [h.markerLen] at *
        omega
    · rw [h.markerLen] at *
      omega
  have hheader : header (c.discarded + (c.length - c.markerLen - keep + cut)) =
      discardMarker (c.discarded + (c.length - c.markerLen - keep + cut)) := by
    rw [header, if_neg (by omega)]
  simp only [retainTail, hcount]
  refine ⟨fun g hg => ?_, fun g g' hlt hg' => ?_, ?_, ?_, ?_, ?_⟩
  · by_cases hgn : g = c.newest + 1
    · subst hgn
      simp only [update_self]
      refine ⟨Nat.le_add_right _ _, ?_, ?_, ?_⟩
      · simp only [hfirst, length_append]
        omega
      · change c.discarded + (c.length - c.markerLen - keep + cut) < 2 ^ 64
        omega
      · simp only [hfirst, hheader, htail]
    · simp only [update_of_ne hgn]
      have hg' : g ≤ c.newest + 1 := hg
      exact (h.held g (by omega)).append chunk
  · have hg'' : g' ≤ c.newest + 1 := hg'
    have hne : g ≠ c.newest + 1 := by omega
    simp only [update_of_ne hne]
    by_cases hgn : g' = c.newest + 1
    · subst hgn
      simp only [update_self, hfirst]
      have hwithin := (h.held g (by omega)).within
      rcases Nat.lt_or_ge g c.newest with hlt' | hge
      · have hold := h.ordered g c.newest hlt' le_rfl
        omega
      · obtain rfl : g = c.newest := by omega
        omega
    · simp only [update_of_ne hgn]
      exact h.ordered g g' hlt (by omega)
  · simp only [update_self]
  · simp only [hheader]
  · simp only [update_self, length_append, htail, length_drop, length_take]
    omega
  · simp only [update_self, hfirst]
    rw [drop_append, drop_eq_nil_of_le (Nat.le_add_right _ _), nil_append, Nat.add_sub_cancel_left]

lemma Capture.Sound.markerLen_le {c : Capture} (h : c.Sound) : c.markerLen ≤ discardMarkerMax := by
  rw [h.markerLen, h.discarded]
  exact header_length (h.held c.newest le_rfl).small

lemma Capture.drain_taken {c : Capture} {inode : ℕ} :
    (c.drain chunk inode).taken = c.taken ++ chunk := by
  unfold drain
  split <;> rfl

lemma Capture.drain_sound (inode : ℕ) (h : c.Sound)
    (hidle : c.pending = []) (hsmall : c.taken.length + chunk.length < 2 ^ 64) :
    (c.drain chunk inode).Sound := by
  have hlast := h.last_eq hidle
  unfold drain
  split
  case isFalse =>
    refine ⟨fun g hg => (h.held g hg).append chunk, h.ordered, h.discarded, h.markerLen, h.length, ?_⟩
    change chunk = (c.taken ++ chunk).drop (c.file c.newest).last
    rw [hlast, drop_left]
  case isTrue hover =>
    have hlength := h.length_eq hidle
    have hmarker := h.markerLen_le
    have hroomy := c.limit.roomy
    have hkept := chunk.length_drop (i := chunk.length - (c.limit.bytes - discardMarkerMax))
    apply retainTail_sound inode h hidle hsmall
    · exact min_le_right _ _
    · simp only [hkept]
      omega
    · omega
    · simp only [hkept]
      omega

end

/-! ## Draining the serial output

Chunk after chunk of the guest's output goes to the log, which stays within its cap.  Once storage
has failed, the output is still read and no longer stored.
-/

/-- No subtraction of `drain_serial` and `retain_tail` at an overflow underflows. -/
def Capture.Fits (c : Capture) (chunk : List UInt8) : Prop :=
  let room := c.limit.bytes - discardMarkerMax
  let kept := chunk.drop (chunk.length - room)
  let content := c.length - c.markerLen
  let keep := min (min (room - kept.length) (c.limit.bytes / 2)) content
  discardMarkerMax ≤ c.limit.bytes ∧ c.markerLen ≤ c.length ∧ kept.length ≤ room ∧
    keep ≤ content ∧ kept.length ≤ chunk.length ∧ keep ≤ c.length

/-- How the store takes a chunk: all of it, not even the compaction before it, or a part. -/
inductive Stored where
  | whole
  | notCompacted
  | cut (n : ℕ)

/-- What one read of the loop returns and how storing it goes. -/
structure Turn where
  chunk : List UInt8
  inode : ℕ
  stored : Stored
  nonempty : 1 ≤ chunk.length
  small : chunk.length ≤ 16 * 1024

/-- The locals of `drain_serial` with the store, and all the output read so far. -/
structure Drain where
  capture : Capture
  storageError : Bool
  read : List UInt8

namespace Drain

def start (limit : Limit) (inode : ℕ) : Drain := ⟨.create limit inode, false, []⟩

def turn (d : Drain) (t : Turn) : Drain :=
  let read := d.read ++ t.chunk
  if d.storageError then { d with read := read }
  else
    let c := d.capture.drain t.chunk t.inode
    match t.stored with
    | .whole => ⟨c.append c.pending.length, false, read⟩
    | .notCompacted => ⟨d.capture, true, read⟩
    | .cut n => ⟨c.append n, true, read⟩

def run (d : Drain) (turns : List Turn) : Drain := turns.foldl turn d

end Drain

/-! ## One chunk -/

namespace Capture

/-- The file readers open now. -/
def log (c : Capture) : List UInt8 := (c.file c.newest).bytes

/-- Nothing is being written, and the log is within its cap. -/
structure Settled (c : Capture) : Prop where
  sound : c.Sound
  idle : c.pending = []
  bounded : c.length ≤ c.limit.bytes

variable {c : Capture} {chunk : List UInt8} {inode : ℕ}

lemma Settled.fits (h : c.Settled) : c.Fits chunk := by
  have hroomy := c.limit.roomy
  have hlength := h.sound.length_eq h.idle
  simp only [Fits, length_drop]
  omega

lemma drain_limit : (c.drain chunk inode).limit = c.limit := by
  unfold drain
  split <;> rfl

lemma drain_bounded (h : c.Settled) (hsmall : c.taken.length + chunk.length < 2 ^ 64) :
    (c.drain chunk inode).length + (c.drain chunk inode).pending.length ≤ c.limit.bytes := by
  have hmarker := (drain_sound inode h.sound h.idle hsmall).markerLen_le
  unfold drain at hmarker ⊢
  split
  case isFalse hfits => exact Nat.le_of_not_lt hfits
  case isTrue hover =>
    rw [if_pos hover] at hmarker
    simp only [retainTail, length_drop] at hmarker ⊢
    have hroomy := c.limit.roomy
    omega

/-- A compaction drops something, and what it keeps ends with what fits of the chunk. -/
lemma drain_compacts (h : c.Settled) (hsmall : c.taken.length + chunk.length < 2 ^ 64)
    (hnewest : (c.drain chunk inode).newest ≠ c.newest) :
    c.discarded < (c.drain chunk inode).discarded ∧ (c.drain chunk inode).pending =
      chunk.drop (chunk.length - (c.limit.bytes - discardMarkerMax)) := by
  have hsound := drain_sound inode h.sound h.idle hsmall
  have hover : c.length + chunk.length > c.limit.bytes := by
    by_contra hfits
    rw [drain, if_neg hfits] at hnewest
    exact hnewest rfl
  have hnext : (c.drain chunk inode).newest = c.newest + 1 := by
    rw [drain, if_pos hover]
    rfl
  have hfile : (c.drain chunk inode).file c.newest = c.file c.newest := by
    rw [drain, if_pos hover]
    exact update_of_ne (by omega) _ _
  constructor
  · rw [h.sound.discarded, hsound.discarded, ← hfile]
    exact (hsound.ordered _ _ (by omega) le_rfl).1
  · rw [drain, if_pos hover]
    rfl

lemma append_all_settled (h : c.Sound) (hfits : c.length + c.pending.length ≤ c.limit.bytes) :
    (c.append c.pending.length).Settled where
  sound := append_sound h _
  idle := drop_length
  bounded := by
    change c.length + (c.pending.take c.pending.length).length ≤ c.limit.bytes
    rwa [take_length]

end Capture

/-! ## All chunks -/

/-- The log is the output, or a marker that counts what is missing and the rest of it. -/
structure Capture.Keeps (c : Capture) (limit : Limit) (output : List UInt8) : Prop where
  log : c.discarded = 0 ∧ c.log = output ∨ ∃ rest, c.log = discardMarker c.discarded ++ rest ∧
    rest <:+ output ∧ c.discarded + rest.length = output.length
  cap : c.log.length ≤ limit.bytes

lemma Capture.Settled.keeps {c : Capture} (h : c.Settled) : c.Keeps c.limit c.taken where
  log := by
    have hheld := h.sound.held c.newest le_rfl
    have hbytes := hheld.bytes
    have hordered := hheld.ordered
    rw [h.sound.last_eq h.idle, ← h.sound.discarded] at hbytes hordered
    rw [take_length, header] at hbytes
    split at hbytes
    case isTrue hzero =>
      rw [hzero] at hbytes
      exact .inl ⟨hzero, hbytes⟩
    case isFalse =>
      refine .inr ⟨_, hbytes, drop_suffix _ _, ?_⟩
      rw [length_drop]
      omega
  cap := by
    rw [Capture.log, ← h.sound.length]
    exact h.bounded

def output (turns : List Turn) : List UInt8 := turns.flatMap Turn.chunk

/-- The loop before any storage failure. -/
structure Drain.Sound (d : Drain) (limit : Limit) (turns : List Turn) : Prop where
  stored : d.storageError = false
  limit : d.capture.limit = limit
  settled : d.capture.Settled
  taken : d.capture.taken = output turns

open Capture

section
variable {d : Drain} {limit : Limit} {turns : List Turn} {t : Turn}

lemma Drain.Sound.keeps (h : d.Sound limit turns) : d.capture.Keeps limit (output turns) := by
  rw [← h.taken, ← h.limit]
  exact h.settled.keeps

lemma output_append : output (turns ++ [t]) = output turns ++ t.chunk := by simp [output]

lemma Drain.Sound.turn (h : d.Sound limit turns) (hstored : t.stored = .whole)
    (htotal : (output (turns ++ [t])).length < 2 ^ 64) :
    (d.turn t).Sound limit (turns ++ [t]) ∧ ((d.turn t).capture.newest ≠ d.capture.newest →
      d.capture.discarded < (d.turn t).capture.discarded ∧
        t.chunk.drop (t.chunk.length - (limit.bytes - discardMarkerMax)) <:+
          (d.turn t).capture.log) := by
  have hsmall : d.capture.taken.length + t.chunk.length < 2 ^ 64 := by
    rwa [h.taken, ← length_append, ← output_append]
  have hsound := drain_sound t.inode h.settled.sound h.settled.idle hsmall
  have hfits : (d.capture.drain t.chunk t.inode).length +
      (d.capture.drain t.chunk t.inode).pending.length ≤
        (d.capture.drain t.chunk t.inode).limit.bytes := by
    rw [drain_limit]
    exact drain_bounded h.settled hsmall
  simp only [Drain.turn, h.stored, Bool.false_eq_true, if_false, hstored]
  refine ⟨⟨rfl, drain_limit.trans h.limit, append_all_settled hsound hfits, ?_⟩, ?_⟩
  · rw [output_append, ← h.taken]
    exact drain_taken
  · intro hnewest
    obtain ⟨hdiscarded, hpending⟩ := drain_compacts h.settled hsmall hnewest
    refine ⟨hdiscarded, ?_⟩
    rw [← h.limit, ← hpending]
    simp [Capture.log, append]

lemma Drain.run_sound (inode : ℕ) (hstored : ∀ t ∈ turns, t.stored = .whole)
    (htotal : (output turns).length < 2 ^ 64) :
    ((Drain.start limit inode).run turns).Sound limit turns := by
  induction turns using List.reverseRecOn with
  | nil => exact ⟨rfl, rfl, ⟨create_sound limit inode, rfl, Nat.zero_le _⟩, rfl⟩
  | append_singleton turns t ih =>
  have hfront : (output turns).length < 2 ^ 64 := by
    rw [output_append, length_append] at htotal
    omega
  rw [Drain.run, foldl_append]
  exact ((ih (fun t' ht' => hstored t' (by simp [ht'])) hfront).turn
    (hstored t (by simp)) htotal).1

lemma Drain.run_failed (hfailed : d.storageError = true) :
    d.run turns = { d with read := d.read ++ output turns } := by
  induction turns generalizing d with
  | nil => simp [run, output]
  | cons t turns ih =>
  have hturn : d.turn t = { d with read := d.read ++ t.chunk } := if_pos hfailed
  have hrest := ih (d := { d with read := d.read ++ t.chunk }) hfailed
  rw [run] at hrest ⊢
  rw [foldl_cons, hturn, hrest]
  simp [output]

end

/-- Without a storage failure no subtraction underflows, the log keeps the newest output within the
cap, and a compaction drops more and keeps what fits of the chunk; after a failure the store is left
alone and reading goes on. -/
theorem drain_serial_keeps (limit : Limit) (inode : ℕ) (turns : List Turn) (t : Turn)
    (hstored : ∀ t' ∈ turns ++ [t], t'.stored = .whole)
    (htotal : (output (turns ++ [t])).length < 2 ^ 64) :
    (let d := (Drain.start limit inode).run turns
     let d' := d.turn t
     d.capture.Fits t.chunk ∧ d.capture.Keeps limit (output turns) ∧
      d'.capture.Keeps limit (output (turns ++ [t])) ∧
      (d'.capture.newest ≠ d.capture.newest → d.capture.discarded < d'.capture.discarded ∧
        t.chunk.drop (t.chunk.length - (limit.bytes - discardMarkerMax)) <:+ d'.capture.log)) ∧
    ∀ (d : Drain) (more : List Turn), d.storageError = true →
      d.run more = { d with read := d.read ++ output more } := by
  have hfront : (output turns).length < 2 ^ 64 := by
    rw [output_append, length_append] at htotal
    omega
  have hd : ((Drain.start limit inode).run turns).Sound limit turns :=
    Drain.run_sound inode (fun t' ht' => hstored t' (by simp [ht'])) hfront
  obtain ⟨hd', hcompacts⟩ := hd.turn (hstored t (by simp)) htotal
  exact ⟨⟨hd.settled.fits, hd.keeps, hd'.keeps, hcompacts⟩, fun d more => Drain.run_failed⟩

def hundred (b : UInt8) : Turn := ⟨List.replicate 100 b, 0, .whole, by simp, by simp⟩

theorem second_hundred_kept :
    (((Drain.start ⟨160, by decide⟩ 0).run [hundred 97]).turn (hundred 98)).capture.Keeps
      ⟨160, by decide⟩ (output [hundred 97, hundred 98]) := by
  have hlength : (output [hundred 97, hundred 98]).length = 100 + 100 := by
    simp only [output, hundred, flatMap_cons, flatMap_nil, append_nil,
      length_append, length_replicate]
  exact (drain_serial_keeps ⟨160, by decide⟩ 0 [hundred 97] (hundred 98) (by simp [hundred])
    (hlength.trans_lt (by norm_num))).1.2.2.1

end Husker.Vmm
