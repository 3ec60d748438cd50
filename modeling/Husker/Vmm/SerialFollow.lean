import Husker.Relational.Machine
import Husker.Relational.Stream
import Husker.Vmm.SerialLog

/-! # Following the serial log

A follower keeps a position in the guest's output and finds it again in whatever file it opens, by
the marker, the inode, the length and the last bytes it showed.
-/
namespace Husker.Vmm
open Relational List Function

/-! ## The follower -/

def pieceText : Piece UInt8 → List UInt8
  | .data bytes => bytes
  | .gap missed => ascii ("\n[... ".toList ++ Nat.toDigits 10 missed ++
      " serial bytes discarded before they were shown ...]\n".toList)
  | .restart => ascii "\n[... serial log restarted ...]\n".toList

/-- One open of the log: a file under its path and what was read of it first. -/
structure Snapshot where
  gen : ℕ
  origin : SerialLogOrigin
  inode : ℕ
  len : ℕ

/-- `Snapshot::end`. -/
def Snapshot.stop (s : Snapshot) : ℕ := s.origin.discarded + (s.len - s.origin.contentOffset)

def anchorBytes : ℕ := 32

structure SerialFollower where
  position : ℕ
  inode : ℕ
  discarded : ℕ
  anchor : List UInt8

namespace SerialFollower

def remember (f : SerialFollower) (shown : List UInt8) : SerialFollower :=
  let anchor := f.anchor ++ shown
  { f with anchor := anchor.drop (anchor.length - anchorBytes) }

/-- The end of `start`, with the file as it is then: the follower, the last bytes of the log, and
whether there were more. -/
def start (snapshot : Snapshot) (file : List UInt8) (preload : ℕ) :
    SerialFollower × List UInt8 × Bool :=
  let offset := snapshot.len - preload
  let bytes := file.drop offset
  let readTo := offset + bytes.length
  let follower : SerialFollower :=
    { position := snapshot.origin.discarded + (readTo - snapshot.origin.contentOffset)
      inode := snapshot.inode
      discarded := snapshot.origin.discarded
      anchor := [] }
  let contentFrom := snapshot.origin.contentOffset - offset
  (follower.remember (bytes.drop (min contentFrom bytes.length)), bytes, 0 < offset)

def restarted (f : SerialFollower) (snapshot : Snapshot) (file : List UInt8) : Bool :=
  if snapshot.stop < f.position ∨
      snapshot.inode ≠ f.inode ∧ snapshot.origin.discarded ≤ f.discarded then true
  else if 0 < f.anchor.length ∧ snapshot.origin.discarded + f.anchor.length ≤ f.position then
    let offset := snapshot.origin.contentOffset + (f.position - snapshot.origin.discarded)
    (file.drop (offset - f.anchor.length)).take f.anchor.length ≠ f.anchor
  else false

def skip (f : SerialFollower) (origin : SerialLogOrigin) : SerialFollower × List (Piece UInt8) :=
  if f.position < origin.discarded then
    ({ f with position := origin.discarded, anchor := [] }, [.gap (origin.discarded - f.position)])
  else (f, [])

def check (f : SerialFollower) (snapshot : Snapshot) (file : List UInt8) :
    SerialFollower × List (Piece UInt8) :=
  let (f, notice) := if f.restarted snapshot file then
    ({ f with position := 0, anchor := [] }, [.restart]) else (f, [])
  let (f, missed) := f.skip snapshot.origin
  ({ f with inode := snapshot.inode, discarded := snapshot.origin.discarded }, notice ++ missed)

def finish (f : SerialFollower) (snapshot : Snapshot) (file : List UInt8) :
    SerialFollower × List UInt8 :=
  let offset := snapshot.origin.contentOffset + (f.position - snapshot.origin.discarded)
  let bytes := file.drop offset
  (remember { f with position := f.position + bytes.length } bytes, bytes)

end SerialFollower

/-! ## The capture and a follower side by side -/

inductive Purpose where
  | start (preload : ℕ)
  | poll (follower : SerialFollower)

inductive Reader where
  | idle
  | opened (purpose : Purpose) (gen : ℕ)
  | measured (purpose : Purpose) (gen len : ℕ)
  | parsed (purpose : Purpose) (snapshot : Snapshot)
  | checked (follower : SerialFollower) (snapshot : Snapshot) (output : List (Piece UInt8))
  | following (follower : SerialFollower)

/-- One boot's log and its reader, with where that started and what its polls have handed out. -/
structure Serial where
  capture : Capture
  reader : Reader
  begun : ℕ
  shown : List (Piece UInt8)

inductive SerialStep where
  | drain (chunk : List UInt8) (inode : ℕ)
  | append (n : ℕ)
  | start (preload : ℕ)
  | poll
  | advance

namespace Serial

def create (limit : Limit) (inode : ℕ) : Serial := ⟨.create limit inode, .idle, 0, []⟩

def advance (s : Serial) : Option Serial :=
  match s.reader with
  | .idle => none
  | .following _ => none
  | .opened purpose gen =>
    some { s with reader := .measured purpose gen (s.capture.file gen).bytes.length }
  | .measured purpose gen len =>
    let file := s.capture.file gen
    match SerialLogOrigin.parse (file.bytes.take discardMarkerMax), purpose with
    | some origin, _ => some { s with reader := .parsed purpose ⟨gen, origin, file.inode, len⟩ }
    | none, .start _ => some { s with reader := .idle }
    | none, .poll follower => some { s with reader := .following follower }
  | .parsed (.start preload) snapshot =>
    let follower := (SerialFollower.start snapshot (s.capture.file snapshot.gen).bytes preload).1
    some { s with reader := .following follower, begun := follower.position }
  | .parsed (.poll follower) snapshot =>
    let (follower, output) := follower.check snapshot (s.capture.file snapshot.gen).bytes
    some { s with reader := .checked follower snapshot output }
  | .checked follower snapshot output =>
    let (follower, bytes) := follower.finish snapshot (s.capture.file snapshot.gen).bytes
    some { s with reader := .following follower, shown := s.shown ++ output ++ [.data bytes] }

def step (s : Serial) : SerialStep → Option Serial
  | .drain chunk inode =>
    if s.capture.pending = [] ∧ chunk ≠ [] ∧ s.capture.taken.length + chunk.length < 2 ^ 64 then
      some { s with capture := s.capture.drain chunk inode }
    else none
  | .append n => some { s with capture := s.capture.append n }
  | .start preload =>
    match s.reader with
    | .idle => some { s with reader := .opened (.start preload) s.capture.newest }
    | _ => none
  | .poll =>
    match s.reader with
    | .following follower => some { s with reader := .opened (.poll follower) s.capture.newest }
    | _ => none
  | .advance => s.advance

def output (s : Serial) : List UInt8 := s.shown.flatMap pieceText

end Serial

def serialLog : Machine Serial SerialStep := .ofStep Serial.step

/-! ## Growth -/

structure Capture.Grows (c c' : Capture) : Prop where
  newest : c.newest ≤ c'.newest
  inode : ∀ g ≤ c.newest, (c'.file g).inode = (c.file g).inode
  first : ∀ g ≤ c.newest, (c'.file g).first = (c.file g).first
  last : ∀ g ≤ c.newest, (c.file g).last ≤ (c'.file g).last
  bytes : ∀ g ≤ c.newest, (c.file g).bytes.length ≤ (c'.file g).bytes.length
  taken : ∃ more, c'.taken = c.taken ++ more

lemma Capture.append_grows (c : Capture) (n : ℕ) : c.Grows (c.append n) := by
  have hfile : ∀ g, ((c.append n).file g).inode = (c.file g).inode ∧
      ((c.append n).file g).first = (c.file g).first ∧ (c.file g).last ≤ ((c.append n).file g).last ∧
      (c.file g).bytes.length ≤ ((c.append n).file g).bytes.length := by
    intro g
    by_cases hg : g = c.newest
    · subst hg
      simp [append]
    · simp [append, update_of_ne hg]
  exact ⟨le_rfl, fun g _ => (hfile g).1, fun g _ => (hfile g).2.1, fun g _ => (hfile g).2.2.1,
    fun g _ => (hfile g).2.2.2, [], (append_nil _).symm⟩

lemma Capture.drain_grows (c : Capture) (chunk : List UInt8) (inode : ℕ) :
    c.Grows (c.drain chunk inode) := by
  have hfile : ∀ g ≤ c.newest, (c.drain chunk inode).file g = c.file g := by
    intro g hg
    unfold drain
    split
    · simp only [retainTail]
      exact update_of_ne (by omega) _ _
    · rfl
  have hnewest : c.newest ≤ (c.drain chunk inode).newest := by
    unfold drain
    split
    · exact Nat.le_succ _
    · exact le_rfl
  refine ⟨hnewest, ?_, ?_, ?_, ?_, chunk, drain_taken⟩
  all_goals intro g hg
  all_goals rw [hfile g hg]

/-! ## What a reader knows -/

/-- The follower last looked at this file or an earlier one, and has its last bytes in mind. -/
structure Places (c : Capture) (gen : ℕ) (f : SerialFollower) : Prop where
  seen : ∃ g ≤ gen, f.inode = (c.file g).inode ∧ f.discarded = (c.file g).first ∧
    f.position ≤ (c.file g).last
  anchor : f.anchor <:+ c.taken.take f.position

structure Snapshot.Of (s : Snapshot) (c : Capture) : Prop where
  gen : s.gen ≤ c.newest
  inode : s.inode = (c.file s.gen).inode
  origin : s.origin = ⟨(c.file s.gen).first, (header (c.file s.gen).first).length⟩
  len : s.len ≤ (c.file s.gen).bytes.length

def Purpose.Sound (c : Capture) (gen begun : ℕ) (shown : List (Piece UInt8)) : Purpose → Prop
  | .start _ => shown = []
  | .poll f => Places c gen f ∧ Covers c.taken begun shown f.position

def Purpose.Fits (file : LogFile) (len : ℕ) : Purpose → Prop
  | .start _ => True
  | .poll f => f.position ≤ file.first + (len - (header file.first).length)

def Reader.Sound (c : Capture) (begun : ℕ) (shown : List (Piece UInt8)) : Reader → Prop
  | .idle => shown = []
  | .opened purpose gen => gen ≤ c.newest ∧ purpose.Sound c gen begun shown
  | .measured purpose gen len =>
    gen ≤ c.newest ∧ purpose.Sound c gen begun shown ∧ len ≤ (c.file gen).bytes.length ∧
      purpose.Fits (c.file gen) len
  | .parsed purpose snapshot =>
    snapshot.Of c ∧ purpose.Sound c snapshot.gen begun shown ∧
      purpose.Fits (c.file snapshot.gen) snapshot.len
  | .checked f snapshot output =>
    snapshot.Of c ∧ (c.file snapshot.gen).first ≤ f.position ∧
      f.position ≤ (c.file snapshot.gen).last ∧ f.inode = (c.file snapshot.gen).inode ∧
      f.discarded = (c.file snapshot.gen).first ∧ f.anchor <:+ c.taken.take f.position ∧
      Covers c.taken begun (shown ++ output) f.position
  | .following f => Places c c.newest f ∧ Covers c.taken begun shown f.position

variable {reader : Reader} {stream : List UInt8}

open SerialFollower Purpose

section
variable {c c' : Capture} {gen begun : ℕ} {shown : List (Piece UInt8)} {f : SerialFollower} {purpose : Purpose} {snapshot : Snapshot}

lemma Places.position_le (hc : c.Sound) (hgen : gen ≤ c.newest) (h : Places c gen f) :
    f.position ≤ (c.file gen).last := by
  obtain ⟨g, hg, -, -, hposition⟩ := h.seen
  rcases Nat.lt_or_ge g gen with hlt | hge
  · exact hposition.trans (hc.ordered g gen hlt hgen).2
  · obtain rfl : g = gen := by omega
    exact hposition

lemma Capture.Grows.suffix (h : c.Grows c') {bytes : List UInt8} {position : ℕ}
    (hle : position ≤ c.taken.length) (hbytes : bytes <:+ c.taken.take position) :
    bytes <:+ c'.taken.take position := by
  obtain ⟨more, hmore⟩ := h.taken
  rwa [hmore, take_append_of_le_length hle]

lemma Capture.Grows.covers (h : c.Grows c') {q : ℕ} (hcovers : Covers c.taken begun shown q) :
    Covers c'.taken begun shown q := by
  obtain ⟨more, hmore⟩ := h.taken
  rw [hmore]
  exact hcovers.more more

lemma Places.grows (hc : c.Sound) (h : c.Grows c') (hgen : gen ≤ c.newest) (hf : Places c gen f) :
    Places c' gen f where
  seen := by
    obtain ⟨g, hg, hinode, hdiscarded, hposition⟩ := hf.seen
    have hle := hg.trans hgen
    exact ⟨g, hg, hinode.trans (h.inode g hle).symm, hdiscarded.trans (h.first g hle).symm,
      hposition.trans (h.last g hle)⟩
  anchor := h.suffix ((hf.position_le hc hgen).trans (hc.held gen hgen).within) hf.anchor

lemma Places.later {gen' : ℕ} (hle : gen ≤ gen') (h : Places c gen f) : Places c gen' f := by
  obtain ⟨g, hg, hseen⟩ := h.seen
  exact ⟨⟨g, hg.trans hle, hseen⟩, h.anchor⟩

lemma Purpose.Sound.grows (hc : c.Sound) (h : c.Grows c') (hgen : gen ≤ c.newest)
    (hp : purpose.Sound c gen begun shown) : purpose.Sound c' gen begun shown := by
  cases purpose with
  | start preload => exact hp
  | poll f => exact ⟨hp.1.grows hc h hgen, h.covers hp.2⟩

lemma Purpose.Fits.grows (h : c.Grows c') (hgen : gen ≤ c.newest) {len : ℕ}
    (hp : purpose.Fits (c.file gen) len) : purpose.Fits (c'.file gen) len := by
  cases purpose with
  | start preload => trivial
  | poll f =>
    unfold Fits
    rw [h.first gen hgen]
    exact hp

lemma Snapshot.Of.grows (h : c.Grows c') (hs : snapshot.Of c) : snapshot.Of c' where
  gen := hs.gen.trans h.newest
  inode := hs.inode.trans (h.inode _ hs.gen).symm
  origin := by rw [hs.origin, h.first _ hs.gen]
  len := hs.len.trans (h.bytes _ hs.gen)

lemma Reader.Sound.grows (hc : c.Sound) (h : c.Grows c') (hr : reader.Sound c begun shown) : reader.Sound c' begun shown := by
  cases reader with
  | idle => exact hr
  | opened purpose gen => exact ⟨hr.1.trans h.newest, hr.2.grows hc h hr.1⟩
  | measured purpose gen len =>
    obtain ⟨hgen, hpurpose, hlen, hfits⟩ := hr
    exact ⟨hgen.trans h.newest, hpurpose.grows hc h hgen, hlen.trans (h.bytes gen hgen),
      hfits.grows h hgen⟩
  | parsed purpose snapshot =>
    obtain ⟨hof, hpurpose, hfits⟩ := hr
    exact ⟨hof.grows h, hpurpose.grows hc h hof.gen, hfits.grows h hof.gen⟩
  | checked f snapshot output =>
    obtain ⟨hof, hfirst, hlast, hinode, hdiscarded, hanchor, hcovers⟩ := hr
    have hgen := hof.gen
    refine ⟨hof.grows h, ?_, hlast.trans (h.last _ hgen), hinode.trans (h.inode _ hgen).symm,
      hdiscarded.trans (h.first _ hgen).symm, ?_, h.covers hcovers⟩
    · rwa [h.first _ hgen]
    · exact h.suffix (hlast.trans (hc.held _ hgen).within) hanchor
  | following f =>
    exact ⟨(hr.1.grows hc h le_rfl).later h.newest, h.covers hr.2⟩

lemma Purpose.Sound.fits (hc : c.Sound) (hgen : gen ≤ c.newest)
    (h : purpose.Sound c gen begun shown) :
    purpose.Fits (c.file gen) (c.file gen).bytes.length := by
  cases purpose with
  | start preload => trivial
  | poll f =>
  have hposition := h.1.position_le hc hgen
  have hlength := (hc.held gen hgen).length_eq
  have hordered := (hc.held gen hgen).ordered
  simp only [Fits]
  omega

/-! ## Reads -/

lemma LogFile.Holds.parse {f : LogFile} (h : f.Holds stream)
    (hstream : ¬discardMarkerPrefix <+: stream) :
    SerialLogOrigin.parse (f.bytes.take discardMarkerMax) =
      some ⟨f.first, (header f.first).length⟩ := by
  rw [h.bytes, header]
  split
  case isTrue hzero =>
    rw [hzero, nil_append, drop_zero, SerialLogOrigin.parse, if_neg]
    · rfl
    · intro hstarts
      exact hstream (hstarts.trans (( take_prefix _ _).trans ( take_prefix _ _)))
  case isFalse =>
    rw [take_append, take_of_length_le (discardMarker_length h.small)]
    exact parse_discardMarker h.small _

lemma LogFile.Holds.drop_bytes {f : LogFile} (h : f.Holds stream) {p : ℕ} (hp : f.first ≤ p) :
    f.bytes.drop ((header f.first).length + (p - f.first)) = (stream.take f.last).drop p := by
  rw [h.bytes, drop_length_add_append, drop_drop, Nat.add_sub_cancel' hp]

lemma SerialFollower.remember_anchor (f : SerialFollower) (bytes : List UInt8) :
    (f.remember bytes).anchor <:+ f.anchor ++ bytes := drop_suffix _ _

lemma start_places (hc : c.Sound) (hs : snapshot.Of c) (preload : ℕ) :
    Places c c.newest (SerialFollower.start snapshot (c.file snapshot.gen).bytes preload).1 := by
  have hheld := hc.held _ hs.gen
  have hlength := hheld.length_eq
  have hordered := hheld.ordered
  have hlen := hs.len
  have horigin := hs.origin
  have hposition : (SerialFollower.start snapshot (c.file snapshot.gen).bytes preload).1.position =
      (c.file snapshot.gen).last := by
    simp only [SerialFollower.start, remember, horigin, length_drop]
    omega
  refine ⟨⟨snapshot.gen, hs.gen, hs.inode, ?_, hposition.le⟩, ?_⟩
  · simp [SerialFollower.start, remember, horigin]
  rw [hposition]
  refine (remember_anchor _ _).trans ?_
  simp only [nil_append, drop_drop, length_drop, horigin]
  -- what is remembered starts no earlier than the content
  obtain ⟨p, hp, hskip⟩ : ∃ p, (c.file snapshot.gen).first ≤ p ∧
      snapshot.len - preload + min ((header (c.file snapshot.gen).first).length -
        (snapshot.len - preload)) ((c.file snapshot.gen).bytes.length - (snapshot.len - preload)) =
      (header (c.file snapshot.gen).first).length + (p - (c.file snapshot.gen).first) := by
    refine ⟨(c.file snapshot.gen).first + (snapshot.len - preload -
      (header (c.file snapshot.gen).first).length), Nat.le_add_right _ _, ?_⟩
    omega
  rw [hskip, hheld.drop_bytes hp]
  exact drop_suffix _ _

lemma not_restarted (hc : c.Sound) (hs : snapshot.Of c) (hf : Places c snapshot.gen f)
    (hfits : (poll f).Fits (c.file snapshot.gen) snapshot.len) :
    f.restarted snapshot (c.file snapshot.gen).bytes = false := by
  have hheld := hc.held _ hs.gen
  have hposition := hf.position_le hc hs.gen
  have hwithin := hheld.within
  have hnew : ¬(snapshot.stop < f.position ∨
      snapshot.inode ≠ f.inode ∧ snapshot.origin.discarded ≤ f.discarded) := by
    rintro (hshort | ⟨hinode, hdiscarded⟩)
    · rw [Snapshot.stop, hs.origin] at hshort
      exact absurd hfits (Nat.not_le.mpr hshort)
    obtain ⟨g, hg, hginode, hgfirst, -⟩ := hf.seen
    rw [hs.origin, hgfirst] at hdiscarded
    rcases Nat.lt_or_ge g snapshot.gen with hlt | hge
    · exact absurd (hc.ordered g _ hlt hs.gen).1 (Nat.not_lt.mpr hdiscarded)
    · obtain rfl : g = snapshot.gen := by omega
      exact hinode (hs.inode.trans hginode.symm)
  rw [restarted, if_neg hnew]
  split
  case isFalse => rfl
  case isTrue hanchor =>
    rw [hs.origin] at hanchor ⊢
    have hroom : (c.file snapshot.gen).first + f.anchor.length ≤ f.position := hanchor.2
    have hoffset : (header (c.file snapshot.gen).first).length +
        (f.position - (c.file snapshot.gen).first) - f.anchor.length =
        (header (c.file snapshot.gen).first).length +
          (f.position - f.anchor.length - (c.file snapshot.gen).first) := by
      omega
    have hread : ((c.taken.take (c.file snapshot.gen).last).drop
        (f.position - f.anchor.length)).take f.anchor.length = f.anchor := by
      have hsuffix := suffix_iff_eq_drop.mp hf.anchor
      rw [length_take, Nat.min_eq_left (hposition.trans hwithin)] at hsuffix
      rw [take_drop, Nat.sub_add_cancel (by omega), take_take, Nat.min_eq_left hposition]
      exact hsuffix.symm
    simp only [hoffset]
    rw [hheld.drop_bytes (by omega), hread]
    simp

lemma SerialFollower.check_eq {file : List UInt8} (h : f.restarted snapshot file = false) :
    f.check snapshot file =
      ({ (f.skip snapshot.origin).1 with
          inode := snapshot.inode, discarded := snapshot.origin.discarded },
        (f.skip snapshot.origin).2) := by
  simp [check, h]

lemma checked_sound (hc : c.Sound) (hs : snapshot.Of c)
    (hf : (poll f).Sound c snapshot.gen begun shown)
    (hfits : (poll f).Fits (c.file snapshot.gen) snapshot.len) :
    (Reader.checked (f.check snapshot (c.file snapshot.gen).bytes).1 snapshot
      (f.check snapshot (c.file snapshot.gen).bytes).2).Sound c begun shown := by
  obtain ⟨hplaces, hcovers⟩ := hf
  have hposition := hplaces.position_le hc hs.gen
  rw [check_eq (not_restarted hc hs hplaces hfits), hs.origin, skip]
  split
  case isTrue hgap =>
    have hlt : f.position < (c.file snapshot.gen).first := hgap
    refine ⟨hs, le_rfl, (hc.held _ hs.gen).ordered, hs.inode, rfl, nil_suffix, ?_⟩
    refine covers_append.mpr ⟨f.position, hcovers, Nat.sub_pos_of_lt hlt, ?_⟩
    exact Nat.add_sub_cancel' hlt.le
  case isFalse hnone =>
    have hle : (c.file snapshot.gen).first ≤ f.position := Nat.le_of_not_lt hnone
    refine ⟨hs, hle, hposition, hs.inode, rfl, hplaces.anchor, ?_⟩
    rw [append_nil]
    exact hcovers

lemma finish_bytes (hc : c.Sound) (hs : snapshot.Of c)
    (hfirst : (c.file snapshot.gen).first ≤ f.position) :
    (f.finish snapshot (c.file snapshot.gen).bytes).2 =
      (c.taken.take (c.file snapshot.gen).last).drop f.position := by
  rw [finish, hs.origin]
  exact (hc.held _ hs.gen).drop_bytes hfirst

lemma finish_position (hc : c.Sound) (hs : snapshot.Of c)
    (hfirst : (c.file snapshot.gen).first ≤ f.position)
    (hlast : f.position ≤ (c.file snapshot.gen).last) :
    (f.finish snapshot (c.file snapshot.gen).bytes).1.position = (c.file snapshot.gen).last := by
  have hwithin := (hc.held _ hs.gen).within
  change f.position + (f.finish snapshot (c.file snapshot.gen).bytes).2.length = _
  rw [finish_bytes hc hs hfirst, length_drop, length_take]
  omega

lemma finished_sound (hc : c.Sound) {output : List (Piece UInt8)}
    (h : (Reader.checked f snapshot output).Sound c begun shown) :
    (Reader.following (f.finish snapshot (c.file snapshot.gen).bytes).1).Sound c begun
      (shown ++ output ++ [.data (f.finish snapshot (c.file snapshot.gen).bytes).2]) := by
  obtain ⟨hs, hfirst, hlast, hinode, hdiscarded, hanchor, hcovers⟩ := h
  have hwithin := (hc.held _ hs.gen).within
  have hposition := finish_position hc hs hfirst hlast
  have hbytes := finish_bytes hc hs hfirst
  have hsplit : c.taken.take f.position ++ (c.taken.take (c.file snapshot.gen).last).drop f.position =
      c.taken.take (c.file snapshot.gen).last := by
    have htake : (c.taken.take (c.file snapshot.gen).last).take f.position = c.taken.take f.position := by
      rw [take_take, Nat.min_eq_left hlast]
    rw [← htake, take_append_drop]
  refine ⟨⟨⟨snapshot.gen, hs.gen, hinode, hdiscarded, hposition.le⟩, ?_⟩, ?_⟩
  · rw [hposition]
    refine (remember_anchor _ (f.finish snapshot (c.file snapshot.gen).bytes).2).trans ?_
    obtain ⟨front, hfront⟩ := hanchor
    refine ⟨front, ?_⟩
    change front ++ (f.anchor ++ _) = _
    rw [hbytes, ← append_assoc, hfront, hsplit]
  · refine covers_append.mpr ⟨f.position, hcovers, ?_, rfl⟩
    rw [hbytes]
    exact ( take_prefix _ _).drop _

end

/-! ## Runs -/

structure Serial.Sound (s : Serial) : Prop where
  capture : s.capture.Sound
  reader : s.reader.Sound s.capture s.begun s.shown

variable {s s' : Serial}

lemma Serial.advance_capture (h : s.advance = some s') : s'.capture = s.capture := by
  unfold advance at h
  split at h
  case h_4 =>
    simp only at h
    split at h
    all_goals
      cases h
      rfl
  all_goals
    cases h
    try rfl

lemma Serial.advance_sound (h : s.Sound) (hstream : ¬discardMarkerPrefix <+: s.capture.taken)
    (hstep : s.advance = some s') : s'.Sound := by
  obtain ⟨capture, reader, begun, shown⟩ := s
  obtain ⟨hc, hr⟩ := h
  change capture.Sound at hc
  cases reader with
  | idle => cases hstep
  | following f => cases hstep
  | opened purpose gen =>
    cases hstep
    obtain ⟨hgen, hpurpose⟩ := hr
    exact ⟨hc, hgen, hpurpose, le_rfl, hpurpose.fits hc hgen⟩
  | measured purpose gen len =>
    obtain ⟨hgen, hpurpose, hlen, hfits⟩ := hr
    simp only [advance, (hc.held gen hgen).parse hstream] at hstep
    cases hstep
    exact ⟨hc, ⟨hgen, rfl, rfl, hlen⟩, hpurpose, hfits⟩
  | parsed purpose snapshot =>
    obtain ⟨hs, hpurpose, hfits⟩ := hr
    cases purpose with
    | start preload =>
      cases hstep
      have hshown : shown = [] := hpurpose
      subst hshown
      exact ⟨hc, start_places hc hs preload, rfl⟩
    | poll f =>
      cases hstep
      exact ⟨hc, checked_sound hc hs hpurpose hfits⟩
  | checked f snapshot output =>
    cases hstep
    exact ⟨hc, finished_sound hc hr⟩

variable {a : SerialStep}

lemma Serial.step_sound (h : s.Sound)
    (hstream : ¬discardMarkerPrefix <+: s'.capture.taken) (hstep : s.step a = some s') :
    s'.Sound := by
  obtain ⟨hc, hr⟩ := h
  cases a with
  | drain chunk inode =>
    simp only [step, Option.ite_none_right_eq_some] at hstep
    obtain ⟨⟨hidle, -, hsmall⟩, hstep⟩ := hstep
    cases hstep
    exact ⟨Capture.drain_sound inode hc hidle hsmall, hr.grows hc (s.capture.drain_grows chunk inode)⟩
  | append n =>
    cases hstep
    exact ⟨Capture.append_sound hc n, hr.grows hc (s.capture.append_grows n)⟩
  | start preload =>
    obtain ⟨capture, reader, begun, shown⟩ := s
    cases reader with
    | idle =>
      cases hstep
      exact ⟨hc, le_rfl, hr⟩
    | _ => cases hstep
  | poll =>
    obtain ⟨capture, reader, begun, shown⟩ := s
    cases reader with
    | following f =>
      cases hstep
      exact ⟨hc, le_rfl, hr⟩
    | _ => cases hstep
  | advance =>
    rw [advance_capture hstep] at hstream
    exact advance_sound ⟨hc, hr⟩ hstream hstep

lemma Serial.step_taken (hstep : s.step a = some s') : s.capture.taken <+: s'.capture.taken := by
  cases a with
  | drain chunk inode =>
    simp only [step, Option.ite_none_right_eq_some] at hstep
    obtain ⟨-, hstep⟩ := hstep
    cases hstep
    obtain ⟨more, hmore⟩ := (s.capture.drain_grows chunk inode).taken
    exact ⟨more, hmore.symm⟩
  | append n =>
    cases hstep
    exact prefix_rfl
  | start preload | poll =>
    simp only [step] at hstep
    split at hstep <;> cases hstep
    exact prefix_rfl
  | advance => rw [advance_capture hstep]

open Serial

lemma serial_sound {limit : Limit} {inode : ℕ} {steps : List SerialStep}
    (h : serialLog.Run (.create limit inode) steps s)
    (hstream : ¬discardMarkerPrefix <+: s.capture.taken) : s.Sound := by
  refine h.invariant (I := fun s => ¬discardMarkerPrefix <+: s.capture.taken → s.Sound)
    (fun _ => ⟨Capture.create_sound limit inode, rfl⟩) (fun s a s' hs hstep hstream => ?_) hstream
  have htaken := step_taken hstep
  exact step_sound (hs fun hstarts => hstream (hstarts.trans htaken)) hstream hstep

def Capture.snapshot (c : Capture) : Snapshot where
  gen := c.newest
  origin := ⟨(c.file c.newest).first, (header (c.file c.newest).first).length⟩
  inode := (c.file c.newest).inode
  len := (c.file c.newest).bytes.length

lemma Serial.Sound.polled {f : SerialFollower} (h : s.Sound)
    (hstream : ¬discardMarkerPrefix <+: s.capture.taken) (hf : s.reader = .following f) :
    ∃ s' f', serialLog.Run s [.poll, .advance, .advance, .advance, .advance] s' ∧
      s'.reader = .following f' ∧ Covers s.capture.taken s.begun s'.shown f'.position ∧
      f'.position + s.capture.pending.length = s.capture.taken.length := by
  obtain ⟨c, reader, begun, shown⟩ := s
  obtain ⟨hc, hr⟩ := h
  change c.Sound at hc
  change reader = .following f at hf
  subst hf
  have hheld := hc.held c.newest le_rfl
  have hs : c.snapshot.Of c := ⟨le_rfl, rfl, rfl, le_rfl⟩
  have hpurpose : (poll f).Sound c c.snapshot.gen begun shown := hr
  have hchecked := checked_sound hc hs hpurpose (hpurpose.fits hc le_rfl)
  have hfinished := finished_sound hc hchecked
  have hposition : ((f.check c.snapshot (c.file c.snapshot.gen).bytes).1.finish c.snapshot
      (c.file c.snapshot.gen).bytes).1.position = (c.file c.newest).last :=
    finish_position hc hs hchecked.2.1 hchecked.2.2.1
  have hparse : advance ⟨c, .measured (.poll f) c.newest (c.file c.newest).bytes.length,
      begun, shown⟩ = some ⟨c, .parsed (.poll f) c.snapshot, begun, shown⟩ := by
    simp only [advance, hheld.parse hstream]
    rfl
  generalize hcheck : f.check c.snapshot (c.file c.snapshot.gen).bytes = checked at *
  have hcheck' : advance ⟨c, .parsed (.poll f) c.snapshot, begun, shown⟩ =
      some ⟨c, .checked checked.1 c.snapshot checked.2, begun, shown⟩ := by
    rw [← hcheck]
    rfl
  refine ⟨_, _, .cons rfl (.cons rfl (.cons hparse (.cons hcheck' (.cons rfl (.nil _))))), rfl,
    hfinished.2, ?_⟩
  have hpending : c.pending.length = c.taken.length - (c.file c.newest).last := by
    rw [hc.pending, length_drop]
  have hwithin := hheld.within
  change (checked.1.finish c.snapshot (c.file c.snapshot.gen).bytes).1.position + c.pending.length =
    c.taken.length
  omega

lemma Reader.Sound.covers {c : Capture} {begun : ℕ} {shown : List (Piece UInt8)} (h : reader.Sound c begun shown) : ∃ position, Covers c.taken begun shown position := by
  have hpurpose : ∀ {purpose : Purpose} {gen : ℕ}, purpose.Sound c gen begun shown →
      ∃ position, Covers c.taken begun shown position := by
    intro purpose gen h
    cases purpose with
    | start preload =>
      have hshown : shown = [] := h
      exact ⟨begun, by rw [hshown]; rfl⟩
    | poll f => exact ⟨f.position, h.2⟩
  cases reader with
  | idle =>
    have hshown : shown = [] := h
    exact ⟨begun, by rw [hshown]; rfl⟩
  | opened purpose gen => exact hpurpose h.2
  | measured purpose gen len | parsed purpose snapshot => exact hpurpose h.2.1
  | checked f snapshot output =>
    obtain ⟨-, -, -, -, -, -, hcovers⟩ := h
    obtain ⟨position, hshown, -⟩ := covers_append.mp hcovers
    exact ⟨position, hshown⟩
  | following f => exact ⟨f.position, h.2⟩

/-- What the polls hand out is the guest's output from where the follower started, with every gap
announced where it is and counted, however reads, appends and compactions fall. -/
theorem serial_followed {limit : Limit} {inode : ℕ} {steps : List SerialStep} {s : Serial}
    (h : serialLog.Run (.create limit inode) steps s)
    (hstream : ¬discardMarkerPrefix <+: s.capture.taken) :
    (∃ pieces position, s.output = pieces.flatMap pieceText ∧ Piece.restart ∉ pieces ∧
      Covers s.capture.taken s.begun pieces position) ∧
      ∀ f, s.reader = .following f → f.position ≤ s.capture.taken.length ∧
        Covers s.capture.taken s.begun s.shown f.position ∧
        ∃ s' f', serialLog.Run s [.poll, .advance, .advance, .advance, .advance] s' ∧
          s'.reader = .following f' ∧ Covers s.capture.taken s.begun s'.shown f'.position ∧
          f'.position + s.capture.pending.length = s.capture.taken.length := by
  have hsound := serial_sound h hstream
  obtain ⟨position, hcovers⟩ := hsound.reader.covers
  refine ⟨⟨s.shown, position, rfl, hcovers.not_restart, hcovers⟩, fun f hf => ?_⟩
  have hr := hsound.reader
  rw [hf] at hr
  have hwithin := (hsound.capture.held _ le_rfl).within
  exact ⟨(hr.1.position_le hsound.capture le_rfl).trans hwithin, hr.2, hsound.polled hstream hf⟩

def tightLimit : Limit := ⟨160, by decide⟩

/-- A follower that starts after three bytes, is polled halfway through a chunk, and loses its place
to a compaction between opening the log and reading it. -/
def followedSteps : List SerialStep :=
  [.drain (List.replicate 3 97) 1, .append 3, .start 8, .advance, .advance, .advance,
   .drain (List.replicate 100 98) 2, .append 40, .poll, .advance, .advance, .advance, .advance,
   .append 100, .poll, .drain (List.replicate 120 99) 1, .advance, .append 120, .advance, .advance,
   .advance, .drain (List.replicate 130 100) 3, .append 130, .poll, .advance, .advance, .advance, .advance]

theorem tight_log_followed :
    ∃ s, serialLog.Run (.create tightLimit 0) followedSteps s ∧ s.begun = 3 ∧
      s.shown = [.data (List.replicate 40 98), .data (List.replicate 60 98), .gap 160,
        .data (List.replicate 90 100)] ∧
      ∃ pieces position, s.output = pieces.flatMap pieceText ∧ Piece.restart ∉ pieces ∧
        Covers s.capture.taken s.begun pieces position := by
  obtain ⟨s, hrun, hbegun, hshown, hstream⟩ : ∃ s, serialLog.Run (.create tightLimit 0) followedSteps s ∧
      s.begun = 3 ∧
      s.shown = [.data (List.replicate 40 98), .data (List.replicate 60 98), .gap 160,
        .data (List.replicate 90 100)] ∧ ¬discardMarkerPrefix <+: s.capture.taken := by
    apply Machine.exists_run_ofStep
    decide +kernel
  exact ⟨s, hrun, hbegun, hshown, (serial_followed hrun hstream).1⟩

end Husker.Vmm
