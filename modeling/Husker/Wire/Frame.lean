import Husker.Relational.Stream

/-! # Framed messages between host and guest

A frame is the length of a JSON text, as four bytes with the highest first, and the text itself.
A buffer is decoded from its front; a stream is read in chunks of at most 64 KiB.
-/
namespace Husker.Wire
open Relational List Stream

abbrev Bytes := List UInt8

variable {T : Type}

/-- `serde_json` on a message type. -/
structure Serde (T : Type) where
  toVec : T → Except String Bytes
  fromSlice : Bytes → Except String T

def Serde.Faithful (serde : Serde T) : Prop :=
  ∀ msg json, serde.toVec msg = .ok json → serde.fromSlice json = .ok msg

inductive ProtocolError where
  | messageTooLarge (size : ℕ)
  | readTimeout (declared timeoutSecs : ℕ)
  | json (message : String)
  | io

def maxMessageSize : ℕ := 16 * 1024 * 1024

def payloadReadChunk : ℕ := 65536

def toBeBytes (n : UInt32) : Bytes :=
  [.ofNat (n.toNat / 2 ^ 24), .ofNat (n.toNat / 2 ^ 16), .ofNat (n.toNat / 2 ^ 8), .ofNat n.toNat]

def fromBeBytes (a b c d : UInt8) : UInt32 :=
  .ofNat (a.toNat * 2 ^ 24 + b.toNat * 2 ^ 16 + c.toNat * 2 ^ 8 + d.toNat)

def encodeMessage (serde : Serde T) (msg : T) : Except ProtocolError Bytes := do
  let json ← (serde.toVec msg).mapError .json
  if json.length > maxMessageSize then throw (.messageTooLarge json.length)
  return toBeBytes (.ofNat json.length) ++ json

/-- The message at the front of the buffer and how many bytes it takes; nothing if there is no
complete frame. -/
def decodeMessage (serde : Serde T) (buf : Bytes) : Except ProtocolError (Option (T × ℕ)) :=
  match buf with
  | a :: b :: c :: d :: rest =>
    let len := (fromBeBytes a b c d).toNat
    if len > maxMessageSize then .error (.messageTooLarge len)
    else if rest.length < len then .ok none
    else do
      let msg ← (serde.fromSlice (rest.take len)).mapError .json
      return some (msg, 4 + len)
  | _ => .ok none

/-- The loop over what remains to be read; it gets at least one byte each time. -/
def chunkLoop : ℕ → ℕ → Stream UInt8 → Option Bytes × Stream UInt8
  | 0, _, s => (some [], s)
  | fuel + 1, remaining, s =>
    if remaining = 0 then (some [], s)
    else
      let thisChunk := min remaining payloadReadChunk
      match s.readExact thisChunk with
      | (none, s) => (none, s)
      | (some chunk, s) =>
        let (rest, s) := chunkLoop fuel (remaining - thisChunk) s
        (rest.map (chunk ++ ·), s)

def readExactChunked (s : Stream UInt8) (len : ℕ) : Option Bytes × Stream UInt8 :=
  chunkLoop len len s

/-- How long a payload may take, and how much of it had come if that was too long. -/
structure Deadline where
  timeoutSecs : ℕ
  passed : Option ℕ := none

def readPayload (serde : Serde T) (deadline : Deadline) (len : ℕ) (s : Stream UInt8) :
    Except ProtocolError (Option T) × Stream UInt8 :=
  if len > maxMessageSize then (.error (.messageTooLarge len), s)
  else
    match deadline.passed with
    | some n => (.error (.readTimeout len deadline.timeoutSecs), { s with bytes := s.bytes.drop n })
    | none =>
      match readExactChunked s len with
      | (none, s) => (.error .io, s)
      | (some payload, s) => (((serde.fromSlice payload).mapError .json).map some, s)

def readMessageWithTimeout (serde : Serde T) (deadline : Deadline) (s : Stream UInt8) :
    Except ProtocolError (Option T) × Stream UInt8 :=
  match s.readExact 4 with
  | (some [a, b, c, d], s) => readPayload serde deadline (fromBeBytes a b c d).toNat s
  -- The stream ended, perhaps within the length.
  | (_, s) => (.ok none, s)

/-! ## Lengths -/

@[simp] lemma length_toBeBytes (n : UInt32) : (toBeBytes n).length = 4 := rfl

lemma fromBeBytes_toBeBytes (n : ℕ) (h : n < 2 ^ 32) :
    ∃ a b c d, toBeBytes (.ofNat n) = [a, b, c, d] ∧ (fromBeBytes a b c d).toNat = n := by
  refine ⟨_, _, _, _, rfl, ?_⟩
  have hn : (UInt32.ofNat n).toNat = n := by
    rw [UInt32.toNat_ofNat', Nat.mod_eq_of_lt h]
  rw [hn]
  simp only [fromBeBytes, UInt8.toNat_ofNat', UInt32.toNat_ofNat']
  omega

/-! ## One frame -/

def Serde.Fits (serde : Serde T) (msg : T) : Prop :=
  ∃ json, serde.toVec msg = .ok json ∧ json.length ≤ maxMessageSize

structure Frames (serde : Serde T) (msg : T) (json frame : Bytes) : Prop where
  text : serde.toVec msg = .ok json
  small : json.length ≤ maxMessageSize
  bytes : frame = toBeBytes (.ofNat json.length) ++ json

variable {serde : Serde T} {msg : T} {json frame : Bytes}

lemma encodeMessage_eq_ok :
    encodeMessage serde msg = .ok frame ↔ ∃ json, Frames serde msg json frame := by
  unfold encodeMessage
  constructor
  · intro h
    cases hjson : serde.toVec msg with
    | error e => simp [hjson, Except.mapError, bind, Except.bind] at h
    | ok json =>
      simp only [hjson, Except.mapError, bind, Except.bind] at h
      split at h <;> cases h
      · exact ⟨json, hjson, by omega, rfl⟩
  · rintro ⟨json, htext, hsmall, rfl⟩
    simp only [htext, Except.mapError, bind, Except.bind]
    rw [if_neg (by omega)]
    rfl

section
variable (h : Frames serde msg json frame)
include h

lemma Frames.length : frame.length = 4 + json.length := by
  simp [h.bytes]

lemma Frames.header :
    ∃ a b c d, frame = a :: b :: c :: d :: json ∧ (fromBeBytes a b c d).toNat = json.length := by
  have hlt : json.length < 2 ^ 32 := lt_of_le_of_lt h.small (by decide)
  obtain ⟨a, b, c, d, hbytes, hlen⟩ := fromBeBytes_toBeBytes json.length hlt
  exact ⟨a, b, c, d, by rw [h.bytes, hbytes]; rfl, hlen⟩

lemma Frames.decode (hserde : serde.Faithful) (rest : Bytes) :
    decodeMessage serde (frame ++ rest) = .ok (some (msg, frame.length)) := by
  have hsmall := h.small
  obtain ⟨a, b, c, d, hbytes, hlen⟩ := h.header
  rw [h.length, hbytes, decodeMessage.eq_def]
  simp only [cons_append, hlen]
  rw [if_neg (by omega), if_neg (by simp), take_left, hserde _ _ h.text]
  rfl

lemma Frames.decode_cut {part : Bytes} (hpart : part <+: frame)
    (hproper : part ≠ frame) : decodeMessage serde part = .ok none := by
  have hsmall := h.small
  obtain ⟨a, b, c, d, hbytes, hlen⟩ := h.header
  obtain ⟨rest, hrest⟩ := hpart
  rw [hbytes] at hrest
  rw [decodeMessage.eq_def]
  split
  · rename_i a' b' c' d' body
    simp only [cons_append, cons.injEq] at hrest
    obtain ⟨rfl, rfl, rfl, rfl, hbody⟩ := hrest
    have hshort : body.length < json.length := by
      have hlength := congrArg List.length hbody
      rw [length_append] at hlength
      have hne : rest ≠ [] := by
        rintro rfl
        rw [append_nil] at hbody
        exact hproper (by rw [hbytes, hbody])
      have hpos := length_pos_of_ne_nil hne
      omega
    simp only [hlen]
    rw [if_neg (by omega), if_pos hshort]
  · rfl

end

/-! ## Reading a stream -/

variable {s : Stream UInt8} {rest : Bytes}

lemma chunkLoop_append (fuel : ℕ) {front : Bytes}
    (hfuel : front.length ≤ fuel) (hbytes : s.bytes = front ++ rest) :
    ∃ s', chunkLoop fuel front.length s = (some front, s') ∧ s'.bytes = rest := by
  induction fuel generalizing s front with
  | zero =>
    obtain rfl : front = [] := length_eq_zero_iff.mp (by omega)
    exact ⟨s, rfl, hbytes⟩
  | succ fuel ih =>
  by_cases hempty : front.length = 0
  · obtain rfl : front = [] := length_eq_zero_iff.mp hempty
    exact ⟨s, rfl, hbytes⟩
  set size := min front.length payloadReadChunk with hsize
  have hpos : 1 ≤ size := by
    have hchunk : payloadReadChunk = 65536 := rfl
    omega
  have hsplit : s.bytes = front.take size ++ (front.drop size ++ rest) := by
    rw [← append_assoc, take_append_drop, hbytes]
  have htake : (front.take size).length = size := by
    rw [length_take]
    omega
  have hdrop : (front.drop size).length ≤ fuel := by
    rw [length_drop]
    omega
  obtain ⟨s', hread, hleft⟩ := readExact_append hsplit htake
  obtain ⟨s'', hloop, hrest⟩ := ih hdrop hleft
  refine ⟨s'', ?_, hrest⟩
  rw [length_drop] at hloop
  rw [chunkLoop, if_neg hempty]
  simp only [← hsize, hread, hloop, Option.map_some, take_append_drop]

lemma Frames.read (h : Frames serde msg json frame) (hserde : serde.Faithful) (timeoutSecs : ℕ)
    (hbytes : s.bytes = frame ++ rest) :
    ∃ s', readMessageWithTimeout serde ⟨timeoutSecs, none⟩ s = (.ok (some msg), s') ∧
      s'.bytes = rest := by
  have hsmall := h.small
  obtain ⟨a, b, c, d, hframe, hlen⟩ := h.header
  have hsplit : s.bytes = [a, b, c, d] ++ (json ++ rest) := by
    rw [hbytes, hframe]
    rfl
  obtain ⟨s', hread, hleft⟩ := readExact_append (n := 4) hsplit rfl
  obtain ⟨s'', hpayload, hrest⟩ := chunkLoop_append json.length le_rfl hleft
  refine ⟨s'', ?_, hrest⟩
  unfold readMessageWithTimeout
  rw [hread]
  dsimp only
  rw [hlen]
  unfold readPayload readExactChunked
  rw [if_neg (by omega), hpayload]
  simp only [hserde _ _ h.text, Except.mapError, Except.map]

/-- Fewer than four bytes are taken for the end of the stream. -/
lemma read_short {deadline : Deadline} (hshort : s.bytes.length < 4) :
    (readMessageWithTimeout serde deadline s).1 = .ok none := by
  obtain ⟨s', hread, -⟩ := readExact_short hshort
  simp [readMessageWithTimeout, hread]

/-! ## Many frames -/

/-- Decodes frame after frame and drops what was consumed, until there is no complete frame. -/
def decodeLoop (serde : Serde T) : ℕ → Bytes → Except ProtocolError (List T × Bytes)
  | 0, buf => .ok ([], buf)
  | fuel + 1, buf => do
    match ← decodeMessage serde buf with
    | none => .ok ([], buf)
    | some (msg, n) =>
      let (msgs, rest) ← decodeLoop serde fuel (buf.drop n)
      return (msg :: msgs, rest)

def decodeMessages (serde : Serde T) (buf : Bytes) : Except ProtocolError (List T × Bytes) :=
  decodeLoop serde (buf.length + 1) buf

def readMessages (serde : Serde T) (deadline : Deadline) :
    ℕ → Stream UInt8 → List (Except ProtocolError (Option T)) × Stream UInt8
  | 0, s => ([], s)
  | k + 1, s =>
    let read := readMessageWithTimeout serde deadline s
    let rest := readMessages serde deadline k read.2
    (read.1 :: rest.1, rest.2)

variable {msgs : List T} {frames : List Bytes}

lemma decodeLoop_flatten (hserde : serde.Faithful)
    (h : List.Forall₂ (fun msg frame => ∃ json, Frames serde msg json frame) msgs frames)
    (fuel : ℕ) (hfuel : frames.flatten.length < fuel) :
    decodeLoop serde fuel frames.flatten = .ok (msgs, []) := by
  induction h generalizing fuel with
  | nil =>
    obtain ⟨fuel, rfl⟩ : ∃ k, fuel = k + 1 := ⟨fuel - 1, by omega⟩
    rfl
  | @cons msg frame msgs frames hframe _ ih =>
  obtain ⟨json, hframe⟩ := hframe
  have hlength := hframe.length
  rw [flatten_cons, length_append] at hfuel
  obtain ⟨fuel, rfl⟩ : ∃ k, fuel = k + 1 := ⟨fuel - 1, by omega⟩
  rw [flatten_cons, decodeLoop, hframe.decode hserde]
  simp only [bind, Except.bind, drop_left]
  rw [ih fuel (by omega)]
  rfl

lemma readMessages_flatten (hserde : serde.Faithful) (timeoutSecs : ℕ)
    (h : List.Forall₂ (fun msg frame => ∃ json, Frames serde msg json frame) msgs frames)
    (hbytes : s.bytes = frames.flatten ++ rest) :
    ∃ s', readMessages serde ⟨timeoutSecs, none⟩ msgs.length s =
      (msgs.map fun msg => .ok (some msg), s') ∧ s'.bytes = rest := by
  induction h generalizing s with
  | nil => exact ⟨s, rfl, hbytes⟩
  | @cons msg frame msgs frames hframe _ ih =>
  obtain ⟨json, hframe⟩ := hframe
  rw [flatten_cons, append_assoc] at hbytes
  obtain ⟨s', hread, hleft⟩ := hframe.read hserde timeoutSecs hbytes
  obtain ⟨s'', hmsgs, hrest⟩ := ih hleft
  refine ⟨s'', ?_, hrest⟩
  simp only [length_cons, readMessages, hread, hmsgs, map_cons]

lemma readMessages_succ (deadline : Deadline) (k : ℕ) (s : Stream UInt8) :
    (readMessages serde deadline (k + 1) s).1 =
      (readMessages serde deadline k s).1 ++
        [(readMessageWithTimeout serde deadline (readMessages serde deadline k s).2).1] := by
  induction k generalizing s with
  | zero => rfl
  | succ k ih =>
    have hrest := ih (readMessageWithTimeout serde deadline s).2
    simp only [readMessages] at hrest ⊢
    rw [hrest, cons_append]

structure Received (serde : Serde T) (msgs : List T) (frames : List Bytes) : Prop where
  buffer : decodeMessages serde frames.flatten = .ok (msgs, [])
  /-- A frame yields its message and its length, whatever follows. -/
  exact : List.Forall₂ (fun msg frame => ∀ rest,
    decodeMessage serde (frame ++ rest) = .ok (some (msg, frame.length))) msgs frames
  cut : ∀ frame ∈ frames, ∀ part, part <+: frame → part ≠ frame →
    decodeMessage serde part = .ok none
  /-- A stream yields the messages one by one, and no byte of the frames that follow is gone. -/
  stream : ∀ timeoutSecs (s : Stream UInt8), s.bytes = frames.flatten → ∀ k ≤ msgs.length,
    ∃ s', readMessages serde ⟨timeoutSecs, none⟩ k s =
      ((msgs.take k).map fun msg => .ok (some msg), s') ∧ s'.bytes = (frames.drop k).flatten
  ended : ∀ timeoutSecs (s : Stream UInt8), s.bytes = frames.flatten →
    (readMessages serde ⟨timeoutSecs, none⟩ (msgs.length + 1) s).1 =
      (msgs.map fun msg => .ok (some msg)) ++ [.ok none]

lemma mapM_encodeMessage (h : ∀ msg ∈ msgs, serde.Fits msg) :
    ∃ frames, msgs.mapM (encodeMessage serde) = .ok frames ∧
      List.Forall₂ (fun msg frame => ∃ json, Frames serde msg json frame) msgs frames := by
  induction msgs with
  | nil => exact ⟨[], rfl, .nil⟩
  | cons msg msgs ih =>
  obtain ⟨json, htext, hsmall⟩ := h msg (.head _)
  obtain ⟨frames, hframes, hall⟩ := ih fun m hm => h m (.tail _ hm)
  have hframe : Frames serde msg json (toBeBytes (.ofNat json.length) ++ json) :=
    ⟨htext, hsmall, rfl⟩
  refine ⟨(toBeBytes (.ofNat json.length) ++ json) :: frames, ?_, .cons ⟨json, hframe⟩ hall⟩
  rw [mapM_cons, encodeMessage_eq_ok.mpr ⟨json, hframe⟩, hframes]
  rfl

/-- Messages that may be sent are received as they are, from a buffer and from a stream, however
the bytes are delivered. -/
theorem framing_round_trips (hserde : serde.Faithful) (hfits : ∀ msg ∈ msgs, serde.Fits msg) :
    ∃ frames, msgs.mapM (encodeMessage serde) = .ok frames ∧ Received serde msgs frames := by
  obtain ⟨frames, hencode, hall⟩ := mapM_encodeMessage hfits
  have hstream : ∀ timeoutSecs (s : Stream UInt8), s.bytes = frames.flatten → ∀ k ≤ msgs.length,
      ∃ s', readMessages serde ⟨timeoutSecs, none⟩ k s =
        ((msgs.take k).map fun msg => .ok (some msg), s') ∧ s'.bytes = (frames.drop k).flatten := by
    intro timeoutSecs s hbytes k hk
    have hsplit : s.bytes = (frames.take k).flatten ++ (frames.drop k).flatten := by
      rw [← flatten_append, take_append_drop, hbytes]
    have hread := readMessages_flatten hserde timeoutSecs (forall₂_take k hall) hsplit
    rwa [length_take, Nat.min_eq_left hk] at hread
  refine ⟨frames, hencode, decodeLoop_flatten hserde hall _ (Nat.lt_succ_self _), ?_, ?_, hstream, ?_⟩
  · exact hall.imp fun msg frame ⟨json, hframe⟩ rest => hframe.decode hserde rest
  · intro frame hmem part hpart hproper
    obtain ⟨i, hi, rfl⟩ := mem_iff_getElem.mp hmem
    have hi' : i < msgs.length := by rw [hall.length_eq]; exact hi
    obtain ⟨json, hframe⟩ := hall.get hi' hi
    exact hframe.decode_cut hpart hproper
  · intro timeoutSecs s hbytes
    obtain ⟨s', hread, hleft⟩ := hstream timeoutSecs s hbytes msgs.length le_rfl
    rw [drop_eq_nil_of_le hall.length_eq.ge, flatten_nil] at hleft
    rw [readMessages_succ, hread, take_length]
    simp only [read_short (show s'.bytes.length < 4 by simp [hleft])]

/-! ## Sample messages -/

inductive PlainRequest where
  | ping
  | guestInfo
  deriving DecidableEq

def PlainRequest.text : PlainRequest → Bytes
  | .ping => "\x7b\"type\":\"Ping\"\x7d".toUTF8.toList
  | .guestInfo => "\x7b\"type\":\"GuestInfo\"\x7d".toUTF8.toList

def plainSerde : Serde PlainRequest where
  toVec msg := .ok msg.text
  fromSlice json :=
    if json = PlainRequest.text .ping then .ok .ping
    else if json = PlainRequest.text .guestInfo then .ok .guestInfo
    else .error "unknown variant"

theorem plain_requests_received :
    ∃ frames, [PlainRequest.ping, .guestInfo].mapM (encodeMessage plainSerde) = .ok frames ∧
      Received plainSerde [.ping, .guestInfo] frames := by
  apply framing_round_trips
  · rintro msg json ⟨⟩
    cases msg <;> decide +kernel
  · rintro msg -
    exact ⟨msg.text, rfl, by cases msg <;> decide +kernel⟩

/-! ## Streams that end within a frame -/

/-- The bytes end within a length or within the payload it announces. -/
def Cut (bytes : Bytes) : Prop :=
  0 < bytes.length ∧ bytes.length < 4 ∨
    ∃ a b c d rest, bytes = a :: b :: c :: d :: rest ∧ rest.length < (fromBeBytes a b c d).toNat

lemma chunkLoop_short (fuel n : ℕ) (hfuel : n ≤ fuel)
    (hshort : s.bytes.length < n) : (chunkLoop fuel n s).1 = none := by
  induction fuel generalizing n s with
  | zero => omega
  | succ fuel ih =>
  rw [chunkLoop, if_neg (by omega)]
  set size := min n payloadReadChunk with hsize
  have hpos : 1 ≤ size := by
    have hchunk : payloadReadChunk = 65536 := rfl
    omega
  by_cases hlast : s.bytes.length < size
  · obtain ⟨s', hread, -⟩ := readExact_short hlast
    simp only [hread]
  have htake : (s.bytes.take size).length = size := by
    rw [length_take]
    omega
  obtain ⟨s', hread, hleft⟩ := readExact_append (s.bytes.take_append_drop size).symm htake
  have hrest : (chunkLoop fuel (n - size) s').1 = none := by
    apply ih
    · omega
    · rw [hleft, length_drop]
      omega
  simp only [hread, hrest, Option.map_none]

lemma read_length (serde : Serde T) (deadline : Deadline) {a b c d : UInt8}
    (hbytes : s.bytes = a :: b :: c :: d :: rest) :
    ∃ s', s'.bytes = rest ∧ readMessageWithTimeout serde deadline s =
      readPayload serde deadline (fromBeBytes a b c d).toNat s' := by
  have hsplit : s.bytes = [a, b, c, d] ++ rest := hbytes
  obtain ⟨s', hread, hleft⟩ := readExact_append (n := 4) hsplit rfl
  exact ⟨s', hleft, by simp only [readMessageWithTimeout, hread]⟩

lemma readPayload_ne_none (deadline : Deadline) (len : ℕ) (s : Stream UInt8) :
    (readPayload serde deadline len s).1 ≠ .ok none := by
  unfold readPayload
  split
  · simp
  split
  · simp
  split
  · simp
  · rename_i payload _ _
    cases serde.fromSlice payload <;> simp [Except.mapError, Except.map]

lemma readPayload_short (deadline : Deadline) {len : ℕ} (hshort : s.bytes.length < len) :
    ∃ e, (readPayload serde deadline len s).1 = .error e := by
  unfold readPayload
  split
  · exact ⟨_, rfl⟩
  split
  · exact ⟨_, rfl⟩
  have hnone := chunkLoop_short len len le_rfl hshort
  split
  · exact ⟨_, rfl⟩
  · rename_i hread
    rw [readExactChunked] at hread
    rw [hread] at hnone
    cases hnone

/-- An end is reported only where a frame would begin, and a truncated frame is an error, exactly
on the streams that do not end within a length. -/
theorem ends_between_frames_iff (serde : Serde T) (deadline : Deadline) (s : Stream UInt8) :
    (((readMessageWithTimeout serde deadline s).1 = .ok none → s.bytes = []) ∧
      (Cut s.bytes → ∃ e, (readMessageWithTimeout serde deadline s).1 = .error e)) ↔
      ¬(0 < s.bytes.length ∧ s.bytes.length < 4) := by
  constructor
  · rintro ⟨hend, -⟩ ⟨hpos, hshort⟩
    rw [hend (read_short hshort)] at hpos
    exact absurd hpos (lt_irrefl 0)
  intro hwhole
  rcases Nat.lt_or_ge s.bytes.length 4 with hshort | hlong
  · have hempty : s.bytes = [] := length_eq_zero_iff.mp (by omega)
    refine ⟨fun _ => hempty, ?_⟩
    rintro (⟨hpos, -⟩ | ⟨a, b, c, d, rest, hbytes, -⟩)
    · simp [hempty] at hpos
    · simp [hempty] at hbytes
  obtain ⟨a, b, c, d, rest, hbytes⟩ : ∃ a b c d rest, s.bytes = a :: b :: c :: d :: rest := by
    match hs : s.bytes, hlong with
    | a :: b :: c :: d :: rest, _ => exact ⟨a, b, c, d, rest, rfl⟩
  obtain ⟨s', hleft, hread⟩ := read_length serde deadline hbytes
  rw [hread]
  refine ⟨fun h => absurd h (readPayload_ne_none _ _ _), ?_⟩
  rintro (⟨-, hshort⟩ | ⟨a', b', c', d', rest', hbytes', hshort⟩)
  · omega
  · rw [hbytes] at hbytes'
    cases hbytes'
    exact readPayload_short deadline (hleft ▸ hshort)

/-- One byte of a length is all that came, and the stream is said to have ended cleanly. -/
theorem cut_length_reads_as_end :
    Cut [0] ∧ (readMessageWithTimeout plainSerde ⟨30, none⟩ ⟨[0], fun _ => 1⟩).1 = .ok none :=
  ⟨.inl (by decide), read_short (by decide)⟩

end Husker.Wire
