import Husker.Wire.Frame
import Husker.Relational.Machine

/-! # The relay of an interactive shell

The daemon stands between a client and the agent, and the agent between the daemon and a terminal.
Both wait for whichever comes first, the next frame of the other or something of their own; a frame
that was partly read when something else came first is dropped with the read.
-/
namespace Husker.Wire
open List Nat

/-! ## Base64

Bytes as text: three bytes are four characters of six bits each, and a shorter rest is filled up
with equals signs.
-/

section

def b64Chars : Bytes :=
  "ABCDEFGHIJKLMNOPQRSTUVWXYZabcdefghijklmnopqrstuvwxyz0123456789+/".toList.map fun c =>
    .ofNat c.toNat

def padding : UInt8 := 61

def b64Char (n : UInt8) : UInt8 := b64Chars.getD n.toNat 0

def base64Encode : Bytes → Bytes
  | a :: b :: c :: rest =>
    b64Char (a >>> 2) :: b64Char ((a &&& 0x03) <<< 4 ||| b >>> 4) ::
      b64Char ((b &&& 0x0f) <<< 2 ||| c >>> 6) :: b64Char (c &&& 0x3f) :: base64Encode rest
  | [a, b] =>
    [b64Char (a >>> 2), b64Char ((a &&& 0x03) <<< 4 ||| b >>> 4), b64Char ((b &&& 0x0f) <<< 2), padding]
  | [a] => [b64Char (a >>> 2), b64Char ((a &&& 0x03) <<< 4), padding, padding]
  | [] => []

def decodeChar (c : UInt8) : Except String UInt8 :=
  if 65 ≤ c ∧ c ≤ 90 then .ok (c - 65)
  else if 97 ≤ c ∧ c ≤ 122 then .ok (c - 97 + 26)
  else if 48 ≤ c ∧ c ≤ 57 then .ok (c - 48 + 52)
  else if c = 43 then .ok 62
  else if c = 47 then .ok 63
  else if c = padding then .ok 0
  else .error s!"invalid base64 character: {c}"

/-- The bytes of four characters; a sign of padding gives none. -/
def decodeGroup (w x y z : UInt8) : Except String Bytes := do
  let a ← decodeChar w
  let b ← decodeChar x
  let c ← decodeChar y
  let d ← decodeChar z
  return [a <<< 2 ||| b >>> 4] ++ (if y ≠ padding then [b <<< 4 ||| c >>> 2] else []) ++
    (if z ≠ padding then [c <<< 6 ||| d] else [])

def base64Decode : Bytes → Except String Bytes
  | w :: x :: y :: z :: rest => do
    let group ← decodeGroup w x y z
    let output ← base64Decode rest
    return group ++ output
  | [] => .ok []
  | _ => .error "invalid base64 length"

/-! ## Six bits -/

lemma decodeChar_b64Char {n : UInt8} (h : n.toNat < 64) :
    decodeChar (b64Char n) = .ok n ∧ b64Char n ≠ padding := by
  have hall : ∀ i < 64, decodeChar (b64Char (.ofNat i)) = .ok (.ofNat i) ∧
      b64Char (.ofNat i) ≠ padding := by decide +kernel
  simpa using hall n.toNat h

lemma first_lt (a : UInt8) : (a >>> 2).toNat < 64 := by
  have ha := a.toNat_lt
  simp only [UInt8.toNat_shiftRight, shiftRight_eq_div_pow]
  simp
  omega

lemma second_lt (a b : UInt8) : ((a &&& 0x03) <<< 4 ||| b >>> 4).toNat < 64 := by
  have hb := b.toNat_lt
  have ha : a.toNat &&& 3 ≤ 3 := and_le_right
  rw [UInt8.toNat_or]
  apply or_lt_two_pow (n := 6)
  · simp [shiftLeft_eq]
    omega
  · simp [shiftRight_eq_div_pow]
    omega

lemma third_lt (b c : UInt8) : ((b &&& 0x0f) <<< 2 ||| c >>> 6).toNat < 64 := by
  have hc := c.toNat_lt
  have hb : b.toNat &&& 15 ≤ 15 := and_le_right
  rw [UInt8.toNat_or]
  apply or_lt_two_pow (n := 6)
  · simp [shiftLeft_eq]
    omega
  · simp [shiftRight_eq_div_pow]
    omega

lemma fourth_lt (c : UInt8) : (c &&& 0x3f).toNat < 64 := by
  have hc : c.toNat &&& 63 ≤ 63 := and_le_right
  simp
  omega

lemma first_byte (a b : UInt8) : (a >>> 2) <<< 2 ||| ((a &&& 0x03) <<< 4 ||| b >>> 4) >>> 4 = a := by
  apply UInt8.eq_of_toBitVec_eq
  simp only [UInt8.toBitVec_or, UInt8.toBitVec_shiftLeft, UInt8.toBitVec_shiftRight,
    UInt8.toBitVec_and]
  generalize a.toBitVec = x
  generalize b.toBitVec = y
  ext i hi
  interval_cases i <;> simp

lemma second_byte (a b c : UInt8) :
    ((a &&& 0x03) <<< 4 ||| b >>> 4) <<< 4 ||| ((b &&& 0x0f) <<< 2 ||| c >>> 6) >>> 2 = b := by
  apply UInt8.eq_of_toBitVec_eq
  simp only [UInt8.toBitVec_or, UInt8.toBitVec_shiftLeft, UInt8.toBitVec_shiftRight,
    UInt8.toBitVec_and]
  generalize a.toBitVec = x
  generalize b.toBitVec = y
  generalize c.toBitVec = z
  ext i hi
  interval_cases i <;> simp

lemma third_byte (b c : UInt8) : ((b &&& 0x0f) <<< 2 ||| c >>> 6) <<< 6 ||| (c &&& 0x3f) = c := by
  apply UInt8.eq_of_toBitVec_eq
  simp only [UInt8.toBitVec_or, UInt8.toBitVec_shiftLeft, UInt8.toBitVec_shiftRight,
    UInt8.toBitVec_and]
  generalize b.toBitVec = y
  generalize c.toBitVec = z
  ext i hi
  interval_cases i <;> simp

/-! ## Text -/

lemma decodeChar_padding : decodeChar padding = .ok 0 := by decide

lemma decodeGroup_three (a b c : UInt8) :
    decodeGroup (b64Char (a >>> 2)) (b64Char ((a &&& 0x03) <<< 4 ||| b >>> 4))
      (b64Char ((b &&& 0x0f) <<< 2 ||| c >>> 6)) (b64Char (c &&& 0x3f)) = .ok [a, b, c] := by
  obtain ⟨h₁, -⟩ := decodeChar_b64Char (first_lt a)
  obtain ⟨h₂, -⟩ := decodeChar_b64Char (second_lt a b)
  obtain ⟨h₃, hne₃⟩ := decodeChar_b64Char (third_lt b c)
  obtain ⟨h₄, hne₄⟩ := decodeChar_b64Char (fourth_lt c)
  simp only [decodeGroup, h₁, h₂, h₃, h₄, hne₃, hne₄, bind, Except.bind, pure, Except.pure,
    first_byte, second_byte, third_byte, ne_eq, not_false_eq_true, if_true]
  rfl

lemma decodeGroup_two (a b : UInt8) :
    decodeGroup (b64Char (a >>> 2)) (b64Char ((a &&& 0x03) <<< 4 ||| b >>> 4))
      (b64Char ((b &&& 0x0f) <<< 2)) padding = .ok [a, b] := by
  have hzero : (b &&& 0x0f) <<< 2 = (b &&& 0x0f) <<< 2 ||| (0 : UInt8) >>> 6 := by simp
  obtain ⟨h₁, -⟩ := decodeChar_b64Char (first_lt a)
  obtain ⟨h₂, -⟩ := decodeChar_b64Char (second_lt a b)
  obtain ⟨h₃, hne₃⟩ := decodeChar_b64Char (third_lt b 0)
  rw [hzero]
  simp only [decodeGroup, h₁, h₂, h₃, hne₃, decodeChar_padding, bind, Except.bind, pure,
    Except.pure, first_byte, second_byte, ne_eq, not_false_eq_true, not_true_eq_false, if_true,
    if_false]
  rfl

lemma decodeGroup_one (a : UInt8) :
    decodeGroup (b64Char (a >>> 2)) (b64Char ((a &&& 0x03) <<< 4)) padding padding = .ok [a] := by
  have hzero : (a &&& 0x03) <<< 4 = (a &&& 0x03) <<< 4 ||| (0 : UInt8) >>> 4 := by simp
  obtain ⟨h₁, -⟩ := decodeChar_b64Char (first_lt a)
  obtain ⟨h₂, -⟩ := decodeChar_b64Char (second_lt a 0)
  rw [hzero]
  simp only [decodeGroup, h₁, h₂, decodeChar_padding, bind, Except.bind, pure, Except.pure,
    first_byte, ne_eq, not_true_eq_false, if_false]
  rfl

@[simp] lemma base64Decode_base64Encode (data : Bytes) :
    base64Decode (base64Encode data) = .ok data := by
  induction data using base64Encode.induct with
  | case1 a b c rest ih =>
    simp only [base64Encode, base64Decode, decodeGroup_three, ih, bind, Except.bind, pure,
      Except.pure]
    rfl
  | case2 a b =>
    simp only [base64Encode, base64Decode, decodeGroup_two, bind, Except.bind, pure, Except.pure]
    rfl
  | case3 a =>
    simp only [base64Encode, base64Decode, decodeGroup_one, bind, Except.bind, pure, Except.pure]
    rfl
  | case4 => rfl

/-! ## Accepted texts -/

lemma length_base64Encode (data : Bytes) :
    (base64Encode data).length = 4 * ((data.length + 2) / 3) := by
  induction data using base64Encode.induct with
  | case1 a b c rest ih =>
    simp only [base64Encode, length_cons, ih]
    omega
  | case2 a b => simp [base64Encode]
  | case3 a => simp [base64Encode]
  | case4 => rfl

lemma decodeChar_isOk (c : UInt8) : (decodeChar c).isOk = true ↔ c ∈ padding :: b64Chars := by
  have hall : ∀ i < 256, (decodeChar (.ofNat i)).isOk = true ↔ .ofNat i ∈ padding :: b64Chars := by
    decide +kernel
  simpa using hall c.toNat c.toNat_lt

lemma isOk_bind {ε α β : Type} {x : Except ε α} {f : α → Except ε β}
    {b : Bool} (h : ∀ a, (f a).isOk = b) : (x >>= f).isOk = (x.isOk && b) := by
  cases x with
  | error e => rfl
  | ok a => exact (h a).trans (Bool.true_and b).symm

lemma decodeGroup_isOk (w x y z : UInt8) :
    (decodeGroup w x y z).isOk = ([w, x, y, z].all fun c => (decodeChar c).isOk) := by
  unfold decodeGroup
  simp only [all_cons, all_nil, Bool.and_true]
  refine isOk_bind fun a => ?_
  refine isOk_bind fun b => ?_
  refine isOk_bind fun c => ?_
  rw [isOk_bind (b := true) fun d => rfl, Bool.and_true]

/-- Signs of padding are accepted anywhere. -/
lemma base64Decode_isOk (text : Bytes) :
    (base64Decode text).isOk = true ↔ 4 ∣ text.length ∧ ∀ c ∈ text, c ∈ padding :: b64Chars := by
  induction text using base64Decode.induct with
  | case1 w x y z rest ih =>
    have hlength : 4 ∣ (w :: x :: y :: z :: rest).length ↔ 4 ∣ rest.length := by
      simp only [length_cons]
      omega
    rw [base64Decode, isOk_bind fun group => isOk_bind (b := true) fun output => rfl,
      Bool.and_true, Bool.and_eq_true, ih, decodeGroup_isOk, hlength]
    simp only [all_cons, all_nil, Bool.and_true, Bool.and_eq_true, decodeChar_isOk, forall_mem_cons]
    tauto
  | case2 => simp [base64Decode, Except.isOk, Except.toBool]
  | case3 text hgroup hempty =>
  have hshort : ¬4 ∣ text.length := by
    match text, hgroup, hempty with
    | [_], _, _ => norm_num
    | [_, _], _, _ => norm_num
    | [_, _, _], _, _ => norm_num
    | w :: x :: y :: z :: rest, hgroup, _ => exact (hgroup w x y z rest rfl).elim
    | [], _, hempty => exact (hempty rfl).elim
  simp [base64Decode, hshort, Except.isOk, Except.toBool]

/-- What is encoded is read back; any text of whole groups over the alphabet and the padding is
accepted, and two encodings denote different data. -/
theorem base64_reads_back : (∀ data, base64Decode (base64Encode data) = .ok data ∧
      (base64Encode data).length = 4 * ((data.length + 2) / 3)) ∧
    (∀ text, (base64Decode text).isOk = true ↔
      4 ∣ text.length ∧ ∀ c ∈ text, c ∈ padding :: b64Chars) ∧
    ∀ data data', base64Encode data ≠ base64Encode data' →
      base64Decode (base64Encode data) ≠ base64Decode (base64Encode data') := by
  refine ⟨fun data => ⟨base64Decode_base64Encode data, length_base64Encode data⟩,
    base64Decode_isOk, fun data data' hne heq => hne ?_⟩
  rw [base64Decode_base64Encode, base64Decode_base64Encode] at heq
  rw [Except.ok.inj heq]

/-- Four signs of padding are no encoding, and are read as the byte that `AA==` encodes. -/
theorem padding_alone_decodes : base64Decode [padding, padding, padding, padding] = .ok [0] ∧
      base64Encode [0] = "AA==".toUTF8.toList ∧
      base64Encode [0] ≠ [padding, padding, padding, padding] := by
  refine ⟨by decide, by decide +kernel, by decide +kernel⟩

end

open Relational

/-! ## A read in flight -/

variable {T : Type}

structure Reader where
  wire : Bytes := []
  held : Bytes := []

inductive Progress (T : Type) where
  | more (need : ℕ)
  | done (msg : T)
  | failed (e : ProtocolError)

/-- How far `read_message` is when it has taken these bytes. -/
def progress (serde : Serde T) (held : Bytes) : Progress T :=
  match held with
  | a :: b :: c :: d :: payload =>
    let len := (fromBeBytes a b c d).toNat
    if len > maxMessageSize then .failed (.messageTooLarge len)
    else if payload.length < len then .more (len - payload.length)
    else match serde.fromSlice payload with
      | .ok msg => .done msg
      | .error e => .failed (.json e)
  | _ => .more (4 - held.length)

def Progress.need : Progress T → ℕ
  | .more need => need
  | _ => 0

/-- The read is given the next bytes, as many as there are and at most `n`. -/
def Reader.poll (serde : Serde T) (n : ℕ) (r : Reader) : Reader × Progress T :=
  let size := min n (progress serde r.held).need
  let held := r.held ++ r.wire.take size
  let wire := r.wire.drop size
  match progress serde held with
  | .more need => ({ wire, held }, .more need)
  | result => ({ wire, held := [] }, result)

def Reader.drop (r : Reader) : Reader := { r with held := [] }

def Reader.receive (r : Reader) (frame : Bytes) : Reader := { r with wire := r.wire ++ frame }

/-! ## Both ends -/

inductive AgentResponse where
  | shellData (data : Bytes)
  | shellExit (exitCode : ℤ)
  | error (message : String)
  | other

inductive AgentRequest where
  | shellData (data : Bytes)
  | shellResize (cols rows : ℕ)
  | other

inductive WsMessage where
  | data (text : Bytes)
  | resize (cols rows : ℕ)
  /-- A second start, what does not parse, or a message that is no text. -/
  | ignored
  | close
  deriving DecidableEq

structure Session where
  toHost : Reader := {}
  toAgent : Reader := {}
  hostOpen : Bool := true
  agentOpen : Bool := true
  shown : Bytes := []
  typed : Bytes := []
  output : Bytes := []
  input : Bytes := []

structure Codecs where
  response : Serde AgentResponse
  request : Serde AgentRequest

inductive Action where
  /-- A message of the client comes first; without one the connection is closed. -/
  | client (msg : WsMessage)
  | ping (sent : Bool)
  /-- The daemon's read goes on; `sent` says if the client takes what comes of it. -/
  | hostRead (n : ℕ) (sent : Bool)
  /-- The daemon's read ends with an error or the end of the stream. -/
  | hostLost
  | terminal (chunk : Bytes)
  | agentRead (n : ℕ)
  | agentLost
  /-- The shell exits; `rest` was still in the terminal. -/
  | exit (rest : Bytes) (exitCode : ℤ)

namespace Session
variable (codecs : Codecs) (s : Session)

def appliedTerminalSize (cols rows : ℕ) : ℕ × ℕ :=
  (if cols = 0 then 80 else cols, if rows = 0 then 24 else rows)

def hostWrite (msg : AgentRequest) (typed : Bytes) : Session :=
  match encodeMessage codecs.request msg with
  | .ok frame => { s with toAgent := s.toAgent.receive frame, input := s.input ++ typed }
  | .error _ => { s with hostOpen := false }

def agentSend (msg : AgentResponse) (output : Bytes) : Option Session :=
  match encodeMessage codecs.response msg with
  | .ok frame => some { s with toHost := s.toHost.receive frame, output := s.output ++ output }
  | .error _ => none

def closeHost : Session := { s with hostOpen := false }

def closeAgent : Session := { s with agentOpen := false }

def hostTurns : Session := { s with toHost := s.toHost.drop }

def agentTurns : Session := { s with toAgent := s.toAgent.drop }

def handleClient : WsMessage → Session
  | .data text =>
    match base64Decode text with
    | .ok bytes => s.hostWrite codecs (.shellData (base64Encode bytes)) bytes
    | .error _ => s
  | .resize cols rows =>
    let (cols, rows) := appliedTerminalSize cols rows
    s.hostWrite codecs (.shellResize cols rows) []
  | .ignored => s
  | .close => s.closeHost

/-- An event of the agent; `sent` says if the client takes it. -/
def handleResponse (sent : Bool) : AgentResponse → Session
  | .shellData text =>
    match base64Decode text with
    | .ok data => if sent then { s with shown := s.shown ++ data } else s.closeHost
    | .error _ => s.closeHost
  | .shellExit _ | .error _ | .other => s.closeHost

def handleRequest : AgentRequest → Session
  | .shellData text =>
    match base64Decode text with
    | .ok data => { s with typed := s.typed ++ data }
    | .error _ => s
  | .shellResize _ _ | .other => s

def hostReads (n : ℕ) (sent : Bool) : Session :=
  let (toHost, result) := s.toHost.poll codecs.response n
  let s := { s with toHost }
  match result with
  | .more _ => s
  | .done msg => s.handleResponse sent msg
  | .failed _ => s.closeHost

def agentReads (n : ℕ) : Session :=
  let (toAgent, result) := s.toAgent.poll codecs.request n
  let s := { s with toAgent }
  match result with
  | .more _ => s
  | .done msg => s.handleRequest msg
  | .failed _ => s.closeAgent

/-- The shell has exited: the agent is done once it has sent what was still in the terminal and the
exit code. -/
def finish (rest : Bytes) (exitCode : ℤ) : Session :=
  let s := s.agentTurns.closeAgent
  match if rest = [] then some s else s.agentSend codecs (.shellData (base64Encode rest)) rest with
  | some s => (s.agentSend codecs (.shellExit exitCode) []).getD s
  | none => s

def ptyBuf : ℕ := 4096

def step : Action → Option Session
  | .client msg => if s.hostOpen then some (s.hostTurns.handleClient codecs msg) else none
  | .ping sent =>
    if s.hostOpen then some (if sent then s.hostTurns else s.hostTurns.closeHost) else none
  | .hostRead n sent => if s.hostOpen then some (s.hostReads codecs n sent) else none
  | .hostLost => if s.hostOpen then some s.closeHost else none
  | .terminal chunk =>
    if s.agentOpen ∧ chunk ≠ [] ∧ chunk.length ≤ ptyBuf then
      some ((s.agentTurns.agentSend codecs (.shellData (base64Encode chunk)) chunk).getD
        s.agentTurns.closeAgent)
    else none
  | .agentRead n => if s.agentOpen then some (s.agentReads codecs n) else none
  | .agentLost => if s.agentOpen then some s.closeAgent else none
  | .exit rest exitCode => if s.agentOpen then some (s.finish codecs rest exitCode) else none

end Session

def relay (codecs : Codecs) : Machine Session Action := .ofStep (Session.step codecs)

/-! ## Frames in order -/

def AgentResponse.bytes : AgentResponse → Bytes
  | .shellData text => (base64Decode text).toOption.getD []
  | _ => []

def AgentRequest.bytes : AgentRequest → Bytes
  | .shellData text => (base64Decode text).toOption.getD []
  | _ => []

/-- The read in flight began at the start of a frame, and what was sent is what was handled followed
by the data of the frames that are still to be read. -/
def Relayed (serde : Serde T) (bytes : T → Bytes) (r : Reader) (handled sent : Bytes) : Prop :=
  ∃ msgs frames, List.Forall₂ (fun msg frame => encodeMessage serde msg = .ok frame) msgs frames ∧
    r.held ++ r.wire = frames.flatten ∧ (∀ frame ∈ frames.head?, r.held.length < frame.length) ∧
    sent = handled ++ msgs.flatMap bytes

variable {serde : Serde T} {bytes : T → Bytes} {r : Reader} {handled sent : Bytes} {msg : T} {frame : Bytes} {json : Bytes}

lemma progress_whole (h : Frames serde msg json frame)
    (hserde : serde.Faithful) : progress serde frame = .done msg := by
  have hsmall := h.small
  obtain ⟨a, b, c, d, rfl, hlen⟩ := h.header
  simp only [progress, hlen]
  rw [if_neg (by omega), if_neg (by omega), hserde _ _ h.text]

variable {rest : Bytes}

lemma progress_cut {part : Bytes} (h : Frames serde msg json frame)
    (hpart : part ++ rest = frame) (hshort : part.length < frame.length) :
    ∃ need, progress serde part = .more need ∧ part.length + need ≤ frame.length := by
  have hsmall := h.small
  have hlength := h.length
  obtain ⟨a, b, c, d, hbytes, hlen⟩ := h.header
  rw [hbytes] at hpart
  match part with
  | a' :: b' :: c' :: d' :: payload =>
    simp only [cons_append, cons.injEq] at hpart
    obtain ⟨rfl, rfl, rfl, rfl, rfl⟩ := hpart
    simp only [length_cons] at hshort
    simp only [progress, hlen]
    rw [if_neg (by omega), if_pos (by omega)]
    refine ⟨_, rfl, ?_⟩
    simp only [length_cons]
    omega
  | [] => exact ⟨4, rfl, by simp; omega⟩
  | [_] => exact ⟨3, rfl, by simp; omega⟩
  | [_, _] => exact ⟨2, rfl, by simp; omega⟩
  | [_, _, _] => exact ⟨1, rfl, by simp; omega⟩

lemma relayed_new : Relayed serde bytes {} [] [] := ⟨[], [], .nil, rfl, by simp, rfl⟩

section
variable (h : Relayed serde bytes r handled sent)
include h

lemma Relayed.receive (hframe : encodeMessage serde msg = .ok frame) :
    Relayed serde bytes (r.receive frame) handled (sent ++ bytes msg) := by
  obtain ⟨msgs, frames, hframes, hbytes, hheld, rfl⟩ := h
  refine ⟨msgs ++ [msg], frames ++ [frame], rel_append hframes (.cons hframe .nil), ?_, ?_, by simp⟩
  · simp only [Reader.receive, flatten_append, ← hbytes]
    simp
  cases frames with
  | cons first frames => exact hheld
  | nil =>
    obtain ⟨json, hjson⟩ := encodeMessage_eq_ok.mp hframe
    have hlength := hjson.length
    simp only [flatten_nil, append_eq_nil_iff] at hbytes
    simp [Reader.receive, hbytes.1]
    omega

lemma Relayed.drop (hheld : r.held = []) : Relayed serde bytes r.drop handled sent := by
  have hsame : r.drop = r := by rw [Reader.drop, ← hheld]
  rwa [hsame]

/-- What a step of the read comes to: a part of the next frame, or its message. -/
lemma Relayed.poll (hserde : serde.Faithful) (n : ℕ) : match r.poll serde n with
    | (r', .more _) => Relayed serde bytes r' handled sent
    | (r', .done msg) => Relayed serde bytes r' (handled ++ bytes msg) sent
    | (_, .failed _) => False := by
  obtain ⟨msgs, frames, hframes, hbytes, hheld, rfl⟩ := h
  cases hframes with
  | nil =>
    simp only [flatten_nil, append_eq_nil_iff] at hbytes
    obtain ⟨hnone, hwire⟩ := hbytes
    have hpoll : r.poll serde n = ({}, .more 4) := by
      simp [Reader.poll, hnone, hwire, progress]
    rw [hpoll]
    exact ⟨[], [], .nil, rfl, by simp, by simp⟩
  | @cons msg frame msgs frames hframe hframes =>
  obtain ⟨json, hjson⟩ := encodeMessage_eq_ok.mp hframe
  rw [flatten_cons] at hbytes
  have hshort : r.held.length < frame.length := hheld frame rfl
  obtain ⟨rest, hrest⟩ : r.held <+: frame :=
    prefix_of_prefix_length_le ⟨_, hbytes⟩ (prefix_append _ _) hshort.le
  have hwire : r.wire = rest ++ frames.flatten := by
    rw [← hrest, append_assoc] at hbytes
    exact append_cancel_left hbytes
  obtain ⟨need, hneed, hfits⟩ := progress_cut hjson hrest hshort
  have hlength := congrArg List.length hrest
  rw [length_append] at hlength
  have hsize : min n need ≤ rest.length := by omega
  -- The bytes that are taken are the next ones of this frame.
  have htake : r.wire.take (min n need) = rest.take (min n need) := by
    rw [hwire, take_append_of_le_length hsize]
  have hdrop : r.wire.drop (min n need) = rest.drop (min n need) ++ frames.flatten := by
    rw [hwire, drop_append_of_le_length hsize]
  have hpoll : r.poll serde n =
      match progress serde (r.held ++ rest.take (min n need)) with
      | .more more => (⟨rest.drop (min n need) ++ frames.flatten,
          r.held ++ rest.take (min n need)⟩, .more more)
      | result => (⟨rest.drop (min n need) ++ frames.flatten, []⟩, result) := by
    simp only [Reader.poll, hneed, Progress.need, htake, hdrop]
  rw [hpoll]
  rcases hsize.lt_or_eq with hpart | hwhole
  · have hcut : r.held ++ rest.take (min n need) ++ rest.drop (min n need) = frame := by
      rw [append_assoc, take_append_drop, hrest]
    have hstill : (r.held ++ rest.take (min n need)).length < frame.length := by
      rw [length_append, length_take]
      omega
    obtain ⟨more, hmore, -⟩ := progress_cut hjson hcut hstill
    rw [hmore]
    refine ⟨msg :: msgs, frame :: frames, .cons hframe hframes, ?_, ?_, rfl⟩
    · dsimp only
      rw [flatten_cons, ← append_assoc, hcut]
    · rintro frame' ⟨⟩
      exact hstill
  · rw [hwhole, take_length, drop_length, hrest, progress_whole hjson hserde]
    refine ⟨msgs, frames, hframes, rfl, ?_, by simp⟩
    intro frame' hframe'
    cases hframes with
    | nil => cases hframe'
    | cons hnext _ =>
    cases hframe'
    obtain ⟨json', hjson'⟩ := encodeMessage_eq_ok.mp hnext
    have := hjson'.length
    simp
    omega

end

/-! ## Sessions -/

structure InStep (codecs : Codecs) (s : Session) : Prop where
  toHost : s.hostOpen = true → Relayed codecs.response AgentResponse.bytes s.toHost s.shown s.output
  toAgent : s.agentOpen = true → Relayed codecs.request AgentRequest.bytes s.toAgent s.typed s.input
  shown : s.shown <+: s.output
  typed : s.typed <+: s.input

variable {codecs : Codecs} {s s' : Session}

lemma inStep_new : InStep codecs {} :=
  ⟨fun _ => relayed_new, fun _ => relayed_new, prefix_rfl, prefix_rfl⟩

variable {output : Bytes} {n : ℕ}

namespace InStep

section
variable (h : InStep codecs s)
include h

lemma closeHost : InStep codecs s.closeHost := ⟨nofun, h.toAgent, h.shown, h.typed⟩

lemma closeAgent : InStep codecs s.closeAgent := ⟨h.toHost, nofun, h.shown, h.typed⟩

lemma hostTurns (hheld : s.toHost.held = []) : InStep codecs s.hostTurns :=
  ⟨fun hopen => (h.toHost hopen).drop hheld, h.toAgent, h.shown, h.typed⟩

lemma agentTurns (hheld : s.toAgent.held = []) : InStep codecs s.agentTurns :=
  ⟨h.toHost, fun hopen => (h.toAgent hopen).drop hheld, h.shown, h.typed⟩

lemma hostWrite {msg : AgentRequest} {typed : Bytes}
    (hmsg : msg.bytes = typed) : InStep codecs (s.hostWrite codecs msg typed) := by
  unfold Session.hostWrite
  split
  · rename_i frame hframe
    refine ⟨h.toHost, fun hopen => ?_, h.shown, h.typed.trans (prefix_append _ _)⟩
    exact hmsg ▸ (h.toAgent hopen).receive hframe
  · exact h.closeHost

lemma agentSend {msg : AgentResponse} (hmsg : msg.bytes = output) (hsend : s.agentSend codecs msg output = some s') :
    InStep codecs s' := by
  unfold Session.agentSend at hsend
  split at hsend
  · rename_i frame hframe
    cases hsend
    refine ⟨fun hopen => ?_, h.toAgent, h.shown.trans (prefix_append _ _), h.typed⟩
    exact hmsg ▸ (h.toHost hopen).receive hframe
  · cases hsend

lemma agentSend_getD {msg : AgentResponse} (hmsg : msg.bytes = output) (hother : InStep codecs s') :
    InStep codecs ((s.agentSend codecs msg output).getD s') := by
  cases hsend : s.agentSend codecs msg output with
  | none => exact hother
  | some t => exact h.agentSend hmsg hsend

lemma handleClient {msg : WsMessage} : InStep codecs (s.handleClient codecs msg) := by
  cases msg with
  | data text =>
    simp only [Session.handleClient]
    split
    · exact h.hostWrite (by simp [AgentRequest.bytes, Except.toOption])
    · exact h
  | resize cols rows => exact h.hostWrite rfl
  | ignored => exact h
  | close => exact h.closeHost

lemma hostReads {sent : Bool} (hserde : codecs.response.Faithful)
    (hopen : s.hostOpen = true) : InStep codecs (s.hostReads codecs n sent) := by
  have hpoll := (h.toHost hopen).poll hserde n
  unfold Session.hostReads
  generalize s.toHost.poll codecs.response n = polled at hpoll
  obtain ⟨toHost, result⟩ := polled
  cases result with
  | failed e => exact hpoll.elim
  | more need => exact ⟨fun _ => hpoll, h.toAgent, h.shown, h.typed⟩
  | done msg =>
  have hclosed : InStep codecs { s with toHost, hostOpen := false } :=
    ⟨nofun, h.toAgent, h.shown, h.typed⟩
  cases msg with
  | shellData text =>
    simp only [Session.handleResponse]
    split
    · rename_i data hdata
      have hbytes : (AgentResponse.shellData text).bytes = data := by
        simp [AgentResponse.bytes, hdata, Except.toOption]
      simp only [hbytes] at hpoll
      split
      · refine ⟨fun _ => hpoll, h.toAgent, ?_, h.typed⟩
        obtain ⟨msgs, frames, -, -, -, hsent⟩ := hpoll
        exact ⟨_, hsent.symm⟩
      · exact hclosed
    · exact hclosed
  | shellExit exitCode => exact hclosed
  | error message => exact hclosed
  | other => exact hclosed

lemma agentReads (hserde : codecs.request.Faithful)
    (hopen : s.agentOpen = true) : InStep codecs (s.agentReads codecs n) := by
  have hpoll := (h.toAgent hopen).poll hserde n
  unfold Session.agentReads
  generalize s.toAgent.poll codecs.request n = polled at hpoll
  obtain ⟨toAgent, result⟩ := polled
  cases result with
  | failed e => exact hpoll.elim
  | more need => exact ⟨h.toHost, fun _ => hpoll, h.shown, h.typed⟩
  | done msg =>
  have hsame (hnone : msg.bytes = []) : InStep codecs { s with toAgent } := by
    refine ⟨h.toHost, fun _ => ?_, h.shown, h.typed⟩
    simpa only [hnone, append_nil] using hpoll
  cases msg with
  | shellData text =>
    simp only [Session.handleRequest]
    split
    · rename_i data hdata
      have hbytes : (AgentRequest.shellData text).bytes = data := by
        simp [AgentRequest.bytes, hdata, Except.toOption]
      simp only [hbytes] at hpoll
      refine ⟨h.toHost, fun _ => hpoll, h.shown, ?_⟩
      obtain ⟨msgs, frames, -, -, -, hsent⟩ := hpoll
      exact ⟨_, hsent.symm⟩
    · rename_i e he
      exact hsame (by simp [AgentRequest.bytes, he, Except.toOption])
  | shellResize cols rows => exact hsame rfl
  | other => exact hsame rfl

lemma finish {exitCode : ℤ} : InStep codecs (s.finish codecs rest exitCode) := by
  -- The agent reads no more, so it does not matter what its last read had taken.
  have hdone : InStep codecs s.agentTurns.closeAgent := ⟨h.toHost, nofun, h.shown, h.typed⟩
  simp only [Session.finish]
  split
  · rename_i flushed hflushed
    have hrest : InStep codecs flushed := by
      split_ifs at hflushed
      · cases hflushed
        exact hdone
      · exact hdone.agentSend (by simp [AgentResponse.bytes, Except.toOption]) hflushed
    exact hrest.agentSend_getD rfl hrest
  · exact hdone

end

end InStep

/-- A read that has taken part of a frame is not dropped for something else. -/
def Patient (s : Session) : Action → Prop
  | .client msg => msg = .close ∨ s.toHost.held = []
  | .ping _ => s.toHost.held = []
  | .terminal _ => s.toAgent.held = []
  | _ => True

instance (s : Session) : (a : Action) → Decidable (Patient s a)
  | .client msg => inferInstanceAs (Decidable (msg = .close ∨ s.toHost.held = []))
  | .ping _ => inferInstanceAs (Decidable (s.toHost.held = []))
  | .terminal _ => inferInstanceAs (Decidable (s.toAgent.held = []))
  | .hostRead _ _ | .hostLost | .agentRead _ | .agentLost | .exit _ _ => .isTrue trivial

lemma step_inStep {a : Action} (hresponse : codecs.response.Faithful)
    (hrequest : codecs.request.Faithful) (h : InStep codecs s) (hpatient : Patient s a)
    (hstep : s.step codecs a = some s') : InStep codecs s' := by
  cases a <;> obtain ⟨hopen, ⟨⟩⟩ := Option.ite_none_right_eq_some.mp hstep
  case client msg =>
    rcases hpatient with rfl | hheld
    · exact ⟨nofun, h.toAgent, h.shown, h.typed⟩
    · exact (h.hostTurns hheld).handleClient
  case ping sent =>
    split_ifs
    · exact h.hostTurns hpatient
    · exact (h.hostTurns hpatient).closeHost
  case hostRead n sent =>
    exact h.hostReads hresponse hopen
  case hostLost =>
    exact h.closeHost
  case terminal chunk =>
    have hturned := h.agentTurns hpatient
    exact hturned.agentSend_getD (by simp [AgentResponse.bytes, Except.toOption]) hturned.closeAgent
  case agentRead n =>
    exact h.agentReads hrequest hopen
  case agentLost =>
    exact h.closeAgent
  case exit rest exitCode =>
    exact h.finish

/-- As long as no read is dropped within a frame, client and terminal get what was framed for them,
in order and once, and every read begins at the start of a frame. -/
theorem patient_relay_in_step (codecs : Codecs) (hresponse : codecs.response.Faithful)
    (hrequest : codecs.request.Faithful) (actions : List Action) (s : Session)
    (h : ((relay codecs).when Patient).Run {} actions s) : InStep codecs s :=
  h.invariant inStep_new fun _ _ _ hs hstep => step_inStep hresponse hrequest hs hstep.2 hstep.1

/-! ## Shell data on the wire -/

def dataFront : Bytes :=
  "\x7b\"type\":\"ShellData\",\"data\":\"".toList.map fun c => .ofNat c.toNat

def dataBack : Bytes := [34, 125]

/-- `serde_json` on messages with shell data, whose text needs no escapes. -/
def dataSerde (data? : T → Option Bytes) (make : Bytes → T) : Serde T where
  toVec msg := match data? msg with
    | some data => .ok (dataFront ++ data ++ dataBack)
    | none => .error "no shell data"
  fromSlice json :=
    if json.take dataFront.length = dataFront then
      .ok (make ((json.drop dataFront.length).take (json.length - dataFront.length - dataBack.length)))
    else .error "no shell data"

lemma dataSerde_faithful {data? : T → Option Bytes} {make : Bytes → T}
    (h : ∀ msg data, data? msg = some data → make data = msg) : (dataSerde data? make).Faithful := by
  intro msg json hjson
  simp only [dataSerde] at hjson ⊢
  split at hjson
  · rename_i data hdata
    cases hjson
    have hlength : (dataFront ++ data ++ dataBack).length - dataFront.length - dataBack.length =
        data.length := by
      simp only [length_append]
      omega
    rw [hlength, append_assoc, take_left, if_pos rfl, drop_left, take_left, h msg data hdata]
  · cases hjson

def shellCodecs : Codecs where
  response := dataSerde (fun | .shellData data => some data | _ => none) .shellData
  request := dataSerde (fun | .shellData data => some data | _ => none) .shellData

lemma shellCodecs_response : shellCodecs.response.Faithful := by
  refine dataSerde_faithful fun msg data h => ?_
  cases msg with
  | shellData text =>
    cases h
    rfl
  | _ => cases h

lemma shellCodecs_request : shellCodecs.request.Faithful := by
  refine dataSerde_faithful fun msg data h => ?_
  cases msg with
  | shellData text =>
    cases h
    rfl
  | _ => cases h

/-- A key typed and a character put out, with the reads in pieces. -/
theorem typed_key_relayed : ∃ s, ((relay shellCodecs).when Patient).Run {}
        [.client (.data [81, 81, 61, 61]), .ping true, .terminal [66], .hostRead 3 true,
          .agentRead 4, .hostRead 4 true, .hostRead 100 true, .agentRead 7, .agentRead 100] s ∧
      s.shown = [66] ∧ s.typed = [65] ∧ InStep shellCodecs s := by
  obtain ⟨s, hrun, hshown, htyped⟩ : ∃ s, ((relay shellCodecs).when Patient).Run {}
      [.client (.data [81, 81, 61, 61]), .ping true, .terminal [66], .hostRead 3 true,
        .agentRead 4, .hostRead 4 true, .hostRead 100 true, .agentRead 7, .agentRead 100] s ∧
      s.shown = [66] ∧ s.typed = [65] :=
    Machine.exists_run_when (fun s a => decide (Patient s a)) (fun _ _ => of_decide_eq_true)
      (by decide +kernel)
  exact ⟨s, hrun, hshown, htyped,
    patient_relay_in_step shellCodecs shellCodecs_response shellCodecs_request _ s hrun⟩

/-- A ping comes after one byte of a frame: the next read takes the bytes after it for a length, and
waits for data that nobody sent while the client has been shown nothing. -/
theorem ping_splits_frame : ∃ s, (relay shellCodecs).Run {}
        [.terminal [65], .hostRead 1 true, .ping true, .hostRead 4 true, .hostRead 100 true] s ∧
      s.hostOpen = true ∧ s.output = [65] ∧ s.shown = [] ∧ s.toHost.wire = [] ∧
      ¬ InStep shellCodecs s := by
  obtain ⟨s, hrun, hopen, houtput, hshown, hwire, hheld⟩ : ∃ s, (relay shellCodecs).Run {}
      [.terminal [65], .hostRead 1 true, .ping true, .hostRead 4 true, .hostRead 100 true] s ∧
      s.hostOpen = true ∧ s.output = [65] ∧ s.shown = [] ∧ s.toHost.wire = [] ∧ s.toHost.held ≠ [] :=
    Machine.exists_run_ofStep (by decide +kernel)
  refine ⟨s, hrun, hopen, houtput, hshown, hwire, fun hstep => ?_⟩
  obtain ⟨msgs, frames, -, hbytes, hshort, -⟩ := hstep.toHost hopen
  rw [hwire, append_nil] at hbytes
  cases frames with
  | nil => exact hheld hbytes
  | cons frame frames =>
    have hlength := hshort frame rfl
    rw [hbytes, flatten_cons, length_append] at hlength
    omega

end Husker.Wire
