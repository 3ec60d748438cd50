import Husker.Relational.Inodes
import Husker.Store.Schema

/-! # Verified copies of boot inputs

Pieces of zeros are sought over, and the length of the copy is set once all is read.
-/
namespace Husker.Job
open Relational Store List

/-- One read: at least a byte and at most the buffer. -/
abbrev Piece := { p : Bytes // 0 < p.length ∧ p.length ≤ 1024 * 1024 }

/-- What `metadata` said when the input was opened, and what the reads gave until one gave nothing. -/
structure Input where
  isFile : Bool
  len : ℕ
  reads : List Piece

/-- The operations on the two files; those of the loop by the bytes copied before. -/
inductive FileOp
  | open | metadata | create | read (copied : ℕ) | advance (copied : ℕ)
  | flush | setLen | syncAll | setPermissions | syncMode

structure Copy where
  copied : ℕ
  hashed : Bytes
  output : Bytes
  offset : ℕ

namespace Copy

variable (c : Copy)

def seek (count : ℕ) : Copy := { c with offset := c.offset + count }

def writeAll (data : Bytes) : Copy :=
  { c with output := Inodes.writeAt 0 c.offset data c.output, offset := c.offset + data.length }

def setLen (len : ℕ) : Bytes := c.output.take len ++ List.replicate (len - c.output.length) 0

end Copy

section
variable (sha256 : Bytes → Bytes) (io : FileOp → Except String Unit) (limit : ℕ)

def copyPiece (c : Copy) (p : Piece) : Except String Copy := do
  io (.read c.copied)
  let next := { c with copied := c.copied + p.val.length, hashed := c.hashed ++ p.val }
  ensure (next.copied ≤ limit) "pinned boot input grew beyond limit"
  io (.advance c.copied)
  pure (if p.val.all (· = 0) then next.seek p.val.length else next.writeAll p.val)

def copyVerified (source : Input) (expected : String) : Except String Bytes := do
  (io .open).mapError ("open pinned boot input: " ++ ·)
  io .metadata
  ensure (source.isFile ∧ source.len ≠ 0 ∧ source.len ≤ limit)
    "pinned boot input is not a bounded nonempty regular file"
  (io .create).mapError ("create private boot input: " ++ ·)
  let c ← source.reads.foldlM (copyPiece io limit) ⟨0, [], [], 0⟩
  io (.read c.copied)
  ensure (c.copied = source.len ∧ "sha256:" ++ hexEncode (sha256 c.hashed) = expected)
    "pinned boot input size or digest mismatch"
  for op in [FileOp.flush, .setLen, .syncAll, .setPermissions, .syncMode] do io op
  pure (c.setLen c.copied)

end

/-- The output is what was hashed once the hole at its end is filled. -/
structure Copy.Sparse (c : Copy) : Prop where
  copied : c.copied = c.hashed.length
  offset : c.offset = c.copied
  hashed : c.hashed = c.output ++ List.replicate (c.offset - c.output.length) 0

namespace Copy.Sparse

variable {c c' : Copy} {io : FileOp → Except String Unit} {limit : ℕ} {p : Piece}

lemma output_le (h : c.Sparse) : c.output.length ≤ c.offset := by
  have hlen := congrArg List.length h.hashed
  rw [← h.copied, ← h.offset, length_append] at hlen
  omega

lemma setLen (h : c.Sparse) : c.setLen c.copied = c.hashed := by
  rw [Copy.setLen, ← h.offset, take_of_length_le h.output_le, ← h.hashed]

lemma copyPiece (h : c.Sparse) (hstep : copyPiece io limit c p = .ok c') :
    c'.Sparse ∧ c'.hashed = c.hashed ++ p.val := by
  have hle := h.output_le
  simp only [Job.copyPiece, eq_ok] at hstep
  obtain ⟨-, -, -, -, -, -, rfl⟩ := hstep
  split
  case isTrue hzero =>
    have hp : p.val = List.replicate p.val.length 0 := by
      apply eq_replicate_of_mem
      simpa using hzero
    refine ⟨⟨by simp [seek, h.copied], by simp [seek, h.offset], ?_⟩, rfl⟩
    simp only [seek]
    rw [hp, h.hashed, append_assoc, replicate_append_replicate, length_replicate,
      Nat.sub_add_comm hle]
  case isFalse =>
    refine ⟨⟨by simp [writeAll, h.copied], by simp [writeAll, h.offset], ?_⟩, rfl⟩
    have hdrop : c.output.drop (c.offset + p.val.length) = [] :=
      drop_eq_nil_of_le (hle.trans (Nat.le_add_right ..))
    simp only [writeAll, Inodes.writeAt, take_of_length_le hle, ← h.hashed, hdrop]
    simp [h.offset, h.copied]

lemma copyPieces {ps : List Piece} (h : c.Sparse)
    (hloop : ps.foldlM (Job.copyPiece io limit) c = .ok c') :
    c'.Sparse ∧ c'.hashed = c.hashed ++ (ps.map (·.val)).flatten := by
  induction ps generalizing c with
  | nil =>
    cases hloop
    exact ⟨h, by simp⟩
  | cons p ps ih =>
    rw [foldlM_cons, bind_eq_ok] at hloop
    obtain ⟨c₁, hp, hloop⟩ := hloop
    have ⟨h₁, hhashed⟩ := h.copyPiece hp
    have ⟨h', hhashed'⟩ := ih h₁ hloop
    exact ⟨h', by rw [hhashed', hhashed]; simp⟩

end Copy.Sparse

theorem copyVerified_exact {sha256 : Bytes → Bytes} {io : FileOp → Except String Unit} {limit : ℕ}
    {source : Input} {expected : String} {file : Bytes}
    (h : copyVerified sha256 io limit source expected = .ok file) :
    file = (source.reads.map (·.val)).flatten ∧ file.length = source.len ∧
      "sha256:" ++ hexEncode (sha256 file) = expected := by
  simp only [copyVerified, eq_ok] at h
  obtain ⟨-, -, -, -, -, -, -, -, c, hloop, -, -, -, ⟨hlen, hdigest⟩, -, -, rfl⟩ := h
  have ⟨hc, hread⟩ := Copy.Sparse.copyPieces ⟨rfl, rfl, rfl⟩ hloop
  rw [hc.setLen]
  exact ⟨hread, hc.copied.symm.trans hlen, hdigest⟩

/-- The SHA-256 of the bytes 7, 0, 0. -/
def holeSum : Bytes :=
  [99, 220, 15, 20, 47, 60, 115, 78, 16, 246, 104, 203, 40, 8, 53, 53, 244, 113, 89, 230, 76, 53, 10,
    11, 100, 100, 22, 232, 71, 162, 218, 47]

def holeCopy : Except String Bytes :=
  copyVerified (fun _ => holeSum) (fun _ => .ok ()) 4
    ⟨true, 3, [⟨[7], by decide⟩, ⟨[0, 0], by decide⟩]⟩
    "sha256:63dc0f142f3c734e10f668cb28083535f47159e64c350a0b646416e847a2da2f"

theorem hole_copied : holeCopy = .ok [7, 0, 0] ∧ [7, 0, 0].length = 3 :=
  have h : holeCopy = .ok [7, 0, 0] := by decide
  ⟨h, (copyVerified_exact h).2.1⟩

end Husker.Job
