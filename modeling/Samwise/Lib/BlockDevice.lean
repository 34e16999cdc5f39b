import Samwise.Lib.Memory
import Samwise.Lib.Service

/-!
# Block devices that are written in place

What a file system gets from a block device over a memory that needs no erase. A device takes calls
that read, program and erase parts of numbered blocks. What is known of its bytes is `Contents`: a
byte has the value that was last programmed, and an erase changes none. A device that implements
`Geometry.spec` lets every call succeed, and every read return what is known.

For a device that keeps its blocks one behind the other in a memory, the relation between contents
and states is `Contents.HeldBy`.
-/

namespace BlockDevice

open Memory

structure Geometry where
  blockSize : Nat
  blockCount : Nat

/-- A call of the device. A read gets a buffer of the size that is to be read. -/
inductive Call where
  | read (block off : Nat) (buffer : List UInt8)
  | prog (block off : Nat) (bytes : List UInt8)
  | erase (block : Nat)
  | sync

/-- What a call may name. -/
def Geometry.Allows (g : Geometry) : Call → Prop
  | .read block off buffer => block < g.blockCount ∧ off + buffer.length ≤ g.blockSize
  | .prog block off bytes => block < g.blockCount ∧ off + bytes.length ≤ g.blockSize
  | .erase block => block < g.blockCount
  | .sync => True

instance (g : Geometry) (call : Call) : Decidable (g.Allows call) := by
  unfold Geometry.Allows
  split <;> infer_instance

/-- An error code, 0 for none, and what the buffer holds behind a read. -/
structure Reply where
  error : Int
  buffer : List UInt8
deriving DecidableEq

/-- What is known of the byte at an offset of a block. -/
abbrev Contents := Nat → Nat → Option UInt8

/-- What is known behind a call. An erase leaves the block as it was. -/
def Contents.after (c : Contents) : Call → Contents
  | .prog block off bytes => fun b i =>
      if b = block ∧ off ≤ i ∧ i < off + bytes.length then bytes[i - off]? else c b i
  | .read _ _ _ | .erase _ | .sync => c

/-- The reply that is expected. -/
def Contents.Expects (c : Contents) : Call → Reply → Prop
  | .read block off buffer, reply => reply.error = 0 ∧ reply.buffer.length = buffer.length ∧
      ∀ i < buffer.length, ∀ v, c block (off + i) = some v → reply.buffer[i]? = some v
  | _, reply => reply.error = 0

/-- A block device that knows no more than its contents. -/
def Geometry.spec (g : Geometry) : Service.Spec Contents Call Reply where
  Permits _ := g.Allows
  Answers := Contents.Expects
  after := Contents.after

/-! ## Blocks in a memory -/

variable {g : Geometry}

/-- The blocks lie in the memory one behind the other. -/
def Contents.HeldBy (g : Geometry) (c : Contents) (m : Mem) : Prop :=
  ∀ block < g.blockCount, ∀ off < g.blockSize, ∀ v, c block off = some v →
    m (block * g.blockSize + off) = v

/-- A byte of a block is in the memory of the device. -/
theorem address_lt {block off n : Nat} (hblock : block < g.blockCount)
    (hoff : off + n ≤ g.blockSize) :
    block * g.blockSize + off + n ≤ g.blockCount * g.blockSize := by
  have hnext : (block + 1) * g.blockSize ≤ g.blockCount * g.blockSize :=
    Nat.mul_le_mul_right _ hblock
  rw [Nat.succ_mul] at hnext
  omega

/-- Two blocks share no address. -/
theorem address_lt_of_lt {block block' off off' : Nat} (hlt : block < block')
    (hoff : off < g.blockSize) : block * g.blockSize + off < block' * g.blockSize + off' := by
  have hnext : (block + 1) * g.blockSize ≤ block' * g.blockSize := Nat.mul_le_mul_right _ hlt
  rw [Nat.succ_mul] at hnext
  omega

theorem Contents.HeldBy.expects_read {c : Contents} {m : Mem} (h : c.HeldBy g m)
    {block off : Nat} {buffer : List UInt8} (hallows : g.Allows (.read block off buffer)) :
    c.Expects (.read block off buffer)
      ⟨0, Memory.read m (block * g.blockSize + off) buffer.length⟩ := by
  obtain ⟨hblock, hoff⟩ := hallows
  refine ⟨rfl, length_read _ _ _, fun i hi v hv => ?_⟩
  rw [getElem?_read, if_pos hi, Nat.add_assoc, h block hblock (off + i) (by omega) v hv]

theorem Contents.HeldBy.prog {c : Contents} {m : Mem} (h : c.HeldBy g m) {block off : Nat}
    {bytes : List UInt8} (hallows : g.Allows (.prog block off bytes)) :
    (c.after (.prog block off bytes)).HeldBy g
      (Memory.write m (block * g.blockSize + off) bytes) := by
  obtain ⟨hblock, hoff⟩ := hallows
  intro b hb i hi v hv
  unfold Contents.after at hv
  dsimp only at hv
  split at hv
  · next hin =>
    obtain ⟨rfl, hle, hlt⟩ := hin
    have haddress : b * g.blockSize + i = b * g.blockSize + off + (i - off) := by omega
    rw [haddress, write_add (by omega)]
    rw [List.getElem?_eq_getElem (by omega)] at hv
    exact Option.some.inj hv
  · next hout =>
    have hold : m (b * g.blockSize + i) = v := h b hb i hi v hv
    rw [← hold]
    -- the byte lies in another block, before or behind what is programmed
    rcases Nat.lt_trichotomy b block with hlt | rfl | hgt
    · exact write_of_lt (address_lt_of_lt hlt hi)
    · by_cases hle : off ≤ i
      · exact write_of_ge (by omega)
      · exact write_of_lt (by omega)
    · refine write_of_ge ?_
      have hnext : (block + 1) * g.blockSize ≤ b * g.blockSize := Nat.mul_le_mul_right _ hgt
      rw [Nat.succ_mul] at hnext
      omega

end BlockDevice
