import Samwise.Lib.LittleEndian
import Samwise.Lib.Memory

/-!
# Samwise — persistent data in flash

`src/drivers/flash/flash.c`: the record of three words that survives a reboot, its layout in
the first page of its flash sector, and the functions that load and update it. Flash is a
byte memory with two operations, erase and program. Every update of the record is one
`write_persistent_data`, an erase followed by a program; the functions below give the record
they write, and `writePersistentData` the operations it takes.
-/

namespace Samwise

open LittleEndian Memory

/-! ## The record -/

/-- `persistent_data_t`. -/
structure PersistentData where
  marker : UInt32
  rebootCounter : UInt32
  burnWireAttempts : UInt32
deriving DecidableEq, Repr

/-- `INIT_MARKER`. -/
def initMarker : UInt32 := 0xABCDABCD

/-- The struct as it lies in memory. -/
def PersistentData.bytes (d : PersistentData) : List UInt8 :=
  le32 d.marker ++ le32 d.rebootCounter ++ le32 d.burnWireAttempts

/-- The struct that lies at the front of `bs`. -/
def PersistentData.ofBytes (bs : List UInt8) : PersistentData where
  marker := ofLe32 bs
  rebootCounter := ofLe32 (bs.drop 4)
  burnWireAttempts := ofLe32 (bs.drop 8)

@[simp] theorem PersistentData.length_bytes (d : PersistentData) : d.bytes.length = 12 := by
  simp [PersistentData.bytes]

/-- Reading a record back from its own bytes. -/
theorem PersistentData.ofBytes_bytes (d : PersistentData) : ofBytes d.bytes = d := by
  have hdrop4 : d.bytes.drop 4 = le32 d.rebootCounter ++ le32 d.burnWireAttempts := by
    rw [PersistentData.bytes, List.append_assoc]
    exact List.drop_left' (length_le32 d.marker)
  have hdrop8 : d.bytes.drop 8 = le32 d.burnWireAttempts :=
    List.drop_left' (by simp)
  have hmarker : ofLe32 d.bytes = d.marker := by
    rw [PersistentData.bytes, List.append_assoc, ofLe32_le32_append]
  rw [ofBytes, hmarker, hdrop4, hdrop8, ofLe32_le32_append, ofLe32_le32]

/-! ## Flash memory -/

/-- `FLASH_TARGET_OFFSET`. -/
def flashTargetOffset : Nat := 0x00079000

/-- `FLASH_SECTOR_SIZE` of the Pico SDK. -/
def flashSectorSize : Nat := 4096

/-- `FLASH_PAGE_SIZE` of the Pico SDK. -/
def flashPageSize : Nat := 256

@[simp] theorem flashSectorSize_eq : flashSectorSize = 4096 := rfl
@[simp] theorem flashPageSize_eq : flashPageSize = 256 := rfl

/-- The flash, seen from `XIP_BASE`. -/
abbrev Flash := Mem

/-- An operation on flash. `flash_range_erase` sets every byte of its range to `0xFF`,
`flash_range_program` stores its bytes. -/
inductive FlashOp where
  | erase (off n : Nat)
  | program (off : Nat) (bs : List UInt8)

def FlashOp.apply (m : Flash) : FlashOp → Flash
  | .erase off n => fill m off n 0xFF
  | .program off bs => write m off bs

/-- Operations, one after the other. -/
def applyOps (m : Flash) (ops : List FlashOp) : Flash := ops.foldl FlashOp.apply m

/-- What `flash_range_program` finds in RAM behind the struct it is pointed at: it stores a
whole page, the struct is twelve bytes of it. -/
abbrev Behind := Vector UInt8 244

/-- `read_persistent_data`. -/
def readPersistentData (m : Flash) : PersistentData :=
  PersistentData.ofBytes (read m flashTargetOffset 12)

/-- `write_persistent_data`: the flash operations, in order. -/
def writePersistentData (d : PersistentData) (behind : Behind) : List FlashOp :=
  [.erase flashTargetOffset flashSectorSize,
   .program flashTargetOffset ((d.bytes ++ behind.toList).take flashPageSize)]

/-! ## The record each function writes -/

/-- `init_persistent_data`: the record it writes back and returns. -/
def initPersistentData (flashData : PersistentData) : PersistentData :=
  if flashData.marker ≠ initMarker then
    { marker := initMarker, rebootCounter := 0, burnWireAttempts := 0 }
  else flashData

/-- `increment_reboot_counter`. -/
def incrementRebootCounter (flashData : PersistentData) : PersistentData :=
  { flashData with rebootCounter := flashData.rebootCounter + 1 }

/-- `increment_burn_wire_attempts`. -/
def incrementBurnWireAttempts (flashData : PersistentData) : PersistentData :=
  { flashData with burnWireAttempts := flashData.burnWireAttempts + 1 }

/-- `reset_burn_wire_attempts`. -/
def resetBurnWireAttempts (flashData : PersistentData) : PersistentData :=
  { flashData with burnWireAttempts := 0 }

/-- The functions that write the record. -/
inductive Update where
  | init
  | incrementRebootCounter
  | incrementBurnWireAttempts
  | resetBurnWireAttempts
deriving DecidableEq, Repr

/-- The record an update writes, from the one it reads. -/
def Update.record (u : Update) (flashData : PersistentData) : PersistentData :=
  match u with
  | .init => initPersistentData flashData
  | .incrementRebootCounter => Samwise.incrementRebootCounter flashData
  | .incrementBurnWireAttempts => Samwise.incrementBurnWireAttempts flashData
  | .resetBurnWireAttempts => Samwise.resetBurnWireAttempts flashData

@[simp] theorem initPersistentData_marker (d : PersistentData) :
    (initPersistentData d).marker = initMarker := by
  unfold initPersistentData
  split
  · rfl
  · next h => exact not_not.mp h

/-- An initialised record is loaded as it is. -/
theorem initPersistentData_of_marker {d : PersistentData} (h : d.marker = initMarker) :
    initPersistentData d = d := by
  rw [initPersistentData, if_neg (not_not.mpr h)]

/-- Loading twice is loading once. -/
@[simp] theorem initPersistentData_idem (d : PersistentData) :
    initPersistentData (initPersistentData d) = initPersistentData d :=
  initPersistentData_of_marker (initPersistentData_marker d)

/-! ## What a write leaves, and what half of one leaves -/

/-- After the whole write, the record is there. -/
theorem readPersistentData_write (m : Flash) (d : PersistentData) (behind : Behind) :
    readPersistentData (applyOps m (writePersistentData d behind)) = d := by
  have hlen : 12 ≤ ((d.bytes ++ behind.toList).take flashPageSize).length := by simp
  have htake : ((d.bytes ++ behind.toList).take flashPageSize).take 12 = d.bytes := by
    rw [List.take_take]
    exact List.take_left' (by simp)
  show PersistentData.ofBytes (read (write (fill m flashTargetOffset flashSectorSize 0xFF)
    flashTargetOffset _) flashTargetOffset 12) = d
  rw [read_write _ _ hlen, htake, PersistentData.ofBytes_bytes]

/-- After the erase alone, there is no record: every word reads as erased flash. -/
theorem readPersistentData_erased (m : Flash) :
    readPersistentData (FlashOp.apply m (.erase flashTargetOffset flashSectorSize))
      = ⟨0xFFFFFFFF, 0xFFFFFFFF, 0xFFFFFFFF⟩ := by
  show PersistentData.ofBytes (read (fill m flashTargetOffset flashSectorSize 0xFF)
    flashTargetOffset 12) = _
  rw [read_fill _ _ _ (by simp)]
  decide

/-! ## Where operations reach -/

/-- The offsets an operation erases or programs. -/
def FlashOp.touches (i : Nat) : FlashOp → Prop
  | .erase off n => off ≤ i ∧ i < off + n
  | .program off bs => off ≤ i ∧ i < off + bs.length

theorem FlashOp.apply_of_not_touches {m : Flash} {op : FlashOp} {i : Nat} (h : ¬ op.touches i) :
    op.apply m i = m i := by
  cases op with
  | erase off n =>
      have hout : i < off ∨ off + n ≤ i := by
        unfold FlashOp.touches at h
        omega
      exact fill_of_notMem hout
  | program off bs =>
      have hout : i < off ∨ off + bs.length ≤ i := by
        unfold FlashOp.touches at h
        omega
      exact hout.elim write_of_lt write_of_ge

/-- A byte that no operation reaches is as it was. -/
theorem applyOps_of_not_touches {m : Flash} {ops : List FlashOp} {i : Nat}
    (h : ∀ op ∈ ops, ¬ op.touches i) : applyOps m ops i = m i := by
  induction ops generalizing m with
  | nil => rfl
  | cons op ops ih =>
      show applyOps (op.apply m) ops i = m i
      rw [ih fun op' hop' => h op' (List.mem_cons_of_mem op hop')]
      exact FlashOp.apply_of_not_touches (h op List.mem_cons_self)

end Samwise
