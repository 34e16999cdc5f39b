import Samwise.Drivers.Mram

/-!
# Samwise — the MRAM of the tests

`mram_mock.c`, which takes the driver's place in the tests: an array with a flag. The array has the
size of the chip, and an access outside of it is `none`. It knows no sleep, it refuses what lies
outside of the chip where the chip goes on at its first cell, and its status is the flag. For every
other call, it does what the driver does.
-/

namespace Samwise

open Memory Buffer

/-- `mock_mram` and `write_enabled`. -/
structure MockMram where
  memory : Mem
  writeEnabled : Bool

namespace MockMram

/-- An access to `length` bytes of `mock_mram`. -/
def access {α : Type} (address : UInt32) (length : Nat) (result : α) : Option α :=
  if address.toNat + length ≤ mramSize then some result else none

/-- `mram_init`. -/
def mramInit (mock : MockMram) : MockMram := { mock with writeEnabled := false }

/-- `mram_read_status`. -/
def mramReadStatus (mock : MockMram) : UInt8 := if mock.writeEnabled = true then 0x02 else 0x00

/-- `mram_write_enable`. -/
def mramWriteEnable (mock : MockMram) : MockMram := { mock with writeEnabled := true }

/-- `mram_write_disable`. -/
def mramWriteDisable (mock : MockMram) : MockMram := { mock with writeEnabled := false }

/-- `mram_sleep`. -/
def mramSleep (mock : MockMram) : MockMram := mock

/-- `mram_wake`. -/
def mramWake (mock : MockMram) : MockMram := { mock with writeEnabled := false }

/-- `mram_read`: `data` afterwards. -/
def mramRead (address : UInt32) (data : List UInt8) (length : Nat) (mock : MockMram) :
    Option (List UInt8) :=
  if length > 256 then some data
  else if address.toNat + length > mramSize then some data
  else do storeAll data 0 (← access address length (Memory.read mock.memory address.toNat length))

/-- `mram_clear`. -/
def mramClear (address : UInt32) (length : Nat) (mock : MockMram) : Option MockMram :=
  if length > 256 then some mock
  else if address.toNat + length > mramSize then some mock
  else do
    let memory ← access address length (fill mock.memory address.toNat length 0)
    return { mock with writeEnabled := true, memory }

/-- `mram_write`. -/
def mramWrite (address : UInt32) (data : List UInt8) (length : Nat) (mock : MockMram) :
    Option (Bool × MockMram) :=
  if length > 256 then some (false, mock)
  else if address.toNat + length > mramSize then some (false, mock)
  else do
    let bytes ← slice data 0 length
    let memory ← access address length (Memory.write mock.memory address.toNat bytes)
    return (true, { mock with writeEnabled := true, memory })

def call (mock : MockMram) : MramCall → Option (MramReply × MockMram)
  | .init => some (.done, mock.mramInit)
  | .readStatus => some (.status mock.mramReadStatus, mock)
  | .writeEnable => some (.done, mock.mramWriteEnable)
  | .read address data length =>
    (mramRead address data length mock).map fun data => (.data data, mock)
  | .clear address length => (mramClear address length mock).map (.done, ·)
  | .write address data length =>
    (mramWrite address data length mock).map fun (ok, mock) => (.written ok, mock)
  | .writeDisable => some (.done, mock.mramWriteDisable)
  | .sleep => some (.done, mock.mramSleep)
  | .wake => some (.done, mock.mramWake)

/-- The array has the cells of which the caller knows. -/
def Holds (v : MramCells) (mock : MockMram) : Prop :=
  ∀ i < mramSize, mock.memory i = v.cells i

section Driver

variable {v : MramCells} {mock : MockMram} {address : UInt32} {data : List UInt8} {length : Nat}

theorem mramRead_eq (hmock : mock.Holds v) (hlength : length ≤ 256)
    (hreaches : v.Reaches address length) (hdata : length ≤ data.length) :
    mramRead address data length mock =
      some (overlay (Memory.read v.cells address.toNat length) data) := by
  obtain ⟨-, hrange⟩ := hreaches hlength
  have hcells : Memory.read mock.memory address.toNat length =
      Memory.read v.cells address.toNat length :=
    read_congr fun i _ hi => hmock i (by omega)
  have hstore : storeAll data 0 (Memory.read v.cells address.toNat length) = _ :=
    storeAll_front (by rw [length_read]; exact hdata)
  rw [mramRead, if_neg (by omega), if_neg (by omega), hcells]
  simp only [access, if_pos hrange, Option.bind_eq_bind, Option.bind_some, hstore]

theorem mramClear_eq (hmock : mock.Holds v) (hlength : length ≤ 256)
    (hreaches : v.Reaches address length) :
    ∃ mock', mramClear address length mock = some mock' ∧
      mock'.Holds { v with cells := fill v.cells address.toNat length 0 } := by
  obtain ⟨-, hrange⟩ := hreaches hlength
  refine ⟨⟨fill mock.memory address.toNat length 0, true⟩, ?_, fun i hi => fill_congr (hmock i hi)⟩
  rw [mramClear, if_neg (by omega), if_neg (by omega), access, if_pos hrange]
  rfl

theorem mramWrite_eq (hmock : mock.Holds v) (hlength : length ≤ 256)
    (hreaches : v.Reaches address length) (hdata : length ≤ data.length) :
    ∃ mock', mramWrite address data length mock = some (true, mock') ∧
      mock'.Holds { v with cells := Memory.write v.cells address.toNat (data.take length) } := by
  obtain ⟨-, hrange⟩ := hreaches hlength
  refine ⟨⟨Memory.write mock.memory address.toNat (data.take length), true⟩, ?_,
    fun i hi => write_congr (hmock i hi)⟩
  rw [mramWrite, if_neg (by omega), if_neg (by omega), slice_eq_some (by omega)]
  simp only [access, if_pos hrange, Option.bind_eq_bind, Option.bind_some, Option.pure_def,
    List.drop_zero]

end Driver

theorem implements : Service.Implements MramCells.spec call fun v mock => mock.Holds v := by
  intro v mock call hmock hpermits
  cases call with
  | init => exact ⟨_, _, rfl, rfl, hmock⟩
  | readStatus => exact ⟨_, _, rfl, ⟨_, rfl⟩, hmock⟩
  | writeEnable => exact ⟨_, _, rfl, rfl, hmock⟩
  | writeDisable => exact ⟨_, _, rfl, rfl, hmock⟩
  | sleep => exact ⟨_, _, rfl, rfl, hmock⟩
  | wake => exact ⟨_, _, rfl, rfl, hmock⟩
  | read address data length =>
    by_cases hlength : 256 < length
    · refine ⟨.data data, mock, ?_, (MramCells.answers_read_of_lt hlength).mpr rfl, hmock⟩
      rw [MockMram.call, mramRead, if_pos hlength]
      rfl
    · have hle : length ≤ 256 := Nat.not_lt.mp hlength
      refine ⟨_, mock, ?_, (MramCells.answers_read_of_le hle).mpr rfl, hmock⟩
      rw [MockMram.call, mramRead_eq hmock hle hpermits.1 (hpermits.2 hle)]
      rfl
  | clear address length =>
    by_cases hlength : 256 < length
    · refine ⟨.done, mock, ?_, rfl, ?_⟩
      · rw [MockMram.call, mramClear, if_pos hlength]
        rfl
      · show mock.Holds (v.after (.clear address length))
        rwa [MramCells.after_clear_of_lt hlength]
    · have hle : length ≤ 256 := Nat.not_lt.mp hlength
      obtain ⟨mock', hcall, hmock'⟩ := mramClear_eq hmock hle hpermits
      refine ⟨.done, mock', by rw [MockMram.call, hcall]; rfl, rfl, ?_⟩
      show mock'.Holds (v.after (.clear address length))
      rwa [MramCells.after_clear_of_le hle]
  | write address data length =>
    by_cases hlength : 256 < length
    · refine ⟨.written false, mock, ?_, ?_, ?_⟩
      · rw [MockMram.call, mramWrite, if_pos hlength]
        rfl
      · exact congrArg MramReply.written (decide_eq_false (by omega)).symm
      · show mock.Holds (v.after (.write address data length))
        rwa [MramCells.after_write_of_lt hlength]
    · have hle : length ≤ 256 := Nat.not_lt.mp hlength
      obtain ⟨mock', hcall, hmock'⟩ := mramWrite_eq hmock hle hpermits.1 (hpermits.2 hle)
      refine ⟨.written true, mock', by rw [MockMram.call, hcall]; rfl, ?_, ?_⟩
      · exact congrArg MramReply.written (decide_eq_true hle).symm
      · show mock'.Holds (v.after (.write address data length))
        rwa [MramCells.after_write_of_le hle]

end MockMram

/-! ## The same replies -/

/-- A reply that is no status. -/
def MramReply.known : MramReply → Option MramReply
  | .status _ => none
  | reply => some reply

theorem MramCells.known_unique (v : MramCells) (call : MramCall) (r r' : MramReply)
    (h : spec.Answers v call r) (h' : spec.Answers v call r') : r.known = r'.known := by
  cases call with
  | readStatus =>
    obtain ⟨s, rfl⟩ := h
    obtain ⟨s', rfl⟩ := h'
    rfl
  | init | writeEnable | read | clear | write | writeDisable | sleep | wake =>
    exact congrArg MramReply.known (h.trans h'.symm)

/-- **The tests see what the driver does.** Whatever the calls, as long as none reaches outside of
the chip or into a sleeping one: on an array with the cells of the chip, the mock gives the replies
of the driver, and the array has the cells of the chip afterwards. -/
theorem mram_mock_agrees {m : Mram} {mock : MockMram} (hsized : m.Sized)
    (hcells : ∀ i < mramSize, mock.memory i = m.chip.cells i) {calls : List MramCall}
    (hcalls : MramCells.spec.PermitsAll ⟨m.chip.cells, m.chip.asleep⟩ calls) :
    ∃ replies m' replies' mock', Service.serve Mram.call m calls = some (replies, m') ∧
      Service.serve MockMram.call mock calls = some (replies', mock') ∧
      replies.filterMap MramReply.known = replies'.filterMap MramReply.known ∧
      ∀ i < mramSize, mock'.memory i = m'.chip.cells i := by
  obtain ⟨replies, m', hdriver, hreplies, hm'⟩ :=
    mram_implements.serve ⟨hsized, fun _ _ => rfl, rfl⟩ hcalls
  have hholds : mock.Holds ⟨m.chip.cells, m.chip.asleep⟩ := hcells
  obtain ⟨replies', mock', hmock, hreplies', hmock'⟩ := MockMram.implements.serve hholds hcalls
  exact ⟨replies, m', replies', mock', hdriver, hmock,
    Service.Spec.AnswersAll.filterMap_eq MramCells.known_unique hreplies hreplies',
    fun i hi => (hmock' i hi).trans (hm'.cells i hi).symm⟩

/-- A chip of zeros that is awake, as it is behind a reset of the computer. -/
def mramAtReset : Mram where
  chip := ⟨fun _ => 0, false, false, 0xFF, true, false⟩
  readCmdBuf := List.replicate 260 0
  readRxBuf := List.replicate 260 0
  clearBuf := List.replicate 260 0
  writeCmdBuf := List.replicate 260 0

theorem mramAtReset_sized : mramAtReset.Sized :=
  ⟨List.length_replicate, List.length_replicate, List.length_replicate, List.length_replicate⟩

/-- The last bytes of the chip, over a sleep, with writes disabled before. -/
theorem mram_mock_agrees_asleep :
    ∃ replies m' replies' mock', Service.serve Mram.call mramAtReset
        [.writeDisable, .write 524286 [1, 2] 2, .sleep, .wake, .read 524286 [0, 0] 2] =
        some (replies, m') ∧
      Service.serve MockMram.call ⟨fun _ => 0, false⟩
        [.writeDisable, .write 524286 [1, 2] 2, .sleep, .wake, .read 524286 [0, 0] 2] =
        some (replies', mock') ∧
      replies.filterMap MramReply.known = replies'.filterMap MramReply.known ∧
      ∀ i < mramSize, mock'.memory i = m'.chip.cells i :=
  mram_mock_agrees mramAtReset_sized (fun _ _ => rfl)
    ⟨trivial, ⟨fun _ => ⟨rfl, by decide⟩, fun _ => by decide⟩, trivial, trivial,
      ⟨fun _ => ⟨rfl, by decide⟩, fun _ => by decide⟩, trivial⟩

end Samwise
