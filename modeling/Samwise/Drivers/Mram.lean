import Samwise.Lib.Buffer
import Samwise.Lib.CountedLoop
import Samwise.Lib.Service

/-!
# Samwise — the MRAM

`src/drivers/mram/mram.c` over the chip on its chip select, one transfer at a time. The driver's
buffers are static arrays of 260 bytes; every index is checked, and `none` is an access that fails.

The chip takes a command and, for a read or a write, an address of three bytes, of which it uses as
many bits as it has cells for. What is read from a line that it does not drive, and whether its
write enable latch outlasts a write or a wake, is left open.

What the driver does is said of the cells alone, as a service: `MramCells.spec`.
-/

namespace Samwise

open Memory Buffer CountedLoop

/-! ## The chip -/

/-- `WREN_CMD`. -/
def wrenCmd : UInt8 := 0x06

/-- `WRDI_CMD`. -/
def wrdiCmd : UInt8 := 0x04

/-- `RDSR_CMD`. -/
def rdsrCmd : UInt8 := 0x05

/-- `READ_CMD`. -/
def readCmd : UInt8 := 0x03

/-- `WRITE_CMD`. -/
def writeCmd : UInt8 := 0x02

/-- `SLEEP_CMD`. -/
def sleepCmd : UInt8 := 0xB9

/-- `WAKE_CMD`. -/
def wakeCmd : UInt8 := 0xAB

/-- The cells of the chip, four megabits. -/
def mramSize : Nat := 1024 * 512

/-- The chip: its cells, the write enable latch, and whether it sleeps; what a line reads as that it
does not drive, and whether the latch outlasts a write and a wake. The bits of the status register
that protect blocks are taken as clear: the driver never sets them, and a write reaches every cell. -/
structure MramChip where
  cells : Mem
  wel : Bool
  asleep : Bool
  idle : UInt8
  writeKeepsWel : Bool
  wakeKeepsWel : Bool

/-- The cells behind a write of bytes one after another, which goes on at the first cell behind the
last. -/
def writeCells (cells : Mem) (address : Nat) : List UInt8 → Mem
  | [] => cells
  | b :: bs => writeCells (Memory.write cells (address % mramSize) [b]) (address + 1) bs

/-- A transfer with the chip selected: for each byte that goes in, one that comes out. -/
def MramChip.transfer (c : MramChip) (tx : List UInt8) : List UInt8 × MramChip :=
  let quiet := List.replicate tx.length c.idle
  match tx with
  | [] => (quiet, c)
  | cmd :: args =>
    if c.asleep = true then
      (quiet, if cmd = wakeCmd then { c with asleep := false, wel := c.wel && c.wakeKeepsWel } else c)
    else if cmd = wrenCmd then (quiet, { c with wel := true })
    else if cmd = wrdiCmd then (quiet, { c with wel := false })
    else if cmd = sleepCmd then (quiet, { c with asleep := true })
    else if cmd = rdsrCmd then
      (c.idle :: List.replicate args.length (if c.wel = true then 0x02 else 0x00), c)
    else
      match args with
      | a2 :: a1 :: a0 :: data =>
        let address := a2.toNat * 65536 + a1.toNat * 256 + a0.toNat
        if cmd = readCmd then
          (List.replicate 4 c.idle ++
            (List.range data.length).map fun i => c.cells ((address + i) % mramSize), c)
        else if cmd = writeCmd ∧ c.wel = true then
          (quiet, { c with cells := writeCells c.cells address data, wel := c.writeKeepsWel })
        else (quiet, c)
      | _ => (quiet, c)

/-! ## The driver -/

/-- The chip, and the static arrays of `mram_read`, `mram_clear` and `mram_write`. -/
structure Mram where
  chip : MramChip
  readCmdBuf : List UInt8
  readRxBuf : List UInt8
  clearBuf : List UInt8
  writeCmdBuf : List UInt8

/-- `mram_qmi_cmd`: `rxbuf` afterwards, where there is one. -/
def mramQmiCmd (txbuf : List UInt8) (rxbuf : Option (List UInt8)) (count : Nat) (chip : MramChip) :
    Option (Option (List UInt8) × MramChip) := do
  let (miso, chip) := chip.transfer (← slice txbuf 0 count)
  match rxbuf with
  | none => return (none, chip)
  | some rxbuf => return (some (← storeAll rxbuf 0 miso), chip)

/-- A command without arguments. -/
def mramCommand (cmd : UInt8) (m : Mram) : Option Mram := do
  let (_, chip) ← mramQmiCmd [cmd] none 1 m.chip
  return { m with chip }

/-- `mram_init`. -/
def mramInit (m : Mram) : Option Mram := mramCommand wakeCmd m

/-- `mram_read_status`. -/
def mramReadStatus (m : Mram) : Option (UInt8 × Mram) := do
  let (rxBuf, chip) ← mramQmiCmd [rdsrCmd, 0x00] (some [0x00, 0x00]) 2 m.chip
  return (← load (rxBuf.getD []) 1, { m with chip })

/-- `mram_write_enable`. -/
def mramWriteEnable (m : Mram) : Option Mram := mramCommand wrenCmd m

/-- The command and the address, at the front of a buffer. -/
def storeHeader (buf : List UInt8) (cmd : UInt8) (address : UInt32) : Option (List UInt8) := do
  let buf ← store buf 0 cmd
  let buf ← store buf 1 ((address >>> 16) &&& 0xFF).toUInt8
  let buf ← store buf 2 ((address >>> 8) &&& 0xFF).toUInt8
  store buf 3 (address &&& 0xFF).toUInt8

/-- `mram_read`: `data` afterwards. -/
def mramRead (address : UInt32) (data : List UInt8) (length : Nat) (m : Mram) :
    Option (List UInt8 × Mram) :=
  if length > 256 then some (data, m)
  else do
    let cmdBuf ← storeHeader m.readCmdBuf readCmd address
    let cmdBuf ← loop (fun buf i => store buf (4 + i) 0x00) 0 length cmdBuf
    let (rxBuf, chip) ← mramQmiCmd cmdBuf (some m.readRxBuf) (4 + length) m.chip
    let rxBuf := rxBuf.getD []
    let data ← storeAll data 0 (← slice rxBuf 4 length)
    return (data, { m with chip, readCmdBuf := cmdBuf, readRxBuf := rxBuf })

/-- `mram_clear`. -/
def mramClear (address : UInt32) (length : Nat) (m : Mram) : Option Mram :=
  if length > 256 then some m
  else do
    let m ← mramWriteEnable m
    let clearBuf ← storeHeader m.clearBuf writeCmd address
    let clearBuf ← storeAll clearBuf 4 (List.replicate length 0x00)
    let (_, chip) ← mramQmiCmd clearBuf none (4 + length) m.chip
    return { m with chip, clearBuf }

/-- `mram_write`. -/
def mramWrite (address : UInt32) (data : List UInt8) (length : Nat) (m : Mram) :
    Option (Bool × Mram) :=
  if length > 256 then some (false, m)
  else do
    let m ← mramWriteEnable m
    let cmdBuf ← storeHeader m.writeCmdBuf writeCmd address
    let cmdBuf ← storeAll cmdBuf 4 (← slice data 0 length)
    let (_, chip) ← mramQmiCmd cmdBuf none (4 + length) m.chip
    return (true, { m with chip, writeCmdBuf := cmdBuf })

/-- `mram_write_disable`. -/
def mramWriteDisable (m : Mram) : Option Mram := mramCommand wrdiCmd m

/-- `mram_sleep`. -/
def mramSleep (m : Mram) : Option Mram := mramCommand sleepCmd m

/-- `mram_wake`. -/
def mramWake (m : Mram) : Option Mram := mramCommand wakeCmd m

/-! ## Calls -/

/-- A call of the driver, with the caller's buffer. -/
inductive MramCall where
  | init
  | readStatus
  | writeEnable
  | read (address : UInt32) (data : List UInt8) (length : Nat)
  | clear (address : UInt32) (length : Nat)
  | write (address : UInt32) (data : List UInt8) (length : Nat)
  | writeDisable
  | sleep
  | wake

/-- What a call gives its caller: nothing, the status, its buffer, or whether it succeeded. -/
inductive MramReply where
  | done
  | status (status : UInt8)
  | data (data : List UInt8)
  | written (ok : Bool)
deriving DecidableEq

def Mram.call (m : Mram) : MramCall → Option (MramReply × Mram)
  | .init => (mramInit m).map (.done, ·)
  | .readStatus => (mramReadStatus m).map fun (status, m) => (.status status, m)
  | .writeEnable => (mramWriteEnable m).map (.done, ·)
  | .read address data length => (mramRead address data length m).map fun (data, m) => (.data data, m)
  | .clear address length => (mramClear address length m).map (.done, ·)
  | .write address data length =>
    (mramWrite address data length m).map fun (ok, m) => (.written ok, m)
  | .writeDisable => (mramWriteDisable m).map (.done, ·)
  | .sleep => (mramSleep m).map (.done, ·)
  | .wake => (mramWake m).map (.done, ·)

/-- The cells, and whether they can be accessed. -/
structure MramCells where
  cells : Mem
  asleep : Bool

namespace MramCells

/-- An access of a length that the driver takes names cells of the chip, and the chip is awake. -/
def Reaches (v : MramCells) (address : UInt32) (length : Nat) : Prop :=
  length ≤ 256 → v.asleep = false ∧ address.toNat + length ≤ mramSize

/-- The calls of which something is said: the caller's buffer has the length, too. -/
def Permits (v : MramCells) : MramCall → Prop
  | .read address data length | .write address data length =>
    v.Reaches address length ∧ (length ≤ 256 → length ≤ data.length)
  | .clear address length => v.Reaches address length
  | _ => True

/-- A status is not known. -/
def Answers (v : MramCells) : MramCall → MramReply → Prop
  | .read address data length, reply => reply = .data
      (if 256 < length then data else overlay (Memory.read v.cells address.toNat length) data)
  | .write _ _ length, reply => reply = .written (decide (length ≤ 256))
  | .readStatus, reply => ∃ status, reply = .status status
  | _, reply => reply = .done

def after (v : MramCells) : MramCall → MramCells
  | .init | .wake => { v with asleep := false }
  | .sleep => { v with asleep := true }
  | .clear address length =>
    if 256 < length then v else { v with cells := fill v.cells address.toNat length 0 }
  | .write address data length =>
    if 256 < length then v
    else { v with cells := Memory.write v.cells address.toNat (data.take length) }
  | _ => v

def spec : Service.Spec MramCells MramCall MramReply := ⟨Permits, Answers, after⟩

variable {v : MramCells} {address : UInt32} {data : List UInt8} {length : Nat}

/-- What is too long changes nothing. -/
theorem answers_read_of_lt (h : 256 < length) {reply : MramReply} :
    v.Answers (.read address data length) reply ↔ reply = .data data := by
  rw [Answers, if_pos h]

theorem answers_read_of_le (h : length ≤ 256) {reply : MramReply} :
    v.Answers (.read address data length) reply ↔
      reply = .data (overlay (Memory.read v.cells address.toNat length) data) := by
  rw [Answers, if_neg (by omega)]

theorem after_clear_of_lt (h : 256 < length) : v.after (.clear address length) = v := if_pos h

theorem after_clear_of_le (h : length ≤ 256) : v.after (.clear address length) =
    { v with cells := fill v.cells address.toNat length 0 } := if_neg (by omega)

theorem after_write_of_lt (h : 256 < length) : v.after (.write address data length) = v := if_pos h

theorem after_write_of_le (h : length ≤ 256) : v.after (.write address data length) =
    { v with cells := Memory.write v.cells address.toNat (data.take length) } := if_neg (by omega)

end MramCells

/-- The arrays have their sizes. -/
structure Mram.Sized (m : Mram) : Prop where
  readCmdBuf : m.readCmdBuf.length = 260
  readRxBuf : m.readRxBuf.length = 260
  clearBuf : m.clearBuf.length = 260
  writeCmdBuf : m.writeCmdBuf.length = 260

/-- The driver has the cells of which its caller knows. -/
structure Mram.Holds (v : MramCells) (m : Mram) : Prop where
  sized : m.Sized
  cells : ∀ i < mramSize, m.chip.cells i = v.cells i
  asleep : m.chip.asleep = v.asleep

/-! ## Transfers -/

/-- The command and the address as they go over the line. -/
def mramHeader (cmd : UInt8) (address : UInt32) : List UInt8 :=
  [cmd, ((address >>> 16) &&& 0xFF).toUInt8, ((address >>> 8) &&& 0xFF).toUInt8,
    (address &&& 0xFF).toUInt8]

@[simp] theorem length_mramHeader (cmd : UInt8) (address : UInt32) :
    (mramHeader cmd address).length = 4 := rfl

/-- The bytes of the address give it back. -/
theorem mramHeader_address {address : UInt32} (h : address.toNat < 0x1000000) :
    ((address >>> 16) &&& 0xFF).toUInt8.toNat * 65536 +
      ((address >>> 8) &&& 0xFF).toUInt8.toNat * 256 + (address &&& 0xFF).toUInt8.toNat =
      address.toNat := by
  have hmask : ∀ n : Nat, n &&& 255 = n % 256 := fun n => Nat.and_two_pow_sub_one_eq_mod n 8
  simp [Nat.shiftRight_eq_div_pow, hmask]
  omega

theorem storeHeader_eq (cmd : UInt8) (address : UInt32) (buf : List UInt8) (h : 4 ≤ buf.length) :
    storeHeader buf cmd address = some (overlay (mramHeader cmd address) buf) := by
  have hstore (w : List UInt8) (b : UInt8) (hw : w.length < 4) :
      store (overlay w buf) w.length b = some (overlay (w ++ [b]) buf) :=
    store_overlay b (by omega)
  have h0 : store buf 0 cmd = some (overlay [cmd] buf) := hstore [] cmd (by decide)
  have h1 (a) : store (overlay [cmd] buf) 1 a = some (overlay [cmd, a] buf) :=
    hstore [cmd] a (by simp)
  have h2 (a b) : store (overlay [cmd, a] buf) 2 b = some (overlay [cmd, a, b] buf) :=
    hstore [cmd, a] b (by simp)
  have h3 (a b c) : store (overlay [cmd, a, b] buf) 3 c = some (overlay [cmd, a, b, c] buf) :=
    hstore [cmd, a, b] c (by simp)
  simp only [storeHeader, Option.bind_eq_bind, Option.bind_some, h0, h1, h2, h3, mramHeader]

/-- Cells that are written one after another, and none behind the last. -/
theorem writeCells_eq (cells : Mem) {address : Nat} {data : List UInt8}
    (h : address + data.length ≤ mramSize) :
    writeCells cells address data = Memory.write cells address data := by
  induction data generalizing cells address with
  | nil =>
    funext i
    simp [writeCells, Memory.write]
  | cons b bs ih =>
    rw [List.length_cons] at h
    rw [writeCells, Nat.mod_eq_of_lt (by omega), ih _ (by omega), ← write_cons]

section Transfer

variable {c : MramChip} {address : UInt32} {data : List UInt8}

theorem address_lt_of_le (h : address.toNat + data.length ≤ mramSize) :
    address.toNat < 0x1000000 := by
  unfold mramSize at h
  omega

theorem transfer_read (hawake : c.asleep = false) (address : UInt32) (data : List UInt8)
    (hrange : address.toNat + data.length ≤ mramSize) :
    c.transfer (mramHeader readCmd address ++ data) =
      (List.replicate 4 c.idle ++ Memory.read c.cells address.toNat data.length, c) := by
  have haddress := mramHeader_address (address_lt_of_le hrange)
  simp only [MramChip.transfer, mramHeader, List.cons_append, List.nil_append, hawake, haddress]
  rw [if_neg (by decide), if_neg (by decide), if_neg (by decide), if_neg (by decide),
    if_neg (by decide), if_pos trivial]
  congr 2
  refine List.map_congr_left fun i hi => ?_
  have hlt : i < data.length := List.mem_range.mp hi
  rw [Nat.mod_eq_of_lt (by omega)]

theorem transfer_write (hawake : c.asleep = false) (hwel : c.wel = true)
    (hrange : address.toNat + data.length ≤ mramSize) :
    (c.transfer (mramHeader writeCmd address ++ data)).2 =
      { c with cells := Memory.write c.cells address.toNat data, wel := c.writeKeepsWel } := by
  have haddress := mramHeader_address (address_lt_of_le hrange)
  simp only [MramChip.transfer, mramHeader, List.cons_append, List.nil_append, hawake, haddress]
  rw [if_neg (by decide), if_neg (by decide), if_neg (by decide), if_neg (by decide),
    if_neg (by decide), if_neg (by decide), if_pos ⟨trivial, hwel⟩, writeCells_eq _ hrange]

end Transfer

/-! ## The driver's calls -/

section Driver

variable {v : MramCells} {m : Mram}

theorem slice_overlay (w old : List UInt8) (h : w.length ≤ old.length) :
    slice (overlay w old) 0 w.length = some w := by
  have hlength : (overlay w old).length = old.length := length_overlay h
  rw [slice_eq_some (by omega), List.drop_zero, take_overlay]

/-- What was written behind a front. -/
theorem slice_overlay_append (u w old : List UInt8) (h : u.length + w.length ≤ old.length) :
    slice (overlay (u ++ w) old) u.length w.length = some w := by
  have hlength : (overlay (u ++ w) old).length = old.length :=
    length_overlay (by rw [List.length_append]; exact h)
  rw [slice_eq_some (by omega), overlay, List.append_assoc, List.drop_left, List.take_left]

theorem storeAll_front {old l : List UInt8} (h : l.length ≤ old.length) :
    storeAll old 0 l = some (overlay l old) :=
  storeAll_overlay (w := []) (by simpa using h)

/-- What lies at the front of a buffer goes over the line. -/
theorem mramQmiCmd_overlay (chip : MramChip) {tx old : List UInt8} (h : tx.length ≤ old.length) :
    mramQmiCmd (overlay tx old) none tx.length chip = some (none, (chip.transfer tx).2) := by
  rw [mramQmiCmd, slice_overlay _ _ h]
  rfl

theorem mramQmiCmd_some {chip chip' : MramChip} {txbuf tx miso : List UInt8}
    (rxbuf : List UInt8) {count : Nat} (hslice : slice txbuf 0 count = some tx) (htransfer : chip.transfer tx = (miso, chip'))
    (hmiso : miso.length ≤ rxbuf.length) :
    mramQmiCmd txbuf (some rxbuf) count chip = some (some (overlay miso rxbuf), chip') := by
  rw [mramQmiCmd, hslice]
  simp [htransfer, storeAll_front hmiso]

theorem mramCommand_eq (m : Mram) (cmd : UInt8) :
    mramCommand cmd m = some { m with chip := (m.chip.transfer [cmd]).2 } := rfl

theorem transfer_command_cells (c : MramChip) (cmd : UInt8) :
    (c.transfer [cmd]).2.cells = c.cells := by
  unfold MramChip.transfer
  dsimp only
  repeat' split
  all_goals rfl

/-- Only two of the commands put the chip to sleep or wake it. -/
theorem transfer_command_asleep (c : MramChip) {cmd : UInt8} (hwake : cmd ≠ wakeCmd)
    (hsleep : cmd ≠ sleepCmd) : (c.transfer [cmd]).2.asleep = c.asleep := by
  unfold MramChip.transfer
  dsimp only
  rw [if_neg hwake, if_neg hsleep]
  repeat' split
  all_goals rfl

theorem transfer_wake (c : MramChip) : (c.transfer [wakeCmd]).2.asleep = false := by
  cases h : c.asleep <;> simp [MramChip.transfer, h, wakeCmd, wrenCmd, wrdiCmd, sleepCmd, rdsrCmd]

theorem transfer_sleep (c : MramChip) : (c.transfer [sleepCmd]).2.asleep = true := by
  cases h : c.asleep <;> simp [MramChip.transfer, h, wakeCmd, wrenCmd, wrdiCmd, sleepCmd]

theorem transfer_wren {c : MramChip} (h : c.asleep = false) :
    (c.transfer [wrenCmd]).2 = { c with wel := true } := by
  simp [MramChip.transfer, h]

/-- The chip has changed, its cells have not. -/
theorem Mram.Holds.of_chip (hm : m.Holds v) {chip : MramChip} (asleep : Bool)
    (hcells : chip.cells = m.chip.cells) (hasleep : chip.asleep = asleep) :
    Mram.Holds { v with asleep } { m with chip } where
  sized := { hm.sized with }
  cells i hi := by
    show chip.cells i = v.cells i
    rw [hcells, hm.cells i hi]
  asleep := hasleep

/-- A command that neither puts the chip to sleep nor wakes it. -/
theorem Mram.Holds.command (hm : m.Holds v) (cmd : UInt8) (hwake : cmd ≠ wakeCmd)
    (hsleep : cmd ≠ sleepCmd) : ∃ m', mramCommand cmd m = some m' ∧ m'.Holds v :=
  ⟨_, mramCommand_eq m cmd, hm.of_chip v.asleep (transfer_command_cells _ _)
    ((transfer_command_asleep _ hwake hsleep).trans hm.asleep)⟩

/-- Awake, after `mram_init` as after `mram_wake`. -/
theorem Mram.Holds.wake (hm : m.Holds v) :
    ∃ m', mramCommand wakeCmd m = some m' ∧ m'.Holds { v with asleep := false } :=
  ⟨_, mramCommand_eq m wakeCmd, hm.of_chip false (transfer_command_cells _ _) (transfer_wake _)⟩

/-- The status is read past the cells. -/
theorem mramReadStatus_eq (hm : m.Holds v) :
    ∃ status m', mramReadStatus m = some (status, m') ∧ m'.Holds v := by
  obtain ⟨b₀, b₁, chip, htransfer, hcells, hasleep⟩ : ∃ b₀ b₁ chip,
      m.chip.transfer [rdsrCmd, 0x00] = ([b₀, b₁], chip) ∧ chip.cells = m.chip.cells ∧
        chip.asleep = m.chip.asleep := by
    cases hchip : m.chip.asleep with
    | false =>
      refine ⟨m.chip.idle, if m.chip.wel = true then 0x02 else 0x00, m.chip, ?_, rfl, hchip⟩
      simp [MramChip.transfer, hchip, rdsrCmd, wrenCmd, wrdiCmd, sleepCmd]
    | true =>
      refine ⟨m.chip.idle, m.chip.idle, m.chip, ?_, rfl, hchip⟩
      simp [MramChip.transfer, hchip, rdsrCmd, wakeCmd]
  have hqmi : mramQmiCmd [rdsrCmd, 0x00] (some [0x00, 0x00]) 2 m.chip = some (some [b₀, b₁], chip) :=
    mramQmiCmd_some _ rfl htransfer (Nat.le_refl 2)
  refine ⟨b₁, { m with chip }, ?_, hm.of_chip v.asleep hcells (hasleep.trans hm.asleep)⟩
  rw [mramReadStatus, hqmi]
  rfl

/-- The loop behind a header. -/
theorem loop_store_eq (w old : List UInt8) {n : Nat} (h : w.length + n ≤ old.length) :
    loop (fun buf i => store buf (w.length + i) 0x00) 0 n (overlay w old) =
      some (overlay (w ++ List.replicate n 0) old) := by
  have hbody (i : Nat) (buf : List UInt8) (_ : 0 ≤ i) (hi : i < 0 + n)
      (hbuf : buf = overlay (w ++ List.replicate i 0) old) :
      ∃ buf', store buf (w.length + i) (0x00 : UInt8) = some buf' ∧
        buf' = overlay (w ++ List.replicate (i + 1) 0) old := by
    subst hbuf
    refine ⟨_, ?_, rfl⟩
    have hfront : (w ++ List.replicate i (0 : UInt8)).length = w.length + i := by simp
    rw [← hfront, store_overlay _ (by omega), List.append_assoc, List.replicate_succ']
  have hstart : overlay w old = overlay (w ++ List.replicate 0 0) old := by
    rw [List.replicate_zero, List.append_nil]
  obtain ⟨buf, hloop, hbuf⟩ := loop_invariant _ hbody hstart
  rw [hloop, hbuf, Nat.zero_add]

/-- The bytes of a read go over the line as zeros, and what comes back behind the header goes to the
caller. -/
theorem mramRead_eq (hm : m.Holds v) {address : UInt32} {data : List UInt8} {length : Nat}
    (hlength : length ≤ 256) (hreaches : v.Reaches address length) (hdata : length ≤ data.length) :
    ∃ m', mramRead address data length m =
      some (overlay (Memory.read v.cells address.toNat length) data, m') ∧ m'.Holds v := by
  obtain ⟨hawake, hrange⟩ := hreaches hlength
  have hbuf := hm.sized.readCmdBuf
  have hrx := hm.sized.readRxBuf
  have hheader := storeHeader_eq readCmd address m.readCmdBuf (by omega)
  have hloop := loop_store_eq (mramHeader readCmd address) m.readCmdBuf (n := length)
    (by rw [length_mramHeader]; omega)
  rw [length_mramHeader] at hloop
  generalize hcmdBuf : overlay (mramHeader readCmd address ++ List.replicate length 0)
    m.readCmdBuf = cmdBuf at hloop
  have htx : (mramHeader readCmd address ++ List.replicate length (0 : UInt8)).length =
      4 + length := by
    rw [List.length_append, length_mramHeader, List.length_replicate]
  have htransfer := transfer_read (hm.asleep.trans hawake) address (List.replicate length 0)
    (by rw [List.length_replicate]; exact hrange)
  have hcells : Memory.read m.chip.cells address.toNat length =
      Memory.read v.cells address.toNat length :=
    read_congr fun i _ hi => hm.cells i (by omega)
  rw [List.length_replicate, hcells] at htransfer
  have hmiso : (List.replicate 4 m.chip.idle ++
      Memory.read v.cells address.toNat length).length = 4 + length := by
    rw [List.length_append, List.length_replicate, length_read]
  have hfront := slice_overlay (mramHeader readCmd address ++ List.replicate length 0)
    m.readCmdBuf (by omega)
  rw [htx, hcmdBuf] at hfront
  have hqmi := mramQmiCmd_some m.readRxBuf hfront htransfer (by omega)
  have hslice := slice_overlay_append (List.replicate 4 m.chip.idle)
    (Memory.read v.cells address.toNat length) m.readRxBuf
    (by rw [List.length_replicate, length_read]; omega)
  rw [List.length_replicate, length_read] at hslice
  have hstore : storeAll data 0 (Memory.read v.cells address.toNat length) =
      some (overlay (Memory.read v.cells address.toNat length) data) :=
    storeAll_front (by rw [length_read]; exact hdata)
  refine ⟨{ m with
    readCmdBuf := cmdBuf,
    readRxBuf := overlay (List.replicate 4 m.chip.idle ++ Memory.read v.cells address.toNat length)
      m.readRxBuf }, ?_, { hm with sized := { hm.sized with readCmdBuf := ?_, readRxBuf := ?_ } }⟩
  · rw [mramRead, if_neg (by omega), hheader]
    simp only [Option.bind_eq_bind, Option.bind_some, hloop, hqmi, Option.getD_some, hslice,
      hstore, Option.pure_def]
  · show cmdBuf.length = 260
    rw [← hcmdBuf, length_overlay (by omega), hbuf]
  · show (overlay _ m.readRxBuf).length = 260
    rw [length_overlay (by omega), hrx]

/-- A write enable, and a write. -/
theorem Mram.Holds.write (hm : m.Holds v) (hawake : v.asleep = false) {address : UInt32}
    {data : List UInt8} (hrange : address.toNat + data.length ≤ mramSize) {m' : Mram}
    (hsized : m'.Sized) (hchip : m'.chip =
      ((m.chip.transfer [wrenCmd]).2.transfer (mramHeader writeCmd address ++ data)).2) :
    m'.Holds { v with cells := Memory.write v.cells address.toNat data } := by
  have hasleep : m.chip.asleep = false := hm.asleep.trans hawake
  rw [transfer_wren hasleep, transfer_write (c := { m.chip with wel := true }) hasleep rfl hrange]
    at hchip
  refine ⟨hsized, fun i hi => ?_, ?_⟩
  · rw [hchip]
    exact write_congr (hm.cells i hi)
  · rw [hchip]
    exact hm.asleep

/-- A buffer that goes over the line behind a write enable. -/
theorem mramQmiCmd_write {old data : List UInt8} (hold : old.length = 260) (address : UInt32)
    (hdata : data.length ≤ 256) :
    ∃ buf, storeAll (overlay (mramHeader writeCmd address) old) 4 data = some buf ∧
      buf.length = 260 ∧ ∀ chip, mramQmiCmd buf none (4 + data.length) chip =
        some (none, (chip.transfer (mramHeader writeCmd address ++ data)).2) := by
  have htx : (mramHeader writeCmd address ++ data).length = 4 + data.length := by
    rw [List.length_append, length_mramHeader]
  refine ⟨overlay (mramHeader writeCmd address ++ data) old,
    storeAll_overlay (w := mramHeader writeCmd address) (by rw [length_mramHeader]; omega), ?_,
    fun chip => ?_⟩
  · rw [length_overlay (by omega), hold]
  · rw [← htx, mramQmiCmd_overlay chip (by omega)]

theorem mramWrite_eq (hm : m.Holds v) {address : UInt32} {data : List UInt8} {length : Nat}
    (hlength : length ≤ 256) (hreaches : v.Reaches address length) (hdata : length ≤ data.length) :
    ∃ m', mramWrite address data length m = some (true, m') ∧
      m'.Holds { v with cells := Memory.write v.cells address.toNat (data.take length) } := by
  obtain ⟨hawake, hrange⟩ := hreaches hlength
  have htake : (data.take length).length = length := List.length_take_of_le hdata
  have hslice : slice data 0 length = some (data.take length) := by
    rw [slice_eq_some (by omega), List.drop_zero]
  have hheader := storeHeader_eq writeCmd address m.writeCmdBuf (by
    rw [hm.sized.writeCmdBuf]; decide)
  obtain ⟨buf, hstore, hbuf, hqmi⟩ := mramQmiCmd_write hm.sized.writeCmdBuf address
    (htake ▸ hlength)
  rw [htake] at hqmi
  refine ⟨{ m with
    chip := ((m.chip.transfer [wrenCmd]).2.transfer
      (mramHeader writeCmd address ++ data.take length)).2
    writeCmdBuf := buf }, ?_, ?_⟩
  · rw [mramWrite, if_neg (by omega), mramWriteEnable, mramCommand_eq]
    simp only [Option.bind_eq_bind, Option.bind_some, hheader, hslice, hstore, hqmi,
      Option.pure_def]
  · exact hm.write hawake (by rw [htake]; exact hrange) { hm.sized with writeCmdBuf := hbuf } rfl

/-- Zeros, written. -/
theorem mramClear_eq (hm : m.Holds v) {address : UInt32} {length : Nat} (hlength : length ≤ 256)
    (hreaches : v.Reaches address length) :
    ∃ m', mramClear address length m = some m' ∧
      m'.Holds { v with cells := fill v.cells address.toNat length 0 } := by
  obtain ⟨hawake, hrange⟩ := hreaches hlength
  have hzeros : (List.replicate length (0x00 : UInt8)).length = length := List.length_replicate
  have hheader := storeHeader_eq writeCmd address m.clearBuf (by
    rw [hm.sized.clearBuf]; decide)
  obtain ⟨buf, hstore, hbuf, hqmi⟩ := mramQmiCmd_write hm.sized.clearBuf address
    (hzeros ▸ hlength)
  rw [hzeros] at hqmi
  refine ⟨{ m with
    chip := ((m.chip.transfer [wrenCmd]).2.transfer
      (mramHeader writeCmd address ++ List.replicate length 0)).2
    clearBuf := buf }, ?_, ?_⟩
  · rw [mramClear, if_neg (by omega), mramWriteEnable, mramCommand_eq]
    simp only [Option.bind_eq_bind, Option.bind_some, hheader, hstore, hqmi, Option.pure_def]
  · rw [← write_replicate]
    exact hm.write hawake (by rw [hzeros]; exact hrange) { hm.sized with clearBuf := hbuf } rfl

end Driver

/-- **The driver does to the cells what its calls say.** One case for each call. -/
theorem mram_implements : Service.Implements MramCells.spec Mram.call fun v m => m.Holds v := by
  intro v m call hm hpermits
  cases call with
  | init =>
    obtain ⟨m', hcall, hm'⟩ := hm.wake
    exact ⟨.done, m', by rw [Mram.call, mramInit, hcall]; rfl, rfl, hm'⟩
  | wake =>
    obtain ⟨m', hcall, hm'⟩ := hm.wake
    exact ⟨.done, m', by rw [Mram.call, mramWake, hcall]; rfl, rfl, hm'⟩
  | sleep =>
    refine ⟨.done, _, rfl, rfl, ?_⟩
    exact hm.of_chip true (transfer_command_cells _ _) (transfer_sleep _)
  | writeEnable =>
    obtain ⟨m', hcall, hm'⟩ := hm.command wrenCmd (by decide) (by decide)
    exact ⟨.done, m', by rw [Mram.call, mramWriteEnable, hcall]; rfl, rfl, hm'⟩
  | writeDisable =>
    obtain ⟨m', hcall, hm'⟩ := hm.command wrdiCmd (by decide) (by decide)
    exact ⟨.done, m', by rw [Mram.call, mramWriteDisable, hcall]; rfl, rfl, hm'⟩
  | readStatus =>
    obtain ⟨status, m', hcall, hm'⟩ := mramReadStatus_eq hm
    exact ⟨.status status, m', by rw [Mram.call, hcall]; rfl, ⟨status, rfl⟩, hm'⟩
  | read address data length =>
    by_cases hlength : 256 < length
    · refine ⟨.data data, m, ?_, (MramCells.answers_read_of_lt hlength).mpr rfl, hm⟩
      rw [Mram.call, mramRead, if_pos hlength]
      rfl
    · have hle : length ≤ 256 := Nat.not_lt.mp hlength
      obtain ⟨m', hcall, hm'⟩ := mramRead_eq hm hle hpermits.1 (hpermits.2 hle)
      exact ⟨_, m', by rw [Mram.call, hcall]; rfl, (MramCells.answers_read_of_le hle).mpr rfl, hm'⟩
  | clear address length =>
    by_cases hlength : 256 < length
    · refine ⟨.done, m, ?_, rfl, ?_⟩
      · rw [Mram.call, mramClear, if_pos hlength]
        rfl
      · show m.Holds (v.after (.clear address length))
        rwa [MramCells.after_clear_of_lt hlength]
    · have hle : length ≤ 256 := Nat.not_lt.mp hlength
      obtain ⟨m', hcall, hm'⟩ := mramClear_eq hm hle hpermits
      refine ⟨.done, m', by rw [Mram.call, hcall]; rfl, rfl, ?_⟩
      show m'.Holds (v.after (.clear address length))
      rwa [MramCells.after_clear_of_le hle]
  | write address data length =>
    by_cases hlength : 256 < length
    · refine ⟨.written false, m, ?_, ?_, ?_⟩
      · rw [Mram.call, mramWrite, if_pos hlength]
        rfl
      · exact congrArg MramReply.written (decide_eq_false (by omega)).symm
      · show m.Holds (v.after (.write address data length))
        rwa [MramCells.after_write_of_lt hlength]
    · have hle : length ≤ 256 := Nat.not_lt.mp hlength
      obtain ⟨m', hcall, hm'⟩ := mramWrite_eq hm hle hpermits.1 (hpermits.2 hle)
      refine ⟨.written true, m', by rw [Mram.call, hcall]; rfl, ?_, ?_⟩
      · exact congrArg MramReply.written (decide_eq_true hle).symm
      · show m'.Holds (v.after (.write address data length))
        rwa [MramCells.after_write_of_le hle]

end Samwise
