import Mathlib.Data.FinEnum
import Samwise.Lib.Interrupts
import Samwise.Utils.BitSupport

/-!
# Samwise — the radio's driver

`src/drivers/rfm9x/rfm9x.c` as programs over the radio's SPI bus, one transaction at a time, and the
chip at the other end: its registers, of which a part is there twice, for FSK and for LoRa, and the
memory behind its FIFO. The chip begins to transmit as it enters TX mode, takes frames in while it is
in RX mode, and leaves TX mode by itself. `Bus` has what it does by itself between two transactions.
A transaction is what the driver does between `cs_select` and `cs_deselect`, two calls of the SDK.

The pins, the baud rate and the delays are left out, and with them everything of `rfm9x_init` before
the first transaction; of `ASSERT`, that it fails.
-/

namespace Samwise.Rfm9x

open Interaction Prog

/-! ## The chip -/

/-- A frame as it comes in, and whether its CRC is wrong. -/
structure Frame where
  bytes : List UInt8
  badCrc : Bool
deriving DecidableEq

/-- The registers outside of 0x0D to 0x3F, those in FSK mode and those in LoRa mode; what is behind the
FIFO; and, as a record, what it has begun to transmit and what it has received. -/
structure Chip where
  shared : UInt8 → UInt8
  fsk : UInt8 → UInt8
  lora : UInt8 → UInt8
  memory : UInt8 → UInt8
  begun : List (List UInt8)
  received : List Frame

namespace Chip

/-- A register that is there twice. -/
def Paged (a : UInt8) : Prop := 0x0D ≤ a ∧ a ≤ 0x3F

instance (a : UInt8) : Decidable (Paged a) := by
  unfold Paged
  infer_instance

/-- `LongRangeMode` without `AccessSharedReg`. -/
def inLora (c : Chip) : Bool := c.shared 0x01 &&& 0xC0 = 0x80

def mode (c : Chip) : UInt8 := c.shared 0x01 &&& 7

/-- What it transmits: from `FIFO_TX_BASE_ADDR` on, the number of bytes in `PAYLOAD_LENGTH`. -/
def toTransmit (c : Chip) : List UInt8 :=
  (List.range (c.lora 0x22).toNat).map fun i => c.memory (c.lora 0x0E + UInt8.ofNat i)

def get (a : UInt8) (c : Chip) : UInt8 :=
  if Paged a then if c.inLora then c.lora a else c.fsk a else c.shared a

/-- `LongRangeMode` changes in sleep mode only. -/
def putOpMode (v : UInt8) (c : Chip) : Chip :=
  let v := if c.mode = 0 then v else v &&& 0x7F ||| c.shared 0x01 &&& 0x80
  let c' := { c with shared := Function.update c.shared 0x01 v }
  if c'.inLora ∧ c'.mode = 3 ∧ c.mode ≠ 3 then { c' with begun := c'.begun ++ [c'.toTransmit] }
  else c'

/-- A flag of `IRQ_FLAGS` is cleared by a one. -/
def put (a v : UInt8) (c : Chip) : Chip :=
  if a = 0x01 then c.putOpMode v
  else if Paged a then
    if c.inLora then
      if a = 0x12 then { c with lora := Function.update c.lora a (c.lora a &&& ~~~v) }
      else { c with lora := Function.update c.lora a v }
    else { c with fsk := Function.update c.fsk a v }
  else { c with shared := Function.update c.shared a v }

/-- Behind an access to the FIFO: its pointer has moved on. -/
def fifoNext (c : Chip) : Chip := { c with lora := Function.update c.lora 0x0D (c.lora 0x0D + 1) }

/-- The bytes of a transaction go to or come from the FIFO, or registers one after another. -/
def readBurst (a : UInt8) : Nat → Chip → List UInt8 × Chip
  | 0, c => ([], c)
  | n + 1, c =>
    if a = 0x00 then
      let (bytes, c') := readBurst a n c.fifoNext
      (c.memory (c.lora 0x0D) :: bytes, c')
    else
      let (bytes, c') := readBurst (a + 1) n c
      (c.get a :: bytes, c')

def writeBurst (a : UInt8) : List UInt8 → Chip → Chip
  | [], c => c
  | b :: bytes, c =>
    if a = 0x00 then
      writeBurst a bytes
        { c.fifoNext with memory := Function.update c.memory (c.lora 0x0D) b }
    else writeBurst (a + 1) bytes (c.put a b)

/-- What it does by itself. -/
inductive Event where
  | txDone
  | rxDone (start : UInt8) (frame : Frame)
  | status (a v : UInt8)

/-- A reading of the signal, or the place of the FIFO that is written next. -/
def IsStatus (a : UInt8) : Prop := 0x14 ≤ a ∧ a ≤ 0x1C ∨ a = 0x25

instance (a : UInt8) : Decidable (IsStatus a) := by
  unfold IsStatus
  infer_instance

/-- The end of a transmission, or a frame of at most 255 bytes that it has taken in. -/
def event (c : Chip) : Event → Chip
  | .txDone =>
    if c.inLora ∧ c.mode = 3 then { c with
      shared := Function.update c.shared 0x01 (c.shared 0x01 &&& ~~~7 ||| 1)
      lora := Function.update c.lora 0x12 (c.lora 0x12 ||| 0x08) }
    else c
  | .rxDone start frame =>
    if c.inLora ∧ c.mode = 5 ∧ frame.bytes.length < 256 then { c with
      memory := fun a => frame.bytes[(a - start).toNat]?.getD (c.memory a)
      lora := Function.update (Function.update (Function.update c.lora 0x10 start) 0x13
        (UInt8.ofNat frame.bytes.length)) 0x12
        (c.lora 0x12 ||| if frame.badCrc then 0x60 else 0x40)
      received := c.received ++ [frame] }
    else c
  | .status a v =>
    if IsStatus a then { c with lora := Function.update c.lora a v } else c

end Chip

/-! ## The bus -/

/-- A transaction: the first byte, which has the register and whether it is written, and then a number
of bytes read or the bytes written. -/
inductive SpiCall where
  | read (header : UInt8) (n : Nat)
  | write (header : UInt8) (bytes : List UInt8)
deriving DecidableEq

/-- What comes back. -/
abbrev spi : Signature where
  Call := SpiCall
  Response
    | .read _ _ => List UInt8
    | .write _ _ => Unit

/-- A transaction. A byte that is read from the chip goes with a zero to it. -/
def Chip.serve (c : Chip) : (call : spi.Call) → spi.Response call × Chip
  | .read header n =>
    if header &&& 0x80 = 0 then c.readBurst header n
    else (List.replicate n 0, c.writeBurst (header &&& 0x7F) (List.replicate n 0))
  | .write header bytes =>
    if header &&& 0x80 = 0 then ((), (c.readBurst header bytes.length).2)
    else ((), c.writeBurst (header &&& 0x7F) bytes)

/-- The chip, and what it does by itself before each of the next transactions. -/
structure Bus where
  chip : Chip
  coming : List (List Chip.Event)

namespace Bus

/-- What happens before the next transaction has happened. -/
def settle (b : Bus) : Bus := ⟨(b.coming.headD []).foldl Chip.event b.chip, b.coming.tail⟩

def serve (b : Bus) (call : spi.Call) : spi.Response call × Bus :=
  ((b.settle.chip.serve call).1, ⟨(b.settle.chip.serve call).2, b.settle.coming⟩)

end Bus

/-! ## The driver -/

/-- The fields of `rfm9x_t` that the driver reads, and the number of assertions that have failed. -/
structure Vars where
  highPower : Bool
  maxPower : Bool
  failed : Nat
deriving DecidableEq

/-- `rfm9x_mk`. -/
def mk : Vars := ⟨true, false, 0⟩

abbrev Driver (α : Type) := Prog spi Vars α

/-- `ASSERT`. -/
def assert (condition : Prop) [Decidable condition] : Driver Unit :=
  if condition then pure () else modify fun r => { r with failed := r.failed + 1 }

/-- `rfm9x_get_buf`. -/
def getBuf (reg : UInt8) (n : Nat) : Driver (List UInt8) := perform (S := spi) (.read (reg &&& 0x7F) n)

/-- `rfm9x_put_buf`. -/
def putBuf (reg : UInt8) (buf : List UInt8) : Driver Unit := perform (S := spi) (.write (reg ||| 0x80) buf)

/-- `rfm9x_put8`. -/
def put8 (reg v : UInt8) : Driver Unit := putBuf reg [v]

/-- `rfm9x_get8`. -/
def get8 (reg : UInt8) : Driver UInt8 := do
  let buf ← getBuf reg 1
  return buf.headD 0

/-- A register, changed. -/
def change8 (reg : UInt8) (f : UInt32 → UInt32) : Driver Unit := do
  let c ← get8 reg
  put8 reg (f c.toUInt32).toUInt8

/-- A bit that is set or cleared. -/
def bitPut (bit : UInt32) (on : Bool) (c : UInt32) : UInt32 := if on then bitSet c bit else bitClr c bit

/-! ### Registers, as `rfm9x_reg_t` has them -/

abbrev reg00Fifo : UInt8 := 0x00
abbrev reg01OpMode : UInt8 := 0x01
abbrev reg06FrfMsb : UInt8 := 0x06
abbrev reg07FrfMid : UInt8 := 0x07
abbrev reg08FrfLsb : UInt8 := 0x08
abbrev reg09PaConfig : UInt8 := 0x09
abbrev reg0aPaRamp : UInt8 := 0x0A
abbrev reg0bOcp : UInt8 := 0x0B
abbrev reg0cLna : UInt8 := 0x0C
abbrev reg0dFifoAddrPtr : UInt8 := 0x0D
abbrev reg0eFifoTxBaseAddr : UInt8 := 0x0E
abbrev reg0fFifoRxBaseAddr : UInt8 := 0x0F
abbrev reg10FifoRxCurrentAddr : UInt8 := 0x10
abbrev reg12IrqFlags : UInt8 := 0x12
abbrev reg13RxNbBytes : UInt8 := 0x13
abbrev reg1dModemConfig1 : UInt8 := 0x1D
abbrev reg1eModemConfig2 : UInt8 := 0x1E
abbrev reg20PreambleMsb : UInt8 := 0x20
abbrev reg21PreambleLsb : UInt8 := 0x21
abbrev reg22PayloadLength : UInt8 := 0x22
abbrev reg24HopPeriod : UInt8 := 0x24
abbrev reg26ModemConfig3 : UInt8 := 0x26
abbrev reg40DioMapping1 : UInt8 := 0x40
abbrev reg42Version : UInt8 := 0x42
abbrev reg4dPaDac : UInt8 := 0x4D

/-! ### Modes -/

def sleepMode : UInt8 := 0
def standbyMode : UInt8 := 1
def txMode : UInt8 := 3
def rxMode : UInt8 := 5

/-- `rfm9x_set_mode`. -/
def setMode (mode : UInt8) : Driver Unit := change8 reg01OpMode (bitsSet · 0 2 mode.toUInt32)

/-- `rfm9x_get_mode`. -/
def getMode : Driver UInt8 := do
  let reg ← get8 reg01OpMode
  return (bitsGet reg.toUInt32 0 2).toUInt8

/-- `rfm9x_set_low_freq_mode`. -/
def setLowFreqMode (lowFreq : Bool) : Driver Unit := change8 reg01OpMode (bitPut 3 lowFreq)

/-- `rfm9x_set_lora`. -/
def setLora (lora : Bool) : Driver Unit := change8 reg01OpMode (bitPut 7 lora)

/-- `rfm9x_get_lora`. -/
def getLora : Driver UInt8 := do
  let reg ← get8 reg01OpMode
  return (bitIsOn reg.toUInt32 7).toUInt8

/-- `rfm9x_trigger_osc_calibration`. -/
def triggerOscCalibration : Driver Unit := change8 reg24HopPeriod (bitSet · 3)

/-! ### The transceiver -/

/-- `rfm9x_set_frequency`, `inFlight` where `IN_FLIGHT` is defined; `f` is in units of 0.1 MHz. -/
def setFrequency (inFlight : Bool) (f : UInt32) : Driver Unit :=
  if inFlight then do
    put8 reg06FrfMsb 0x6d
    put8 reg07FrfMid 0x86
    put8 reg08FrfLsb 0x66
  else do
    let frf := ((f <<< 14) / 10) &&& 0xFFFFFF
    put8 reg06FrfMsb ((frf >>> 16) &&& 0xFF).toUInt8
    put8 reg07FrfMid ((frf >>> 8) &&& 0xFF).toUInt8
    put8 reg08FrfLsb (frf &&& 0xFF).toUInt8

/-- `rfm9x_get_frequency`. -/
def getFrequency : Driver UInt32 := do
  let msb ← get8 reg06FrfMsb
  let mid ← get8 reg07FrfMid
  let lsb ← get8 reg08FrfLsb
  let frf := (msb.toUInt32 <<< 16 ||| mid.toUInt32 <<< 8 ||| lsb.toUInt32) &&& 0xFFFFFF
  return (frf * 10) >>> 14

/-- `rfm9x_set_preamble_length`. -/
def setPreambleLength (l : UInt16) : Driver Unit := do
  put8 reg20PreambleMsb (l >>> 8).toUInt8
  put8 reg21PreambleLsb (l &&& 0xFF).toUInt8

/-- `rfm9x_get_preamble_length`. -/
def getPreambleLength : Driver UInt16 := do
  let msb ← get8 reg20PreambleMsb
  let lsb ← get8 reg21PreambleLsb
  return (msb.toUInt16 <<< 8) ||| lsb.toUInt16

/-- `rfm9x_set_coding_rate`. -/
def setCodingRate (v : UInt8) : Driver Unit :=
  let denominator := if v > 8 then 8 else if v > 5 then v else 5
  change8 reg1dModemConfig1 (bitsSet · 1 3 (denominator - 4).toUInt32)

/-- `rfm9x_get_coding_rate`. -/
def getCodingRate : Driver UInt8 := do
  let config ← get8 reg1dModemConfig1
  return (bitsGet config.toUInt32 1 3 + 4).toUInt8

/-- `rfm9x_set_spreading_factor`. -/
def setSpreadingFactor (v : UInt8) : Driver Unit :=
  let factor := if v > 12 then 12 else if v > 6 then v else 6
  change8 reg1eModemConfig2 (bitsSet · 4 7 factor.toUInt32)

/-- `rfm9x_get_spreading_factor`. -/
def getSpreadingFactor : Driver UInt8 := do
  let c ← get8 reg1eModemConfig2
  return (bitsGet c.toUInt32 4 7).toUInt8

/-- `rfm9x_set_crc`. -/
def setCrc (crc : Bool) : Driver Unit := change8 reg1eModemConfig2 (bitPut 2 crc)

/-- `rfm9x_is_crc_enabled`. -/
def isCrcEnabled : Driver UInt8 := do
  let c ← get8 reg1eModemConfig2
  return (bitIsOn c.toUInt32 2).toUInt8

/-- `rfm9x_crc_error`. -/
def crcError : Driver UInt8 := do
  let flags ← get8 reg12IrqFlags
  return (flags &&& 0x20) >>> 5

/-- `rfm9x_set_output_power`. -/
def setOutputPower (power : UInt8) : Driver Unit :=
  change8 reg09PaConfig (bitsSet · 0 3 power.toUInt32)

/-- `rfm9x_get_output_power`. -/
def getOutputPower : Driver UInt8 := do
  let c ← get8 reg09PaConfig
  return (bitsGet c.toUInt32 0 3).toUInt8

/-- `rfm9x_set_max_power`. -/
def setMaxPower (power : UInt8) : Driver Unit :=
  change8 reg09PaConfig (bitsSet · 4 6 power.toUInt32)

/-- `rfm9x_set_pa_output_pin`. -/
def setPaOutputPin (select : Bool) : Driver Unit := change8 reg09PaConfig (bitPut 7 select)

/-- `rfm9x_set_pa_ramp`. -/
def setPaRamp (ramp : UInt8) : Driver Unit := change8 reg0aPaRamp (bitsSet · 0 3 ramp.toUInt32)

/-- `rfm9x_get_pa_ramp`. -/
def getPaRamp : Driver UInt8 := do
  let c ← get8 reg0aPaRamp
  return (bitsGet c.toUInt32 0 3).toUInt8

/-- `rfm9x_set_pa_dac`. -/
def setPaDac (dac : UInt8) : Driver Unit := change8 reg4dPaDac (bitsSet · 0 4 dac.toUInt32)

/-- `bw_bins`, without the 0 at its end. -/
def bwBins : List UInt32 := [7800, 10400, 15600, 20800, 31250, 41700, 62500, 125000, 250000]

/-- The number of the first bin that is wide enough, or 9. -/
def bwBin (bandwidth : UInt32) : Nat := bwBins.findIdx (bandwidth ≤ ·)

/-- `rfm9x_set_bandwidth`. -/
def setBandwidth (bandwidth : UInt32) : Driver Unit := do
  change8 reg1dModemConfig1 (bitsSet · 4 7 (UInt32.ofNat (bwBin bandwidth)))
  if bandwidth ≥ 500000 then do
    put8 0x36 0x02
    put8 0x3a 0x64
  else do
    if bandwidth = 7800 then put8 0x2F 0x48
    else if bandwidth ≥ 62500 then put8 0x2F 0x40
    else put8 0x2F 0x44
    put8 0x30 0

/-- `rfm9x_get_bandwidth`. -/
def getBandwidth : Driver UInt32 := do
  let c ← get8 reg1dModemConfig1
  return bwBins.getD (bitsGet c.toUInt32 4 7).toNat 500000

/-- `rfm9x_set_tx_power`. -/
def setTxPower (power : Int) : Driver Unit := do
  let r ← vars
  if r.maxPower then do
    put8 reg0bOcp 0x3F
    setPaDac 0x07
    setPaOutputPin true
    setMaxPower 0b111
    setOutputPower 0x0F
  else if r.highPower then do
    let power := max 5 (min power 23)
    if power > 20 then do
      setPaDac 0x07
      setPaOutputPin true
      setOutputPower (UInt8.ofNat (power - 3 - 5).toNat &&& 0xF)
    else do
      setPaDac 0x04
      setPaOutputPin true
      setOutputPower (UInt8.ofNat (power - 5).toNat &&& 0xF)
  else do
    let power := max (-1) (min power 14)
    setPaOutputPin false
    setMaxPower 0b111
    setOutputPower (UInt8.ofNat (power + 1).toNat &&& 0x0F)

/-- `rfm9x_get_tx_power`. -/
def getTxPower : Driver Int := do
  let r ← vars
  let power ← getOutputPower
  return if r.highPower then power.toNat + 5 else power.toNat - 1

/-- `rfm9x_set_lna_boost`. -/
def setLnaBoost (boost : UInt8) : Driver Unit := change8 reg0cLna (bitsSet · 0 1 boost.toUInt32)

/-- `rfm9x_get_lna_boost`. -/
def getLnaBoost : Driver UInt8 := do
  let c ← get8 reg0cLna
  return (bitsGet c.toUInt32 0 1).toUInt8

/-- `rfm9x_set_agc`. -/
def setAgc (agc : Bool) : Driver Unit := change8 reg26ModemConfig3 (bitPut 2 agc)

/-- `rfm9x_is_agc_on`. -/
def isAgcOn : Driver UInt8 := do
  let c ← get8 reg26ModemConfig3
  return (bitIsOn c.toUInt32 2).toUInt8

/-- `RFM9X_FREQUENCY`. -/
def frequency : UInt32 := 4381

/-- `RFM9X_BANDWIDTH`. -/
def bandwidth : UInt32 := 125000

/-- `rfm9x_init` from LoRa mode on. -/
def configure (inFlight : Bool) : Driver Unit := do
  put8 reg0eFifoTxBaseAddr 0
  put8 reg0fFifoRxBaseAddr 0
  put8 reg24HopPeriod 0
  setMode standbyMode
  setFrequency inFlight frequency
  setPreambleLength 8
  assert ((← getPreambleLength) = 8)
  setBandwidth bandwidth
  assert ((← getBandwidth) = bandwidth)
  setCodingRate 5
  assert ((← getCodingRate) = 5)
  setSpreadingFactor 7
  assert ((← getSpreadingFactor) = 7)
  setCrc true
  assert ((← isCrcEnabled) = 1)
  put8 reg26ModemConfig3 0x00
  setTxPower 5
  let r ← vars
  if ¬r.maxPower then
    assert ((← getTxPower) = 5)
  else
    let _ ← getTxPower
  setPaRamp 0
  assert ((← getPaRamp) = 0)
  setLnaBoost 0b11
  assert ((← getLnaBoost) = 0b11)
  setAgc true
  assert ((← isAgcOn) = 1)

/-- `rfm9x_init` from the first transaction on; `pico` and `inFlight` are how the program is built. -/
def init (pico inFlight : Bool) : Driver Unit := do
  modify fun r => if pico then r else { r with maxPower := true }
  setMode standbyMode
  triggerOscCalibration
  setMode sleepMode
  setLora true
  configure inFlight

/-! ### Packets -/

/-- `rfm9x_version`. -/
def version : Driver UInt8 := get8 reg42Version

/-- What `rfm9x_print_parameters` prints. -/
structure Parameters where
  frequency : UInt32
  spreadingFactor : UInt8
  bandwidth : UInt32
  codingRate : UInt8
  preambleLength : UInt16
  txPower : Int
  lnaBoost : UInt8
  crcEnabled : Bool
  paRamp : UInt8
  version : UInt8
  lora : Bool

/-- `rfm9x_print_parameters`. -/
def printParameters : Driver Parameters := do
  let frequency ← getFrequency
  let spreadingFactor ← getSpreadingFactor
  let bandwidth ← getBandwidth
  let codingRate ← getCodingRate
  let preambleLength ← getPreambleLength
  let txPower ← getTxPower
  let lnaBoost ← getLnaBoost
  let crcEnabled ← isCrcEnabled
  let paRamp ← getPaRamp
  let version ← version
  let lora ← getLora
  return {
    frequency, spreadingFactor, bandwidth, codingRate, preambleLength, txPower, lnaBoost
    crcEnabled := crcEnabled ≠ 0
    paRamp, version
    lora := lora ≠ 0 }

/-- `rfm9x_transmit`. -/
def transmit : Driver Unit := do
  setMode txMode
  change8 reg40DioMapping1 (bitsSet · 6 7 0b01)

/-- `rfm9x_listen`. -/
def listen : Driver Unit := do
  setMode rxMode
  change8 reg40DioMapping1 (bitsSet · 6 7 0b00)

/-- `rfm9x_tx_done`. -/
def txDone : Driver UInt8 := do
  let flags ← get8 reg12IrqFlags
  return (flags &&& 0x8) >>> 3

/-- `rfm9x_rx_done`. -/
def rxDone : Driver UInt8 := do
  let flags ← get8 reg12IrqFlags
  return (flags &&& 0x40) >>> 6

/-- `rfm9x_packet_to_fifo`. -/
def packetToFifo (buf : List UInt8) : Driver Unit := do
  let oldMode ← getMode
  setMode standbyMode
  put8 reg0dFifoAddrPtr 0x00
  putBuf reg00Fifo buf
  put8 reg22PayloadLength (UInt8.ofNat buf.length)
  setMode oldMode

/-- `rfm9x_is_crc_enabled(r) && rfm9x_crc_error(r)`, the second only where the first is not 0. -/
def crcFailed : Driver Bool := do
  if (← isCrcEnabled) ≠ 0 then return (← crcError) ≠ 0
  else return false

/-- `rfm9x_packet_from_fifo`: `n_read`, and what is read into the buffer. -/
def packetFromFifo : Driver (UInt8 × List UInt8) := do
  let oldMode ← getMode
  setMode standbyMode
  if ← crcFailed then do
    setMode oldMode
    return (0, [])
  else do
    let fifoLength ← get8 reg13RxNbBytes
    if fifoLength > 0 then do
      let currentAddr ← get8 reg10FifoRxCurrentAddr
      put8 reg0dFifoAddrPtr currentAddr
      let buf ← getBuf reg00Fifo fifoLength.toNat
      setMode oldMode
      return (fifoLength, buf)
    else do
      setMode oldMode
      return (fifoLength, [])

/-- `rfm9x_clear_interrupts`. -/
def clearInterrupts : Driver Unit := put8 reg12IrqFlags 0xFF

/-- `rfm9x_interrupt_received` for the radio's own pin, with the handlers that are set and what they
give. -/
def interruptReceived {α : Type} [Inhabited α] (txIrq rxIrq : Option (Driver α)) : Driver α := do
  if (← txDone) ≠ 0 then txIrq.getD (pure default)
  else if (← rxDone) ≠ 0 then rxIrq.getD (pure default)
  else pure default

/-! ## Transactions -/

section Transactions

variable {a : UInt8} {v : Vars}

/-- A register that has an address and is not the FIFO. -/
def IsRegister (a : UInt8) : Prop := a ≠ 0 ∧ a < 0x80

instance (a : UInt8) : Decidable (IsRegister a) := by
  unfold IsRegister
  infer_instance

theorem read_header : ∀ a : UInt8, (a &&& 0x7F) &&& 0x80 = 0 := by decide +kernel

theorem write_header : ∀ a : UInt8, (a ||| 0x80) &&& 0x80 ≠ 0 := by decide +kernel

theorem header_address : ∀ a : UInt8, a < 0x80 → a &&& 0x7F = a ∧ (a ||| 0x80) &&& 0x7F = a := by
  decide +kernel

theorem Chip.serve_read (c : Chip) (a : UInt8) (n : Nat) :
    c.serve (.read (a &&& 0x7F) n) = c.readBurst (a &&& 0x7F) n := by
  rw [Chip.serve, if_pos (read_header a)]

theorem Chip.serve_write (c : Chip) (a : UInt8) (bytes : List UInt8) :
    c.serve (.write (a ||| 0x80) bytes) = ((), c.writeBurst ((a ||| 0x80) &&& 0x7F) bytes) := by
  rw [Chip.serve, if_neg (write_header a)]

/-- A single register is read and stays as it is. -/
theorem Chip.serve_get8 (c : Chip) (ha : IsRegister a) :
    c.serve (.read (a &&& 0x7F) 1) = ([c.get a], c) := by
  rw [Chip.serve_read, (header_address a ha.2).1]
  simp [Chip.readBurst, ha.1]

theorem Chip.serve_put8 (c : Chip) (ha : IsRegister a) (x : UInt8) :
    c.serve (.write (a ||| 0x80) [x]) = ((), c.put a x) := by
  rw [Chip.serve_write, (header_address a ha.2).2]
  simp [Chip.writeBurst, ha.1]

variable {b : Bus}

/-- Reading a register, when what was to happen has happened. -/
theorem exec_get8 (ha : IsRegister a) :
    (get8 a).exec Bus.serve v b = (b.settle.chip.get a, v, b.settle) := by
  show (perform (S := spi) (.read (a &&& 0x7F) 1) >>= fun buf => pure (buf.headD 0)).exec _ _ _ = _
  rw [exec_perform_bind, Bus.serve, Chip.serve_get8 _ ha]
  rfl

theorem exec_put8 (ha : IsRegister a) (x : UInt8) :
    (put8 a x).exec Bus.serve v b = ((), v, ⟨b.settle.chip.put a x, b.settle.coming⟩) := by
  show (perform (S := spi) (.write (a ||| 0x80) [x])).exec _ _ _ = _
  rw [exec_perform, Bus.serve, Chip.serve_put8 _ ha]

theorem exec_change8 (ha : IsRegister a) (f : UInt32 → UInt32) :
    (change8 a f).exec Bus.serve v b = ((), v,
      ⟨b.settle.settle.chip.put a (f (b.settle.chip.get a).toUInt32).toUInt8,
        b.settle.settle.coming⟩) := by
  rw [change8, exec_bind, exec_get8 ha]
  exact exec_put8 ha _

end Transactions

/-! ## What the chip does by itself -/

/-- Every property that its events keep holds before the next transaction. -/
theorem Bus.settle_of {P : Chip → Prop} (hevent : ∀ c e, P c → P (c.event e)) {b : Bus}
    (h : P b.chip) : P b.settle.chip := by
  unfold Bus.settle
  generalize b.coming.headD [] = events
  generalize b.chip = c at h
  induction events generalizing c with
  | nil => exact h
  | cons e events ih => exact ih (c.event e) (hevent c e h)

namespace Chip

theorem txDone_bits : ∀ x : UInt8,
    (x &&& ~~~7 ||| 1) &&& 0xC0 = x &&& 0xC0 ∧ (x &&& ~~~7 ||| 1) &&& 0xF8 = x &&& 0xF8 := by
  decide +kernel

/-- The bits of `OP_MODE` that are not the mode. -/
def upper (c : Chip) : UInt8 := c.shared 0x01 &&& 0xF8

theorem inLora_eq (c : Chip) : c.inLora = decide (c.upper &&& 0xC0 = 0x80) := by
  have hbits : ∀ x : UInt8, (x &&& 0xF8) &&& 0xC0 = x &&& 0xC0 := by decide +kernel
  rw [inLora, upper, hbits]

theorem upper_event (c : Chip) (e : Event) : (c.event e).upper = c.upper := by
  cases e with
  | txDone =>
    unfold event
    dsimp only
    split
    · simp [upper, (txDone_bits _).2]
    · rfl
  | rxDone start frame =>
    unfold event
    dsimp only
    split <;> rfl
  | status a x =>
    unfold event
    dsimp only
    split <;> rfl

/-- No event leaves or enters LoRa mode. -/
theorem inLora_event (c : Chip) (e : Event) : (c.event e).inLora = c.inLora := by
  rw [inLora_eq, inLora_eq, upper_event]

/-- A register that the chip does not change. -/
def Steady (a : UInt8) : Prop :=
  IsRegister a ∧ a ≠ 0x01 ∧ a ≠ 0x0D ∧ a ≠ 0x10 ∧ a ≠ 0x12 ∧ a ≠ 0x13 ∧ ¬ IsStatus a

instance (a : UInt8) : Decidable (Steady a) := by
  unfold Steady
  infer_instance

theorem get_congr {c c' : Chip} {a : UInt8} (hinLora : c'.inLora = c.inLora)
    (hshared : c'.shared a = c.shared a) (hfsk : c'.fsk a = c.fsk a)
    (hlora : c'.lora a = c.lora a) : c'.get a = c.get a := by
  rw [get, get, hinLora, hshared, hfsk, hlora]

theorem get_event {a : UInt8} (ha : Steady a) (c : Chip) (e : Event) :
    (c.event e).get a = c.get a := by
  obtain ⟨-, h01, -, h10, h12, h13, hstatus⟩ := ha
  refine get_congr (inLora_event c e) ?_ ?_ ?_
  · cases e with
    | txDone =>
      unfold event
      dsimp only
      split
      · exact Function.update_of_ne h01 _ _
      · rfl
    | rxDone start frame =>
      unfold event
      dsimp only
      split <;> rfl
    | status x y =>
      unfold event
      dsimp only
      split <;> rfl
  · cases e <;>
      · unfold event
        dsimp only
        split <;> rfl
  · cases e with
    | txDone =>
      unfold event
      dsimp only
      split
      · exact Function.update_of_ne h12 _ _
      · rfl
    | rxDone start frame =>
      unfold event
      dsimp only
      split
      · dsimp only
        rw [Function.update_of_ne h12, Function.update_of_ne h13, Function.update_of_ne h10]
      · rfl
    | status x y =>
      unfold event
      dsimp only
      split
      · next h =>
        have hne : a ≠ x := fun heq => hstatus (heq ▸ h)
        exact Function.update_of_ne hne _ _
      · rfl

/-! ### Modes -/

theorem or_and_byte (x y z : UInt8) : (x ||| y) &&& z = x &&& z ||| y &&& z := by
  refine UInt8.toBitVec_inj.mp ?_
  ext i hi
  simp [Bool.and_or_distrib_right]

theorem mode_bits : ∀ m : UInt8, m < 8 → m &&& 0xF8 = 0 ∧ m &&& 7 = m ∧ m &&& 0x7F = m := by
  decide +kernel

theorem upper_bits : ∀ x : UInt8, (x &&& 0xF8) &&& 0xF8 = x &&& 0xF8 ∧ (x &&& 0xF8) &&& 7 = 0 ∧
    (x &&& 0xF8) &&& 0x7F ||| x &&& 0x80 = x &&& 0xF8 := by
  decide +kernel

theorem bitsClr_mode : ∀ x : UInt8, (bitsClr x.toUInt32 0 2).toUInt8 = x &&& 0xF8 := by
  decide +kernel

theorem bitsSet_mode (x m : UInt8) :
    (bitsSet x.toUInt32 0 2 m.toUInt32).toUInt8 = x &&& 0xF8 ||| m := by
  rw [bitsSet, UInt32.toUInt8_or, bitsClr_mode]
  congr 1
  simp

/-- What is written to `OP_MODE` with the upper bits that it has. -/
theorem putOpMode_bits (x : UInt8) {m : UInt8} (hm : m < 8) :
    (if x &&& 7 = 0 then x &&& 0xF8 ||| m
      else (x &&& 0xF8 ||| m) &&& 0x7F ||| x &&& 0x80) = x &&& 0xF8 ||| m := by
  obtain ⟨-, -, hlow⟩ := mode_bits m hm
  obtain ⟨-, -, hhigh⟩ := upper_bits x
  split
  · rfl
  · rw [or_and_byte, hlow, UInt8.or_assoc, UInt8.or_comm m, ← UInt8.or_assoc, hhigh]

/-- The chip in a mode; in TX mode it has begun to transmit, unless it was in TX mode before. -/
def inMode (m : UInt8) (c : Chip) : Chip :=
  let c' := { c with shared := Function.update c.shared 0x01 (c.upper ||| m) }
  if c.inLora ∧ m = 3 ∧ c.mode ≠ 3 then { c' with begun := c'.begun ++ [c'.toTransmit] } else c'

/-- The driver changes the mode, whatever has become of it since it was read. -/
theorem put_mode {c : Chip} {x m : UInt8} (hm : m < 8) (hx : x &&& 0xF8 = c.upper) :
    c.put 0x01 (bitsSet x.toUInt32 0 2 m.toUInt32).toUInt8 = c.inMode m := by
  obtain ⟨hnone, hall, -⟩ := mode_bits m hm
  obtain ⟨hupper, hlow, -⟩ := upper_bits (c.shared 0x01)
  have hvalue : (if c.mode = 0 then c.upper ||| m
      else (c.upper ||| m) &&& 0x7F ||| c.shared 0x01 &&& 0x80) = c.upper ||| m :=
    putOpMode_bits (c.shared 0x01) hm
  have hmode : (c.upper ||| m) &&& 7 = m := by
    rw [or_and_byte, upper, hlow, hall, UInt8.zero_or]
  have hinLora : Chip.inLora { c with shared := Function.update c.shared 0x01 (c.upper ||| m) } =
      c.inLora := by
    have hkept : (c.upper ||| m) &&& 0xF8 = c.upper := by
      rw [or_and_byte, upper, hupper, hnone, UInt8.or_zero]
    rw [inLora_eq, inLora_eq]
    simp only [upper, Function.update_self] at hkept ⊢
    rw [hkept]
    rfl
  rw [put, if_pos rfl, putOpMode, bitsSet_mode, hx, hvalue, inMode]
  simp only [hinLora]
  simp only [mode, Function.update_self, hmode]
  rfl

theorem upper_inMode (c : Chip) {m : UInt8} (hm : m < 8) : (c.inMode m).upper = c.upper := by
  obtain ⟨hnone, -, -⟩ := mode_bits m hm
  obtain ⟨hupper, -, -⟩ := upper_bits (c.shared 0x01)
  have hkept : (c.upper ||| m) &&& 0xF8 = c.upper := by
    rw [or_and_byte, upper, hupper, hnone, UInt8.or_zero]
  unfold inMode
  split
  · simp only [upper, Function.update_self] at hkept ⊢
    exact hkept
  · simp only [upper, Function.update_self] at hkept ⊢
    exact hkept

theorem inLora_inMode (c : Chip) {m : UInt8} (hm : m < 8) : (c.inMode m).inLora = c.inLora := by
  rw [inLora_eq, inLora_eq, upper_inMode c hm]

theorem mode_inMode (c : Chip) {m : UInt8} (hm : m < 8) : (c.inMode m).mode = m := by
  obtain ⟨-, hall, -⟩ := mode_bits m hm
  obtain ⟨-, hlow, -⟩ := upper_bits (c.shared 0x01)
  have hmode : (c.upper ||| m) &&& 7 = m := by
    rw [or_and_byte, upper, hlow, hall, UInt8.zero_or]
  unfold inMode
  split
  · simp only [mode, Function.update_self]
    exact hmode
  · simp only [mode, Function.update_self]
    exact hmode

@[simp] theorem lora_inMode (c : Chip) (m : UInt8) : (c.inMode m).lora = c.lora := by
  unfold inMode
  dsimp only
  split <;> rfl

@[simp] theorem memory_inMode (c : Chip) (m : UInt8) : (c.inMode m).memory = c.memory := by
  unfold inMode
  dsimp only
  split <;> rfl

@[simp] theorem received_inMode (c : Chip) (m : UInt8) : (c.inMode m).received = c.received := by
  unfold inMode
  dsimp only
  split <;> rfl

theorem begun_inMode (c : Chip) (m : UInt8) : (c.inMode m).begun =
    if c.inLora ∧ m = 3 ∧ c.mode ≠ 3 then c.begun ++ [c.toTransmit] else c.begun := by
  unfold inMode
  dsimp only
  split <;> rfl

theorem get_inMode (c : Chip) {m a : UInt8} (hm : m < 8) (ha : a ≠ 0x01) :
    (c.inMode m).get a = c.get a := by
  refine get_congr (inLora_inMode c hm) ?_ ?_ ?_
  · unfold inMode
    dsimp only
    split <;> exact Function.update_of_ne ha _ _
  · unfold inMode
    dsimp only
    split <;> rfl
  · rw [lora_inMode]

end Chip

theorem Bus.upper_settle (b : Bus) : b.settle.chip.upper = b.chip.upper :=
  Bus.settle_of (P := fun c => c.upper = b.chip.upper) (fun c e h => (c.upper_event e).trans h) rfl

theorem Bus.inLora_settle (b : Bus) : b.settle.chip.inLora = b.chip.inLora := by
  rw [Chip.inLora_eq, Chip.inLora_eq, Bus.upper_settle]

theorem exec_setMode {v : Vars} {b : Bus} {m : UInt8} (hm : m < 8) :
    (setMode m).exec Bus.serve v b =
      ((), v, ⟨b.settle.settle.chip.inMode m, b.settle.settle.coming⟩) := by
  have hupper : b.settle.chip.get 0x01 &&& 0xF8 = b.settle.settle.chip.upper := by
    rw [Bus.upper_settle]
    rfl
  rw [setMode, exec_change8 (by decide), Chip.put_mode hm hupper]

end Samwise.Rfm9x
