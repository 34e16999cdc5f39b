import Samwise.Lib.BoundedQueue
import Samwise.Lib.Run
import Samwise.Flight.Slate

/-!
# Samwise — the radio task, its interrupt and the chip

`tx_done` and `radio_task_dispatch` (`src/tasks/radio/radio_task.c`) over the register accesses
of `src/drivers/rfm9x/rfm9x.c`. The main thread goes through a dispatch one access at a time, so
that the chip can finish a transmission, a packet can be queued and the interrupt handler can
run between any two of them; the handler itself runs through. The chip transmits its FIFO when
it enters TX mode, aborts when another mode is set meanwhile, and goes to STANDBY by itself as it
raises TxDone. Reception is left out. The registers behind it are in `Drivers/Rfm9xTransmission`.
-/

namespace Samwise

open Run

/-! ## The chip -/

/-- A transmission: what the FIFO held, `none` if nothing was written to it since reset, and
whether it is the first one of that content. -/
structure Transmission where
  content : Option (List UInt8)
  first : Bool
deriving DecidableEq

/-- The operating modes the driver sets. -/
inductive RadioMode where
  | standby
  | tx
  | rx
deriving DecidableEq, Repr

/-- What the chip does. -/
inductive ChipState where
  | standby
  | rx
  | sending (t : Transmission)
deriving DecidableEq

/-- The chip, with `unsent` for a FIFO content that was not transmitted yet, the TxDone flag, and
`dioTx` for the mapping of DIO0 to it. -/
structure Chip where
  state : ChipState
  fifo : Option (List UInt8)
  unsent : Bool
  txDone : Bool
  dioTx : Bool
deriving DecidableEq

/-- What happens to packets between the queue and the air. -/
inductive AirEvent where
  | taken (bytes : List UInt8)
  | loaded (bytes : List UInt8)
  | began (t : Transmission)
  | completed (t : Transmission)
  | aborted (t : Transmission)
  | overwritten (t : Transmission)
deriving DecidableEq

/-- `rfm9x_get_mode`. -/
def Chip.getMode (c : Chip) : RadioMode :=
  match c.state with
  | .standby => .standby
  | .rx => .rx
  | .sending _ => .tx

/-- `rfm9x_set_mode`. -/
def Chip.setMode (mode : RadioMode) (c : Chip) : Chip × List AirEvent :=
  match mode, c.state with
  | .tx, .sending _ => (c, [])
  | .tx, _ =>
      ({ c with state := .sending ⟨c.fifo, c.unsent⟩, unsent := false },
        [.began ⟨c.fifo, c.unsent⟩])
  | .standby, .sending t => ({ c with state := .standby }, [.aborted t])
  | .rx, .sending t => ({ c with state := .rx }, [.aborted t])
  | .standby, _ => ({ c with state := .standby }, [])
  | .rx, _ => ({ c with state := .rx }, [])

/-- The FIFO and the payload length, written. -/
def Chip.loadFifo (bytes : List UInt8) (c : Chip) : Chip × List AirEvent :=
  let overwritten : List AirEvent := match c.state with
    | .sending t => [.overwritten t]
    | _ => []
  ({ c with fifo := some bytes, unsent := true }, overwritten ++ [.loaded bytes])

/-- The DIO mapping, written. -/
def Chip.mapDio (dioTx : Bool) (c : Chip) : Chip × List AirEvent := ({ c with dioTx }, [])

/-- `rfm9x_clear_interrupts`. -/
def Chip.clearInterrupts (c : Chip) : Chip × List AirEvent := ({ c with txDone := false }, [])

/-- The end of a transmission. -/
def Chip.finish (t : Transmission) (c : Chip) : Chip × List AirEvent :=
  ({ c with state := .standby, txDone := true }, [.completed t])

/-- The level of the DIO0 pin. -/
def Chip.dio0 (c : Chip) : Bool := c.dioTx && c.txDone

/-! ## The processor -/

/-- Where the main thread is: outside a dispatch, or at the next access of one. `bytes` is what
`rfm9x_packet_to_fifo` was called with, `old` its `old_mode`. -/
inductive MainPc where
  | idle
  | transmitMode
  | transmitDio
  | take
  | saveMode (bytes : List UInt8)
  | standby (bytes : List UInt8) (old : RadioMode)
  | load (bytes : List UInt8) (old : RadioMode)
  | restore (old : RadioMode)
  | clear
  | listenClear
  | listenMode
  | listenDio
deriving DecidableEq

/-- The radio with the processor; `pending` is the rising edge of DIO0, not yet served, and
`log` what happened so far. -/
structure Radio where
  txQueue : BoundedQueue Packet txQueueSize
  chip : Chip
  pending : Bool
  main : MainPc
  log : List AirEvent
deriving DecidableEq

/-- An access to the chip. A rising edge of DIO0 is remembered. -/
def Radio.access (f : Chip → Chip × List AirEvent) (s : Radio) : Radio :=
  { s with
    chip := (f s.chip).1
    pending := s.pending || (!s.chip.dio0 && (f s.chip).1.dio0)
    log := s.log ++ (f s.chip).2 }

/-- The bytes `encode_packet` gives for the downlink; `none` where it returns 0. -/
def encodeForTx (p : Packet) : Option (List UInt8) :=
  let encoded := encodePacket p (List.replicate packetSize 0) false
  if encoded.1 = 0 then none else some (encoded.2.take encoded.1)

/-- `rfm9x_listen`. -/
def rfm9xListen (s : Radio) : Radio := (s.access (Chip.setMode .rx)).access (Chip.mapDio false)

/-- `rfm9x_transmit`. -/
def rfm9xTransmit (s : Radio) : Radio := (s.access (Chip.setMode .tx)).access (Chip.mapDio true)

/-- `rfm9x_packet_to_fifo`. -/
def rfm9xPacketToFifo (bytes : List UInt8) (s : Radio) : Radio :=
  let oldMode := s.chip.getMode
  ((s.access (Chip.setMode .standby)).access (Chip.loadFifo bytes)).access (Chip.setMode oldMode)

/-- `tx_done`. -/
def txDone (s : Radio) : Radio :=
  match s.txQueue.tryRemove with
  | (some p, txQueue) =>
      let s := { s with txQueue }
      match encodeForTx p with
      | none => s.access Chip.clearInterrupts
      | some bytes =>
          let s := { s with log := s.log ++ [.taken bytes] }
          (rfm9xPacketToFifo bytes s).access Chip.clearInterrupts
  | (none, _) => rfm9xListen (s.access Chip.clearInterrupts)

/-- `rfm9x_interrupt_received`. -/
def interruptReceived (s : Radio) : Radio := if s.chip.txDone then txDone s else s

/-- The next access of a dispatch: `rfm9x_transmit` and `tx_done`, or `rfm9x_listen`. -/
def mainStep (s : Radio) : Option Radio :=
  match s.main with
  | .idle => none
  | .transmitMode => some { s.access (Chip.setMode .tx) with main := .transmitDio }
  | .transmitDio => some { s.access (Chip.mapDio true) with main := .take }
  | .take =>
      match s.txQueue.tryRemove with
      | (some p, txQueue) =>
          match encodeForTx p with
          | none => some { s with txQueue, main := .clear }
          | some bytes =>
              some { s with txQueue, main := .saveMode bytes, log := s.log ++ [.taken bytes] }
      | (none, _) => some { s with main := .listenClear }
  | .saveMode bytes => some { s with main := .standby bytes s.chip.getMode }
  | .standby bytes old => some { s.access (Chip.setMode .standby) with main := .load bytes old }
  | .load bytes old => some { s.access (Chip.loadFifo bytes) with main := .restore old }
  | .restore old => some { s.access (Chip.setMode old) with main := .clear }
  | .clear => some { s.access Chip.clearInterrupts with main := .idle }
  | .listenClear => some { s.access Chip.clearInterrupts with main := .listenMode }
  | .listenMode => some { s.access (Chip.setMode .rx) with main := .listenDio }
  | .listenDio => some { s.access (Chip.mapDio false) with main := .idle }

/-- A packet is queued, `radio_task_dispatch` is called, the main thread goes on, the chip raises
TxDone, the interrupt is served. -/
inductive RadioEvent where
  | add (p : Packet)
  | dispatch
  | main
  | txDone
  | interrupt

def radioStep (s : Radio) : RadioEvent → Option Radio
  | .add p => some { s with txQueue := (s.txQueue.tryAdd p).2 }
  | .dispatch =>
      match s.main with
      | .idle =>
          some { s with main := if s.txQueue.elems = [] then .listenMode else .transmitMode }
      | _ => none
  | .main => mainStep s
  | .txDone =>
      match s.chip.state with
      | .sending t => some (s.access (Chip.finish t))
      | _ => none
  | .interrupt =>
      if s.pending then some (interruptReceived { s with pending := false }) else none

/-- Behind `radio_task_init`: it listens, and then switches to TX mode. -/
def radioTaskInit : Radio :=
  rfm9xTransmit (rfm9xListen
    { txQueue := .empty
      chip := { state := .standby, fifo := none, unsent := false, txDone := false, dioTx := false }
      pending := false
      main := .idle
      log := [] })

end Samwise
