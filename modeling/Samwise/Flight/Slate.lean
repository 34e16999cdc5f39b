import Samwise.Lib.BoundedQueue
import Samwise.Packet.Packet

/-!
# Samwise — the slate

`slate_t` (`src/slate/slate.h`) with the fields the state machine, the command path and the
burn-wire sequence read or write, and the types of those fields. Times are microseconds since
boot, as `absolute_time_t` holds them.
-/

namespace Samwise

/-- `state_id_t`. -/
inductive StateId where
  | stateNone
  | stateInit
  | stateRunning
  | stateBurnWire
  | stateBurnWireReset
  | stateBringup
deriving DecidableEq, Repr

/-- `Command` (`command_parser.h`). -/
inductive Command where
  | ping
  | payloadExec
  | payloadTurnOn
  | payloadTurnOff
  | manualStateOverride
  | adcsExec
  | adcsPacket
deriving DecidableEq, Repr

/-- The enumerator with a given value; the enumeration counts from zero. -/
def Command.ofByte (b : UInt8) : Option Command :=
  [Command.ping, .payloadExec, .payloadTurnOn, .payloadTurnOff, .manualStateOverride, .adcsExec,
    .adcsPacket][b.toNat]?

/-- `PAYLOAD_COMMAND_DATA`. -/
structure PayloadCommandData where
  serializedCommand : Vector UInt8 209
  seqNum : UInt16
  commandType : Command
deriving DecidableEq

/-- `watchdog_t`, without the number of its pin. -/
structure Watchdog where
  lastTransition : UInt64
  set : Bool
  usLow : UInt64
  usHigh : UInt64
  isInitialized : Bool
deriving DecidableEq, Repr

/-- `PAYLOAD_DATA_CAPACITY`. -/
def payloadDataCapacity : Nat := 32

/-- `TX_QUEUE_SIZE`. -/
def txQueueSize : Nat := 16

/-- `RX_QUEUE_SIZE`. -/
def rxQueueSize : Nat := 16

/-- `slate_t`. `currCommandSeqNum` is a C `int`, kept as its 32 bits. -/
structure Slate where
  rebootCounter : UInt32
  currentStateId : StateId
  enteredCurrentStateTime : UInt64
  timeInCurrentStateMs : UInt64
  manualOverrideStateId : StateId
  panelADeployed : Bool
  panelBDeployed : Bool
  watchdog : Watchdog
  payloadCommandData : BoundedQueue PayloadCommandData payloadDataCapacity
  numberCommandsProcessed : UInt8
  txQueue : BoundedQueue Packet txQueueSize
  rxQueue : BoundedQueue Packet rxQueueSize
  currCommandSeqNum : UInt32
  isPayloadOn : Bool
  payloadMostRecentPingTime : UInt64
deriving DecidableEq

/-- The slate after `clear_and_init_slate`: all bytes zero, and so `STATE_INIT`, value 0, for
both state ids. -/
def clearAndInitSlate : Slate where
  rebootCounter := 0
  currentStateId := .stateInit
  enteredCurrentStateTime := 0
  timeInCurrentStateMs := 0
  manualOverrideStateId := .stateInit
  panelADeployed := false
  panelBDeployed := false
  watchdog := ⟨0, false, 0, 0, false⟩
  payloadCommandData := .empty
  numberCommandsProcessed := 0
  txQueue := .empty
  rxQueue := .empty
  currCommandSeqNum := 0
  isPayloadOn := false
  payloadMostRecentPingTime := 0

end Samwise
