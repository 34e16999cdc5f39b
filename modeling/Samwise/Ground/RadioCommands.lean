import Samwise.Command.CommandParser
import Samwise.Ground.Protocol

/-!
# Samwise — the ground station's high-level commands

The `LoraRadio` methods of `ground_station/radio_commands.py`, each a call of `send_command`
with its constant of `config.py`, down to the bytes on the air. A radio is present:
`send_command` returns without sending where there is none.
-/

namespace Samwise.Ground

/-! ## `config.py`: the command constants -/

def noOp : UInt8 := 0
def payloadExec : UInt8 := 1
def payloadTurnOn : UInt8 := 2
def payloadTurnOff : UInt8 := 3
def manualStateOverride : UInt8 := 4
def payloadShutdown : UInt8 := 5
def adcsExec : UInt8 := 6

/-! ## Sending -/

/-- The argument of a command: a `str`, or `bytes`. -/
inductive CmdPayload where
  | str (s : String)
  | bytes (bs : List UInt8)

/-- The bytes an argument contributes to the packet. -/
def CmdPayload.encode : CmdPayload → List UInt8
  | .str s => utf8 s
  | .bytes bs => bs

/-- `create_cmd_payload`. -/
def createCmdPayload (cmdId : UInt8) (cmdPayload : CmdPayload) : List UInt8 :=
  cmdId :: cmdPayload.encode

/-- The commands of `LoraRadio`, with their arguments. -/
inductive RadioCommand where
  | sendNoOp
  | sendPayloadExec (commandStr : CmdPayload)
  | sendPayloadTurnOn
  | sendPayloadTurnOff
  | sendPayloadShutdown
  | sendManualStateOverride (stateName : CmdPayload)
  | sendAdcsExec (commandByte : CmdPayload)

/-- The constant and the argument each method passes to `send_command`. -/
def RadioCommand.call : RadioCommand → UInt8 × CmdPayload
  | .sendNoOp => (noOp, .str "")
  | .sendPayloadExec commandStr => (payloadExec, commandStr)
  | .sendPayloadTurnOn => (payloadTurnOn, .str "")
  | .sendPayloadTurnOff => (payloadTurnOff, .str "")
  | .sendPayloadShutdown => (payloadShutdown, .str "")
  | .sendManualStateOverride stateName => (manualStateOverride, stateName)
  | .sendAdcsExec commandByte => (adcsExec, commandByte)

section Send

variable (hmac : Hmac) (key : PacketHmacPsk) (env : SaveEnv) (sm : StateManager)

/-- `send_command`: the bytes on the air, and the state manager afterwards. -/
def sendCommand (cmdId : UInt8) (cmdPayload : CmdPayload) (dst : Int) :
    Except PyError (List UInt8) × StateManager :=
  let data := createCmdPayload cmdId cmdPayload
  let created := createPacket hmac key env sm dst 0xFF 0x00 0x00 data
  (created.1.map radioSend, created.2)

/-- A high-level command. -/
def RadioCommand.send (c : RadioCommand) : Except PyError (List UInt8) × StateManager :=
  sendCommand hmac key env sm c.call.1 c.call.2 0xFF

/-- The data of the packet that carries a command. -/
def RadioCommand.data (c : RadioCommand) : List UInt8 := createCmdPayload c.call.1 c.call.2

/-- **What goes on the air.** A command that is sent has data that fits and counters of 32
bits, and the bytes on the air are the frame of the packet signed with them. -/
theorem RadioCommand.send_ok {c : RadioCommand} {air : List UInt8}
    (h : (c.send hmac key env sm).1 = .ok air) (data : Vector UInt8 210) :
    c.data.length ≤ 210 ∧ ∃ bootCount msgId : UInt32,
      air = (signedPacket hmac key 255 255 0 0 bootCount msgId c.data data).frame := by
  obtain ⟨packet, hcreate, rfl⟩ : ∃ packet,
      (createPacket hmac key env sm 0xFF 0xFF 0x00 0x00 c.data).1 = .ok packet ∧
        radioSend packet = air := by
    simp only [RadioCommand.send, sendCommand] at h
    cases hc : (createPacket hmac key env sm 0xFF 0xFF 0x00 0x00 c.data).1 with
    | error e =>
      rw [RadioCommand.data] at hc
      rw [hc] at h
      simp [Except.map] at h
    | ok packet =>
      rw [RadioCommand.data] at hc
      rw [hc] at h
      exact ⟨packet, rfl, by simpa [Except.map] using h⟩
  obtain ⟨hlen, bootCount, msgId, hboot, hmsg⟩ := createPacket_ok hcreate
  refine ⟨hlen, bootCount, msgId, ?_⟩
  have heq := createPacket_eq hmac key 255 255 0 0 bootCount msgId data env sm hlen hboot hmsg
  have hframe : packet = (signedPacket hmac key 255 255 0 0 bootCount msgId c.data data).frame :=
    Except.ok.inj (hcreate.symm.trans heq)
  rw [hframe, radioSend_eq (four_le_length_frame _)]

/-- A command with data that fits is sent under counters of 32 bits. -/
theorem RadioCommand.send_eq (c : RadioCommand) (bootCount msgId : UInt32)
    (data : Vector UInt8 210) (h : c.data.length ≤ 210) (hboot : sm.bootCount = bootCount.toNat)
    (hmsg : sm.msgId + 1 = msgId.toNat) :
    (c.send hmac key env sm).1
      = .ok (signedPacket hmac key 255 255 0 0 bootCount msgId c.data data).frame := by
  have hcreate := createPacket_eq hmac key 255 255 0 0 bootCount msgId data env sm h hboot hmsg
  have hsend : (c.send hmac key env sm).1 =
      (createPacket hmac key env sm (255 : UInt8).toNat (255 : UInt8).toNat (0 : UInt8).toNat
        (0 : UInt8).toNat c.data).1.map radioSend := rfl
  rw [hsend, hcreate, Except.map, radioSend_eq (four_le_length_frame _)]

end Send

end Samwise.Ground
