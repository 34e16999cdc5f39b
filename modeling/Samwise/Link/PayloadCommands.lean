import Samwise.Link.Commands
import Samwise.Payload.PayloadUart

/-!
# Samwise — a payload command, from the ground station to the payload

`send_payload_exec` of the ground station, `rx_done`, `dispatch_command` and
`try_execute_payload_command`, one behind the other. On the wire the string has a length, in
`payload_command_data` it has a NUL, and the array there is as long as the longest string that
the ground station accepts.
-/

namespace Samwise

open Ground Memory

/-! ## Reception -/

/-- `_RH_BROADCAST_ADDRESS`. -/
def rhBroadcastAddress : UInt8 := 0xFF

/-- `p_buf` behind `rfm9x_packet_from_fifo`, on zeros. -/
def rxBuffer (fifo : List UInt8) : List UInt8 :=
  fifo ++ List.replicate (packetSize - fifo.length) 0

/-- `rx_done`: what it does to `rx_queue`, with the bytes of the FIFO. The packet they are
parsed into is all zeros. -/
def rxDone (radioNode : UInt8) (fifo : List UInt8) (rxQueue : BoundedQueue Packet rxQueueSize) :
    BoundedQueue Packet rxQueueSize :=
  let (parsed, p) := parsePacket (rxBuffer fifo) fifo.length Packet.zero
  if parsed = false then rxQueue
  else if p.dst = rhBroadcastAddress ∨ p.dst = radioNode then (rxQueue.tryAdd p).2
  else rxQueue

/-! ## Execution -/

/-- `MAX_PAYLOAD_RETRY_COUNT`. -/
def maxPayloadRetryCount : Nat := 3

/-- What `try_execute_payload_command` returns, the queue behind it, and what
`payload_uart_write_packet` was called with, if it was. -/
structure PayloadExecution where
  result : Bool
  queue : BoundedQueue PayloadCommandData payloadDataCapacity
  written : Option (List UInt8 × UInt16)

/-- `try_execute_payload_command`, with what `payload_uart_write_packet` returns for a packet
and its sequence number. The length of the packet is the `strlen` of the stored string. -/
def tryExecutePayloadCommand (write : List UInt8 → UInt16 → PayloadUart.WriteErrorCode)
    (retryCount : UInt8) (q : BoundedQueue PayloadCommandData payloadDataCapacity) :
    PayloadExecution :=
  match q.elems with
  | [] => ⟨true, q, none⟩
  | payloadCommand :: _ =>
    let msg := cString payloadCommand.serializedCommand.toList
    if write msg payloadCommand.seqNum = .successfulWrite ∨
        retryCount.toNat > maxPayloadRetryCount then
      ⟨q.tryRemove.1.isSome, q.tryRemove.2, some (msg, payloadCommand.seqNum)⟩
    else ⟨false, q, some (msg, payloadCommand.seqNum)⟩

/-- Dispatching the packet stores the string as it was sent, and the payload is sent it once the
command has come to the front of the queue. -/
def ArrivesUnchanged (env : Env) (w : World) (packet : Packet) (commandStr : List UInt8) : Prop :=
  ∃ cmd : PayloadCommandData,
    ((dispatchCommand packet).run env w).2.slate.payloadCommandData.elems
      = w.slate.payloadCommandData.elems ++ [cmd] ∧
    cString cmd.serializedCommand.toList = commandStr ∧
    ∀ write retryCount q rest, q.elems = cmd :: rest →
      (tryExecutePayloadCommand write retryCount q).written = some (commandStr, cmd.seqNum)

theorem written_tryExecutePayloadCommand
    {write : List UInt8 → UInt16 → PayloadUart.WriteErrorCode} {retryCount : UInt8}
    {q : BoundedQueue PayloadCommandData payloadDataCapacity} {cmd : PayloadCommandData}
    {rest : List PayloadCommandData} (h : q.elems = cmd :: rest) :
    (tryExecutePayloadCommand write retryCount q).written
      = some (cString cmd.serializedCommand.toList, cmd.seqNum) := by
  simp only [tryExecutePayloadCommand, h]
  split
  · rfl
  · rfl

section Carried

variable (hmac : Hmac) (key : PacketHmacPsk) (bootCount msgId : UInt32)

/-- What the ground station signs and sends to all is queued as it was carried. -/
theorem rxDone_carrier (radioNode : UInt8) {c : RadioCommand} (h : c.data.length ≤ 210)
    (rxQueue : BoundedQueue Packet rxQueueSize) :
    rxDone radioNode (carrier hmac key bootCount msgId c).frame rxQueue
      = (rxQueue.tryAdd (carrier hmac key bootCount msgId c)).2 := by
  have hparse : parsePacket (rxBuffer (carrier hmac key bootCount msgId c).frame)
      (carrier hmac key bootCount msgId c).frame.length Packet.zero
      = (true, carrier hmac key bootCount msgId c) :=
    parsePacket_signedPacket hmac key 255 255 0 0 bootCount msgId Packet.zero _ h
  have hdst : (carrier hmac key bootCount msgId c).dst = rhBroadcastAddress := rfl
  simp [rxDone, hparse, hdst]

/-- The string arrives exactly if it leaves room for its terminator, and the queue has room. -/
theorem arrivesUnchanged_carrier_iff (env : Env) (w : World) (commandStr : CmdPayload)
    (h : (RadioCommand.sendPayloadExec commandStr).data.length ≤ 210)
    (hnul : 0 ∉ commandStr.encode) :
    ArrivesUnchanged env w (carrier hmac key bootCount msgId (.sendPayloadExec commandStr))
        commandStr.encode ↔
      commandStr.encode.length ≤ 208 ∧
        w.slate.payloadCommandData.elems.length < payloadDataCapacity := by
  have hafter := run_dispatchCommand_payloadExec env w
    (p := carrier hmac key bootCount msgId (.sendPayloadExec commandStr))
    (ofByte_carrier hmac key bootCount msgId rfl)
  have hstored := cString_serializedCommand_carrier hmac key bootCount msgId
    (env.stackString w.samples) commandStr h
  simp only [ArrivesUnchanged, hafter]
  constructor
  · rintro ⟨cmd, helems, hstr, _⟩
    have hroom := BoundedQueue.lt_of_elems_eq_append helems
    rw [(BoundedQueue.tryAdd_of_lt _ hroom).2] at helems
    obtain rfl := List.singleton_inj.mp (List.append_cancel_left helems)
    dsimp only at hstr
    rw [hstored] at hstr
    exact ⟨(take_cString_eq_iff.mp hstr).2, hroom⟩
  · rintro ⟨hlen, hroom⟩
    rw [take_cString_eq_iff.mpr ⟨hnul, hlen⟩] at hstored
    refine ⟨_, (BoundedQueue.tryAdd_of_lt _ hroom).2, ?_, fun write retryCount q rest hq => ?_⟩
    · dsimp only
      exact hstored
    · rw [written_tryExecutePayloadCommand hq]
      dsimp only
      rw [hstored]

end Carried

/-- **Payload command strings arrive unchanged**, exactly if the encoded string has at most 208
bytes and the queue of payload commands has room: for every string without a NUL that the ground
station accepts, `rx_done` queues the packet, whatever the address of the satellite, and this is
what its dispatch, in any state, comes to. -/
theorem payload_command_arrives (hmac : Hmac) (key : PacketHmacPsk) (ground : SaveEnv)
    (sm : StateManager) (commandStr : CmdPayload) (air : List UInt8)
    (hsend : ((RadioCommand.sendPayloadExec commandStr).send hmac key ground sm).1 = .ok air)
    (hnul : 0 ∉ commandStr.encode) (radioNode : UInt8) (env : Env) (w : World) :
    ∃ packet, (∀ rxQueue, rxDone radioNode air rxQueue = (rxQueue.tryAdd packet).2) ∧
      (ArrivesUnchanged env w packet commandStr.encode ↔
        commandStr.encode.length ≤ 208 ∧
          w.slate.payloadCommandData.elems.length < payloadDataCapacity) := by
  obtain ⟨hlen, bootCount, msgId, rfl⟩ := RadioCommand.send_ok hmac key ground sm hsend
    Packet.zero.data
  exact ⟨carrier hmac key bootCount msgId (.sendPayloadExec commandStr),
    rxDone_carrier hmac key bootCount msgId radioNode hlen,
    arrivesUnchanged_carrier_iff hmac key bootCount msgId env w commandStr hlen hnul⟩

/-- A command of two letters arrives. -/
theorem payload_command_arrives_ls :
    let hmac : Hmac := fun _ _ => Vector.replicate 32 7
    let key : PacketHmacPsk := Vector.replicate 32 1
    let w := World.atReset ⟨initMarker, 8, 0⟩
    ∃ air packet,
      ((RadioCommand.sendPayloadExec (.str "ls")).send hmac key ⟨0, true⟩
        ⟨7, 41, 0, false, none⟩).1 = .ok air ∧
      (∀ rxQueue, rxDone 1 air rxQueue = (rxQueue.tryAdd packet).2) ∧
      ArrivesUnchanged Env.still w packet [0x6C, 0x73] := by
  intro hmac key w
  have hsend := (RadioCommand.sendPayloadExec (.str "ls")).send_eq hmac key ⟨0, true⟩
    ⟨7, 41, 0, false, none⟩ 7 42 Packet.zero.data (by decide) rfl rfl
  obtain ⟨packet, hrx, hiff⟩ := payload_command_arrives hmac key ⟨0, true⟩
    ⟨7, 41, 0, false, none⟩ (.str "ls") _ hsend (by decide) 1 Env.still w
  exact ⟨_, packet, hsend, hrx, hiff.mpr (by decide)⟩

/-- The longest string that the ground station accepts. -/
def longestCommand : CmdPayload := .str (String.ofList (List.replicate 209 'A'))

/-- It loses its last letter, with the queue empty. -/
theorem payload_command_truncated :
    ¬∀ hmac key ground sm (commandStr : CmdPayload) air,
      ((RadioCommand.sendPayloadExec commandStr).send hmac key ground sm).1 = .ok air →
      0 ∉ commandStr.encode → ∀ radioNode env w,
      w.slate.payloadCommandData.elems.length < payloadDataCapacity →
      ∃ packet, (∀ rxQueue, rxDone radioNode air rxQueue = (rxQueue.tryAdd packet).2) ∧
        ArrivesUnchanged env w packet commandStr.encode := by
  intro h
  have hlen : longestCommand.encode.length = 209 := by decide +kernel
  have hnul : 0 ∉ longestCommand.encode := by decide +kernel
  have hdata : (RadioCommand.sendPayloadExec longestCommand).data.length ≤ 210 := by
    show longestCommand.encode.length + 1 ≤ 210
    omega
  let hmac : Hmac := fun _ _ => Vector.replicate 32 7
  let key : PacketHmacPsk := Vector.replicate 32 1
  have hsend := (RadioCommand.sendPayloadExec longestCommand).send_eq hmac key ⟨0, true⟩
    ⟨7, 41, 0, false, none⟩ 7 42 Packet.zero.data hdata rfl rfl
  obtain ⟨packet, hrx, harrives⟩ := h hmac key ⟨0, true⟩ ⟨7, 41, 0, false, none⟩ longestCommand _
    hsend hnul 1 Env.still (World.atReset ⟨initMarker, 8, 0⟩) (by decide)
  -- an empty `rx_queue` shows which packet it is
  have hcarrier := rxDone_carrier hmac key 7 42 1 hdata BoundedQueue.empty
  have hqueues : ((BoundedQueue.empty : BoundedQueue Packet rxQueueSize).tryAdd packet).2
      = (BoundedQueue.empty.tryAdd (carrier hmac key 7 42 (.sendPayloadExec longestCommand))).2 :=
    (hrx BoundedQueue.empty).symm.trans hcarrier
  have hpacket : packet = carrier hmac key 7 42 (.sendPayloadExec longestCommand) :=
    List.singleton_inj.mp (congrArg BoundedQueue.elems hqueues)
  rw [hpacket] at harrives
  have hfits := (arrivesUnchanged_carrier_iff hmac key 7 42 Env.still _ longestCommand hdata
    hnul).mp harrives
  omega

end Samwise
