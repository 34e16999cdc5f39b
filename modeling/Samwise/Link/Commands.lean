import Samwise.Ground.RadioCommands
import Samwise.Link.Uplink

/-!
# Samwise — commands across the link

What each ground command names, and what `dispatch_command` makes of the packet that carries
it. The two command tables are maintained on their own: the ground's `config.py` has a
`PAYLOAD_SHUTDOWN` at 5 that the flight enumeration lacks, so from there on the two disagree.
`LinkAgrees` is the condition under which the named operation is performed, and
`dispatchCommand_performs_iff` shows that it is exactly that.
-/

namespace Samwise

open Ground Memory

/-! ## The operations the ground names -/

/-- The state a name stands for; a name that stands for none overrides to no state. -/
def stateNamed (name : List UInt8) : StateId :=
  if name = utf8 "running_state" then .stateRunning
  else if name = utf8 "init_state" then .stateInit
  else if name = utf8 "burn_wire_state" then .stateBurnWire
  else if name = utf8 "burn_wire_reset_state" then .stateBurnWireReset
  else .stateNone

/-- An operation of the satellite, as a ground command names it. -/
inductive Operation where
  | pingReply
  | queueForPayload (commandStr : List UInt8)
  | turnPayloadOn
  | turnPayloadOff
  | overrideTo (state : StateId)
  | forwardToAdcs (commandByte : List UInt8)

/-- The operation a command names, with its argument. -/
def Ground.RadioCommand.operation : RadioCommand → Operation
  | .sendNoOp => .pingReply
  | .sendPayloadExec commandStr => .queueForPayload commandStr.encode
  | .sendPayloadTurnOn => .turnPayloadOn
  | .sendPayloadTurnOff => .turnPayloadOff
  | .sendPayloadShutdown => .turnPayloadOff
  | .sendManualStateOverride stateName => .overrideTo (stateNamed stateName.encode)
  | .sendAdcsExec commandByte => .forwardToAdcs commandByte.encode

/-- Between `w` and `w'` the operation was performed, and no other: the slate changed only
where the operation changes it, apart from the count of commands, and nothing else was done
to the outside. -/
def Operation.Performed (w w' : World) : Operation → Prop
  | .pingReply => ∃ pkt q,
      q.elems = w.slate.txQueue.elems ++ [pkt] ∧
      pkt.payload = pingText (w.slate.numberCommandsProcessed + 1) ∧
      pkt.len.toNat = (pingText (w.slate.numberCommandsProcessed + 1)).length ∧
      w'.slate = { w.slate.counted with txQueue := q } ∧ w'.trace = w.trace
  | .queueForPayload commandStr => ∃ cmd q,
      q.elems = w.slate.payloadCommandData.elems ++ [cmd] ∧
      cString cmd.serializedCommand.toList = commandStr ∧
      cmd.seqNum = w.slate.currCommandSeqNum.toUInt16 ∧ cmd.commandType = .payloadExec ∧
      w'.slate = { w.slate.counted with
        payloadCommandData := q
        currCommandSeqNum := w.slate.currCommandSeqNum + 1 } ∧ w'.trace = w.trace
  | .turnPayloadOn => ∃ now,
      w'.slate = { w.slate.counted with isPayloadOn := true, payloadMostRecentPingTime := now } ∧
      w'.trace = w.trace ++ [.gpioPut .samwiseRpiEnab true]
  | .turnPayloadOff =>
      w'.slate = { w.slate.counted with isPayloadOn := false } ∧
      w'.trace = w.trace ++ if w.slate.isPayloadOn then
        [.payloadUartWritePacket shutdownPacket 0, .gpioPut .samwiseRpiEnab false] else []
  | .overrideTo state =>
      w'.slate = { w.slate.counted with manualOverrideStateId := state } ∧ w'.trace = w.trace
  | .forwardToAdcs commandByte => ∃ b, commandByte = [b] ∧
      w'.slate = w.slate.counted ∧ w'.trace = w.trace ++ [.adcsSendCommand b]

/-- When the flight software performs what a command names: a ping or a payload command needs
room in its queue, a payload command must be a C string that fits, and a state name must not
change its meaning where a NUL ends it. The shutdown and the ADCS command are never performed. -/
def LinkAgrees (s : Slate) : RadioCommand → Prop
  | .sendNoOp => s.txQueue.elems.length < txQueueSize
  | .sendPayloadExec commandStr =>
      0 ∉ commandStr.encode ∧ commandStr.encode.length ≤ 208 ∧
        s.payloadCommandData.elems.length < payloadDataCapacity
  | .sendPayloadTurnOn => True
  | .sendPayloadTurnOff => True
  | .sendPayloadShutdown => False
  | .sendManualStateOverride stateName =>
      stateNamed (cString stateName.encode) = stateNamed stateName.encode
  | .sendAdcsExec _ => False

/-! ## The packet that carries a command -/

section Carried

variable (hmac : Hmac) (key : PacketHmacPsk) (bootCount msgId : UInt32) (c : RadioCommand)

/-- The packet as the flight software parses it, into a packet of zeros. -/
def carrier : Packet :=
  signedPacket hmac key 255 255 0 0 bootCount msgId c.data Packet.zero.data

variable {c}

theorem toList_carrier_data (h : c.data.length ≤ 210) :
    (carrier hmac key bootCount msgId c).data.toList
      = c.data ++ List.replicate (210 - c.data.length) 0 := by
  show (Memory.copyInto Packet.zero.data c.data).toList = _
  rw [Memory.toList_copyInto _ h]
  simp only [Packet.zero, Vector.toList_replicate, List.drop_replicate]

/-- The first data byte is the ground's constant. -/
theorem commandByte_carrier : (carrier hmac key bootCount msgId c).commandByte = c.call.1 := by
  show (Memory.copyInto Packet.zero.data c.data)[0] = _
  simp [Memory.copyInto, RadioCommand.data, createCmdPayload]

theorem ofByte_carrier {cmd : Option Command} (h : Command.ofByte c.call.1 = cmd) :
    Command.ofByte (carrier hmac key bootCount msgId c).commandByte = cmd := by
  rw [commandByte_carrier, h]

/-- Behind it lies the argument, then zeros up to the end of the data array. -/
theorem commandPayload_carrier (h : c.data.length ≤ 210) : ∃ rest,
    commandPayload (carrier hmac key bootCount msgId c)
      = c.call.2.encode ++ (List.replicate (209 - c.call.2.encode.length) 0 ++ rest) ∧
    c.call.2.encode.length ≤ 209 := by
  set p := carrier hmac key bootCount msgId c
  refine ⟨p.counters ++ p.hmac.toList, ?_, ?_⟩
  · have hbytes : p.bytes = p.header ++ (c.call.1 :: (c.call.2.encode ++
        (List.replicate (209 - c.call.2.encode.length) 0 ++ (p.counters ++ p.hmac.toList)))) := by
      rw [Packet.bytes, toList_carrier_data hmac key bootCount msgId h]
      simp [RadioCommand.data, createCmdPayload, List.append_assoc]
    rw [commandPayload, hbytes]
    rfl
  · have hdata : c.data.length = c.call.2.encode.length + 1 := by
      simp [RadioCommand.data, createCmdPayload]
    omega

/-- As a C string, the payload command is the argument up to its first NUL, as long as the
data array ends it. -/
theorem cString_take_commandPayload_carrier (h : c.data.length ≤ 210) :
    (cString (commandPayload (carrier hmac key bootCount msgId c))).take 208
      = (cString c.call.2.encode).take 208 := by
  obtain ⟨rest, hmem, hle⟩ := commandPayload_carrier hmac key bootCount msgId h
  rw [hmem]
  by_cases hzero : 0 ∈ c.call.2.encode
  · rw [cString_append_of_mem hzero]
  · rw [cString_append_of_notMem hzero, cString_of_notMem hzero]
    by_cases hlen : c.call.2.encode.length = 209
    · rw [List.take_append_of_le_length (by omega)]
    · obtain ⟨k, hk⟩ : ∃ k, 209 - c.call.2.encode.length = k + 1 :=
        ⟨208 - c.call.2.encode.length, by omega⟩
      rw [hk, List.replicate_succ, List.cons_append, cString_zero_cons, List.append_nil]

/-- Comparing the payload with a short literal compares the argument's C string with it. -/
theorem strcmpEq_carrier (h : c.data.length ≤ 210) {lit : List UInt8} (hlit : 0 ∉ lit)
    (hlen : lit.length < 208) :
    strcmpEq (commandPayload (carrier hmac key bootCount msgId c)) lit = true ↔
      cString c.call.2.encode = lit := by
  have htake := cString_take_commandPayload_carrier hmac key bootCount msgId h
  obtain ⟨rest, hmem, hle⟩ := commandPayload_carrier hmac key bootCount msgId h
  have hlong : lit.length < (commandPayload (carrier hmac key bootCount msgId c)).length := by
    rw [hmem, List.length_append, List.length_append, List.length_replicate]
    omega
  rw [strcmpEq_iff hlit hlong]
  -- a string equals a short literal exactly where its first 208 bytes do
  have hshort : ∀ str : List UInt8, str = lit ↔ str.take 208 = lit := by
    intro str
    constructor
    · rintro rfl
      exact List.take_of_length_le (by omega)
    · intro heq
      have hstr : str.length < 208 := by
        have := congrArg List.length heq
        rw [List.length_take] at this
        omega
      rwa [List.take_of_length_le (by omega)] at heq
  rw [hshort, htake, ← hshort]

/-- The override is to the state the argument's C string names. -/
theorem overrideState_carrier (h : c.data.length ≤ 210) :
    overrideState (commandPayload (carrier hmac key bootCount msgId c))
      = stateNamed (cString c.call.2.encode) := by
  unfold overrideState stateNamed
  simp only [strcmpEq_carrier hmac key bootCount msgId h
      (show 0 ∉ utf8 "running_state" by decide) (by decide),
    strcmpEq_carrier hmac key bootCount msgId h
      (show 0 ∉ utf8 "init_state" by decide) (by decide),
    strcmpEq_carrier hmac key bootCount msgId h
      (show 0 ∉ utf8 "burn_wire_state" by decide) (by decide),
    strcmpEq_carrier hmac key bootCount msgId h
      (show 0 ∉ utf8 "burn_wire_reset_state" by decide) (by decide)]

end Carried

/-! ## One lemma for each operation -/

section Performed

variable (hmac : Hmac) (key : PacketHmacPsk) (bootCount msgId : UInt32) (env : Env) (w : World)

/-- The world after the packet that carries `c` is dispatched. -/
def afterCommand (c : RadioCommand) : World :=
  ((dispatchCommand (carrier hmac key bootCount msgId c)).run env w).2

/-- The ping is answered where the reply finds room. -/
theorem sendNoOp_performed_iff :
    RadioCommand.sendNoOp.operation.Performed w
      (afterCommand hmac key bootCount msgId env w .sendNoOp) ↔
        w.slate.txQueue.elems.length < txQueueSize := by
  have hafter := run_dispatchCommand_ping env w
    (p := carrier hmac key bootCount msgId .sendNoOp) (ofByte_carrier hmac key bootCount msgId rfl)
  simp only [afterCommand, hafter]
  set text := pingText (w.slate.numberCommandsProcessed + 1)
  obtain ⟨hlen, hpayload⟩ := rfm9xFormatPacket_payload (env.stackPacket w.samples) 0 0 0 0
    (length_pingText_le (w.slate.numberCommandsProcessed + 1))
  constructor
  · rintro ⟨pkt, q, helems, _⟩
    exact BoundedQueue.lt_of_elems_eq_append helems
  · intro hroom
    exact ⟨_, _, (BoundedQueue.tryAdd_of_lt _ hroom).2, hpayload, hlen, rfl, rfl⟩

/-- What is stored of a payload command: the argument's C string, cut to 208 bytes. -/
theorem cString_serializedCommand_carrier (stack : Vector UInt8 209) (commandStr : CmdPayload)
    (h : (RadioCommand.sendPayloadExec commandStr).data.length ≤ 210) :
    cString (strcpyTrunc stack
        (commandPayload (carrier hmac key bootCount msgId (.sendPayloadExec commandStr))) 209).toList
      = (cString commandStr.encode).take 208 := by
  have hlong : 209 ≤
      (commandPayload (carrier hmac key bootCount msgId (.sendPayloadExec commandStr))).length := by
    rw [commandPayload, List.length_drop, Packet.length_bytes]
    decide
  rw [cString_strcpyTrunc _ (by decide) hlong]
  exact cString_take_commandPayload_carrier hmac key bootCount msgId h

/-- It is the argument where that has no NUL and fits. -/
theorem take_cString_eq_iff {bs : List UInt8} {n : Nat} :
    (cString bs).take n = bs ↔ 0 ∉ bs ∧ bs.length ≤ n := by
  constructor
  · intro heq
    have hzero : 0 ∉ bs := by
      rw [← heq]
      exact fun hmem => zero_notMem_cString _ (List.mem_of_mem_take hmem)
    have hlen := congrArg List.length heq
    rw [cString_of_notMem hzero, List.length_take] at hlen
    exact ⟨hzero, by omega⟩
  · rintro ⟨hzero, hlen⟩
    rw [cString_of_notMem hzero, List.take_of_length_le hlen]

/-- A payload command is queued as it was given where it is a C string that fits and the
queue has room. -/
theorem sendPayloadExec_performed_iff (commandStr : CmdPayload)
    (h : (RadioCommand.sendPayloadExec commandStr).data.length ≤ 210) :
    (RadioCommand.sendPayloadExec commandStr).operation.Performed w
      (afterCommand hmac key bootCount msgId env w (.sendPayloadExec commandStr)) ↔
        0 ∉ commandStr.encode ∧ commandStr.encode.length ≤ 208 ∧
          w.slate.payloadCommandData.elems.length < payloadDataCapacity := by
  have hafter := run_dispatchCommand_payloadExec env w
    (p := carrier hmac key bootCount msgId (.sendPayloadExec commandStr))
    (ofByte_carrier hmac key bootCount msgId rfl)
  have hstored := cString_serializedCommand_carrier hmac key bootCount msgId
    (env.stackString w.samples) commandStr h
  simp only [afterCommand, hafter]
  constructor
  · rintro ⟨cmd, q, helems, hstr, _, _, hslate, _⟩
    have hroom := BoundedQueue.lt_of_elems_eq_append helems
    have hqueue := congrArg Slate.payloadCommandData hslate
    simp only at hqueue
    rw [← hqueue, (BoundedQueue.tryAdd_of_lt _ hroom).2] at helems
    obtain rfl := List.singleton_inj.mp (List.append_cancel_left helems)
    dsimp only at hstr
    rw [hstored] at hstr
    obtain ⟨hzero, hlen⟩ := take_cString_eq_iff.mp hstr
    exact ⟨hzero, hlen, hroom⟩
  · rintro ⟨hzero, hlen, hroom⟩
    refine ⟨_, _, (BoundedQueue.tryAdd_of_lt _ hroom).2, ?_, rfl, rfl, rfl, rfl⟩
    rw [hstored]
    exact take_cString_eq_iff.mpr ⟨hzero, hlen⟩

theorem sendPayloadTurnOn_performed :
    RadioCommand.sendPayloadTurnOn.operation.Performed w
      (afterCommand hmac key bootCount msgId env w .sendPayloadTurnOn) := by
  have hafter := run_dispatchCommand_payloadTurnOn env w
    (p := carrier hmac key bootCount msgId .sendPayloadTurnOn) (ofByte_carrier hmac key bootCount msgId rfl)
  rw [afterCommand, hafter]
  exact ⟨_, rfl, rfl⟩

theorem sendPayloadTurnOff_performed :
    RadioCommand.sendPayloadTurnOff.operation.Performed w
      (afterCommand hmac key bootCount msgId env w .sendPayloadTurnOff) := by
  have hafter := run_dispatchCommand_payloadTurnOff env w
    (p := carrier hmac key bootCount msgId .sendPayloadTurnOff)
    (ofByte_carrier hmac key bootCount msgId rfl)
  rw [afterCommand, hafter]
  exact ⟨rfl, rfl⟩

/-- The override is the one that was named where a NUL does not change the name. -/
theorem sendManualStateOverride_performed_iff (stateName : CmdPayload)
    (h : (RadioCommand.sendManualStateOverride stateName).data.length ≤ 210) :
    (RadioCommand.sendManualStateOverride stateName).operation.Performed w
      (afterCommand hmac key bootCount msgId env w (.sendManualStateOverride stateName)) ↔
        stateNamed (cString stateName.encode) = stateNamed stateName.encode := by
  have hafter := run_dispatchCommand_manualStateOverride env w
    (p := carrier hmac key bootCount msgId (.sendManualStateOverride stateName))
    (ofByte_carrier hmac key bootCount msgId rfl)
  have hstate := overrideState_carrier hmac key bootCount msgId h
  rw [afterCommand, hafter, hstate]
  constructor
  · rintro ⟨hslate, _⟩
    exact congrArg Slate.manualOverrideStateId hslate
  · intro hname
    refine ⟨?_, rfl⟩
    show _ = { w.slate.counted with manualOverrideStateId := stateNamed stateName.encode }
    rw [← hname]
    rfl

/-- **The shutdown is never performed.** Its constant is the flight side's `ADCS_EXEC`: the
ADCS receives the command byte 0, and the payload stays as it is. -/
theorem sendPayloadShutdown_not_performed :
    ¬RadioCommand.sendPayloadShutdown.operation.Performed w
      (afterCommand hmac key bootCount msgId env w .sendPayloadShutdown) := by
  have hafter := run_dispatchCommand_adcsExec env w
    (p := carrier hmac key bootCount msgId .sendPayloadShutdown)
    (ofByte_carrier hmac key bootCount msgId rfl)
  rw [afterCommand, hafter]
  rintro ⟨_, htrace⟩
  have hcancel := List.append_cancel_left htrace
  cases hon : w.slate.isPayloadOn <;> simp [hon] at hcancel

/-- **The ADCS command is never performed.** Its constant is the flight side's `ADCS_PACKET`,
which has no case: nothing is forwarded. -/
theorem sendAdcsExec_not_performed (commandByte : CmdPayload) :
    ¬(RadioCommand.sendAdcsExec commandByte).operation.Performed w
      (afterCommand hmac key bootCount msgId env w (.sendAdcsExec commandByte)) := by
  have hafter := run_dispatchCommand_default env w
    (p := carrier hmac key bootCount msgId (.sendAdcsExec commandByte))
    (Or.inr (ofByte_carrier hmac key bootCount msgId rfl))
  rw [afterCommand, hafter]
  rintro ⟨b, _, _, htrace⟩
  simp at htrace

end Performed

/-! ## Every command -/

/-- **Command semantics across the link.** For every command that is sent, whatever the
satellite's state: the bytes on the air parse, and dispatching the packet performs the
operation the command names, with its argument and no other, exactly under `LinkAgrees`. -/
theorem dispatchCommand_performs_iff (hmac : Hmac) (key : PacketHmacPsk) (ground : SaveEnv)
    (sm : StateManager) (c : RadioCommand) (air : List UInt8)
    (h : (c.send hmac key ground sm).1 = .ok air) (env : Env) (w : World) :
    ∃ packet, parsePacket air air.length Packet.zero = (true, packet) ∧
      (c.operation.Performed w ((dispatchCommand packet).run env w).2 ↔
        LinkAgrees w.slate c) := by
  obtain ⟨hlen, bootCount, msgId, rfl⟩ := c.send_ok hmac key ground sm h Packet.zero.data
  refine ⟨carrier hmac key bootCount msgId c, ?_, ?_⟩
  · have hparse := parsePacket_signedPacket hmac key 255 255 0 0 bootCount msgId Packet.zero [] hlen
    simp only [List.append_nil] at hparse
    exact hparse
  · -- one lemma for each command; three of them hold or fail whatever the slate
    cases c with
    | sendNoOp => exact sendNoOp_performed_iff hmac key bootCount msgId env w
    | sendPayloadExec commandStr =>
      exact sendPayloadExec_performed_iff hmac key bootCount msgId env w commandStr hlen
    | sendPayloadTurnOn =>
      exact iff_of_true (sendPayloadTurnOn_performed hmac key bootCount msgId env w) trivial
    | sendPayloadTurnOff =>
      exact iff_of_true (sendPayloadTurnOff_performed hmac key bootCount msgId env w) trivial
    | sendPayloadShutdown =>
      exact iff_of_false (sendPayloadShutdown_not_performed hmac key bootCount msgId env w) id
    | sendManualStateOverride stateName =>
      exact sendManualStateOverride_performed_iff hmac key bootCount msgId env w stateName hlen
    | sendAdcsExec commandByte =>
      exact iff_of_false (sendAdcsExec_not_performed hmac key bootCount msgId env w commandByte) id

/-- The agreement for turning the payload on, sent as message 42 of boot 7. -/
theorem dispatchCommand_performs_turnOn :
    let hmac : Hmac := fun _ _ => Vector.replicate 32 7
    let key : PacketHmacPsk := Vector.replicate 32 1
    let w := World.atReset ⟨initMarker, 8, 0⟩
    ∃ air packet,
      (RadioCommand.sendPayloadTurnOn.send hmac key ⟨0, true⟩ ⟨7, 41, 0, false, none⟩).1 = .ok air ∧
      parsePacket air air.length Packet.zero = (true, packet) ∧
      Operation.turnPayloadOn.Performed w ((dispatchCommand packet).run Env.still w).2 := by
  intro hmac key w
  have hsend := RadioCommand.sendPayloadTurnOn.send_eq hmac key ⟨0, true⟩ ⟨7, 41, 0, false, none⟩
    7 42 Packet.zero.data (by decide) rfl rfl
  obtain ⟨packet, hparse, hiff⟩ := dispatchCommand_performs_iff hmac key ⟨0, true⟩
    ⟨7, 41, 0, false, none⟩ .sendPayloadTurnOn _ hsend Env.still w
  exact ⟨_, packet, hsend, hparse, hiff.mpr trivial⟩

/-- **A shutdown that reaches the ADCS.** With the payload on or off, the packet of
`send_payload_shutdown` makes the flight software send the command byte 0 to the ADCS, and
turns nothing off. -/
theorem sendPayloadShutdown_reaches_adcs :
    let hmac : Hmac := fun _ _ => Vector.replicate 32 7
    let key : PacketHmacPsk := Vector.replicate 32 1
    let w := World.atReset ⟨initMarker, 8, 0⟩
    ∃ air packet,
      (RadioCommand.sendPayloadShutdown.send hmac key ⟨0, true⟩ ⟨7, 41, 0, false, none⟩).1
        = .ok air ∧
      parsePacket air air.length Packet.zero = (true, packet) ∧
      ¬RadioCommand.sendPayloadShutdown.operation.Performed w
        ((dispatchCommand packet).run Env.still w).2 ∧
      ((dispatchCommand packet).run Env.still w).2.trace = [.adcsSendCommand 0] := by
  intro hmac key w
  have hsend := RadioCommand.sendPayloadShutdown.send_eq hmac key ⟨0, true⟩ ⟨7, 41, 0, false, none⟩
    7 42 Packet.zero.data (by decide) rfl rfl
  have hparse := parsePacket_signedPacket hmac key 255 255 0 0 7 42 Packet.zero []
    (show RadioCommand.sendPayloadShutdown.data.length ≤ 210 by decide)
  simp only [List.append_nil] at hparse
  refine ⟨_, carrier hmac key 7 42 .sendPayloadShutdown, hsend, hparse,
    sendPayloadShutdown_not_performed hmac key 7 42 Env.still w, ?_⟩
  rw [run_dispatchCommand_adcsExec Env.still w (ofByte_carrier hmac key 7 42 rfl)]
  obtain ⟨rest, hmem, _⟩ := commandPayload_carrier hmac key 7 42
    (c := .sendPayloadShutdown) (by decide)
  rw [hmem]
  rfl

end Samwise
