import Samwise.Flight.Flight

/-!
# Samwise — dispatching a command

`dispatch_command` of `src/tasks/command/command_parser.c` with what it calls: the string
functions on packet memory, the switching of the payload (`payload_uart.c`) and the packet
formatting of the radio driver. `command_payload` points into the packet, so it is modelled
as the packet's memory from there on: the string functions read past `len` and find whatever
the packet holds.
-/

namespace Samwise

open Memory

/-! ## Strings in memory -/

/-- The bytes of a string literal, without its terminator. -/
def utf8 (s : String) : List UInt8 := s.toUTF8.data.toList

/-- `strcmp(mem, lit) == 0`, byte by byte up to the terminator of the literal. -/
def strcmpEq (mem : List UInt8) : List UInt8 → Bool
  | [] => byteAt mem 0 == 0
  | l :: ls => byteAt mem 0 == l && strcmpEq mem.tail ls

/-- `strcpy_trunc`: `memccpy` stops behind the first NUL; without one among the first
`maxSize` bytes, the last of them is overwritten. -/
def strcpyTrunc {n : Nat} (dst : Vector UInt8 n) (src : List UInt8) (maxSize : Nat) :
    Vector UInt8 n :=
  let copied := src.take maxSize
  if 0 ∈ copied then Memory.copyInto dst (cString copied ++ [0])
  else (Memory.copyInto dst copied).setIfInBounds (maxSize - 1) 0

/-! ## What the commands do -/

/-- `payload_turn_on`. -/
def payloadTurnOn : Flight Unit := do
  gpioPut .samwiseRpiEnab true
  Flight.modifySlate fun s => { s with isPayloadOn := true }
  let now ← getAbsoluteTime
  Flight.modifySlate fun s => { s with payloadMostRecentPingTime := now }

/-- The packet that asks the payload to shut down. -/
def shutdownPacket : List UInt8 := utf8 "[\"shutdown\",  [], \x7b\"immediate\"\x7d]"

/-- `payload_turn_off`. What the UART write returns is not looked at. -/
def payloadTurnOff : Flight Unit := do
  let slate ← Flight.slate
  if slate.isPayloadOn = false then
    return
  Flight.emit (.payloadUartWritePacket shutdownPacket 0)
  gpioPut .samwiseRpiEnab false
  Flight.modifySlate fun s => { s with isPayloadOn := false }

/-- `rfm9x_format_packet`: header and payload into `*pkt`; the rest keeps what it held. -/
def rfm9xFormatPacket (pkt : Packet) (dst src flags seq len : UInt8) (data : List UInt8) :
    Packet :=
  { pkt with dst, src, flags, seq, len, data := Memory.copyInto pkt.data (data.take len.toNat) }

/-- The text of the ping reply, `"Number commands executed: %d"`. -/
def pingText (numberCommandsProcessed : UInt8) : List UInt8 :=
  utf8 ("Number commands executed: " ++ toString numberCommandsProcessed.toNat)

/-- The chain of comparisons of `MANUAL_STATE_OVERRIDE`. -/
def overrideState (commandPayload : List UInt8) : StateId :=
  if strcmpEq commandPayload (utf8 "running_state") then .stateRunning
  else if strcmpEq commandPayload (utf8 "init_state") then .stateInit
  else if strcmpEq commandPayload (utf8 "burn_wire_state") then .stateBurnWire
  else if strcmpEq commandPayload (utf8 "burn_wire_reset_state") then .stateBurnWireReset
  else .stateNone

/-- `(char *)packet->data + COMMAND_MNEMONIC_SIZE`: the packet's memory from there on. -/
def commandPayload (packet : Packet) : List UInt8 :=
  packet.bytes.drop (packetHeaderSize + commandMnemonicSize)

/-- `dispatch_command`. -/
def dispatchCommand (packet : Packet) : Flight Unit := do
  Flight.modifySlate fun s => { s with numberCommandsProcessed := s.numberCommandsProcessed + 1 }
  match Command.ofByte packet.data[0] with
  | some .payloadExec =>
    let stack ← Flight.sample Env.stackString
    let slate ← Flight.slate
    let payloadCommand : PayloadCommandData :=
      { serializedCommand :=
          strcpyTrunc stack (commandPayload packet) (packetDataSize - commandMnemonicSize)
        seqNum := slate.currCommandSeqNum.toUInt16
        commandType := .payloadExec }
    Flight.modifySlate fun s =>
      { s with
        currCommandSeqNum := s.currCommandSeqNum + 1
        payloadCommandData := (s.payloadCommandData.tryAdd payloadCommand).2 }
  | some .ping =>
    let stack ← Flight.sample Env.stackPacket
    let slate ← Flight.slate
    let text := pingText slate.numberCommandsProcessed
    let pkt := rfm9xFormatPacket stack 0 0 0 0 (UInt8.ofNat text.length) (text ++ [0])
    Flight.modifySlate fun s => { s with txQueue := (s.txQueue.tryAdd pkt).2 }
  | some .payloadTurnOn => payloadTurnOn
  | some .payloadTurnOff => payloadTurnOff
  | some .manualStateOverride =>
    Flight.modifySlate fun s =>
      { s with manualOverrideStateId := overrideState (commandPayload packet) }
  | some .adcsExec => Flight.emit (.adcsSendCommand (byteAt (commandPayload packet) 0))
  | some .adcsPacket => return
  | none => return

/-- `(Command)packet->data[0]` before the cast. -/
def Packet.commandByte (packet : Packet) : UInt8 := packet.data[0]

/-! ## What dispatching does to the world -/

section Dispatch

variable {p : Packet} (env : Env) (w : World)

/-- The slate once the command is counted. -/
def Slate.counted (s : Slate) : Slate :=
  { s with numberCommandsProcessed := s.numberCommandsProcessed + 1 }

/-- A ping queues the reply, where there is room. -/
theorem run_dispatchCommand_ping (h : Command.ofByte p.data[0] = some .ping) :
    let pkt := rfm9xFormatPacket (env.stackPacket w.samples) 0 0 0 0
      (UInt8.ofNat (pingText (w.slate.numberCommandsProcessed + 1)).length)
      (pingText (w.slate.numberCommandsProcessed + 1) ++ [0])
    ((dispatchCommand p).run env w).2 =
      { w with
        slate := { w.slate.counted with txQueue := (w.slate.txQueue.tryAdd pkt).2 }
        samples := w.samples + 1 } := by
  simp [dispatchCommand, h, Slate.counted]

/-- The ping text has at most three digits behind its words. -/
theorem length_pingText_le (n : UInt8) : (pingText n).length ≤ 210 := by
  have hall : ∀ k < 256,
      (utf8 ("Number commands executed: " ++ toString k)).length ≤ 210 := by decide +kernel
  exact hall n.toNat n.toNat_lt

/-- A formatted p carries the text it was given. -/
theorem rfm9xFormatPacket_payload (pkt : Packet) (dst src flags seq : UInt8) {text : List UInt8}
    (h : text.length ≤ 210) :
    let p := rfm9xFormatPacket pkt dst src flags seq (UInt8.ofNat text.length) (text ++ [0])
    p.len.toNat = text.length ∧ p.payload = text := by
  have hlen : (UInt8.ofNat text.length).toNat = text.length := by
    rw [UInt8.toNat_ofNat']
    omega
  simp only [rfm9xFormatPacket, Packet.payload, hlen, List.take_left, Memory.toList_copyInto _ h,
    and_self]

/-- A payload command is queued under the next sequence number, where there is room. -/
theorem run_dispatchCommand_payloadExec
    (h : Command.ofByte p.data[0] = some .payloadExec) :
    let payloadCommand : PayloadCommandData :=
      { serializedCommand := strcpyTrunc (env.stackString w.samples) (commandPayload p) 209
        seqNum := w.slate.currCommandSeqNum.toUInt16
        commandType := .payloadExec }
    ((dispatchCommand p).run env w).2 =
      { w with
        slate := { w.slate.counted with
          currCommandSeqNum := w.slate.currCommandSeqNum + 1
          payloadCommandData := (w.slate.payloadCommandData.tryAdd payloadCommand).2 }
        samples := w.samples + 1 } := by
  simp [dispatchCommand, h, Slate.counted, commandMnemonicSize]

theorem run_dispatchCommand_payloadTurnOn
    (h : Command.ofByte p.data[0] = some .payloadTurnOn) :
    ((dispatchCommand p).run env w).2 =
      { w with
        slate := { w.slate.counted with
          isPayloadOn := true
          payloadMostRecentPingTime := env.clock w.samples }
        trace := w.trace ++ [.gpioPut .samwiseRpiEnab true]
        samples := w.samples + 1 } := by
  simp [dispatchCommand, h, Slate.counted, payloadTurnOn, gpioPut, getAbsoluteTime]

/-- Turning the payload off acts only on a payload that is on. -/
theorem run_dispatchCommand_payloadTurnOff
    (h : Command.ofByte p.data[0] = some .payloadTurnOff) :
    ((dispatchCommand p).run env w).2 =
      { w with
        slate := { w.slate.counted with isPayloadOn := false }
        trace := w.trace ++ if w.slate.isPayloadOn then
          [.payloadUartWritePacket shutdownPacket 0, .gpioPut .samwiseRpiEnab false] else [] } := by
  cases hon : w.slate.isPayloadOn with
  | false =>
    have hsame : { w.slate.counted with isPayloadOn := false } = w.slate.counted := by
      rw [← hon]
      rfl
    rw [hsame]
    simp [dispatchCommand, h, Slate.counted, payloadTurnOff, hon]
  | true => simp [dispatchCommand, h, Slate.counted, payloadTurnOff, hon, gpioPut]

theorem run_dispatchCommand_manualStateOverride
    (h : Command.ofByte p.data[0] = some .manualStateOverride) :
    ((dispatchCommand p).run env w).2 =
      { w with slate := { w.slate.counted with
          manualOverrideStateId := overrideState (commandPayload p) } } := by
  simp [dispatchCommand, h, Slate.counted]

theorem run_dispatchCommand_adcsExec (h : Command.ofByte p.data[0] = some .adcsExec) :
    ((dispatchCommand p).run env w).2 =
      { w with
        slate := w.slate.counted
        trace := w.trace ++ [.adcsSendCommand (byteAt (commandPayload p) 0)] } := by
  simp [dispatchCommand, h, Slate.counted]

/-- An identifier without a case is counted, and nothing else happens. -/
theorem run_dispatchCommand_default (h : Command.ofByte p.data[0] = none ∨
    Command.ofByte p.data[0] = some .adcsPacket) :
    ((dispatchCommand p).run env w).2 = { w with slate := w.slate.counted } := by
  rcases h with h | h <;> simp [dispatchCommand, h, Slate.counted]

end Dispatch

/-! ## Strings: what the functions compute -/

/-- `strcmp` compares the C string in memory, as long as the memory reaches behind the
literal. Induction on the literal. -/
theorem strcmpEq_iff {mem lit : List UInt8} (hlit : 0 ∉ lit) (hlen : lit.length < mem.length) :
    strcmpEq mem lit = true ↔ cString mem = lit := by
  induction lit generalizing mem with
  | nil =>
    cases mem with
    | nil => simp at hlen
    | cons b mem =>
      by_cases hb : b = 0
      · simp [strcmpEq, byteAt, hb]
      · simp [strcmpEq, byteAt, hb, cString_cons_of_ne]
  | cons l lit ih =>
    cases mem with
    | nil => simp at hlen
    | cons b mem =>
      have hl : l ≠ 0 := fun h0 => hlit (h0 ▸ List.mem_cons_self)
      have hrest : strcmpEq mem lit = true ↔ cString mem = lit :=
        ih (fun h => hlit (List.mem_cons_of_mem _ h)) (by simpa using hlen)
      by_cases hb : b = 0
      · have hne : ¬(0 : UInt8) = l := Ne.symm hl
        simp [strcmpEq, byteAt, hb, hne]
      · simp [strcmpEq, byteAt, cString_cons_of_ne hb, hrest]

/-- What `strcpy_trunc` leaves is the source's C string, cut to fit the array. -/
theorem cString_strcpyTrunc {n : Nat} (dst : Vector UInt8 n) {src : List UInt8}
    (hn : 0 < n) (hsrc : n ≤ src.length) :
    cString (strcpyTrunc dst src n).toList = (cString src).take (n - 1) := by
  have hlen : (src.take n).length = n := by simp [hsrc]
  have hsplit : src.take n ++ src.drop n = src := List.take_append_drop n src
  unfold strcpyTrunc
  by_cases hmem : 0 ∈ src.take n
  · -- the string ends within the first `n` bytes
    have hlt : (cString (src.take n)).length < n := by
      have := length_cString_lt hmem
      omega
    have hsrcString : cString src = cString (src.take n) := by
      conv_lhs => rw [← hsplit]
      exact cString_append_of_mem hmem _
    have hfits : (cString (src.take n) ++ [0]).length ≤ n := by
      rw [List.length_append, List.length_singleton]
      exact hlt
    rw [if_pos hmem, Memory.toList_copyInto dst hfits, List.append_assoc,
      cString_append_of_notMem (zero_notMem_cString _), hsrcString,
      List.take_of_length_le (Nat.le_sub_one_of_lt hlt)]
    simp
  · -- no NUL among the first `n` bytes: the last of them makes way for one
    have hzero : 0 ∉ src.take (n - 1) := fun h =>
      hmem ((List.take_sublist_take_left (Nat.sub_le n 1)).mem h)
    have hcopied : ((Memory.copyInto dst (src.take n)).setIfInBounds (n - 1) 0).toList
        = src.take (n - 1) ++ [0] := by
      apply List.ext_getElem
      · simp
        omega
      · intro i hi _
        have hin : i < n := by simpa using hi
        by_cases hlast : i = n - 1
        · simp [hlast, List.getElem_append_right]
        · have hlt : i < n - 1 := by omega
          have hsrclt : i < src.length := by omega
          have hne : n - 1 ≠ i := by omega
          simp [Memory.copyInto, hne, hlt, hsrclt, List.getElem_append_left]
    have hsrcString : (cString src).take (n - 1) = src.take (n - 1) := by
      conv_lhs => rw [← hsplit, cString_append_of_notMem hmem]
      rw [List.take_append_of_le_length (by omega), List.take_take, Nat.min_eq_left (by omega)]
    rw [if_neg hmem, hcopied, cString_append_of_notMem hzero, hsrcString]
    simp

end Samwise
