import Samwise.Communications.Protocol
import Samwise.Communications.UartCommunications

/-!
# Samwise — the link with the ADCS board

`receive_msg` and `send_msg` (`src/drivers/adcs/adcs_driver.c`) and the exchange with the
board in `adcs_task_dispatch` (`src/tasks/adcs/adcs_task.c`), on top of the ring buffer of the
UART, byte stuffing and the message format. The lengths are passed through with corrections:
`uart_comms_get_packet` counts the delimiter, `receive_msg` takes one off for the code byte
and leaves the delimiter in, and the task compares with the length of a message.
-/

namespace Samwise

open Memory

/-! ## Driver and task -/

/-- What the task works on: the UART's buffer, the static `rx_buf` with the low byte of the
address of its payloads, and the fields of the slate. -/
structure AdcsLink where
  rx : UartRx
  rxBuf : Vector UInt8 256
  payloadAddress : UInt8
  isAdcsOn : Bool
  adcsTelemetry : Vector UInt8 adcsPacketSize

/-- What an exchange does: bytes handed to the UART, and what it writes into the slate. -/
inductive AdcsEffect where
  | uartCommsTx (data : List UInt8)
  | isAdcsOn
  | adcsTelemetry (data : List UInt8)
deriving DecidableEq

/-- `receive_msg`: the message, the number it returns, and the buffers afterwards. -/
def receiveMsg (s : AdcsLink) : Msg × UInt32 × AdcsLink :=
  let packet := uartCommsGetPacket s.rx 256
  let numBytes := packet.1.length
  let rxBuf := copyInto s.rxBuf (cobsDecode packet.1)
  (protocolMessageDecode (numBytes + 1) s.payloadAddress rxBuf.toList, UInt32.ofNat numBytes - 1,
    { s with rx := packet.2, rxBuf })

/-- `send_msg`: the bytes it hands to `uart_comms_tx`. -/
def sendMsg (msg : Msg) (len : Nat) : List UInt8 :=
  cobsEncode ((protocolMessageEncode msg).take len) ++ [0]

/-- `send_ping`. -/
def sendPing : AdcsEffect := .uartCommsTx (sendMsg protocolMessagePing 8)

/-- `send_pong`. -/
def sendPong : AdcsEffect := .uartCommsTx (sendMsg protocolMessagePong 8)

/-- The memory a received message's `payload` points into. -/
def Msg.payloadMemory (msg : Msg) : List UInt8 :=
  match msg.payload with
  | .null => []
  | .to _ memory => memory

/-- `adcs_task_dispatch` behind its sleeps. -/
def adcsExchange (s : AdcsLink) : List AdcsEffect × AdcsLink :=
  if uartCommsPacketReady s.rx ≠ 0 then
    let received := receiveMsg s
    let numBytes := received.2.1
    let s := received.2.2
    if received.1.type = msgPing then
      if numBytes ≠ 8 then ([], s) else ([sendPong], s)
    else if received.1.type = msgPong then
      if numBytes ≠ 8 then ([], s) else ([.isAdcsOn], { s with isAdcsOn := true })
    else if received.1.type = msgAdcsPacket then
      if numBytes ≠ UInt32.ofNat (7 + adcsPacketSize) then ([], s)
      else
        let telemetry := received.1.payloadMemory.take adcsPacketSize
        ([.isAdcsOn, .adcsTelemetry telemetry],
          { s with isAdcsOn := true, adcsTelemetry := copyInto s.adcsTelemetry telemetry })
    else ([], s)
  else ([sendPing], s)

/-! ## What the link is for -/

/-- The types of message the task acts on. -/
inductive AdcsMsgType where
  | ping
  | pong
  | adcsPacket
deriving DecidableEq, Repr

/-- The value of the type. -/
def AdcsMsgType.value : AdcsMsgType → UInt8
  | .ping => msgPing
  | .pong => msgPong
  | .adcsPacket => msgAdcsPacket

/-- The length of its payload. -/
def AdcsMsgType.payloadLength : AdcsMsgType → Nat
  | .ping => 1
  | .pong => 1
  | .adcsPacket => adcsPacketSize

/-- The exchange acts on a message of the type. -/
def AdcsMsgType.ActedOn (t : AdcsMsgType) (effects : List AdcsEffect) : Prop :=
  match t with
  | .ping => effects = [sendPong]
  | .pong => effects = [.isAdcsOn]
  | .adcsPacket => ∃ telemetry, effects = [.isAdcsOn, .adcsTelemetry telemetry]

/-- A message of the type, with a payload of its length. -/
def AdcsMsgType.Sends (t : AdcsMsgType) (msg : Msg) : Prop :=
  msg.type = t.value ∧ msg.len.toNat = t.payloadLength ∧
    msg.payloadBytes.length = t.payloadLength

/-- The frame is an encoded message of the type. -/
def AdcsMsgType.Encodes (t : AdcsMsgType) (f : List UInt8) : Prop :=
  ∃ msg, t.Sends msg ∧ f = cobsEncode (protocolMessageEncode msg)

/-- The received message has the fields, the payload and the checksum of the sent one. -/
def Msg.ReceivedAs (msg received : Msg) : Prop :=
  received.header = msg.header ∧
    received.payloadMemory.take msg.payloadBytes.length = msg.payloadBytes ∧
    received.crc8 = msg.crc8

/-- The frame is the first one in the UART's buffer: all of it, or of a frame longer than the
buffer its end. -/
def AdcsLink.Holds (s : AdcsLink) (f : List UInt8) : Prop :=
  ∃ rest, s.rx.contents = f.rtake 254 ++ 0 :: rest

/-- What the link promises for a frame: it acts on the encoded messages and no others, and
receives them as they were sent. -/
def AdcsLink.Accepts (s : AdcsLink) (f : List UInt8) : Prop :=
  (∀ t : AdcsMsgType, t.ActedOn (adcsExchange s).1 ↔ t.Encodes f) ∧
    ∀ t : AdcsMsgType, ∀ msg, t.Sends msg → f = cobsEncode (protocolMessageEncode msg) →
      msg.ReceivedAs (receiveMsg s).1

/-- The frame is one byte shorter than an encoded message of the type, and its decoded bytes
have the type. -/
def AdcsMsgType.Misread (t : AdcsMsgType) (f : List UInt8) : Prop :=
  f.length = t.payloadLength + 7 ∧ byteAt (cobsDecode (f ++ [0])) 4 = t.value

/-! ## What the driver receives -/

section Receive

variable {s : AdcsLink} {f rest : List UInt8}

/-- A frame of the buffer comes through with its delimiter counted. -/
theorem receiveMsg_spec (hf : 0 ∉ f) (hlen : f.length ≤ 254) (h : s.rx.contents = f ++ 0 :: rest) :
    (receiveMsg s).1 = protocolMessageDecode (f.length + 2) s.payloadAddress
        (cobsDecode (f ++ [0]) ++ s.rxBuf.toList.drop (cobsDecode (f ++ [0])).length) ∧
      (receiveMsg s).2.1.toNat = f.length := by
  obtain ⟨hpacket, -⟩ := uartCommsGetPacket_spec hf h (show f.length < 256 by omega)
  have hlength : (f ++ [0]).length = f.length + 1 := by
    rw [List.length_append, List.length_singleton]
  have hfits : (cobsDecode (f ++ [0])).length ≤ 256 := by
    have hle := length_cobsDecode_le (f ++ [0])
    omega
  constructor
  · simp only [receiveMsg, hpacket, hlength, toList_copyInto _ hfits]
  · simp only [receiveMsg, hpacket, hlength, UInt32.ofNat_add]
    rw [show UInt32.ofNat 1 = 1 from rfl, UInt32.add_sub_cancel, UInt32.toNat_ofNat']
    omega

/-- The type of a frame with five or more bytes behind its first code byte. -/
theorem receiveMsg_type (hf : 0 ∉ f) (hlen : f.length ≤ 254) (hlong : 6 ≤ f.length)
    (h : s.rx.contents = f ++ 0 :: rest) :
    (receiveMsg s).1.type = byteAt (cobsDecode (f ++ [0])) 4 := by
  have hdecoded : f.length ≤ (cobsDecode (f ++ [0])).length + 1 := le_length_cobsDecode hf hlen
  rw [(receiveMsg_spec hf hlen h).1]
  show byteAt (cobsDecode (f ++ [0]) ++ _) 4 = _
  rw [byteAt, byteAt, List.getD_eq_getElem?_getD, List.getElem?_append_left (by omega),
    List.getD_eq_getElem?_getD]

attribute [local simp] AdcsMsgType.ActedOn AdcsMsgType.value AdcsMsgType.payloadLength sendPong
  msgPing msgPong msgAdcsPacket adcsPacketSize in
/-- **What the exchange acts on**: a type of message, and the length of a message where the
delimiter counts for one of its bytes. -/
theorem actedOn_iff (hf : 0 ∉ f) (hlen : f.length ≤ 254) (h : s.rx.contents = f ++ 0 :: rest)
    (t : AdcsMsgType) :
    t.ActedOn (adcsExchange s).1 ↔
      (receiveMsg s).1.type = t.value ∧ f.length = t.payloadLength + 7 := by
  have hready : uartCommsPacketReady s.rx ≠ 0 := by
    rw [uartCommsPacketReady_eq hf h]
    exact Nat.succ_ne_zero _
  have hnum := (receiveMsg_spec hf hlen h).2
  have height : (receiveMsg s).2.1 ≠ 8 ↔ f.length ≠ 8 := by
    rw [Ne, ← UInt32.toNat_inj, hnum]
    exact Iff.rfl
  have htelemetry : (receiveMsg s).2.1 ≠ UInt32.ofNat (7 + adcsPacketSize) ↔ f.length ≠ 84 := by
    rw [Ne, ← UInt32.toNat_inj, hnum]
    exact Iff.rfl
  unfold adcsExchange
  simp only [if_pos hready, height, htelemetry]
  -- the branches of the `switch`, each with its comparison of the length
  by_cases hping : (receiveMsg s).1.type = msgPing
  · by_cases hlength : f.length = 8
    · cases t <;> simp [hping, hlength]
    · cases t <;> simp [hping, hlength]
  · by_cases hpong : (receiveMsg s).1.type = msgPong
    · by_cases hlength : f.length = 8
      · cases t <;> simp [hpong, hlength]
      · cases t <;> simp [hpong, hlength]
    · by_cases hadcs : (receiveMsg s).1.type = msgAdcsPacket
      · by_cases hlength : f.length = 84
        · cases t <;> simp [hadcs, hlength]
        · cases t <;> simp [hadcs, hlength]
      · rw [if_neg hping, if_neg hpong, if_neg hadcs]
        cases t with
        | ping => exact iff_of_false (by simp) fun h => hping h.1
        | pong => exact iff_of_false (by simp) fun h => hpong h.1
        | adcsPacket => exact iff_of_false (by simp) fun h => hadcs h.1

/-- An encoded message of the type is one byte longer than what the exchange acts on. -/
theorem AdcsMsgType.Encodes.length {t : AdcsMsgType} (h : t.Encodes f) :
    f.length = t.payloadLength + 8 := by
  obtain ⟨msg, ⟨-, -, hpayload⟩, rfl⟩ := h
  have hmsg := length_protocolMessageEncode msg
  have hmax : t.payloadLength ≤ 77 := by cases t <;> decide
  rw [length_cobsEncode (by omega), hmsg, hpayload]

/-- An encoded message arrives with its header and its payload. What `receive_msg` takes for
the checksum is a byte of `rx_buf` two behind the message. -/
theorem receiveMsg_encoded {t : AdcsMsgType} {msg : Msg} (ht : t.Sends msg)
    (h : s.rx.contents = cobsEncode (protocolMessageEncode msg) ++ 0 :: rest) :
    (receiveMsg s).1.header = msg.header ∧
      (receiveMsg s).1.payloadMemory.take msg.payloadBytes.length = msg.payloadBytes ∧
      (receiveMsg s).1.crc8 = byteAt s.rxBuf.toList (t.payloadLength + 9) ∧
      (receiveMsg s).2.1.toNat = (protocolMessageEncode msg).length + 1 := by
  have hpayload := ht.2.2
  have hmsg := length_protocolMessageEncode msg
  have hmax : t.payloadLength ≤ 77 := by cases t <;> decide
  have hframe : (cobsEncode (protocolMessageEncode msg)).length
      = (protocolMessageEncode msg).length + 1 := length_cobsEncode (by omega)
  obtain ⟨hreceived, hnum⟩ := receiveMsg_spec (zero_notMem_cobsEncode _) (by omega) h
  rw [cobsDecode_cobsEncode] at hreceived
  rw [hreceived]
  obtain ⟨hheader, hpointer⟩ := protocolMessageDecode_encode msg
    ((cobsEncode (protocolMessageEncode msg)).length + 2) s.payloadAddress
    (s.rxBuf.toList.drop (protocolMessageEncode msg).length)
  refine ⟨hheader, ?_, ?_, ?_⟩
  · rw [Msg.payloadMemory, hpointer]
    exact List.take_left
  · show byteAt (protocolMessageEncode msg ++ _) _ = _
    rw [byteAt, byteAt, List.getD_eq_getElem?_getD, List.getElem?_append_right (by omega),
      List.getElem?_drop, List.getD_eq_getElem?_getD]
    congr 2
    omega
  · rw [hnum, hframe]

theorem rtake_cases (f : List UInt8) :
    (f.length ≤ 254 ∧ f.rtake 254 = f) ∨ (254 < f.length ∧ (f.rtake 254).length = 254) := by
  rw [List.rtake]
  by_cases h : f.length ≤ 254
  · exact Or.inl ⟨h, by rw [Nat.sub_eq_zero_of_le h, List.drop_zero]⟩
  · refine Or.inr ⟨by omega, ?_⟩
    rw [List.length_drop]
    omega

/-- The exchange acts on the frames it misreads, and on no others. -/
theorem actedOn_iff_misread (hf : 0 ∉ f) (h : s.Holds f) (t : AdcsMsgType) :
    t.ActedOn (adcsExchange s).1 ↔ t.Misread f := by
  obtain ⟨rest, hrest⟩ := h
  have hpos : 8 ≤ t.payloadLength + 7 ∧ t.payloadLength + 7 ≤ 84 := by cases t <;> decide
  rcases rtake_cases f with ⟨hlen, hall⟩ | ⟨hlen, hend⟩
  · rw [hall] at hrest
    rw [actedOn_iff hf hlen hrest, AdcsMsgType.Misread, and_comm]
    refine and_congr_right fun hlength => ?_
    rw [receiveMsg_type hf hlen (by omega) hrest]
  · -- the end of a longer frame fills the buffer, and is too long for the task
    have hf' : 0 ∉ f.rtake 254 := fun hmem => hf (List.mem_of_mem_drop hmem)
    rw [actedOn_iff hf' (by omega) hrest, AdcsMsgType.Misread]
    constructor
    · rintro ⟨-, hlength⟩
      omega
    · rintro ⟨hlength, -⟩
      omega

/-- **Acceptance on the link.** What the task makes of a frame is right exactly for the frames
that are no encoded message, and not one byte shorter with the type of one. -/
theorem adcs_link_acceptance (hf : 0 ∉ f) (h : s.Holds f) :
    s.Accepts f ↔ ∀ t : AdcsMsgType, ¬t.Encodes f ∧ ¬t.Misread f := by
  constructor
  · rintro ⟨hacts, -⟩ t
    have hboth : t.Misread f ↔ t.Encodes f := (actedOn_iff_misread hf h t).symm.trans (hacts t)
    -- the two lengths differ
    have hnot : ¬(t.Misread f ∧ t.Encodes f) := by
      rintro ⟨⟨hlength, -⟩, hencodes⟩
      have hlength' := hencodes.length
      omega
    exact ⟨fun he => hnot ⟨hboth.mpr he, he⟩, fun hm => hnot ⟨hm, hboth.mp hm⟩⟩
  · intro hother
    refine ⟨fun t => ?_, fun t msg ht hframe => ?_⟩
    · rw [actedOn_iff_misread hf h t]
      exact iff_of_false (hother t).2 (hother t).1
    · exact absurd ⟨msg, ht, hframe⟩ (hother t).1

end Receive

/-- The link before anything arrived. -/
def AdcsLink.start : AdcsLink where
  rx := .empty 0 (by decide)
  rxBuf := Vector.replicate 256 0
  payloadAddress := 0
  isAdcsOn := false
  adcsTelemetry := Vector.replicate adcsPacketSize 0

/-- The interrupt handler runs for a frame and its delimiter. -/
def AdcsLink.arrive (s : AdcsLink) (f : List UInt8) : AdcsLink :=
  { s with rx := uartRxIsr s.rx (f ++ [0]) }

/-- Every frame that arrives in an empty buffer is held there, whatever its length. -/
theorem AdcsLink.holds_arrive {s : AdcsLink} (h : s.rx.contents = []) (f : List UInt8) :
    (s.arrive f).Holds f :=
  ⟨[], contents_uartRxIsr h f⟩

/-- Two bytes of noise arrive, and nothing comes of it. -/
theorem adcs_link_acceptance_noise : (AdcsLink.start.arrive [2, 7]).Accepts [2, 7] := by
  refine (adcs_link_acceptance (by decide) (AdcsLink.holds_arrive rfl _)).mpr fun t => ⟨?_, ?_⟩
  · intro hencodes
    have hlength := hencodes.length
    cases t <;> simp [AdcsMsgType.payloadLength, adcsPacketSize] at hlength
  · rintro ⟨hlength, -⟩
    cases t <;> simp [AdcsMsgType.payloadLength, adcsPacketSize] at hlength

/-- **A ping is not answered**: the frame that `send_ping` itself sends arrives, and the
exchange drops it. -/
theorem ping_not_answered :
    ¬ ∀ (s : AdcsLink) (f : List UInt8), 0 ∉ f → s.Holds f → s.Accepts f := by
  intro h
  let f := cobsEncode (protocolMessageEncode protocolMessagePing)
  have hf : 0 ∉ f := zero_notMem_cobsEncode _
  have hholds : (AdcsLink.start.arrive f).Holds f := AdcsLink.holds_arrive rfl f
  obtain ⟨hacts, -⟩ := h _ f hf hholds
  have hencodes : AdcsMsgType.ping.Encodes f := ⟨protocolMessagePing, ⟨rfl, rfl, rfl⟩, rfl⟩
  obtain ⟨hlength, -⟩ := (actedOn_iff_misread hf hholds .ping).mp ((hacts .ping).mpr hencodes)
  have hlength' := hencodes.length
  omega

end Samwise
