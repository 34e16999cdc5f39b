import Samwise.Packet.Packet

/-!
# Samwise — the protocol with the ADCS board

`src/drivers/communications/protocol.c`: messages, their constructors and the two functions
between messages and bytes.
-/

namespace Samwise

/-- A `const uint8_t *`: `NULL`, or the low byte of an address with the memory from there
on. -/
inductive BytePtr where
  | null
  | to (address : UInt8) (memory : List UInt8)
deriving DecidableEq

/-- `msg_t`. -/
structure Msg where
  src : UInt8
  dst : UInt8
  seq : UInt8
  flags : UInt8
  type : UInt8
  len : UInt8
  payload : BytePtr
  crc8 : UInt8
deriving DecidableEq

/-- `MSG_PING`. -/
def msgPing : UInt8 := 0

/-- `MSG_PONG`. -/
def msgPong : UInt8 := 1

/-- `MSG_COMMAND`. -/
def msgCommand : UInt8 := 3

/-- `MSG_ADCS_PACKET`. -/
def msgAdcsPacket : UInt8 := 4

/-- `sizeof(adcs_packet_t)`: 18 floats, a `char` and a `uint32_t`, packed. -/
def adcsPacketSize : Nat := 18 * 4 + 1 + 4

/-- `protocol_message_ping`. -/
def protocolMessagePing : Msg := ⟨1, 0, 0, 0, msgPing, 1, .null, 0⟩

/-- `protocol_message_pong`. -/
def protocolMessagePong : Msg := ⟨1, 0, 0, 0, msgPong, 1, .null, 0⟩

/-- `protocol_message_command`. -/
def protocolMessageCommand (command : BytePtr) : Msg := ⟨1, 0, 0, 0, msgCommand, 1, command, 0⟩

/-- `protocol_message_adcs`. -/
def protocolMessageAdcs (adcs : BytePtr) : Msg :=
  ⟨1, 0, 0, 0, msgAdcsPacket, UInt8.ofNat adcsPacketSize, adcs, 0⟩

/-- The first six bytes of a `msg_t`. -/
def Msg.header (msg : Msg) : List UInt8 :=
  [msg.src, msg.dst, msg.seq, msg.flags, msg.type, msg.len]

/-- The bytes `protocol_message_encode` puts behind the header: without a payload, the first
byte of the pointer. -/
def Msg.payloadBytes (msg : Msg) : List UInt8 :=
  match msg.payload with
  | .null => [0]
  | .to address memory => if msg.len = 0 then [address] else memory.take msg.len.toNat

/-- `protocol_message_encode`: the bytes it writes. -/
def protocolMessageEncode (msg : Msg) : List UInt8 :=
  msg.header ++ msg.payloadBytes ++ [msg.crc8]

/-- `protocol_message_decode`; `address` is the low byte of `buf + 6`. -/
def protocolMessageDecode (len : Nat) (address : UInt8) (buf : List UInt8) : Msg where
  src := byteAt buf 0
  dst := byteAt buf 1
  seq := byteAt buf 2
  flags := byteAt buf 3
  type := byteAt buf 4
  len := byteAt buf 5
  payload := .to address (buf.drop 6)
  crc8 := byteAt buf (len - 1)

@[simp] theorem Msg.length_header (msg : Msg) : msg.header.length = 6 := rfl

theorem length_protocolMessageEncode (msg : Msg) :
    (protocolMessageEncode msg).length = msg.payloadBytes.length + 7 := by
  rw [protocolMessageEncode, List.length_append, List.length_append, Msg.length_header,
    List.length_singleton]
  omega

/-- Decoding an encoded message, with anything behind it: the header is the message's, and
its payload is where the pointer points. -/
theorem protocolMessageDecode_encode (msg : Msg) (len : Nat) (address : UInt8)
    (rest : List UInt8) :
    let decoded := protocolMessageDecode len address (protocolMessageEncode msg ++ rest)
    decoded.header = msg.header ∧
      decoded.payload = .to address (msg.payloadBytes ++ msg.crc8 :: rest) := by
  have hencode : protocolMessageEncode msg ++ rest
      = msg.header ++ (msg.payloadBytes ++ msg.crc8 :: rest) := by
    rw [protocolMessageEncode, List.append_assoc, List.append_assoc, List.singleton_append]
  rw [hencode]
  exact ⟨rfl, rfl⟩

end Samwise
