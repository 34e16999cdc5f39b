import Samwise.Lib.LittleEndian
import Samwise.Lib.SerialLine
import Samwise.Utils.Crc32

/-!
# Samwise — the packet link to the payload, Pi side

`read_packet` and `write_packet` of `payload/helpers/serial_packet_handler.py` over the port
that `payload/main.py` opens. A read returns when its bytes are there or after the timeout of
the port; a write returns when the driver's buffer is empty.
-/

namespace Samwise

open SerialLine

namespace SerialPacketHandler

/-- `TIMEOUT` of `main.py`, in bits of the line. -/
def timeout : Nat := 10 * 115200

def headerLen : Nat := 8
def maxPacketSize : Nat := 4096
def ackByte : UInt8 := 0x21
def synByte : UInt8 := 0x24
def synCount : Nat := 3
def synRetries : Nat := 3
def primByte : UInt8 := 0x40

/-- `_calculate_header`. -/
def calculateHeader (packet : List UInt8) (seqNum : Nat) : List UInt8 :=
  LittleEndian.encode 2 packet.length ++ (LittleEndian.encode 2 seqNum ++
    LittleEndian.encode 4 (crc32 packet).toNat)

/-- `_decode_header`: the length, the number and the bytes of the checksum. -/
structure DecodedHeader where
  packetLength : Nat
  seqNum : Nat
  expectedCrc32 : List UInt8
  deriving DecidableEq, Repr

def decodeHeader (header : List UInt8) : DecodedHeader where
  packetLength := LittleEndian.decode (header.take 2)
  seqNum := LittleEndian.decode ((header.drop 2).take 2)
  expectedCrc32 := (header.drop 4).take 4

/-! ## Reading a packet -/

inductive ReadPacket where
  | waitForSync (count start : Nat)
  | sendSyncAck
  | waitForStart (count start : Nat)
  | readHeader (start : Nat) (received : List UInt8)
  | sendHeaderAck (header : DecodedHeader)
  | readBody (header : DecodedHeader) (start : Nat) (received : List UInt8)
  | sendBodyAck (packet : List UInt8) (seqNum : Nat)
  | returned (result : Option (List UInt8 × Nat))
  deriving DecidableEq, Repr

/-- One more byte of `_wait_for_sync`: a byte that is not `$` starts the count afresh. -/
def countSync (count now : Nat) (b : UInt8) : ReadPacket :=
  let count := if b = synByte then count + 1 else 0
  if count = synCount then .sendSyncAck else .waitForSync count now

/-- A read of the start byte that brought another byte or none. -/
def missedStart (count now : Nat) : ReadPacket :=
  if count = 10 then .returned none else .waitForStart (count + 1) now

/-- What a header leads to. -/
def checkHeader (header : List UInt8) : ReadPacket :=
  let header := decodeHeader header
  if header.packetLength > maxPacketSize then .returned none else .sendHeaderAck header

/-- What a packet leads to. -/
def checkBody (header : DecodedHeader) (packet : List UInt8) : ReadPacket :=
  if packet.length < header.packetLength then .returned none
  else if header.expectedCrc32 ≠ LittleEndian.le32 (crc32 packet) then .returned none
  else .sendBodyAck packet header.seqNum

/-- `read_packet`. -/
def readPacket : ReadPacket → Action ReadPacket
  | .waitForSync count start =>
    .get (start + timeout) (fun now b => countSync count now b) (fun _ => .returned none)
  | .sendSyncAck => .put ackByte fun now => .waitForStart 0 now
  | .waitForStart count start =>
    .get (start + timeout)
      (fun now b => if b = primByte then .readHeader now [] else missedStart count now)
      (fun now => missedStart count now)
  | .readHeader start received =>
    .read headerLen (start + timeout) received (.readHeader start)
      (fun _ header => checkHeader header) (fun _ _ => .returned none)
  | .sendHeaderAck header =>
    .put ackByte fun now =>
      -- a read of no bytes returns at once
      if header.packetLength = 0 then checkBody header [] else .readBody header now []
  | .readBody header start received =>
    .read header.packetLength (start + timeout) received (.readBody header start)
      (fun _ packet => checkBody header packet) (fun _ packet => checkBody header packet)
  | .sendBodyAck packet seqNum => .put ackByte fun _ => .returned (some (packet, seqNum))
  | .returned _ => .returned

/-! ## Writing a packet -/

inductive WritePacket where
  | sync (tries sent : Nat)
  | awaitSync (tries start : Nat)
  | sleeping (tries : Nat)
  | writePrim
  | writeHeader (written : Nat)
  | awaitHeader (start : Nat)
  | writeBody (written : Nat)
  | awaitBody (start : Nat)
  | returned (acknowledged : Bool)
  | raised
  deriving DecidableEq, Repr

/-- The entry of `write_packet`: the length check, and the `to_bytes` of a number that takes
more than two bytes. -/
def writePacketEntry (packet : List UInt8) (seqNum : Nat) : WritePacket :=
  if packet.length > maxPacketSize then .raised
  else if seqNum ≥ 2 ^ 16 then .raised
  else .sync 0 0

/-- `_receive_ack`, entered at `start`. -/
def receiveAck {σ : Type} (start : Nat) (yes no : Nat → σ) : Action σ :=
  .get (start + timeout) (fun now b => if b = ackByte then yes now else no now) no

/-- `write_packet`. -/
def writePacket (packet : List UInt8) (seqNum : Nat) : WritePacket → Action WritePacket
  | .sync tries sent =>
    if sent < synCount then .put synByte fun _ => .sync tries (sent + 1)
    else .sleep 0 fun now => .awaitSync tries now
  | .awaitSync tries start => receiveAck start (fun _ => .writePrim) (fun _ => .sleeping tries)
  | .sleeping tries =>
    .sleep (115200 / 10) fun _ =>
      if tries + 1 < synRetries then .sync (tries + 1) 0 else .returned false
  | .writePrim => .put primByte fun _ => .writeHeader 0
  | .writeHeader written =>
    match (calculateHeader packet seqNum)[written]? with
    | some b => .put b fun _ => .writeHeader (written + 1)
    | none => .sleep 0 fun now => .awaitHeader now
  | .awaitHeader start =>
    receiveAck start (fun _ => .writeBody 0) (fun _ => .returned false)
  | .writeBody written =>
    match packet[written]? with
    | some b => .put b fun _ => .writeBody (written + 1)
    | none => .sleep 0 fun now => .awaitBody now
  | .awaitBody start =>
    receiveAck start (fun _ => .returned true) (fun _ => .returned false)
  | .returned _ => .returned
  | .raised => .returned

/-! ## The header -/

theorem length_calculateHeader (packet : List UInt8) (seqNum : Nat) :
    (calculateHeader packet seqNum).length = headerLen := by
  simp [calculateHeader, headerLen]

/-- A header is read back from its bytes. -/
theorem decodeHeader_calculateHeader {packet : List UInt8} {seqNum : Nat}
    (hlen : packet.length < 2 ^ 16) (hseq : seqNum < 2 ^ 16) :
    decodeHeader (calculateHeader packet seqNum)
      = ⟨packet.length, seqNum, LittleEndian.le32 (crc32 packet)⟩ := by
  have hlength := LittleEndian.decode_encode 2 packet.length
  have hseqNum := LittleEndian.decode_encode 2 seqNum
  rw [Nat.mod_eq_of_lt (by omega)] at hlength hseqNum
  have hdrop : (calculateHeader packet seqNum).drop 4 = LittleEndian.le32 (crc32 packet) := by
    unfold calculateHeader
    rw [← List.append_assoc]
    exact List.drop_left' (by simp)
  have htake : (LittleEndian.le32 (crc32 packet)).take 4 = LittleEndian.le32 (crc32 packet) :=
    List.take_of_length_le (by simp)
  unfold decodeHeader
  rw [hdrop, htake]
  unfold calculateHeader
  rw [List.take_left' (by simp), List.drop_left' (by simp), List.take_left' (by simp), hlength,
    hseqNum]

end SerialPacketHandler

end Samwise
