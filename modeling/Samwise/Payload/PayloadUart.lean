import Samwise.Lib.LittleEndian
import Samwise.Lib.SerialLine
import Samwise.Utils.Crc32

/-!
# Samwise — the packet link to the payload, flight side

`payload_uart_write_packet` and `payload_uart_read_packet` of
`src/drivers/payload_uart/payload_uart.c`, each a program at the end of a serial line: a
state says where in the function the processor is, with the locals that are alive there.

Times are in bits of the line.
-/

namespace Samwise

open SerialLine

namespace PayloadUart

def baudRate : Nat := 115200

/-- A time in microseconds, in bits of the line. -/
def ofUs (us : Nat) : Nat := us * baudRate / 1000000

def writeMaxTimeout : Nat := ofUs 10000
def uartReadWriteBlocking : Nat := ofUs (50 * 1000)
def byteTimeout : Nat := ofUs (1000 * 1000)

def maxPacketLen : Nat := 4069
def ackByte : UInt8 := 0x21
def synRetries : Nat := 3
def synByte : UInt8 := 0x24
def synCount : Nat := 3
def startTries : Nat := 10
def startByte : UInt8 := 0x40

/-- `packet_header_t`. -/
structure PacketHeader where
  length : UInt16
  seqNum : UInt16
  checksum : UInt32
  deriving DecidableEq, Repr

/-- The struct as it lies in memory. -/
def PacketHeader.toBytes (header : PacketHeader) : List UInt8 :=
  LittleEndian.pack
    [(2, header.length.toNat), (2, header.seqNum.toNat), (4, header.checksum.toNat)]

/-- The struct over received bytes. -/
def PacketHeader.ofBytes (bytes : List UInt8) : PacketHeader where
  length := .ofNat (LittleEndian.decode (bytes.take 2))
  seqNum := .ofNat (LittleEndian.decode ((bytes.drop 2).take 2))
  checksum := .ofNat (LittleEndian.decode ((bytes.drop 4).take 4))

def headerLen : Nat := 8

def computePacketHeader (packet : List UInt8) (seqNum : UInt16) : PacketHeader :=
  ⟨.ofNat packet.length, seqNum, crc32 packet⟩

/-- `receive_ack`, entered at `start`. -/
def receiveAck {σ : Type} (start : Nat) (yes no : Nat → σ) : Action σ :=
  .get (start + byteTimeout) (fun now b => if b = ackByte then yes now else no now) no

/-! ## Writing a packet -/

/-- `payload_write_error_code`. -/
inductive WriteErrorCode where
  | successfulWrite | packetTooBig | synUnsuccessful | uartWriteTimedout | headerUnacknowledged
  | finalWriteUnsuccessful
  deriving DecidableEq, Repr

inductive WritePacket where
  | sync (tries sent : Nat)
  | awaitSyn (tries start : Nat)
  | safeSleep (tries : Nat)
  | writeStart
  | writeHeader (start written : Nat)
  | awaitHeader (start : Nat)
  | writeBody (start written : Nat)
  | awaitBody (start : Nat)
  | returned (code : WriteErrorCode)
  deriving DecidableEq, Repr

/-- The entry of `payload_uart_write_packet`: the length check. -/
def writePacketEntry (packet : List UInt8) : WritePacket :=
  if packet.length > maxPacketLen then .returned .packetTooBig else .sync 0 0

/-- `payload_uart_write_packet`. The loop of `uart_write_timeout` is written out where it is
called. -/
def payloadUartWritePacket (packet : List UInt8) (seqNum : UInt16) :
    WritePacket → Action WritePacket
  | .sync tries sent =>
    if sent < synCount then .put synByte fun _ => .sync tries (sent + 1)
    else .sleep 0 fun now => .awaitSyn tries now
  | .awaitSyn tries start => receiveAck start (fun _ => .writeStart) (fun _ => .safeSleep tries)
  | .safeSleep tries =>
    .sleep (ofUs (100 * 1000)) fun _ =>
      if tries + 1 < synRetries then .sync (tries + 1) 0 else .returned .synUnsuccessful
  | .writeStart => .put startByte fun now => .writeHeader now 0
  | .writeHeader start written =>
    match (computePacketHeader packet seqNum).toBytes[written]? with
    | some b =>
      .putBefore (start + writeMaxTimeout) b (fun _ => .writeHeader start (written + 1))
        (fun _ => .returned .uartWriteTimedout)
    | none => .sleep 0 fun now => .awaitHeader now
  | .awaitHeader start =>
    receiveAck start (fun now => .writeBody now 0) (fun _ => .returned .headerUnacknowledged)
  | .writeBody start written =>
    match packet[written]? with
    | some b =>
      -- what the write returns is not looked at: out of time, the call goes on to the ACK
      .putBefore (start + writeMaxTimeout) b (fun _ => .writeBody start (written + 1))
        (fun now => .awaitBody now)
    | none => .sleep 0 fun now => .awaitBody now
  | .awaitBody start =>
    receiveAck start (fun _ => .returned .successfulWrite)
      (fun _ => .returned .finalWriteUnsuccessful)
  | .returned _ => .returned

/-! ## Reading a packet -/

inductive ReadPacket where
  | receiveSyn (count start : Nat)
  | sendSynAck
  | receiveHeaderStart (runCount start : Nat)
  | receiveHeader (start : Nat) (received : List UInt8)
  | sendHeaderAck (header : PacketHeader)
  | receiveBody (header : PacketHeader) (start : Nat) (received : List UInt8)
  | sendBodyAck (packet : List UInt8)
  | returned (length : Nat) (packet : List UInt8)
  deriving DecidableEq, Repr

/-- One more byte of `receive_syn`: a byte that is not `$` does not reset the count. -/
def countSyn (count now : Nat) (b : UInt8) : ReadPacket :=
  let count := if b = synByte then count + 1 else count
  if count ≥ synCount then .sendSynAck else .receiveSyn count now

/-- One more wrong byte of `receive_header_start`. -/
def wrongStart (runCount now : Nat) : ReadPacket :=
  if runCount + 1 < startTries then .receiveHeaderStart (runCount + 1) now else .returned 0 []

/-- After the last `receive_into`: the length and the checksum of what came in. -/
def checkBody (header : PacketHeader) (received : List UInt8) : ReadPacket :=
  let length := header.length.toNat
  if received.length < length then .returned 0 received
  else if crc32 (received.take length) ≠ header.checksum then .returned 0 received
  else .sendBodyAck (received.take length)

/-- `payload_uart_read_packet`. -/
def payloadUartReadPacket : ReadPacket → Action ReadPacket
  | .receiveSyn count start =>
    .get (start + byteTimeout) (fun now b => countSyn count now b) (fun _ => .returned 0 [])
  | .sendSynAck => .put ackByte fun now => .receiveHeaderStart 0 now
  | .receiveHeaderStart runCount start =>
    .get (start + byteTimeout)
      (fun now b => if b = startByte then .receiveHeader now [] else wrongStart runCount now)
      (fun _ => .returned 0 [])
  | .receiveHeader start received =>
    .read headerLen (start + uartReadWriteBlocking) received (.receiveHeader start)
      (fun _ received => .sendHeaderAck (.ofBytes received)) (fun _ _ => .returned 0 [])
  | .sendHeaderAck header =>
    -- the ACK goes out before the length is looked at
    .put ackByte fun now =>
      if header.length.toNat > maxPacketLen then .returned 0 [] else .receiveBody header now []
  | .receiveBody header start received =>
    .read header.length.toNat (start + uartReadWriteBlocking) received
      (.receiveBody header start) (fun _ received => checkBody header received)
      (fun _ received => checkBody header received)
  | .sendBodyAck packet => .put ackByte fun _ => .returned packet.length packet
  | .returned _ _ => .returned

/-! ## The header -/

theorem length_toBytes (header : PacketHeader) : header.toBytes.length = headerLen :=
  LittleEndian.length_pack _

/-- A header is read back from its bytes. -/
theorem ofBytes_toBytes (header : PacketHeader) : PacketHeader.ofBytes header.toBytes = header := by
  have hbytes : header.toBytes = LittleEndian.encode 2 header.length.toNat
      ++ (LittleEndian.encode 2 header.seqNum.toNat
        ++ LittleEndian.encode 4 header.checksum.toNat) := by
    simp [PacketHeader.toBytes, LittleEndian.pack]
  have hlength := LittleEndian.decode_encode 2 header.length.toNat
  have hseqNum := LittleEndian.decode_encode 2 header.seqNum.toNat
  have hchecksum := LittleEndian.decode_encode 4 header.checksum.toNat
  rw [Nat.mod_eq_of_lt (LittleEndian.toNat_lt_two _)] at hlength hseqNum
  rw [Nat.mod_eq_of_lt (LittleEndian.toNat_lt_four _)] at hchecksum
  have hdrop : header.toBytes.drop 4 = LittleEndian.encode 4 header.checksum.toNat := by
    rw [hbytes, ← List.append_assoc]
    exact List.drop_left' (by simp)
  have htake : (LittleEndian.encode 4 header.checksum.toNat).take 4
      = LittleEndian.encode 4 header.checksum.toNat := List.take_of_length_le (by simp)
  unfold PacketHeader.ofBytes
  rw [hdrop, htake, hchecksum, hbytes,
    List.take_left' (by simp), List.drop_left' (by simp), List.take_left' (by simp), hlength,
    hseqNum, UInt16.ofNat_toNat, UInt16.ofNat_toNat, UInt32.ofNat_toNat]

end PayloadUart

end Samwise
