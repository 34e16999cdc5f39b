import Mathlib.Data.Rat.Floor
import Samwise.Lib.BinaryFloat
import Samwise.Lib.Run

/-!
# Samwise — the 2.4 GHz downlink of the payload

`PacketizedFile` and what `main` sends of it (`src/payload/radio/Lora_tx.cpp`), and the handler
`rxDone` that puts the file together again (`Lora_rx.cpp`). The driver of the radio chip lies
outside the repository: `Delivered` is all that is said of it. `size_t` has 64 bits.
-/

namespace Samwise.Lora

/-- `PACKET_SIZE`. -/
def packetSize : Nat := 253

/-! ## The transmitter -/

/-- `ceil(static_cast<float>(filesize) / PACKET_SIZE)`. Both the size and the quotient are
rounded to a `float`; `ceil` of it is exact. -/
def numpackets (filesize : Nat) : Nat :=
  ⌈BinaryFloat.roundTo 24 (BinaryFloat.roundTo 24 (filesize : ℚ) / packetSize)⌉₊

/-- `PacketizedFile`, with the content of the file and the position in it. -/
structure PacketizedFile where
  content : List UInt8
  position : Nat
  numpackets : Nat
  currentpacketId : Nat

/-- The constructor. -/
def PacketizedFile.ofContent (content : List UInt8) : PacketizedFile where
  content := content
  position := 0
  numpackets := Lora.numpackets content.length
  currentpacketId := 0

/-- `getNextPacket`. A read at the end of the file leaves the zeros in the packet, and the
header is empty. -/
def PacketizedFile.getNextPacket (p : PacketizedFile) : List UInt8 × PacketizedFile :=
  let read := (p.content.drop p.position).take packetSize
  let packet := read ++ List.replicate (packetSize - read.length) 0
  -- `numpackets - 1` wraps for no packets, and then the id is another one
  let n := if p.currentpacketId + 1 ≠ p.numpackets then packetSize
    else p.content.length % packetSize
  (packet.take n, { p with position := p.position + read.length })

/-- `Iterator::operator++`, with the new `currentpacket`. -/
def PacketizedFile.next (p : PacketizedFile) : List UInt8 × PacketizedFile :=
  let (packet, p) := p.getNextPacket
  (packet, { p with currentpacketId := p.currentpacketId + 1 })

/-- The `for` of `main` over the iterator: the packets that are sent. Each round raises the id,
so one round more than there are packets is enough. -/
def PacketizedFile.send : Nat → List UInt8 → PacketizedFile → List (List UInt8)
  | 0, _, _ => []
  | rounds + 1, currentpacket, p =>
    if p.currentpacketId ≤ p.numpackets then
      currentpacket :: send rounds p.next.1 p.next.2
    else []

/-- The packets that `main` sends for a file. `begin()` makes the first one. -/
def sentPackets (content : List UInt8) : List (List UInt8) :=
  let begin := (PacketizedFile.ofContent content).next
  begin.2.send (begin.2.numpackets + 1) begin.1

/-- `std::to_string(filesize) + "\0"`: the literal is an empty string. -/
def sizeAnnouncement (filesize : Nat) : List UInt8 :=
  (Nat.toDigits 10 filesize).map fun c => UInt8.ofNat c.toNat

/-! ## The receiver -/

/-- What `GetPayload` gives: `recv_buf` and `recv_size`. -/
structure Reception where
  recvBuf : List UInt8
  recvSize : Nat
deriving DecidableEq

/-- A packet that arrives is at the front of `recv_buf`; behind it is whatever the chips or the
stack held. With packets of a fixed length, as they are configured here, `recv_size` may be that
length for a shorter one. -/
structure Delivered (payload : List UInt8) (r : Reception) : Prop where
  length : r.recvBuf.length = packetSize
  isPrefix : payload <+: r.recvBuf
  recvSize : r.recvSize = payload.length ∨ r.recvSize = packetSize

def isSpace (b : UInt8) : Bool := b == 0x20 || (0x09 ≤ b && b ≤ 0x0D)

def isDigit (b : UInt8) : Bool := 0x30 ≤ b && b ≤ 0x39

/-- The number that a row of digits says. -/
def digitsValue (digits : List UInt8) : Nat :=
  digits.foldl (fun value d => 10 * value + (d.toNat - 0x30)) 0

/-- `atoi`. It is not defined for a number that is no `int`, and neither is to read on behind
the buffer. -/
def atoi (mem : List UInt8) : Option Int :=
  let s := mem.dropWhile isSpace
  let negative := s.head? == some 0x2D
  let s := if negative || s.head? == some 0x2B then s.tail else s
  let digits := s.takeWhile isDigit
  let value : Int := if negative then -digitsValue digits else digitsValue digits
  if digits.length < s.length ∧ -2147483648 ≤ value ∧ value ≤ 2147483647 then some value
  else none

/-- What the handler and `main` share, with the bytes of `fileToReceive`. -/
structure Receiver where
  packetCount : Nat := 0
  expectedBytes : Nat := 0
  expectedFullPackets : Nat := 0
  partialPacketBytes : Nat := 0
  receivedFirstPacket : Bool := false
  done : Bool := false
  file : List UInt8 := []
deriving DecidableEq

/-- `expectedBytes` and what is computed from it. -/
def Receiver.expecting (s : Receiver) (value : Int) : Receiver :=
  let expectedBytes := (value % 18446744073709551616).toNat
  { s with
    expectedBytes
    partialPacketBytes := expectedBytes % packetSize
    expectedFullPackets := (expectedBytes - expectedBytes % packetSize) / packetSize
    receivedFirstPacket := true }

/-- `rxDone`; `none` where the behaviour is not defined. -/
def rxDone (s : Receiver) (r : Reception) : Option Receiver :=
  if s.receivedFirstPacket = false then (atoi r.recvBuf).map s.expecting
  else if s.packetCount + 1 > s.expectedFullPackets then
    some { s with
      packetCount := s.packetCount + 1
      file := s.file ++ r.recvBuf.take s.partialPacketBytes
      done := true }
  else
    some { s with
      packetCount := s.packetCount + 1
      file := s.file ++ r.recvBuf.take r.recvSize }

/-! ## The packets of a file -/

/-- The packet with id `id`. -/
def packetAt (content : List UInt8) (numpackets id : Nat) : List UInt8 :=
  let read := (content.drop (packetSize * id)).take packetSize
  (read ++ List.replicate (packetSize - read.length) 0).take
    (if id + 1 ≠ numpackets then packetSize else content.length % packetSize)

/-- The file behind `id` calls of `getNextPacket`. -/
def PacketizedFile.atPacket (content : List UInt8) (numpackets id : Nat) : PacketizedFile where
  content := content
  position := min (packetSize * id) content.length
  numpackets := numpackets
  currentpacketId := id

theorem next_atPacket (content : List UInt8) (numpackets id : Nat) :
    (PacketizedFile.atPacket content numpackets id).next
      = (packetAt content numpackets id, .atPacket content numpackets (id + 1)) := by
  have hdrop : content.drop (min (packetSize * id) content.length)
      = content.drop (packetSize * id) := by
    obtain hle | hle := Nat.le_total (packetSize * id) content.length
    · rw [Nat.min_eq_left hle]
    · rw [Nat.min_eq_right hle, List.drop_length, List.drop_eq_nil_of_le hle]
  have hposition : min (packetSize * id) content.length
      + ((content.drop (packetSize * id)).take packetSize).length
      = min (packetSize * (id + 1)) content.length := by
    rw [List.length_take, List.length_drop]
    have hmul : packetSize * (id + 1) = packetSize * id + packetSize := Nat.mul_succ _ _
    omega
  simp only [PacketizedFile.next, PacketizedFile.getNextPacket, PacketizedFile.atPacket, hdrop,
    hposition]
  rfl

/-- The loop sends the packet it has and those behind it. Induction on the rounds. -/
theorem send_atPacket (content : List UInt8) (numpackets : Nat) {rounds id : Nat}
    (h : numpackets ≤ id + rounds) :
    (PacketizedFile.atPacket content numpackets (id + 1)).send (rounds + 1)
        (packetAt content numpackets id)
      = (List.range' id (numpackets - id)).map (packetAt content numpackets) := by
  induction rounds generalizing id with
  | zero =>
    have hnone : numpackets - id = 0 := by omega
    rw [PacketizedFile.send, if_neg (by show ¬id + 1 ≤ numpackets; omega), hnone]
    rfl
  | succ rounds ih =>
    rw [PacketizedFile.send]
    split
    · next hle =>
      have hcount : numpackets - id = numpackets - (id + 1) + 1 := by
        have : id + 1 ≤ numpackets := hle
        omega
      rw [next_atPacket, ih (by omega), hcount, List.range'_succ, List.map_cons]
    · next hle =>
      have hnone : numpackets - id = 0 := by
        have : ¬id + 1 ≤ numpackets := hle
        omega
      rw [hnone]
      rfl

/-- **What is sent**: as many packets as were counted. -/
theorem sentPackets_eq (content : List UInt8) :
    sentPackets content = (List.range (numpackets content.length)).map
      (packetAt content (numpackets content.length)) := by
  have hbegin : (PacketizedFile.ofContent content).next
      = (packetAt content (numpackets content.length) 0,
        .atPacket content (numpackets content.length) 1) := by
    rw [← next_atPacket]
    rfl
  rw [sentPackets, hbegin, List.range_eq_range']
  exact send_atPacket content _ (Nat.le_add_left _ _)

/-- A packet before the last one is a piece of the file. -/
theorem packetAt_full {content : List UInt8} {numpackets id : Nat} (hid : id + 1 ≠ numpackets)
    (hfull : packetSize * (id + 1) ≤ content.length) :
    packetAt content numpackets id = (content.drop (packetSize * id)).take packetSize := by
  have hlength : ((content.drop (packetSize * id)).take packetSize).length = packetSize := by
    rw [List.length_take, List.length_drop]
    have hmul : packetSize * (id + 1) = packetSize * id + packetSize := Nat.mul_succ _ _
    omega
  rw [packetAt, if_pos hid, List.take_left' hlength]

/-- The last one is what is left. -/
theorem packetAt_last {content : List UInt8} {id : Nat}
    (hid : id = content.length / packetSize) :
    packetAt content (id + 1) id = content.drop (packetSize * id) := by
  have hlength : (content.drop (packetSize * id)).length = content.length % packetSize := by
    rw [List.length_drop, hid]
    have := Nat.div_add_mod content.length packetSize
    omega
  have hlt : content.length % packetSize < packetSize := Nat.mod_lt _ (by decide)
  have hread : (content.drop (packetSize * id)).take packetSize = content.drop (packetSize * id) :=
    List.take_of_length_le (by omega)
  rw [packetAt, if_neg (by simp), hread, List.take_left' hlength]

/-- Pieces of a list, one behind the other. -/
theorem flatten_pieces (content : List UInt8) (size n : Nat) :
    ((List.range n).map fun i => (content.drop (size * i)).take size).flatten
      = content.take (size * n) := by
  induction n with
  | zero => simp
  | succ n ih =>
    rw [List.range_succ, List.map_append, List.flatten_append, ih, Nat.mul_succ, List.take_add]
    simp

end Samwise.Lora
