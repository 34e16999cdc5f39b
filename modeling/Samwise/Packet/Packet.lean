import Samwise.Lib.LittleEndian
import Samwise.Lib.Memory

/-!
# Samwise — the flight packet and its codec

`packet_t` (`src/packet/packet.h`) with its packed layout, and the two functions of
`src/tasks/radio/radio_task.c` that move it to and from the radio FIFO: `encodePacket` and
`parsePacket`. The record keeps the C types: single bytes, two little-endian 32-bit words
and two fixed arrays, so a packet is always 255 bytes of memory (`length_bytes`).
-/

namespace Samwise

open LittleEndian Memory

/-! ## Layout constants (`packet.h`) -/

/-- `TC_SHA256_DIGEST_SIZE`. -/
def tcSha256DigestSize : Nat := 32

/-- `PACKET_DATA_SIZE`, the capacity of the `data` array. -/
def packetDataSize : Nat := 255 - 1 * 5 - 4 * 2 - tcSha256DigestSize

/-- `PACKET_SIZE`, `sizeof(packet_t)`. -/
def packetSize : Nat := 5 + packetDataSize + 4 + 4 + tcSha256DigestSize

/-- `PACKET_HEADER_SIZE`, `offsetof(packet_t, data)`. -/
def packetHeaderSize : Nat := 5

/-- `PACKET_FOOTER_SIZE`. -/
def packetFooterSize : Nat := packetSize - packetHeaderSize - packetDataSize

/-- `PACKET_HMAC_SIZE`. -/
def packetHmacSize : Nat := tcSha256DigestSize

/-- `PACKET_MIN_SIZE`. -/
def packetMinSize : Nat := packetHeaderSize + packetFooterSize

/-- `COMMAND_MNEMONIC_SIZE`. -/
def commandMnemonicSize : Nat := 1

@[simp] theorem tcSha256DigestSize_eq : tcSha256DigestSize = 32 := rfl
@[simp] theorem packetDataSize_eq : packetDataSize = 210 := rfl
@[simp] theorem packetSize_eq : packetSize = 255 := rfl
@[simp] theorem packetHeaderSize_eq : packetHeaderSize = 5 := rfl
@[simp] theorem packetFooterSize_eq : packetFooterSize = 40 := rfl
@[simp] theorem packetHmacSize_eq : packetHmacSize = 32 := rfl
@[simp] theorem packetMinSize_eq : packetMinSize = 45 := rfl

/-- An HMAC-SHA256 tag. -/
abbrev Digest := Vector UInt8 32

/-- `packet_t`. `len` counts the bytes of `data` in use, without the header; `data` has
`packetDataSize` bytes. -/
structure Packet where
  dst : UInt8
  src : UInt8
  flags : UInt8
  seq : UInt8
  len : UInt8
  data : Vector UInt8 210
  bootCount : UInt32
  msgId : UInt32
  hmac : Digest
deriving DecidableEq

/-- `packet_t p = {0}`. -/
def Packet.zero : Packet where
  dst := 0
  src := 0
  flags := 0
  seq := 0
  len := 0
  data := Vector.replicate 210 0
  bootCount := 0
  msgId := 0
  hmac := Vector.replicate 32 0

/-- The five header bytes. -/
def Packet.header (p : Packet) : List UInt8 := [p.dst, p.src, p.flags, p.seq, p.len]

/-- `data[0..len)`, the payload bytes in use. -/
def Packet.payload (p : Packet) : List UInt8 := p.data.toList.take p.len.toNat

/-- `boot_count` and `msg_id` as they lie in memory. -/
def Packet.counters (p : Packet) : List UInt8 := le32 p.bootCount ++ le32 p.msgId

/-- The struct as it lies in memory: `__attribute__((packed))`, so no padding. -/
def Packet.bytes (p : Packet) : List UInt8 :=
  p.header ++ p.data.toList ++ p.counters ++ p.hmac.toList

@[simp] theorem Packet.length_header (p : Packet) : p.header.length = 5 := rfl

@[simp] theorem Packet.length_counters (p : Packet) : p.counters.length = 8 := by
  simp [Packet.counters]

theorem Packet.length_payload (p : Packet) (h : p.len.toNat ≤ packetDataSize) :
    p.payload.length = p.len.toNat := by
  rw [packetDataSize_eq] at h
  simp [Packet.payload, h]

/-- The static assertion of `packet.c`: a packet is 255 bytes. -/
theorem Packet.length_bytes (p : Packet) : p.bytes.length = packetSize := by
  simp [Packet.bytes]

/-! ## Encoding -/

/-- `encode_packet`: the number of bytes written, `0` on error, and the buffer afterwards.
`bufsize` is the length of `buf`. The two `__builtin_add_overflow` tests of the source
cannot fire: the sums are at most 255. -/
def encodePacket (p : Packet) (buf : List UInt8) (enableHmac : Bool) : Nat × List UInt8 :=
  if p.len.toNat > packetDataSize then (0, buf)
  else
    let totalSize :=
      packetHeaderSize + p.len.toNat + (if enableHmac then packetFooterSize else 0)
    if buf.length < totalSize then (0, buf)
    else
      let written := p.header ++ p.payload
        ++ (if enableHmac then p.counters ++ p.hmac.toList else [])
      (written.length, written ++ buf.drop written.length)

/-! ## Parsing -/

/-- `buf[i]`. -/
def byteAt (buf : List UInt8) (i : Nat) : UInt8 := buf.getD i 0

/-- The header fields `parse_packet` stores before any length check. -/
def parseHeader (buf : List UInt8) (p : Packet) : Packet :=
  { p with
    dst := byteAt buf 0
    src := byteAt buf 1
    flags := byteAt buf 2
    seq := byteAt buf 3
    len := byteAt buf 4 }

/-- The fields behind the header, copied once the sizes agree. `data` keeps what it held
behind the copied bytes. -/
def parseBody (buf : List UInt8) (p : Packet) : Packet :=
  let afterData := packetHeaderSize + p.len.toNat
  { p with
    data := copyInto p.data ((buf.drop packetHeaderSize).take p.len.toNat)
    bootCount := ofLe32 (buf.drop afterData)
    msgId := ofLe32 (buf.drop (afterData + 4))
    hmac := copyInto p.hmac ((buf.drop (afterData + 8)).take packetHmacSize) }

/-- `parse_packet`: the first `n` bytes of `buf` into `*p`. Returns whether it succeeded and
`*p` afterwards; the header fields are stored even when a later check fails. -/
def parsePacket (buf : List UInt8) (n : Nat) (p : Packet) : Bool × Packet :=
  if n < packetMinSize then (false, p)
  else
    let p := parseHeader buf p
    if p.len.toNat > packetDataSize then (false, p)
    else if n ≠ packetHeaderSize + p.len.toNat + packetFooterSize then (false, p)
    else (true, parseBody buf p)

/-- **When `parse_packet` succeeds.** The sizes agree, and the result is header and body of
the buffer. -/
theorem parsePacket_true_iff (buf : List UInt8) (n : Nat) (p q : Packet) :
    parsePacket buf n p = (true, q) ↔
      (byteAt buf 4).toNat ≤ packetDataSize ∧
      n = packetMinSize + (byteAt buf 4).toNat ∧
      q = parseBody buf (parseHeader buf p) := by
  have hlen : (parseHeader buf p).len = byteAt buf 4 := rfl
  unfold parsePacket
  simp only [hlen, packetMinSize_eq, packetHeaderSize_eq, packetFooterSize_eq]
  constructor
  · intro h
    split at h
    · simp at h
    · split at h
      · simp at h
      · split at h
        · simp at h
        · refine ⟨by omega, by omega, ?_⟩
          exact (Prod.mk.inj h).2.symm
  · rintro ⟨hle, hn, rfl⟩
    rw [if_neg (by omega), if_neg (by omega), if_neg (by omega)]

/-- A parsed packet never claims more payload than its array holds. -/
theorem parsePacket_len_le {buf : List UInt8} {n : Nat} {p q : Packet}
    (h : parsePacket buf n p = (true, q)) : q.len.toNat ≤ packetDataSize := by
  obtain ⟨hle, _, rfl⟩ := (parsePacket_true_iff buf n p q).mp h
  exact hle

/-! ## Parsing what was laid out

The frame of a packet is its header, payload, counters and tag, one after the other. It is
what `encodePacket` writes with `enable_hmac`, and what the ground station sends. -/

/-- The bytes of a packet on the air. -/
def Packet.frame (p : Packet) : List UInt8 :=
  p.header ++ p.payload ++ p.counters ++ p.hmac.toList

theorem Packet.length_frame (p : Packet) (h : p.len.toNat ≤ packetDataSize) :
    p.frame.length = packetMinSize + p.len.toNat := by
  simp [Packet.frame, p.length_payload h]
  omega

/-- **Round trip.** Parsing a frame, with whatever follows it in the buffer, succeeds and
gives back every field; the payload array holds the payload and, behind it, what `*p` held
before. -/
theorem parsePacket_frame (p old : Packet) (rest : List UInt8)
    (h : p.len.toNat ≤ packetDataSize) :
    parsePacket (p.frame ++ rest) (packetMinSize + p.len.toNat) old =
      (true, { p with data := copyInto old.data p.payload }) := by
  have hpay : p.payload.length = p.len.toNat := p.length_payload h
  set buf := p.frame ++ rest with hbuf
  have hshape : buf = p.header ++ (p.payload ++ (le32 p.bootCount ++
      (le32 p.msgId ++ (p.hmac.toList ++ rest)))) := by
    simp [hbuf, Packet.frame, Packet.counters, List.append_assoc]
  have h4 : byteAt buf 4 = p.len := by rw [hshape]; rfl
  -- what lies behind the header, behind the payload and behind each counter
  have hdrop5 : buf.drop 5 = p.payload ++ (le32 p.bootCount ++
      (le32 p.msgId ++ (p.hmac.toList ++ rest))) := by rw [hshape]; rfl
  have hdropBoot : buf.drop (5 + p.len.toNat) = le32 p.bootCount ++
      (le32 p.msgId ++ (p.hmac.toList ++ rest)) := by
    rw [← List.drop_drop, hdrop5, ← hpay, List.drop_left]
  have hdropMsg : buf.drop (5 + p.len.toNat + 4) =
      le32 p.msgId ++ (p.hmac.toList ++ rest) := by
    rw [← List.drop_drop, hdropBoot, ← length_le32 p.bootCount, List.drop_left]
  have hdropHmac : buf.drop (5 + p.len.toNat + 8) = p.hmac.toList ++ rest := by
    rw [show 5 + p.len.toNat + 8 = 5 + p.len.toNat + 4 + 4 from rfl, ← List.drop_drop, hdropMsg,
      ← length_le32 p.msgId, List.drop_left]
  have hhmac : copyInto old.hmac ((buf.drop (5 + p.len.toNat + 8)).take packetHmacSize)
      = p.hmac := by
    have htake : (buf.drop (5 + p.len.toNat + 8)).take packetHmacSize = p.hmac.toList := by
      rw [hdropHmac]
      exact List.take_left' (by simp)
    apply Vector.toList_inj.mp
    rw [htake, toList_copyInto _ (by simp)]
    simp
  rw [parsePacket_true_iff, h4]
  refine ⟨h, rfl, ?_⟩
  have hheader : parseHeader buf old =
      { old with dst := p.dst, src := p.src, flags := p.flags, seq := p.seq, len := p.len } := by
    rw [hshape]; rfl
  have hdata : (buf.drop 5).take p.len.toNat = p.payload := by
    rw [hdrop5, ← hpay, List.take_left]
  rw [hheader, parseBody]
  simp only [packetHeaderSize_eq, hdata, hdropBoot, hdropMsg, hhmac, ofLe32_le32_append]

end Samwise
