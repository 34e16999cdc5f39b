import Samwise.Ssdv.Rs8Decoder
import Samwise.Tinycrypt.Sha256

/-!
# Samwise — picture packets

`payload/ssdv/ssdv.c`, from the packet's bytes on: how the encoder seals a packet with a checksum and
with the parity of the Reed–Solomon code, and how the decoder tests bytes for being a packet, first as
they are and then after correction. The packets are of the sizes that `ssdv_enc_init` admits. A packet
survives 16 wrong bytes, unless what has come in has a checksum that fits it.
-/

namespace Samwise.Ssdv

/-- `SSDV_PKT_SIZE`. -/
def pktSizeMax : Nat := 256

/-- `SSDV_PKT_SIZE_HEADER`. -/
def pktSizeHeader : Nat := 15

/-- `SSDV_PKT_SIZE_CRC`. -/
def pktSizeCrc : Nat := 4

/-- `SSDV_PKT_SIZE_RSCODES`. -/
def pktSizeRscodes : Nat := 32

/-- `SSDV_TYPE_NORMAL` and `SSDV_TYPE_NOFEC`. -/
inductive PacketType where
  | normal
  | nofec
deriving DecidableEq

def PacketType.value : PacketType → UInt8
  | .normal => 0
  | .nofec => 1

/-- `crc32`, one byte. -/
def crc32Byte (crc : UInt32) (d : UInt8) : UInt32 :=
  let x := (List.range 8).foldl
    (fun (x : UInt32) _ => if x &&& 1 ≠ 0 then (x >>> 1) ^^^ 0xEDB88320 else x >>> 1)
    ((crc ^^^ d.toUInt32) &&& 0xFF)
  (crc >>> 8) ^^^ x

/-- `crc32`. -/
def crc32 (data : List UInt8) : UInt32 := data.foldl crc32Byte 0xFFFFFFFF ^^^ 0xFFFFFFFF

/-- `pkt_size_payload`. -/
def payloadSize (type : PacketType) (pktSize : Nat) : Nat :=
  match type with
  | .normal => pktSize - pktSizeHeader - pktSizeCrc - pktSizeRscodes
  | .nofec => pktSize - pktSizeHeader - pktSizeCrc

/-- `pkt_size_crcdata`. -/
def crcdataSize (type : PacketType) (pktSize : Nat) : Nat :=
  pktSizeHeader + payloadSize type pktSize - 1

/-! ## The encoder -/

/-- A checksum, as it is stored. -/
def crcBytes (x : UInt32) : List UInt8 :=
  [(x >>> 24).toUInt8, (x >>> 16).toUInt8, (x >>> 8).toUInt8, x.toUInt8]

/-- The end of `ssdv_enc_get_packet` for a normal packet: the header and the payload get their checksum
and their parity. -/
def sealPacket (pktSize : Nat) (out : List UInt8) : List UInt8 :=
  let out := out ++ crcBytes (crc32 ((out.drop 1).take (crcdataSize .normal pktSize)))
  out ++ encodeRs8 (out.drop 1) (pktSizeMax - pktSize)

/-! ## The decoder -/

/-- `ssdv_packet_info_t`, less the text of the callsign. -/
structure PacketInfo where
  type : UInt8
  callsign : UInt32
  imageId : UInt8
  packetId : Nat
  width : Nat
  height : Nat
  eoi : UInt8
  quality : UInt8
  mcuMode : UInt8
  mcuOffset : UInt8
  mcuId : Nat
  mcuCount : Nat
deriving DecidableEq

/-- Four bytes of a packet, the highest first. -/
def wordAt (packet : List UInt8) (i : Nat) : UInt32 :=
  ((packet.getD i 0).toUInt32 <<< 24) ||| ((packet.getD (i + 1) 0).toUInt32 <<< 16) |||
    ((packet.getD (i + 2) 0).toUInt32 <<< 8) ||| (packet.getD (i + 3) 0).toUInt32

/-- `mcu_count`, which has 16 bits, from the number of blocks of 16 pixels by 16. -/
def mcuCountOf (mode : UInt8) (count : Nat) : Nat :=
  if mode = 1 ∨ mode = 2 then count * 2 % 65536
  else if mode = 3 then count * 4 % 65536
  else count

/-- `ssdv_dec_header`. -/
def decHeader (packet : List UInt8) : PacketInfo :=
  let byte (i : Nat) : UInt8 := packet.getD i 0
  { type := byte 1 - 0x66
    callsign := wordAt packet 2
    imageId := byte 6
    packetId := (byte 7).toNat * 256 + (byte 8).toNat
    width := (byte 9).toNat * 16
    height := (byte 10).toNat * 16
    eoi := (byte 11 >>> 2) &&& 1
    quality := ((byte 11 >>> 3) &&& 7) ^^^ 4
    mcuMode := byte 11 &&& 0x03
    mcuOffset := byte 12
    mcuId := (byte 13).toNat * 256 + (byte 14).toNat
    mcuCount := mcuCountOf (byte 11 &&& 0x03) ((byte 9).toNat * (byte 10).toNat) }

/-- The sanity checks of `ssdv_dec_is_packet`. -/
def Sane (p : PacketInfo) (type : PacketType) (pktSize : Nat) : Prop :=
  p.type = type.value ∧ p.width ≠ 0 ∧ p.height ≠ 0 ∧
    (p.mcuId ≠ 0xFFFF → p.mcuId < p.mcuCount ∧ p.mcuOffset.toNat < payloadSize type pktSize)

instance (p : PacketInfo) (type : PacketType) (pktSize : Nat) : Decidable (Sane p type pktSize) :=
  inferInstanceAs (Decidable (_ ∧ _ ∧ _ ∧ (_ → _ ∧ _)))

/-- The checksum of a packet of a type. -/
def ChecksumFits (pkt : List UInt8) (type : PacketType) (pktSize : Nat) : Prop :=
  crc32 ((pkt.drop 1).take (crcdataSize type pktSize)) = wordAt pkt (1 + crcdataSize type pktSize)

instance (pkt : List UInt8) (type : PacketType) (pktSize : Nat) :
    Decidable (ChecksumFits pkt type pktSize) := inferInstanceAs (Decidable (_ = _))

/-- The type that the bytes have as they are. -/
def plainType (pkt : List UInt8) (pktSize : Nat) : Option PacketType :=
  if pkt.getD 1 0 = 0x66 + PacketType.value .nofec then
    if ChecksumFits pkt .nofec pktSize then some .nofec else none
  else if pkt.getD 1 0 = 0x66 + PacketType.value .normal then
    if ChecksumFits pkt .normal pktSize then some .normal else none
  else none

/-- What `ssdv_dec_is_packet` leaves: whether it returns 0, what it writes to `errors`, the bytes. -/
structure PacketTest where
  accepted : Bool
  errors : Option Nat
  packet : List UInt8
deriving DecidableEq

/-- The end of `ssdv_dec_is_packet`. -/
def checkSanity (packet pkt : List UInt8) (errors : Option Nat) (type : PacketType) (pktSize : Nat) :
    PacketTest :=
  if Sane (decHeader pkt) type pktSize then ⟨true, errors, pkt⟩ else ⟨false, errors, packet⟩

/-- `ssdv_dec_is_packet`. -/
def decIsPacket (packet : List UInt8) (pktSize : Nat) : PacketTest :=
  -- testing is destructive, and works on a copy
  let pkt := packet.set 0 0x55
  match plainType pkt pktSize with
  | some type => checkSanity packet pkt (some 0) type pktSize
  | none =>
    let errors :=
      if pkt.getD 1 0 = 0x66 + PacketType.value .nofec ∨ pkt.getD 1 0 = 0x66 + PacketType.value .normal
      then some 0 else none
    match decodeRs8 ((pkt.set 1 (0x66 + PacketType.value .normal)).drop 1) []
      ((pktSizeMax : Int) - (pktSize : Int)) with
    | (none, _) => ⟨false, errors, packet⟩
    | (some locations, data) =>
      let pkt := pkt.take 1 ++ data
      if ChecksumFits pkt .normal pktSize then
        checkSanity packet pkt (some locations.length) .normal pktSize
      else ⟨false, some locations.length, packet⟩

/-! ## What is sealed is found again -/

theorem word_crcBytes (x : UInt32) :
    ((x >>> 24).toUInt8.toUInt32 <<< 24) ||| ((x >>> 16).toUInt8.toUInt32 <<< 16) |||
      ((x >>> 8).toUInt8.toUInt32 <<< 8) ||| x.toUInt8.toUInt32 = x := by
  have hlt := x.toNat_lt
  rw [Tinycrypt.or_bytes]
  apply UInt32.toNat_inj.mp
  rw [Sha256.ofBytes, UInt32.toNat_ofNat']
  simp only [List.reverse_cons, List.reverse_nil, List.nil_append, List.cons_append,
    LittleEndian.decode, UInt32.toNat_toUInt8, UInt32.toNat_shiftRight]
  show _ = x.toNat
  have hshift (k : Nat) : x.toNat >>> k = x.toNat / 2 ^ k := Nat.shiftRight_eq_div_pow _ _
  rw [show (24 : UInt32).toNat % 32 = 24 from rfl, show (16 : UInt32).toNat % 32 = 16 from rfl,
    show (8 : UInt32).toNat % 32 = 8 from rfl, hshift, hshift, hshift]
  omega

theorem wordAt_crcBytes (l rest : List UInt8) (x : UInt32) :
    wordAt (l ++ (crcBytes x ++ rest)) l.length = x := by
  have hget (k : Nat) : (l ++ (crcBytes x ++ rest)).getD (l.length + k) 0 =
      (crcBytes x ++ rest).getD k 0 := by
    rw [List.getD_append_right _ _ _ _ (Nat.le_add_right _ k), Nat.add_sub_cancel_left]
  have hzero := hget 0
  rw [Nat.add_zero] at hzero
  rw [wordAt, hzero, hget, hget, hget]
  exact word_crcBytes x

theorem getD_of_take_eq {a b : List UInt8} {n i : Nat} (h : a.take n = b.take n) (hi : i < n) :
    a.getD i 0 = b.getD i 0 := by
  rw [List.getD_eq_getElem?_getD, List.getD_eq_getElem?_getD, ← List.getElem?_take_of_lt hi, h,
    List.getElem?_take_of_lt hi]

/-- The header is in the first 15 bytes. -/
theorem decHeader_congr {a b : List UInt8} (h : a.take pktSizeHeader = b.take pktSizeHeader) :
    decHeader a = decHeader b := by
  have hget (i : Nat) (hi : i < pktSizeHeader) : a.getD i 0 = b.getD i 0 := getD_of_take_eq h hi
  unfold decHeader wordAt
  dsimp only
  rw [hget 1 (by decide), hget 2 (by decide), hget (2 + 1) (by decide), hget (2 + 2) (by decide),
    hget (2 + 3) (by decide), hget 6 (by decide), hget 7 (by decide), hget 8 (by decide),
    hget 9 (by decide), hget 10 (by decide), hget 11 (by decide), hget 12 (by decide),
    hget 13 (by decide), hget 14 (by decide)]

/-- The header and the payload of a normal packet, of a size that `ssdv_enc_init` admits. -/
structure Sealable (pktSize : Nat) (out : List UInt8) : Prop where
  min : 53 ≤ pktSize
  max : pktSize ≤ pktSizeMax
  length : out.length = pktSize - 36
  sync : out.getD 0 0 = 0x55
  type : out.getD 1 0 = 0x66
  sane : Sane (decHeader out) .normal pktSize

/-- The symbols of the Reed–Solomon code. -/
def coded (out : List UInt8) : List UInt8 := out.drop 1 ++ crcBytes (crc32 (out.drop 1))

/-- The bytes as they have come in have a checksum that fits them, but are not those that were sent. -/
def Undetected (pktSize : Nat) (received sent : List UInt8) : Prop :=
  plainType (received.set 0 0x55) pktSize ≠ none ∧
    (received.set 0 0x55).take (pktSize - nroots) ≠ sent.take (pktSize - nroots)

namespace Sealable

variable {pktSize : Nat} {out received : List UInt8}

theorem crcdataSize_eq (h : Sealable pktSize out) :
    crcdataSize .normal pktSize = (out.drop 1).length := by
  have hmin := h.min
  rw [List.length_drop, h.length]
  unfold crcdataSize payloadSize pktSizeHeader pktSizeCrc pktSizeRscodes
  dsimp only
  omega

theorem cons (h : Sealable pktSize out) : out = 0x55 :: out.drop 1 := by
  cases out with
  | nil =>
    have hlength := h.length
    have hmin := h.min
    rw [List.length_nil] at hlength
    omega
  | cons x rest =>
    have hsync := h.sync
    rw [List.getD_cons_zero] at hsync
    rw [hsync]
    rfl

theorem sealPacket_eq (h : Sealable pktSize out) :
    sealPacket pktSize out =
      0x55 :: (coded out ++ encodeRs8 (coded out) (pktSizeMax - pktSize)) := by
  have hcons := h.cons
  unfold sealPacket
  dsimp only
  rw [h.crcdataSize_eq, List.take_length]
  generalize out.drop 1 = rest at hcons
  subst hcons
  rfl

theorem length_coded (h : Sealable pktSize out) :
    (coded out).length = nn - nroots - (pktSizeMax - pktSize) := by
  have hmin := h.min
  have hmax := h.max
  have hlength := h.length
  unfold pktSizeMax at hmax
  rw [coded, List.length_append, List.length_drop, hlength]
  show pktSize - 36 - 1 + 4 = 255 - 32 - (256 - pktSize)
  omega

theorem checksumFits (h : Sealable pktSize out) :
    ChecksumFits (sealPacket pktSize out) .normal pktSize := by
  unfold ChecksumFits
  rw [h.sealPacket_eq, h.crcdataSize_eq, List.drop_succ_cons, List.drop_zero, coded,
    List.append_assoc, List.take_left' rfl, Nat.add_comm]
  exact (wordAt_crcBytes (0x55 :: out.drop 1) _ _).symm

theorem take_sealPacket {n : Nat} (hn : n ≤ out.length) :
    (sealPacket pktSize out).take n = out.take n := by
  unfold sealPacket
  dsimp only
  rw [List.append_assoc, List.take_append_of_le_length hn]

theorem decHeader_sealPacket (h : Sealable pktSize out) :
    decHeader (sealPacket pktSize out) = decHeader out := by
  have hlength := h.length
  have hmin := h.min
  refine decHeader_congr (take_sealPacket ?_)
  rw [hlength]
  unfold pktSizeHeader
  omega

theorem length_sealPacket (h : Sealable pktSize out) : (sealPacket pktSize out).length = pktSize := by
  have hmin := h.min
  have hmax := h.max
  have hparity : (encodeRs8 (coded out) (pktSizeMax - pktSize)).length = nroots :=
    (evalAt_encodeRs8 (coded out) _ (by decide : 0 < nroots)).1
  rw [h.sealPacket_eq, List.length_cons, List.length_append, hparity, h.length_coded]
  unfold pktSizeMax at *
  show 255 - 32 - (256 - pktSize) + 32 + 1 = pktSize
  omega

theorem getD_one (h : Sealable pktSize out) : (sealPacket pktSize out).getD 1 0 = 0x66 := by
  have hmin := h.min
  have hlength := h.length
  rw [← h.type]
  exact getD_of_take_eq (take_sealPacket (n := 2) (by omega)) (by decide)

/-- The first byte is the synchronisation, and the type is set before the correction: what is wrong in
these two is not among the errors. -/
theorem wrong_le (h : Sealable pktSize out) (hreceived : received.length = pktSize) :
    (wrong (((received.set 0 0x55).set 1 0x66).drop 1)
      (coded out ++ encodeRs8 (coded out) (pktSizeMax - pktSize))).card ≤
    ((wrong received (sealPacket pktSize out)).filter (2 ≤ ·)).card := by
  have hmin := h.min
  refine Finset.card_le_card_of_injOn (· + 1) (fun l hl => ?_) (add_left_injective 1).injOn
  have hmem := Finset.mem_filter.mp (Finset.mem_coe.mp hl)
  have hlt := Finset.mem_range.mp hmem.1
  have hne := hmem.2
  rw [List.length_drop, List.length_set, List.length_set] at hlt
  have hcode : (coded out ++ encodeRs8 (coded out) (pktSizeMax - pktSize)).getD l 0 =
      (sealPacket pktSize out).getD (l + 1) 0 := by
    rw [h.sealPacket_eq, List.getD_cons_succ]
  rw [hcode, List.getD_eq_getElem?_getD, List.getElem?_drop, Nat.add_comm] at hne
  cases l with
  | zero =>
    refine absurd ?_ hne
    rw [Nat.zero_add, List.getElem?_set_self (by rw [List.length_set]; omega), Option.getD_some,
      h.getD_one]
  | succ l =>
    rw [List.getElem?_set_ne (by omega), List.getElem?_set_ne (by omega),
      ← List.getD_eq_getElem?_getD] at hne
    have hrange : l + 1 + 1 < received.length := by omega
    exact Finset.mem_coe.mpr (Finset.mem_filter.mpr ⟨Finset.mem_filter.mpr
      ⟨Finset.mem_range.mpr hrange, hne⟩, Nat.le_add_left 2 l⟩)

end Sealable

section Test

variable {pktSize : Nat} {out received : List UInt8}

/-- Bytes that are accepted as they are. -/
theorem decIsPacket_of_plain (h : Sealable pktSize out) {type : PacketType}
    (hplain : plainType (received.set 0 0x55) pktSize = some type)
    (hsame : (received.set 0 0x55).take (pktSize - nroots) =
      (sealPacket pktSize out).take (pktSize - nroots)) :
    decIsPacket received pktSize = ⟨true, some 0, received.set 0 0x55⟩ := by
  have hmin := h.min
  have hget : (received.set 0 0x55).getD 1 0 = 0x66 := by
    rw [← h.getD_one]
    exact getD_of_take_eq hsame (by unfold nroots; omega)
  have htype : type = .normal := by
    unfold plainType at hplain
    rw [hget, if_neg (by decide), if_pos (by decide)] at hplain
    split at hplain
    · exact (Option.some.inj hplain).symm
    · cases hplain
  have hheader : decHeader (received.set 0 0x55) = decHeader out := by
    rw [← h.decHeader_sealPacket]
    have htake := congrArg (List.take pktSizeHeader) hsame
    have hle : min pktSizeHeader (pktSize - nroots) = pktSizeHeader :=
      Nat.min_eq_left (by unfold pktSizeHeader nroots; omega)
    rw [List.take_take, List.take_take, hle] at htake
    exact decHeader_congr htake
  unfold decIsPacket
  dsimp only
  rw [hplain, htype]
  dsimp only
  rw [checkSanity, hheader, if_pos h.sane]

/-- Bytes that are accepted after correction. -/
theorem decIsPacket_of_corrected (h : Sealable pktSize out) (hreceived : received.length = pktSize)
    (hwrong : 2 * ((wrong received (sealPacket pktSize out)).filter (2 ≤ ·)).card ≤ nroots)
    (hplain : plainType (received.set 0 0x55) pktSize = none) :
    ∃ errors, decIsPacket received pktSize = ⟨true, some errors, sealPacket pktSize out⟩ := by
  have hmin := h.min
  have hmax := h.max
  have hpad : pktSizeMax - pktSize ≤ 222 := by
    unfold pktSizeMax
    omega
  have hlength : (((received.set 0 0x55).set 1 0x66).drop 1).length = nn - (pktSizeMax - pktSize) := by
    rw [List.length_drop, List.length_set, List.length_set, hreceived]
    unfold pktSizeMax at hmax
    show pktSize - 1 = 255 - (256 - pktSize)
    omega
  obtain ⟨locations, hdecode, -⟩ := decodeRs8_encodeRs8 hpad h.length_coded hlength
    ((Nat.mul_le_mul_left 2 (h.wrong_le hreceived)).trans hwrong)
  have hpadInt : (pktSizeMax : Int) - (pktSize : Int) = ((pktSizeMax - pktSize : Nat) : Int) :=
    (Int.ofNat_sub hmax).symm
  have htake : (received.set 0 0x55).take 1 = [0x55] := by
    cases received with
    | nil =>
      rw [List.length_nil] at hreceived
      omega
    | cons x rest => rfl
  have hvalue : (0x66 : UInt8) + PacketType.value .normal = 0x66 := by decide
  refine ⟨locations.length, ?_⟩
  unfold decIsPacket
  dsimp only
  rw [hplain]
  dsimp only
  rw [hvalue, hpadInt, hdecode]
  dsimp only
  rw [htake, List.singleton_append, ← h.sealPacket_eq, if_pos h.checksumFits, checkSanity,
    h.decHeader_sealPacket, if_pos h.sane]

/-- **A sealed packet survives 16 wrong bytes** behind its first two, and any of these: it is accepted
with its header, its payload and its checksum, unless what has come in fits a checksum by itself. -/
theorem decIsPacket_sealPacket (h : Sealable pktSize out) (hreceived : received.length = pktSize)
    (hwrong : 2 * ((wrong received (sealPacket pktSize out)).filter (2 ≤ ·)).card ≤ nroots) :
    Undetected pktSize received (sealPacket pktSize out) ∨
      ∃ errors packet, decIsPacket received pktSize = ⟨true, some errors, packet⟩ ∧
        packet.take (pktSize - nroots) = (sealPacket pktSize out).take (pktSize - nroots) := by
  cases hplain : plainType (received.set 0 0x55) pktSize with
  | none =>
    obtain ⟨errors, htest⟩ := decIsPacket_of_corrected h hreceived hwrong hplain
    exact .inr ⟨errors, _, htest, rfl⟩
  | some type =>
    by_cases hsame : (received.set 0 0x55).take (pktSize - nroots) =
        (sealPacket pktSize out).take (pktSize - nroots)
    · exact .inr ⟨0, _, decIsPacket_of_plain h hplain hsame, hsame⟩
    · exact .inl ⟨by rw [hplain]; exact Option.some_ne_none type, hsame⟩

end Test

/-- The header of a picture of 16 pixels by 16, and a payload of two bytes. -/
def smallPacket : List UInt8 := [0x55, 0x66, 0, 0, 0, 0, 0, 0, 0, 1, 1, 0, 0, 0, 0, 0xA5, 0x5A]

theorem sealable_smallPacket : Sealable 53 smallPacket where
  min := Nat.le_refl 53
  max := by decide
  length := rfl
  sync := rfl
  type := rfl
  sane := by decide

theorem wrong_set (block : List UInt8) (i : Nat) (x : UInt8) :
    (wrong (block.set i x) block).card ≤ 1 := by
  refine (Finset.card_le_card fun l hl => ?_).trans (Finset.card_singleton i).le
  by_contra hne
  refine (Finset.mem_filter.mp hl).2 ?_
  rw [List.getD_eq_getElem?_getD, List.getD_eq_getElem?_getD,
    List.getElem?_set_ne fun h => hne (Finset.mem_singleton.mpr h.symm)]

theorem few_wrong_set (block : List UInt8) (i : Nat) (x : UInt8) :
    2 * ((wrong (block.set i x) block).filter (2 ≤ ·)).card ≤ nroots := by
  have hfew := (Finset.card_filter_le (wrong (block.set i x) block) (2 ≤ ·)).trans
    (wrong_set block i x)
  unfold nroots
  omega

theorem decIsPacket_sealPacket_one_byte :
    Undetected 53 ((sealPacket 53 smallPacket).set 9 7) (sealPacket 53 smallPacket) ∨
      ∃ errors packet,
        decIsPacket ((sealPacket 53 smallPacket).set 9 7) 53 = ⟨true, some errors, packet⟩ ∧
        packet.take (53 - nroots) = (sealPacket 53 smallPacket).take (53 - nroots) := by
  refine decIsPacket_sealPacket sealable_smallPacket ?_ (few_wrong_set _ _ _)
  rw [List.length_set, sealable_smallPacket.length_sealPacket]

end Samwise.Ssdv
