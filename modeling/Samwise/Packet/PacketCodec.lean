import Samwise.Lib.Buffer
import Samwise.Packet.Packet

/-!
# Samwise — the packet codec, access by access

`encode_packet` and `parse_packet` of `src/tasks/radio/radio_task.c` statement by statement, as
the C code touches memory: an `offset` that moves on, a `memcpy` per field, and a size computed
with `__builtin_add_overflow`. The pointers are not NULL. Every index is checked against the
size the function was given and against the arrays of `packet_t`; `none` is an access outside.
Neither function makes one (`encodePacketAt_eq`, `parsePacketAt_eq`), so both are the functions
of `Packet`.
-/

namespace Samwise

open LittleEndian Memory Buffer

/-- `__builtin_add_overflow` on `size_t`: `none` if the sum does not fit. -/
def addOverflow (a b : Nat) : Option Nat := if a + b < 2 ^ 32 then some (a + b) else none

/-! ## The two functions -/

/-- `total_size` of `encode_packet`. -/
def totalSize (len : UInt8) (enableHmac : Bool) : Option Nat :=
  (addOverflow packetHeaderSize len.toNat).bind fun size =>
    if enableHmac then addOverflow size packetFooterSize else some size

/-- The statements of `encode_packet` behind its checks. -/
def encodeFields (p : Packet) (buf : List UInt8) (enableHmac : Bool) :
    Option (Cursor UInt8) := do
  let out : Cursor UInt8 := ⟨buf, 0⟩
  let out ← out.put p.dst
  let out ← out.put p.src
  let out ← out.put p.flags
  let out ← out.put p.seq
  let out ← out.put p.len
  let out ← out.putAll (← slice p.data.toList 0 p.len.toNat)
  if enableHmac then
    let out ← out.putAll (le32 p.bootCount)
    let out ← out.putAll (le32 p.msgId)
    out.putAll (← slice p.hmac.toList 0 packetHmacSize)
  else some out

/-- `encode_packet`; `buf` are the `bufsize` bytes it may write to. -/
def encodePacketAt (p : Packet) (buf : List UInt8) (enableHmac : Bool) :
    Option (Nat × List UInt8) :=
  if p.len.toNat > packetDataSize then some (0, buf)
  else
    match totalSize p.len enableHmac with
    | none => some (0, buf)
    | some total =>
      if buf.length < total then some (0, buf)
      else (encodeFields p buf enableHmac).map fun out => (out.offset, out.buf)

/-- `total_required_size` of `parse_packet`. -/
def totalRequiredSize (len : UInt8) : Option Nat := totalSize len true

/-- The header fields of `parse_packet`, out of the bytes it was given. -/
def parseHeaderAt (buf : List UInt8) (p : Packet) : Option Packet := do
  let dst ← load buf 0
  let src ← load buf 1
  let flags ← load buf 2
  let seq ← load buf 3
  let len ← load buf 4
  return { p with dst, src, flags, seq, len }

/-- The copies of `parse_packet` behind its checks. -/
def parseBodyAt (buf : List UInt8) (p : Packet) : Option Packet := do
  let offset := packetHeaderSize
  let data ← storeArray p.data (← slice buf offset p.len.toNat)
  let offset := offset + p.len.toNat
  let bootCount ← slice buf offset 4
  let offset := offset + 4
  let msgId ← slice buf offset 4
  let offset := offset + 4
  let hmac ← storeArray p.hmac (← slice buf offset packetHmacSize)
  return { p with data, bootCount := ofLe32 bootCount, msgId := ofLe32 msgId, hmac }

/-- `parse_packet`: the first `n` bytes of `buf` are all it may read. -/
def parsePacketAt (buf : List UInt8) (n : Nat) (p : Packet) : Option (Bool × Packet) :=
  if n < packetMinSize then some (false, p)
  else
    (parseHeaderAt (buf.take n) p).bind fun p =>
      if p.len.toNat > packetDataSize then some (false, p)
      else
        match totalRequiredSize p.len with
        | none => some (false, p)
        | some total =>
          if n ≠ total then some (false, p)
          else (parseBodyAt (buf.take n) p).map fun p => (true, p)

/-! ## No access outside -/

/-- The sums fit a `size_t` by far: a length is a byte. -/
theorem totalSize_eq (len : UInt8) (enableHmac : Bool) :
    totalSize len enableHmac =
      some (packetHeaderSize + len.toNat + if enableHmac then packetFooterSize else 0) := by
  have hlen : len.toNat < 256 := len.toNat_lt
  have hheader : addOverflow packetHeaderSize len.toNat = some (packetHeaderSize + len.toNat) := by
    rw [addOverflow, packetHeaderSize_eq, if_pos (by omega)]
  rw [totalSize, hheader, Option.bind_some]
  cases enableHmac with
  | false => rfl
  | true =>
    rw [if_pos rfl, if_pos rfl, addOverflow, packetHeaderSize_eq, packetFooterSize_eq,
      if_pos (by omega)]

/-- What `encode_packet` lays out. -/
def Packet.encoding (p : Packet) (enableHmac : Bool) : List UInt8 :=
  p.header ++ p.payload ++ if enableHmac then p.counters ++ p.hmac.toList else []

theorem Packet.length_encoding (p : Packet) (enableHmac : Bool)
    (h : p.len.toNat ≤ packetDataSize) :
    (p.encoding enableHmac).length =
      packetHeaderSize + p.len.toNat + if enableHmac then packetFooterSize else 0 := by
  have hpayload := p.length_payload h
  cases enableHmac with
  | false => simp [Packet.encoding, hpayload]
  | true =>
    simp [Packet.encoding, hpayload]
    omega

theorem encodeFields_eq {p : Packet} {buf : List UInt8} {enableHmac : Bool}
    (hlen : p.len.toNat ≤ packetDataSize) (hroom : (p.encoding enableHmac).length ≤ buf.length) :
    encodeFields p buf enableHmac = some (Cursor.after (p.encoding enableHmac) buf) := by
  have hpayload : slice p.data.toList 0 p.len.toNat = some p.payload := by
    rw [packetDataSize_eq] at hlen
    rw [slice_eq_some (by simpa using hlen)]
    rfl
  have hhmac : slice p.hmac.toList 0 packetHmacSize = some p.hmac.toList := by
    have hall := slice_all p.hmac.toList
    rwa [Vector.length_toList] at hall
  have hsize := p.length_encoding enableHmac hlen
  have hdata := p.length_payload hlen
  rw [hsize, packetHeaderSize_eq] at hroom
  unfold encodeFields
  simp only [Option.bind_eq_bind, hpayload, hhmac, Option.bind_some, Cursor.start_eq_after]
  -- the header, byte by byte, and the payload
  rw [Cursor.put_after _ (by simp; omega), Option.bind_some,
    Cursor.put_after _ (by simp; omega), Option.bind_some,
    Cursor.put_after _ (by simp; omega), Option.bind_some,
    Cursor.put_after _ (by simp; omega), Option.bind_some,
    Cursor.put_after _ (by simp; omega), Option.bind_some,
    Cursor.putAll_after (by simp [hdata]; omega), Option.bind_some]
  cases enableHmac with
  | false =>
    rw [if_neg (by decide), Packet.encoding, if_neg (by decide), List.append_nil]
    rfl
  | true =>
    rw [if_pos rfl, packetFooterSize_eq] at hroom
    rw [if_pos rfl, Cursor.putAll_after (by simp [hdata]; omega), Option.bind_some,
      Cursor.putAll_after (by simp [hdata]; omega), Option.bind_some,
      Cursor.putAll_after (by simp [hdata]; omega), Packet.encoding, if_pos rfl]
    simp only [Packet.header, Packet.counters, List.append_assoc, List.nil_append,
      List.cons_append]

/-- **`encode_packet` stays within its buffer and the struct**, whatever the packet and the
size, and computes `encodePacket`. -/
theorem encodePacketAt_eq (p : Packet) (buf : List UInt8) (enableHmac : Bool) :
    encodePacketAt p buf enableHmac = some (encodePacket p buf enableHmac) := by
  unfold encodePacketAt encodePacket
  by_cases hlen : p.len.toNat > packetDataSize
  · rw [if_pos hlen, if_pos hlen]
  · have hle : p.len.toNat ≤ packetDataSize := Nat.not_lt.mp hlen
    rw [if_neg hlen, if_neg hlen, totalSize_eq]
    by_cases hroom : buf.length
        < packetHeaderSize + p.len.toNat + if enableHmac then packetFooterSize else 0
    · simp only [if_pos hroom]
    · have hsize := p.length_encoding enableHmac hle
      simp only [if_neg hroom]
      rw [encodeFields_eq hle (by omega)]
      rfl

theorem parseHeaderAt_eq {buf : List UInt8} {n : Nat} (p : Packet) (hn : packetMinSize ≤ n)
    (hsize : n ≤ buf.length) : parseHeaderAt (buf.take n) p = some (parseHeader buf p) := by
  rw [packetMinSize_eq] at hn
  have hload : ∀ i < 5, load (buf.take n) i = some (byteAt buf i) := by
    intro i hi
    have hlt : i < buf.length := by omega
    rw [load, List.getElem?_take_of_lt (by omega), byteAt, List.getD_eq_getElem?_getD,
      List.getElem?_eq_getElem hlt]
    rfl
  unfold parseHeaderAt
  rw [hload 0 (by decide), hload 1 (by decide), hload 2 (by decide), hload 3 (by decide),
    hload 4 (by decide)]
  rfl

theorem parseBodyAt_eq {buf : List UInt8} {n : Nat} {p : Packet}
    (hlen : p.len.toNat ≤ packetDataSize) (hn : n = packetMinSize + p.len.toNat)
    (hsize : n ≤ buf.length) : parseBodyAt (buf.take n) p = some (parseBody buf p) := by
  rw [packetDataSize_eq] at hlen
  rw [packetMinSize_eq] at hn
  have hview : (buf.take n).length = n := by
    rw [List.length_take]
    omega
  -- a field that ends before `n` is the same bytes of the whole buffer
  have hslice : ∀ i k, i + k ≤ n → slice (buf.take n) i k = some ((buf.drop i).take k) := by
    intro i k hi
    rw [slice_eq_some (by omega), List.drop_take, List.take_take, Nat.min_eq_left (by omega)]
  unfold parseBodyAt parseBody
  simp only [Option.bind_eq_bind, packetHeaderSize_eq, packetHmacSize_eq]
  rw [hslice _ _ (by omega), hslice _ _ (by omega), hslice _ _ (by omega), hslice _ _ (by omega)]
  simp only [Option.bind_some]
  rw [storeArray_eq_some _ (by rw [List.length_take]; omega),
    storeArray_eq_some _ (by rw [List.length_take]; omega)]
  simp only [Option.bind_some, ofLe32_take, Nat.add_assoc]
  rfl

/-- **`parse_packet` stays within the `n` bytes it was given and the struct**, and computes
`parsePacket`. -/
theorem parsePacketAt_eq {buf : List UInt8} {n : Nat} (p : Packet) (hsize : n ≤ buf.length) :
    parsePacketAt buf n p = some (parsePacket buf n p) := by
  unfold parsePacketAt parsePacket
  by_cases hmin : n < packetMinSize
  · rw [if_pos hmin, if_pos hmin]
  · rw [if_neg hmin, if_neg hmin, parseHeaderAt_eq p (Nat.not_lt.mp hmin) hsize, Option.bind_some]
    dsimp only
    by_cases hlen : (parseHeader buf p).len.toNat > packetDataSize
    · rw [if_pos hlen, if_pos hlen]
    · rw [if_neg hlen, if_neg hlen, totalRequiredSize, totalSize_eq, if_pos rfl]
      dsimp only
      by_cases hn : n ≠ packetHeaderSize + (parseHeader buf p).len.toNat + packetFooterSize
      · rw [if_pos hn, if_pos hn]
      · have hframe : n = packetMinSize + (parseHeader buf p).len.toNat := by
          rw [packetHeaderSize_eq, packetFooterSize_eq] at hn
          rw [packetMinSize_eq]
          omega
        rw [if_neg hn, if_neg hn, parseBodyAt_eq (Nat.not_lt.mp hlen) hframe hsize]
        rfl

/-! ## Both ways -/

theorem take_eq_map_byteAt {buf : List UInt8} {k : Nat} (h : k ≤ buf.length) :
    buf.take k = (List.range k).map (byteAt buf) := by
  apply List.ext_getElem
  · rw [List.length_take, List.length_map, List.length_range]
    omega
  · intro i hi _
    have hlt : i < buf.length := by
      rw [List.length_take] at hi
      omega
    rw [List.getElem_take, List.getElem_map, List.getElem_range, byteAt,
      List.getD_eq_getElem?_getD, List.getElem?_eq_getElem hlt]
    rfl

theorem toList_copyInto_of_length {n : Nat} (dst : Vector UInt8 n) {bs : List UInt8}
    (h : bs.length = n) : (copyInto dst bs).toList = bs := by
  rw [toList_copyInto dst (Nat.le_of_eq h), h, List.drop_eq_nil_of_le (by simp), List.append_nil]

theorem take_copyInto {n : Nat} (dst : Vector UInt8 n) (bs : List UInt8) (h : bs.length ≤ n) :
    (copyInto dst bs).toList.take bs.length = bs := by
  rw [toList_copyInto dst h, List.take_left]

/-- **Parsing loses nothing**: the frame of a parsed packet is the bytes it was parsed from. -/
theorem frame_of_parsePacket {buf : List UInt8} {n : Nat} {old p : Packet} (hsize : n ≤ buf.length)
    (h : parsePacket buf n old = (true, p)) : p.frame = buf.take n := by
  obtain ⟨hlen, hn, rfl⟩ := (parsePacket_true_iff buf n old p).mp h
  rw [packetDataSize_eq] at hlen
  rw [packetMinSize_eq] at hn
  set len := (byteAt buf 4).toNat with hlendef
  have hdrop : ∀ i, (buf.drop i).length = buf.length - i := fun i => List.length_drop
  have hheader : (parseBody buf (parseHeader buf old)).header = buf.take 5 := by
    rw [take_eq_map_byteAt (by omega)]
    rfl
  have hpayload : (parseBody buf (parseHeader buf old)).payload = (buf.drop 5).take len := by
    have hlength : ((buf.drop 5).take len).length = len := by
      rw [List.length_take, hdrop]
      omega
    have hfront := take_copyInto old.data ((buf.drop 5).take len) (by omega)
    rwa [hlength] at hfront
  have hcounters : (parseBody buf (parseHeader buf old)).counters
      = (buf.drop (5 + len)).take 8 := by
    show le32 (ofLe32 (buf.drop (5 + len))) ++ le32 (ofLe32 (buf.drop (5 + len + 4))) = _
    rw [le32_ofLe32 (by rw [hdrop]; omega), le32_ofLe32 (by rw [hdrop]; omega),
      List.take_add (i := 4) (j := 4), List.drop_drop]
  have hhmac : (parseBody buf (parseHeader buf old)).hmac.toList
      = (buf.drop (5 + len + 8)).take 32 := by
    have hlength : ((buf.drop (5 + len + 8)).take 32).length = 32 := by
      rw [List.length_take, hdrop]
      omega
    exact toList_copyInto_of_length old.hmac hlength
  have hall : 5 + len + 8 + 32 = n := by omega
  rw [Packet.frame, hheader, hpayload, hcounters, hhmac, ← List.take_add, ← List.take_add,
    ← List.take_add, hall]

/-- Encoding with `enable_hmac`. -/
theorem encodePacket_frame {p : Packet} {buf : List UInt8} (hlen : p.len.toNat ≤ packetDataSize)
    (hroom : packetMinSize + p.len.toNat ≤ buf.length) :
    encodePacket p buf true =
      (packetMinSize + p.len.toNat, p.frame ++ buf.drop (packetMinSize + p.len.toNat)) := by
  have hlength := p.length_frame hlen
  have hwritten : p.header ++ p.payload ++ (p.counters ++ p.hmac.toList) = p.frame := by
    rw [Packet.frame, List.append_assoc (p.header ++ p.payload)]
  have hsmall : ¬buf.length < packetHeaderSize + p.len.toNat + packetFooterSize := by
    rw [packetHeaderSize_eq, packetFooterSize_eq]
    rw [packetMinSize_eq] at hroom
    omega
  rw [encodePacket, if_neg (Nat.not_lt.mpr hlen)]
  simp only [if_true, if_neg hsmall, hwritten, hlength]

/-- **The flight codec.** What is encoded with `enable_hmac` is parsed back field by field, what
is parsed is encoded back byte by byte, a buffer is parsed if and only if its size is the one its
length byte asks for, and nothing outside of the given sizes and the struct is ever accessed. -/
theorem packet_codec (p old : Packet) (buf : List UInt8) (enableHmac : Bool) :
    (p.len.toNat ≤ packetDataSize → packetMinSize + p.len.toNat ≤ buf.length →
      ∃ out q, encodePacketAt p buf true = some (packetMinSize + p.len.toNat, out)
        ∧ parsePacketAt out (packetMinSize + p.len.toNat) old = some (true, q)
        ∧ q.header = p.header ∧ q.payload = p.payload
        ∧ q.bootCount = p.bootCount ∧ q.msgId = p.msgId ∧ q.hmac = p.hmac)
    ∧ (∀ n ≤ buf.length,
        ((∃ q, parsePacketAt buf n old = some (true, q)) ↔
          n = packetMinSize + (byteAt buf 4).toNat ∧ (byteAt buf 4).toNat ≤ packetDataSize)
        ∧ ∀ q out, parsePacketAt buf n old = some (true, q) → n ≤ out.length →
            encodePacketAt q out true = some (n, buf.take n ++ out.drop n))
    ∧ (∃ result, encodePacketAt p buf enableHmac = some result)
    ∧ ∀ n ≤ buf.length, ∃ result, parsePacketAt buf n old = some result := by
  refine ⟨?_, ?_, ⟨_, encodePacketAt_eq p buf enableHmac⟩,
    fun n hsize => ⟨_, parsePacketAt_eq old hsize⟩⟩
  · intro hlen hroom
    have hlength := p.length_frame hlen
    refine ⟨p.frame ++ buf.drop (packetMinSize + p.len.toNat),
      { p with data := copyInto old.data p.payload }, ?_, ?_, ?_, ?_, rfl, rfl, rfl⟩
    · rw [encodePacketAt_eq]
      exact congrArg some (encodePacket_frame hlen hroom)
    · have hout : packetMinSize + p.len.toNat
          ≤ (p.frame ++ buf.drop (packetMinSize + p.len.toNat)).length := by
        rw [List.length_append, hlength]
        exact Nat.le_add_right _ _
      rw [parsePacketAt_eq old hout, parsePacket_frame _ _ _ hlen]
    · simp only [Packet.header]
    · have hdata := p.length_payload hlen
      rw [packetDataSize_eq] at hlen
      have hfront := take_copyInto old.data p.payload (by omega)
      rwa [hdata] at hfront
  · intro n hsize
    rw [parsePacketAt_eq old hsize]
    constructor
    · constructor
      · rintro ⟨q, hq⟩
        obtain ⟨hlen, hn, -⟩ := (parsePacket_true_iff buf n old q).mp (Option.some.inj hq)
        exact ⟨hn, hlen⟩
      · rintro ⟨hn, hlen⟩
        exact ⟨_, congrArg some ((parsePacket_true_iff buf n old _).mpr ⟨hlen, hn, rfl⟩)⟩
    · intro q out hq hroom
      have hparse : parsePacket buf n old = (true, q) := Option.some.inj hq
      have hlen := parsePacket_len_le hparse
      have hn : n = packetMinSize + q.len.toNat := by
        obtain ⟨_, hn, rfl⟩ := (parsePacket_true_iff buf n old q).mp hparse
        exact hn
      rw [encodePacketAt_eq, encodePacket_frame hlen (by omega),
        frame_of_parsePacket hsize hparse, ← hn]

/-- A packet with two payload bytes in a buffer with one byte to spare. -/
theorem packet_codec_two_bytes :
    ∃ out q, encodePacketAt { Packet.zero with len := 2 } (List.replicate 48 0xaa) true
        = some (47, out)
      ∧ parsePacketAt out 47 Packet.zero = some (true, q) ∧ q.payload = [0, 0] := by
  have hround := (packet_codec { Packet.zero with len := 2 } Packet.zero
    (List.replicate 48 0xaa) true).1 (by decide) (by decide)
  obtain ⟨out, q, hencode, hparse, _, hpayload, _⟩ := hround
  exact ⟨out, q, hencode, hparse, hpayload⟩

end Samwise
