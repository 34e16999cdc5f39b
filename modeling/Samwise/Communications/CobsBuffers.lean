import Samwise.Lib.Buffer
import Samwise.Communications.Cobs

/-!
# Samwise — byte stuffing, access by access

The two loops of `src/drivers/communications/cobs.c` with their pointers: `codep` and `encode`
into the buffer of `cobs_encode`, `byte` and `decode` into those of `cobs_decode`, the 8-bit
`code` and `block`. A pointer is an index into its buffer (the buffers lie in a 32-bit address
space, so the casts to `uint32_t` lose nothing), and every access is checked: `none` is an access
outside of a buffer. Both loops compute what `Cobs` has for them
(`cobsEncodeAt_eq`, `cobsDecodeAt_eq`), and the sizes of the buffers they need are proved.
-/

namespace Samwise

open Buffer

/-! ## `cobs_encode` -/

/-- The variables of `cobs_encode`. -/
structure CobsEncoder where
  buffer : List UInt8
  /-- encoded byte pointer -/
  encode : Nat
  /-- output code pointer -/
  codep : Nat
  /-- code value -/
  code : UInt8

/-- `*encode++ = *byte, ++code;` -/
def CobsEncoder.copy (s : CobsEncoder) (byte : UInt8) : Option CobsEncoder :=
  (store s.buffer s.encode byte).map fun buffer =>
    { s with buffer, encode := s.encode + 1, code := s.code + 1 }

/-- `*codep = code, code = 1, codep = encode;` and, with `more`, `++encode`. -/
def CobsEncoder.restart (s : CobsEncoder) (more : Bool) : Option CobsEncoder :=
  (store s.buffer s.codep s.code).map fun buffer =>
    { buffer, encode := if more then s.encode + 1 else s.encode, codep := s.encode, code := 1 }

/-- The body of the loop of `cobs_encode`; `length` counts the bytes behind this one. -/
def cobsEncodeBody (byte : UInt8) (length : Nat) (s : CobsEncoder) : Option CobsEncoder := do
  let s ← if byte ≠ 0 then s.copy byte else some s
  if byte = 0 ∨ s.code = 0xff then s.restart (byte = 0 ∨ length ≠ 0) else some s

/-- `for (byte = data; length--; ++byte)`. -/
def cobsEncodeFor (data : List UInt8) : (length byte : Nat) → CobsEncoder → Option CobsEncoder
  | 0, _, s => some s
  | length + 1, byte, s => do
    let s ← cobsEncodeBody (← load data byte) length s
    cobsEncodeFor data length (byte + 1) s

/-- `cobs_encode`: the length it returns, and the buffer afterwards. -/
def cobsEncodeAt (data buffer : List UInt8) : Option (Nat × List UInt8) := do
  let s ← cobsEncodeFor data data.length 0 { buffer, encode := 1, codep := 0, code := 1 }
  let buffer ← store s.buffer s.codep s.code  -- write final code value
  return (s.encode, buffer)

/-! ## `cobs_decode` -/

/-- The variables of `cobs_decode`; `data` is the buffer it decodes to. -/
structure CobsDecoder where
  /-- encoded input byte pointer -/
  byte : Nat
  data : List UInt8
  /-- decoded output byte pointer -/
  decode : Nat
  code : UInt8
  block : UInt8

/-- `*decode++ = b`. -/
def CobsDecoder.put (s : CobsDecoder) (b : UInt8) : Option CobsDecoder :=
  (store s.data s.decode b).map fun data => { s with data, decode := s.decode + 1 }

/-- The loop of `cobs_decode`, for at most `fuel` evaluations of its condition; `none` if these
do not do. -/
def cobsDecodeFor (buffer : List UInt8) : (fuel : Nat) → CobsDecoder → Option CobsDecoder
  | 0, _ => none
  | fuel + 1, s =>
    if s.byte < buffer.length then do
      let b ← load buffer s.byte
      let s : CobsDecoder := { s with byte := s.byte + 1 }
      if s.block ≠ 0 then
        let s ← s.put b
        cobsDecodeFor buffer fuel { s with block := s.block - 1 }
      else
        -- an encoded zero, unless it is the delimiter
        let s ← if b ≠ 0 ∧ s.code ≠ 0xff then s.put 0 else some s
        let s : CobsDecoder := { s with code := b, block := b }
        if b = 0 then some s
        else cobsDecodeFor buffer fuel { s with block := s.block - 1 }
    else some s

/-- `cobs_decode` on the first `length` bytes of `buffer`, which are all it may read: the number
of bytes decoded, and `data` afterwards. -/
def cobsDecodeAt (fuel : Nat) (buffer : List UInt8) (length : Nat) (data : List UInt8) :
    Option (Nat × List UInt8) :=
  (cobsDecodeFor (buffer.take length) fuel
    { byte := 0, data, decode := 0, code := 0xff, block := 0 }).map fun s => (s.decode, s.data)

/-! ## Encoding within the buffer -/

/-- The pointers of `cobs_encode` behind a part of the data: `done` in front of `codep`, then
the place of the open code byte, then `block` up to `encode`; behind that the buffer `old`. -/
structure CobsEncoder.At (s : CobsEncoder) (old done block : List UInt8) : Prop where
  buffer : ∃ c, s.buffer = overlay (done ++ c :: block) old
  encode : s.encode = (done ++ 0 :: block).length
  codep : s.codep = done.length
  code : s.code = codeOf block

/-- From here on, the final code value leaves `encoded` at the front of the buffer, and from
`size` on what was there before. -/
def CobsEncoder.Closes (s : CobsEncoder) (old encoded : List UInt8) (size : Nat) : Prop :=
  s.encode = encoded.length
    ∧ ∃ buffer, store s.buffer s.codep s.code = some buffer
      ∧ buffer.take encoded.length = encoded ∧ buffer.drop size = old.drop size

theorem store_overlay_code (done : List UInt8) (c code : UInt8) (block old : List UInt8) :
    store (overlay (done ++ c :: block) old) done.length code
      = some (overlay (done ++ code :: block) old) := by
  have hlength : (done ++ c :: block).length = (done ++ code :: block).length := by simp
  rw [overlay, hlength, List.append_assoc, List.cons_append, store_append, overlay,
    List.append_assoc, List.cons_append]

theorem overlay_cons_place {w old : List UInt8} (h : w.length < old.length) :
    overlay w old = overlay (w ++ old[w.length] :: []) old := by
  rw [overlay, drop_eq_cons h, overlay, List.append_assoc, List.length_append,
    List.length_singleton]
  rfl

theorem codeOf_append (block : List UInt8) (byte : UInt8) :
    codeOf (block ++ [byte]) = codeOf block + 1 := by
  unfold codeOf
  rw [List.length_append, List.length_singleton, UInt8.ofNat_add (block.length + 1) 1]
  rfl

namespace CobsEncoder.At

variable {s : CobsEncoder} {old done block : List UInt8}

theorem copy (h : s.At old done block) (byte : UInt8)
    (hroom : (done ++ 0 :: block).length < old.length) :
    ∃ s', s.copy byte = some s' ∧ s'.At old done (block ++ [byte]) := by
  obtain ⟨c, hbuffer⟩ := h.buffer
  have hencode : s.encode = (done ++ c :: block).length := by rw [h.encode]; simp
  have hstore : store s.buffer s.encode byte
      = some (overlay (done ++ c :: block ++ [byte]) old) := by
    rw [hbuffer, hencode, store_overlay byte (by simpa using hroom)]
  have hcopy : s.copy byte = some
      { s with
        buffer := overlay (done ++ c :: block ++ [byte]) old
        encode := s.encode + 1
        code := s.code + 1 } := by
    rw [CobsEncoder.copy, hstore]
    rfl
  refine ⟨_, hcopy, ⟨c, ?_⟩, ?_, h.codep, ?_⟩
  · dsimp only
    rw [List.append_assoc, List.cons_append]
  · show s.encode + 1 = _
    rw [h.encode]
    simp
    omega
  · show s.code + 1 = _
    rw [h.code, codeOf_append]

/-- The open block is closed, and there is a place for the next code byte. -/
theorem restart_more (h : s.At old done block)
    (hroom : (done ++ 0 :: block).length < old.length) :
    ∃ s', s.restart true = some s' ∧ s'.At old (done ++ codeOf block :: block) [] := by
  obtain ⟨c, hbuffer⟩ := h.buffer
  have hlength : (done ++ codeOf block :: block).length = (done ++ 0 :: block).length := by simp
  have hstore : store s.buffer s.codep s.code
      = some (overlay (done ++ codeOf block :: block) old) := by
    rw [hbuffer, h.codep, h.code, store_overlay_code]
  have hplace : (done ++ codeOf block :: block).length < old.length := by omega
  have hrestart : s.restart true = some
      { buffer := overlay (done ++ codeOf block :: block) old
        encode := s.encode + 1
        codep := s.encode
        code := 1 } := by
    rw [CobsEncoder.restart, hstore]
    rfl
  refine ⟨_, hrestart, ⟨_, overlay_cons_place hplace⟩, ?_, ?_, rfl⟩
  · show s.encode + 1 = _
    rw [h.encode]
    simp only [List.length_append, List.length_cons, List.length_nil]
  · show s.encode = _
    rw [hlength, ← h.encode]

/-- The last block is full: `codep` and `encode` both stand behind it. -/
theorem restart_last (h : s.At old done block) {size : Nat}
    (hroom : (done ++ 0 :: block).length < size) (hsize : size ≤ old.length) :
    ∃ s', s.restart false = some s' ∧ s'.Closes old (done ++ codeOf block :: block) size := by
  obtain ⟨c, hbuffer⟩ := h.buffer
  have hlength : (done ++ codeOf block :: block).length = (done ++ 0 :: block).length := by simp
  have hstore : store s.buffer s.codep s.code
      = some (overlay (done ++ codeOf block :: block) old) := by
    rw [hbuffer, h.codep, h.code, store_overlay_code]
  have hplace : s.encode = (done ++ codeOf block :: block).length := h.encode.trans hlength.symm
  have hrestart : s.restart false = some
      { buffer := overlay (done ++ codeOf block :: block) old
        encode := s.encode
        codep := s.encode
        code := 1 } := by
    rw [CobsEncoder.restart, hstore]
    rfl
  refine ⟨_, hrestart, hplace, ?_⟩
  · -- the final code value goes to the byte behind the returned length
    have hlast : store (overlay (done ++ codeOf block :: block) old) s.encode 1
        = some (overlay (done ++ codeOf block :: block ++ [1]) old) := by
      rw [hplace]
      exact store_overlay 1 (by omega)
    refine ⟨_, hlast, ?_, drop_overlay ?_⟩
    · rw [overlay, List.append_assoc]
      exact List.take_left
    · rw [List.length_append, List.length_singleton]
      omega

theorem closes (h : s.At old done block) {size : Nat}
    (hroom : (done ++ 0 :: block).length ≤ size) :
    s.Closes old (done ++ codeOf block :: block) size := by
  obtain ⟨c, hbuffer⟩ := h.buffer
  have hlength : (done ++ codeOf block :: block).length = (done ++ 0 :: block).length := by simp
  refine ⟨h.encode.trans hlength.symm, _, ?_, take_overlay _ _, drop_overlay (by omega)⟩
  rw [hbuffer, h.codep, h.code, store_overlay_code]

/-- A zero byte closes the block. -/
theorem body_zero (h : s.At old done block) (length : Nat)
    (hroom : (done ++ 0 :: block).length < old.length) :
    ∃ s', cobsEncodeBody 0 length s = some s'
      ∧ s'.At old (done ++ codeOf block :: block) [] := by
  obtain ⟨s', hrestart, hs'⟩ := h.restart_more hroom
  refine ⟨s', ?_, hs'⟩
  rw [cobsEncodeBody, if_neg (by decide)]
  exact hrestart

/-- Any other byte joins the block, as long as that does not fill it. -/
theorem body_copy (h : s.At old done block) {byte : UInt8} (length : Nat) (hbyte : byte ≠ 0)
    (hopen : block.length + 1 < 254) (hroom : (done ++ 0 :: block).length < old.length) :
    ∃ s', cobsEncodeBody byte length s = some s' ∧ s'.At old done (block ++ [byte]) := by
  obtain ⟨s', hcopy, hs'⟩ := h.copy byte hroom
  refine ⟨s', ?_, hs'⟩
  have hblock : (block ++ [byte]).length = block.length + 1 := by simp
  have hcode : s'.code ≠ 0xff := by
    rw [hs'.code]
    intro hfull
    have hlength := (codeOf_eq_full (by omega)).mp hfull
    omega
  rw [cobsEncodeBody, if_pos hbyte, hcopy]
  exact if_neg (not_or.mpr ⟨hbyte, hcode⟩)

/-- The byte that fills the block closes it. -/
theorem body_full (h : s.At old done block) {byte : UInt8} (length : Nat) (hbyte : byte ≠ 0)
    (hfull : block.length + 1 = 254) (hroom : (done ++ 0 :: block).length < old.length) :
    ∃ s₁ : CobsEncoder, s₁.At old done (block ++ [byte])
      ∧ cobsEncodeBody byte length s = s₁.restart (length ≠ 0) := by
  obtain ⟨s₁, hcopy, hs₁⟩ := h.copy byte hroom
  refine ⟨s₁, hs₁, ?_⟩
  have hblock : (block ++ [byte]).length = block.length + 1 := by simp
  have hcode : s₁.code = 0xff := by
    rw [hs₁.code]
    exact (codeOf_eq_full (by omega)).mpr (by omega)
  rw [cobsEncodeBody, if_pos hbyte, hcopy]
  simp only [Option.bind_eq_bind, Option.bind_some, hcode, if_true, hbyte, false_or]

end CobsEncoder.At

/-- **The loop of `cobs_encode`.** With room for the rest of the data, a code byte for each
full block of it and one more, no access is outside, and the loop leaves what
`cobsEncodeLoop` says. Induction on the data still to come; `front` has been read. -/
theorem cobsEncodeFor_closes {data old : List UInt8} {size : Nat} (hsize : size ≤ old.length)
    {front rest done block : List UInt8} {s : CobsEncoder} (hdata : data = front ++ rest)
    (h : s.At old done block) (hblock : block.length < 254)
    (hroom : (done ++ 0 :: block).length + rest.length + (block.length + rest.length) / 254
      ≤ size) :
    ∃ s', cobsEncodeFor data rest.length front.length s = some s'
      ∧ s'.Closes old (cobsEncodeLoop done block rest) size := by
  induction rest generalizing front done block s with
  | nil => exact ⟨s, rfl, h.closes (by rw [List.length_nil] at hroom; omega)⟩
  | cons byte rest ih =>
    have hload : load data front.length = some byte := by rw [hdata, load_append]
    have hnext : data = (front ++ [byte]) ++ rest := by
      rw [hdata, List.append_assoc, List.singleton_append]
    have hfront : (front ++ [byte]).length = front.length + 1 := by simp
    have hstep : ∀ s₁, cobsEncodeBody byte rest.length s = some s₁ →
        cobsEncodeFor data (byte :: rest).length front.length s
          = cobsEncodeFor data rest.length (front ++ [byte]).length s₁ := by
      intro s₁ hbody
      rw [List.length_cons, cobsEncodeFor, hload, hfront]
      simp only [Option.bind_eq_bind, Option.bind_some, hbody]
    have hlength : ∀ c, (done ++ c :: block).length = done.length + block.length + 1 := by
      intro c
      rw [List.length_append, List.length_cons]
      omega
    rw [hlength, List.length_cons] at hroom
    have hplace : (done ++ 0 :: block).length < old.length := by
      rw [hlength]
      omega
    unfold cobsEncodeLoop
    by_cases hbyte : byte = 0
    · rw [if_pos hbyte]
      obtain ⟨s₁, hbody, hs₁⟩ := h.body_zero rest.length hplace
      rw [hstep s₁ (hbyte ▸ hbody)]
      apply ih hnext hs₁ (by decide)
      rw [List.length_append, hlength, List.length_singleton, List.length_nil]
      omega
    · rw [if_neg hbyte]
      have hgrown : (block ++ [byte]).length = block.length + 1 := by simp
      by_cases hfull : block.length + 2 = 0xff
      · rw [if_pos hfull]
        have hcode : codeOf (block ++ [byte]) = 0xff :=
          (codeOf_eq_full (by omega)).mpr (by omega)
        obtain ⟨s₁, hs₁, hbody⟩ := h.body_full rest.length hbyte (by omega) hplace
        have hplace₁ : (done ++ 0 :: (block ++ [byte])).length < size := by
          rw [List.length_append, List.length_cons, hgrown]
          omega
        by_cases hlast : rest = []
        · -- the end of the data: there is no place for another code byte, and none is counted
          obtain ⟨s₂, hrestart, hs₂⟩ := hs₁.restart_last hplace₁ hsize
          rw [if_pos hlast]
          have hnone : decide (rest.length ≠ 0) = false := by rw [hlast]; rfl
          rw [hnone, hrestart] at hbody
          refine ⟨s₂, ?_, hcode ▸ hs₂⟩
          rw [hstep s₂ hbody, hlast]
          rfl
        · rw [if_neg hlast]
          have hmore : decide (rest.length ≠ 0) = true :=
            decide_eq_true (fun h0 => hlast (List.eq_nil_of_length_eq_zero h0))
          obtain ⟨s₂, hrestart, hs₂⟩ := hs₁.restart_more (by omega)
          rw [hmore, hrestart] at hbody
          rw [hcode] at hs₂
          rw [hstep s₂ hbody]
          apply ih hnext hs₂ (by decide)
          simp only [List.length_append, List.length_cons, List.length_nil]
          omega
      · rw [if_neg hfull]
        obtain ⟨s₁, hbody, hs₁⟩ := h.body_copy rest.length hbyte (by omega) hplace
        rw [hstep s₁ hbody]
        apply ih hnext hs₁ (by omega)
        simp only [List.length_append, List.length_cons, List.length_nil]
        omega

/-- The bytes a buffer needs for the encoding of `n` bytes. -/
def cobsEncodeSize (n : Nat) : Nat := n + 1 + n / 254

/-- **`cobs_encode` within its buffer**: `cobsEncodeSize` bytes are enough, for the final code
value too; the encoding is at the front, and what is behind those bytes is left alone. -/
theorem cobsEncodeAt_eq {data old : List UInt8} (hroom : cobsEncodeSize data.length ≤ old.length) :
    ∃ buffer, cobsEncodeAt data old = some ((cobsEncode data).length, buffer)
      ∧ buffer.take (cobsEncode data).length = cobsEncode data
      ∧ buffer.drop (cobsEncodeSize data.length) = old.drop (cobsEncodeSize data.length) := by
  unfold cobsEncodeSize at hroom ⊢
  have hstart : CobsEncoder.At ⟨old, 1, 0, 1⟩ old [] [] :=
    { buffer := ⟨_, overlay_cons_place (w := []) (by rw [List.length_nil]; omega)⟩
      encode := rfl
      codep := rfl
      code := rfl }
  obtain ⟨s, hloop, hencode, buffer, hstore, htake, hdrop⟩ :=
    cobsEncodeFor_closes hroom
      (List.nil_append data).symm hstart (by decide) (by simp; omega)
  refine ⟨buffer, ?_, htake, hdrop⟩
  unfold cobsEncodeAt
  have hfor : cobsEncodeFor data data.length 0 ⟨old, 1, 0, 1⟩ = some s := hloop
  simp only [Option.bind_eq_bind, hfor, Option.bind_some, hstore, hencode]
  rfl

/-- A code byte for each full block but one at the very end, and one more. -/
theorem length_cobsEncodeLoop_le (done block data : List UInt8) (h : block.length < 254) :
    (cobsEncodeLoop done block data).length
      ≤ done.length + block.length + data.length + 1 + (block.length + data.length) / 254 := by
  induction data generalizing done block with
  | nil => simp [cobsEncodeLoop]; omega
  | cons byte rest ih =>
    unfold cobsEncodeLoop
    split
    · have hrest := ih (done ++ codeOf block :: block) [] (by decide)
      simp only [List.length_append, List.length_cons, List.length_nil] at hrest ⊢
      omega
    · split
      · split
        · next hfull hlast =>
          simp only [hlast, List.length_append, List.length_cons, List.length_nil]
          omega
        · have hrest := ih (done ++ 0xff :: (block ++ [byte])) [] (by decide)
          simp only [List.length_append, List.length_cons, List.length_nil] at hrest ⊢
          omega
      · next hopen =>
        have hgrown : (block ++ [byte]).length = block.length + 1 := by simp
        have hrest := ih done (block ++ [byte]) (by omega)
        rw [hgrown] at hrest
        rw [List.length_cons]
        omega

theorem length_cobsEncode_le (data : List UInt8) :
    (cobsEncode data).length ≤ cobsEncodeSize data.length := by
  have hloop := length_cobsEncodeLoop_le [] [] data (by decide)
  simp only [List.length_nil, Nat.zero_add] at hloop
  exact hloop

/-! ## Decoding within the buffers -/

/-- The variables of `cobs_decode` after it has read `front` and written `out` to the buffer
`old`. -/
structure CobsDecoder.At (s : CobsDecoder) (old front out : List UInt8) : Prop where
  byte : s.byte = front.length
  data : s.data = overlay out old
  decode : s.decode = out.length

theorem CobsDecoder.At.put {s : CobsDecoder} {old front out : List UInt8} (h : s.At old front out)
    (b : UInt8) (hroom : out.length < old.length) :
    ∃ s', s.put b = some s' ∧ s'.At old front (out ++ [b])
      ∧ s'.code = s.code ∧ s'.block = s.block := by
  have hstore : store s.data s.decode b = some (overlay (out ++ [b]) old) := by
    rw [h.data, h.decode, store_overlay b hroom]
  refine ⟨{ s with data := overlay (out ++ [b]) old, decode := s.decode + 1 }, ?_,
    ⟨h.byte, rfl, ?_⟩, rfl, rfl⟩
  · rw [CobsDecoder.put, hstore]
    rfl
  · show s.decode + 1 = _
    rw [h.decode, List.length_append, List.length_singleton]

/-- **The loop of `cobs_decode`.** It ends after one evaluation of its condition for each byte
still to come and one more, reads only those, and writes what `cobsDecodeLoop` says. -/
theorem cobsDecodeFor_eq {buffer old front rest out : List UInt8} (s : CobsDecoder) (fuel : Nat)
    (hbuffer : buffer = front ++ rest) (h : s.At old front out)
    (hroom : out.length + (cobsDecodeLoop s.code s.block rest).length ≤ old.length)
    (hfuel : rest.length < fuel) :
    ∃ s' front', cobsDecodeFor buffer fuel s = some s'
      ∧ s'.At old front' (out ++ cobsDecodeLoop s.code s.block rest) := by
  induction rest generalizing front out s fuel with
  | nil =>
    have hend : ¬s.byte < buffer.length := by
      rw [h.byte, hbuffer, List.append_nil]
      exact Nat.lt_irrefl _
    obtain ⟨fuel, rfl⟩ : ∃ k, fuel = k + 1 := ⟨fuel - 1, by omega⟩
    refine ⟨s, front, ?_, ?_⟩
    · rw [cobsDecodeFor, if_neg hend]
    · rw [cobsDecodeLoop, List.append_nil]
      exact h
  | cons b rest ih =>
    obtain ⟨fuel, rfl⟩ : ∃ k, fuel = k + 1 := ⟨fuel - 1, by omega⟩
    have hin : s.byte < buffer.length := by
      rw [h.byte, hbuffer, List.length_append, List.length_cons]
      omega
    have hload : load buffer s.byte = some b := by rw [h.byte, hbuffer, load_append]
    have hnext : buffer = (front ++ [b]) ++ rest := by
      rw [hbuffer, List.append_assoc, List.singleton_append]
    have hread : CobsDecoder.At { s with byte := s.byte + 1 } old (front ++ [b]) out :=
      ⟨by simp [h.byte], h.data, h.decode⟩
    rw [List.length_cons] at hfuel
    rw [cobsDecodeFor, if_pos hin]
    simp only [hload, Option.bind_eq_bind, Option.bind_some]
    unfold cobsDecodeLoop at hroom ⊢
    by_cases hblock : s.block ≠ 0
    · rw [if_pos hblock] at hroom ⊢
      rw [if_pos hblock]
      rw [List.length_cons] at hroom
      obtain ⟨s₁, hput, hs₁, hcode₁, hblock₁⟩ := hread.put b (by omega)
      rw [hput, Option.bind_some]
      have hcode : s₁.code = s.code := hcode₁
      have hleft : s₁.block - 1 = s.block - 1 := congrArg (· - 1) hblock₁
      have hrest := ih { s₁ with block := s₁.block - 1 } fuel hnext
        ⟨hs₁.byte, hs₁.data, hs₁.decode⟩
        (by simp only [hcode, hleft, List.length_append, List.length_singleton]; omega) (by omega)
      simp only [hcode, hleft, List.append_assoc, List.singleton_append] at hrest ⊢
      exact hrest
    · rw [if_neg hblock] at hroom ⊢
      rw [if_neg hblock]
      by_cases hzero : b = 0
      · -- the delimiter
        have hplain : ¬(b ≠ 0 ∧ s.code ≠ 0xff) := fun hboth => hboth.1 hzero
        simp only [if_pos hzero, if_neg hplain, List.append_nil]
        exact ⟨_, _, rfl, hread.byte, hread.data, hread.decode⟩
      · rw [if_neg hzero, List.length_append] at hroom
        simp only [if_neg hzero]
        by_cases hcode : s.code ≠ 0xff
        · rw [if_pos hcode, List.length_singleton] at hroom
          obtain ⟨s₁, hput, hs₁, -, -⟩ := hread.put 0 (by omega)
          have hrest := ih { s₁ with code := b, block := b - 1 } fuel hnext
            ⟨hs₁.byte, hs₁.data, hs₁.decode⟩
            (by rw [List.length_append, List.length_singleton]; dsimp only; omega) (by omega)
          rw [if_pos ⟨hzero, hcode⟩, hput, Option.bind_some, if_pos hcode, ← List.append_assoc]
          exact hrest
        · rw [if_neg hcode, List.length_nil, Nat.zero_add] at hroom
          have hplain : ¬(b ≠ 0 ∧ s.code ≠ 0xff) := fun hboth => hcode hboth.2
          have hrest := ih { s with byte := s.byte + 1, code := b, block := b - 1 }
            fuel hnext ⟨hread.byte, hread.data, hread.decode⟩ hroom (by omega)
          rw [if_neg hplain, if_neg hcode, List.nil_append]
          exact hrest

/-- **`cobs_decode` within its buffers**: it returns, and `data` needs no more room than what is
decoded. -/
theorem cobsDecodeAt_eq {buffer data : List UInt8} {length fuel : Nat}
    (hroom : (cobsDecode (buffer.take length)).length ≤ data.length)
    (hfuel : (buffer.take length).length < fuel) :
    cobsDecodeAt fuel buffer length data
      = some ((cobsDecode (buffer.take length)).length,
          overlay (cobsDecode (buffer.take length)) data) := by
  have hstart : CobsDecoder.At ⟨0, data, 0, 0xff, 0⟩ data [] [] := ⟨rfl, rfl, rfl⟩
  obtain ⟨s, front, hloop, hs⟩ := cobsDecodeFor_eq _ fuel
    (List.nil_append (buffer.take length)).symm hstart
    (by rw [List.length_nil, Nat.zero_add]; exact hroom) hfuel
  rw [List.nil_append] at hs
  rw [cobsDecodeAt, hloop, Option.map_some, hs.decode, hs.data]
  rfl

/-- The first byte is a code byte and leaves none. -/
theorem length_cobsDecode_lt {buffer : List UInt8} (h : buffer ≠ []) :
    (cobsDecode buffer).length < buffer.length := by
  obtain ⟨byte, rest, rfl⟩ := List.exists_cons_of_ne_nil h
  have hrest := length_cobsDecodeLoop_le byte (byte - 1) rest
  rw [cobsDecode, cobsDecodeLoop, if_neg (by decide), List.length_cons]
  split
  · exact Nat.succ_pos _
  · rw [if_neg (by decide), List.nil_append]
    omega

/-! ## The codec -/

/-- **Byte stuffing.** The encoding of any data has no zero byte and at most `cobsEncodeSize`
bytes, of which none further is written; with its delimiter and whatever follows it decodes to
the data. Decoding anything at all returns, reads only the bytes it was given, and writes fewer
than these. -/
theorem cobs_codec (data buffer : List UInt8) (hroom : cobsEncodeSize data.length ≤ buffer.length) :
    (∃ n encoded, cobsEncodeAt data buffer = some (n, encoded)
      ∧ n ≤ cobsEncodeSize data.length
      ∧ 0 ∉ encoded.take n
      ∧ encoded.drop (cobsEncodeSize data.length) = buffer.drop (cobsEncodeSize data.length)
      ∧ ∀ rest length out fuel, n + 1 ≤ length → length ≤ n + 1 + rest.length →
          data.length ≤ out.length → length < fuel →
          ∃ decoded, cobsDecodeAt fuel (encoded.take n ++ 0 :: rest) length out
              = some (data.length, decoded)
            ∧ decoded.take data.length = data)
    ∧ ∀ input length out fuel, length ≤ input.length → length - 1 ≤ out.length → length < fuel →
        ∃ n decoded, cobsDecodeAt fuel input length out = some (n, decoded)
          ∧ (0 < length → n < length) := by
  constructor
  · obtain ⟨encoded, hencode, htake, hdrop⟩ := cobsEncodeAt_eq hroom
    refine ⟨_, encoded, hencode, length_cobsEncode_le data, ?_, hdrop, ?_⟩
    · rw [htake]
      exact zero_notMem_cobsEncode data
    · intro rest length out fuel hcover hlength hout hfuel
      have hview : (cobsEncode data ++ 0 :: rest).take length
          = cobsEncode data ++ 0 :: rest.take (length - ((cobsEncode data).length + 1)) := by
        rw [List.take_append, List.take_of_length_le (by omega)]
        congr 1
        obtain ⟨k, hk⟩ : ∃ k, length - (cobsEncode data).length = k + 1 :=
          ⟨length - (cobsEncode data).length - 1, by omega⟩
        rw [hk, List.take_succ_cons]
        congr 2
        omega
      have hdata : cobsDecode ((cobsEncode data ++ 0 :: rest).take length) = data := by
        rw [hview, cobsDecode_cobsEncode]
      have hfew : ((cobsEncode data ++ 0 :: rest).take length).length < fuel := by
        rw [List.length_take]
        omega
      rw [htake, cobsDecodeAt_eq (by rw [hdata]; exact hout) hfew, hdata]
      exact ⟨_, rfl, take_overlay _ _⟩
  · intro input length out fuel hlength hout hfuel
    have hview : (input.take length).length = length := by
      rw [List.length_take]
      omega
    by_cases hempty : input.take length = []
    · have hzero : length = 0 := by rw [← hview, hempty]; rfl
      rw [cobsDecodeAt_eq (by rw [hempty]; exact Nat.zero_le _) (by omega)]
      exact ⟨_, _, rfl, fun hpos => absurd hzero (by omega)⟩
    · have hlt := length_cobsDecode_lt hempty
      rw [cobsDecodeAt_eq (by omega) (by omega)]
      exact ⟨_, _, rfl, fun _ => by omega⟩

/-- A full block at the very end of the data, in a buffer with room for the final code value and
no more. -/
theorem cobs_codec_full_block :
    ∃ n encoded, cobsEncodeAt (List.replicate 254 7) (List.replicate 256 9) = some (n, encoded)
      ∧ n ≤ 256
      ∧ ∃ decoded, cobsDecodeAt (n + 2) (encoded.take n ++ 0 :: [9]) (n + 1) (List.replicate 254 0)
          = some (254, decoded) ∧ decoded.take 254 = List.replicate 254 7 := by
  have hroom : cobsEncodeSize (List.replicate 254 (7 : UInt8)).length
      ≤ (List.replicate 256 (9 : UInt8)).length := by
    rw [List.length_replicate, List.length_replicate]
    decide
  obtain ⟨n, encoded, hencode, hsize, _, _, hdecode⟩ := (cobs_codec _ _ hroom).1
  rw [List.length_replicate] at hroom hsize hdecode
  have hout : 254 ≤ (List.replicate 254 (0 : UInt8)).length :=
    Nat.le_of_eq List.length_replicate.symm
  have hback := hdecode [9] (n + 1) (List.replicate 254 0) (n + 2) (Nat.le_refl _)
    (Nat.le_add_right _ _) hout (Nat.lt_succ_self _)
  exact ⟨n, encoded, hencode, hsize, hback⟩

end Samwise
