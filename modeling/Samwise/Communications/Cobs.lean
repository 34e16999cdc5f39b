import Samwise.Lib.Memory

/-!
# Samwise — byte stuffing

`src/drivers/communications/cobs.c`: consistent-overhead byte stuffing. The C functions work
with pointers into their buffers; the definitions keep what these tell apart: on encoding, the
bytes before the open code byte (`*codep`) and those behind it, on decoding, the last code
byte and how much of its block is left.
-/

namespace Samwise

/-! ## Encoding -/

/-- `code`, counted up from 1 with every byte of the block. -/
def codeOf (block : List UInt8) : UInt8 := UInt8.ofNat (block.length + 1)

/-- The loop of `cobs_encode`: `done` is what stands before `codep`, `block` what stands
between it and `encode`. -/
def cobsEncodeLoop (done block : List UInt8) : List UInt8 → List UInt8
  | [] => done ++ codeOf block :: block
  | byte :: rest =>
    if byte = 0 then
      cobsEncodeLoop (done ++ codeOf block :: block) [] rest
    else if block.length + 2 = 0xff then
      -- a full block: the next code byte gets its place only if there is more to encode
      if rest = [] then done ++ 0xff :: (block ++ [byte])
      else cobsEncodeLoop (done ++ 0xff :: (block ++ [byte])) [] rest
    else cobsEncodeLoop done (block ++ [byte]) rest

/-- `cobs_encode`: the bytes it leaves in `buffer`, without delimiter. -/
def cobsEncode (data : List UInt8) : List UInt8 := cobsEncodeLoop [] [] data

/-! ## Decoding -/

/-- The loop of `cobs_decode`: the bytes it writes, given the last code byte and how many
bytes of its block are still to come. -/
def cobsDecodeLoop (code block : UInt8) : List UInt8 → List UInt8
  | [] => []
  | byte :: rest =>
    if block ≠ 0 then byte :: cobsDecodeLoop code (block - 1) rest
    else if byte = 0 then []
    else (if code ≠ 0xff then [0] else []) ++ cobsDecodeLoop byte (byte - 1) rest

/-- `cobs_decode`: the bytes it writes into `data`. -/
def cobsDecode (buffer : List UInt8) : List UInt8 := cobsDecodeLoop 0xff 0 buffer

/-! ## Lengths of what is decoded -/

theorem length_cobsDecodeLoop_le (code block : UInt8) (buffer : List UInt8) :
    (cobsDecodeLoop code block buffer).length ≤ buffer.length := by
  induction buffer generalizing code block with
  | nil => exact Nat.le_refl 0
  | cons byte rest ih =>
    have hrest := ih byte (byte - 1)
    have hblock := ih code (block - 1)
    unfold cobsDecodeLoop
    split
    · simp only [List.length_cons]
      omega
    · split
      · simp
      · split
        · simp only [List.length_append, List.length_cons, List.length_nil]
          omega
        · simp only [List.nil_append, List.length_cons]
          omega

theorem length_cobsDecode_le (buffer : List UInt8) :
    (cobsDecode buffer).length ≤ buffer.length := length_cobsDecodeLoop_le _ _ _

/-- Short of the delimiter, every byte of a frame leaves one, unless it is the code byte
behind a full block. -/
theorem le_length_cobsDecodeLoop {code block : UInt8} {f rest : List UInt8} (hf : 0 ∉ f)
    (hlen : f.length ≤ 254) (hfull : code = 0xff → f.length ≤ block.toNat) :
    f.length ≤ (cobsDecodeLoop code block (f ++ rest)).length := by
  induction f generalizing code block with
  | nil => exact Nat.zero_le _
  | cons byte f ih =>
    have hbyte : byte ≠ 0 := fun h0 => hf (h0 ▸ List.mem_cons_self)
    have hf' : 0 ∉ f := fun h => hf (List.mem_cons_of_mem _ h)
    rw [List.length_cons] at hlen hfull ⊢
    rw [List.cons_append, cobsDecodeLoop]
    by_cases hblock : block = 0
    · -- a code byte: `byte` opens a block, which is full for `0xff` only
      have hcode : code ≠ 0xff := fun heq => by
        have hle := hfull heq
        rw [hblock] at hle
        exact absurd hle (Nat.not_succ_le_zero _)
      have hnext : byte = 0xff → f.length ≤ (byte - 1).toNat := fun heq => by
        rw [heq]
        have h254 : ((0xff : UInt8) - 1).toNat = 254 := rfl
        omega
      have hrest := ih hf' (by omega) hnext
      rw [if_neg (by simpa using hblock), if_neg hbyte, if_pos hcode, List.length_append,
        List.length_singleton]
      omega
    · -- a byte of the block is copied
      have hdown : (block - 1).toNat = block.toNat - 1 := by
        have hpos : block.toNat ≠ 0 := fun h0 => hblock (UInt8.toNat_inj.mp h0)
        rw [UInt8.toNat_sub_of_le _ _ (by
          rw [UInt8.le_iff_toNat_le]
          show 1 ≤ block.toNat
          omega)]
        rfl
      have hleft : code = 0xff → f.length ≤ (block - 1).toNat := fun heq => by
        have hle := hfull heq
        omega
      have hrest := ih hf' (by omega) hleft
      rw [if_pos hblock, List.length_cons]
      omega

theorem le_length_cobsDecode {f rest : List UInt8} (hf : 0 ∉ f) (hlen : f.length ≤ 254) :
    f.length ≤ (cobsDecode (f ++ rest)).length + 1 := by
  cases f with
  | nil => exact Nat.zero_le _
  | cons byte f =>
    have hbyte : byte ≠ 0 := fun h0 => hf (h0 ▸ List.mem_cons_self)
    have hf' : 0 ∉ f := fun h => hf (List.mem_cons_of_mem _ h)
    rw [List.length_cons] at hlen ⊢
    have hfull : byte = 0xff → f.length ≤ (byte - 1).toNat := fun heq => by
      rw [heq]
      have h254 : ((0xff : UInt8) - 1).toNat = 254 := rfl
      omega
    have hrest : f.length ≤ (cobsDecodeLoop byte (byte - 1) (f ++ rest)).length :=
      le_length_cobsDecodeLoop hf' (by omega) hfull
    have hdecode : cobsDecode (byte :: f ++ rest) = cobsDecodeLoop byte (byte - 1) (f ++ rest) := by
      rw [cobsDecode, List.cons_append, cobsDecodeLoop, if_neg (by decide), if_neg hbyte,
        if_neg (by decide), List.nil_append]
    rw [hdecode]
    omega

/-! ## The encoding -/

theorem cobsEncodeLoop_done (done block data : List UInt8) :
    cobsEncodeLoop done block data = done ++ cobsEncodeLoop [] block data := by
  induction data generalizing done block with
  | nil => rfl
  | cons byte rest ih =>
    unfold cobsEncodeLoop
    split
    · rw [ih, ih ([] ++ _), List.nil_append, List.append_assoc]
    · split
      · split
        · rw [List.nil_append]
        · rw [ih, ih ([] ++ _), List.nil_append, List.append_assoc]
      · exact ih done _

/-- One more byte than the data, where a single block can hold them all. -/
theorem length_cobsEncodeLoop {block data : List UInt8} (h : block.length + data.length < 254) :
    (cobsEncodeLoop [] block data).length = block.length + data.length + 1 := by
  induction data generalizing block with
  | nil => rfl
  | cons byte rest ih =>
    rw [List.length_cons] at h ⊢
    unfold cobsEncodeLoop
    split
    · rw [cobsEncodeLoop_done, List.length_append, List.nil_append, List.length_cons,
        ih (by simp; omega), List.length_nil]
      omega
    · have hshort : ¬block.length + 2 = 0xff := by omega
      rw [if_neg hshort, ih (by rw [List.length_append, List.length_singleton]; omega),
        List.length_append, List.length_singleton]
      omega

theorem length_cobsEncode {data : List UInt8} (h : data.length < 254) :
    (cobsEncode data).length = data.length + 1 := by
  rw [cobsEncode, length_cobsEncodeLoop (by rw [List.length_nil]; omega), List.length_nil]
  omega

theorem toNat_codeOf {block : List UInt8} (h : block.length < 255) :
    (codeOf block).toNat = block.length + 1 :=
  UInt8.toNat_ofNat_of_lt' (show block.length + 1 < 256 by omega)

theorem codeOf_ne_zero {block : List UInt8} (h : block.length < 255) : codeOf block ≠ 0 := by
  intro heq
  have hcode := toNat_codeOf h
  rw [heq] at hcode
  exact Nat.succ_ne_zero _ hcode.symm

/-- Only a full block has the code `0xff`. -/
theorem codeOf_eq_full {block : List UInt8} (h : block.length < 255) :
    codeOf block = 0xff ↔ block.length = 254 := by
  have hff : (0xff : UInt8).toNat = 255 := rfl
  rw [← UInt8.toNat_inj, toNat_codeOf h, hff]
  omega

theorem zero_notMem_cobsEncodeLoop {done block data : List UInt8} (hdone : 0 ∉ done)
    (hblock : 0 ∉ block) (h : block.length < 254) : 0 ∉ cobsEncodeLoop done block data := by
  induction data generalizing done block with
  | nil =>
    have hcode : 0 ≠ codeOf block := Ne.symm (codeOf_ne_zero (by omega))
    simp [cobsEncodeLoop, hdone, hblock, hcode]
  | cons byte rest ih =>
    have hcode : 0 ≠ codeOf block := Ne.symm (codeOf_ne_zero (by omega))
    unfold cobsEncodeLoop
    split
    · exact ih (by simp [hdone, hblock, hcode]) (by simp) (by decide)
    · next hbyte =>
      have hnz : (0 : UInt8) ≠ byte := Ne.symm hbyte
      split
      · -- the block is full: it is closed without a zero in the data
        have hfull : (0 : UInt8) ∉ done ++ 0xff :: (block ++ [byte]) := by
          simp [hdone, hblock, hnz]
        split
        · exact hfull
        · exact ih hfull (by simp) (by decide)
      · have hlen : (block ++ [byte]).length < 254 := by
          rw [List.length_append, List.length_singleton]
          omega
        exact ih hdone (by simp [hblock, hnz]) hlen

theorem zero_notMem_cobsEncode (data : List UInt8) : 0 ∉ cobsEncode data :=
  zero_notMem_cobsEncodeLoop (by simp) (by simp) (by decide)

/-! ## The round trip -/

theorem cobsDecodeLoop_block (code : UInt8) {block rest : List UInt8} (h : block.length < 255) :
    cobsDecodeLoop code (codeOf block - 1) (block ++ rest)
      = block ++ cobsDecodeLoop code 0 rest := by
  induction block with
  | nil => rfl
  | cons b block ih =>
    rw [List.length_cons] at h
    have hleft : codeOf (b :: block) - 1 = codeOf block := by
      unfold codeOf
      rw [List.length_cons, UInt8.ofNat_add]
      exact UInt8.add_sub_cancel _ _
    rw [hleft, List.cons_append, cobsDecodeLoop, if_pos (codeOf_ne_zero (by omega)),
      ih (by omega), List.cons_append]

/-- A code byte and its block, behind a block with the code `code`. -/
theorem cobsDecodeLoop_code (code : UInt8) (block rest : List UInt8) (h : block.length < 255) :
    cobsDecodeLoop code 0 (codeOf block :: (block ++ rest))
      = (if code ≠ 0xff then [0] else []) ++
          (block ++ cobsDecodeLoop (codeOf block) 0 rest) := by
  rw [cobsDecodeLoop, if_neg (by decide), if_neg (codeOf_ne_zero h), cobsDecodeLoop_block _ h]

/-- Decoding the rest of an encoding up to its delimiter. Induction on the data; `block` are
the bytes of the open block. -/
theorem cobsDecodeLoop_cobsEncodeLoop (code : UInt8) {block data rest : List UInt8}
    (h : block.length < 254) :
    cobsDecodeLoop code 0 (cobsEncodeLoop [] block data ++ 0 :: rest)
      = (if code ≠ 0xff then [0] else []) ++ (block ++ data) := by
  induction data generalizing code block with
  | nil =>
    rw [cobsEncodeLoop, List.nil_append, List.cons_append, cobsDecodeLoop_code _ _ _ (by omega)]
    rfl
  | cons byte data ih =>
    unfold cobsEncodeLoop
    split
    · next hbyte =>
      -- the zero byte is what the next code byte stands for
      have hshort : codeOf block ≠ 0xff := fun heq => by
        have hfull := (codeOf_eq_full (by omega)).mp heq
        omega
      rw [hbyte, cobsEncodeLoop_done, List.nil_append, List.cons_append, List.cons_append,
        List.append_assoc, cobsDecodeLoop_code _ _ _ (by omega), ih _ (by decide), if_pos hshort]
      rfl
    · split
      · next hfull =>
        -- a full block stands for no zero behind it
        have hlen : (block ++ [byte]).length = 254 := by
          rw [List.length_append, List.length_singleton]
          omega
        have hcode : codeOf (block ++ [byte]) = 0xff := (codeOf_eq_full (by omega)).mpr hlen
        have hdecode : ∀ tail, cobsDecodeLoop code 0 (0xff :: (block ++ [byte] ++ tail))
            = (if code ≠ 0xff then [0] else []) ++
                (block ++ [byte] ++ cobsDecodeLoop 0xff 0 tail) := by
          intro tail
          have hblock := cobsDecodeLoop_code code (block ++ [byte]) tail (by omega)
          rwa [hcode] at hblock
        split
        · next hlast =>
          have hend : cobsDecodeLoop 0xff 0 (0 :: rest) = [] := rfl
          rw [hlast, List.nil_append, List.cons_append, hdecode, hend, List.append_nil]
        · rw [cobsEncodeLoop_done, List.nil_append, List.cons_append, List.cons_append,
            List.append_assoc, hdecode, ih _ (by decide), List.append_assoc block]
          rfl
      · next hopen =>
        have hlen : (block ++ [byte]).length < 254 := by
          rw [List.length_append, List.length_singleton]
          omega
        rw [ih code hlen, List.append_assoc, List.singleton_append]

/-- **Decoding undoes encoding**, whatever stands behind the delimiter. -/
theorem cobsDecode_cobsEncode (data rest : List UInt8) :
    cobsDecode (cobsEncode data ++ 0 :: rest) = data := by
  rw [cobsDecode, cobsEncode, cobsDecodeLoop_cobsEncodeLoop _ (by decide)]
  rfl

end Samwise
