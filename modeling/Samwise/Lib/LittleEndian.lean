import Mathlib.Tactic.Ring
import Mathlib.Data.Nat.ModEq

/-!
# Little-endian words

The byte layout of an unsigned word of any width, least significant byte first, as a
`memcpy` of an integer lays it out on a little-endian machine and as `struct.pack` with a
`<` format writes it. Everything is stated over `Nat`, so one pair of round trips serves
every width; `le32` / `ofLe32` are the 32-bit instances.
-/

namespace LittleEndian

/-- The `w` low bytes of `n`, least significant byte first. -/
def encode : Nat → Nat → List UInt8
  | 0, _ => []
  | w + 1, n => UInt8.ofNat n :: encode w (n / 256)

/-- The number a byte string denotes, least significant byte first. -/
def decode : List UInt8 → Nat
  | [] => 0
  | b :: bs => b.toNat + 256 * decode bs

@[simp] theorem length_encode (w n : Nat) : (encode w n).length = w := by
  induction w generalizing n with
  | zero => rfl
  | succ w ih => simp [encode, ih]

/-- Decoding the `w` low bytes of `n` gives `n` modulo the word size. Induction on the
width; one byte is one step of division by 256. -/
theorem decode_encode (w n : Nat) : decode (encode w n) = n % 256 ^ w := by
  induction w generalizing n with
  | zero => simp [encode, decode, Nat.mod_one]
  | succ w ih =>
    have hb : (UInt8.ofNat n).toNat = n % 256 := by simp
    rw [encode, decode, ih, hb, pow_succ, Nat.mul_comm (256 ^ w) 256, Nat.mod_mul]

theorem decode_lt (bs : List UInt8) : decode bs < 256 ^ bs.length := by
  induction bs with
  | nil => exact Nat.one_pos
  | cons b bs ih =>
    have hb : b.toNat < 256 := b.toNat_lt
    rw [decode, List.length_cons, pow_succ]
    omega

/-- Every byte string is the encoding of the number it denotes. -/
theorem encode_decode (bs : List UInt8) : encode bs.length (decode bs) = bs := by
  induction bs with
  | nil => rfl
  | cons b bs ih =>
    have hb : b.toNat < 256 := b.toNat_lt
    have hlow : UInt8.ofNat (b.toNat + 256 * decode bs) = b := by
      apply UInt8.toNat_inj.mp
      show (b.toNat + 256 * decode bs) % 256 = b.toNat
      omega
    have hhigh : (b.toNat + 256 * decode bs) / 256 = decode bs := by omega
    rw [List.length_cons, decode, encode, hlow, hhigh, ih]

/-! ## 32-bit words -/

/-- The four bytes of a `uint32_t`. -/
def le32 (x : UInt32) : List UInt8 := encode 4 x.toNat

/-- The `uint32_t` the first four bytes of a string denote. -/
def ofLe32 (bs : List UInt8) : UInt32 := UInt32.ofNat (decode (bs.take 4))

@[simp] theorem length_le32 (x : UInt32) : (le32 x).length = 4 := length_encode 4 x.toNat

/-- Reading a word back from the front of a string that starts with its bytes. -/
@[simp] theorem ofLe32_le32_append (x : UInt32) (rest : List UInt8) :
    ofLe32 (le32 x ++ rest) = x := by
  have htake : (le32 x ++ rest).take 4 = le32 x := List.take_left' (length_le32 x)
  have hx : x.toNat % 256 ^ 4 = x.toNat := Nat.mod_eq_of_lt x.toNat_lt
  rw [ofLe32, htake, le32, decode_encode, hx, UInt32.ofNat_toNat]

@[simp] theorem ofLe32_le32 (x : UInt32) : ofLe32 (le32 x) = x := by
  simpa using ofLe32_le32_append x []

theorem ofLe32_take (bs : List UInt8) : ofLe32 (bs.take 4) = ofLe32 bs := by
  rw [ofLe32, List.take_take, Nat.min_self, ofLe32]

/-- The bytes of the word that four bytes denote. -/
theorem le32_ofLe32 {bs : List UInt8} (h : 4 ≤ bs.length) : le32 (ofLe32 bs) = bs.take 4 := by
  have hfour : (bs.take 4).length = 4 := by
    rw [List.length_take]
    omega
  have hlt : decode (bs.take 4) < 2 ^ 32 := by
    have hbound := decode_lt (bs.take 4)
    rwa [hfour] at hbound
  have hback := encode_decode (bs.take 4)
  rw [hfour] at hback
  rw [le32, ofLe32, UInt32.toNat_ofNat_of_lt' hlt, hback]

/-! ## Packed fields -/

/-- Words of the given widths, one behind the other: a packed struct, or `struct.pack` with a
`<` format. A field is its width and its value. -/
def pack (fields : List (Nat × Nat)) : List UInt8 := fields.flatMap fun f => encode f.1 f.2

/-- `struct.unpack` with a `<` format of unsigned words of the given widths. -/
def unpack : List Nat → List UInt8 → List Nat
  | [], _ => []
  | w :: ws, bs => decode (bs.take w) :: unpack ws (bs.drop w)

theorem length_pack (fields : List (Nat × Nat)) :
    (pack fields).length = (fields.map Prod.fst).sum := by
  unfold pack
  rw [List.length_flatMap]
  simp only [length_encode]

/-- Fields whose values fit their widths are read back from what they pack to. -/
theorem unpack_pack {fields : List (Nat × Nat)} (h : ∀ f ∈ fields, f.2 < 256 ^ f.1) :
    unpack (fields.map Prod.fst) (pack fields) = fields.map Prod.snd := by
  induction fields with
  | nil => rfl
  | cons f fields ih =>
    have hfits : f.2 < 256 ^ f.1 := h f List.mem_cons_self
    have hpack : pack (f :: fields) = encode f.1 f.2 ++ pack fields := List.flatMap_cons
    rw [List.map_cons, List.map_cons, unpack, hpack, List.take_left' (length_encode f.1 f.2),
      List.drop_left' (length_encode f.1 f.2), decode_encode, Nat.mod_eq_of_lt hfits,
      ih fun g hg => h g (List.mem_cons_of_mem f hg)]

/-! The machine words fit their widths. -/

theorem toNat_lt_one (x : UInt8) : x.toNat < 256 ^ 1 := x.toNat_lt
theorem toNat_lt_two (x : UInt16) : x.toNat < 256 ^ 2 := lt_of_lt_of_eq x.toNat_lt (by norm_num)
theorem toNat_lt_four (x : UInt32) : x.toNat < 256 ^ 4 := lt_of_lt_of_eq x.toNat_lt (by norm_num)
theorem toNat_lt_eight (x : UInt64) : x.toNat < 256 ^ 8 := lt_of_lt_of_eq x.toNat_lt (by norm_num)

end LittleEndian
