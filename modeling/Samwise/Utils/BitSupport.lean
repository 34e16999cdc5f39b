import Mathlib.Data.Nat.Bitwise

/-!
# Samwise — bit fields

`src/common/bit-support.h`. A field is the bits `lb` to `ub` of a word. What is written to it is read
from it, and every bit outside of it stays; a register of eight bits is such a word, cut off.
-/

namespace Samwise

/-- `bit_clr`. -/
def bitClr (x bit : UInt32) : UInt32 := x &&& ~~~(1 <<< bit)

/-- `bit_set`. -/
def bitSet (x bit : UInt32) : UInt32 := x ||| (1 <<< bit)

/-- `bit_is_on`. -/
def bitIsOn (x bit : UInt32) : UInt32 := (x >>> bit) &&& 1

/-- `bits_mask`. -/
def bitsMask (nbits : UInt32) : UInt32 := if nbits = 32 then ~~~0 else (1 <<< nbits) - 1

/-- `bits_get`. -/
def bitsGet (x lb ub : UInt32) : UInt32 := (x >>> lb) &&& bitsMask (ub - lb + 1)

/-- `bits_clr`. -/
def bitsClr (x lb ub : UInt32) : UInt32 := x &&& ~~~(bitsMask (ub - lb + 1) <<< lb)

/-- `bits_set`. -/
def bitsSet (x lb ub v : UInt32) : UInt32 := bitsClr x lb ub ||| (v <<< lb)

/-! ## Bit by bit -/

/-- A bit of a word. -/
def bitOf (x : UInt32) (i : Nat) : Bool := x.toNat.testBit i

theorem bitOf_ext {x y : UInt32} (h : ∀ i < 32, bitOf x i = bitOf y i) : x = y := by
  refine UInt32.toNat_inj.mp (Nat.eq_of_testBit_eq fun i => ?_)
  by_cases hi : i < 32
  · exact h i hi
  · have hpow : 2 ^ 32 ≤ 2 ^ i := Nat.pow_le_pow_right (by decide) (Nat.not_lt.mp hi)
    rw [Nat.testBit_lt_two_pow (Nat.lt_of_lt_of_le x.toNat_lt hpow),
      Nat.testBit_lt_two_pow (Nat.lt_of_lt_of_le y.toNat_lt hpow)]

@[simp] theorem bitOf_and (x y : UInt32) (i : Nat) :
    bitOf (x &&& y) i = (bitOf x i && bitOf y i) := by
  simp [bitOf]

@[simp] theorem bitOf_or (x y : UInt32) (i : Nat) :
    bitOf (x ||| y) i = (bitOf x i || bitOf y i) := by
  simp [bitOf]

theorem bitOf_not (x : UInt32) {i : Nat} (hi : i < 32) : bitOf (~~~x) i = !bitOf x i := by
  have h : (~~~x).toNat = 2 ^ 32 - (x.toNat + 1) := by
    rw [UInt32.toNat_not]
    simp
  rw [bitOf, h, Nat.testBit_two_pow_sub_succ x.toNat_lt, decide_eq_true hi, Bool.true_and, bitOf]

theorem bitOf_shiftLeft (x : UInt32) {n : UInt32} (hn : n.toNat < 32) {i : Nat} (hi : i < 32) :
    bitOf (x <<< n) i = (decide (n.toNat ≤ i) && bitOf x (i - n.toNat)) := by
  rw [bitOf, UInt32.toNat_shiftLeft, Nat.mod_eq_of_lt hn, Nat.testBit_mod_two_pow,
    Nat.testBit_shiftLeft, decide_eq_true hi, Bool.true_and, bitOf]

theorem bitOf_shiftRight (x : UInt32) {n : UInt32} (hn : n.toNat < 32) (i : Nat) :
    bitOf (x >>> n) i = bitOf x (n.toNat + i) := by
  rw [bitOf, UInt32.toNat_shiftRight, Nat.mod_eq_of_lt hn, Nat.testBit_shiftRight, bitOf]

theorem bitOf_one (i : Nat) : bitOf 1 i = decide (i = 0) := by
  cases i with
  | zero => rfl
  | succ i => simp [bitOf, Nat.testBit_succ]

theorem bitOf_bitSet (x : UInt32) {b : UInt32} (hb : b.toNat < 32) {i : Nat} (hi : i < 32) :
    bitOf (bitSet x b) i = (bitOf x i || decide (i = b.toNat)) := by
  rw [bitSet, bitOf_or, bitOf_shiftLeft 1 hb hi, bitOf_one, ← Bool.decide_and]
  congr 2
  rw [eq_iff_iff]
  omega

theorem bitOf_bitClr (x : UInt32) {b : UInt32} (hb : b.toNat < 32) {i : Nat} (hi : i < 32) :
    bitOf (bitClr x b) i = (bitOf x i && !decide (i = b.toNat)) := by
  rw [bitClr, bitOf_and, bitOf_not _ hi, bitOf_shiftLeft 1 hb hi, bitOf_one, ← Bool.decide_and]
  congr 3
  rw [eq_iff_iff]
  omega

theorem bitIsOn_eq (x : UInt32) {b : UInt32} (hb : b.toNat < 32) :
    bitIsOn x b = if bitOf x b.toNat then 1 else 0 := by
  refine bitOf_ext fun i _ => ?_
  rw [bitIsOn, bitOf_and, bitOf_shiftRight x hb, bitOf_one]
  by_cases hi : i = 0
  · subst hi
    cases bitOf x b.toNat <;> simp [bitOf]
  · rw [decide_eq_false hi, Bool.and_false]
    split
    · rw [bitOf_one, decide_eq_false hi]
    · simp [bitOf]

/-- A byte of a word. -/
theorem bitOf_toUInt8 (x : UInt32) (i : Nat) :
    bitOf x.toUInt8.toUInt32 i = (decide (i < 8) && bitOf x i) := by
  simp [bitOf, Nat.testBit_mod_two_pow x.toNat 8 i]

theorem toNat_bitsMask {n : UInt32} (h : n.toNat ≤ 32) : (bitsMask n).toNat = 2 ^ n.toNat - 1 := by
  unfold bitsMask
  split
  · next hn =>
    subst hn
    decide
  · next hn =>
    have hlt : n.toNat < 32 := by
      have hne : n.toNat ≠ 32 := fun h' => hn (UInt32.toNat_inj.mp h')
      omega
    have hpow : 2 ^ n.toNat < 2 ^ 32 := Nat.pow_lt_pow_right (by decide) hlt
    have hshift : (1 <<< n : UInt32).toNat = 2 ^ n.toNat := by
      rw [UInt32.toNat_shiftLeft, Nat.mod_eq_of_lt hlt, UInt32.toNat_one, Nat.one_shiftLeft,
        Nat.mod_eq_of_lt hpow]
    have hle : (1 : UInt32) ≤ 1 <<< n := by
      rw [UInt32.le_iff_toNat_le, hshift, UInt32.toNat_one]
      exact Nat.one_le_two_pow
    rw [UInt32.toNat_sub_of_le _ _ hle, hshift, UInt32.toNat_one]

theorem bitOf_bitsMask {n : UInt32} (h : n.toNat ≤ 32) (i : Nat) :
    bitOf (bitsMask n) i = decide (i < n.toNat) := by
  rw [bitOf, toNat_bitsMask h, Nat.testBit_two_pow_sub_one]

/-! ## Fields -/

section Field

variable {lb ub : UInt32}

/-- The width of a field. -/
theorem toNat_width (hle : lb.toNat ≤ ub.toNat) (hub : ub.toNat < 32) :
    (ub - lb + 1).toNat = ub.toNat - lb.toNat + 1 := by
  have hsub := UInt32.toNat_sub_of_le ub lb (UInt32.le_iff_toNat_le.mpr hle)
  rw [UInt32.toNat_add, hsub, UInt32.toNat_one]
  omega

/-- What is in the bits of a field, and that those outside of it stay. A value with more bits than
the field would change those above it. -/
theorem bitOf_bitsSet (hle : lb.toNat ≤ ub.toNat) (hub : ub.toNat < 32) (x : UInt32) {v : UInt32}
    (hv : v.toNat < 2 ^ (ub.toNat - lb.toNat + 1)) {i : Nat} (hi : i < 32) :
    bitOf (bitsSet x lb ub v) i =
      if lb.toNat ≤ i ∧ i ≤ ub.toNat then bitOf v (i - lb.toNat) else bitOf x i := by
  have hwidth := toNat_width hle hub
  have hmask : bitOf (bitsMask (ub - lb + 1) <<< lb) i =
      (decide (lb.toNat ≤ i) && decide (i - lb.toNat < ub.toNat - lb.toNat + 1)) := by
    rw [bitOf_shiftLeft _ (by omega) hi, bitOf_bitsMask (by omega), hwidth]
  rw [bitsSet, bitsClr, bitOf_or, bitOf_and, bitOf_not _ hi, hmask,
    bitOf_shiftLeft v (by omega) hi]
  split
  · next hin =>
    have hlt : i - lb.toNat < ub.toNat - lb.toNat + 1 := by omega
    simp [hin.1, hlt]
  · next hout =>
    by_cases hbelow : lb.toNat ≤ i
    · -- above the field there is nothing of the value
      have hpow : v.toNat < 2 ^ (i - lb.toNat) :=
        Nat.lt_of_lt_of_le hv (Nat.pow_le_pow_right (by decide) (by omega))
      have habove : bitOf v (i - lb.toNat) = false := Nat.testBit_lt_two_pow hpow
      have hnot : ¬ i - lb.toNat < ub.toNat - lb.toNat + 1 := by omega
      simp [habove, hnot]
    · simp [hbelow]

theorem bitOf_bitsGet (hle : lb.toNat ≤ ub.toNat) (hub : ub.toNat < 32) (x : UInt32) (i : Nat) :
    bitOf (bitsGet x lb ub) i = (bitOf x (lb.toNat + i) && decide (i ≤ ub.toNat - lb.toNat)) := by
  have hwidth := toNat_width hle hub
  rw [bitsGet, bitOf_and, bitOf_shiftRight x (by omega), bitOf_bitsMask (by omega), hwidth]
  congr 1
  rw [decide_eq_decide]
  omega

/-- What was written to a field of a register is read from it. -/
theorem bitsGet_bitsSet (hle : lb.toNat ≤ ub.toNat) (hub : ub.toNat < 8) (x : UInt32) {v : UInt32}
    (hv : v.toNat < 2 ^ (ub.toNat - lb.toNat + 1)) :
    bitsGet (bitsSet x lb ub v).toUInt8.toUInt32 lb ub = v := by
  refine bitOf_ext fun i hi => ?_
  rw [bitOf_bitsGet hle (by omega), bitOf_toUInt8]
  by_cases hin : i ≤ ub.toNat - lb.toNat
  · rw [bitOf_bitsSet hle (by omega) x hv (by omega), if_pos (by omega), decide_eq_true hin,
      decide_eq_true (by omega), Bool.true_and, Bool.and_true]
    congr 1
    omega
  · have hpow : v.toNat < 2 ^ i :=
      Nat.lt_of_lt_of_le hv (Nat.pow_le_pow_right (by decide) (by omega))
    have habove : bitOf v i = false := Nat.testBit_lt_two_pow hpow
    rw [decide_eq_false hin, Bool.and_false, habove]

/-- Two words with the same bits in a field. -/
theorem bitsGet_congr (hle : lb.toNat ≤ ub.toNat) (hub : ub.toNat < 32) {x y : UInt32}
    (h : ∀ i, lb.toNat ≤ i → i ≤ ub.toNat → bitOf x i = bitOf y i) :
    bitsGet x lb ub = bitsGet y lb ub := by
  refine bitOf_ext fun i _ => ?_
  rw [bitOf_bitsGet hle hub, bitOf_bitsGet hle hub]
  by_cases hin : i ≤ ub.toNat - lb.toNat
  · rw [h (lb.toNat + i) (by omega) (by omega)]
  · rw [decide_eq_false hin, Bool.and_false, Bool.and_false]

/-- A register whose bits outside of the field are those of another. -/
theorem bitsGet_of_disjoint {lb' ub' : UInt32} (hle : lb.toNat ≤ ub.toNat) (hub : ub.toNat < 8)
    (hle' : lb'.toNat ≤ ub'.toNat) (hub' : ub'.toNat < 32)
    (hdisjoint : ub.toNat < lb'.toNat ∨ ub'.toNat < lb.toNat) (x : UInt32) {v : UInt32}
    (hv : v.toNat < 2 ^ (ub'.toNat - lb'.toNat + 1)) :
    bitsGet (bitsSet x lb' ub' v).toUInt8.toUInt32 lb ub = bitsGet x lb ub := by
  refine bitsGet_congr hle (by omega) fun i hlo hhi => ?_
  rw [bitOf_toUInt8, decide_eq_true (by omega), Bool.true_and,
    bitOf_bitsSet hle' hub' x hv (by omega), if_neg (by omega)]

theorem bitsGet_bitSet (hle : lb.toNat ≤ ub.toNat) (hub : ub.toNat < 8) {b : UInt32}
    (hb : b.toNat < 8) (hdisjoint : b.toNat < lb.toNat ∨ ub.toNat < b.toNat) (x : UInt32) :
    bitsGet (bitSet x b).toUInt8.toUInt32 lb ub = bitsGet x lb ub := by
  refine bitsGet_congr hle (by omega) fun i hlo hhi => ?_
  rw [bitOf_toUInt8, decide_eq_true (by omega), Bool.true_and,
    bitOf_bitSet x (by omega) (by omega), decide_eq_false (by omega), Bool.or_false]

end Field

/-- A bit that was set in a register. -/
theorem bitIsOn_bitSet {b : UInt32} (hb : b.toNat < 8) (x : UInt32) :
    bitIsOn (bitSet x b).toUInt8.toUInt32 b = 1 := by
  rw [bitIsOn_eq _ (by omega), bitOf_toUInt8, decide_eq_true hb, Bool.true_and,
    bitOf_bitSet x (by omega) (by omega), decide_eq_true rfl, Bool.or_true, if_pos rfl]

theorem bitIsOn_bitsSet {b lb ub v : UInt32} (hb : b.toNat < 8) (hle : lb.toNat ≤ ub.toNat)
    (hub : ub.toNat < 32) (hout : b.toNat < lb.toNat ∨ ub.toNat < b.toNat)
    (hv : v.toNat < 2 ^ (ub.toNat - lb.toNat + 1)) (x : UInt32) :
    bitIsOn (bitsSet x lb ub v).toUInt8.toUInt32 b = bitIsOn x b := by
  have hnot : ¬(lb.toNat ≤ b.toNat ∧ b.toNat ≤ ub.toNat) := by omega
  rw [bitIsOn_eq _ (by omega), bitIsOn_eq _ (by omega), bitOf_toUInt8, decide_eq_true hb,
    Bool.true_and, bitOf_bitsSet hle hub x hv (by omega), if_neg hnot]

end Samwise
