import Mathlib.Algebra.BigOperators.Intervals
import Mathlib.Algebra.Field.Defs
import Mathlib.Data.List.GetD
import Samwise.Ssdv.Rs8

/-!
# Samwise — the symbols of the Reed–Solomon codec

The tables of `rs8.c` make a field of the bytes: the sum is the exclusive or, the product is taken by
logarithms. That it is distributive comes from one more way to multiply by the generator, a shift
with a reduction.
-/

namespace Samwise.Ssdv

theorem mod255_eq (x : Nat) : mod255 x = x % 255 := by
  induction x using mod255.induct with
  | case1 x h ih =>
    rw [mod255, if_pos h, ih]
    omega
  | case2 x h =>
    rw [mod255, if_neg h]
    omega

/-! ## Logarithms -/

/-- A table as one number, of which the entries are digits: they are read in one step. -/
def pack (table : List UInt8) : Nat := table.foldr (fun x n => x.toNat + 256 * n) 0

theorem toNat_getD (table : List UInt8) (i : Nat) :
    (table.getD i 0).toNat = pack table / 256 ^ i % 256 := by
  induction table generalizing i with
  | nil =>
    rw [List.getD_nil]
    exact (congrArg (· % 256) (Nat.zero_div (256 ^ i))).symm
  | cons x table ih =>
    have hlt := x.toNat_lt
    have hpack : pack (x :: table) = x.toNat + 256 * pack table := rfl
    cases i with
    | zero =>
      rw [List.getD_cons_zero, hpack, Nat.pow_zero, Nat.div_one]
      omega
    | succ i =>
      rw [List.getD_cons_succ, ih, hpack, Nat.pow_succ', ← Nat.div_div_eq_div_mul]
      congr 2
      omega

theorem index_alpha (i : Nat) (hi : i < 255) : index (alpha i) = i := by
  have hdigits : ∀ i < 255, pack indexOf / 256 ^ (pack alphaTo / 256 ^ i % 256) % 256 = i := by
    decide +kernel
  rw [index, toNat_getD, alpha, toNat_getD, hdigits i hi]

theorem index_zero : index 0 = a0 := by decide

theorem alpha_ne_zero {i : Nat} (hi : i < 255) : alpha i ≠ 0 := by
  intro h
  have hindex := index_alpha i hi
  rw [h, index_zero] at hindex
  exact absurd hindex (Nat.ne_of_gt hi)

/-- The symbols that have a logarithm are all different, and are all but 0. -/
theorem exists_alpha {x : UInt8} (hx : x ≠ 0) : ∃ i < 255, alpha i = x := by
  have hpos {y : UInt8} (hy : y ≠ 0) : 1 ≤ y.toNat :=
    Nat.pos_of_ne_zero fun h => hy (UInt8.toNat_inj.mp h)
  obtain ⟨i, hi, hx⟩ := Finset.surj_on_of_inj_on_of_card_le (s := Finset.range 255)
    (t := Finset.Ico 1 256) (fun i _ => (alpha i).toNat)
    (fun i hi => Finset.mem_Ico.mpr
      ⟨hpos (alpha_ne_zero (Finset.mem_range.mp hi)), UInt8.toNat_lt _⟩)
    (fun i j hi hj h => by
      rw [← index_alpha i (Finset.mem_range.mp hi), UInt8.toNat_inj.mp h,
        index_alpha j (Finset.mem_range.mp hj)])
    (by rw [Nat.card_Ico, Finset.card_range]) x.toNat
    (Finset.mem_Ico.mpr ⟨hpos hx, UInt8.toNat_lt x⟩)
  exact ⟨i, Finset.mem_range.mp hi, (UInt8.toNat_inj.mp hx).symm⟩

theorem alpha_index (x : UInt8) : alpha (index x) = x := by
  by_cases hx : x = 0
  · rw [hx, index_zero]
    decide
  · obtain ⟨i, hi, rfl⟩ := exists_alpha hx
    rw [index_alpha i hi]

theorem index_eq_a0 (x : UInt8) : index x = a0 ↔ x = 0 := by
  refine ⟨fun h => ?_, fun h => by rw [h]; decide⟩
  have hx := alpha_index x
  rw [h] at hx
  exact hx.symm

theorem index_le (x : UInt8) : index x ≤ 255 := Nat.le_of_lt_succ (UInt8.toNat_lt _)

theorem index_lt {x : UInt8} (hx : x ≠ 0) : index x < 255 :=
  Nat.lt_of_le_of_ne (index_le x) fun h => hx ((index_eq_a0 x).mp h)

/-- Multiplication by the generator. -/
def shift (x : UInt8) : UInt8 := (x <<< 1) ^^^ if x &&& 0x80 = 0 then 0 else 0x87

theorem tail_alphaTo : alphaTo.tail = (alphaTo.take 254).map shift ++ [0] := by decide +kernel

theorem length_alphaTo : alphaTo.length = 256 := by decide +kernel

theorem alpha_succ (i : Nat) (hi : i < 255) : alpha ((i + 1) % 255) = shift (alpha i) := by
  by_cases hlast : i = 254
  · rw [hlast]
    decide +kernel
  · have hlt : i < 254 := by omega
    have htail : alpha (i + 1) = alphaTo.tail.getD i 0 := by
      rw [alpha, List.getD_eq_getElem?_getD, List.getD_eq_getElem?_getD, List.getElem?_tail]
    have hlength : i < alphaTo.length := by
      rw [length_alphaTo]
      omega
    have hmap : i < ((alphaTo.take 254).map shift).length := by
      rw [List.length_map, List.length_take, length_alphaTo]
      exact hlt
    rw [Nat.mod_eq_of_lt (Nat.succ_lt_succ hlt), htail, tail_alphaTo, List.getD_eq_getElem?_getD,
      List.getElem?_append_left hmap, List.getElem?_map, List.getElem?_take_of_lt hlt, alpha,
      List.getD_eq_getElem?_getD, List.getElem?_eq_getElem hlength]
    rfl

theorem xor_and (x y z : UInt8) : (x ^^^ y) &&& z = (x &&& z) ^^^ (y &&& z) := by
  refine UInt8.toBitVec_inj.mp ?_
  ext i hi
  simp [Bool.and_xor_distrib_right]

theorem shift_xor (x y : UInt8) : shift (x ^^^ y) = shift x ^^^ shift y := by
  have hbit : ∀ z : UInt8, z &&& 0x80 = 0 ∨ z &&& 0x80 = 0x80 := by decide +kernel
  have hne : (0x80 : UInt8) ≠ 0 := by decide
  unfold shift
  rw [UInt8.shiftLeft_xor, xor_and]
  generalize x <<< 1 = u
  generalize y <<< 1 = w
  -- the reductions of both, where both have one, cancel
  rcases hbit x with hx | hx <;> rcases hbit y with hy | hy <;> rw [hx, hy]
  · simp
  · rw [UInt8.zero_xor, if_neg hne, if_pos rfl, UInt8.xor_zero, UInt8.xor_assoc]
  · rw [UInt8.xor_zero, if_neg hne, if_pos rfl, UInt8.xor_zero, UInt8.xor_assoc, UInt8.xor_assoc,
      UInt8.xor_comm w]
  · rw [UInt8.xor_self, if_pos rfl, if_neg hne, UInt8.xor_zero, UInt8.xor_assoc,
      UInt8.xor_comm 0x87, UInt8.xor_assoc, UInt8.xor_self, UInt8.xor_zero]

/-! ## The field -/

/-- A symbol in poly-form. -/
@[ext] structure Symbol where
  byte : UInt8
deriving DecidableEq

namespace Symbol

instance : Zero Symbol := ⟨⟨0⟩⟩

instance : One Symbol := ⟨⟨1⟩⟩

instance : Add Symbol := ⟨fun x y => ⟨x.byte ^^^ y.byte⟩⟩

instance : Neg Symbol := ⟨id⟩

instance : Mul Symbol := ⟨fun x y =>
  if x.byte = 0 ∨ y.byte = 0 then 0 else ⟨alpha ((index x.byte + index y.byte) % 255)⟩⟩

instance : Inv Symbol := ⟨fun x => if x.byte = 0 then 0 else ⟨alpha ((255 - index x.byte) % 255)⟩⟩

@[simp] theorem byte_zero : (0 : Symbol).byte = 0 := rfl

@[simp] theorem byte_add (x y : Symbol) : (x + y).byte = x.byte ^^^ y.byte := rfl

theorem byte_ne_zero {x : Symbol} : x.byte ≠ 0 ↔ x ≠ 0 := by
  rw [Ne, Ne, Symbol.ext_iff]
  rfl

theorem mul_of_ne {x y : Symbol} (hx : x ≠ 0) (hy : y ≠ 0) :
    x * y = ⟨alpha ((index x.byte + index y.byte) % 255)⟩ := by
  show (if x.byte = 0 ∨ y.byte = 0 then (0 : Symbol) else _) = _
  rw [if_neg]
  rintro (h | h)
  · exact byte_ne_zero.mpr hx h
  · exact byte_ne_zero.mpr hy h

theorem zero_mul' (x : Symbol) : 0 * x = 0 := if_pos (.inl rfl)

theorem mul_zero' (x : Symbol) : x * 0 = 0 := if_pos (.inr rfl)

/-- Where the product is not 0, so is its logarithm the sum. -/
theorem index_mul {x y : Symbol} (hx : x ≠ 0) (hy : y ≠ 0) :
    (x * y) ≠ 0 ∧ index (x * y).byte = (index x.byte + index y.byte) % 255 := by
  have hlt : (index x.byte + index y.byte) % 255 < 255 := Nat.mod_lt _ (by decide)
  rw [mul_of_ne hx hy]
  exact ⟨byte_ne_zero.mp (alpha_ne_zero hlt), index_alpha _ hlt⟩

theorem mul_comm' (x y : Symbol) : x * y = y * x := by
  by_cases hx : x = 0
  · rw [hx, zero_mul', mul_zero']
  by_cases hy : y = 0
  · rw [hy, zero_mul', mul_zero']
  rw [mul_of_ne hx hy, mul_of_ne hy hx, Nat.add_comm]

theorem mul_assoc' (x y z : Symbol) : x * y * z = x * (y * z) := by
  by_cases hx : x = 0
  · rw [hx, zero_mul', zero_mul', zero_mul']
  by_cases hy : y = 0
  · rw [hy, mul_zero', zero_mul', mul_zero']
  by_cases hz : z = 0
  · rw [hz, mul_zero', mul_zero', mul_zero']
  obtain ⟨hxy, hxyIndex⟩ := index_mul hx hy
  obtain ⟨hyz, hyzIndex⟩ := index_mul hy hz
  rw [mul_of_ne hxy hz, mul_of_ne hx hyz, hxyIndex, hyzIndex, Nat.mod_add_mod, Nat.add_mod_mod,
    Nat.add_assoc]

theorem one_ne_zero' : (1 : Symbol) ≠ 0 := by decide

theorem one_mul' (x : Symbol) : 1 * x = x := by
  by_cases hx : x = 0
  · rw [hx, mul_zero']
  have hone : index (1 : Symbol).byte = 0 := by decide
  have hlt : index x.byte < 255 := index_lt (byte_ne_zero.mpr hx)
  rw [mul_of_ne one_ne_zero' hx, hone, Nat.zero_add, Nat.mod_eq_of_lt hlt, alpha_index]

/-- The generator. -/
def generator : Symbol := ⟨2⟩

theorem generator_mul (x : Symbol) : generator * x = ⟨shift x.byte⟩ := by
  by_cases hx : x = 0
  · rw [hx, mul_zero']
    rfl
  have hgenerator : index generator.byte = 1 := by decide
  have hlt : index x.byte < 255 := index_lt (byte_ne_zero.mpr hx)
  rw [mul_of_ne (by decide) hx, hgenerator, Nat.add_comm, alpha_succ _ hlt, alpha_index]

theorem generator_mul_add (x y : Symbol) : generator * (x + y) = generator * x + generator * y := by
  rw [generator_mul, generator_mul, generator_mul, byte_add, shift_xor]
  rfl

/-- Induction on the logarithm. -/
theorem alpha_mul_add {i : Nat} (hi : i < 255) (x y : Symbol) :
    ⟨alpha i⟩ * (x + y) = ⟨alpha i⟩ * x + ⟨alpha i⟩ * y := by
  induction i with
  | zero =>
    have hone : (⟨alpha 0⟩ : Symbol) = 1 := by decide
    rw [hone, one_mul', one_mul', one_mul']
  | succ i ih =>
    have hlt : i < 255 := Nat.lt_of_succ_lt hi
    have hsucc : (⟨alpha (i + 1)⟩ : Symbol) = generator * ⟨alpha i⟩ := by
      rw [generator_mul, ← alpha_succ i hlt, Nat.mod_eq_of_lt hi]
    rw [hsucc, mul_assoc', ih hlt, generator_mul_add, ← mul_assoc', ← mul_assoc']

theorem mul_add' (x y z : Symbol) : x * (y + z) = x * y + x * z := by
  by_cases hx : x = 0
  · rw [hx, zero_mul', zero_mul', zero_mul']
    rfl
  have hlog : (⟨alpha (index x.byte)⟩ : Symbol) = x := Symbol.ext (alpha_index x.byte)
  rw [← hlog]
  exact alpha_mul_add (index_lt (byte_ne_zero.mpr hx)) y z

theorem mul_inv' {x : Symbol} (hx : x ≠ 0) : x * x⁻¹ = 1 := by
  have hlt : index x.byte < 255 := index_lt (byte_ne_zero.mpr hx)
  have hinv : x⁻¹ = ⟨alpha ((255 - index x.byte) % 255)⟩ := if_neg (byte_ne_zero.mpr hx)
  have hmod : (255 - index x.byte) % 255 < 255 := Nat.mod_lt _ (by decide)
  have hne : x⁻¹ ≠ 0 := by
    rw [hinv]
    exact byte_ne_zero.mp (alpha_ne_zero hmod)
  rw [mul_of_ne hx hne, hinv, index_alpha _ hmod, Nat.add_mod_mod,
    Nat.add_sub_cancel' (Nat.le_of_lt hlt)]
  decide

instance : Field Symbol where
  add_assoc x y z := Symbol.ext (UInt8.xor_assoc _ _ _)
  zero_add x := Symbol.ext UInt8.zero_xor
  add_zero x := Symbol.ext UInt8.xor_zero
  add_comm x y := Symbol.ext (UInt8.xor_comm _ _)
  nsmul := nsmulRec
  neg_add_cancel x := Symbol.ext UInt8.xor_self
  zsmul := zsmulRec
  left_distrib := mul_add'
  right_distrib x y z := by rw [mul_comm', mul_add', mul_comm' z x, mul_comm' z y]
  zero_mul := zero_mul'
  mul_zero := mul_zero'
  mul_assoc := mul_assoc'
  one_mul := one_mul'
  mul_one x := by rw [mul_comm', one_mul']
  mul_comm := mul_comm'
  exists_pair_ne := ⟨0, 1, one_ne_zero'.symm⟩
  mul_inv_cancel _ hx := mul_inv' hx
  inv_zero := if_pos rfl
  nnqsmul := _
  qsmul := _

theorem add_self (x : Symbol) : x + x = 0 := Symbol.ext UInt8.xor_self

theorem neg_eq (x : Symbol) : -x = x := rfl

theorem sub_eq (x y : Symbol) : x - y = x + y := sub_eq_add_neg x y

theorem eq_of_add_eq_zero {x y : Symbol} (h : x + y = 0) : x = y := eq_neg_of_add_eq_zero_left h

/-! ### Powers of the generator -/

theorem generator_pow (i : Nat) : generator ^ i = ⟨alpha (i % 255)⟩ := by
  induction i with
  | zero => decide
  | succ i ih =>
    have hlt : i % 255 < 255 := Nat.mod_lt _ (by decide)
    rw [pow_succ', ih, generator_mul, ← alpha_succ _ hlt, Nat.mod_add_mod]

theorem mk_alpha (i : Nat) : (⟨alpha (mod255 i)⟩ : Symbol) = generator ^ i := by
  rw [mod255_eq, generator_pow]

theorem generator_pow_index {x : UInt8} (hx : x ≠ 0) : generator ^ index x = ⟨x⟩ := by
  rw [generator_pow, Nat.mod_eq_of_lt (index_lt hx), alpha_index]

theorem generator_pow_eq_iff {i j : Nat} : generator ^ i = generator ^ j ↔ i % 255 = j % 255 := by
  rw [generator_pow, generator_pow, Symbol.mk.injEq]
  refine ⟨fun h => ?_, fun h => by rw [h]⟩
  have hindex := congrArg index h
  rwa [index_alpha _ (Nat.mod_lt _ (by decide)), index_alpha _ (Nat.mod_lt _ (by decide))] at hindex

theorem generator_ne_zero : generator ≠ 0 := by decide

/-- A symbol from its index form. -/
def ofIndex (i : Nat) : Symbol := if i = a0 then 0 else generator ^ i

theorem ofIndex_index (x : UInt8) : ofIndex (index x) = ⟨x⟩ := by
  unfold ofIndex
  by_cases hx : x = 0
  · rw [if_pos ((index_eq_a0 x).mpr hx), hx]
    rfl
  · rw [if_neg fun h => hx ((index_eq_a0 x).mp h), generator_pow_index hx]

theorem mk_xor (x y : UInt8) : (⟨x ^^^ y⟩ : Symbol) = ⟨x⟩ + ⟨y⟩ := rfl

theorem mk_xorSum_range (n : Nat) (f : Nat → UInt8) :
    (⟨xorSum ((List.range n).map f)⟩ : Symbol) = ∑ i ∈ Finset.range n, ⟨f i⟩ := by
  induction n with
  | zero => rfl
  | succ n ih =>
    rw [List.range_succ, List.map_append, List.map_cons, List.map_nil, xorSum, List.foldl_append,
      Finset.sum_range_succ, ← ih]
    rfl

end Symbol

end Samwise.Ssdv
