import Mathlib.Algebra.Order.Floor.Ring
import Mathlib.Algebra.Ring.CharZero
import Mathlib.Algebra.Ring.Int.Parity
import Mathlib.Data.Int.Log
import Mathlib.Tactic.FieldSimp
import Mathlib.Tactic.Linarith
import Mathlib.Tactic.Positivity
import Mathlib.Tactic.Ring

/-!
# Binary floating point

Positive numbers rounded to `p` significant bits, to nearest and of two to the even one, with
no bound on the exponent. What a rounding comes to is told by comparison: with a number `y`
that has `p` bits, the rounding of `x` stays below or goes above `y` according to the side of
`y + ulp p y / 2` that `x` is on.
-/

namespace BinaryFloat

variable {K : Type*} [Field K] [LinearOrder K] [IsStrictOrderedRing K] [FloorRing K]

/-! ## Rounding to an integer -/

/-- The nearest integer, of two the even one. -/
def roundEven (x : K) : ℤ :=
  if Int.fract x < 1 / 2 then ⌊x⌋
  else if 1 / 2 < Int.fract x then ⌊x⌋ + 1
  else if Even ⌊x⌋ then ⌊x⌋
  else ⌊x⌋ + 1

theorem abs_roundEven_sub_le (x : K) : |(roundEven x : K) - x| ≤ 1 / 2 := by
  have hx := Int.floor_add_fract x
  have hlo := Int.fract_nonneg x
  have hhi := Int.fract_lt_one x
  rw [abs_le]
  unfold roundEven
  split_ifs <;> push_cast <;> constructor <;> linarith

theorem roundEven_le {x : K} {m : ℤ} (h : x < m + 1 / 2) : roundEven x ≤ m := by
  have herror := (abs_le.mp (abs_roundEven_sub_le x)).2
  have hlt : (roundEven x : K) < (m + 1 : ℤ) := by
    push_cast
    linarith
  exact Int.lt_add_one_iff.mp (Int.cast_lt.mp hlt)

theorem le_roundEven {x : K} {m : ℤ} (h : m - 1 / 2 < x) : m ≤ roundEven x := by
  have herror := (abs_le.mp (abs_roundEven_sub_le x)).1
  have hlt : (m : K) < (roundEven x + 1 : ℤ) := by
    push_cast
    linarith
  exact Int.lt_add_one_iff.mp (Int.cast_lt.mp hlt)

/-! ## Rounding to `p` bits -/

/-- The distance of the numbers with `p` bits that are as large as `x`. -/
def ulp (p : ℕ) (x : K) : K := 2 ^ (Int.log 2 x + 1 - p)

/-- `x` with `p` significant bits. -/
def roundTo (p : ℕ) (x : K) : K := roundEven (x / ulp p x) * ulp p x

/-- The number has `p` bits at most. -/
def Representable (p : ℕ) (x : K) : Prop := ∃ m : ℤ, x = m * ulp p x

variable {p : ℕ} {x y : K}

theorem ulp_pos (p : ℕ) (x : K) : 0 < ulp p x := zpow_pos two_pos _

theorem abs_roundTo_sub_le (p : ℕ) (x : K) : |roundTo p x - x| ≤ ulp p x / 2 := by
  have hpos := ulp_pos p x
  have herror := abs_roundEven_sub_le (x / ulp p x)
  have heq : roundTo p x - x = (roundEven (x / ulp p x) - x / ulp p x) * ulp p x := by
    rw [sub_mul, div_mul_cancel₀ _ hpos.ne']
    rfl
  rw [heq, abs_mul, abs_of_pos hpos]
  calc |(roundEven (x / ulp p x) : K) - x / ulp p x| * ulp p x
      ≤ 1 / 2 * ulp p x := mul_le_mul_of_nonneg_right herror hpos.le
    _ = ulp p x / 2 := by ring

/-- Below the middle behind a multiple of its `ulp`, a number is rounded to the multiple at
most. -/
theorem roundTo_le_mul {m : ℤ} (h : x < (m + 1 / 2) * ulp p x) : roundTo p x ≤ m * ulp p x := by
  have hpos := ulp_pos p x
  refine mul_le_mul_of_nonneg_right (Int.cast_le.mpr (roundEven_le ?_)) hpos.le
  rwa [div_lt_iff₀ hpos]

theorem mul_le_roundTo {m : ℤ} (h : (m - 1 / 2) * ulp p x < x) : m * ulp p x ≤ roundTo p x := by
  have hpos := ulp_pos p x
  refine mul_le_mul_of_nonneg_right (Int.cast_le.mpr (le_roundEven ?_)) hpos.le
  rwa [lt_div_iff₀ hpos]

/-- A number that has `p` bits is as it was. -/
theorem Representable.roundTo_eq (h : Representable p x) : roundTo p x = x := by
  have hpos := ulp_pos p x
  obtain ⟨m, hm⟩ := h
  apply le_antisymm
  · calc roundTo p x ≤ m * ulp p x := roundTo_le_mul (by linarith)
      _ = x := hm.symm
  · calc x = m * ulp p x := hm
      _ ≤ roundTo p x := mul_le_roundTo (by linarith)

/-! ## Powers of two -/

theorem zpow_log_le (hx : 0 < x) : (2 : K) ^ Int.log 2 x ≤ x := by
  exact_mod_cast Int.zpow_log_le_self Nat.one_lt_two hx

theorem lt_zpow_log_add_one (x : K) : x < (2 : K) ^ (Int.log 2 x + 1) := by
  exact_mod_cast Int.lt_zpow_succ_log_self Nat.one_lt_two x

omit [IsStrictOrderedRing K] in
/-- The power of two above `x` is `2 ^ p` steps away from zero. -/
theorem zpow_log_add_one_eq (p : ℕ) (x : K) :
    (2 : K) ^ (Int.log 2 x + 1) = ((2 ^ p : ℕ) : ℤ) * ulp p x := by
  have hexp : Int.log 2 x + 1 = p + (Int.log 2 x + 1 - p) := by ring
  rw [ulp]
  conv_lhs => rw [hexp]
  rw [zpow_add₀ two_ne_zero, zpow_natCast]
  push_cast
  rfl

omit [IsStrictOrderedRing K] in
/-- The one below is half as far. -/
theorem zpow_log_eq (hp : 0 < p) (x : K) :
    (2 : K) ^ Int.log 2 x = ((2 ^ (p - 1) : ℕ) : ℤ) * ulp p x := by
  have hexp : Int.log 2 x = ((p - 1 : ℕ) : ℤ) + (Int.log 2 x + 1 - p) := by omega
  rw [ulp]
  conv_lhs => rw [hexp]
  rw [zpow_add₀ two_ne_zero, zpow_natCast]
  push_cast
  rfl

omit [IsStrictOrderedRing K] in
/-- The steps of larger numbers are multiples of those of smaller ones. -/
theorem ulp_eq_mul (h : Int.log 2 x ≤ Int.log 2 y) :
    ulp p y = ((2 ^ (Int.log 2 y - Int.log 2 x).toNat : ℕ) : ℤ) * ulp p x := by
  have hexp : Int.log 2 y + 1 - p
      = ((Int.log 2 y - Int.log 2 x).toNat : ℤ) + (Int.log 2 x + 1 - p) := by omega
  rw [ulp, ulp, hexp, zpow_add₀ two_ne_zero, zpow_natCast]
  push_cast
  rfl

theorem zpow_two_le_zpow {i j : ℤ} (h : i ≤ j) : (2 : K) ^ i ≤ 2 ^ j :=
  zpow_le_zpow_right₀ one_le_two h

/-- Rounding does not pass the power of two below. -/
theorem zpow_log_le_roundTo (hp : 0 < p) (hx : 0 < x) : (2 : K) ^ Int.log 2 x ≤ roundTo p x := by
  have hle := zpow_log_le hx
  have hpos := ulp_pos p x
  rw [zpow_log_eq hp] at hle ⊢
  apply mul_le_roundTo
  linarith

theorem roundTo_pos (hp : 0 < p) (hx : 0 < x) : 0 < roundTo p x :=
  lt_of_lt_of_le (zpow_pos two_pos _) (zpow_log_le_roundTo hp hx)

/-- A number with `p` bits and its next one are both up to the next power of two. -/
theorem Representable.add_ulp_le (h : Representable p y) :
    y + ulp p y ≤ 2 ^ (Int.log 2 y + 1) := by
  have hlt := lt_zpow_log_add_one y
  have hpos := ulp_pos p y
  obtain ⟨m, hm⟩ := h
  rw [zpow_log_add_one_eq p] at hlt ⊢
  have hm' : (m : K) * ulp p y < ((2 ^ p : ℕ) : ℤ) * ulp p y := by rwa [← hm]
  have hlt' : m + 1 ≤ ((2 ^ p : ℕ) : ℤ) :=
    Int.add_one_le_iff.mpr (Int.cast_lt.mp (lt_of_mul_lt_mul_right hm' hpos.le))
  calc y + ulp p y = ((m + 1 : ℤ) : K) * ulp p y := by
        push_cast
        rw [add_mul, one_mul, ← hm]
    _ ≤ ((2 ^ p : ℕ) : ℤ) * ulp p y := mul_le_mul_of_nonneg_right (Int.cast_le.mpr hlt') hpos.le

/-! ## Comparing a rounding -/

/-- Below the middle behind `y`, a number is rounded to `y` at most. -/
theorem roundTo_le (hx : 0 < x) (hy : 0 < y) (hrep : Representable p y)
    (h : x < y + ulp p y / 2) : roundTo p x ≤ y := by
  have hupos := ulp_pos p y
  have hpos := ulp_pos p x
  have hlog : Int.log 2 x ≤ Int.log 2 y := by
    refine Int.not_lt.mp fun hlt => ?_
    have hpow : (2 : K) ^ (Int.log 2 y + 1) ≤ 2 ^ Int.log 2 x := zpow_two_le_zpow hlt
    have := zpow_log_le hx
    have := hrep.add_ulp_le
    linarith
  -- `y` is a multiple of the steps of `x`, and `x` is below the middle behind it
  obtain ⟨m, hm⟩ := hrep
  have hmul : y = ((m * (2 ^ (Int.log 2 y - Int.log 2 x).toNat : ℕ) : ℤ) : K) * ulp p x := by
    push_cast
    rw [mul_assoc]
    conv_lhs => rw [hm, ulp_eq_mul hlog]
    push_cast
    rfl
  have hlt : x < y + ulp p x / 2 := by
    obtain heq | hlt := hlog.eq_or_lt
    · rwa [ulp, heq]
    · have hpow : (2 : K) ^ (Int.log 2 x + 1) ≤ 2 ^ Int.log 2 y := zpow_two_le_zpow hlt
      have := lt_zpow_log_add_one x
      have := zpow_log_le hy
      linarith
  conv_rhs => rw [hmul]
  apply roundTo_le_mul
  rw [add_mul, ← hmul]
  linarith

/-- Above it, a number is rounded above `y`. -/
theorem lt_roundTo (hp : 0 < p) (hy : 0 < y) (hrep : Representable p y)
    (h : y + ulp p y / 2 < x) : y < roundTo p x := by
  have hupos := ulp_pos p y
  have hxy : y < x := by linarith
  have hlog : Int.log 2 y ≤ Int.log 2 x := Int.log_mono_right hy hxy.le
  obtain heq | hlt := hlog.eq_or_lt
  · obtain ⟨m, hm⟩ := hrep
    have hulp : ulp p x = ulp p y := by rw [ulp, ulp, heq]
    have hnext : ((m + 1 : ℤ) : K) * ulp p x ≤ roundTo p x := by
      apply mul_le_roundTo
      rw [hulp]
      push_cast
      linarith
    rw [hulp] at hnext
    push_cast at hnext
    linarith
  · have hpow : (2 : K) ^ (Int.log 2 y + 1) ≤ 2 ^ Int.log 2 x := zpow_two_le_zpow hlt
    calc y < 2 ^ (Int.log 2 y + 1) := lt_zpow_log_add_one y
      _ ≤ 2 ^ Int.log 2 x := hpow
      _ ≤ roundTo p x := zpow_log_le_roundTo hp (hy.trans hxy)

/-- Natural numbers of at most `p` bits. -/
theorem representable_natCast {n : ℕ} (hn : n < 2 ^ p) : Representable p (n : K) := by
  have hlog : Nat.log 2 n + 1 ≤ p ∨ p = 0 := by
    obtain rfl | hp := Nat.eq_zero_or_pos p
    · exact .inr rfl
    · refine .inl ?_
      by_cases hzero : n = 0
      · rw [hzero, Nat.log_zero_right]
        exact hp
      · exact Nat.log_lt_of_lt_pow hzero hn
  obtain hlog | rfl := hlog
  · refine ⟨n * (2 ^ (p - (Nat.log 2 n + 1)) : ℕ), ?_⟩
    have hexp : (Nat.log 2 n : ℤ) + 1 - p = -((p - (Nat.log 2 n + 1) : ℕ) : ℤ) := by omega
    rw [ulp, Int.log_natCast, hexp, zpow_neg, zpow_natCast]
    push_cast
    field_simp
  · obtain rfl : n = 0 := by omega
    exact ⟨0, by simp⟩

end BinaryFloat
