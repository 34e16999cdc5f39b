import Mathlib.Algebra.Polynomial.Derivative
import Mathlib.Algebra.Ring.GeomSum
import Samwise.Lib.KeyEquation

/-!
# Errors from their power sums

Over a field, finitely many errors, each with a locator and a value, the locators distinct and not 0,
the values not 0. What is known of them are the sums of their values times the powers of their
locators. The locator polynomial and the evaluator polynomial solve the key equation of the sums; the
one has the inverse locators as roots, and both together give the values.
-/

namespace ErrorLocator

open Polynomial KeyEquation

variable {F ι : Type*} [Field F]

/-- The errors: a locator and a value for each of `places`. -/
structure Errors (F ι : Type*) [Field F] where
  places : Finset ι
  locator : ι → F
  value : ι → F
  injective : Set.InjOn locator places
  locator_ne : ∀ l ∈ places, locator l ≠ 0
  value_ne : ∀ l ∈ places, value l ≠ 0

namespace Errors

variable (e : Errors F ι)

/-- The sum of the values times a power of the locators. -/
def powerSum (i : ℕ) : F := ∑ l ∈ e.places, e.value l * e.locator l ^ i

noncomputable section

/-- The first `n` power sums. -/
def syndrome (n : ℕ) : F[X] := ∑ i ∈ Finset.range n, C (e.powerSum i) * X ^ i

def factor (l : ι) : F[X] := 1 - C (e.locator l) * X

def locatorPoly : F[X] := ∏ l ∈ e.places, e.factor l

def evaluator [DecidableEq ι] : F[X] :=
  ∑ l ∈ e.places, C (e.value l) * ∏ k ∈ e.places.erase l, e.factor k

end

variable {e} {l : ι}

theorem natDegree_factor (hl : l ∈ e.places) : (e.factor l).natDegree = 1 := by
  have h : e.factor l = C (-e.locator l) * X + C 1 := by
    rw [factor, C_neg, C_1]
    ring
  rw [h]
  exact natDegree_linear (neg_ne_zero.mpr (e.locator_ne l hl))

theorem factor_ne_zero (hl : l ∈ e.places) : e.factor l ≠ 0 := by
  intro h
  have hdegree := natDegree_factor hl
  rw [h, natDegree_zero] at hdegree
  exact absurd hdegree (by decide)

theorem eval_factor (e : Errors F ι) (l : ι) (y : F) :
    (e.factor l).eval y = 1 - e.locator l * y := by
  simp [factor]

theorem natDegree_locatorPoly (e : Errors F ι) : e.locatorPoly.natDegree = e.places.card := by
  rw [locatorPoly, natDegree_prod _ _ fun l hl => factor_ne_zero hl,
    Finset.sum_congr rfl fun l hl => natDegree_factor hl, Finset.sum_const, smul_eq_mul, mul_one]

theorem coeff_zero_locatorPoly (e : Errors F ι) : e.locatorPoly.coeff 0 = 1 := by
  rw [coeff_zero_eq_eval_zero, locatorPoly, eval_prod]
  refine Finset.prod_eq_one fun l _ => ?_
  rw [eval_factor, mul_zero, sub_zero]

/-- The roots are the inverse locators. -/
theorem eval_locatorPoly_eq_zero (e : Errors F ι) (y : F) :
    e.locatorPoly.eval y = 0 ↔ ∃ l ∈ e.places, e.locator l * y = 1 := by
  rw [locatorPoly, eval_prod, Finset.prod_eq_zero_iff]
  refine exists_congr fun l => and_congr_right fun _ => ?_
  rw [eval_factor, sub_eq_zero, eq_comm]

theorem inv_locator_ne {k : ι} (hl : l ∈ e.places) (hk : k ∈ e.places) (hne : k ≠ l) :
    1 - e.locator k * (e.locator l)⁻¹ ≠ 0 := by
  intro h
  have hmul : e.locator k * (e.locator l)⁻¹ = 1 := (sub_eq_zero.mp h).symm
  have heq : e.locator k = e.locator l := (mul_inv_eq_one₀ (e.locator_ne l hl)).mp hmul
  exact hne (e.injective hk hl heq)

theorem derivative_factor (e : Errors F ι) (l : ι) : derivative (e.factor l) = C (-e.locator l) := by
  simp [factor]

/-- A geometric sum. -/
theorem factor_mul_geometric (e : Errors F ι) (l : ι) (n : ℕ) :
    e.factor l * ∑ i ∈ Finset.range n, C (e.locator l ^ i) * X ^ i =
      1 - C (e.locator l ^ n) * X ^ n := by
  have hpow (i : ℕ) : C (e.locator l ^ i) * X ^ i = (C (e.locator l) * X : F[X]) ^ i := by
    rw [mul_pow, C_pow]
  simp only [hpow, factor]
  exact mul_neg_geom_sum _ n

theorem coeff_syndrome (e : Errors F ι) {n i : ℕ} (hi : i < n) :
    (e.syndrome n).coeff i = e.powerSum i := by
  rw [syndrome, finsetSum_coeff, Finset.sum_eq_single_of_mem i (Finset.mem_range.mpr hi)]
  · rw [coeff_C_mul_X_pow, if_pos rfl]
  · intro k _ hne
    rw [coeff_C_mul_X_pow, if_neg hne.symm]

theorem syndrome_eq (e : Errors F ι) (n : ℕ) : e.syndrome n =
    ∑ l ∈ e.places, C (e.value l) * ∑ i ∈ Finset.range n, C (e.locator l ^ i) * X ^ i := by
  simp only [syndrome, powerSum, map_sum, Finset.sum_mul, Finset.mul_sum, C_mul]
  rw [Finset.sum_comm]
  refine Finset.sum_congr rfl fun l _ => Finset.sum_congr rfl fun i _ => ?_
  rw [mul_assoc]

/-! ### The evaluator -/

variable [DecidableEq ι]

theorem degree_evaluator (e : Errors F ι) : e.evaluator.degree < e.places.card := by
  refine (degree_sum_le _ _).trans_lt ?_
  rw [Finset.sup_lt_iff (WithBot.bot_lt_coe _)]
  intro l hl
  have hprod : (∏ k ∈ e.places.erase l, e.factor k).natDegree ≤ e.places.card - 1 := by
    refine (natDegree_prod_le _ _).trans ?_
    rw [Finset.sum_congr rfl fun k hk => natDegree_factor (Finset.mem_of_mem_erase hk),
      Finset.sum_const, smul_eq_mul, mul_one, Finset.card_erase_of_mem hl]
  have hpos : 0 < e.places.card := Finset.card_pos.mpr ⟨l, hl⟩
  refine degree_le_natDegree.trans_lt ?_
  exact_mod_cast ((natDegree_C_mul_le _ _).trans hprod).trans_lt (by omega)

/-- What the other factors are at an inverse locator. -/
def others (e : Errors F ι) (l : ι) : F :=
  ∏ k ∈ e.places.erase l, (1 - e.locator k * (e.locator l)⁻¹)

theorem others_ne_zero (hl : l ∈ e.places) : e.others l ≠ 0 :=
  Finset.prod_ne_zero_iff.mpr fun _ hk =>
    inv_locator_ne hl (Finset.mem_of_mem_erase hk) (Finset.ne_of_mem_erase hk)

theorem eval_prod_erase (e : Errors F ι) (l k : ι) :
    (∏ j ∈ e.places.erase k, e.factor j).eval (e.locator l)⁻¹ =
      ∏ j ∈ e.places.erase k, (1 - e.locator j * (e.locator l)⁻¹) := by
  rw [eval_prod]
  exact Finset.prod_congr rfl fun j _ => e.eval_factor j _

/-- At an inverse locator, the products without another factor have this one in them. -/
theorem eval_prod_erase_of_ne (hl : l ∈ e.places) {k : ι} (hne : k ≠ l) :
    (∏ j ∈ e.places.erase k, e.factor j).eval (e.locator l)⁻¹ = 0 := by
  rw [eval_prod_erase]
  refine Finset.prod_eq_zero (Finset.mem_erase.mpr ⟨hne.symm, hl⟩) ?_
  rw [mul_inv_cancel₀ (e.locator_ne l hl), sub_self]

theorem eval_evaluator (hl : l ∈ e.places) :
    e.evaluator.eval (e.locator l)⁻¹ = e.value l * e.others l := by
  rw [evaluator, eval_finsetSum, Finset.sum_eq_single_of_mem l hl]
  · rw [eval_mul, eval_C, eval_prod_erase]
    rfl
  · intro k _ hne
    rw [eval_mul, eval_prod_erase_of_ne hl hne, mul_zero]

theorem eval_derivative_locatorPoly (hl : l ∈ e.places) :
    (derivative e.locatorPoly).eval (e.locator l)⁻¹ = -(e.locator l * e.others l) := by
  rw [locatorPoly, derivative_prod_finset, eval_finsetSum, Finset.sum_eq_single_of_mem l hl]
  · rw [eval_mul, derivative_factor, eval_C, eval_prod_erase, others]
    ring
  · intro k _ hne
    rw [eval_mul, eval_prod_erase_of_ne hl hne, zero_mul]

/-- **The value of an error.** -/
theorem value_eq (hl : l ∈ e.places) :
    e.value l * (derivative e.locatorPoly).eval (e.locator l)⁻¹ =
      -(e.locator l * e.evaluator.eval (e.locator l)⁻¹) := by
  rw [eval_derivative_locatorPoly hl, eval_evaluator hl]
  ring

theorem eval_derivative_ne_zero (hl : l ∈ e.places) :
    (derivative e.locatorPoly).eval (e.locator l)⁻¹ ≠ 0 := by
  rw [eval_derivative_locatorPoly hl]
  exact neg_ne_zero.mpr (mul_ne_zero (e.locator_ne l hl) (others_ne_zero hl))

/-! ### The key equation -/

theorem agree_syndrome (e : Errors F ι) (n : ℕ) :
    Agree n (e.locatorPoly * e.syndrome n) e.evaluator := by
  have hterm (l : ι) (hl : l ∈ e.places) :
      e.locatorPoly * (C (e.value l) * ∑ i ∈ Finset.range n, C (e.locator l ^ i) * X ^ i) -
        C (e.value l) * ∏ k ∈ e.places.erase l, e.factor k =
      X ^ n * (-(C (e.locator l ^ n) * (C (e.value l) * ∏ k ∈ e.places.erase l, e.factor k))) := by
    have hprod : e.locatorPoly = e.factor l * ∏ k ∈ e.places.erase l, e.factor k :=
      (Finset.mul_prod_erase _ _ hl).symm
    rw [hprod]
    linear_combination (C (e.value l) * ∏ k ∈ e.places.erase l, e.factor k) *
      e.factor_mul_geometric l n
  rw [Agree, syndrome_eq, evaluator, Finset.mul_sum, ← Finset.sum_sub_distrib]
  refine Finset.dvd_sum fun l hl => ?_
  rw [hterm l hl]
  exact dvd_mul_right _ _

/-- The evaluator is 0 at no root of the locator polynomial. -/
theorem isCoprime (e : Errors F ι) : IsCoprime e.locatorPoly e.evaluator := by
  refine IsCoprime.prod_left fun l hl => ?_
  have hirreducible : Irreducible (e.factor l) :=
    irreducible_of_degree_eq_one ((degree_eq_iff_natDegree_eq_of_pos Nat.one_pos).mpr
      (natDegree_factor hl))
  refine (hirreducible.coprime_iff_not_dvd).mpr fun hdvd => ?_
  obtain ⟨q, hq⟩ := hdvd
  have heval := congrArg (eval (e.locator l)⁻¹) hq
  rw [eval_evaluator hl, eval_mul, eval_factor, mul_inv_cancel₀ (e.locator_ne l hl), sub_self,
    zero_mul] at heval
  exact mul_ne_zero (e.value_ne l hl) (others_ne_zero hl) heval

theorem solution (e : Errors F ι) (n : ℕ) :
    Solution (e.syndrome n) n e.locatorPoly e.evaluator where
  agree := e.agree_syndrome n
  coeff_zero := e.coeff_zero_locatorPoly
  degree_omega := by
    rw [natDegree_locatorPoly]
    exact e.degree_evaluator
  coprime := e.isCoprime

/-- **The iteration finds the errors**, as long as they are at most half as many as the sums. -/
theorem iterate_lambda (e : Errors F ι) {n : ℕ} (hn : 2 * e.places.card ≤ n) :
    (Massey.iterate (e.syndrome n) n).lambda = e.locatorPoly := by
  obtain ⟨omega, a, h⟩ := Massey.iterate_invariant (e.syndrome n) n
  refine h.eq_solution (e.solution n) ?_
  rwa [natDegree_locatorPoly]

/-- The coefficients of the evaluator. -/
theorem coeff_evaluator (e : Errors F ι) {n i : ℕ} (hi : i < n) :
    e.evaluator.coeff i = (e.locatorPoly * e.syndrome n).coeff i := by
  have h := X_pow_dvd_iff.mp (e.agree_syndrome n) i hi
  rw [coeff_sub] at h
  exact (sub_eq_zero.mp h).symm

/-- **No more errors than sums are not seen.** -/
theorem places_eq_empty {n : ℕ} (hn : e.places.card ≤ n) (hzero : ∀ i < n, e.powerSum i = 0) :
    e.places = ∅ := by
  by_contra hne
  obtain ⟨l, hl⟩ := Finset.nonempty_iff_ne_empty.mpr hne
  have hsyndrome : e.syndrome n = 0 := by
    refine Finset.sum_eq_zero fun i hi => ?_
    rw [hzero i (Finset.mem_range.mp hi), C_0, zero_mul]
  have hevaluator : e.evaluator = 0 := by
    have hagree := e.agree_syndrome n
    rw [hsyndrome, mul_zero] at hagree
    refine (hagree.eq ?_).symm
    rw [zero_sub, degree_neg]
    exact e.degree_evaluator.trans_le (by exact_mod_cast hn)
  have heval := eval_evaluator hl
  rw [hevaluator, eval_zero] at heval
  exact mul_ne_zero (e.value_ne l hl) (others_ne_zero hl) heval.symm

end Errors

end ErrorLocator
