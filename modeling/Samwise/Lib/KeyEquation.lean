import Mathlib.Algebra.Polynomial.FieldDivision
import Mathlib.Tactic.LinearCombination

/-!
# The key equation

Over a field, for a polynomial `S` of which the coefficients below `n` are known: the pairs `lambda`
and `omega` with `lambda * S ≡ omega` modulo `X ^ n`. The iteration of Berlekamp and Massey takes in one
coefficient at a time and keeps a second pair besides. Where there is a pair of coprime polynomials
of a degree not above `n / 2`, it ends with that pair.
-/

namespace KeyEquation

open Polynomial

variable {F : Type*} [Field F]

/-- `p` and `q` have the same coefficients below `n`. -/
def Agree (n : ℕ) (p q : F[X]) : Prop := X ^ n ∣ p - q

namespace Agree

variable {n : ℕ} {p q : F[X]}

theorem mono {m : ℕ} (h : Agree n p q) (hm : m ≤ n) : Agree m p q := (pow_dvd_pow X hm).trans h

theorem mul_left (h : Agree n p q) (u : F[X]) : Agree n (u * p) (u * q) := by
  unfold Agree
  rw [← mul_sub]
  exact Dvd.dvd.mul_left h u

theorem sub {p' q' : F[X]} (h : Agree n p q) (h' : Agree n p' q') : Agree n (p - p') (q - q') := by
  have hsub : p - p' - (q - q') = p - q - (p' - q') := by ring
  unfold Agree
  rw [hsub]
  exact dvd_sub h h'

theorem trans {u : F[X]} (h : Agree n p q) (h' : Agree n q u) : Agree n p u := by
  have hadd : p - u = p - q + (q - u) := by ring
  unfold Agree
  rw [hadd]
  exact dvd_add h h'

theorem symm (h : Agree n p q) : Agree n q p := by
  unfold Agree
  rw [← neg_sub]
  exact h.neg_right

/-- One place further, where the next coefficients differ by `d`. -/
theorem succ (h : Agree n p q) {d : F} (hd : p.coeff n - q.coeff n = d) :
    Agree (n + 1) p (q + C d * X ^ n) := by
  rw [Agree, X_pow_dvd_iff] at h ⊢
  intro i hi
  rcases Nat.lt_succ_iff_lt_or_eq.mp hi with hlt | rfl
  · have hcoeff := h i hlt
    rw [coeff_sub] at hcoeff
    rw [coeff_sub, coeff_add, coeff_C_mul, coeff_X_pow, if_neg (Nat.ne_of_lt hlt), mul_zero,
      add_zero, hcoeff]
  · rw [coeff_sub, coeff_add, coeff_C_mul, coeff_X_pow, if_pos rfl, mul_one, ← hd]
    ring

/-- Polynomials of a lower degree that agree are equal. -/
theorem eq (h : Agree n p q) (hdegree : (p - q).degree < n) : p = q := by
  have hzero : p - q = 0 := by
    refine Polynomial.eq_zero_of_dvd_of_degree_lt h ?_
    rwa [degree_X_pow]
  exact sub_eq_zero.mp hzero

end Agree

/-! ## The iteration -/

/-- What the iteration keeps: a polynomial and the length that it answers for, and another one. -/
structure Massey (F : Type*) [Field F] where
  lambda : F[X]
  b : F[X]
  el : ℕ

namespace Massey

noncomputable section

def start : Massey F := ⟨1, 1, 0⟩

/-- The coefficient that `lambda * S` should not have. -/
def discrepancy (S : F[X]) (r : ℕ) (m : Massey F) : F := (m.lambda * S).coeff r

open Classical in
/-- The coefficient `r` of `S` is taken in. -/
def step (S : F[X]) (r : ℕ) (m : Massey F) : Massey F :=
  if m.discrepancy S r = 0 then { m with b := X * m.b }
  else
    { lambda := m.lambda - C (m.discrepancy S r) * (X * m.b)
      b := if 2 * m.el ≤ r then C (m.discrepancy S r)⁻¹ * m.lambda else X * m.b
      el := if 2 * m.el ≤ r then r + 1 - m.el else m.el }

/-- The first `r` coefficients of `S`. -/
def iterate (S : F[X]) : ℕ → Massey F
  | 0 => start
  | r + 1 => (iterate S r).step S r

end

/-- After `r` steps, with the right hand sides of the two pairs. -/
structure Invariant (S : F[X]) (r : ℕ) (m : Massey F) (omega a : F[X]) : Prop where
  agree : Agree r (m.lambda * S) omega
  agreeB : Agree (r + 1) (X * m.b * S) (a + X ^ r)
  det : m.lambda * a - omega * (X * m.b) = -X ^ r
  coeff_zero : m.lambda.coeff 0 = 1
  degree_lambda : m.lambda.natDegree ≤ m.el
  degree_omega : omega.degree < m.el
  degree_b : m.b.natDegree + m.el ≤ r
  degree_a : a.natDegree + m.el ≤ r

variable {S omega a : F[X]} {r : ℕ} {m : Massey F}

theorem invariant_start : Invariant S 0 start 0 (-1) where
  agree := by
    rw [Agree, pow_zero]
    exact one_dvd _
  agreeB := by
    have h : X * start.b * S - (-1 + X ^ 0) = X ^ (0 + 1) * S := by
      simp only [start]
      ring
    rw [Agree, h]
    exact dvd_mul_right _ _
  det := by
    simp only [start]
    ring
  coeff_zero := by simp [start]
  degree_lambda := by simp [start]
  degree_omega := by simp [start]
  degree_b := by simp [start]
  degree_a := by simp [start]

theorem natDegree_X_mul_add_le {p : F[X]} {l : ℕ} (h : p.natDegree + l ≤ r) :
    (X * p).natDegree + l ≤ r + 1 := by
  have hp : (X * p).natDegree ≤ 1 + p.natDegree := natDegree_mul_le_of_le natDegree_X_le le_rfl
  omega

namespace Invariant

/-- The discrepancy is what `lambda * S` and `omega` differ by. -/
theorem agree_succ (h : Invariant S r m omega a) :
    Agree (r + 1) (m.lambda * S) (omega + C (m.discrepancy S r) * X ^ r) := by
  have hel : (m.el : WithBot ℕ) ≤ r := by
    have := h.degree_b
    exact_mod_cast (by omega : m.el ≤ r)
  have hcoeff : omega.coeff r = 0 := coeff_eq_zero_of_degree_lt (h.degree_omega.trans_le hel)
  exact h.agree.succ (by rw [hcoeff, sub_zero]; rfl)

/-- The second pair, multiplied by `X`. -/
theorem agreeB_shift (h : Invariant S r m omega a) :
    Agree (r + 1 + 1) (X * (X * m.b) * S) (X * a + X ^ (r + 1)) := by
  have hmul : X * (X * m.b) * S - (X * a + X ^ (r + 1)) = X * (X * m.b * S - (a + X ^ r)) := by ring
  rw [Agree, hmul, pow_succ' X (r + 1)]
  exact mul_dvd_mul_left X h.agreeB

/-- Without a discrepancy. -/
theorem keep (h : Invariant S r m omega a) (hzero : m.discrepancy S r = 0) :
    Invariant S (r + 1) { m with b := X * m.b } omega (X * a) where
  agree := by
    have hsucc := h.agree_succ
    rwa [hzero, C_0, zero_mul, add_zero] at hsucc
  agreeB := h.agreeB_shift
  det := by
    have hdet : m.lambda * (X * a) - omega * (X * (X * m.b)) =
        X * (m.lambda * a - omega * (X * m.b)) := by ring
    rw [hdet, h.det]
    ring
  coeff_zero := h.coeff_zero
  degree_lambda := h.degree_lambda
  degree_omega := h.degree_omega
  degree_b := natDegree_X_mul_add_le h.degree_b
  degree_a := natDegree_X_mul_add_le h.degree_a

/-- With a discrepancy, `lambda` is corrected by `b`. -/
theorem corrected (h : Invariant S r m omega a) :
    Agree (r + 1) ((m.lambda - C (m.discrepancy S r) * (X * m.b)) * S)
      (omega - C (m.discrepancy S r) * a) := by
  have hsub := h.agree_succ.sub (h.agreeB.mul_left (C (m.discrepancy S r)))
  have hleft : m.lambda * S - C (m.discrepancy S r) * (X * m.b * S) =
      (m.lambda - C (m.discrepancy S r) * (X * m.b)) * S := by ring
  have hright : omega + C (m.discrepancy S r) * X ^ r - C (m.discrepancy S r) * (a + X ^ r) =
      omega - C (m.discrepancy S r) * a := by ring
  rwa [hleft, hright] at hsub

theorem coeff_zero_corrected (h : Invariant S r m omega a) :
    (m.lambda - C (m.discrepancy S r) * (X * m.b)).coeff 0 = 1 := by
  rw [coeff_sub, coeff_C_mul, coeff_X_mul_zero, mul_zero, sub_zero, h.coeff_zero]

theorem natDegree_corrected (h : Invariant S r m omega a) :
    (m.lambda - C (m.discrepancy S r) * (X * m.b)).natDegree ≤ max m.el (r + 1 - m.el) := by
  have hb : (X * m.b).natDegree ≤ 1 + m.b.natDegree := natDegree_mul_le_of_le natDegree_X_le le_rfl
  have hcb := (natDegree_C_mul_le (m.discrepancy S r) (X * m.b)).trans hb
  have hdegree := h.degree_b
  refine (natDegree_sub_le _ _).trans (max_le_max h.degree_lambda ?_)
  omega

theorem degree_corrected (h : Invariant S r m omega a) {l : ℕ} (hl : m.el ≤ l)
    (ha : r + 1 - m.el ≤ l) : (omega - C (m.discrepancy S r) * a).degree < l := by
  refine (degree_sub_le _ _).trans_lt (max_lt (h.degree_omega.trans_le (by exact_mod_cast hl)) ?_)
  have hdegree := h.degree_a
  have hle : (C (m.discrepancy S r) * a).natDegree < l :=
    (natDegree_C_mul_le _ _).trans_lt (by omega)
  exact degree_le_natDegree.trans_lt (by exact_mod_cast hle)

/-- With a discrepancy, and `lambda` as long as it has to be. -/
theorem correct (h : Invariant S r m omega a) (hlong : r + 1 - m.el ≤ m.el) :
    Invariant S (r + 1)
      { m with lambda := m.lambda - C (m.discrepancy S r) * (X * m.b), b := X * m.b }
      (omega - C (m.discrepancy S r) * a) (X * a) where
  agree := h.corrected
  agreeB := h.agreeB_shift
  det := by
    have hdet : (m.lambda - C (m.discrepancy S r) * (X * m.b)) * (X * a) -
        (omega - C (m.discrepancy S r) * a) * (X * (X * m.b)) =
        X * (m.lambda * a - omega * (X * m.b)) := by ring
    rw [hdet, h.det]
    ring
  coeff_zero := h.coeff_zero_corrected
  degree_lambda := h.natDegree_corrected.trans (max_le le_rfl hlong)
  degree_omega := h.degree_corrected le_rfl hlong
  degree_b := natDegree_X_mul_add_le h.degree_b
  degree_a := natDegree_X_mul_add_le h.degree_a

/-- With a discrepancy, and `lambda` too short for it: the old one is kept as `b`. -/
theorem exchange (h : Invariant S r m omega a) (hne : m.discrepancy S r ≠ 0)
    (hshort : m.el ≤ r + 1 - m.el) :
    Invariant S (r + 1)
      { lambda := m.lambda - C (m.discrepancy S r) * (X * m.b)
        b := C (m.discrepancy S r)⁻¹ * m.lambda
        el := r + 1 - m.el }
      (omega - C (m.discrepancy S r) * a) (C (m.discrepancy S r)⁻¹ * (X * omega)) where
  agree := h.corrected
  agreeB := by
    have hinv : C (m.discrepancy S r)⁻¹ * C (m.discrepancy S r) = (1 : F[X]) := by
      rw [← C_mul, inv_mul_cancel₀ hne, C_1]
    have hmul : X * (C (m.discrepancy S r)⁻¹ * m.lambda) * S -
        (C (m.discrepancy S r)⁻¹ * (X * omega) + X ^ (r + 1)) =
        C (m.discrepancy S r)⁻¹ *
          (X * (m.lambda * S - (omega + C (m.discrepancy S r) * X ^ r))) := by
      linear_combination X ^ (r + 1) * hinv
    rw [Agree, hmul, pow_succ' X (r + 1)]
    exact Dvd.dvd.mul_left (mul_dvd_mul_left X h.agree_succ) _
  det := by
    have hinv : C (m.discrepancy S r)⁻¹ * C (m.discrepancy S r) = (1 : F[X]) := by
      rw [← C_mul, inv_mul_cancel₀ hne, C_1]
    linear_combination X * h.det +
      (X * (m.lambda * a - omega * (X * m.b))) * hinv
  coeff_zero := h.coeff_zero_corrected
  degree_lambda := h.natDegree_corrected.trans (max_le hshort le_rfl)
  degree_omega := h.degree_corrected hshort le_rfl
  degree_b := by
    have hb := (natDegree_C_mul_le (m.discrepancy S r)⁻¹ m.lambda).trans h.degree_lambda
    show (C (m.discrepancy S r)⁻¹ * m.lambda).natDegree + (r + 1 - m.el) ≤ r + 1
    omega
  degree_a := by
    have homega : (X * omega).natDegree ≤ m.el := by
      by_cases hzero : omega = 0
      · rw [hzero, mul_zero, natDegree_zero]
        exact Nat.zero_le _
      · rw [natDegree_X_mul hzero]
        exact (natDegree_lt_iff_degree_lt hzero).mpr h.degree_omega
    have hc := (natDegree_C_mul_le (m.discrepancy S r)⁻¹ (X * omega)).trans homega
    show (C (m.discrepancy S r)⁻¹ * (X * omega)).natDegree + (r + 1 - m.el) ≤ r + 1
    omega

end Invariant

/-- **What a step keeps.** One case for each way in which the code goes. -/
theorem step_invariant (h : Invariant S r m omega a) :
    ∃ omega' a', Invariant S (r + 1) (m.step S r) omega' a' := by
  unfold step
  split
  · next hzero => exact ⟨_, _, h.keep hzero⟩
  · next hne =>
    by_cases hshort : 2 * m.el ≤ r
    · rw [if_pos hshort, if_pos hshort]
      exact ⟨_, _, h.exchange hne (by omega)⟩
    · rw [if_neg hshort, if_neg hshort]
      exact ⟨_, _, h.correct (by omega)⟩

/-- Induction on the coefficients taken in. -/
theorem iterate_invariant (S : F[X]) (r : ℕ) :
    ∃ omega a, Invariant S r (iterate S r) omega a := by
  induction r with
  | zero => exact ⟨0, -1, invariant_start⟩
  | succ r ih =>
    obtain ⟨omega, a, h⟩ := ih
    exact step_invariant h

end Massey

/-! ## The solution -/

/-- The pair that is looked for. -/
structure Solution (S : F[X]) (n : ℕ) (lambda omega : F[X]) : Prop where
  agree : Agree n (lambda * S) omega
  coeff_zero : lambda.coeff 0 = 1
  degree_omega : omega.degree < lambda.natDegree
  coprime : IsCoprime lambda omega

theorem ne_zero_of_coeff_zero {p : F[X]} (h : p.coeff 0 = 1) : p ≠ 0 := by
  rintro rfl
  exact one_ne_zero (h.symm.trans (coeff_zero 0))

theorem Solution.ne_zero {S lambda omega : F[X]} {n : ℕ} (h : Solution S n lambda omega) :
    lambda ≠ 0 := ne_zero_of_coeff_zero h.coeff_zero

theorem degree_mul_lt {p q : F[X]} {i j : ℕ} (hp : p.natDegree ≤ i) (hq : q.degree < j) :
    (p * q).degree < (i + j : ℕ) := by
  by_cases hzero : q = 0
  · rw [hzero, mul_zero, degree_zero]
    exact WithBot.bot_lt_coe _
  · have hlt : q.natDegree < j := (natDegree_lt_iff_degree_lt hzero).mpr hq
    have hmul : (p * q).natDegree ≤ i + q.natDegree := natDegree_mul_le_of_le hp le_rfl
    exact degree_le_natDegree.trans_lt (by exact_mod_cast (by omega : (p * q).natDegree < i + j))

namespace Massey.Invariant

variable {S omega a lambda' omega' : F[X]} {n : ℕ} {m : Massey F}

theorem agree_cross (h : Invariant S n m omega a) (hs : Solution S n lambda' omega') :
    Agree n (m.lambda * omega') (lambda' * omega) := by
  have hleft : Agree n (m.lambda * omega') (m.lambda * (lambda' * S)) :=
    (hs.agree.mul_left m.lambda).symm
  have hcomm : m.lambda * (lambda' * S) = lambda' * (m.lambda * S) := by ring
  rw [hcomm] at hleft
  exact hleft.trans (h.agree.mul_left lambda')

theorem agree_crossB (h : Invariant S n m omega a) (hs : Solution S n lambda' omega') :
    Agree n (lambda' * a) (omega' * (X * m.b)) := by
  have hb : Agree n (X * m.b * S) a := by
    have hpower : Agree n (a + X ^ n) a := by
      rw [Agree, add_sub_cancel_left]
    exact (h.agreeB.mono (Nat.le_succ n)).trans hpower
  have hcomm : lambda' * (X * m.b * S) = X * m.b * (lambda' * S) := by ring
  have hleft := (hb.mul_left lambda').symm
  rw [hcomm] at hleft
  have hright := hs.agree.mul_left (X * m.b)
  rw [mul_comm _ omega'] at hright
  exact hleft.trans hright

/-- The iteration is not longer than the solution. -/
theorem el_le (h : Invariant S n m omega a) (hs : Solution S n lambda' omega') :
    m.el ≤ lambda'.natDegree := by
  by_contra hlt
  have hlt : lambda'.natDegree < m.el := Nat.lt_of_not_le hlt
  have hbound := h.degree_b
  have hboundA := h.degree_a
  -- both products are of a degree below `n`
  have hequal : lambda' * a = omega' * (X * m.b) := by
    refine (h.agree_crossB hs).eq ((degree_sub_le _ _).trans_lt (max_lt ?_ ?_))
    · have hmul : (lambda' * a).natDegree ≤ lambda'.natDegree + a.natDegree := natDegree_mul_le
      exact degree_le_natDegree.trans_lt (by exact_mod_cast (by omega : (lambda' * a).natDegree < n))
    · have hx : (X * m.b).natDegree ≤ 1 + m.b.natDegree :=
        natDegree_mul_le_of_le natDegree_X_le le_rfl
      rw [mul_comm]
      refine (degree_mul_lt (i := n + 1 - m.el) (by omega) hs.degree_omega).trans_le ?_
      exact_mod_cast (by omega : n + 1 - m.el + lambda'.natDegree ≤ n)
  obtain ⟨q, hq⟩ : lambda' ∣ X * m.b :=
    hs.coprime.dvd_of_dvd_mul_left ⟨a, hequal.symm⟩
  have ha : a = omega' * q := by
    refine mul_left_cancel₀ hs.ne_zero ?_
    rw [hequal, hq]
    ring
  obtain ⟨u, hu⟩ := h.agree_cross hs
  have hunit : q * u = -1 := by
    have hpower : (X ^ n : F[X]) ≠ 0 := pow_ne_zero n X_ne_zero
    refine mul_left_cancel₀ hpower ?_
    have hdet := h.det
    rw [ha, hq] at hdet
    linear_combination hdet - q * hu
  have hzero : q.coeff 0 = 0 := by
    have hcoeff := congrArg (fun p => coeff p 0) hq
    simp only [mul_coeff_zero, coeff_X_zero, zero_mul, hs.coeff_zero, one_mul] at hcoeff
    exact hcoeff.symm
  have hcoeff := congrArg (fun p => coeff p 0) hunit
  simp [mul_coeff_zero, hzero] at hcoeff

/-- **The iteration finds the solution.** -/
theorem eq_solution (h : Invariant S n m omega a) (hs : Solution S n lambda' omega')
    (hn : 2 * lambda'.natDegree ≤ n) : m.lambda = lambda' := by
  have hle := h.el_le hs
  have hdegree := h.degree_lambda
  have hequal : m.lambda * omega' = lambda' * omega := by
    refine (h.agree_cross hs).eq ((degree_sub_le _ _).trans_lt (max_lt ?_ ?_))
    · refine (degree_mul_lt hdegree hs.degree_omega).trans_le ?_
      exact_mod_cast (by omega : m.el + lambda'.natDegree ≤ n)
    · refine (degree_mul_lt le_rfl h.degree_omega).trans_le ?_
      exact_mod_cast (by omega : lambda'.natDegree + m.el ≤ n)
  obtain ⟨q, hq⟩ : lambda' ∣ m.lambda :=
    hs.coprime.dvd_of_dvd_mul_right ⟨omega, hequal⟩
  have hone : q.coeff 0 = 1 := by
    have hcoeff := h.coeff_zero
    rwa [hq, mul_coeff_zero, hs.coeff_zero, one_mul] at hcoeff
  have hqne : q ≠ 0 := ne_zero_of_coeff_zero hone
  have hconst : q.natDegree = 0 := by
    have hmul := natDegree_mul hs.ne_zero hqne
    rw [← hq] at hmul
    omega
  rw [hq, eq_C_of_natDegree_eq_zero hconst, hone, C_1, mul_one]

end Massey.Invariant

end KeyEquation
