import Mathlib.Algebra.CharP.Two
import Mathlib.Algebra.Field.ZMod
import Mathlib.Algebra.Polynomial.Div
import Mathlib.Algebra.Polynomial.OfFn
import Mathlib.Logic.Function.Iterate
import Mathlib.RingTheory.Coprime.Lemmas

/-!
# Reflected cyclic redundancy checks

A cyclic redundancy check is the remainder of a polynomial division over the field of two
elements. In the reflected form a byte is sent least significant bit first, and the least
significant bit of the register is its highest coefficient: `poly` is the polynomial of a bit
string read that way. `crc` is the check as a division, for a generator, a first and a last
exclusive or of any width, and a message of chunks of any smaller width. `crc_eq_foldl` says that
a register which is shifted bit by bit computes it.
-/

open Polynomial

namespace ReflectedCrc

variable {w k : Nat}

/-! ## The polynomial of a bit string -/

/-- The bits as coefficients, the least significant one the highest. -/
noncomputable def poly (b : BitVec w) : (ZMod 2)[X] :=
  Polynomial.ofFn w fun i => if b.getLsbD (w - 1 - i) then 1 else 0

theorem coeff_poly (b : BitVec w) (i : Nat) :
    (poly b).coeff i = if i < w ∧ b.getLsbD (w - 1 - i) then 1 else 0 := by
  by_cases hi : i < w
  · rw [poly, ofFn_coeff_eq_val_of_lt _ hi]
    simp only [hi, true_and]
  · rw [poly, ofFn_coeff_eq_zero_of_ge _ (Nat.not_lt.mp hi), if_neg (fun h => hi h.1)]

theorem degree_poly_lt (b : BitVec w) : (poly b).degree < w := ofFn_degree_lt _

/-- A bit string is known from its polynomial. -/
theorem poly_injective : Function.Injective (poly : BitVec w → (ZMod 2)[X]) := by
  intro a b h
  apply BitVec.eq_of_getLsbD_eq
  intro i hi
  have hcoeff := congrArg (fun p => p.coeff (w - 1 - i)) h
  have hat : w - 1 - (w - 1 - i) = i := by omega
  have hlt : w - 1 - i < w := by omega
  simp only [coeff_poly, hat, hlt, true_and] at hcoeff
  cases ha : a.getLsbD i <;> cases hb : b.getLsbD i <;> simp_all

/-- Exclusive or is addition. -/
theorem poly_xor (a b : BitVec w) : poly (a ^^^ b) = poly a + poly b := by
  ext i
  rw [coeff_add, coeff_poly, coeff_poly, coeff_poly, BitVec.getLsbD_xor]
  by_cases hi : i < w
  · simp only [hi, true_and]
    cases a.getLsbD (w - 1 - i) <;> cases b.getLsbD (w - 1 - i) <;> decide
  · simp [hi]

/-- A shift is a multiplication by the variable, up to the bit that falls out. -/
theorem X_mul_poly (c : BitVec w) (hw : 0 < w) :
    X * poly c = poly (c >>> 1) + if c.getLsbD 0 then X ^ w else 0 := by
  ext i
  rw [coeff_add, coeff_poly, BitVec.getLsbD_ushiftRight]
  cases i with
  | zero =>
    have hout : c.getLsbD (1 + (w - 1 - 0)) = false := BitVec.getLsbD_of_ge c _ (by omega)
    have hxw : (if c.getLsbD 0 then (X : (ZMod 2)[X]) ^ w else 0).coeff 0 = 0 := by
      split
      · rw [coeff_X_pow, if_neg (by omega)]
      · exact coeff_zero 0
    rw [coeff_X_mul_zero, hout, hxw]
    simp
  | succ i =>
    rw [coeff_X_mul, coeff_poly]
    by_cases hlast : i + 1 = w
    · -- the bit that falls out
      have hbit : w - 1 - i = 0 := by omega
      have hxw : (if c.getLsbD 0 then (X : (ZMod 2)[X]) ^ w else 0).coeff (i + 1)
          = if c.getLsbD 0 then 1 else 0 := by
        split
        · rw [coeff_X_pow, if_pos hlast]
        · exact coeff_zero _
      have hin : i < w := by omega
      have hnot : ¬i + 1 < w := by omega
      rw [hbit, hxw]
      simp only [hin, hnot, true_and, false_and, if_false, zero_add]
    · have hxw : (if c.getLsbD 0 then (X : (ZMod 2)[X]) ^ w else 0).coeff (i + 1) = 0 := by
        split
        · rw [coeff_X_pow, if_neg hlast]
        · exact coeff_zero _
      rw [hxw, add_zero]
      by_cases hi : i + 1 < w
      · have hbit : 1 + (w - 1 - (i + 1)) = w - 1 - i := by omega
        have hin : i < w := by omega
        rw [hbit]
        simp only [hi, hin, true_and]
      · have hout : ¬i < w := by omega
        rw [if_neg (fun h => hout h.1), if_neg (fun h => hi h.1)]

/-- A short bit string at the low end of a long one. -/
theorem poly_setWidth (b : BitVec k) (h : k ≤ w) :
    poly (b.setWidth w) = X ^ (w - k) * poly b := by
  ext i
  rw [coeff_X_pow_mul', coeff_poly, BitVec.getLsbD_setWidth]
  by_cases hlow : w - k ≤ i
  · rw [if_pos hlow, coeff_poly]
    by_cases hi : i < w
    · have hbit : k - 1 - (i - (w - k)) = w - 1 - i := by omega
      have hin : w - 1 - i < w := by omega
      have hchunk : i - (w - k) < k := by omega
      rw [hbit]
      simp only [hi, hin, hchunk, true_and, decide_true, Bool.true_and]
    · rw [if_neg (fun h => hi h.1), if_neg (fun h => by omega)]
  · have hout : b.getLsbD (w - 1 - i) = false := BitVec.getLsbD_of_ge b _ (by omega)
    rw [if_neg hlow, hout]
    simp

/-! ## The check as a division -/

/-- The generator whose lower coefficients are the bits of `g`. -/
noncomputable def generator (g : BitVec w) : (ZMod 2)[X] := X ^ w + poly g

theorem generator_monic (g : BitVec w) : (generator g).Monic :=
  monic_X_pow_add (degree_poly_lt g)

theorem degree_generator (g : BitVec w) : (generator g).degree = w := by
  have hlt : (poly g).degree < (X ^ w : (ZMod 2)[X]).degree := by
    rw [degree_X_pow]
    exact degree_poly_lt g
  rw [generator, degree_add_eq_left_of_degree_lt hlt, degree_X_pow]

/-- The polynomial of a message, the first chunk the highest. -/
noncomputable def message : List (BitVec k) → (ZMod 2)[X]
  | [] => 0
  | b :: msg => X ^ (k * msg.length) * poly b + message msg

/-- The bit string of a polynomial of its degree. -/
noncomputable def ofPoly (w : Nat) (p : (ZMod 2)[X]) : BitVec w := Function.invFun poly p

theorem ofPoly_poly (b : BitVec w) : ofPoly w (poly b) = b :=
  Function.leftInverse_invFun poly_injective b

/-- **The check by division.** The message is followed by `w` zero bits, its first `w` bits are
changed by `init`, and the remainder, by the generator of `g`, is changed by `final`. -/
noncomputable def crc (g init final : BitVec w) (msg : List (BitVec k)) : BitVec w :=
  ofPoly w ((X ^ w * message msg + X ^ (k * msg.length) * poly init) %ₘ generator g) ^^^ final

/-! ## The register -/

/-- One shift of the register, with the generator taken off where a bit falls out. -/
def shift (g c : BitVec w) : BitVec w := if c.getLsbD 0 then (c >>> 1) ^^^ g else c >>> 1

/-- A chunk of the message. -/
def feed (g c : BitVec w) (b : BitVec k) : BitVec w := (shift g)^[k] (c ^^^ b.setWidth w)

theorem X_mul_poly_shift (g c : BitVec w) (hw : 0 < w) :
    ∃ q, X * poly c = poly (shift g c) + generator g * q := by
  rw [X_mul_poly c hw, shift]
  split
  · refine ⟨1, ?_⟩
    have htwice : poly g + poly g = 0 := CharTwo.add_self_eq_zero _
    rw [poly_xor, generator, mul_one, add_assoc, add_left_comm (poly g), htwice, add_zero]
  · exact ⟨0, by rw [mul_zero]⟩

theorem X_pow_mul_poly_shift (g c : BitVec w) (hw : 0 < w) (n : Nat) :
    ∃ q, X ^ n * poly c = poly ((shift g)^[n] c) + generator g * q := by
  induction n generalizing c with
  | zero => exact ⟨0, by rw [pow_zero, one_mul, mul_zero, add_zero]; rfl⟩
  | succ n ih =>
    obtain ⟨q, hq⟩ := X_mul_poly_shift g c hw
    obtain ⟨q', hq'⟩ := ih (shift g c)
    refine ⟨q' + X ^ n * q, ?_⟩
    rw [pow_succ, mul_assoc, hq, mul_add, hq', Function.iterate_succ_apply]
    ring

theorem X_pow_mul_poly_feed (g c : BitVec w) (b : BitVec k) (hw : 0 < w) (hk : k ≤ w) :
    ∃ q, X ^ k * poly c + X ^ w * poly b = poly (feed g c b) + generator g * q := by
  obtain ⟨q, hq⟩ := X_pow_mul_poly_shift g (c ^^^ b.setWidth w) hw k
  refine ⟨q, ?_⟩
  have hsplit : (X : (ZMod 2)[X]) ^ w = X ^ k * X ^ (w - k) := by
    rw [← pow_add, Nat.add_sub_cancel' hk]
  rw [feed, ← hq, poly_xor, poly_setWidth b hk, hsplit]
  ring

/-- The register behind a message. Induction on the message. -/
theorem X_pow_mul_poly_foldl (g c : BitVec w) (hw : 0 < w) (hk : k ≤ w)
    (msg : List (BitVec k)) :
    ∃ q, X ^ w * message msg + X ^ (k * msg.length) * poly c
      = poly (msg.foldl (feed g) c) + generator g * q := by
  induction msg generalizing c with
  | nil => exact ⟨0, by simp [message]⟩
  | cons b msg ih =>
    obtain ⟨q, hq⟩ := X_pow_mul_poly_feed g c b hw hk
    obtain ⟨q', hq'⟩ := ih (feed g c b)
    refine ⟨q' + X ^ (k * msg.length) * q, ?_⟩
    have hlength : k * (b :: msg).length = k * msg.length + k := by
      rw [List.length_cons, Nat.mul_succ]
    calc X ^ w * message (b :: msg) + X ^ (k * (b :: msg).length) * poly c
        = X ^ w * message msg
            + X ^ (k * msg.length) * (X ^ k * poly c + X ^ w * poly b) := by
          rw [message, hlength, pow_add]
          ring
      _ = X ^ w * message msg + X ^ (k * msg.length) * poly (feed g c b)
            + generator g * (X ^ (k * msg.length) * q) := by
          rw [hq]
          ring
      _ = poly ((b :: msg).foldl (feed g) c)
            + generator g * (q' + X ^ (k * msg.length) * q) := by
          rw [hq', List.foldl_cons]
          ring

/-- **The register computes the remainder.** -/
theorem poly_foldl (g c : BitVec w) (hw : 0 < w) (hk : k ≤ w) (msg : List (BitVec k)) :
    (X ^ w * message msg + X ^ (k * msg.length) * poly c) %ₘ generator g
      = poly (msg.foldl (feed g) c) := by
  obtain ⟨q, hq⟩ := X_pow_mul_poly_foldl g c hw hk msg
  have hdegree : (poly (msg.foldl (feed g) c)).degree < (generator g).degree := by
    rw [degree_generator]
    exact degree_poly_lt _
  exact (div_modByMonic_unique q _ (generator_monic g) ⟨hq.symm, hdegree⟩).2

theorem crc_eq_foldl (g init final : BitVec w) (hw : 0 < w) (hk : k ≤ w)
    (msg : List (BitVec k)) : crc g init final msg = msg.foldl (feed g) init ^^^ final := by
  rw [crc, poly_foldl g init hw hk, ofPoly_poly]

/-! ## Bursts -/

/-- The bits of a message in the order they are sent, and `false` behind its end. -/
def sentBit : List (BitVec k) → Nat → Bool
  | [], _ => false
  | b :: msg, p => if p < k then b.getLsbD p else sentBit msg (p - k)

/-- Bit `p` has the coefficient `p` places below the highest one. -/
theorem coeff_message (msg : List (BitVec k)) (n : Nat) :
    (message msg).coeff n
      = if n < k * msg.length ∧ sentBit msg (k * msg.length - 1 - n) then 1 else 0 := by
  induction msg with
  | nil => simp [message]
  | cons b msg ih =>
    have hlength : k * (b :: msg).length = k * msg.length + k := by
      rw [List.length_cons, Nat.mul_succ]
    rw [message, coeff_add, coeff_X_pow_mul', ih, coeff_poly, hlength]
    by_cases hrest : n < k * msg.length
    · -- a bit of the later chunks
      have hbit : k * msg.length + k - 1 - n - k = k * msg.length - 1 - n := by omega
      have hlater : ¬k * msg.length + k - 1 - n < k := by omega
      have hin : n < k * msg.length + k := by omega
      rw [if_neg (Nat.not_le.mpr hrest), zero_add, sentBit, if_neg hlater, hbit]
      simp only [hrest, hin, true_and]
    · have hbit : k - 1 - (n - k * msg.length) = k * msg.length + k - 1 - n := by omega
      have hrestOut : ¬(n < k * msg.length ∧
          sentBit msg (k * msg.length - 1 - n) = true) := fun h => hrest h.1
      rw [if_pos (Nat.not_lt.mp hrest), if_neg hrestOut, add_zero, hbit]
      by_cases hin : n < k * msg.length + k
      · -- a bit of the first one
        have hfirst : k * msg.length + k - 1 - n < k := by omega
        have hchunk : n - k * msg.length < k := by omega
        rw [sentBit, if_pos hfirst]
        simp only [hin, hchunk, true_and]
      · have hout : ¬n - k * msg.length < k := by omega
        rw [if_neg (fun h => hout h.1), if_neg (fun h => hin h.1)]

theorem sentBit_eq_false (msg : List (BitVec k)) {p : Nat} (hp : k * msg.length ≤ p) :
    sentBit msg p = false := by
  induction msg generalizing p with
  | nil => rfl
  | cons b msg ih =>
    rw [List.length_cons, Nat.mul_succ] at hp
    rw [sentBit, if_neg (by omega)]
    exact ih (by omega)

/-- A message is known from its length and its bits. -/
theorem sentBit_injective {a b : List (BitVec k)} (hlength : a.length = b.length)
    (h : ∀ p, sentBit a p = sentBit b p) : a = b := by
  induction a generalizing b with
  | nil => exact (List.length_eq_zero_iff.mp hlength.symm).symm
  | cons x a ih =>
    cases b with
    | nil => cases hlength
    | cons y b =>
      have hhead : x = y := by
        apply BitVec.eq_of_getLsbD_eq
        intro i hi
        have hbit := h i
        rwa [sentBit, sentBit, if_pos hi, if_pos hi] at hbit
      have htail : a = b := by
        apply ih (Nat.succ.inj hlength)
        intro p
        have hbit := h (p + k)
        have hlater : ¬p + k < k := by omega
        rwa [sentBit, sentBit, if_neg hlater, if_neg hlater, Nat.add_sub_cancel] at hbit
      rw [hhead, htail]

/-- The bits in which the messages differ lie among `n` that are sent one after the other. -/
def DifferWithin (n : Nat) (a b : List (BitVec k)) : Prop :=
  ∃ start, ∀ p, sentBit a p ≠ sentBit b p → start ≤ p ∧ p < start + n

/-- The difference of two messages of one length. -/
theorem coeff_message_add {a b : List (BitVec k)} (hlength : a.length = b.length) (n : Nat) :
    (message a + message b).coeff n = if n < k * a.length ∧
      sentBit a (k * a.length - 1 - n) ≠ sentBit b (k * a.length - 1 - n) then 1 else 0 := by
  rw [coeff_add, coeff_message, coeff_message, ← hlength]
  by_cases hn : n < k * a.length
  · simp only [hn, true_and]
    cases sentBit a (k * a.length - 1 - n) <;> cases sentBit b (k * a.length - 1 - n) <;> decide
  · simp [hn]

/-- A burst is a short polynomial in a place. -/
theorem exists_burst {a b : List (BitVec k)} {n : Nat} (hlength : a.length = b.length)
    (h : DifferWithin n a b) :
    ∃ m, ∃ q : (ZMod 2)[X], message a + message b = X ^ m * q ∧ q.degree < n := by
  obtain ⟨start, hwindow⟩ := h
  refine ⟨k * a.length - start - n, ?_⟩
  have hlow : ∀ i < k * a.length - start - n, (message a + message b).coeff i = 0 := by
    intro i hi
    rw [coeff_message_add hlength]
    refine if_neg fun hdiffer => ?_
    have := hwindow _ hdiffer.2
    omega
  obtain ⟨q, hq⟩ := X_pow_dvd_iff.mpr hlow
  refine ⟨q, hq, (degree_lt_iff_coeff_zero q n).mpr fun i hi => ?_⟩
  have hcoeff := coeff_X_pow_mul q (k * a.length - start - n) i
  rw [← hq, coeff_message_add hlength] at hcoeff
  rw [← hcoeff]
  refine if_neg fun hdiffer => ?_
  have := hwindow _ hdiffer.2
  omega

/-- The lowest coefficient of a generator is its highest bit. -/
theorem coeff_zero_generator (g : BitVec w) (hw : 0 < w) (hg : g.getLsbD (w - 1) = true) :
    (generator g).coeff 0 = 1 := by
  have hpow : ((X : (ZMod 2)[X]) ^ w).coeff 0 = 0 := by
    rw [coeff_X_pow, if_neg (by omega)]
  rw [generator, coeff_add, hpow, zero_add, coeff_poly, if_pos]
  exact ⟨hw, hg⟩

/-- Such a generator shares no factor with a power of the variable. -/
theorem isCoprime_generator (g : BitVec w) (hw : 0 < w) (hg : g.getLsbD (w - 1) = true)
    (n : Nat) : IsCoprime (generator g) (X ^ n) := by
  apply IsCoprime.pow_right
  refine ⟨1, divX (generator g), ?_⟩
  have hsplit := divX_mul_X_add (generator g)
  have htwice : divX (generator g) * X + divX (generator g) * X = 0 := CharTwo.add_self_eq_zero _
  rw [coeff_zero_generator g hw hg, C_1] at hsplit
  rw [one_mul]
  nth_rewrite 1 [← hsplit]
  rw [add_right_comm, htwice, zero_add]

/-- **Bursts are detected**, up to the width of the register: whatever it holds before, two
messages of one length that differ within a burst leave it different. -/
theorem foldl_feed_ne {g c : BitVec w} (hw : 0 < w) (hk : k ≤ w)
    (hg : g.getLsbD (w - 1) = true) {a b : List (BitVec k)} (hlength : a.length = b.length)
    (hburst : DifferWithin w a b) (hne : a ≠ b) : a.foldl (feed g) c ≠ b.foldl (feed g) c := by
  intro heq
  obtain ⟨qa, ha⟩ := X_pow_mul_poly_foldl g c hw hk a
  obtain ⟨qb, hb⟩ := X_pow_mul_poly_foldl g c hw hk b
  obtain ⟨m, q, hdiff, hdegree⟩ := exists_burst hlength hburst
  -- the sum of the two equations: the register cancels, and so does what it held before
  have hdvd : generator g ∣ X ^ (w + m) * q := by
    refine ⟨qa + qb, ?_⟩
    have htwice (p : (ZMod 2)[X]) : p + p = 0 := CharTwo.add_self_eq_zero p
    calc X ^ (w + m) * q = X ^ w * (message a + message b) := by rw [hdiff, pow_add, mul_assoc]
      _ = (X ^ w * message a + X ^ (k * a.length) * poly c)
            + (X ^ w * message b + X ^ (k * b.length) * poly c) := by
          rw [hlength, add_add_add_comm, htwice, add_zero, mul_add]
      _ = generator g * (qa + qb) := by
          rw [ha, hb, heq, add_add_add_comm, htwice, zero_add, mul_add]
  have hq : q = 0 := by
    have hq : generator g ∣ q := (isCoprime_generator g hw hg (w + m)).dvd_of_dvd_mul_left hdvd
    apply eq_zero_of_dvd_of_degree_lt hq
    rwa [degree_generator]
  apply hne
  apply sentBit_injective hlength
  intro p
  by_contra hbit
  -- a bit that differs is a coefficient that is not zero
  have hin : p < k * a.length := by
    by_contra hout
    rw [sentBit_eq_false a (Nat.not_lt.mp hout),
      sentBit_eq_false b (hlength ▸ Nat.not_lt.mp hout)] at hbit
    exact hbit rfl
  have hcoeff := coeff_message_add hlength (k * a.length - 1 - p)
  have hat : k * a.length - 1 - (k * a.length - 1 - p) = p := by omega
  rw [hdiff, hq, mul_zero, coeff_zero, hat, if_pos ⟨by omega, hbit⟩] at hcoeff
  exact zero_ne_one hcoeff

end ReflectedCrc
