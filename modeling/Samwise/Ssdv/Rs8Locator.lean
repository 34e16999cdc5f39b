import Mathlib.Data.List.GetD
import Mathlib.Tactic.LinearCombination
import Mathlib.Tactic.Ring
import Samwise.Lib.KeyEquation
import Samwise.Ssdv.Symbol

/-!
# Samwise — the locator polynomial of the Reed–Solomon decoder

The loop of the Berlekamp–Massey algorithm does what the iteration over polynomials does, 33
coefficients in a list. The Chien search then finds the roots, in order, with their locations.
-/

namespace Samwise.Ssdv

open Polynomial KeyEquation
open Samwise.Ssdv.Symbol

/-! ## Index form -/

theorem ofIndex_a0 : ofIndex a0 = 0 := if_pos rfl

theorem ofIndex_of_ne {i : Nat} (hi : i ≠ a0) : ofIndex i = generator ^ i := if_neg hi

theorem ofIndex_eq_zero {i : Nat} : ofIndex i = 0 ↔ i = a0 := by
  by_cases hi : i = a0
  · rw [hi, ofIndex_a0]
    exact iff_of_true rfl rfl
  · rw [ofIndex_of_ne hi]
    exact iff_of_false (pow_ne_zero i generator_ne_zero) hi

theorem mod255_ne_a0 (i : Nat) : mod255 i ≠ a0 := by
  rw [mod255_eq]
  exact Nat.ne_of_lt (Nat.mod_lt i (by decide))

theorem ofIndex_mod255 (i : Nat) : ofIndex (mod255 i) = generator ^ i := by
  rw [ofIndex_of_ne (mod255_ne_a0 i), generator_pow_eq_iff, mod255_eq, Nat.mod_mod]

/-- An exponent in index form is added. -/
theorem mk_scaled (x k : Nat) :
    (⟨if x ≠ a0 then alpha (mod255 (x + k)) else 0⟩ : Symbol) = ofIndex x * generator ^ k := by
  by_cases hx : x = a0
  · rw [if_neg (not_not_intro hx), hx, ofIndex_a0, zero_mul]
    rfl
  · rw [if_pos hx, mk_alpha, pow_add, ofIndex_of_ne hx]

theorem mk_term (x y : Nat) : (⟨term x y⟩ : Symbol) = ofIndex x * ofIndex y := by
  unfold term
  by_cases hx : x = a0
  · rw [if_neg fun h => h.1 hx, hx, ofIndex_a0, zero_mul]
    rfl
  by_cases hy : y = a0
  · rw [if_neg fun h => h.2 hy, hy, ofIndex_a0, mul_zero]
    rfl
  rw [if_pos ⟨hx, hy⟩, mk_alpha, pow_add, ofIndex_of_ne hx, ofIndex_of_ne hy]

theorem mk_eq_zero {x : UInt8} : (⟨x⟩ : Symbol) = 0 ↔ x = 0 :=
  ⟨fun h => congrArg Symbol.byte h, fun h => by rw [h]; rfl⟩

theorem generator_pow_nn : generator ^ nn = 1 := by
  rw [← pow_zero generator, generator_pow_eq_iff]
  rfl

/-- A division in index form. -/
theorem generator_pow_sub_mul {d : UInt8} (hd : d ≠ 0) (k : Nat) :
    generator ^ (k + nn - index d) * ⟨d⟩ = generator ^ k := by
  have hle : index d ≤ nn := index_le d
  have hexponent : k + nn - index d + index d = k + nn := by omega
  rw [← generator_pow_index hd, ← pow_add, hexponent, pow_add, generator_pow_nn, mul_one]

/-! ## The Berlekamp–Massey algorithm -/

/-- The coefficients of a polynomial, in index form. -/
def HasIndices (p : Symbol[X]) (l : List Nat) : Prop :=
  ∀ i, p.coeff i = ofIndex (l.getD i a0)

/-- The lists are the polynomials. -/
structure Refines (m : MasseyState) (p : Massey Symbol) : Prop where
  length_lambda : m.lambda.length = nroots + 1
  length_b : m.b.length = nroots + 1
  lambda : ∀ i, p.lambda.coeff i = ⟨m.lambda.getD i 0⟩
  b : HasIndices p.b m.b
  el : p.el = m.el

theorem getD_mapIdx {α : Type} (f : Nat → α → α) (l : List α) (i : Nat) (d : α) :
    (l.mapIdx f).getD i d = if i < l.length then f i (l.getD i d) else d := by
  by_cases hi : i < l.length
  · rw [if_pos hi, List.getD_eq_getElem _ _ (by rwa [List.length_mapIdx]), List.getElem_mapIdx,
      List.getD_eq_getElem _ _ hi]
  · rw [if_neg hi]
    exact List.getD_eq_default _ _ (by rw [List.length_mapIdx]; exact Nat.le_of_not_lt hi)

namespace Refines

variable {m : MasseyState} {p : Massey Symbol} {S : Symbol[X]} {s : List Nat} {r : Nat}

theorem discrepancy (h : Refines m p) (hs : ∀ i < nroots, S.coeff i = ofIndex (s.getD i a0))
    (hr : r < nroots) : p.discrepancy S r = ⟨Ssdv.discrepancy s m.lambda (r + 1)⟩ := by
  rw [Massey.discrepancy, coeff_mul, Finset.Nat.sum_antidiagonal_eq_sum_range_succ
    (fun i j => p.lambda.coeff i * S.coeff j), Ssdv.discrepancy, mk_xorSum_range]
  refine Finset.sum_congr rfl fun i hi => ?_
  have hi : i ≤ r := Nat.le_of_lt_succ (Finset.mem_range.mp hi)
  rw [h.lambda, hs (r - i) (by omega), Nat.succ_sub_sub_succ, Nat.sub_zero, ← ofIndex_index,
    ← mk_term, term]
  have hiff : (m.lambda.getD i 0 ≠ 0 ∧ s.getD (r - i) a0 ≠ a0) ↔
      (index (m.lambda.getD i 0) ≠ a0 ∧ s.getD (r - i) a0 ≠ a0) :=
    and_congr_left fun _ => (not_congr (index_eq_a0 _)).symm
  rw [if_congr hiff rfl rfl]

/-- `b` is multiplied by `X`, as long as its highest coefficient is 0. -/
theorem shifted (h : Refines m p) (hdegree : p.b.natDegree < nroots) :
    HasIndices (X * p.b) (a0 :: m.b.take nroots) := by
  intro i
  cases i with
  | zero => rw [coeff_X_mul_zero, List.getD_cons_zero, ofIndex_a0]
  | succ i =>
    rw [coeff_X_mul, List.getD_cons_succ]
    by_cases hi : i < nroots
    · rw [h.b, List.getD_eq_getElem?_getD, List.getD_eq_getElem?_getD, List.getElem?_take_of_lt hi]
    · rw [coeff_eq_zero_of_natDegree_lt (by omega), List.getD_eq_default, ofIndex_a0]
      rw [List.length_take, h.length_b]
      omega

theorem length_shifted (h : Refines m p) : (a0 :: m.b.take nroots).length = nroots + 1 := by
  rw [List.length_cons, List.length_take, h.length_b, Nat.min_eq_left (Nat.le_succ nroots)]

/-- `T(x) <-- lambda(x) - discr_r*x*b(x)`. -/
theorem corrected (h : Refines m p) (hdegree : p.b.natDegree < nroots) {d : UInt8} (hd : d ≠ 0)
    (i : Nat) :
    (p.lambda - C (⟨d⟩ : Symbol) * (X * p.b)).coeff i =
      ⟨(m.lambda.mapIdx fun i x =>
        if i = 0 then x
        else if m.b.getD (i - 1) a0 ≠ a0 then x ^^^ alpha (mod255 (index d + m.b.getD (i - 1) a0))
        else x).getD i 0⟩ := by
  rw [getD_mapIdx, coeff_sub, coeff_C_mul, h.lambda]
  cases i with
  | zero =>
    rw [coeff_X_mul_zero, mul_zero, sub_zero, if_pos rfl, if_pos (by rw [h.length_lambda]; decide)]
  | succ i =>
    rw [coeff_X_mul, if_neg (Nat.succ_ne_zero i), Nat.add_sub_cancel, h.length_lambda]
    by_cases hi : i < nroots
    · rw [if_pos (Nat.succ_lt_succ hi), h.b, sub_eq]
      by_cases hb : m.b.getD i a0 = a0
      · rw [if_neg (not_not_intro hb), hb, ofIndex_a0, mul_zero, add_zero]
      · rw [if_pos hb, mk_xor, mk_alpha, pow_add, generator_pow_index hd, ofIndex_of_ne hb]
    · have hlist : m.lambda.getD (i + 1) 0 = 0 :=
        List.getD_eq_default _ _ (by rw [h.length_lambda]; omega)
      rw [if_neg (by omega), coeff_eq_zero_of_natDegree_lt (by omega), hlist, mul_zero, sub_zero]

/-- `B(x) <-- inv(discr_r) * lambda(x)`. -/
theorem divided (h : Refines m p) {d : UInt8} (hd : d ≠ 0) :
    HasIndices (C (⟨d⟩ : Symbol)⁻¹ * p.lambda)
      (m.lambda.map fun x => if x = 0 then a0 else mod255 (index x + nn - index d)) := by
  intro i
  have hget := List.getD_map m.lambda 0 (n := i)
    fun x => if x = 0 then a0 else mod255 (index x + nn - index d)
  rw [coeff_C_mul, h.lambda]
  refine Eq.trans ?_ (congrArg ofIndex hget.symm)
  generalize m.lambda.getD i 0 = x
  by_cases hx : x = 0
  · rw [if_pos hx, hx, ofIndex_a0]
    exact mul_zero _
  · have hmul := generator_pow_sub_mul hd (index x)
    rw [generator_pow_index hx] at hmul
    rw [if_neg hx, ofIndex_mod255, ← hmul, mul_comm, mul_assoc,
      mul_inv_cancel₀ (mt mk_eq_zero.mp hd), mul_one]

/-- **A round of the loop is a step of the iteration.** -/
theorem step (h : Refines m p) (hs : ∀ i < nroots, S.coeff i = ofIndex (s.getD i a0))
    (hr : r < nroots) (hdegree : p.b.natDegree < nroots) :
    Refines (masseyStep s 0 m (r + 1)) (p.step S r) := by
  have hdiscrepancy := h.discrepancy hs hr
  unfold masseyStep Massey.step
  dsimp only
  rw [hdiscrepancy]
  by_cases hzero : Ssdv.discrepancy s m.lambda (r + 1) = 0
  · rw [if_pos ((index_eq_a0 _).mpr hzero), if_pos (mk_eq_zero.mpr hzero)]
    exact ⟨h.length_lambda, h.length_shifted, h.lambda, h.shifted hdegree, h.el⟩
  · rw [if_neg (mt (index_eq_a0 _).mp hzero), if_neg (mt mk_eq_zero.mp hzero), Nat.add_zero,
      Nat.add_sub_cancel, h.el]
    have hlength : ∀ f : Nat → UInt8 → UInt8, (m.lambda.mapIdx f).length = nroots + 1 := fun f => by
      rw [List.length_mapIdx, h.length_lambda]
    by_cases hshort : 2 * m.el ≤ r
    · rw [if_pos hshort, if_pos hshort, if_pos hshort]
      refine ⟨hlength _, ?_, h.corrected hdegree hzero, h.divided hzero, rfl⟩
      rw [List.length_map, h.length_lambda]
    · rw [if_neg hshort, if_neg hshort, if_neg hshort]
      exact ⟨hlength _, h.length_shifted, h.corrected hdegree hzero, h.shifted hdegree, rfl⟩

end Refines

theorem getD_replicate {α : Type} (x : α) (n i : Nat) : (List.replicate n x).getD i x = x := by
  rw [List.getD_eq_getElem?_getD, List.getElem?_replicate]
  split <;> rfl

theorem refines_start :
    Refines ⟨erasureLocator [], (erasureLocator []).map index, 0⟩ Massey.start where
  length_lambda := rfl
  length_b := rfl
  lambda i := by
    show (1 : Symbol[X]).coeff i = _
    rw [coeff_one]
    cases i with
    | zero => rfl
    | succ i =>
      rw [if_neg (Nat.succ_ne_zero i)]
      show (0 : Symbol) = ⟨(List.replicate nroots 0).getD i 0⟩
      rw [getD_replicate]
      rfl
  b i := by
    show (1 : Symbol[X]).coeff i = _
    rw [coeff_one]
    cases i with
    | zero => rfl
    | succ i =>
      rw [if_neg (Nat.succ_ne_zero i)]
      show (0 : Symbol) = ofIndex ((List.replicate nroots a0).getD i a0)
      rw [getD_replicate, ofIndex_a0]
  el := rfl

/-- Induction on the rounds. -/
theorem refines_iterate {S : Symbol[X]} {s : List Nat}
    (hs : ∀ i < nroots, S.coeff i = ofIndex (s.getD i a0)) {r : Nat} (hr : r ≤ nroots) :
    Refines ((List.range' 1 r).foldl (masseyStep s 0)
      ⟨erasureLocator [], (erasureLocator []).map index, 0⟩) (Massey.iterate S r) := by
  induction r with
  | zero => exact refines_start
  | succ r ih =>
    obtain ⟨omega, a, hinvariant⟩ := Massey.iterate_invariant S r
    have hdegree := hinvariant.degree_b
    rw [List.range'_1_concat, List.foldl_append, Nat.add_comm 1 r]
    exact (ih (Nat.le_of_succ_le hr)).step hs hr (by omega)

/-- `lambda` behind the loop. -/
theorem massey_eq {S : Symbol[X]} {s : List Nat}
    (hs : ∀ i < nroots, S.coeff i = ofIndex (s.getD i a0)) :
    (massey s []).length = nroots + 1 ∧
      HasIndices (Massey.iterate S nroots).lambda ((massey s []).map index) := by
  have h := refines_iterate hs (Nat.le_refl nroots)
  refine ⟨h.length_lambda, fun i => ?_⟩
  have hget := List.getD_map (massey s []) 0 (n := i) index
  rw [h.lambda]
  refine Eq.trans ?_ (congrArg ofIndex hget.symm)
  exact (ofIndex_index _).symm

/-! ## The degree -/

theorem degLambda_range (l : List Nat) (n : Nat) :
    let deg := (List.range n).foldl (fun deg i => if l.getD i a0 ≠ a0 then i else deg) 0
    (∀ i < n, deg < i → l.getD i a0 = a0) ∧ (deg = 0 ∨ l.getD deg a0 ≠ a0) := by
  induction n with
  | zero => exact ⟨fun i hi => absurd hi (Nat.not_lt_zero i), .inl rfl⟩
  | succ n ih =>
    obtain ⟨habove, hat⟩ := ih
    dsimp only
    rw [List.range_succ, List.foldl_append, List.foldl_cons, List.foldl_nil]
    by_cases hn : l.getD n a0 = a0
    · rw [if_neg (not_not_intro hn)]
      refine ⟨fun i hi hlt => ?_, hat⟩
      rcases Nat.lt_succ_iff_lt_or_eq.mp hi with hi | rfl
      · exact habove i hi hlt
      · exact hn
    · rw [if_pos hn]
      exact ⟨fun i hi hlt => absurd hlt (by omega), .inr hn⟩

theorem degLambda_eq {p : Symbol[X]} {l : List Nat} (h : HasIndices p l) :
    degLambda l = p.natDegree := by
  obtain ⟨habove, hat⟩ := degLambda_range l l.length
  refine le_antisymm ?_ (natDegree_le_iff_coeff_eq_zero.mpr fun i hi => ?_)
  · rcases hat with hzero | hne
    · exact hzero.le.trans (Nat.zero_le _)
    · refine le_natDegree_of_ne_zero ?_
      rw [h]
      exact mt ofIndex_eq_zero.mp hne
  · rw [h, ofIndex_eq_zero]
    by_cases hlength : i < l.length
    · exact habove i hlength hi
    · exact List.getD_eq_default _ _ (Nat.le_of_not_lt hlength)

/-! ## The Chien search -/

/-- The coefficients of `reg`, `i` rounds into the search. -/
def Register (p : Symbol[X]) (i : Nat) (reg : List Nat) : Prop :=
  ∀ j, 1 ≤ j → j ≤ p.natDegree → ofIndex (reg.getD j a0) = p.coeff j * generator ^ (i * j)

/-- `loc`, at the root `i`. -/
def location (i : Nat) : Nat := (iprim * i + 254) % 255

section Chien

variable {p : Symbol[X]} {i : Nat} {reg : List Nat}

/-- `reg` in the next round. -/
def advance (deg : Nat) (reg : List Nat) : List Nat :=
  reg.mapIdx fun j x => if 1 ≤ j ∧ j ≤ deg ∧ x ≠ a0 then mod255 (x + j) else x

theorem getD_advance {deg j : Nat} (hj : 1 ≤ j) (hdeg : j ≤ deg) :
    (advance deg reg).getD j a0 =
      if reg.getD j a0 ≠ a0 then mod255 (reg.getD j a0 + j) else a0 := by
  rw [advance, getD_mapIdx]
  by_cases hlength : j < reg.length
  · rw [if_pos hlength]
    by_cases hx : reg.getD j a0 = a0
    · rw [if_neg fun h => h.2.2 hx, if_neg (not_not_intro hx), hx]
    · rw [if_pos ⟨hj, hdeg, hx⟩, if_pos hx]
  · have hx : reg.getD j a0 = a0 := List.getD_eq_default _ _ (Nat.le_of_not_lt hlength)
    rw [if_neg hlength, if_neg (not_not_intro hx)]

theorem Register.advance (h : Register p i reg) :
    Register p (i + 1) (advance p.natDegree reg) := by
  intro j hj hdeg
  rw [getD_advance hj hdeg, Nat.succ_mul, pow_add, ← mul_assoc, ← h j hj hdeg]
  by_cases hx : reg.getD j a0 = a0
  · rw [if_neg (not_not_intro hx), hx, ofIndex_a0, zero_mul]
  · rw [if_pos hx, ofIndex_mod255, pow_add, ofIndex_of_ne hx]

/-- `q` is the polynomial at the point. -/
theorem mk_chien (h : Register p i reg) (hzero : p.coeff 0 = 1) :
    (⟨1 ^^^ xorSum ((List.range' 1 p.natDegree).map fun j =>
      if (advance p.natDegree reg).getD j a0 ≠ a0 then alpha ((advance p.natDegree reg).getD j a0)
      else 0)⟩ : Symbol) = p.eval (generator ^ (i + 1)) := by
  have hterm (j : Nat) (hj : j < p.natDegree) :
      (⟨if (advance p.natDegree reg).getD (1 + j) a0 ≠ a0 then
        alpha ((advance p.natDegree reg).getD (1 + j) a0) else 0⟩ : Symbol) =
      p.coeff (j + 1) * (generator ^ (i + 1)) ^ (j + 1) := by
    have hregister := h.advance (1 + j) (Nat.le_add_right 1 j) (by omega)
    rw [← pow_mul, Nat.add_comm j, ← hregister, getD_advance (Nat.le_add_right 1 j) (by omega)]
    by_cases hx : reg.getD (1 + j) a0 = a0
    · rw [if_neg (not_not_intro hx), if_neg (not_not_intro rfl), ofIndex_a0]
      rfl
    · rw [if_pos hx, if_pos (mod255_ne_a0 _), mk_alpha, ofIndex_mod255]
  rw [mk_xor, List.range'_eq_map_range, List.map_map, mk_xorSum_range, eval_eq_sum_range,
    Finset.sum_range_succ', hzero, pow_zero, one_mul, add_comm]
  congr 1
  exact Finset.sum_congr rfl fun j hj => hterm j (Finset.mem_range.mp hj)

theorem mod255_location (i : Nat) : mod255 (location i + iprim) = location (i + 1) := by
  rw [mod255_eq, location, location, Nat.mod_add_mod, Nat.mul_succ, Nat.add_right_comm]

/-- **The search finds the roots**, as long as they are not more than the degree: then the search is
not ended before the last of them. Induction on the rounds that are left. -/
theorem chien_eq (hzero : p.coeff 0 = 1) (n : Nat) (h : Register p i reg)
    (found : List (Nat × Nat))
    (hcount : found.length +
      ((List.range' (i + 1) n).filter fun i => p.eval (generator ^ i) = 0).length ≤ p.natDegree) :
    chien p.natDegree (List.range' (i + 1) n) (location (i + 1)) reg found =
      found ++ ((List.range' (i + 1) n).filter fun i => p.eval (generator ^ i) = 0).map
        fun i => (i, location i) := by
  induction n generalizing i reg found with
  | zero => exact (List.append_nil found).symm
  | succ n ih =>
    have hvalue := mk_chien h hzero
    rw [List.range'_succ] at hcount ⊢
    unfold chien
    dsimp only
    rw [show (reg.mapIdx fun j x =>
      if 1 ≤ j ∧ j ≤ p.natDegree ∧ x ≠ a0 then mod255 (x + j) else x) = advance p.natDegree reg from rfl,
      mod255_location]
    by_cases hroot : p.eval (generator ^ (i + 1)) = 0
    · rw [List.filter_cons_of_pos (by rwa [decide_eq_true_iff]), List.length_cons] at hcount
      rw [if_neg (not_not_intro (mk_eq_zero.mp (hvalue.trans hroot))),
        List.filter_cons_of_pos (by rwa [decide_eq_true_iff]), List.map_cons]
      split
      · next hlast =>
        have hnone : (List.range' (i + 1 + 1) n).filter
            (fun i => p.eval (generator ^ i) = 0) = [] := by
          rw [← List.length_eq_zero_iff]
          omega
        rw [hnone, List.map_nil]
      · rw [ih h.advance _ (by rw [List.length_append, List.length_singleton]; omega),
          List.append_assoc]
        rfl
    · rw [List.filter_cons_of_neg (by rwa [decide_eq_true_iff])] at hcount ⊢
      rw [if_pos fun hq => hroot (hvalue.symm.trans (mk_eq_zero.mpr hq)), ih h.advance _ hcount]

end Chien

end Samwise.Ssdv
