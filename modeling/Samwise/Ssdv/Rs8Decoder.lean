import Samwise.Lib.ErrorLocator
import Samwise.Ssdv.Rs8Encoder
import Samwise.Ssdv.Rs8Locator

/-!
# Samwise — the Reed–Solomon decoder

What `decode_rs_8` does to a block that differs from a codeword in at most 16 symbols: it gives the
codeword back, and says how many symbols it has put right. The syndromes are power sums of the errors,
the locator polynomial is found from them, its roots are the places and the evaluator gives the values.
-/

namespace Samwise.Ssdv

open Polynomial KeyEquation ErrorLocator
open Samwise.Ssdv.Symbol

/-! ## The syndromes -/

/-- A symbol of `s`, in a round of the loop. -/
theorem mk_syndrome (x d : UInt8) (i : Nat) :
    (⟨if x = 0 then d else d ^^^ alpha (mod255 (index x + (fcr + i) * prim))⟩ : Symbol) =
      ⟨x⟩ * root i + ⟨d⟩ := by
  by_cases hx : x = 0
  · rw [if_pos hx, mk_eq_zero.mpr hx, zero_mul, zero_add]
  · rw [if_neg hx, mk_xor, mk_alpha, pow_add, generator_pow_index hx, add_comm]
    rfl

/-- Induction on the symbols that are taken in. -/
theorem getD_syndromes_foldl (data : List UInt8) {i : Nat} (hi : i < nroots) (js : List Nat)
    (s : List UInt8) (hs : s.length = nroots) :
    let s' := js.foldl
      (fun s j => s.mapIdx fun i x =>
        if x = 0 then data.getD j 0
        else data.getD j 0 ^^^ alpha (mod255 (index x + (fcr + i) * prim))) s
    s'.length = nroots ∧ (⟨s'.getD i 0⟩ : Symbol) =
      (js.map fun j => (⟨data.getD j 0⟩ : Symbol)).foldl (fun x d => x * root i + d)
        ⟨s.getD i 0⟩ := by
  induction js generalizing s with
  | nil => exact ⟨hs, rfl⟩
  | cons j js ih =>
    obtain ⟨hlength, hvalue⟩ := ih
      (s.mapIdx fun i x =>
        if x = 0 then data.getD j 0
        else data.getD j 0 ^^^ alpha (mod255 (index x + (fcr + i) * prim)))
      (by rw [List.length_mapIdx, hs])
    refine ⟨hlength, hvalue.trans ?_⟩
    rw [getD_mapIdx, if_pos (by rwa [hs]), mk_syndrome, List.map_cons, List.foldl_cons]

theorem map_getD_range' (x : UInt8) (rest : List UInt8) :
    ((List.range' 1 rest.length).map fun j => (⟨(x :: rest).getD j 0⟩ : Symbol)) = symbols rest := by
  refine List.ext_getElem (by rw [List.length_map, List.length_range', length_symbols]) ?_
  intro j hj hj'
  rw [length_symbols] at hj'
  simp only [symbols, List.getElem_map, List.getElem_range', Nat.one_mul]
  rw [Nat.add_comm, List.getD_cons_succ, List.getD_eq_getElem _ _ hj']

/-- **The syndromes are the block at the roots.** -/
theorem getD_syndromes {data : List UInt8} {pad : Nat} (hpad : pad ≤ 222)
    (hdata : data.length = nn - pad) {i : Nat} (hi : i < nroots) :
    (syndromes data pad).length = nroots ∧
      (⟨(syndromes data pad).getD i 0⟩ : Symbol) = evalAt (root i) (symbols data) := by
  cases data with
  | nil => exact absurd hdata (by unfold nn; rw [List.length_nil]; omega)
  | cons x rest =>
    have hrest : nn - pad - 1 = rest.length := by rw [← hdata, List.length_cons, Nat.add_sub_cancel]
    obtain ⟨hlength, hvalue⟩ := getD_syndromes_foldl (x :: rest) hi (List.range' 1 rest.length)
      (List.replicate nroots x) List.length_replicate
    unfold syndromes
    rw [hrest]
    refine ⟨hlength, hvalue.trans ?_⟩
    rw [map_getD_range', symbols_cons, evalAt, List.foldl_cons, zero_mul, zero_add,
      List.getD_replicate _ hi]

/-! ## The errors -/

/-- A block that is 0 at the roots of the generator polynomial. -/
def IsCodeword (block : List UInt8) : Prop := ∀ i < nroots, evalAt (root i) (symbols block) = 0

/-- Where two blocks differ. -/
def wrong (data code : List UInt8) : Finset Nat :=
  (Finset.range data.length).filter fun l => data.getD l 0 ≠ code.getD l 0

/-- The locator of a symbol of `n`. -/
def locator (n l : Nat) : Symbol := generator ^ (prim * (n - 1 - l))

theorem locator_ne_zero (n l : Nat) : locator n l ≠ 0 := pow_ne_zero _ generator_ne_zero

theorem locator_injective {n l k : Nat} (hn : n ≤ nn) (hl : l < n) (hk : k < n)
    (h : locator n l = locator n k) : l = k := by
  have hmod := generator_pow_eq_iff.mp h
  unfold prim at hmod
  unfold nn at hn
  omega

theorem root_pow (i k : Nat) :
    root i ^ k = (generator ^ (prim * k)) ^ fcr * (generator ^ (prim * k)) ^ i := by
  rw [root, ← pow_mul, ← pow_mul, ← pow_mul, ← pow_add]
  congr 1
  ring

/-- What there is to put right in a block. -/
def errors {data : List UInt8} (hdata : data.length ≤ nn) (code : List UInt8) : Errors Symbol ℕ where
  places := wrong data code
  locator := locator data.length
  value l := (⟨data.getD l 0⟩ + ⟨code.getD l 0⟩) * locator data.length l ^ fcr
  injective l hl k hk h := by
    have hl := Finset.mem_range.mp (Finset.mem_filter.mp (Finset.mem_coe.mp hl)).1
    have hk := Finset.mem_range.mp (Finset.mem_filter.mp (Finset.mem_coe.mp hk)).1
    exact locator_injective hdata hl hk h
  locator_ne l _ := locator_ne_zero _ l
  value_ne l hl := by
    have hne := (Finset.mem_filter.mp hl).2
    refine mul_ne_zero (fun h => hne ?_) (pow_ne_zero _ (locator_ne_zero _ l))
    exact congrArg Symbol.byte (eq_of_add_eq_zero h)

/-- The value of a block with errors is a power sum of them. -/
theorem powerSum_errors {data code : List UInt8} (hdata : data.length ≤ nn)
    (hlength : code.length = data.length) (hcode : IsCodeword code) {i : Nat} (hi : i < nroots) :
    (errors hdata code).powerSum i = evalAt (root i) (symbols data) := by
  have hzero := hcode i hi
  rw [evalAt_eq_sum, length_symbols, hlength] at hzero
  -- the codeword is 0 there, so it may be added
  have hadd := add_zero (evalAt (root i) (symbols data))
  rw [← hadd, ← hzero, evalAt_eq_sum, length_symbols, ← Finset.sum_add_distrib]
  refine (Finset.sum_subset_zero_on_sdiff (Finset.filter_subset _ _) (fun l hl => ?_)
    fun l hl => ?_)
  · have hequal : data.getD l 0 = code.getD l 0 := by
      by_contra hne
      exact (Finset.mem_sdiff.mp hl).2 (Finset.mem_filter.mpr ⟨(Finset.mem_sdiff.mp hl).1, hne⟩)
    rw [getD_symbols, getD_symbols, hequal, add_self]
  · show (⟨data.getD l 0⟩ + ⟨code.getD l 0⟩) * locator data.length l ^ fcr *
      locator data.length l ^ i = _
    rw [getD_symbols, getD_symbols, root_pow, mul_assoc, ← add_mul]
    rfl

/-! ## Roots and locations -/

section Locations

variable {n pad i l : Nat}

/-- `iprim` is the inverse of `prim`: the location is the place, in the block with its padding. -/
theorem location_of_root (hn : n = nn - pad) (hpad : pad ≤ 222) (hl : l < n)
    (h : locator n l * generator ^ i = 1) : location i = pad + l := by
  rw [locator, ← pow_add, ← pow_zero generator, generator_pow_eq_iff] at h
  unfold prim at h
  unfold nn at hn
  unfold location iprim
  omega

theorem exists_root (n l : Nat) : ∃ i, 1 ≤ i ∧ i ≤ nn ∧ locator n l * generator ^ i = 1 := by
  refine ⟨255 - prim * (n - 1 - l) % 255, ?_, ?_, ?_⟩
  · omega
  · unfold nn
    omega
  · rw [locator, ← pow_add, ← pow_zero generator, generator_pow_eq_iff]
    omega

theorem location_injective {j : Nat} (hi : 1 ≤ i ∧ i ≤ nn) (hj : 1 ≤ j ∧ j ≤ nn)
    (h : location i = location j) : i = j := by
  unfold location iprim at h
  unfold nn at hi hj
  omega

end Locations

/-- The roots that the search is for. -/
def rootsOf (p : Symbol[X]) : List Nat :=
  (List.range' 1 nn).filter fun i => p.eval (generator ^ i) = 0

section Errors

variable {data code : List UInt8} {pad : Nat}

theorem mem_rootsOf (hdata : data.length ≤ nn) (i : Nat) :
    i ∈ rootsOf (errors hdata code).locatorPoly ↔
      (1 ≤ i ∧ i ≤ nn) ∧ ∃ l ∈ wrong data code, locator data.length l * generator ^ i = 1 := by
  rw [rootsOf, List.mem_filter, List.mem_range'_1, decide_eq_true_iff,
    Errors.eval_locatorPoly_eq_zero]
  refine and_congr_left fun _ => and_congr_right fun _ => ?_
  omega

theorem lt_of_mem_wrong {l : Nat} (hl : l ∈ wrong data code) : l < data.length :=
  Finset.mem_range.mp (Finset.mem_filter.mp hl).1

section Places

variable (hpad : pad ≤ 222) (hdata : data.length = nn - pad) (hle : data.length ≤ nn)
include hpad hdata

theorem place_of_root {i : Nat} (hi : i ∈ rootsOf (errors hle code).locatorPoly) :
    ∃ l ∈ wrong data code, locator data.length l * generator ^ i = 1 ∧ location i = pad + l := by
  obtain ⟨_, l, hl, hroot⟩ := (mem_rootsOf hle i).mp hi
  exact ⟨l, hl, hroot, location_of_root hdata hpad (lt_of_mem_wrong hl) hroot⟩

theorem root_of_place {l : Nat} (hl : l ∈ wrong data code) :
    ∃ i ∈ rootsOf (errors hle code).locatorPoly, location i = pad + l := by
  obtain ⟨i, hone, hlast, hroot⟩ := exists_root data.length l
  exact ⟨i, (mem_rootsOf hle i).mpr ⟨⟨hone, hlast⟩, l, hl, hroot⟩,
    location_of_root hdata hpad (lt_of_mem_wrong hl) hroot⟩

theorem mem_locations (k : Nat) : k ∈ (rootsOf (errors hle code).locatorPoly).map location ↔
    ∃ l ∈ wrong data code, k = pad + l := by
  rw [List.mem_map]
  constructor
  · rintro ⟨i, hi, rfl⟩
    obtain ⟨l, hl, _, hlocation⟩ := place_of_root hpad hdata hle hi
    exact ⟨l, hl, hlocation⟩
  · rintro ⟨l, hl, rfl⟩
    exact root_of_place hpad hdata hle hl

omit hpad hdata in
theorem nodup_locations : ((rootsOf (errors hle code).locatorPoly).map location).Nodup := by
  refine List.Nodup.map_on (fun i hi j hj h => ?_) (List.Nodup.filter _ (List.nodup_range' ..))
  exact location_injective ((mem_rootsOf hle i).mp hi).1 ((mem_rootsOf hle j).mp hj).1 h

/-- **A location for each wrong symbol.** -/
theorem length_locations :
    ((rootsOf (errors hle code).locatorPoly).map location).length = (wrong data code).card := by
  rw [← List.toFinset_card_of_nodup (nodup_locations hle),
    ← Finset.card_image_of_injective (wrong data code) (add_right_injective pad)]
  congr 1
  ext k
  rw [List.mem_toFinset, mem_locations hpad hdata hle, Finset.mem_image]
  exact exists_congr fun l => and_congr_right fun _ => eq_comm

theorem mem_places (l : Nat) :
    l ∈ (rootsOf (errors hle code).locatorPoly).map (fun i => location i - pad) ↔
      l ∈ wrong data code := by
  rw [List.mem_map]
  constructor
  · rintro ⟨i, hi, rfl⟩
    obtain ⟨l, hl, _, hlocation⟩ := place_of_root hpad hdata hle hi
    rwa [hlocation, Nat.add_sub_cancel_left]
  · intro hl
    obtain ⟨i, hi, hlocation⟩ := root_of_place hpad hdata hle hl
    exact ⟨i, hi, by rw [hlocation, Nat.add_sub_cancel_left]⟩

theorem nodup_places :
    ((rootsOf (errors hle code).locatorPoly).map fun i => location i - pad).Nodup := by
  refine List.Nodup.map_on (fun i hi j hj h => ?_) (List.Nodup.filter _ (List.nodup_range' ..))
  obtain ⟨l, _, _, hl⟩ := place_of_root hpad hdata hle hi
  obtain ⟨k, _, _, hk⟩ := place_of_root hpad hdata hle hj
  rw [hl, hk, Nat.add_sub_cancel_left, Nat.add_sub_cancel_left] at h
  exact location_injective ((mem_rootsOf hle i).mp hi).1 ((mem_rootsOf hle j).mp hj).1
    (by rw [hl, hk, h])

end Places

end Errors

/-! ## The values -/

section Values

variable {p S : Symbol[X]} {s lambda omega : List Nat}

/-- `omega` is the product of the two polynomials, as far as it is formed. -/
theorem getD_evaluator (hs : ∀ i < nroots, S.coeff i = ofIndex (s.getD i a0))
    (h : HasIndices p lambda) {deg k : Nat} (hk : k < deg) (hdeg : deg ≤ nroots) :
    ofIndex ((evaluator s lambda deg).getD k a0) = (p * S).coeff k := by
  rw [evaluator, List.getD_eq_getElem _ _ (by rwa [List.length_map, List.length_range]),
    List.getElem_map, List.getElem_range, ofIndex_index, mk_xorSum_range, coeff_mul,
    Finset.Nat.sum_antidiagonal_eq_sum_range_succ (fun i j => p.coeff i * S.coeff j)]
  refine Finset.sum_congr rfl fun j _ => ?_
  rw [mk_term, h, hs (k - j) (by omega), mul_comm]

theorem mk_num1 (h : ∀ k < omega.length, ofIndex (omega.getD k a0) = p.coeff k)
    (hdegree : p.natDegree < omega.length) (root : Nat) :
    (⟨num1 omega root⟩ : Symbol) = p.eval (generator ^ root) := by
  rw [num1, mk_xorSum_range, eval_eq_sum_range' hdegree]
  refine Finset.sum_congr rfl fun k hk => ?_
  rw [mk_scaled, h k (Finset.mem_range.mp hk), ← pow_mul, Nat.mul_comm]

theorem mk_num2 (root : Nat) : (⟨num2 root⟩ : Symbol) = (generator ^ root) ^ (fcr - 1) := by
  rw [num2, mk_alpha, pow_add, generator_pow_nn, mul_one, pow_mul]

theorem cast_two_mul (h : Nat) : ((2 * h : Nat) : Symbol) = 0 := by
  rw [Nat.two_mul, Nat.cast_add, add_self]

theorem sum_range_two_mul (f : Nat → Symbol) (n : Nat) :
    ∑ i ∈ Finset.range (2 * n), f i = ∑ h ∈ Finset.range n, (f (2 * h) + f (2 * h + 1)) := by
  induction n with
  | zero => rfl
  | succ n ih =>
    rw [Nat.mul_succ, Finset.sum_range_succ, Finset.sum_range_succ, ih, Finset.sum_range_succ,
      add_assoc]

/-- `den` is the derivative: of this field, only the odd powers have one. -/
theorem mk_den (h : HasIndices p lambda) (hdegree : p.natDegree < nroots) (root : Nat) :
    (⟨den lambda p.natDegree root⟩ : Symbol) = (derivative p).eval (generator ^ root) := by
  have hmin : min p.natDegree (nroots - 1) = p.natDegree :=
    Nat.min_eq_left (Nat.le_sub_one_of_lt hdegree)
  have hbelow : (derivative p).natDegree < 2 * (p.natDegree / 2 + 1) := by
    have := natDegree_derivative_le p
    omega
  rw [den, hmin, mk_xorSum_range, eval_eq_sum_range' hbelow, sum_range_two_mul]
  refine Finset.sum_congr rfl fun k _ => ?_
  rw [coeff_derivative, coeff_derivative, Nat.cast_add, cast_two_mul, zero_add, zero_add,
    Nat.cast_one, add_self, mul_zero, zero_mul, add_zero, mul_one, mk_scaled, h, ← pow_mul,
    Nat.mul_comm root]

theorem applyError_eq {deg pad i l : Nat} {x : UInt8} (hlocation : location i = pad + l)
    (hnum1 : num1 omega i ≠ 0) (hden : den lambda deg i ≠ 0)
    (hx : (⟨x⟩ : Symbol) * ⟨den lambda deg i⟩ = ⟨num1 omega i⟩ * ⟨num2 i⟩) (block : List UInt8) :
    applyError lambda omega deg pad block (i, location i) =
      block.set l (block.getD l 0 ^^^ x) := by
  have hnum2 : num2 i ≠ 0 := by
    rw [Ne, ← mk_eq_zero, mk_num2]
    exact pow_ne_zero _ (pow_ne_zero _ generator_ne_zero)
  have hsymbol : (⟨alpha (mod255 (index (num1 omega i) + index (num2 i) + nn -
      index (den lambda deg i)))⟩ : Symbol) = ⟨x⟩ := by
    refine mul_right_cancel₀ (mt mk_eq_zero.mp hden) ?_
    rw [mk_alpha, generator_pow_sub_mul hden, pow_add, generator_pow_index hnum1,
      generator_pow_index hnum2, hx]
  have hvalue : alpha (mod255 (index (num1 omega i) + index (num2 i) + nn -
      index (den lambda deg i))) = x := congrArg Symbol.byte hsymbol
  unfold applyError
  dsimp only
  rw [hlocation, if_pos ⟨hnum1, Nat.le_add_right pad l⟩, Nat.add_sub_cancel_left, hvalue]

end Values

/-- What is wrong at the places found is put right, one after the other. -/
theorem foldl_corrected {α : Type} {data code : List UInt8} (hlength : code.length = data.length)
    (f : List UInt8 → α → List UInt8) (place : α → Nat) (found : List α)
    (hf : ∀ a ∈ found, ∀ block, f block a = block.set (place a)
      (block.getD (place a) 0 ^^^ (data.getD (place a) 0 ^^^ code.getD (place a) 0)))
    (hnodup : (found.map place).Nodup) (block : List UInt8) (hblock : block.length = data.length)
    (hvalue : ∀ l < data.length,
      block.getD l 0 = if l ∈ found.map place then data.getD l 0 else code.getD l 0) :
    found.foldl f block = code := by
  induction found generalizing block with
  | nil =>
    rw [List.foldl_nil]
    refine List.ext_getElem (by rw [hblock, hlength]) fun l hl hl' => ?_
    have h := hvalue l (by rwa [← hlength])
    rw [List.map_nil, if_neg List.not_mem_nil, List.getD_eq_getElem _ _ hl,
      List.getD_eq_getElem _ _ hl'] at h
    exact h
  | cons a found ih =>
    rw [List.map_cons, List.nodup_cons] at hnodup
    rw [List.foldl_cons, hf a List.mem_cons_self]
    refine ih (fun b hb => hf b (List.mem_cons_of_mem a hb)) hnodup.2 _
      (by rw [List.length_set, hblock]) fun l hl => ?_
    have h := hvalue l hl
    rw [List.getD_eq_getElem?_getD, List.getElem?_set]
    by_cases hplace : place a = l
    · subst hplace
      rw [List.map_cons, if_pos List.mem_cons_self] at h
      rw [if_pos rfl, if_pos (by rwa [hblock]), Option.getD_some, h, ← UInt8.xor_assoc,
        UInt8.xor_self, UInt8.zero_xor, if_neg hnodup.1]
    · rw [if_neg hplace, ← List.getD_eq_getElem?_getD, h, List.map_cons]
      refine if_congr ?_ rfl rfl
      rw [List.mem_cons]
      exact or_iff_right fun h => hplace h.symm

/-! ## The decoder -/

section Decoder

variable {data code : List UInt8} {pad : Nat}

theorem inv_locator (hle : data.length ≤ nn) {i l : Nat}
    (hroot : locator data.length l * generator ^ i = 1) :
    ((errors hle code).locator l)⁻¹ = generator ^ i := inv_eq_of_mul_eq_one_right hroot

theorem value_errors (hle : data.length ≤ nn) (l : Nat) : (errors hle code).value l =
    (⟨data.getD l 0⟩ + ⟨code.getD l 0⟩) * locator data.length l ^ fcr := rfl

/-- What the error at a root is, from the evaluator and the derivative. -/
theorem value_of_root (hle : data.length ≤ nn) {i l : Nat} (hl : l ∈ wrong data code)
    (hroot : locator data.length l * generator ^ i = 1) :
    (⟨data.getD l 0 ^^^ code.getD l 0⟩ : Symbol) *
        (derivative (errors hle code).locatorPoly).eval (generator ^ i) =
      (errors hle code).evaluator.eval (generator ^ i) * (generator ^ i) ^ (fcr - 1) := by
  have hforney := (errors hle code).value_eq (l := l) hl
  have hlocator : (errors hle code).locator l = locator data.length l := rfl
  rw [inv_locator hle hroot, value_errors, hlocator, neg_eq] at hforney
  have hpower : locator data.length l ^ fcr * (generator ^ i) ^ fcr = 1 := by
    rw [← mul_pow, hroot, one_pow]
  have hlast : (generator ^ i) ^ fcr = generator ^ i * (generator ^ i) ^ (fcr - 1) := pow_succ' _ _
  rw [mk_xor]
  generalize (derivative (errors hle code).locatorPoly).eval (generator ^ i) = u at hforney ⊢
  generalize (errors hle code).evaluator.eval (generator ^ i) = v at hforney ⊢
  calc (⟨data.getD l 0⟩ + ⟨code.getD l 0⟩) * u
      = (⟨data.getD l 0⟩ + ⟨code.getD l 0⟩) * u *
          (locator data.length l ^ fcr * (generator ^ i) ^ fcr) := by rw [hpower, mul_one]
    _ = (⟨data.getD l 0⟩ + ⟨code.getD l 0⟩) * locator data.length l ^ fcr * u *
          (generator ^ i) ^ fcr := by ring
    _ = locator data.length l * generator ^ i * (v * (generator ^ i) ^ (fcr - 1)) := by
      rw [hforney, hlast]
      ring
    _ = v * (generator ^ i) ^ (fcr - 1) := by rw [hroot, one_mul]

theorem eq_of_wrong_eq_empty (hlength : code.length = data.length) (h : wrong data code = ∅) :
    data = code := by
  refine List.ext_getElem hlength.symm fun l hl hl' => ?_
  by_contra hne
  refine (Finset.eq_empty_iff_forall_notMem.mp h l) (Finset.mem_filter.mpr
    ⟨Finset.mem_range.mpr hl, ?_⟩)
  rwa [List.getD_eq_getElem _ _ hl, List.getD_eq_getElem _ _ hl']

section Syndromes

variable (hpad : pad ≤ 222) (hdata : data.length = nn - pad) (hle : data.length ≤ nn)
  (hlength : code.length = data.length) (hcode : IsCodeword code)
include hpad hdata hle hlength hcode

theorem mk_getD_syndromes {i : Nat} (hi : i < nroots) :
    (⟨(syndromes data pad).getD i 0⟩ : Symbol) = (errors hle code).powerSum i :=
  (getD_syndromes hpad hdata hi).2.trans (powerSum_errors hle hlength hcode hi).symm

theorem coeff_syndromes {i : Nat} (hi : i < nroots) :
    ((errors hle code).syndrome nroots).coeff i =
      ofIndex (((syndromes data pad).map index).getD i a0) := by
  have hget := List.getD_map (syndromes data pad) 0 (n := i) index
  rw [(errors hle code).coeff_syndrome hi, ← mk_getD_syndromes hpad hdata hle hlength hcode hi,
    ← ofIndex_index]
  exact congrArg ofIndex hget.symm

/-- As long as there are at most 32 errors, they are seen. -/
theorem all_syndromes (hwrong : (wrong data code).card ≤ nroots) :
    (syndromes data pad).all (· = 0) ↔ wrong data code = ∅ := by
  have hcount : (syndromes data pad).length = nroots :=
    (getD_syndromes hpad hdata (by decide : 0 < nroots)).1
  constructor
  · intro hall
    refine (errors hle code).places_eq_empty hwrong fun i hi => ?_
    have hmem : (syndromes data pad).getD i 0 ∈ syndromes data pad := by
      rw [List.getD_eq_getElem _ _ (by rwa [hcount])]
      exact List.getElem_mem _
    rw [← mk_getD_syndromes hpad hdata hle hlength hcode hi, mk_eq_zero]
    exact decide_eq_true_iff.mp (List.all_eq_true.mp hall _ hmem)
  · intro hempty
    refine List.all_eq_true.mpr fun x hx => decide_eq_true_iff.mpr ?_
    obtain ⟨i, hi, rfl⟩ := List.getElem_of_mem hx
    have hsum := mk_getD_syndromes hpad hdata hle hlength hcode (i := i) (by rwa [← hcount])
    have hzero : (errors hle code).powerSum i = 0 := by
      rw [Errors.powerSum, show (errors hle code).places = ∅ from hempty, Finset.sum_empty]
    rwa [hzero, mk_eq_zero, List.getD_eq_getElem _ _ hi] at hsum

end Syndromes

/-- A root found puts the wrong symbol of its location right. -/
theorem applyError_found (hpad : pad ≤ 222) (hdata : data.length = nn - pad)
    (hle : data.length ≤ nn) (hlength : code.length = data.length) (hcode : IsCodeword code)
    (hwrong : (wrong data code).card < nroots) {lambda : List Nat}
    (hlambda : HasIndices (errors hle code).locatorPoly lambda) {i : Nat}
    (hi : i ∈ rootsOf (errors hle code).locatorPoly) (block : List UInt8) :
    applyError lambda
        (evaluator ((syndromes data pad).map index) lambda (errors hle code).locatorPoly.natDegree)
        (errors hle code).locatorPoly.natDegree pad block (i, location i) =
      block.set (location i - pad) (block.getD (location i - pad) 0 ^^^
        (data.getD (location i - pad) 0 ^^^ code.getD (location i - pad) 0)) := by
  obtain ⟨l, hl, hroot, hlocation⟩ := place_of_root hpad hdata hle hi
  have hdegree : (errors hle code).locatorPoly.natDegree = (wrong data code).card :=
    (errors hle code).natDegree_locatorPoly
  have heval : (errors hle code).evaluator.eval (generator ^ i) ≠ 0 := by
    have h := (errors hle code).eval_evaluator (l := l) hl
    rw [← inv_locator hle hroot, h]
    exact mul_ne_zero ((errors hle code).value_ne l hl)
      (Errors.others_ne_zero (e := errors hle code) hl)
  have hderivative : (derivative (errors hle code).locatorPoly).eval (generator ^ i) ≠ 0 := by
    have h := Errors.eval_derivative_ne_zero (e := errors hle code) (l := l) hl
    rwa [inv_locator hle hroot] at h
  have hbelow : (errors hle code).evaluator.natDegree < (wrong data code).card := by
    refine (natDegree_lt_iff_degree_lt fun h => heval ?_).mpr (errors hle code).degree_evaluator
    rw [h, eval_zero]
  have hnum1 : (⟨num1 (evaluator ((syndromes data pad).map index) lambda
      (errors hle code).locatorPoly.natDegree) i⟩ : Symbol) =
      (errors hle code).evaluator.eval (generator ^ i) := by
    refine mk_num1 (fun k hk => ?_) ?_ i
    · rw [evaluator, List.length_map, List.length_range] at hk
      rw [getD_evaluator (fun i hi => coeff_syndromes hpad hdata hle hlength hcode hi) hlambda hk
        (by omega), (errors hle code).coeff_evaluator (n := nroots) (by omega)]
    · rwa [evaluator, List.length_map, List.length_range, hdegree]
  have hden := mk_den hlambda (by rwa [hdegree]) i
  rw [hlocation, Nat.add_sub_cancel_left, ← hlocation]
  refine applyError_eq hlocation (fun h => heval ?_) (fun h => hderivative ?_) ?_ block
  · rw [← hnum1, h]
    rfl
  · rw [← hden, h]
    rfl
  · rw [hden, hnum1, mk_num2]
    exact value_of_root hle hl hroot

/-- **A codeword with at most 16 wrong symbols is decoded**, and the locations are told. -/
theorem decodeRs8_corrects (hpad : pad ≤ 222) (hdata : data.length = nn - pad)
    (hlength : code.length = data.length) (hcode : IsCodeword code)
    (hwrong : 2 * (wrong data code).card ≤ nroots) :
    ∃ locations, decodeRs8 data [] pad = (some locations, code) ∧
      locations.length = (wrong data code).card ∧
      ∀ k, k ∈ locations ↔ ∃ l ∈ wrong data code, k = pad + l := by
  have hle : data.length ≤ nn := by omega
  have hfew : (wrong data code).card < nroots := by
    unfold nroots at hwrong ⊢
    omega
  have hpadInt : ¬((pad : Int) < 0 ∨ (pad : Int) > 222) := by omega
  have hall := all_syndromes hpad hdata hle hlength hcode hfew.le
  unfold decodeRs8
  rw [if_neg hpadInt, Int.toNat_natCast]
  dsimp only
  by_cases hempty : wrong data code = ∅
  · rw [if_pos (hall.mpr hempty), hempty]
    exact ⟨[], by rw [eq_of_wrong_eq_empty hlength hempty], rfl, fun k => by simp⟩
  · obtain ⟨_, hlambda⟩ := massey_eq fun i hi => coeff_syndromes hpad hdata hle hlength hcode hi
    rw [(errors hle code).iterate_lambda hwrong] at hlambda
    generalize (massey ((syndromes data pad).map index) []).map index = lambda at hlambda
    have hcount : ((rootsOf (errors hle code).locatorPoly).map location).length =
        (wrong data code).card := length_locations hpad hdata hle
    have hdegree : (errors hle code).locatorPoly.natDegree = (wrong data code).card :=
      (errors hle code).natDegree_locatorPoly
    have hroots : (rootsOf (errors hle code).locatorPoly).length =
        (errors hle code).locatorPoly.natDegree := by
      rw [hdegree, ← hcount, List.length_map]
    have hregister : Register (errors hle code).locatorPoly 0 lambda := fun j _ _ => by
      rw [← hlambda, Nat.zero_mul, pow_zero, mul_one]
    have hfound : chien (errors hle code).locatorPoly.natDegree (List.range' 1 nn) (iprim - 1)
        lambda [] = (rootsOf (errors hle code).locatorPoly).map fun i => (i, location i) :=
      chien_eq (errors hle code).coeff_zero_locatorPoly nn hregister []
        ((Nat.zero_add _).trans hroots).le
    rw [if_neg (mt hall.mp hempty), degLambda_eq hlambda, hfound, List.length_map, hroots,
      if_neg (not_not_intro rfl)]
    refine ⟨(rootsOf (errors hle code).locatorPoly).map location, ?_, hcount,
      mem_locations hpad hdata hle⟩
    refine Prod.ext (congrArg some (List.map_map ..)) ?_
    have hplaces : (((rootsOf (errors hle code).locatorPoly).map fun i => (i, location i)).reverse.map
        fun a => a.2 - pad) =
        ((rootsOf (errors hle code).locatorPoly).map fun i => location i - pad).reverse := by
      rw [List.map_reverse, List.map_map]
      rfl
    refine foldl_corrected hlength _ (fun a => a.2 - pad) _ (fun a ha block => ?_) ?_ data rfl
      fun l hl => ?_
    · obtain ⟨i, hi, rfl⟩ := List.mem_map.mp (List.mem_reverse.mp ha)
      exact applyError_found hpad hdata hle hlength hcode hfew hlambda hi block
    · rw [hplaces, List.nodup_reverse]
      exact nodup_places hpad hdata hle
    · rw [hplaces]
      split
      · rfl
      · next hright =>
        by_contra hne
        exact hright (List.mem_reverse.mpr ((mem_places hpad hdata hle l).mpr
          (Finset.mem_filter.mpr ⟨Finset.mem_range.mpr hl, hne⟩)))

end Decoder

/-- **What is encoded and then gets at most 16 symbols wrong is decoded**: the symbols come back,
with their parity, and the number of errors and their locations are the true ones. -/
theorem decodeRs8_encodeRs8 {message received : List UInt8} {pad : Nat} (hpad : pad ≤ 222)
    (hmessage : message.length = nn - nroots - pad) (hreceived : received.length = nn - pad)
    (hwrong : 2 * (wrong received (message ++ encodeRs8 message pad)).card ≤ nroots) :
    ∃ locations,
      decodeRs8 received [] pad = (some locations, message ++ encodeRs8 message pad) ∧
      locations.length = (wrong received (message ++ encodeRs8 message pad)).card ∧
      ∀ k, k ∈ locations ↔
        ∃ l ∈ wrong received (message ++ encodeRs8 message pad), k = pad + l := by
  have hparity : (encodeRs8 message pad).length = nroots :=
    (evalAt_encodeRs8 message pad (by decide : 0 < nroots)).1
  have hlength : (message ++ encodeRs8 message pad).length = received.length := by
    rw [List.length_append, hparity, hmessage, hreceived]
    unfold nn nroots
    omega
  have hcode : IsCodeword (message ++ encodeRs8 message pad) := fun i hi => by
    have hzero := (evalAt_encodeRs8 message pad hi).2
    rwa [List.take_of_length_le hmessage.le] at hzero
  exact decodeRs8_corrects hpad hreceived hlength hcode hwrong

theorem encodeRs8_one_symbol : encodeRs8 [83] 222 =
    [78, 193, 199, 34, 94, 137, 191, 159, 75, 17, 243, 11, 199, 55, 68, 189, 68, 55, 199, 11, 243, 17,
      75, 159, 191, 137, 94, 34, 199, 193, 78, 83] := by
  have htake : List.take (nn - nroots - 222) [(83 : UInt8)] = [83] := rfl
  rw [encodeRs8, htake, List.foldl_cons, List.foldl_nil]
  simp only [encodeStep, mod255_eq]
  decide +kernel

/-- The block of a symbol, two symbols wrong. -/
def twoWrong : List UInt8 :=
  [7, 78, 193, 199, 34, 94, 137, 191, 159, 75, 17, 243, 9, 199, 55, 68, 189, 68, 55, 199, 11, 243, 17,
    75, 159, 191, 137, 94, 34, 199, 193, 78, 83]

theorem wrong_twoWrong : wrong twoWrong ([83] ++ encodeRs8 [83] 222) = {0, 12} := by
  rw [encodeRs8_one_symbol]
  decide

theorem decodeRs8_encodeRs8_two_wrong :
    ∃ locations,
      decodeRs8 twoWrong [] (222 : Nat) = (some locations, [83] ++ encodeRs8 [83] 222) ∧
      locations.length = (wrong twoWrong ([83] ++ encodeRs8 [83] 222)).card ∧
      ∀ k, k ∈ locations ↔ ∃ l ∈ wrong twoWrong ([83] ++ encodeRs8 [83] 222), k = 222 + l :=
  decodeRs8_encodeRs8 (Nat.le_refl 222) rfl rfl (by rw [wrong_twoWrong]; decide)

end Samwise.Ssdv
