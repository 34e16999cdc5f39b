import Mathlib.Data.List.GetD
import Mathlib.Tactic.LinearCombination
import Mathlib.Tactic.Ring
import Samwise.Ssdv.Symbol

/-!
# Samwise — the Reed–Solomon encoder

A block with its parity, read as a polynomial with its first symbol the highest coefficient, is 0 at
the 32 roots of the generator polynomial. What the shift register holds is, up to a sign that there is
none of, the value of the symbols shifted in so far.
-/

namespace Samwise.Ssdv

namespace Symbol

/-- The block at a point, the first symbol the highest coefficient. -/
def evalAt (beta : Symbol) (block : List Symbol) : Symbol :=
  block.foldl (fun s x => s * beta + x) 0

section EvalAt

variable (beta : Symbol)

theorem foldl_evalAt (block : List Symbol) (s : Symbol) :
    block.foldl (fun s x => s * beta + x) s = s * beta ^ block.length + evalAt beta block := by
  induction block generalizing s with
  | nil => simp [evalAt]
  | cons x block ih =>
    rw [evalAt, List.foldl_cons, List.foldl_cons, ih, ih, List.length_cons, pow_succ']
    ring

theorem evalAt_append (block block' : List Symbol) :
    evalAt beta (block ++ block') = evalAt beta block * beta ^ block'.length + evalAt beta block' := by
  rw [evalAt, List.foldl_append, foldl_evalAt]
  rfl

theorem evalAt_singleton (x : Symbol) : evalAt beta [x] = x := by
  simp [evalAt]

theorem evalAt_cons (x : Symbol) (block : List Symbol) :
    evalAt beta (x :: block) = x * beta ^ block.length + evalAt beta block := by
  have h := evalAt_append beta [x] block
  rwa [evalAt_singleton] at h

theorem evalAt_nil : evalAt beta [] = 0 := rfl

theorem evalAt_eq_sum (block : List Symbol) : evalAt beta block =
    ∑ j ∈ Finset.range block.length, block.getD j 0 * beta ^ (block.length - 1 - j) := by
  induction block with
  | nil => rfl
  | cons x block ih =>
    rw [evalAt_cons, ih, List.length_cons, Finset.sum_range_succ', add_comm]
    congr 1
    refine Finset.sum_congr rfl fun j _ => ?_
    rw [List.getD_cons_succ, Nat.add_sub_cancel, Nat.add_comm j, Nat.sub_add_eq]

theorem evalAt_zipWith_add {block block' : List Symbol} (h : block.length = block'.length) :
    evalAt beta (List.zipWith (· + ·) block block') = evalAt beta block + evalAt beta block' := by
  induction block generalizing block' with
  | nil =>
    rw [List.length_nil] at h
    rw [List.length_eq_zero_iff.mp h.symm, List.zipWith_nil_left, evalAt_nil, add_zero]
  | cons x block ih =>
    cases block' with
    | nil => cases h
    | cons y block' =>
      have hlength : block.length = block'.length := Nat.succ.inj h
      rw [List.zipWith_cons_cons, evalAt_cons, evalAt_cons, evalAt_cons, ih hlength,
        List.length_zipWith, ← hlength, Nat.min_self]
      ring

theorem evalAt_map_mul (f : Symbol) (block : List Symbol) :
    evalAt beta (block.map (f * ·)) = f * evalAt beta block := by
  induction block with
  | nil => simp [evalAt_nil]
  | cons x block ih =>
    rw [List.map_cons, evalAt_cons, evalAt_cons, ih, List.length_map]
    ring

theorem evalAt_replicate_zero (n : Nat) : evalAt beta (List.replicate n 0) = 0 := by
  induction n with
  | zero => rfl
  | succ n ih => rw [List.replicate_succ, evalAt_cons, ih, zero_mul, add_zero]

end EvalAt

end Symbol

open Samwise.Ssdv.Symbol

/-- The symbols of a list of bytes. -/
def symbols (bytes : List UInt8) : List Symbol := bytes.map Symbol.mk

@[simp] theorem length_symbols (bytes : List UInt8) : (symbols bytes).length = bytes.length :=
  List.length_map _

@[simp] theorem symbols_nil : symbols [] = [] := rfl

@[simp] theorem symbols_cons (x : UInt8) (bytes : List UInt8) :
    symbols (x :: bytes) = ⟨x⟩ :: symbols bytes := rfl

@[simp] theorem symbols_append (bytes bytes' : List UInt8) :
    symbols (bytes ++ bytes') = symbols bytes ++ symbols bytes' := List.map_append

theorem symbols_replicate_zero (n : Nat) : symbols (List.replicate n 0) = List.replicate n 0 :=
  List.map_replicate

theorem getD_symbols (bytes : List UInt8) (i : Nat) :
    (symbols bytes).getD i 0 = ⟨bytes.getD i 0⟩ := List.getD_map _ _ Symbol.mk

/-- A root of the generator polynomial. -/
def root (i : Nat) : Symbol := generator ^ ((fcr + i) * prim)

/-- The coefficients of the generator polynomial that are shifted in, the highest first. -/
def genSymbols : List Symbol := (List.range nroots).map fun j => generator ^ gen (nroots - 1 - j)

theorem toNat_xorSum (terms : List UInt8) :
    (xorSum terms).toNat = (terms.map UInt8.toNat).foldl (· ^^^ ·) 0 := by
  have hfold (x : UInt8) : (terms.foldl (· ^^^ ·) x).toNat =
      (terms.map UInt8.toNat).foldl (· ^^^ ·) x.toNat := by
    induction terms generalizing x with
    | nil => rfl
    | cons y terms ih =>
      rw [List.map_cons, List.foldl_cons, List.foldl_cons, ih, UInt8.toNat_xor]
  exact hfold 0

theorem genpoly_zero (i : Nat) (hi : i < 32) :
    xorSum ((List.range 33).map fun k => alpha ((gen k + (fcr + i) * prim * k) % 255)) = 0 := by
  have hdigits : ∀ i < 32, ((List.range 33).map fun k =>
      pack alphaTo / 256 ^ ((gen k + (fcr + i) * prim * k) % 255) % 256).foldl (· ^^^ ·) 0 = 0 := by
    decide +kernel
  apply UInt8.toNat_inj.mp
  have hmap : (List.range 33).map
      (UInt8.toNat ∘ fun k => alpha ((gen k + (fcr + i) * prim * k) % 255)) =
      (List.range 33).map fun k =>
        pack alphaTo / 256 ^ ((gen k + (fcr + i) * prim * k) % 255) % 256 :=
    List.map_congr_left fun k _ => toNat_getD alphaTo _
  rw [toNat_xorSum, List.map_map, hmap, hdigits i hi]
  rfl

/-- `GENPOLY` is 0 at the roots, and its highest coefficient is 1. -/
theorem evalAt_genSymbols {i : Nat} (hi : i < nroots) :
    evalAt (root i) genSymbols = root i ^ nroots := by
  have hzero := congrArg Symbol.mk (genpoly_zero i hi)
  rw [mk_xorSum_range, Finset.sum_range_succ] at hzero
  have hterm (k : Nat) : (⟨alpha ((gen k + (fcr + i) * prim * k) % 255)⟩ : Symbol) =
      generator ^ gen k * root i ^ k := by
    rw [← generator_pow, pow_add, pow_mul, root]
  have hhighest : gen 32 = 0 := by decide
  rw [Finset.sum_congr rfl fun k _ => hterm k, hterm, hhighest, pow_zero, one_mul] at hzero
  have hlength : genSymbols.length = 32 := by
    rw [genSymbols, List.length_map, List.length_range]
    rfl
  have hsum : evalAt (root i) genSymbols =
      ∑ k ∈ Finset.range 32, generator ^ gen k * root i ^ k := by
    rw [evalAt_eq_sum, hlength, ← Finset.sum_range_reflect]
    refine Finset.sum_congr rfl fun j hj => ?_
    have hj : j < 32 := Finset.mem_range.mp hj
    have hget : genSymbols.getD (32 - 1 - j) 0 = generator ^ gen j := by
      have hindex : 32 - 1 - j < (List.range nroots).length := by
        rw [List.length_range]
        exact Nat.lt_of_le_of_lt (Nat.sub_le _ _) (by decide)
      rw [genSymbols, List.getD_eq_getElem _ _ (by rwa [List.length_map]), List.getElem_map,
        List.getElem_range]
      congr 2
      show 32 - 1 - (32 - 1 - j) = j
      omega
    rw [hget]
    congr 2
    omega
  rw [hsum]
  exact eq_of_add_eq_zero hzero

/-! ## The shift register -/

theorem length_encodeStep {parity : List UInt8} (h : parity.length = nroots) (d : UInt8) :
    (encodeStep parity d).length = nroots := by
  unfold encodeStep
  dsimp only
  split <;> simp [h, nroots]

/-- What a symbol of the register has after a step, `f` the symbol that is fed back. -/
theorem mk_feedback (x d p : UInt8) (i : Nat) :
    (⟨if index (d ^^^ p) ≠ a0 then x ^^^ alpha (mod255 (index (d ^^^ p) + gen i)) else x⟩ : Symbol) =
      ⟨x⟩ + (⟨d⟩ + ⟨p⟩) * generator ^ gen i := by
  have hfed : (⟨d⟩ + ⟨p⟩ : Symbol) = ⟨d ^^^ p⟩ := rfl
  rw [hfed]
  by_cases hzero : d ^^^ p = 0
  · rw [if_neg (not_not_intro ((index_eq_a0 _).mpr hzero)), hzero]
    show _ = _ + 0 * _
    rw [zero_mul, add_zero]
  · rw [if_pos fun h => hzero ((index_eq_a0 _).mp h), mk_xor, mk_alpha, pow_add,
      generator_pow_index hzero]

theorem encodeStep_cons (p : UInt8) (rest : List UInt8) (d : UInt8) :
    encodeStep (p :: rest) d =
      (rest.mapIdx fun j x =>
        if index (d ^^^ p) ≠ a0 then x ^^^ alpha (mod255 (index (d ^^^ p) + gen (nroots - 1 - j)))
        else x) ++
      [if index (d ^^^ p) ≠ a0 then 0 ^^^ alpha (mod255 (index (d ^^^ p) + gen 0)) else 0] := by
  have hhead : (p :: rest).getD 0 0 = p := rfl
  unfold encodeStep
  rw [hhead]
  generalize index (d ^^^ p) = feedback
  dsimp only
  split
  · rw [List.mapIdx_cons, List.tail_cons, UInt8.zero_xor]
    congr 2
    funext j x
    rw [if_neg (Nat.succ_ne_zero j), Nat.add_comm j, Nat.sub_add_eq]
  · rw [List.tail_cons]
    congr 1
    exact (List.mapIdx_eq_iff.mpr fun i => by simp).symm

/-- The register is shifted, and the generator polynomial is added as often as is fed back. -/
theorem symbols_encodeStep {p : UInt8} {rest : List UInt8} (h : rest.length = nroots - 1) (d : UInt8) :
    symbols (encodeStep (p :: rest) d) =
      List.zipWith (· + ·) (symbols rest ++ [0]) (genSymbols.map ((⟨d⟩ + ⟨p⟩ : Symbol) * ·)) := by
  have hgen : genSymbols =
      ((List.range (nroots - 1)).map fun j => generator ^ gen (nroots - 1 - j)) ++
        [generator ^ gen 0] := by
    rw [genSymbols, show nroots = nroots - 1 + 1 from rfl, List.range_succ, List.map_append]
    rfl
  have hlength : (symbols rest).length =
      (((List.range (nroots - 1)).map fun j => generator ^ gen (nroots - 1 - j)).map
        ((⟨d⟩ + ⟨p⟩ : Symbol) * ·)).length := by
    rw [length_symbols, h, List.length_map, List.length_map, List.length_range]
  rw [encodeStep_cons, symbols_append, hgen, List.map_append, List.zipWith_append hlength]
  refine congrArg₂ (· ++ ·) ?_ ?_
  · refine List.ext_getElem (by simp [symbols, h]) fun j hj hj' => ?_
    simp only [symbols, List.getElem_map, List.getElem_mapIdx, List.getElem_zipWith,
      List.getElem_range]
    exact mk_feedback _ _ _ _
  · rw [symbols_cons, symbols_nil, mk_feedback]
    rfl

/-- What a step does to the value of the register at a root. -/
theorem evalAt_encodeStep {parity : List UInt8} (h : parity.length = nroots) (d : UInt8) {i : Nat}
    (hi : i < nroots) :
    evalAt (root i) (symbols (encodeStep parity d)) =
      root i * evalAt (root i) (symbols parity) + ⟨d⟩ * root i ^ nroots := by
  cases parity with
  | nil => cases h
  | cons p rest =>
    have hrest : rest.length = nroots - 1 := Nat.succ.inj h
    have hlength : (symbols rest ++ [0]).length =
        (genSymbols.map ((⟨d⟩ + ⟨p⟩ : Symbol) * ·)).length := by
      rw [List.length_append, length_symbols, List.length_map, hrest, genSymbols, List.length_map,
        List.length_range]
      rfl
    have hpower : root i ^ nroots = root i * root i ^ (nroots - 1) := (pow_succ' _ _)
    rw [symbols_encodeStep hrest, evalAt_zipWith_add _ hlength, evalAt_map_mul,
      evalAt_genSymbols hi, evalAt_append, evalAt_singleton, List.length_singleton, symbols_cons,
      evalAt_cons, length_symbols, hrest, hpower]
    ring

/-- The register and the symbols that have gone through it. Induction on the symbols. -/
theorem evalAt_register {i : Nat} (hi : i < nroots) (data : List UInt8) {before parity : List UInt8}
    (hlength : parity.length = nroots)
    (h : evalAt (root i) (symbols before) * root i ^ nroots + evalAt (root i) (symbols parity) = 0) :
    (data.foldl encodeStep parity).length = nroots ∧
      evalAt (root i) (symbols (before ++ data)) * root i ^ nroots +
        evalAt (root i) (symbols (data.foldl encodeStep parity)) = 0 := by
  induction data generalizing before parity with
  | nil =>
    rw [List.append_nil]
    exact ⟨hlength, h⟩
  | cons d data ih =>
    rw [List.append_cons, List.foldl_cons]
    refine ih (length_encodeStep hlength d) ?_
    rw [evalAt_encodeStep hlength d hi, symbols_append, evalAt_append, symbols_cons, symbols_nil,
      evalAt_singleton, List.length_singleton, pow_one]
    have hself := add_self ((⟨d⟩ : Symbol) * root i ^ nroots)
    linear_combination root i * h + hself

/-- **The parity makes a codeword**: the symbols and their parity are 0 at every root. -/
theorem evalAt_encodeRs8 (data : List UInt8) (pad : Nat) {i : Nat} (hi : i < nroots) :
    (encodeRs8 data pad).length = nroots ∧
      evalAt (root i) (symbols (data.take (nn - nroots - pad) ++ encodeRs8 data pad)) = 0 := by
  have hstart : evalAt (root i) (symbols []) * root i ^ nroots +
      evalAt (root i) (symbols (List.replicate nroots 0)) = 0 := by
    rw [symbols_replicate_zero, evalAt_replicate_zero, symbols_nil, evalAt_nil, zero_mul, add_zero]
  obtain ⟨hlength, hzero⟩ := evalAt_register hi (data.take (nn - nroots - pad))
    (List.length_replicate) hstart
  refine ⟨hlength, ?_⟩
  rw [symbols_append, evalAt_append, length_symbols, encodeRs8, hlength]
  exact hzero

end Samwise.Ssdv
