import Mathlib.Data.FinEnum

/-!
# Samwise — the Reed–Solomon codec

`payload/ssdv/rs8.c`: a block of 255 symbols of 8 bits, of which the last 32 are parity and the first
`pad` are zeros that are not transmitted. A symbol is a byte, or, in index form, its logarithm, with
255 for the symbol 0.
-/

namespace Samwise.Ssdv

/-- `ALPHA_TO`. -/
def alphaTo : List UInt8 := [
    0x01, 0x02, 0x04, 0x08, 0x10, 0x20, 0x40, 0x80, 0x87, 0x89, 0x95, 0xAD, 0xDD, 0x3D, 0x7A,
    0xF4, 0x6F, 0xDE, 0x3B, 0x76, 0xEC, 0x5F, 0xBE, 0xFB, 0x71, 0xE2, 0x43, 0x86, 0x8B, 0x91,
    0xA5, 0xCD, 0x1D, 0x3A, 0x74, 0xE8, 0x57, 0xAE, 0xDB, 0x31, 0x62, 0xC4, 0x0F, 0x1E, 0x3C,
    0x78, 0xF0, 0x67, 0xCE, 0x1B, 0x36, 0x6C, 0xD8, 0x37, 0x6E, 0xDC, 0x3F, 0x7E, 0xFC, 0x7F,
    0xFE, 0x7B, 0xF6, 0x6B, 0xD6, 0x2B, 0x56, 0xAC, 0xDF, 0x39, 0x72, 0xE4, 0x4F, 0x9E, 0xBB,
    0xF1, 0x65, 0xCA, 0x13, 0x26, 0x4C, 0x98, 0xB7, 0xE9, 0x55, 0xAA, 0xD3, 0x21, 0x42, 0x84,
    0x8F, 0x99, 0xB5, 0xED, 0x5D, 0xBA, 0xF3, 0x61, 0xC2, 0x03, 0x06, 0x0C, 0x18, 0x30, 0x60,
    0xC0, 0x07, 0x0E, 0x1C, 0x38, 0x70, 0xE0, 0x47, 0x8E, 0x9B, 0xB1, 0xE5, 0x4D, 0x9A, 0xB3,
    0xE1, 0x45, 0x8A, 0x93, 0xA1, 0xC5, 0x0D, 0x1A, 0x34, 0x68, 0xD0, 0x27, 0x4E, 0x9C, 0xBF,
    0xF9, 0x75, 0xEA, 0x53, 0xA6, 0xCB, 0x11, 0x22, 0x44, 0x88, 0x97, 0xA9, 0xD5, 0x2D, 0x5A,
    0xB4, 0xEF, 0x59, 0xB2, 0xE3, 0x41, 0x82, 0x83, 0x81, 0x85, 0x8D, 0x9D, 0xBD, 0xFD, 0x7D,
    0xFA, 0x73, 0xE6, 0x4B, 0x96, 0xAB, 0xD1, 0x25, 0x4A, 0x94, 0xAF, 0xD9, 0x35, 0x6A, 0xD4,
    0x2F, 0x5E, 0xBC, 0xFF, 0x79, 0xF2, 0x63, 0xC6, 0x0B, 0x16, 0x2C, 0x58, 0xB0, 0xE7, 0x49,
    0x92, 0xA3, 0xC1, 0x05, 0x0A, 0x14, 0x28, 0x50, 0xA0, 0xC7, 0x09, 0x12, 0x24, 0x48, 0x90,
    0xA7, 0xC9, 0x15, 0x2A, 0x54, 0xA8, 0xD7, 0x29, 0x52, 0xA4, 0xCF, 0x19, 0x32, 0x64, 0xC8,
    0x17, 0x2E, 0x5C, 0xB8, 0xF7, 0x69, 0xD2, 0x23, 0x46, 0x8C, 0x9F, 0xB9, 0xF5, 0x6D, 0xDA,
    0x33, 0x66, 0xCC, 0x1F, 0x3E, 0x7C, 0xF8, 0x77, 0xEE, 0x5B, 0xB6, 0xEB, 0x51, 0xA2, 0xC3,
    0x00]

/-- `INDEX_OF`. -/
def indexOf : List UInt8 := [
    0xFF, 0x00, 0x01, 0x63, 0x02, 0xC6, 0x64, 0x6A, 0x03, 0xCD, 0xC7, 0xBC, 0x65, 0x7E, 0x6B,
    0x2A, 0x04, 0x8D, 0xCE, 0x4E, 0xC8, 0xD4, 0xBD, 0xE1, 0x66, 0xDD, 0x7F, 0x31, 0x6C, 0x20,
    0x2B, 0xF3, 0x05, 0x57, 0x8E, 0xE8, 0xCF, 0xAC, 0x4F, 0x83, 0xC9, 0xD9, 0xD5, 0x41, 0xBE,
    0x94, 0xE2, 0xB4, 0x67, 0x27, 0xDE, 0xF0, 0x80, 0xB1, 0x32, 0x35, 0x6D, 0x45, 0x21, 0x12,
    0x2C, 0x0D, 0xF4, 0x38, 0x06, 0x9B, 0x58, 0x1A, 0x8F, 0x79, 0xE9, 0x70, 0xD0, 0xC2, 0xAD,
    0xA8, 0x50, 0x75, 0x84, 0x48, 0xCA, 0xFC, 0xDA, 0x8A, 0xD6, 0x54, 0x42, 0x24, 0xBF, 0x98,
    0x95, 0xF9, 0xE3, 0x5E, 0xB5, 0x15, 0x68, 0x61, 0x28, 0xBA, 0xDF, 0x4C, 0xF1, 0x2F, 0x81,
    0xE6, 0xB2, 0x3F, 0x33, 0xEE, 0x36, 0x10, 0x6E, 0x18, 0x46, 0xA6, 0x22, 0x88, 0x13, 0xF7,
    0x2D, 0xB8, 0x0E, 0x3D, 0xF5, 0xA4, 0x39, 0x3B, 0x07, 0x9E, 0x9C, 0x9D, 0x59, 0x9F, 0x1B,
    0x08, 0x90, 0x09, 0x7A, 0x1C, 0xEA, 0xA0, 0x71, 0x5A, 0xD1, 0x1D, 0xC3, 0x7B, 0xAE, 0x0A,
    0xA9, 0x91, 0x51, 0x5B, 0x76, 0x72, 0x85, 0xA1, 0x49, 0xEB, 0xCB, 0x7C, 0xFD, 0xC4, 0xDB,
    0x1E, 0x8B, 0xD2, 0xD7, 0x92, 0x55, 0xAA, 0x43, 0x0B, 0x25, 0xAF, 0xC0, 0x73, 0x99, 0x77,
    0x96, 0x5C, 0xFA, 0x52, 0xE4, 0xEC, 0x5F, 0x4A, 0xB6, 0xA2, 0x16, 0x86, 0x69, 0xC5, 0x62,
    0xFE, 0x29, 0x7D, 0xBB, 0xCC, 0xE0, 0xD3, 0x4D, 0x8C, 0xF2, 0x1F, 0x30, 0xDC, 0x82, 0xAB,
    0xE7, 0x56, 0xB3, 0x93, 0x40, 0xD8, 0x34, 0xB0, 0xEF, 0x26, 0x37, 0x0C, 0x11, 0x44, 0x6F,
    0x78, 0x19, 0x9A, 0x47, 0x74, 0xA7, 0xC1, 0x23, 0x53, 0x89, 0xFB, 0x14, 0x5D, 0xF8, 0x97,
    0x2E, 0x4B, 0xB9, 0x60, 0x0F, 0xED, 0x3E, 0xE5, 0xF6, 0x87, 0xA5, 0x17, 0x3A, 0xA3, 0x3C,
    0xB7]

/-- `GENPOLY`, in index form. -/
def genpoly : List UInt8 := [
    0x00, 0xF9, 0x3B, 0x42, 0x04, 0x2B, 0x7E, 0xFB, 0x61, 0x1E, 0x03, 0xD5, 0x32, 0x42, 0xAA,
    0x05, 0x18, 0x05, 0xAA, 0x42, 0x32, 0xD5, 0x03, 0x1E, 0x61, 0xFB, 0x7E, 0x2B, 0x04, 0x42,
    0x3B, 0xF9, 0x00]

/-- `mod255`. -/
def mod255 (x : Nat) : Nat :=
  if 255 ≤ x then mod255 ((x - 255) / 256 + (x - 255) % 256) else x
termination_by x
decreasing_by omega

/-- `NN`. -/
def nn : Nat := 255

/-- `NROOTS`. -/
def nroots : Nat := 32

/-- `FCR`. -/
def fcr : Nat := 112

/-- `PRIM`. -/
def prim : Nat := 11

/-- `IPRIM`. -/
def iprim : Nat := 116

/-- `A0`. -/
def a0 : Nat := nn

/-- `ALPHA_TO[i]`. -/
def alpha (i : Nat) : UInt8 := alphaTo.getD i 0

/-- `INDEX_OF[x]`. -/
def index (x : UInt8) : Nat := (indexOf.getD x.toNat 0).toNat

/-- `GENPOLY[i]`. -/
def gen (i : Nat) : Nat := (genpoly.getD i 0).toNat

/-! ## The encoder -/

/-- The loop of `encode_rs_8`: a symbol is shifted in. -/
def encodeStep (parity : List UInt8) (d : UInt8) : List UInt8 :=
  let feedback := index (d ^^^ parity.getD 0 0)
  let parity :=
    if feedback ≠ a0 then
      parity.mapIdx fun j p => if j = 0 then p else p ^^^ alpha (mod255 (feedback + gen (nroots - j)))
    else parity
  parity.tail ++ [if feedback ≠ a0 then alpha (mod255 (feedback + gen 0)) else 0]

/-- `encode_rs_8`: the parity of the symbols at the front of `data`. -/
def encodeRs8 (data : List UInt8) (pad : Nat) : List UInt8 :=
  (data.take (nn - nroots - pad)).foldl encodeStep (List.replicate nroots 0)

/-! ## The decoder -/

/-- `s`, in poly-form: the block, evaluated at the roots. -/
def syndromes (data : List UInt8) (pad : Nat) : List UInt8 :=
  (List.range' 1 (nn - pad - 1)).foldl
    (fun s j => s.mapIdx fun i x =>
      if x = 0 then data.getD j 0
      else data.getD j 0 ^^^ alpha (mod255 (index x + (fcr + i) * prim)))
    (List.replicate nroots (data.getD 0 0))

/-- The sum of symbols. -/
def xorSum (terms : List UInt8) : UInt8 := terms.foldl (· ^^^ ·) 0

/-- The product of two symbols in index form. -/
def term (x y : Nat) : UInt8 := if x ≠ a0 ∧ y ≠ a0 then alpha (mod255 (x + y)) else 0

/-- `lambda`, in poly-form, as the erasure locator polynomial. -/
def erasureLocator (erasures : List Nat) : List UInt8 :=
  (erasures.zipIdx).foldl
    (fun lambda (pos, i) =>
      let u := mod255 (prim * (nn - 1 - pos))
      if i = 0 then lambda.set 1 (alpha u)
      else
        -- from the highest coefficient down
        ((List.range (i + 1)).reverse).foldl
          (fun lambda j =>
            let tmp := index (lambda.getD j 0)
            if tmp ≠ a0 then lambda.set (j + 1) (lambda.getD (j + 1) 0 ^^^ alpha (mod255 (u + tmp)))
            else lambda)
          lambda)
    ((1 : UInt8) :: List.replicate nroots 0)

/-- What the Berlekamp–Massey algorithm has in hand: `lambda` in poly-form, `b` in index form. -/
structure MasseyState where
  lambda : List UInt8
  b : List Nat
  el : Nat
deriving DecidableEq

/-- `discr_r`, in poly-form; `s` is in index form. -/
def discrepancy (s : List Nat) (lambda : List UInt8) (r : Nat) : UInt8 :=
  xorSum ((List.range r).map fun i =>
    if lambda.getD i 0 ≠ 0 ∧ s.getD (r - i - 1) a0 ≠ a0 then
      alpha (mod255 (index (lambda.getD i 0) + s.getD (r - i - 1) a0))
    else 0)

/-- The loop of the Berlekamp–Massey algorithm, at step `r`. -/
def masseyStep (s : List Nat) (noEras : Nat) (m : MasseyState) (r : Nat) : MasseyState :=
  let discr := index (discrepancy s m.lambda r)
  if discr = a0 then { m with b := a0 :: m.b.take nroots }
  else
    let t := m.lambda.mapIdx fun i x =>
      if i = 0 then x
      else if m.b.getD (i - 1) a0 ≠ a0 then x ^^^ alpha (mod255 (discr + m.b.getD (i - 1) a0)) else x
    if 2 * m.el ≤ r + noEras - 1 then
      { lambda := t
        b := m.lambda.map fun x => if x = 0 then a0 else mod255 (index x + nn - discr)
        el := r + noEras - m.el }
    else { m with lambda := t, b := a0 :: m.b.take nroots }

/-- The error and erasure locator polynomial, in poly-form. -/
def massey (s : List Nat) (erasures : List Nat) : List UInt8 :=
  let lambda := erasureLocator erasures
  ((List.range' (erasures.length + 1) (nroots - erasures.length)).foldl
    (masseyStep s erasures.length) ⟨lambda, lambda.map index, erasures.length⟩).lambda

/-- `deg_lambda`, of `lambda` in index form. -/
def degLambda (lambda : List Nat) : Nat :=
  (List.range lambda.length).foldl (fun deg i => if lambda.getD i a0 ≠ a0 then i else deg) 0

/-- The Chien search, for the `i`s from here on: the roots and the locations. -/
def chien (deg : Nat) : List Nat → Nat → List Nat → List (Nat × Nat) → List (Nat × Nat)
  | [], _, _, found => found
  | i :: is, k, reg, found =>
    let reg := reg.mapIdx fun j x => if 1 ≤ j ∧ j ≤ deg ∧ x ≠ a0 then mod255 (x + j) else x
    let q := 1 ^^^ xorSum ((List.range' 1 deg).map fun j =>
      if reg.getD j a0 ≠ a0 then alpha (reg.getD j a0) else 0)
    if q ≠ 0 then chien deg is (mod255 (k + iprim)) reg found
    else if found.length + 1 = deg then found ++ [(i, k)]
    else chien deg is (mod255 (k + iprim)) reg (found ++ [(i, k)])

/-- `omega`, in index form, of `deg` coefficients; `lambda` and `s` are in index form. -/
def evaluator (s lambda : List Nat) (deg : Nat) : List Nat :=
  (List.range deg).map fun i =>
    index (xorSum ((List.range (i + 1)).map fun j => term (s.getD (i - j) a0) (lambda.getD j a0)))

/-- `num1`. -/
def num1 (omega : List Nat) (root : Nat) : UInt8 :=
  xorSum ((List.range omega.length).map fun i =>
    if omega.getD i a0 ≠ a0 then alpha (mod255 (omega.getD i a0 + i * root)) else 0)

/-- `num2`. -/
def num2 (root : Nat) : UInt8 := alpha (mod255 (root * (fcr - 1) + nn))

/-- `den`: the even `i` up to the smaller of `deg` and 31. -/
def den (lambda : List Nat) (deg root : Nat) : UInt8 :=
  xorSum ((List.range (min deg (nroots - 1) / 2 + 1)).map fun h =>
    if lambda.getD (2 * h + 1) a0 ≠ a0 then
      alpha (mod255 (lambda.getD (2 * h + 1) a0 + 2 * h * root))
    else 0)

/-- The error at a root and a location is taken out of the block. -/
def applyError (lambda omega : List Nat) (deg pad : Nat) (data : List UInt8) (found : Nat × Nat) :
    List UInt8 :=
  let (root, loc) := found
  if num1 omega root ≠ 0 ∧ pad ≤ loc then
    data.set (loc - pad) (data.getD (loc - pad) 0 ^^^
      alpha (mod255 (index (num1 omega root) + index (num2 root) + nn - index (den lambda deg root))))
  else data

/-- `decode_rs_8` with the erasures at hand: the number of errors, where they were, and the block
without them; nothing, where it returns -1. -/
def decodeRs8 (data : List UInt8) (erasures : List Nat) (pad : Int) :
    Option (List Nat) × List UInt8 :=
  if pad < 0 ∨ pad > 222 then (none, data)
  else
    let s := syndromes data pad.toNat
    if s.all (· = 0) then (some [], data)
    else
      let s := s.map index
      let lambda := (massey s erasures).map index
      let deg := degLambda lambda
      let found := chien deg (List.range' 1 nn) (iprim - 1) lambda []
      if deg ≠ found.length then (none, data)
      else
        let omega := evaluator s lambda deg
        (some (found.map Prod.snd),
          found.reverse.foldl (applyError lambda omega deg pad.toNat) data)

end Samwise.Ssdv
