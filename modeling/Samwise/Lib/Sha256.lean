import Mathlib.Data.Nat.NthRoot.Defs
import Mathlib.Data.Nat.Prime.Basic
import Mathlib.Data.Nat.Sqrt
import Samwise.Lib.IteratedHash
import Samwise.Lib.LittleEndian

/-!
# SHA-256 and HMAC

The hash function of FIPS 180, as it is defined there: the constants out of the roots of the first
primes, the message schedule as a recursion over all 64 words, a message with its padding cut into
blocks of 64 bytes. `hmac` is the keyed hash built from it. A word is read and written with its most
significant byte first.
-/

namespace Sha256

open LittleEndian

/-! ## Words -/

/-- The number four bytes denote, most significant byte first. -/
def ofBytes (bs : List UInt8) : UInt32 := UInt32.ofNat (decode bs.reverse)

/-- The four bytes of a word, most significant byte first. -/
def bytes (x : UInt32) : List UInt8 := (encode 4 x.toNat).reverse

/-- The eight bytes of a length, most significant byte first. -/
def lengthBytes (n : Nat) : List UInt8 := (encode 8 n).reverse

def rotr (n : Nat) (x : UInt32) : UInt32 := ⟨x.toBitVec.rotateRight n⟩

def ch (x y z : UInt32) : UInt32 := (x &&& y) ^^^ (~~~x &&& z)

def maj (x y z : UInt32) : UInt32 := (x &&& y) ^^^ (x &&& z) ^^^ (y &&& z)

/-- The functions of the rounds, with a capital sigma. -/
def bigSigma0 (x : UInt32) : UInt32 := rotr 2 x ^^^ rotr 13 x ^^^ rotr 22 x

def bigSigma1 (x : UInt32) : UInt32 := rotr 6 x ^^^ rotr 11 x ^^^ rotr 25 x

/-- The functions of the schedule, with a small sigma. -/
def smallSigma0 (x : UInt32) : UInt32 := rotr 7 x ^^^ rotr 18 x ^^^ (x >>> 3)

def smallSigma1 (x : UInt32) : UInt32 := rotr 17 x ^^^ rotr 19 x ^^^ (x >>> 10)

/-! ## Constants -/

/-- The first 64 primes. -/
def primes : List Nat := (List.range 312).filter fun n => n.Prime

/-- The first 32 bits of the fractional part of the cube root of `p`. -/
def cubeRootBits (p : Nat) : UInt32 := UInt32.ofNat (Nat.nthRoot 3 (p * 2 ^ 96))

/-- The first 32 bits of the fractional part of the square root of `p`. -/
def squareRootBits (p : Nat) : UInt32 := UInt32.ofNat (Nat.sqrt (p * 2 ^ 64))

/-- The constant of each round. -/
def roundConstants : List UInt32 := primes.map cubeRootBits

/-! ## A block -/

/-- The eight words of the hash, and of the rounds. -/
structure Words where
  a : UInt32
  b : UInt32
  c : UInt32
  d : UInt32
  e : UInt32
  f : UInt32
  g : UInt32
  h : UInt32
deriving DecidableEq

namespace Words

def toList (v : Words) : List UInt32 := [v.a, v.b, v.c, v.d, v.e, v.f, v.g, v.h]

/-- Word by word. -/
def add (v w : Words) : Words :=
  ⟨v.a + w.a, v.b + w.b, v.c + w.c, v.d + w.d, v.e + w.e, v.f + w.f, v.g + w.g, v.h + w.h⟩

end Words

/-- The words of a block. -/
def word (block : List UInt8) (t : Nat) : UInt32 := ofBytes ((block.drop (4 * t)).take 4)

/-- The message schedule. -/
def schedule (block : List UInt8) (t : Nat) : UInt32 :=
  if t < 16 then word block t
  else smallSigma1 (schedule block (t - 2)) + schedule block (t - 7)
    + smallSigma0 (schedule block (t - 15)) + schedule block (t - 16)
termination_by t

/-- A round with the constant `k` and the word `w` of the schedule. -/
def round (k w : UInt32) (v : Words) : Words :=
  let t1 := v.h + bigSigma1 v.e + ch v.e v.f v.g + k + w
  let t2 := bigSigma0 v.a + maj v.a v.b v.c
  ⟨t1 + t2, v.a, v.b, v.c, v.d + t1, v.e, v.f, v.g⟩

/-- The first `n` rounds. -/
def rounds (block : List UInt8) (n : Nat) (v : Words) : Words :=
  (List.range n).foldl (fun v t => round (roundConstants.getD t 0) (schedule block t) v) v

/-- The hash behind a block. -/
def compress (hash : Words) (block : List UInt8) : Words := hash.add (rounds block 64 hash)

theorem schedule_of_lt {block : List UInt8} {t : Nat} (h : t < 16) :
    schedule block t = word block t := by
  rw [schedule, if_pos h]

theorem schedule_of_le {block : List UInt8} {t : Nat} (h : 16 ≤ t) :
    schedule block t = smallSigma1 (schedule block (t - 2)) + schedule block (t - 7)
      + smallSigma0 (schedule block (t - 15)) + schedule block (t - 16) := by
  rw [schedule, if_neg (Nat.not_lt.mpr h)]

theorem rounds_zero (block : List UInt8) (v : Words) : rounds block 0 v = v := rfl

theorem rounds_succ (block : List UInt8) (n : Nat) (v : Words) :
    rounds block (n + 1) v
      = round (roundConstants.getD n 0) (schedule block n) (rounds block n v) := by
  rw [rounds, List.range_succ, List.foldl_append]
  rfl

/-! ## A message -/

/-- The hash before the first block. -/
def initialHash : Words :=
  ⟨squareRootBits 2, squareRootBits 3, squareRootBits 5, squareRootBits 7, squareRootBits 11,
    squareRootBits 13, squareRootBits 17, squareRootBits 19⟩

/-- A bit, as few zeros as fill a block with it, and the length in bits, modulo the eight bytes
there are for it. -/
def padding (n : Nat) : List UInt8 :=
  0x80 :: List.replicate ((119 - n % 64) % 64) 0 ++ lengthBytes (8 * n)

/-- The hash behind the whole blocks of a message. -/
def absorb (msg : List UInt8) : Words := IteratedHash.absorb 64 compress initialHash msg

/-- What is left of a message behind its whole blocks. -/
def rest (msg : List UInt8) : List UInt8 := IteratedHash.rest 64 msg

/-- **SHA-256.** -/
def sha256 (msg : List UInt8) : List UInt8 :=
  (absorb (msg ++ padding msg.length)).toList.flatMap bytes

theorem length_bytes (x : UInt32) : (bytes x).length = 4 := by
  rw [bytes, List.length_reverse, length_encode]

theorem length_lengthBytes (n : Nat) : (lengthBytes n).length = 8 := by
  rw [lengthBytes, List.length_reverse, length_encode]

theorem length_sha256 (msg : List UInt8) : (sha256 msg).length = 32 := by
  simp [sha256, Words.toList, length_bytes]

/-- A message with its padding is cut into whole blocks. -/
theorem length_padded (msg : List UInt8) : 64 ∣ (msg ++ padding msg.length).length := by
  simp only [padding, List.length_append, List.length_cons, List.length_replicate,
    length_lengthBytes]
  omega

theorem length_rest (msg : List UInt8) : (rest msg).length = msg.length % 64 :=
  IteratedHash.length_rest 64 msg

/-- A byte that does not fill a block. -/
theorem absorb_concat_of_lt {msg : List UInt8} (b : UInt8) (h : (rest msg).length + 1 < 64) :
    absorb (msg ++ [b]) = absorb msg ∧ rest (msg ++ [b]) = rest msg ++ [b] :=
  IteratedHash.absorb_concat_of_lt compress (by decide) initialHash b h

/-- A byte that fills one. -/
theorem absorb_concat_of_eq {msg : List UInt8} (b : UInt8) (h : (rest msg).length + 1 = 64) :
    absorb (msg ++ [b]) = compress (absorb msg) (rest msg ++ [b]) ∧ rest (msg ++ [b]) = [] :=
  IteratedHash.absorb_concat_of_eq compress (by decide) initialHash b h

/-! ## HMAC -/

/-- A key as a block: hashed, if it is longer than one, and filled up with zeros. -/
def blockKey (key : List UInt8) : List UInt8 :=
  let key := if 64 < key.length then sha256 key else key
  key ++ List.replicate (64 - key.length) 0

/-- **HMAC with SHA-256.** -/
def hmac (key msg : List UInt8) : List UInt8 :=
  sha256 ((blockKey key).map (0x5c ^^^ ·) ++ sha256 ((blockKey key).map (0x36 ^^^ ·) ++ msg))

theorem length_blockKey (key : List UInt8) : (blockKey key).length = 64 := by
  unfold blockKey
  dsimp only
  split
  · rw [List.length_append, List.length_replicate, length_sha256]
  · rw [List.length_append, List.length_replicate]
    omega

theorem length_hmac (key msg : List UInt8) : (hmac key msg).length = 32 := length_sha256 _

end Sha256
