import Samwise.Lib.Buffer
import Samwise.Lib.CountedLoop
import Samwise.Lib.Sha256

/-!
# Samwise — SHA-256, as tinycrypt computes it

`sha256.c` of tinycrypt, statement by statement: bytes are collected in `leftover` until it is a
block, `compress` keeps the last sixteen words of the schedule in `work_space`, and the padding is
written into `leftover`. The pointers are not NULL. Every index is checked against its array, and no
cell of `work_space` is read before it was written; `none` is an access that fails. None does, and
what comes out is SHA-256 of the bytes, in however many pieces they came.
-/

namespace Samwise.Tinycrypt

open Buffer CountedLoop
open Sha256 (Words)

/-! ## Compression -/

/-- `k256`. -/
def k256 : List UInt32 := [
  0x428a2f98, 0x71374491, 0xb5c0fbcf, 0xe9b5dba5, 0x3956c25b, 0x59f111f1,
  0x923f82a4, 0xab1c5ed5, 0xd807aa98, 0x12835b01, 0x243185be, 0x550c7dc3,
  0x72be5d74, 0x80deb1fe, 0x9bdc06a7, 0xc19bf174, 0xe49b69c1, 0xefbe4786,
  0x0fc19dc6, 0x240ca1cc, 0x2de92c6f, 0x4a7484aa, 0x5cb0a9dc, 0x76f988da,
  0x983e5152, 0xa831c66d, 0xb00327c8, 0xbf597fc7, 0xc6e00bf3, 0xd5a79147,
  0x06ca6351, 0x14292967, 0x27b70a85, 0x2e1b2138, 0x4d2c6dfc, 0x53380d13,
  0x650a7354, 0x766a0abb, 0x81c2c92e, 0x92722c85, 0xa2bfe8a1, 0xa81a664b,
  0xc24b8b70, 0xc76c51a3, 0xd192e819, 0xd6990624, 0xf40e3585, 0x106aa070,
  0x19a4c116, 0x1e376c08, 0x2748774c, 0x34b0bcb5, 0x391c0cb3, 0x4ed8aa4a,
  0x5b9cca4f, 0x682e6ff3, 0x748f82ee, 0x78a5636f, 0x84c87814, 0x8cc70208,
  0x90befffa, 0xa4506ceb, 0xbef9a3f7, 0xc67178f2]

/-- `ROTR`. -/
def rotr (a n : UInt32) : UInt32 := (a >>> n) ||| (a <<< (32 - n))

/-- `Sigma0`. -/
def bigSigma0 (a : UInt32) : UInt32 := rotr a 2 ^^^ rotr a 13 ^^^ rotr a 22

/-- `Sigma1`. -/
def bigSigma1 (a : UInt32) : UInt32 := rotr a 6 ^^^ rotr a 11 ^^^ rotr a 25

/-- `sigma0`. -/
def smallSigma0 (a : UInt32) : UInt32 := rotr a 7 ^^^ rotr a 18 ^^^ (a >>> 3)

/-- `sigma1`. -/
def smallSigma1 (a : UInt32) : UInt32 := rotr a 17 ^^^ rotr a 19 ^^^ (a >>> 10)

/-- `Ch`. -/
def ch (a b c : UInt32) : UInt32 := (a &&& b) ^^^ (~~~a &&& c)

/-- `Maj`. -/
def maj (a b c : UInt32) : UInt32 := (a &&& b) ^^^ (a &&& c) ^^^ (b &&& c)

/-- `BigEndian`, called with a pointer to `data + c`. -/
def bigEndian (data : List UInt8) (c : Nat) : Option UInt32 := do
  let n := (← load data c).toUInt32 <<< 24
  let n := n ||| (← load data (c + 1)).toUInt32 <<< 16
  let n := n ||| (← load data (c + 2)).toUInt32 <<< 8
  let n := n ||| (← load data (c + 3)).toUInt32
  return n

/-- The variables `a` to `h` of `compress`, and `work_space`: a cell is `none` until it is
written. -/
structure CompressState where
  vars : Words
  workSpace : List (Option UInt32)

/-- `work_space[i]`, which must have been written. -/
def CompressState.work (s : CompressState) (i : Nat) : Option UInt32 := (load s.workSpace i).join

/-- The end of the body of both loops, from the second assignment to `t1` on. -/
def compressVars (k t1 : UInt32) (v : Words) : Words :=
  let t1 := t1 + (v.h + bigSigma1 v.e + ch v.e v.f v.g + k)
  let t2 := bigSigma0 v.a + maj v.a v.b v.c
  ⟨t1 + t2, v.a, v.b, v.c, v.d + t1, v.e, v.f, v.g⟩

/-- The body of the first loop. Its call of `BigEndian` is the `i`-th one. -/
def compressFirst (data : List UInt8) (s : CompressState) (i : Nat) : Option CompressState := do
  let n ← bigEndian data (4 * i)
  let workSpace ← store s.workSpace i (some n)
  let t1 := n
  return ⟨compressVars (← load k256 i) t1 s.vars, workSpace⟩

/-- The body of the second loop. -/
def compressLater (s : CompressState) (i : Nat) : Option CompressState := do
  let s0 ← s.work ((i + 1) &&& 0x0f)
  let s0 := smallSigma0 s0
  let s1 ← s.work ((i + 14) &&& 0x0f)
  let s1 := smallSigma1 s1
  let t1 := (← s.work (i &&& 0xf)) + (s0 + s1 + (← s.work ((i + 9) &&& 0xf)))
  let workSpace ← store s.workSpace (i &&& 0xf) (some t1)
  return ⟨compressVars (← load k256 i) t1 s.vars, workSpace⟩

/-- `compress`: `iv` afterwards. -/
def compress (iv : Words) (data : List UInt8) : Option Words := do
  let s ← loop (compressFirst data) 0 16 ⟨iv, List.replicate 16 none⟩
  let s ← loop compressLater 16 48 s
  return iv.add s.vars

/-! ## Hashing -/

/-- `tc_sha256_state_struct`; `leftover` with `leftover_offset`. -/
structure TcSha256State where
  iv : Words
  bitsHashed : UInt64
  leftover : Cursor UInt8

/-- The struct as `_set` leaves it. -/
def TcSha256State.zero : TcSha256State :=
  ⟨⟨0, 0, 0, 0, 0, 0, 0, 0⟩, 0, ⟨List.replicate 64 0, 0⟩⟩

/-- `tc_sha256_init`. -/
def tcSha256Init : TcSha256State :=
  { TcSha256State.zero with iv := ⟨0x6a09e667, 0xbb67ae85, 0x3c6ef372, 0xa54ff53a, 0x510e527f,
      0x9b05688c, 0x1f83d9ab, 0x5be0cd19⟩ }

/-- The body of the loop of `tc_sha256_update`. -/
def tcSha256Byte (s : TcSha256State) (b : UInt8) : Option TcSha256State := do
  let leftover ← s.leftover.put b
  if leftover.offset ≥ 64 then
    let iv ← compress s.iv leftover.buf
    return ⟨iv, s.bitsHashed + ((64 : UInt64) <<< 3), { leftover with offset := 0 }⟩
  else return { s with leftover }

/-- `tc_sha256_update`. -/
def tcSha256Update (s : TcSha256State) (data : List UInt8) : Option TcSha256State :=
  data.foldlM tcSha256Byte s

/-- `_set(leftover + leftover_offset, 0x00, n)`. -/
def setZero (c : Cursor UInt8) (n : Nat) : Option (Cursor UInt8) :=
  (storeAll c.buf c.offset (List.replicate n 0)).map fun buf => { c with buf }

/-- The eight assignments of the length. -/
def storeLength (buf : List UInt8) (bits : UInt64) : Option (List UInt8) := do
  let buf ← store buf (64 - 1) bits.toUInt8
  let buf ← store buf (64 - 2) (bits >>> 8).toUInt8
  let buf ← store buf (64 - 3) (bits >>> 16).toUInt8
  let buf ← store buf (64 - 4) (bits >>> 24).toUInt8
  let buf ← store buf (64 - 5) (bits >>> 32).toUInt8
  let buf ← store buf (64 - 6) (bits >>> 40).toUInt8
  let buf ← store buf (64 - 7) (bits >>> 48).toUInt8
  store buf (64 - 8) (bits >>> 56).toUInt8

/-- A word of the digest. -/
def digestBytes (t : UInt32) : List UInt8 :=
  [(t >>> 24).toUInt8, (t >>> 16).toUInt8, (t >>> 8).toUInt8, t.toUInt8]

/-- `tc_sha256_final`: the bytes written to `digest`, and the state afterwards. -/
def tcSha256Final (s : TcSha256State) : Option (List UInt8 × TcSha256State) := do
  let bitsHashed := s.bitsHashed + (UInt64.ofNat s.leftover.offset <<< 3)
  let leftover ← s.leftover.put 0x80
  let (iv, leftover) ←
    if leftover.offset > 64 - 8 then do
      let leftover ← setZero leftover (64 - leftover.offset)
      let iv ← compress s.iv leftover.buf
      pure (iv, { leftover with offset := 0 })
    else pure (s.iv, leftover)
  let leftover ← setZero leftover (64 - 8 - leftover.offset)
  let buf ← storeLength leftover.buf bitsHashed
  let iv ← compress iv buf
  return (iv.toList.flatMap digestBytes, .zero)

/-! ## The words -/

/-- The table holds what its comment says. The primes are found by trial division. -/
theorem k256_eq : k256 = Sha256.roundConstants := by
  have hprimes : Sha256.primes = (List.range 312).filter fun n =>
      decide (2 ≤ n) && (List.range (n.sqrt + 1)).all fun m => decide (m < 2) || decide (n % m ≠ 0) := by
    refine List.filter_congr fun n _ => ?_
    rw [Bool.eq_iff_iff, decide_eq_true_eq, Nat.prime_def_le_sqrt, Bool.and_eq_true,
      decide_eq_true_eq, List.all_eq_true]
    refine and_congr_right fun _ => forall_congr' fun m => ?_
    rw [List.mem_range, Bool.or_eq_true, decide_eq_true_eq, decide_eq_true_eq, Ne,
      ← Nat.dvd_iff_mod_eq_zero]
    constructor
    · intro h hle
      by_cases htwo : m < 2
      · exact .inl htwo
      · exact .inr (h (by omega) (by omega))
    · intro h htwo hle
      exact (h (by omega)).resolve_left (by omega)
  rw [Sha256.roundConstants, hprimes]
  decide +kernel

theorem load_k256 {i : Nat} (h : i < 64) : load k256 i = some (Sha256.roundConstants.getD i 0) := by
  have hlength : i < Sha256.roundConstants.length := by
    rw [← k256_eq]
    exact h
  rw [load, k256_eq, List.getD_eq_getElem?_getD, List.getElem?_eq_getElem hlength,
    Option.getD_some]

/-- So are the first values of `iv`. -/
theorem tcSha256Init_iv : tcSha256Init.iv = Sha256.initialHash := by decide +kernel

/-- The two shifts are a rotation. -/
theorem rotr_eq (a n : UInt32) (hpos : 0 < n.toNat) (hlt : n.toNat < 32) :
    rotr a n = Sha256.rotr n.toNat a := by
  apply UInt32.toBitVec_inj.mp
  have hright : (n.toBitVec % 32).toNat = n.toNat % 32 := BitVec.toNat_umod ..
  have hleft : ((32 - n).toBitVec % 32).toNat = 32 - n.toNat % 32 := by
    have hle : n ≤ 32 := by
      rw [UInt32.le_iff_toNat_le]
      exact hlt.le
    rw [BitVec.toNat_umod]
    show (32 - n).toNat % 32 = _
    rw [UInt32.toNat_sub_of_le _ _ hle]
    show (32 - n.toNat) % 32 = _
    omega
  rw [rotr, Sha256.rotr, BitVec.rotateRight_def, UInt32.toBitVec_or, UInt32.toBitVec_shiftRight,
    UInt32.toBitVec_shiftLeft, BitVec.ushiftRight_eq', BitVec.shiftLeft_eq', hright, hleft]

theorem bigSigma0_eq (a : UInt32) : bigSigma0 a = Sha256.bigSigma0 a := by
  rw [bigSigma0, rotr_eq a 2 (by decide) (by decide), rotr_eq a 13 (by decide) (by decide),
    rotr_eq a 22 (by decide) (by decide)]
  rfl

theorem bigSigma1_eq (a : UInt32) : bigSigma1 a = Sha256.bigSigma1 a := by
  rw [bigSigma1, rotr_eq a 6 (by decide) (by decide), rotr_eq a 11 (by decide) (by decide),
    rotr_eq a 25 (by decide) (by decide)]
  rfl

theorem smallSigma0_eq (a : UInt32) : smallSigma0 a = Sha256.smallSigma0 a := by
  rw [smallSigma0, rotr_eq a 7 (by decide) (by decide), rotr_eq a 18 (by decide) (by decide)]
  rfl

theorem smallSigma1_eq (a : UInt32) : smallSigma1 a = Sha256.smallSigma1 a := by
  rw [smallSigma1, rotr_eq a 17 (by decide) (by decide), rotr_eq a 19 (by decide) (by decide)]
  rfl

/-- A byte moved up to three bytes. -/
theorem toNat_byte_shiftLeft (b : UInt8) {k : UInt32} (hk : k.toNat ≤ 24) :
    (b.toUInt32 <<< k).toNat = b.toNat <<< k.toNat := by
  have hb : b.toNat < 2 ^ 8 := b.toNat_lt
  rw [UInt32.toNat_shiftLeft, UInt8.toNat_toUInt32, Nat.mod_eq_of_lt (a := k.toNat) (by omega)]
  apply Nat.mod_eq_of_lt
  rw [Nat.shiftLeft_eq]
  calc b.toNat * 2 ^ k.toNat < 2 ^ 8 * 2 ^ k.toNat :=
        Nat.mul_lt_mul_of_pos_right hb (Nat.two_pow_pos _)
    _ ≤ 2 ^ 8 * 2 ^ 24 := Nat.mul_le_mul_left _ (Nat.pow_le_pow_right (by decide) hk)

/-- Four bytes that are or-ed together, each in its place. -/
theorem or_bytes (b0 b1 b2 b3 : UInt8) :
    b0.toUInt32 <<< 24 ||| b1.toUInt32 <<< 16 ||| b2.toUInt32 <<< 8 ||| b3.toUInt32
      = Sha256.ofBytes [b0, b1, b2, b3] := by
  have h0 := b0.toNat_lt
  have h1 := b1.toNat_lt
  have h2 := b2.toNat_lt
  have h3 := b3.toNat_lt
  apply UInt32.toNat_inj.mp
  rw [UInt32.toNat_or, UInt32.toNat_or, UInt32.toNat_or, toNat_byte_shiftLeft b0 (by decide),
    toNat_byte_shiftLeft b1 (by decide), toNat_byte_shiftLeft b2 (by decide), UInt8.toNat_toUInt32]
  show b0.toNat <<< 24 ||| b1.toNat <<< 16 ||| b2.toNat <<< 8 ||| b3.toNat = _
  -- each byte is below the bits before it
  have htwo : b0.toNat <<< 24 ||| b1.toNat <<< 16 = (b0.toNat * 256 + b1.toNat) <<< 16 := by
    rw [← Nat.shiftLeft_add_eq_or_of_lt (by rw [Nat.shiftLeft_eq]; omega)]
    simp only [Nat.shiftLeft_eq]
    omega
  have hthree : (b0.toNat * 256 + b1.toNat) <<< 16 ||| b2.toNat <<< 8
      = ((b0.toNat * 256 + b1.toNat) * 256 + b2.toNat) <<< 8 := by
    rw [← Nat.shiftLeft_add_eq_or_of_lt (by rw [Nat.shiftLeft_eq]; omega)]
    simp only [Nat.shiftLeft_eq]
    omega
  rw [htwo, hthree, ← Nat.shiftLeft_add_eq_or_of_lt (by omega), Nat.shiftLeft_eq, Sha256.ofBytes,
    UInt32.toNat_ofNat']
  simp only [List.reverse_cons, List.reverse_nil, List.nil_append, List.cons_append,
    LittleEndian.decode]
  omega

/-- `BigEndian` reads a word of the block. -/
theorem bigEndian_eq {data : List UInt8} {c : Nat} (h : c + 4 ≤ data.length) :
    bigEndian data c = some (Sha256.ofBytes ((data.drop c).take 4)) := by
  have hbytes : (data.drop c).take 4 = [data[c], data[c + 1], data[c + 2], data[c + 3]] := by
    rw [List.drop_eq_getElem_cons (by omega), List.drop_eq_getElem_cons (by omega),
      List.drop_eq_getElem_cons (by omega), List.drop_eq_getElem_cons (by omega)]
    rfl
  rw [hbytes, ← or_bytes, bigEndian, load_eq_some (by omega), load_eq_some (by omega),
    load_eq_some (by omega), load_eq_some (by omega)]
  rfl

/-- The words that come out. -/
theorem digestBytes_eq (t : UInt32) : digestBytes t = Sha256.bytes t := by
  have hbyte : ∀ k : UInt32, k.toNat < 32 →
      (t >>> k).toUInt8 = UInt8.ofNat (t.toNat / 2 ^ k.toNat) := by
    intro k hk
    apply UInt8.toNat_inj.mp
    rw [UInt32.toNat_toUInt8, UInt32.toNat_shiftRight, Nat.mod_eq_of_lt hk,
      Nat.shiftRight_eq_div_pow, UInt8.toNat_ofNat']
  have hlow : t.toUInt8 = UInt8.ofNat t.toNat := by
    apply UInt8.toNat_inj.mp
    rw [UInt32.toNat_toUInt8, UInt8.toNat_ofNat']
  rw [digestBytes, hbyte 24 (by decide), hbyte 16 (by decide), hbyte 8 (by decide), hlow,
    Sha256.bytes]
  simp only [LittleEndian.encode, List.reverse_cons, List.reverse_nil, List.nil_append,
    List.cons_append, Nat.div_div_eq_div_mul]
  rfl

/-! ## The rounds -/

theorem compressVars_eq (k w : UInt32) (v : Words) : compressVars k w v = Sha256.round k w v := by
  have hsum : w + (v.h + Sha256.bigSigma1 v.e + Sha256.ch v.e v.f v.g + k)
      = v.h + Sha256.bigSigma1 v.e + Sha256.ch v.e v.f v.g + k + w := UInt32.add_comm ..
  have hch : ch v.e v.f v.g = Sha256.ch v.e v.f v.g := rfl
  unfold compressVars Sha256.round
  rw [bigSigma0_eq, bigSigma1_eq, hch, hsum]
  rfl

/-- Before the round `i`: the variables are those of the rounds before, and `work_space` holds the
last sixteen words of the schedule, each at its number modulo 16. -/
structure AtRound (iv : Words) (data : List UInt8) (i : Nat) (s : CompressState) : Prop where
  vars : s.vars = Sha256.rounds data i iv
  length : s.workSpace.length = 16
  work : ∀ t < i, i ≤ t + 16 → s.work (t % 16) = some (Sha256.schedule data t)

/-- The word of the round takes the place of the one sixteen rounds before. -/
theorem AtRound.next {iv : Words} {data : List UInt8} {i : Nat} {s : CompressState}
    (h : AtRound iv data i s) :
    ∃ workSpace, store s.workSpace (i % 16) (some (Sha256.schedule data i)) = some workSpace ∧
      AtRound iv data (i + 1)
        ⟨compressVars (Sha256.roundConstants.getD i 0) (Sha256.schedule data i) s.vars, workSpace⟩ := by
  have hlt : i % 16 < s.workSpace.length := by
    rw [h.length]
    omega
  refine ⟨s.workSpace.set (i % 16) (some (Sha256.schedule data i)), by rw [store, if_pos hlt], ?_, ?_,
    fun t ht hle => ?_⟩
  · rw [compressVars_eq, h.vars, Sha256.rounds_succ]
  · rw [List.length_set, h.length]
  · show (load (s.workSpace.set (i % 16) _) (t % 16)).join = _
    rw [load, List.getElem?_set]
    by_cases hlast : t = i
    · subst hlast
      rw [if_pos rfl, if_pos hlt]
      rfl
    · -- an older word lies elsewhere
      have hplace : i % 16 ≠ t % 16 := by omega
      rw [if_neg hplace]
      exact h.work t (by omega) (by omega)

theorem compressFirst_atRound {iv : Words} {data : List UInt8} (hdata : data.length = 64) {i : Nat}
    (hi : i < 16) {s : CompressState} (h : AtRound iv data i s) :
    ∃ s', compressFirst data s i = some s' ∧ AtRound iv data (i + 1) s' := by
  obtain ⟨workSpace, hstore, hnext⟩ := h.next
  refine ⟨_, ?_, hnext⟩
  rw [Nat.mod_eq_of_lt hi, Sha256.schedule_of_lt hi] at hstore
  have hword : bigEndian data (4 * i) = some (Sha256.word data i) := bigEndian_eq (by omega)
  rw [compressFirst, hword, Sha256.schedule_of_lt hi]
  simp only [Option.bind_eq_bind, Option.bind_some, hstore, load_k256 (i := i) (by omega),
    Option.pure_def]

theorem compressLater_atRound {iv : Words} {data : List UInt8} {i : Nat} (hle : 16 ≤ i)
    (hi : i < 64) {s : CompressState} (h : AtRound iv data i s) :
    ∃ s', compressLater s i = some s' ∧ AtRound iv data (i + 1) s' := by
  obtain ⟨workSpace, hstore, hnext⟩ := h.next
  refine ⟨_, ?_, hnext⟩
  -- the four words that the schedule looks back at
  have hwork : ∀ k, k < 16 → s.work ((i + k) &&& 0xf) = some (Sha256.schedule data (i + k - 16)) := by
    intro k hk
    have hmask : (i + k) &&& 0xf = (i + k - 16) % 16 := by
      rw [Nat.and_two_pow_sub_one_eq_mod (i + k) 4]
      omega
    rw [hmask]
    exact h.work _ (by omega) (by omega)
  have hmask : i &&& 0xf = i % 16 := Nat.and_two_pow_sub_one_eq_mod i 4
  rw [← hmask] at hstore
  have h0 : s.work (i &&& 0xf) = some (Sha256.schedule data (i - 16)) := hwork 0 (by omega)
  have h1 : s.work ((i + 1) &&& 0x0f) = some (Sha256.schedule data (i - 15)) := hwork 1 (by omega)
  have h9 : s.work ((i + 9) &&& 0xf) = some (Sha256.schedule data (i - 7)) := by
    rw [hwork 9 (by omega)]
    congr 2
  have h14 : s.work ((i + 14) &&& 0x0f) = some (Sha256.schedule data (i - 2)) := by
    rw [hwork 14 (by omega)]
    congr 2
  have hsum : Sha256.schedule data (i - 16) + (smallSigma0 (Sha256.schedule data (i - 15))
      + smallSigma1 (Sha256.schedule data (i - 2)) + Sha256.schedule data (i - 7))
      = Sha256.schedule data i := by
    rw [Sha256.schedule_of_le hle, smallSigma0_eq, smallSigma1_eq]
    ac_rfl
  rw [compressLater]
  simp only [Option.bind_eq_bind, h0, h1, h9, h14, Option.bind_some, hsum, hstore, load_k256 hi,
    Option.pure_def]

/-- **`compress` is the compression of the standard**, and stays within its arrays. -/
theorem compress_eq (iv : Words) {data : List UInt8} (h : data.length = 64) :
    compress iv data = some (Sha256.compress iv data) := by
  obtain ⟨s, hfirst, hs⟩ : ∃ s, loop (compressFirst data) 0 16 ⟨iv, List.replicate 16 none⟩ = some s
      ∧ AtRound iv data (0 + 16) s :=
    loop_invariant (AtRound iv data) (fun i _ _ hi hs => compressFirst_atRound h (by omega) hs)
      ⟨rfl, List.length_replicate, fun t ht => absurd ht (Nat.not_lt_zero t)⟩
  obtain ⟨t, hlater, ht⟩ : ∃ t, loop compressLater 16 48 s = some t ∧ AtRound iv data (16 + 48) t :=
    loop_invariant (AtRound iv data) (fun i _ hle hi hs => compressLater_atRound hle (by omega) hs)
      hs
  rw [compress, hfirst]
  simp only [Option.bind_eq_bind, Option.bind_some, hlater, ht.vars, Option.pure_def]
  rfl

/-! ## The message -/

/-- The state has taken in the message: the hash of its whole blocks, and the rest in `leftover`. -/
structure Taken (msg : List UInt8) (s : TcSha256State) : Prop where
  iv : s.iv = Sha256.absorb msg
  bitsHashed : s.bitsHashed = UInt64.ofNat (8 * (msg.length - msg.length % 64))
  leftover : ∃ old : List UInt8, old.length = 64 ∧ s.leftover = .after (Sha256.rest msg) old

theorem tcSha256Init_taken : Taken [] tcSha256Init :=
  ⟨tcSha256Init_iv, rfl, List.replicate 64 0, List.length_replicate, rfl⟩

/-- A byte. -/
theorem Taken.byte {msg : List UInt8} {s : TcSha256State} (h : Taken msg s) (b : UInt8) :
    ∃ s', tcSha256Byte s b = some s' ∧ Taken (msg ++ [b]) s' := by
  obtain ⟨iv, bitsHashed, leftover⟩ := s
  obtain ⟨rfl, rfl, old, hold, rfl⟩ := h
  have hrest : (Sha256.rest msg).length = msg.length % 64 := Sha256.length_rest msg
  have hput : (Cursor.after (Sha256.rest msg) old).put b
      = some (.after (Sha256.rest msg ++ [b]) old) := Cursor.put_after b (by omega)
  have hoffset : (Cursor.after (Sha256.rest msg ++ [b]) old).offset = msg.length % 64 + 1 := by
    show (Sha256.rest msg ++ [b]).length = _
    rw [List.length_append, hrest, List.length_singleton]
  unfold tcSha256Byte
  simp only [hput, Option.bind_eq_bind, Option.bind_some, hoffset]
  by_cases hfull : msg.length % 64 + 1 ≥ 64
  · -- the block is full
    obtain ⟨habsorb, hempty⟩ : _ ∧ Sha256.rest (msg ++ [b]) = [] :=
      Sha256.absorb_concat_of_eq b (by omega)
    have hblock : (Cursor.after (Sha256.rest msg ++ [b]) old).buf = Sha256.rest msg ++ [b] := by
      show overlay _ _ = _
      rw [overlay, List.drop_eq_nil_of_le, List.append_nil]
      rw [List.length_append, hrest, List.length_singleton]
      omega
    have hlength : (Sha256.rest msg ++ [b]).length = 64 := by
      rw [List.length_append, hrest, List.length_singleton]
      omega
    rw [if_pos hfull, hblock, compress_eq _ hlength]
    refine ⟨_, rfl, habsorb.symm, ?_, Sha256.rest msg ++ [b], hlength, ?_⟩
    · have hbits : 8 * ((msg ++ [b]).length - (msg ++ [b]).length % 64)
          = 8 * (msg.length - msg.length % 64) + 512 := by
        rw [List.length_append, List.length_singleton]
        omega
      rw [hbits, UInt64.ofNat_add]
      rfl
    · rw [hempty]
      rfl
  · obtain ⟨habsorb, hmore⟩ : _ ∧ Sha256.rest (msg ++ [b]) = Sha256.rest msg ++ [b] :=
      Sha256.absorb_concat_of_lt b (by omega)
    rw [if_neg hfull]
    refine ⟨_, rfl, habsorb.symm, ?_, old, hold, ?_⟩
    · have hbits : (msg ++ [b]).length - (msg ++ [b]).length % 64 = msg.length - msg.length % 64 := by
        rw [List.length_append, List.length_singleton]
        omega
      rw [hbits]
    · rw [hmore]

/-- `tc_sha256_update`. Induction on the bytes. -/
theorem Taken.update {msg : List UInt8} {s : TcSha256State} (h : Taken msg s) (data : List UInt8) :
    ∃ s', tcSha256Update s data = some s' ∧ Taken (msg ++ data) s' := by
  induction data generalizing msg s with
  | nil =>
    rw [List.append_nil]
    exact ⟨s, rfl, h⟩
  | cons b data ih =>
    obtain ⟨s₁, hbyte, hs₁⟩ := h.byte b
    obtain ⟨s', hdata, hs'⟩ := ih hs₁
    refine ⟨s', ?_, ?_⟩
    · rw [tcSha256Update, List.foldlM_cons, hbyte]
      exact hdata
    · rwa [List.append_assoc] at hs'

/-! ## The padding -/

/-- `_set` fills what is left of the buffer, up to `n` bytes. -/
theorem setZero_after {w old : List UInt8} {n : Nat} (h : w.length + n ≤ old.length) :
    setZero (.after w old) n = some ⟨overlay (w ++ List.replicate n 0) old, w.length⟩ := by
  have hstore : storeAll (overlay w old) w.length (List.replicate n 0)
      = some (overlay (w ++ List.replicate n 0) old) :=
    storeAll_overlay (by rw [List.length_replicate]; exact h)
  unfold setZero
  show (storeAll (overlay w old) w.length (List.replicate n 0)).map _ = _
  rw [hstore]
  rfl

/-- A store behind the front. -/
theorem store_front {front last : List UInt8} {i j : Nat} (hfront : front.length = 56)
    (hi : i = 56 + j) (hj : j < last.length) (a : UInt8) :
    store (front ++ last) i a = some (front ++ last.set j a) := by
  have hlt : i < (front ++ last).length := by
    rw [List.length_append]
    omega
  rw [store, if_pos hlt, List.set_append_right _ _ (by omega)]
  congr 3
  omega

/-- A byte of the length. -/
theorem length_byte (n : Nat) {k : UInt64} (hk : k.toNat ≤ 56) :
    (UInt64.ofNat n >>> k).toUInt8 = UInt8.ofNat (n / 2 ^ k.toNat) := by
  have hpow : 2 ^ 64 = 2 ^ k.toNat * 2 ^ (64 - k.toNat) := by
    rw [← Nat.pow_add]
    congr 1
    omega
  apply UInt8.toNat_inj.mp
  rw [UInt64.toNat_toUInt8, UInt64.toNat_shiftRight, Nat.mod_eq_of_lt (by omega : k.toNat < 64),
    Nat.shiftRight_eq_div_pow, UInt64.toNat_ofNat', UInt8.toNat_ofNat', hpow,
    Nat.mod_mul_right_div_self]
  exact Nat.mod_mod_of_dvd _ (Nat.pow_dvd_pow 2 (by omega))

/-- The length goes into the last eight bytes. -/
theorem storeLength_eq {front last : List UInt8} (hfront : front.length = 56)
    (hlast : last.length = 8) (n : Nat) :
    storeLength (front ++ last) (UInt64.ofNat n) = some (front ++ Sha256.lengthBytes n) := by
  have hlow : (UInt64.ofNat n).toUInt8 = UInt8.ofNat n := by
    apply UInt8.toNat_inj.mp
    rw [UInt64.toNat_toUInt8, UInt64.toNat_ofNat', UInt8.toNat_ofNat']
    exact Nat.mod_mod_of_dvd _ (by decide)
  have hstore : ∀ (l : List UInt8) (j : Nat) (a : UInt8), l.length = 8 → j < 8 →
      store (front ++ l) (64 - (8 - j)) a = some (front ++ l.set j a) := by
    intro l j a hl hj
    exact store_front hfront (by omega) (by omega) a
  unfold storeLength
  simp only [Option.bind_eq_bind]
  rw [hstore _ 7 _ hlast (by decide), Option.bind_some, hstore _ 6 _ (by simp [hlast]) (by decide),
    Option.bind_some, hstore _ 5 _ (by simp [hlast]) (by decide), Option.bind_some,
    hstore _ 4 _ (by simp [hlast]) (by decide), Option.bind_some,
    hstore _ 3 _ (by simp [hlast]) (by decide), Option.bind_some,
    hstore _ 2 _ (by simp [hlast]) (by decide), Option.bind_some,
    hstore _ 1 _ (by simp [hlast]) (by decide), Option.bind_some,
    hstore _ 0 _ (by simp [hlast]) (by decide), length_byte n (by decide),
    length_byte n (by decide), length_byte n (by decide), length_byte n (by decide),
    length_byte n (by decide), length_byte n (by decide), length_byte n (by decide), hlow]
  -- all eight bytes are new
  obtain ⟨b0, b1, b2, b3, b4, b5, b6, b7, rfl⟩ : ∃ b0 b1 b2 b3 b4 b5 b6 b7 : UInt8,
      last = [b0, b1, b2, b3, b4, b5, b6, b7] := by
    match last, hlast with
    | [b0, b1, b2, b3, b4, b5, b6, b7], _ => exact ⟨b0, b1, b2, b3, b4, b5, b6, b7, rfl⟩
  rw [Sha256.lengthBytes]
  simp only [LittleEndian.encode, Nat.div_div_eq_div_mul, List.reverse_cons, List.reverse_nil,
    List.nil_append, List.cons_append, List.set_cons_succ, List.set_cons_zero]
  rfl

/-- The end of `tc_sha256_final`, in a block whose first bytes are `w`: zeros, the length, and the
last compression. -/
theorem final_block (iv : Words) (w : List UInt8) {old : List UInt8} (hold : old.length = 64)
    (hw : w.length ≤ 56) (n : Nat) :
    (do
      let leftover ← setZero (.after w old) (64 - 8 - (Cursor.after w old).offset)
      let buf ← storeLength leftover.buf (UInt64.ofNat n)
      let iv ← compress iv buf
      return (iv.toList.flatMap digestBytes, TcSha256State.zero))
      = some ((Sha256.compress iv
          (w ++ List.replicate (56 - w.length) 0 ++ Sha256.lengthBytes n)).toList.flatMap
            Sha256.bytes, .zero) := by
  have hoffset : (Cursor.after w old).offset = w.length := rfl
  have hfront : (w ++ List.replicate (56 - w.length) 0).length = 56 := by
    rw [List.length_append, List.length_replicate]
    omega
  have hlast : (old.drop (w ++ List.replicate (56 - w.length) 0).length).length = 8 := by
    rw [List.length_drop, hfront, hold]
  have hblock : (w ++ List.replicate (56 - w.length) 0 ++ Sha256.lengthBytes n).length = 64 := by
    rw [List.length_append, hfront, Sha256.length_lengthBytes]
  have hdigest : digestBytes = Sha256.bytes := funext digestBytes_eq
  have hzero : setZero (.after w old) (64 - 8 - (Cursor.after w old).offset)
      = some ⟨overlay (w ++ List.replicate (56 - w.length) 0) old, w.length⟩ :=
    setZero_after (by omega)
  rw [hzero]
  simp only [Option.bind_eq_bind, Option.bind_some]
  rw [overlay, storeLength_eq hfront hlast, Option.bind_some, compress_eq _ hblock, hdigest]
  rfl

/-- `tc_sha256_final`. The padding fits behind the rest of the message, or takes one more block. -/
theorem Taken.final {msg : List UInt8} {s : TcSha256State} (h : Taken msg s) :
    tcSha256Final s = some (Sha256.sha256 msg, .zero) := by
  obtain ⟨iv, bitsHashed, leftover⟩ := s
  obtain ⟨rfl, rfl, old, hold, rfl⟩ := h
  have hrest : (Sha256.rest msg).length = msg.length % 64 := Sha256.length_rest msg
  have hput : (Cursor.after (Sha256.rest msg) old).put 0x80
      = some (.after (Sha256.rest msg ++ [0x80]) old) := Cursor.put_after _ (by omega)
  have hlength : (Sha256.rest msg ++ [0x80]).length = msg.length % 64 + 1 := by
    rw [List.length_append, hrest, List.length_singleton]
  have hoffset : (Cursor.after (Sha256.rest msg ++ [0x80]) old).offset = msg.length % 64 + 1 := hlength
  have hbits : UInt64.ofNat (8 * (msg.length - msg.length % 64))
      + (UInt64.ofNat (Cursor.after (Sha256.rest msg) old).offset <<< 3)
      = UInt64.ofNat (8 * msg.length) := by
    have hshift : ∀ m < 64, UInt64.ofNat m <<< 3 = UInt64.ofNat (8 * m) := by decide
    have hshifted : UInt64.ofNat (Cursor.after (Sha256.rest msg) old).offset <<< 3
        = UInt64.ofNat (8 * (msg.length % 64)) := by
      have hlt : (Sha256.rest msg).length < 64 := by omega
      rw [← hrest]
      exact hshift _ hlt
    rw [hshifted, ← UInt64.ofNat_add]
    congr 1
    omega
  -- what the standard compresses behind the whole blocks of the message
  have habsorb : Sha256.absorb (msg ++ Sha256.padding msg.length)
      = IteratedHash.absorb 64 Sha256.compress (Sha256.absorb msg)
          (Sha256.rest msg ++ Sha256.padding msg.length) :=
    IteratedHash.absorb_append Sha256.compress (by decide) Sha256.initialHash msg _
  rw [Sha256.sha256, habsorb]
  unfold tcSha256Final
  simp only [hput, Option.bind_eq_bind, Option.bind_some, hoffset, hbits]
  by_cases hlong : msg.length % 64 + 1 > 64 - 8
  · -- a block with the bit and zeros, and a block with zeros and the length
    have hfirst : (Sha256.rest msg ++ [0x80]
        ++ List.replicate (64 - (msg.length % 64 + 1)) 0).length = 64 := by
      rw [List.length_append, hlength, List.length_replicate]
      omega
    have hzero : setZero (.after (Sha256.rest msg ++ [0x80]) old) (64 - (msg.length % 64 + 1))
        = some ⟨Sha256.rest msg ++ [0x80] ++ List.replicate (64 - (msg.length % 64 + 1)) 0,
            msg.length % 64 + 1⟩ := by
      rw [setZero_after (by omega), overlay, List.drop_eq_nil_of_le (by omega), List.append_nil,
        hlength]
    have hpadded : Sha256.rest msg ++ Sha256.padding msg.length
        = Sha256.rest msg ++ [0x80] ++ List.replicate (64 - (msg.length % 64 + 1)) 0
          ++ (List.replicate 56 0 ++ Sha256.lengthBytes (8 * msg.length)) := by
      have hzeros : (119 - msg.length % 64) % 64 = 64 - (msg.length % 64 + 1) + 56 := by omega
      rw [Sha256.padding, hzeros, List.replicate_add]
      simp only [List.append_assoc, List.cons_append, List.nil_append]
    have hsecond : (List.replicate 56 0 ++ Sha256.lengthBytes (8 * msg.length)).length = 64 := by
      rw [List.length_append, List.length_replicate, Sha256.length_lengthBytes]
    have hend := final_block (Sha256.compress (Sha256.absorb msg) (Sha256.rest msg ++ [0x80]
        ++ List.replicate (64 - (msg.length % 64 + 1)) 0)) [] hfirst (Nat.zero_le _) (8 * msg.length)
    rw [if_pos hlong, hzero]
    simp only [Option.bind_some, compress_eq _ hfirst]
    rw [hpadded, IteratedHash.absorb_block_append Sha256.compress (by decide) _ hfirst,
      IteratedHash.absorb_block Sha256.compress (by decide) _ hsecond]
    exact hend
  · rw [if_neg hlong]
    have hpadded : Sha256.rest msg ++ Sha256.padding msg.length
        = Sha256.rest msg ++ [0x80]
          ++ List.replicate (56 - (Sha256.rest msg ++ [0x80]).length) 0
          ++ Sha256.lengthBytes (8 * msg.length) := by
      have hzeros : (119 - msg.length % 64) % 64 = 56 - (msg.length % 64 + 1) := by omega
      rw [hlength, ← hzeros, Sha256.padding]
      simp only [List.append_assoc, List.cons_append, List.nil_append]
    have hblock : (Sha256.rest msg ++ Sha256.padding msg.length).length = 64 := by
      rw [hpadded, List.length_append, List.length_append, List.length_replicate, hlength,
        Sha256.length_lengthBytes]
      omega
    have hend := final_block (Sha256.absorb msg) (Sha256.rest msg ++ [0x80]) hold
      (by rw [hlength]; omega) (8 * msg.length)
    rw [← hpadded] at hend
    rw [IteratedHash.absorb_block Sha256.compress (by decide) _ hblock]
    exact hend

/-- **tinycrypt computes SHA-256.** Whatever pieces a message is handed over in, no access fails,
and the digest is that of the message. -/
theorem tcSha256_eq_sha256 (pieces : List (List UInt8)) :
    (do
      let s ← pieces.foldlM tcSha256Update tcSha256Init
      tcSha256Final s) = some (Sha256.sha256 pieces.flatten, .zero) := by
  suffices hpieces : ∀ (msg : List UInt8) (s : TcSha256State), Taken msg s →
      (pieces.foldlM tcSha256Update s).bind tcSha256Final
        = some (Sha256.sha256 (msg ++ pieces.flatten), .zero) from
    hpieces [] tcSha256Init tcSha256Init_taken
  intro msg s hs
  induction pieces generalizing msg s with
  | nil =>
    rw [List.flatten_nil, List.append_nil]
    exact hs.final
  | cons piece pieces ih =>
    obtain ⟨s', hpiece, hs'⟩ := hs.update piece
    have hrest := ih _ s' hs'
    rw [List.append_assoc] at hrest
    rw [List.foldlM_cons, hpiece, List.flatten_cons]
    exact hrest

example : (tcSha256Update tcSha256Init [0x61, 0x62, 0x63] >>= tcSha256Final).map Prod.fst = some [
    0xba, 0x78, 0x16, 0xbf, 0x8f, 0x01, 0xcf, 0xea, 0x41, 0x41, 0x40, 0xde, 0x5d, 0xae, 0x22, 0x23,
    0xb0, 0x03, 0x61, 0xa3, 0x96, 0x17, 0x7a, 0x9c, 0xb4, 0x10, 0xff, 0x61, 0xf2, 0x00, 0x15,
    0xad] := by
  decide +kernel

end Samwise.Tinycrypt
