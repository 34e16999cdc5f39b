import Samwise.Lib.ReflectedCrc
import Samwise.Filesys.Reading

/-!
# Samwise — the CRC of a file

`filesys_compute_file_crc` takes the CRC of a file in the pieces that littlefs hands out. The
result is the CRC-32 of the bytes in one piece, and that is the remainder of a polynomial
division, reflected and with complements before and after.
-/

namespace Samwise

open Interaction Polynomial Prog Run ReflectedCrc

/-! ## The bitwise loop and the division -/

/-- The generator of CRC-32 without its highest term, the lowest coefficient as the highest
bit. -/
def crc32Generator : BitVec 32 := 0xEDB88320#32

/-- With that term it is the polynomial of CRC-32. -/
theorem generator_crc32Generator : generator crc32Generator
    = X ^ 32 + X ^ 26 + X ^ 23 + X ^ 22 + X ^ 16 + X ^ 12 + X ^ 11 + X ^ 10 + X ^ 8 + X ^ 7
      + X ^ 5 + X ^ 4 + X ^ 2 + X + 1 := by
  ext i
  simp only [generator, coeff_add, coeff_poly, coeff_X_pow, coeff_X, coeff_one]
  by_cases hi : i < 33
  · revert i
    decide
  · have hout : ¬i < 32 := by omega
    simp only [hout, false_and, if_false]
    repeat rw [if_neg (by omega)]
    decide

/-- CRC-32 as a division. -/
noncomputable def crc32Division (message : List UInt8) : BitVec 32 :=
  ReflectedCrc.crc crc32Generator (BitVec.allOnes 32) (BitVec.allOnes 32)
    (message.map UInt8.toBitVec)

theorem toBitVec_crc32Bit (crc : UInt32) :
    (crc32Bit crc).toBitVec = shift crc32Generator crc.toBitVec := by
  have hlow : (crc &&& 1).toBitVec
      = BitVec.setWidth 32 (BitVec.ofBool (crc.toBitVec.getLsbD 0)) := by
    rw [UInt32.toBitVec_and]
    exact BitVec.and_one_eq_setWidth_ofBool_getLsbD
  unfold crc32Bit shift
  cases hbit : crc.toBitVec.getLsbD 0 with
  | true =>
    have hone : crc &&& 1 = 1 := UInt32.toBitVec_inj.mp (by rw [hlow, hbit]; decide)
    have hmask : (0xEDB88320 : UInt32) &&& (0 - 1) = 0xEDB88320 := by decide
    simp only [hone, hmask, if_true]
    rfl
  | false =>
    have hzero : crc &&& 1 = 0 := UInt32.toBitVec_inj.mp (by rw [hlow, hbit]; decide)
    have hmask : (0xEDB88320 : UInt32) &&& (0 - 0) = 0 := by decide
    simp only [hzero, hmask, Bool.false_eq_true, if_false, UInt32.xor_zero]
    rfl

theorem toBitVec_crc32Byte (crc : UInt32) (byte : UInt8) :
    (crc32Byte crc byte).toBitVec = feed crc32Generator crc.toBitVec byte.toBitVec := by
  have hbits : Function.Semiconj UInt32.toBitVec crc32Bit (shift crc32Generator) :=
    toBitVec_crc32Bit
  rw [crc32Byte, (hbits.iterate_right 8).eq]
  rfl

theorem toBitVec_crc32Continue (message : List UInt8) (crc : UInt32) :
    (crc32Continue message crc).toBitVec
      = (message.map UInt8.toBitVec).foldl (feed crc32Generator) crc.toBitVec := by
  induction message generalizing crc with
  | nil => rfl
  | cons byte message ih =>
    rw [List.map_cons, List.foldl_cons, ← toBitVec_crc32Byte, ← ih]
    rfl

/-- **The bitwise loop computes the remainder.** -/
theorem toBitVec_crc32 (message : List UInt8) :
    (crc32 message).toBitVec = crc32Division message := by
  rw [crc32Division, crc_eq_foldl _ _ _ (by decide) (by decide), BitVec.xor_allOnes]
  show ~~~(crc32Continue message 0xFFFFFFFF).toBitVec = _
  rw [toBitVec_crc32Continue]
  rfl

/-! ## The loop ends -/

/-- The loop of `filesys_compute_file_crc` as the source has it, which tests its condition
`fuel` times at most; `none` where that is not enough. -/
def computeFileCrcWhile : Nat → UInt32 → UInt32 → Filesys (Option CrcOutcome)
  | 0, _, _ => return none
  | fuel + 1, bytesRemaining, crc => do
    if ¬bytesRemaining > 0 then return some (← computeFileCrcFinish crc) else
    let toRead := if bytesRemaining < filesysReadBufferSize then bytesRemaining
      else filesysReadBufferSize
    let result ← lfsFileRead .computeFileCrc toRead
    if result.code < 0 then
      let _ ← filesysFileClose .computeFileCrc
      return some ⟨crc, .errCrcCheck, result.code⟩ else
    if result.code = 0 then
      let _ ← filesysFileClose .computeFileCrc
      return some ⟨crc, .errCrcCheck, lfsErrOk⟩ else
    computeFileCrcWhile fuel (bytesRemaining - UInt32.ofNat result.bytes.length)
      (crc32Continue result.bytes crc)

/-- `filesys_compute_file_crc` with that loop. -/
def filesysComputeFileCrcWhile (fuel : Nat) (fname : List UInt8) (fileSize : UInt32) :
    Filesys (Option CrcOutcome) := do
  let crc : UInt32 := 0xFFFFFFFF
  let openErr ← filesysFileOpen .computeFileCrc fname .rdonly
  if openErr < 0 then return some ⟨crc, .errOpenFile, openErr⟩ else
  computeFileCrcWhile fuel fileSize crc

/-- More tests than bytes remain are enough: every read that the loop goes on from takes a
byte. Induction on the tests. -/
theorem computeFileCrcWhile_eq (fuel rounds : Nat) {bytesRemaining crc : UInt32}
    (hfuel : bytesRemaining.toNat < fuel) (hrounds : bytesRemaining.toNat ≤ rounds) :
    computeFileCrcWhile fuel bytesRemaining crc
      = computeFileCrcLoop rounds bytesRemaining crc >>= fun r => return some r := by
  induction fuel generalizing rounds bytesRemaining crc with
  | zero => exact absurd hfuel (Nat.not_lt_zero _)
  | succ fuel ih =>
    by_cases hzero : bytesRemaining = 0
    · subst hzero
      cases rounds with
      | zero => rfl
      | succ rounds => rfl
    have hpos : 0 < bytesRemaining.toNat :=
      Nat.pos_of_ne_zero fun h => hzero (UInt32.toNat_inj.mp h)
    obtain ⟨rounds, rfl⟩ := Nat.exists_eq_add_of_le' (Nat.lt_of_lt_of_le hpos hrounds)
    have hgo : ¬¬bytesRemaining > 0 := not_not.mpr (UInt32.lt_iff_toNat_lt.mpr hpos)
    rw [computeFileCrcWhile, computeFileCrcLoop, if_neg hgo, if_neg hzero, bind_assoc]
    obtain ⟨toRead, htoRead, hle, _⟩ := exists_toRead hpos
    rw [← htoRead]
    refine congrArg (lfsFileRead .computeFileCrc toRead >>= ·) (funext fun result => ?_)
    by_cases hcode : result.code < 0
    · rw [if_pos hcode, if_pos hcode, bind_assoc]
      rfl
    by_cases hend : result.code = 0
    · rw [if_neg hcode, if_neg hcode, if_pos hend, if_pos hend, bind_assoc]
      rfl
    rw [if_neg hcode, if_neg hcode, if_neg hend, if_neg hend]
    cases result with
    | failed code hneg => exact absurd hneg hcode
    | read bytes hbytes =>
      have hnonempty : bytes.length ≠ 0 := fun h => hend (Int.ofNat_eq_zero.mpr h)
      have hsub := toNat_sub_ofNat (hbytes.trans hle)
      apply ih
      · show (bytesRemaining - UInt32.ofNat bytes.length).toNat < fuel
        omega
      · show (bytesRemaining - UInt32.ofNat bytes.length).toNat ≤ rounds
        omega

theorem filesysComputeFileCrcWhile_eq {fuel : Nat} (fname : List UInt8) {fileSize : UInt32}
    (hfuel : fileSize.toNat < fuel) :
    filesysComputeFileCrcWhile fuel fname fileSize
      = filesysComputeFileCrc fname fileSize >>= fun r => return some r := by
  rw [filesysComputeFileCrcWhile, filesysComputeFileCrc, bind_assoc]
  refine congrArg (filesysFileOpen .computeFileCrc fname .rdonly >>= ·) (funext fun err => ?_)
  by_cases herr : err < 0
  · rw [if_pos herr, if_pos herr]
    rfl
  · rw [if_neg herr, if_neg herr]
    exact computeFileCrcWhile_eq fuel _ hfuel (Nat.le_refl _)

/-! ## The calls -/

section Trace

variable {v w : FilesysVars} {t : List LfsEvent} {crc : UInt32} {r : CrcOutcome}

/-- A successful check made only calls that succeeded, and made no more than `n`. -/
def SucceedsWithin (n : Nat) (t : List LfsEvent) (r : CrcOutcome) : Prop :=
  t.length ≤ n ∧ (r.error = .ok → ∀ e ∈ t, 0 ≤ LfsEvent.code e)

theorem SucceedsWithin.cons {n : Nat} {e : LfsEvent} (he : 0 ≤ e.code)
    (h : SucceedsWithin n t r) : SucceedsWithin (n + 1) (e :: t) r := by
  refine ⟨Nat.succ_le_succ h.1, fun hok e' he' => ?_⟩
  rcases List.mem_cons.mp he' with rfl | he'
  · exact he
  · exact h.2 hok e' he'

theorem computeFileCrcFinish_succeeds
    (h : (computeFileCrcFinish crc).replay v t = some (r, w)) : SucceedsWithin 1 t r := by
  obtain ⟨err, u, rfl, hu⟩ := replay_filesysFileClose_bind.mp h
  split at hu
  · obtain ⟨rfl, heq⟩ := replay_pure.mp hu
    obtain ⟨rfl, rfl⟩ := Prod.mk.inj heq
    exact ⟨Nat.le_refl 1, fun hok => by cases hok⟩
  · next herr =>
    obtain ⟨rfl, heq⟩ := replay_pure.mp hu
    have hcode : 0 ≤ err := not_lt.mp fun h => herr (errorCode_neg.mpr h)
    exact .cons hcode ⟨Nat.le_refl 0, fun _ _ he => absurd he List.not_mem_nil⟩

/-- The loop makes a read a round, and closes the file. -/
theorem computeFileCrcLoop_succeeds (rounds : Nat) {bytesRemaining : UInt32}
    (h : (computeFileCrcLoop rounds bytesRemaining crc).replay v t = some (r, w)) :
    SucceedsWithin (rounds + 1) t r := by
  induction rounds generalizing bytesRemaining crc t with
  | zero => exact computeFileCrcFinish_succeeds h
  | succ rounds ih =>
    rw [computeFileCrcLoop] at h
    have givesUp {e : LfsEvent} {u : List LfsEvent} {out : CrcOutcome} (hfail : out.error ≠ .ok)
        (hu : (filesysFileClose .computeFileCrc >>= fun _ => (return out : Filesys CrcOutcome)).replay
          v u = some (r, w)) : SucceedsWithin (rounds + 1 + 1) (e :: u) r := by
      obtain ⟨_, u, rfl, hu⟩ := replay_filesysFileClose_bind.mp hu
      obtain ⟨rfl, heq⟩ := replay_pure.mp hu
      obtain ⟨rfl, rfl⟩ := Prod.mk.inj heq
      exact ⟨Nat.le_add_left 2 rounds, fun hok => absurd hok hfail⟩
    split at h
    · obtain ⟨hlength, hcodes⟩ := computeFileCrcFinish_succeeds h
      exact ⟨hlength.trans (Nat.le_add_left 1 _), hcodes⟩
    obtain ⟨result, u, rfl, hu⟩ := replay_perform_bind.mp h
    split at hu
    · exact givesUp (fun hok => by cases hok) hu
    next hcode =>
    split at hu
    · exact givesUp (fun hok => by cases hok) hu
    exact (ih hu).cons (not_lt.mp hcode)

theorem filesysComputeFileCrc_succeeds {fname : List UInt8} {fileSize : UInt32}
    (h : (filesysComputeFileCrc fname fileSize).replay v t = some (r, w)) :
    SucceedsWithin (fileSize.toNat + 2) t r := by
  obtain ⟨err, u, rfl, hu⟩ := replay_filesysFileOpen_bind.mp h
  split at hu
  · obtain ⟨rfl, heq⟩ := replay_pure.mp hu
    obtain ⟨rfl, rfl⟩ := Prod.mk.inj heq
    exact ⟨Nat.le_add_left 1 _, fun hok => by cases hok⟩
  · next herr =>
    have hcode : 0 ≤ err := not_lt.mp fun h => herr (errorCode_neg.mpr h)
    exact (computeFileCrcLoop_succeeds _ hu).cons hcode

end Trace

/-! ## The check -/

section Store

variable {resolve : List UInt8 → List UInt8} {s s' : FileStore} {v w : FilesysVars}
  {fname : List UInt8} {fileSize : UInt32} {t : List LfsEvent} {r : CrcOutcome}

/-- A check that succeeds has found that many bytes, and returns their CRC. -/
theorem filesysComputeFileCrc_crc
    (hreplay : (filesysComputeFileCrc fname fileSize).replay v t = some (r, w))
    (hrun : run (storeLfs resolve) s t = some s') (hok : r.error = .ok) :
    ∃ e, s.files (resolve fname) = some e ∧ fileSize.toNat ≤ e.content.length ∧
      r.crc = crc32 (e.content.take fileSize.toNat) := by
  obtain ⟨hfail, _⟩ | ⟨e, he, hchecks, _⟩ := ensures_filesysComputeFileCrc
    (storesFiles_storeLfs resolve) fname fileSize t r w s' hreplay hrun
  · exact absurd hok hfail
  obtain ⟨front, back, hcontent, hfront, hcrc⟩ := hchecks hok
  refine ⟨e, he, ?_, ?_⟩
  · rw [hcontent, List.length_append]
    omega
  · rw [hcontent, ← hfront, List.take_left]
    exact hcrc

/-- It succeeds if no call fails and there are as many bytes. -/
theorem filesysComputeFileCrc_ok_iff
    (hreplay : (filesysComputeFileCrc fname fileSize).replay v t = some (r, w))
    (hrun : run (storeLfs resolve) s t = some s') :
    r.error = .ok ↔ (∀ e ∈ t, 0 ≤ LfsEvent.code e) ∧
      ∃ e, s.files (resolve fname) = some e ∧ fileSize.toNat ≤ e.content.length := by
  constructor
  · intro hok
    obtain ⟨e, he, hle, _⟩ := filesysComputeFileCrc_crc hreplay hrun hok
    exact ⟨(filesysComputeFileCrc_succeeds hreplay).2 hok, e, he, hle⟩
  · -- on the same trace no call fails
    rintro ⟨hhealthy, e, he, hle⟩
    obtain ⟨_, hfalse⟩ | ⟨e', he', _, hfails⟩ := ensures_filesysComputeFileCrc
      (storesFiles_healthyLfs resolve) fname fileSize t r w s' hreplay
      (run_healthyLfs hhealthy hrun)
    · exact hfalse.elim
    rw [he] at he'
    obtain rfl := Option.some.inj he'
    by_contra hok
    exact (hfails hok).elim id (Nat.not_lt.mpr hle)

end Store

/-- **The CRC of a file.** For every file, every number of bytes and every pattern of short
reads and of failing calls: the loop ends, and it is done after a read for each byte at most.
The check succeeds exactly if no call of littlefs fails and the file has that many bytes, and
then its result is the CRC-32 of these bytes, the remainder of the division. -/
theorem filesys_compute_file_crc (resolve : List UInt8 → List UInt8) (s : FileStore)
    (v : FilesysVars) (fname : List UInt8) (fileSize : UInt32) :
    (∀ fuel, fileSize.toNat < fuel → filesysComputeFileCrcWhile fuel fname fileSize
      = filesysComputeFileCrc fname fileSize >>= fun r => return some r) ∧
    ∀ t r w s', (filesysComputeFileCrc fname fileSize).replay v t = some (r, w) →
      run (storeLfs resolve) s t = some s' →
      t.length ≤ fileSize.toNat + 2 ∧
      (r.error = .ok ↔ (∀ e ∈ t, 0 ≤ LfsEvent.code e) ∧
        ∃ e, s.files (resolve fname) = some e ∧ fileSize.toNat ≤ e.content.length) ∧
      (r.error = .ok → ∃ e, s.files (resolve fname) = some e ∧
        r.crc = crc32 (e.content.take fileSize.toNat) ∧
        r.crc.toBitVec = crc32Division (e.content.take fileSize.toNat)) := by
  refine ⟨fun fuel => filesysComputeFileCrcWhile_eq fname, fun t r w s' hreplay hrun => ?_⟩
  refine ⟨(filesysComputeFileCrc_succeeds hreplay).1,
    filesysComputeFileCrc_ok_iff hreplay hrun, fun hok => ?_⟩
  obtain ⟨e, he, _, hcrc⟩ := filesysComputeFileCrc_crc hreplay hrun hok
  exact ⟨e, he, hcrc, by rw [hcrc, toBitVec_crc32]⟩

/-- A check of `front` and `back` that takes two reads. -/
def sampleTwoReads (size : UInt32) (front back : List UInt8) (hfront : front.length ≤ size.toNat)
    (hback : back.length ≤ (size - UInt32.ofNat front.length).toNat) : List LfsEvent :=
  [⟨LfsCall.fileOpencfg .computeFileCrc [0x61] .rdonly, (0 : Int)⟩,
    ⟨LfsCall.fileRead .computeFileCrc size, ReadResult.read front hfront⟩,
    ⟨LfsCall.fileRead .computeFileCrc (size - UInt32.ofNat front.length),
      ReadResult.read back hback⟩,
    ⟨LfsCall.fileClose .computeFileCrc, (0 : Int)⟩]

/-- Three bytes of four, the first read short. -/
theorem filesys_compute_file_crc_short_reads :
    ∃ r w s', (filesysComputeFileCrc [0x61] 3).replay .atBoot
        (sampleTwoReads 3 [1, 2] [3] (by decide) (by decide)) = some (r, w) ∧
      run (storeLfs id) { FileStore.empty with files := fun _ => some ⟨[1, 2, 3, 4], none⟩ }
        (sampleTwoReads 3 [1, 2] [3] (by decide) (by decide)) = some s' ∧
      r.error = .ok ∧ r.crc = crc32 [1, 2, 3] ∧ r.crc.toBitVec = crc32Division [1, 2, 3] := by
  refine ⟨_, _, _, rfl, rfl, rfl, ?_⟩
  obtain ⟨_, he, hcrc⟩ := ((filesys_compute_file_crc id
    { FileStore.empty with files := fun _ => some ⟨[1, 2, 3, 4], none⟩ } .atBoot [0x61] 3).2
    (sampleTwoReads 3 [1, 2] [3] (by decide) (by decide)) _ _ _ rfl rfl).2.2 rfl
  obtain rfl := Option.some.inj he
  exact hcrc

end Samwise
