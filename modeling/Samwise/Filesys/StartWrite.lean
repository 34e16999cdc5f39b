import Mathlib.Algebra.Order.Floor.Div
import Samwise.Filesys.ContentLaw

/-!
# Samwise — starting a write

What `filesys_start_file_write` admits, and what it leaves behind where it fails. The blocks it
asks for are rounded up in unsigned arithmetic of 32 bits, which wraps for the longest declared
sizes. And an error of `lfs_setattr` or of the close comes after the file was opened with
`LFS_O_TRUNC`: what that did is not undone.
-/

namespace Samwise

open Interaction Memory Prog Run

/-! ## Space -/

/-- The code's verdict on the space is that of exact arithmetic, with `n` blocks in use. -/
def AdmitsExactly (cfg : LfsConfig) (fileSize : UInt32) (n : Int)
    (r : FilesysError × Int × Option Int) : Prop :=
  (r.1 = .errNotEnoughSpace ↔
    n + (fileSize.toNat ⌈/⌉ cfg.blockSize.toNat : Nat) > cfg.blockCount.toNat) ∧
  r.2.2 = some (cfg.blockCount.toNat - n - (fileSize.toNat ⌈/⌉ cfg.blockSize.toNat : Nat))

/-- What is used of the configurations. -/
structure LfsConfig.Small (cfg : LfsConfig) : Prop where
  blockSize : 4 ≤ cfg.blockSize.toNat
  blockSize_le : cfg.blockSize.toNat ≤ 4096
  blockCount : cfg.blockCount.toNat * cfg.blockSize.toNat < 2147483648

theorem toInt_toInt32 {x : UInt32} (h : x.toNat < 2147483648) : x.toInt32.toInt = x.toNat := by
  show x.toBitVec.toInt = x.toNat
  exact BitVec.toInt_eq_toNat_of_lt (by
    have htoNat : x.toBitVec.toNat = x.toNat := rfl
    omega)

section Space

variable {cfg : LfsConfig} {fileSize : UInt32}

theorem LfsConfig.Small.numBlocks_eq (hcfg : cfg.Small) :
    cfg.numBlocks = cfg.blockCount.toNat := by
  apply toInt_toInt32
  have hpos : 0 < cfg.blockSize.toNat := Nat.lt_of_lt_of_le (by decide) hcfg.blockSize
  exact Nat.lt_of_le_of_lt (Nat.le_mul_of_pos_right _ hpos) hcfg.blockCount

theorem toNat_roundUp (hblock : 4 ≤ cfg.blockSize.toNat) :
    (fileSize + cfg.blockSize - 1).toNat
      = (fileSize.toNat + cfg.blockSize.toNat - 1) % 4294967296 := by
  have := fileSize.toNat_lt
  have := cfg.blockSize.toNat_lt
  rw [UInt32.toNat_sub, UInt32.toNat_add]
  have hone : (1 : UInt32).toNat = 1 := rfl
  rw [hone]
  omega

/-- Without a wrap the number of blocks is the exact one. -/
theorem LfsConfig.Small.numBlocksNeeded_eq (hcfg : cfg.Small)
    (h : fileSize.toNat + cfg.blockSize.toNat ≤ 4294967296) :
    cfg.numBlocksNeeded fileSize = (fileSize.toNat ⌈/⌉ cfg.blockSize.toNat : Nat) := by
  have hblock := hcfg.blockSize
  have hceil : ((fileSize + cfg.blockSize - 1) / cfg.blockSize).toNat
      = fileSize.toNat ⌈/⌉ cfg.blockSize.toNat := by
    rw [UInt32.toNat_div, toNat_roundUp hblock, Nat.ceilDiv_eq_add_pred_div, Nat.mod_eq_of_lt]
    omega
  rw [LfsConfig.numBlocksNeeded, toInt_toInt32, hceil]
  rw [UInt32.toNat_div, Nat.div_lt_iff_lt_mul (by omega)]
  have := (fileSize + cfg.blockSize - 1).toNat_lt
  omega

/-- With one no block is asked for. -/
theorem LfsConfig.Small.numBlocksNeeded_wrapped (hcfg : cfg.Small)
    (h : 4294967296 < fileSize.toNat + cfg.blockSize.toNat) :
    cfg.numBlocksNeeded fileSize = 0 := by
  have hblock := hcfg.blockSize
  have := fileSize.toNat_lt
  have hzero : (fileSize + cfg.blockSize - 1) / cfg.blockSize = 0 := by
    apply UInt32.toNat_inj.mp
    rw [UInt32.toNat_div, toNat_roundUp hblock]
    apply Nat.div_eq_of_lt
    omega
  rw [LfsConfig.numBlocksNeeded, hzero]
  rfl

/-- Where more are needed than there are. -/
theorem LfsConfig.Small.lt_ceilDiv (hcfg : cfg.Small)
    (h : 4294967296 < fileSize.toNat + cfg.blockSize.toNat) :
    cfg.blockCount.toNat < fileSize.toNat ⌈/⌉ cfg.blockSize.toNat := by
  have hpos : 0 < cfg.blockSize.toNat := Nat.lt_of_lt_of_le (by decide) hcfg.blockSize
  rw [← not_le, ceilDiv_le_iff_le_mul hpos, not_le, mul_comm]
  have := hcfg.blockCount
  have := hcfg.blockSize_le
  omega

/-- The verdict, from the path through the code. -/
theorem StartPath.admits {fnameStr : FnameStr} {fileCrc : UInt32} {v w : FilesysVars} {n : Int}
    {u : List LfsEvent} {r : FilesysError × Int × Option Int}
    (h : StartPath cfg fnameStr fileSize fileCrc v (called .fsSize n :: u) r w) (hn : 0 ≤ n) :
    (r.1 = .errNotEnoughSpace ↔ n + cfg.numBlocksNeeded fileSize > cfg.numBlocks) ∧
      r.2.2 = some (cfg.numBlocks - n - cfg.numBlocksNeeded fileSize) := by
  cases h with
  | fsSizeFailed _ hneg => exact absurd hneg (not_lt.mpr hn)
  | noSpace _ _ hspace => exact ⟨⟨fun _ => hspace, fun _ => rfl⟩, rfl⟩
  | openFailed _ _ hspace _ | setattrFailed _ _ hspace _ _ | closeFailed _ _ hspace _ _ _
  | started _ _ hspace _ _ _ =>
    exact ⟨⟨nofun, fun h => absurd h hspace⟩, rfl⟩

end Space

theorem LfsConfig.small_of_mem {cfg : LfsConfig} (h : cfg ∈ [mramConfig, flashConfig]) :
    cfg.Small := by
  rcases List.mem_cons.mp h with rfl | h
  · exact ⟨by decide, by decide, by decide⟩
  · obtain rfl := List.mem_singleton.mp h
    exact ⟨by decide, by decide, by decide⟩

/-- **When space admission is exact.** For every configuration, every declared size and every
number of blocks in use: the verdict and the number of blocks left are those of exact
arithmetic if and only if the rounded size stays below 2^32. -/
theorem filesys_start_file_write_space (cfg : LfsConfig) (hcfg : cfg ∈ [mramConfig, flashConfig])
    (fnameStr : FnameStr) (fileSize fileCrc : UInt32) (v w : FilesysVars) (n : Int)
    (u : List LfsEvent) (r : FilesysError × Int × Option Int) (hn : 0 ≤ n)
    (hle : n ≤ cfg.blockCount.toNat)
    (hreplay : (filesysStartFileWrite cfg fnameStr fileSize fileCrc).replay v
      (called .fsSize n :: u) = some (r, w)) :
    AdmitsExactly cfg fileSize n r ↔ fileSize.toNat + cfg.blockSize.toNat ≤ 4294967296 := by
  have hsmall := LfsConfig.small_of_mem hcfg
  obtain ⟨herror, hleft⟩ := (startPath hreplay).admits hn
  rw [AdmitsExactly, herror, hleft, hsmall.numBlocks_eq]
  by_cases h : fileSize.toNat + cfg.blockSize.toNat ≤ 4294967296
  · rw [hsmall.numBlocksNeeded_eq h]
    exact ⟨fun _ => h, fun _ => ⟨Iff.rfl, rfl⟩⟩
  · -- no block is asked for, so the file is admitted
    have hmany := hsmall.lt_ceilDiv (not_le.mp h)
    rw [hsmall.numBlocksNeeded_wrapped (not_le.mp h)]
    refine ⟨fun ⟨hadmits, _⟩ => ?_, fun h' => absurd h' h⟩
    have : n + 0 > (cfg.blockCount.toNat : Int) := hadmits.mpr (by omega)
    omega

/-- A file of 4 GiB is admitted to 512 KiB. -/
theorem filesys_start_file_write_space_wraps :
    ¬∀ cfg ∈ [mramConfig, flashConfig], ∀ fnameStr fileSize fileCrc v w n u r, 0 ≤ n →
      n ≤ (cfg.blockCount.toNat : Int) →
      (filesysStartFileWrite cfg fnameStr fileSize fileCrc).replay v (called .fsSize n :: u)
        = some (r, w) →
      AdmitsExactly cfg fileSize n r := by
  intro h
  have hadmits := h mramConfig List.mem_cons_self sampleName 0xFFFFFFFF 0 .atBoot _ 2
    (sampleStart 0xFFFFFFFF 0).trace.tail (.ok, 0, some 2046) (by decide) (by decide) rfl
  have hspace : FilesysError.ok = .errNotEnoughSpace := hadmits.1.mpr (by decide)
  cases hspace

/-- A file of 300 bytes needs two blocks. -/
theorem filesys_start_file_write_space_exact :
    ∃ r w, (filesysStartFileWrite mramConfig sampleName 300 0).replay .atBoot
        (called .fsSize (2 : Int) :: (sampleStart 300 0).trace.tail) = some (r, w) ∧
      (AdmitsExactly mramConfig 300 2 r ↔
        (300 : UInt32).toNat + mramConfig.blockSize.toNat ≤ 4294967296) :=
  ⟨(.ok, 0, some 2044), _, rfl, filesys_start_file_write_space mramConfig List.mem_cons_self
    sampleName 300 0 .atBoot _ 2 (sampleStart 300 0).trace.tail _ (by decide) (by decide) rfl⟩

/-! ## Failing -/

/-- Nothing has changed but the name of the file: every file has its content and its attribute,
and no file is new. -/
structure StartUndone (s s' : FileStore) (v w : FilesysVars) : Prop where
  files : s'.files = s.files
  isWritingFile : w.isWritingFile = v.isWritingFile
  bufferIsDirty : w.bufferIsDirty = v.bufferIsDirty
  bufferedFileLen : w.bufferedFileLen = v.bufferedFileLen
  bufferedFileCrc : w.bufferedFileCrc = v.bufferedFileCrc

/-- There was nothing to undo. No buffer was left dirty, and a file that was opened was there
before: it was empty already, or its truncation was not committed; and it had that attribute
already, or did not get it. -/
structure NothingToUndo (resolve : List UInt8 → List UInt8) (s : FileStore) (v : FilesysVars)
    (path : List UInt8) (fileCrc : UInt32) (t : List LfsEvent) : Prop where
  clean : v.isWritingFile = false → v.bufferIsDirty = false
  file : ∀ n o a c : Int,
    t = [called .fsSize n, called (.fileOpencfg .startFileWrite path .creatWronlyTrunc) o,
      called (.setattr path fileCrc) a, called (.fileClose .startFileWrite) c] →
    ∃ e, s.files (resolve path) = some e ∧ (c < 0 ∨ e.content = []) ∧
      (a < 0 ∨ e.crcAttr = some fileCrc)

@[simp] theorem FilesysVars.cleaned_bufferIsDirty (v : FilesysVars) :
    v.cleaned.bufferIsDirty = false := by
  unfold FilesysVars.cleaned
  split
  · rfl
  · next h => exact Bool.eq_false_of_not_eq_true h

/-- The dirty flag is all that the defensive branch changes of the four variables. -/
theorem startUndone_cleaned {s s' : FileStore} {v w : FilesysVars}
    (hw : w = { v.cleaned with bufferedFnameStr := w.bufferedFnameStr }) :
    StartUndone s s' v w ↔ s'.files = s.files ∧ v.bufferIsDirty = false := by
  have hsame : v.cleaned.isWritingFile = v.isWritingFile ∧
      v.cleaned.bufferedFileLen = v.bufferedFileLen ∧
      v.cleaned.bufferedFileCrc = v.bufferedFileCrc := by
    unfold FilesysVars.cleaned
    split
    · exact ⟨rfl, rfl, rfl⟩
    · exact ⟨rfl, rfl, rfl⟩
  have hdirty : w.bufferIsDirty = false := by
    rw [hw]
    exact v.cleaned_bufferIsDirty
  constructor
  · exact fun h => ⟨h.files, h.bufferIsDirty.symm.trans hdirty⟩
  · rintro ⟨hfiles, hclean⟩
    refine ⟨hfiles, ?_, hdirty.trans hclean.symm, ?_, ?_⟩
    · rw [hw]
      exact hsame.1
    · rw [hw]
      exact hsame.2.1
    · rw [hw]
      exact hsame.2.2

/-- The file is as before. -/
theorem update_startedEntry {s : FileStore} {p : List UInt8} {fileCrc : UInt32} {a c : Int} :
    Function.update s.files p (some (startedEntry ((s.files p).getD ⟨[], none⟩) fileCrc a c))
        = s.files ↔
      ∃ e, s.files p = some e ∧ (c < 0 ∨ e.content = []) ∧
        (a < 0 ∨ e.crcAttr = some fileCrc) := by
  rw [Function.update_eq_self_iff]
  cases hfile : s.files p with
  | none => simp
  | some e =>
    obtain ⟨content, crcAttr⟩ := e
    simp only [Option.getD_some, startedEntry, Option.some.injEq, FileEntry.mk.injEq,
      exists_eq_left']
    refine and_congr ?_ ?_
    · split
      · next hc => simp [hc]
      · next hc => simp [hc, eq_comm]
    · split
      · next ha => simp [ha]
      · next ha => simp [ha, eq_comm]

section Undone

variable {resolve : List UInt8 → List UInt8} {s s' : FileStore} {v w : FilesysVars}
  {fnameStr : FnameStr} {fileCrc : UInt32}

/-- Without the four calls of a successful open, only the flag is in question. -/
theorem startUndone_iff_of_not_opened {path : List UInt8} {t : List LfsEvent}
    (hidle : v.isWritingFile = false)
    (hw : w = { v.cleaned with bufferedFnameStr := w.bufferedFnameStr })
    (hfiles : s'.files = s.files) (hlength : t.length ≠ 4) :
    StartUndone s s' v w ↔ NothingToUndo resolve s v path fileCrc t := by
  rw [startUndone_cleaned hw]
  constructor
  · rintro ⟨_, hclean⟩
    refine ⟨fun _ => hclean, fun n o a c ht => ?_⟩
    rw [ht] at hlength
    exact absurd rfl hlength
  · exact fun h => ⟨hfiles, h.clean hidle⟩

/-- With them the file has what they left of it. -/
theorem startUndone_iff_of_opened {n o a c : Int} (hidle : v.isWritingFile = false)
    (ho : ¬o < 0) (hrun : run (storeLfs resolve) s [called .fsSize n,
      called (.fileOpencfg .startFileWrite (cString fnameStr.toList) .creatWronlyTrunc) o,
      called (.setattr (cString fnameStr.toList) fileCrc) a,
      called (.fileClose .startFileWrite) c] = some s') :
    StartUndone s s' v (v.named fnameStr) ↔
      NothingToUndo resolve s v (cString fnameStr.toList) fileCrc [called .fsSize n,
        called (.fileOpencfg .startFileWrite (cString fnameStr.toList) .creatWronlyTrunc) o,
        called (.setattr (cString fnameStr.toList) fileCrc) a,
        called (.fileClose .startFileWrite) c] := by
  rw [startUndone_cleaned rfl, (run_start_files ho hrun).2, update_startedEntry]
  constructor
  · rintro ⟨hfile, hclean⟩
    refine ⟨fun _ => hclean, fun n' o' a' c' ht => ?_⟩
    simp only [List.cons.injEq, and_true] at ht
    obtain ⟨_, _, ha, hc⟩ := ht
    cases ha
    cases hc
    exact hfile
  · exact fun h => ⟨h.file n o a c rfl, h.clean hidle⟩

end Undone

/-- **When a failed start is undone.** For every content of the filesystem, all arguments and
every pattern of littlefs results: a start that returns an error leaves every file and the four
variables as they were if and only if there was nothing to undo. -/
theorem filesys_start_file_write_undone (resolve : List UInt8 → List UInt8) (cfg : LfsConfig)
    (fnameStr : FnameStr) (fileSize fileCrc : UInt32) (s s' : FileStore) (v w : FilesysVars)
    (t : List LfsEvent) (r : FilesysError × Int × Option Int)
    (hreplay : (filesysStartFileWrite cfg fnameStr fileSize fileCrc).replay v t = some (r, w))
    (hrun : run (storeLfs resolve) s t = some s') (herror : r.1 ≠ .ok) :
    StartUndone s s' v w ↔
      NothingToUndo resolve s v (cString fnameStr.toList) fileCrc t := by
  cases startPath hreplay with
  | alreadyWriting hwriting =>
    obtain rfl := Option.some.inj hrun
    refine ⟨fun _ => ⟨fun hidle => ?_, nofun⟩, fun _ => ⟨rfl, rfl, rfl, rfl, rfl⟩⟩
    exact absurd (hwriting.symm.trans hidle) (Ne.symm Bool.false_ne_true)
  | fsSizeFailed hidle _ =>
    obtain rfl := Option.some.inj hrun
    exact startUndone_iff_of_not_opened hidle rfl rfl (by simp)
  | noSpace hidle _ _ =>
    obtain rfl := Option.some.inj hrun
    exact startUndone_iff_of_not_opened hidle rfl rfl (by simp)
  | openFailed hidle _ _ ho =>
    obtain ⟨s₁, hfsSize, hrun₁⟩ := run_cons_some _ hrun
    obtain ⟨s₂, hopen, hrun₂⟩ := run_cons_some _ hrun₁
    obtain rfl := Option.some.inj hfsSize
    obtain rfl := Option.some.inj hrun₂
    rw [storeLfs_fileOpencfg, if_pos ho] at hopen
    obtain rfl := Option.some.inj hopen
    exact startUndone_iff_of_not_opened hidle rfl rfl (by simp)
  | setattrFailed hidle _ _ ho _ => exact startUndone_iff_of_opened hidle ho hrun
  | closeFailed hidle _ _ ho _ _ => exact startUndone_iff_of_opened hidle ho hrun
  | started _ _ _ _ _ _ => exact absurd rfl herror

/-- The calls of a start of `"ab"` in which `lfs_setattr` returns `LFS_ERR_NOSPC`. -/
def sampleSetattrFailed : List LfsEvent :=
  [called .fsSize (2 : Int),
    called (.fileOpencfg .startFileWrite [0x61, 0x62] .creatWronlyTrunc) (0 : Int),
    called (.setattr [0x61, 0x62] 5) (-28 : Int), called (.fileClose .startFileWrite) (0 : Int)]

/-- A store whose only file is `"ab"`. -/
def sampleOnlyFile (e : FileEntry) : FileStore :=
  { FileStore.empty with files := fun p => if p = [0x61, 0x62] then some e else none }

/-- The file that was there before loses its content. -/
theorem filesys_start_file_write_truncates :
    ¬∀ resolve cfg fnameStr fileSize fileCrc s s' v w t r,
      (filesysStartFileWrite cfg fnameStr fileSize fileCrc).replay v t = some (r, w) →
      run (storeLfs resolve) s t = some s' → r.1 ≠ .ok → StartUndone s s' v w := by
  intro h
  have hfiles := (h id mramConfig sampleName 7 5 (sampleOnlyFile ⟨[1], some 3⟩) _ .atBoot _
    sampleSetattrFailed (.errSetCrcAttr, -28, some 2045) rfl rfl (by decide)).files
  have hcontent := congrArg (Option.map FileEntry.content) (congrFun hfiles [0x61, 0x62])
  exact absurd hcontent (by decide)

/-- An empty one is as before. -/
theorem filesys_start_file_write_undone_empty :
    ∃ s' w, (filesysStartFileWrite mramConfig sampleName 7 5).replay .atBoot sampleSetattrFailed
        = some ((.errSetCrcAttr, -28, some 2045), w) ∧
      run (storeLfs id) (sampleOnlyFile ⟨[], some 3⟩) sampleSetattrFailed = some s' ∧
      (StartUndone (sampleOnlyFile ⟨[], some 3⟩) s' .atBoot w ↔ NothingToUndo id
        (sampleOnlyFile ⟨[], some 3⟩) .atBoot (cString sampleName.toList) 5 sampleSetattrFailed) :=
  ⟨_, _, rfl, rfl, filesys_start_file_write_undone id mramConfig sampleName 7 5
    (sampleOnlyFile ⟨[], some 3⟩) _ .atBoot _ sampleSetattrFailed (.errSetCrcAttr, -28, some 2045)
    rfl rfl (by decide)⟩

end Samwise
