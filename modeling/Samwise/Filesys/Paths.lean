import Samwise.Filesys.Operation

/-!
# Samwise — the paths through `filesys.c`

What each function of the write session can do, said once: one inductive proposition for a
function, with a constructor for each way through its code, the trace of littlefs calls on
that way, what is returned, and the variables afterwards. The functions that check and read
leave the variables alone and only inspect (`Inspects`); that is all that is said of them here.
-/

namespace Samwise

open Interaction Memory Prog

/-- A trace entry, for calls that return a number. -/
abbrev called (c : LfsCall) (r : littlefs.Response c) : LfsEvent := ⟨c, r⟩

@[simp] theorem errorCode_neg {err : Int} : errorCode err < 0 ↔ err < 0 := by
  unfold errorCode lfsErrOk
  split <;> omega

theorem errorCode_of_neg {err : Int} (h : err < 0) : errorCode err = err := if_pos h

section Replay

variable {α : Type} {v : FilesysVars} {t : List LfsEvent} {y : α × FilesysVars}

theorem replay_filesysFileOpen_bind {file : FileRef} {fname : List UInt8} {flags : OpenFlags}
    {f : Int → Filesys α} : (filesysFileOpen file fname flags >>= f).replay v t = some y ↔
      ∃ (err : Int) (u : List LfsEvent), t = called (.fileOpencfg file fname flags) err :: u ∧
        (f (errorCode err)).replay v u = some y :=
  replay_perform_bind (S := littlefs) (c := LfsCall.fileOpencfg file fname flags)
    (f := fun err : Int => f (errorCode err))

theorem replay_filesysFileClose_bind {file : FileRef} {f : Int → Filesys α} :
    (filesysFileClose file >>= f).replay v t = some y ↔
      ∃ (err : Int) (u : List LfsEvent), t = called (.fileClose file) err :: u ∧
        (f (errorCode err)).replay v u = some y :=
  replay_perform_bind (S := littlefs) (c := LfsCall.fileClose file)
    (f := fun err : Int => f (errorCode err))

theorem ensures_filesysFileOpen_bind {σ : Type} {respond : σ → LfsEvent → Option σ} {s : σ}
    {Q : α → FilesysVars → σ → Prop} {file : FileRef} {fname : List UInt8} {flags : OpenFlags}
    {f : Int → Filesys α} (h : ∀ (err : Int) (s' : σ),
      respond s (called (.fileOpencfg file fname flags) err) = some s' →
        Ensures respond v s' (f (errorCode err)) Q) :
    Ensures respond v s (filesysFileOpen file fname flags >>= f) Q :=
  .perform_bind (S := littlefs) (c := LfsCall.fileOpencfg file fname flags)
    (f := fun err : Int => f (errorCode err)) h

theorem ensures_filesysFileClose_bind {σ : Type} {respond : σ → LfsEvent → Option σ} {s : σ}
    {Q : α → FilesysVars → σ → Prop} {file : FileRef} {f : Int → Filesys α}
    (h : ∀ (err : Int) (s' : σ), respond s (called (.fileClose file) err) = some s' →
      Ensures respond v s' (f (errorCode err)) Q) :
    Ensures respond v s (filesysFileClose file >>= f) Q :=
  .perform_bind (S := littlefs) (c := LfsCall.fileClose file)
    (f := fun err : Int => f (errorCode err)) h

theorem replay_clearBuffer_bind {f : Unit → Filesys α} :
    (filesysClearBuffer >>= f).replay v t = (f ()).replay v.clearBuffer t := rfl

end Replay

/-! ## Mounting -/

/-- The variables behind a successful `filesys_initialize`. -/
def FilesysVars.mounted (v : FilesysVars) : FilesysVars :=
  { v.clearBuffer with isWritingFile := false, lfsMounted := true }

/-- `filesys_initialize`. -/
inductive InitPath (v : FilesysVars) :
    List LfsEvent → FilesysError × Int → FilesysVars → Prop where
  | mountFailed {err : Int} (h : err < 0) : InitPath v [called .mount err] (.errMount, err) v
  | noBuffer {err : Int} (h : ¬err < 0) (hbuffer : v.bufferAllocated = false) :
      InitPath v [called .mount err] (.errMalloc, lfsErrOk) v
  | mounted {err : Int} (h : ¬err < 0) (hbuffer : v.bufferAllocated = true) :
      InitPath v [called .mount err] (.ok, lfsErrOk) v.mounted

theorem initPath {v w : FilesysVars} {t : List LfsEvent} {r : FilesysError × Int}
    (h : filesysInitialize.replay v t = some (r, w)) : InitPath v t r w := by
  obtain ⟨err, u, rfl, h₁⟩ := replay_perform_bind.mp h
  split at h₁
  · next herr =>
    obtain ⟨rfl, heq⟩ := replay_pure.mp h₁
    cases heq
    exact .mountFailed herr
  · next herr =>
    rw [replay_vars_bind] at h₁
    split at h₁
    · next hbuffer =>
      obtain ⟨rfl, heq⟩ := replay_pure.mp h₁
      cases heq
      exact .noBuffer herr hbuffer
    · next hbuffer =>
      rw [replay_modify_bind, replay_clearBuffer_bind, replay_modify_bind] at h₁
      obtain ⟨rfl, heq⟩ := replay_pure.mp h₁
      cases heq
      exact .mounted herr (Bool.eq_true_of_not_eq_false hbuffer)

/-- The calls that take a mounted littlefs down, and the variables behind them. -/
def unmountTrace (v : FilesysVars) (err : Int) : List LfsEvent :=
  if v.lfsMounted = true then [called .unmount err] else []

/-- The variables with `lfs_mounted` down. -/
def FilesysVars.unmounted (v : FilesysVars) : FilesysVars := { v with lfsMounted := false }

/-- `filesys_reformat_initialize`. -/
inductive ReformatPath (v : FilesysVars) :
    List LfsEvent → FilesysError × Int → FilesysVars → Prop where
  | formatFailed {e err : Int} (h : err < 0) :
      ReformatPath v (unmountTrace v e ++ [called .format err]) (.errReformat, err) v.unmounted
  | formatted {e err : Int} {t : List LfsEvent} {r : FilesysError × Int} {w : FilesysVars}
      (h : ¬err < 0) (hinit : InitPath v.unmounted t r w) :
      ReformatPath v (unmountTrace v e ++ called .format err :: t) r w

theorem reformatPath {v w : FilesysVars} {t : List LfsEvent} {r : FilesysError × Int}
    (h : filesysReformatInitialize.replay v t = some (r, w)) : ReformatPath v t r w := by
  obtain ⟨t₁, t₂, _, v₁, rfl, h₁, h₂⟩ := replay_bind.mp (show (Prog.when (v.lfsMounted = true) (do
      let _ ← lfsUnmount
      .modify fun v => { v with lfsMounted := false }) >>= _).replay v t = some (r, w) from h)
  obtain ⟨e, ht₁, hv₁⟩ : ∃ e : Int, t₁ = unmountTrace v e ∧ v₁ = v.unmounted := by
    unfold Prog.when at h₁
    split at h₁
    · next hmounted =>
      obtain ⟨e, u, rfl, h₃⟩ := replay_perform_bind.mp h₁
      obtain ⟨rfl, heq⟩ := replay_pure.mp
        (show (pure () : Filesys Unit).replay v.unmounted u = _ from h₃)
      cases heq
      exact ⟨e, (if_pos hmounted).symm, rfl⟩
    · next hmounted =>
      obtain ⟨rfl, heq⟩ := replay_pure.mp h₁
      cases heq
      refine ⟨0, (if_neg hmounted).symm, ?_⟩
      have hfalse : v.lfsMounted = false := Bool.eq_false_of_not_eq_true hmounted
      rw [FilesysVars.unmounted, ← hfalse]
  subst ht₁ hv₁
  obtain ⟨err, u, rfl, h₃⟩ := replay_perform_bind.mp h₂
  split at h₃
  · next herr =>
    obtain ⟨rfl, heq⟩ := replay_pure.mp h₃
    cases heq
    exact .formatFailed herr
  · next herr =>
    obtain ⟨u₁, u₂, r', w', rfl, h₄, h₅⟩ := replay_bind.mp h₃
    have hend : u₂ = [] ∧ r = r' ∧ w = w' := by
      obtain ⟨errInit, code⟩ := r'
      dsimp only at h₅
      split at h₅
      · obtain ⟨rfl, heq⟩ := replay_pure.mp h₅
        cases heq
        exact ⟨rfl, rfl, rfl⟩
      · next hcode =>
        obtain ⟨rfl, heq⟩ := replay_pure.mp h₅
        cases heq
        -- an error of `filesys_initialize` is negative
        cases initPath h₄ with
        | mountFailed _ => exact absurd (by decide) hcode
        | noBuffer _ _ => exact absurd (by decide) hcode
        | mounted _ _ => exact ⟨rfl, rfl, rfl⟩
    obtain ⟨rfl, rfl, rfl⟩ := hend
    rw [List.append_nil]
    exact .formatted herr (initPath h₄)

/-! ## Starting a write -/

/-- The variables behind the defensive branch of `filesys_start_file_write`. -/
def FilesysVars.cleaned (v : FilesysVars) : FilesysVars :=
  if v.bufferIsDirty = true then v.clearBuffer else v

/-- The variables with the new file name. -/
def FilesysVars.named (v : FilesysVars) (fnameStr : FnameStr) : FilesysVars :=
  { v.cleaned with bufferedFnameStr := fnameStr }

/-- `filesys_start_file_write`. -/
inductive StartPath (cfg : LfsConfig) (fnameStr : FnameStr) (fileSize fileCrc : UInt32)
    (v : FilesysVars) :
    List LfsEvent → FilesysError × Int × Option Int → FilesysVars → Prop where
  | alreadyWriting (h : v.isWritingFile = true) :
      StartPath cfg fnameStr fileSize fileCrc v [] (.errFileAlreadyWriting, lfsErrOk, none) v
  | fsSizeFailed {n : Int} (h : v.isWritingFile = false) (hn : n < 0) :
      StartPath cfg fnameStr fileSize fileCrc v [called .fsSize n] (.errGetFsSize, n, none)
        v.cleaned
  | noSpace {n : Int} (h : v.isWritingFile = false) (hn : ¬n < 0)
      (hspace : n + cfg.numBlocksNeeded fileSize > cfg.numBlocks) :
      StartPath cfg fnameStr fileSize fileCrc v [called .fsSize n]
        (.errNotEnoughSpace, lfsErrOk, some (cfg.numBlocks - n - cfg.numBlocksNeeded fileSize))
        v.cleaned
  | openFailed {n o : Int} (h : v.isWritingFile = false) (hn : ¬n < 0)
      (hspace : ¬n + cfg.numBlocksNeeded fileSize > cfg.numBlocks) (ho : o < 0) :
      StartPath cfg fnameStr fileSize fileCrc v
        [called .fsSize n,
          called (.fileOpencfg .startFileWrite (v.named fnameStr).path .creatWronlyTrunc) o]
        (.errOpenFile, o, some (cfg.numBlocks - n - cfg.numBlocksNeeded fileSize))
        (v.named fnameStr)
  | setattrFailed {n o a c : Int} (h : v.isWritingFile = false) (hn : ¬n < 0)
      (hspace : ¬n + cfg.numBlocksNeeded fileSize > cfg.numBlocks) (ho : ¬o < 0) (ha : a < 0) :
      StartPath cfg fnameStr fileSize fileCrc v
        [called .fsSize n,
          called (.fileOpencfg .startFileWrite (v.named fnameStr).path .creatWronlyTrunc) o,
          called (.setattr (v.named fnameStr).path fileCrc) a,
          called (.fileClose .startFileWrite) c]
        (.errSetCrcAttr, a, some (cfg.numBlocks - n - cfg.numBlocksNeeded fileSize))
        (v.named fnameStr)
  | closeFailed {n o a c : Int} (h : v.isWritingFile = false) (hn : ¬n < 0)
      (hspace : ¬n + cfg.numBlocksNeeded fileSize > cfg.numBlocks) (ho : ¬o < 0) (ha : ¬a < 0)
      (hc : c < 0) :
      StartPath cfg fnameStr fileSize fileCrc v
        [called .fsSize n,
          called (.fileOpencfg .startFileWrite (v.named fnameStr).path .creatWronlyTrunc) o,
          called (.setattr (v.named fnameStr).path fileCrc) a,
          called (.fileClose .startFileWrite) c]
        (.errCloseFile, c, some (cfg.numBlocks - n - cfg.numBlocksNeeded fileSize))
        (v.named fnameStr)
  | started {n o a c : Int} (h : v.isWritingFile = false) (hn : ¬n < 0)
      (hspace : ¬n + cfg.numBlocksNeeded fileSize > cfg.numBlocks) (ho : ¬o < 0) (ha : ¬a < 0)
      (hc : ¬c < 0) :
      StartPath cfg fnameStr fileSize fileCrc v
        [called .fsSize n,
          called (.fileOpencfg .startFileWrite (v.named fnameStr).path .creatWronlyTrunc) o,
          called (.setattr (v.named fnameStr).path fileCrc) a,
          called (.fileClose .startFileWrite) c]
        (.ok, lfsErrOk, some (cfg.numBlocks - n - cfg.numBlocksNeeded fileSize))
        ((v.named fnameStr).started fileSize fileCrc)

theorem startPath {cfg : LfsConfig} {fnameStr : FnameStr} {fileSize fileCrc : UInt32}
    {v w : FilesysVars} {t : List LfsEvent} {r : FilesysError × Int × Option Int}
    (h : (filesysStartFileWrite cfg fnameStr fileSize fileCrc).replay v t = some (r, w)) :
    StartPath cfg fnameStr fileSize fileCrc v t r w := by
  rw [filesysStartFileWrite, replay_vars_bind] at h
  split at h
  · next hwriting =>
    obtain ⟨rfl, heq⟩ := replay_pure.mp h
    cases heq
    exact .alreadyWriting hwriting
  next hwriting =>
  have hidle : v.isWritingFile = false := Bool.eq_false_of_not_eq_true hwriting
  -- from here on the calls come one by one, each with its error path
  rw [filesysClearBuffer, replay_when_modify_bind] at h
  obtain ⟨n, u₁, rfl, h₁⟩ := replay_perform_bind.mp h
  split at h₁
  · next hn =>
    obtain ⟨rfl, heq⟩ := replay_pure.mp h₁
    cases heq
    exact .fsSizeFailed hidle hn
  next hn =>
  dsimp only at h₁
  split at h₁
  · next hspace =>
    obtain ⟨rfl, heq⟩ := replay_pure.mp h₁
    cases heq
    exact .noSpace hidle hn hspace
  next hspace =>
  rw [replay_modify_bind, replay_vars_bind] at h₁
  obtain ⟨o, u₂, rfl, h₂⟩ := replay_filesysFileOpen_bind.mp h₁
  split at h₂
  · next ho =>
    obtain ⟨rfl, heq⟩ := replay_pure.mp h₂
    cases heq
    rw [errorCode_neg] at ho
    rw [errorCode_of_neg ho]
    exact .openFailed hidle hn hspace ho
  next ho =>
  rw [errorCode_neg] at ho
  obtain ⟨a, u₃, rfl, h₃⟩ := replay_perform_bind.mp h₂
  split at h₃
  · next ha =>
    -- the code of this close is not looked at
    obtain ⟨c, u₄, rfl, h₄⟩ := replay_filesysFileClose_bind.mp h₃
    obtain ⟨rfl, heq⟩ := replay_pure.mp h₄
    cases heq
    exact .setattrFailed hidle hn hspace ho ha
  next ha =>
  obtain ⟨c, u₄, rfl, h₄⟩ := replay_filesysFileClose_bind.mp h₃
  split at h₄
  · next hc =>
    obtain ⟨rfl, heq⟩ := replay_pure.mp h₄
    cases heq
    rw [errorCode_neg] at hc
    rw [errorCode_of_neg hc]
    exact .closeFailed hidle hn hspace ho ha hc
  · next hc =>
    rw [errorCode_neg] at hc
    rw [replay_modify_bind] at h₄
    obtain ⟨rfl, heq⟩ := replay_pure.mp h₄
    cases heq
    exact .started hidle hn hspace ho ha hc

/-! ## The buffer -/

/-- `filesys_write_data_to_buffer`. -/
inductive WriteDataPath (data : Mem) (nBytes offset : UInt16) (v : FilesysVars) :
    List LfsEvent → FilesysError × Int → FilesysVars → Prop where
  | exceeds (h : offset.toNat + nBytes.toNat > filesysBufferSize) :
      WriteDataPath data nBytes offset v [] (.errExceedBuffer, lfsErrOk) v
  | noFile (h : ¬offset.toNat + nBytes.toNat > filesysBufferSize)
      (hidle : v.isWritingFile = false) :
      WriteDataPath data nBytes offset v [] (.errNoFileWriting, lfsErrOk) v
  | written (h : ¬offset.toNat + nBytes.toNat > filesysBufferSize)
      (hwriting : v.isWritingFile = true) :
      WriteDataPath data nBytes offset v [] (.ok, lfsErrOk) (v.written data nBytes offset)

theorem writeDataPath {data : Mem} {nBytes offset : UInt16} {v w : FilesysVars}
    {t : List LfsEvent} {r : FilesysError × Int}
    (h : (filesysWriteDataToBuffer data nBytes offset).replay v t = some (r, w)) :
    WriteDataPath data nBytes offset v t r w := by
  rw [filesysWriteDataToBuffer] at h
  split at h
  · next hexceeds =>
    obtain ⟨rfl, heq⟩ := replay_pure.mp h
    cases heq
    exact .exceeds hexceeds
  next hexceeds =>
  rw [replay_vars_bind] at h
  split at h
  · next hidle =>
    obtain ⟨rfl, heq⟩ := replay_pure.mp h
    cases heq
    exact .noFile hexceeds hidle
  · next hwriting =>
    rw [replay_modify_bind] at h
    obtain ⟨rfl, heq⟩ := replay_pure.mp h
    cases heq
    exact .written hexceeds (Bool.eq_true_of_not_eq_false hwriting)

/-- The variables behind a successful `filesys_cancel_file_write`. -/
def FilesysVars.cancelled (v : FilesysVars) : FilesysVars :=
  { v.clearBuffer with isWritingFile := false }

/-- `filesys_cancel_file_write`. -/
inductive CancelPath (v : FilesysVars) :
    List LfsEvent → FilesysError × Int → FilesysVars → Prop where
  | noFile (h : v.isWritingFile = false) : CancelPath v [] (.errNoFileWriting, lfsErrOk) v
  | removeFailed {err : Int} (h : v.isWritingFile = true) (herr : err < 0) :
      CancelPath v [called (.remove v.path) err] (.errDeleteFile, err) v
  | cancelled {err : Int} (h : v.isWritingFile = true) (herr : ¬err < 0) :
      CancelPath v [called (.remove v.path) err] (.ok, lfsErrOk) v.cancelled

theorem cancelPath {v w : FilesysVars} {t : List LfsEvent} {r : FilesysError × Int}
    (h : filesysCancelFileWrite.replay v t = some (r, w)) : CancelPath v t r w := by
  rw [filesysCancelFileWrite, replay_vars_bind] at h
  split at h
  · next hidle =>
    obtain ⟨rfl, heq⟩ := replay_pure.mp h
    cases heq
    exact .noFile hidle
  next hwriting =>
  have hwriting := Bool.eq_true_of_not_eq_false hwriting
  obtain ⟨err, u, rfl, h₁⟩ := replay_perform_bind.mp h
  split at h₁
  · next herr =>
    obtain ⟨rfl, heq⟩ := replay_pure.mp h₁
    cases heq
    exact .removeFailed hwriting herr
  · next herr =>
    rw [replay_clearBuffer_bind, replay_modify_bind] at h₁
    obtain ⟨rfl, heq⟩ := replay_pure.mp h₁
    cases heq
    exact .cancelled hwriting herr

/-- `filesys_write_buffer_to_mram`. -/
inductive FlushPath (nBytes : UInt16) (v : FilesysVars) :
    List LfsEvent → FilesysError × Int → FilesysVars → Prop where
  | noFile (h : v.isWritingFile = false) : FlushPath nBytes v [] (.errNoFileWriting, lfsErrOk) v
  | clean (h : v.isWritingFile = true) (hdirty : v.bufferIsDirty = false) :
      FlushPath nBytes v [] (.ok, lfsErrOk) v
  | openFailed {o : Int} (h : v.isWritingFile = true) (hdirty : v.bufferIsDirty = true)
      (ho : o < 0) :
      FlushPath nBytes v [called (.fileOpencfg .writeBufferToMram v.path .wronlyAppend) o]
        (.errOpenFile, o) v
  | writeFailed {o b s n : Int} {t : List LfsEvent} {r : FilesysError × Int} {w : FilesysVars}
      (h : v.isWritingFile = true) (hdirty : v.bufferIsDirty = true) (ho : ¬o < 0) (hb : b < 0)
      (hcancel : CancelPath v t r w) :
      FlushPath nBytes v
        (called (.fileOpencfg .writeBufferToMram v.path .wronlyAppend) o ::
          called (.fileWrite .writeBufferToMram (read v.buffer 0 nBytes.toNat)) b ::
          called (.fileSize .writeBufferToMram) s :: called .fsSize n :: t)
        (.errWriteMram, b) w
  | closeFailed {o b c : Int} (h : v.isWritingFile = true) (hdirty : v.bufferIsDirty = true)
      (ho : ¬o < 0) (hb : ¬b < 0) (hc : c < 0) :
      FlushPath nBytes v
        [called (.fileOpencfg .writeBufferToMram v.path .wronlyAppend) o,
          called (.fileWrite .writeBufferToMram (read v.buffer 0 nBytes.toNat)) b,
          called (.fileClose .writeBufferToMram) c]
        (.errCloseFile, c) v
  | flushed {o b c : Int} (h : v.isWritingFile = true) (hdirty : v.bufferIsDirty = true)
      (ho : ¬o < 0) (hb : ¬b < 0) (hc : ¬c < 0) :
      FlushPath nBytes v
        [called (.fileOpencfg .writeBufferToMram v.path .wronlyAppend) o,
          called (.fileWrite .writeBufferToMram (read v.buffer 0 nBytes.toNat)) b,
          called (.fileClose .writeBufferToMram) c]
        (.ok, lfsErrOk) v.clearBuffer

theorem flushPath {nBytes : UInt16} {v w : FilesysVars} {t : List LfsEvent}
    {r : FilesysError × Int}
    (h : (filesysWriteBufferToMram nBytes).replay v t = some (r, w)) :
    FlushPath nBytes v t r w := by
  rw [filesysWriteBufferToMram, replay_vars_bind] at h
  split at h
  · next hidle =>
    obtain ⟨rfl, heq⟩ := replay_pure.mp h
    cases heq
    exact .noFile hidle
  next hwriting =>
  have hwriting := Bool.eq_true_of_not_eq_false hwriting
  split at h
  · next hclean =>
    obtain ⟨rfl, heq⟩ := replay_pure.mp h
    cases heq
    exact .clean hwriting hclean
  next hdirty =>
  have hdirty := Bool.eq_true_of_not_eq_false hdirty
  obtain ⟨o, u₁, rfl, h₁⟩ := replay_filesysFileOpen_bind.mp h
  split at h₁
  · next ho =>
    obtain ⟨rfl, heq⟩ := replay_pure.mp h₁
    cases heq
    rw [errorCode_neg] at ho
    rw [errorCode_of_neg ho]
    exact .openFailed hwriting hdirty ho
  next ho =>
  rw [errorCode_neg] at ho
  obtain ⟨b, u₂, rfl, h₂⟩ := replay_perform_bind.mp h₁
  split at h₂
  · next hb =>
    -- size and space for the log, and then the cancel; the file is not closed
    obtain ⟨s, u₃, rfl, h₃⟩ := replay_perform_bind.mp h₂
    obtain ⟨n, u₄, rfl, h₄⟩ := replay_perform_bind.mp h₃
    obtain ⟨u₅, u₆, r', w', rfl, h₅, h₆⟩ := replay_bind.mp h₄
    obtain ⟨rfl, heq⟩ := replay_pure.mp h₆
    cases heq
    rw [List.append_nil]
    exact .writeFailed hwriting hdirty ho hb (cancelPath h₅)
  next hb =>
  obtain ⟨c, u₃, rfl, h₃⟩ := replay_filesysFileClose_bind.mp h₂
  split at h₃
  · next hc =>
    obtain ⟨rfl, heq⟩ := replay_pure.mp h₃
    cases heq
    rw [errorCode_neg] at hc
    rw [errorCode_of_neg hc]
    exact .closeFailed hwriting hdirty ho hb hc
  · next hc =>
    rw [errorCode_neg] at hc
    rw [replay_clearBuffer_bind] at h₃
    obtain ⟨rfl, heq⟩ := replay_pure.mp h₃
    cases heq
    exact .flushed hwriting hdirty ho hb hc

/-! ## Checking and reading -/

/-- The program leaves the variables alone and makes only calls that inspect. -/
abbrev Inspects {α : Type} (x : Filesys α) : Prop := x.ReadOnly fun c => LfsCall.inspects c = true

theorem filesysFileOpen_inspects (file : FileRef) (fname : List UInt8) :
    Inspects (filesysFileOpen file fname .rdonly) :=
  .perform_bind rfl fun _ => .pure _

theorem filesysFileClose_inspects (file : FileRef) : Inspects (filesysFileClose file) :=
  .perform_bind rfl fun _ => .pure _

theorem computeFileCrcFinish_inspects (crc : UInt32) : Inspects (computeFileCrcFinish crc) :=
  .bind (filesysFileClose_inspects _) fun _ => .ite (fun _ => .pure _) fun _ => .pure _

/-- Induction on the rounds. -/
theorem computeFileCrcLoop_inspects (rounds : Nat) (bytesRemaining crc : UInt32) :
    Inspects (computeFileCrcLoop rounds bytesRemaining crc) := by
  induction rounds generalizing bytesRemaining crc with
  | zero => exact computeFileCrcFinish_inspects crc
  | succ rounds ih =>
    refine .ite (fun _ => computeFileCrcFinish_inspects crc) fun _ => ?_
    refine .perform_bind rfl fun result => ?_
    refine .ite (fun _ => .bind (filesysFileClose_inspects _) fun _ => .pure _) fun _ => ?_
    refine .ite (fun _ => .bind (filesysFileClose_inspects _) fun _ => .pure _) fun _ => ?_
    exact ih _ _

theorem filesysComputeFileCrc_inspects (fname : List UInt8) (fileSize : UInt32) :
    Inspects (filesysComputeFileCrc fname fileSize) :=
  .bind (filesysFileOpen_inspects _ _) fun _ =>
    .ite (fun _ => .pure _) fun _ => computeFileCrcLoop_inspects _ _ _

theorem filesysComputeCrc_inspects : Inspects filesysComputeCrc :=
  .vars_bind fun _ => .ite (fun _ => .pure _) fun _ => filesysComputeFileCrc_inspects _ _

theorem filesysIsCrcCorrect_inspects : Inspects filesysIsCrcCorrect :=
  .vars_bind fun _ => .ite (fun _ => .pure _) fun _ => .bind filesysComputeCrc_inspects fun _ =>
    .ite (fun _ => .pure _) fun _ => .ite (fun _ => .pure _) fun _ => .pure _

theorem filesysGetFileInfo_inspects (fname : List UInt8) : Inspects (filesysGetFileInfo fname) := by
  refine .bind (filesysFileOpen_inspects _ _) fun _ => .ite (fun _ => .pure _) fun _ => ?_
  refine .perform_bind rfl fun _ => .ite (fun _ => ?_) fun _ => ?_
  · exact .bind (filesysFileClose_inspects _) fun _ => .pure _
  refine .bind (filesysFileClose_inspects _) fun _ => .ite (fun _ => .pure _) fun _ => ?_
  exact .perform_bind rfl fun _ => .bind (filesysComputeFileCrc_inspects _ _) fun _ => .pure _

/-- Induction on the rounds. -/
theorem listFilesLoop_inspects (maxFiles : UInt16) (rounds : Nat) (fileList : List FileInfo) :
    Inspects (listFilesLoop maxFiles rounds fileList) := by
  induction rounds generalizing fileList with
  | zero => exact .pure _
  | succ rounds ih =>
    refine .perform_bind rfl fun entry => ?_
    refine .ite (fun _ => .pure _) fun _ => .ite (fun _ => .pure _) fun _ => ?_
    refine .ite (fun _ => ih _) fun _ => .ite (fun _ => .pure _) fun _ => ?_
    exact .bind (filesysGetFileInfo_inspects _) fun _ => ih _

theorem filesysListFiles_inspects (maxFiles : UInt16) : Inspects (filesysListFiles maxFiles) := by
  refine .perform_bind rfl fun _ => .ite (fun _ => .pure _) fun _ => ?_
  refine .bind (listFilesLoop_inspects _ _ _) fun (fileList, failed) => ?_
  cases failed with
  | some res => exact .perform_bind rfl fun _ => .pure _
  | none => exact .perform_bind rfl fun _ => .ite (fun _ => .pure _) fun _ => .pure _

theorem filesysOpenFileRead_inspects (file : FileRef) (fname : List UInt8) :
    Inspects (filesysOpenFileRead file fname) := by
  refine .bind (filesysGetFileInfo_inspects _) fun _ => .ite (fun _ => .pure _) fun _ => ?_
  refine .ite (fun _ => .pure _) fun _ => .ite (fun _ => .pure _) fun _ => ?_
  refine .ite (fun _ => .pure _) fun _ => .bind (filesysFileOpen_inspects _ _) fun _ => ?_
  exact .ite (fun _ => .pure _) fun _ => .pure _

theorem filesysReadData_inspects (file : FileRef) (size : UInt32) :
    Inspects (filesysReadData file size) :=
  .perform_bind rfl fun _ => .ite (fun _ => .pure _) fun _ => .pure _

theorem reportPosition_inspects {onError : FilesysError} {query : Filesys Int}
    (h : Inspects query) : Inspects (reportPosition onError query) :=
  .bind h fun _ => .ite (fun _ => .pure _) fun _ => .pure _

theorem filesysCloseFileRead_inspects (file : FileRef) : Inspects (filesysCloseFileRead file) :=
  .perform_bind rfl fun _ => .ite (fun _ => .pure _) fun _ => .pure _

/-- `filesys_complete_file_write`; the check before the assignment calls littlefs as
`filesys_is_crc_correct` does. -/
inductive CompletePath (v : FilesysVars) :
    List LfsEvent → FilesysError × Int → FilesysVars → Prop where
  | dirty (h : v.bufferIsDirty = true) : CompletePath v [] (.errBufferDirty, lfsErrOk) v
  | rejected {t : List LfsEvent} {r : FilesysError × Int} (h : v.bufferIsDirty = false)
      (hcheck : filesysIsCrcCorrect.replay v t = some (r, v)) (hr : r.1 ≠ .ok) :
      CompletePath v t r v
  | completed {t : List LfsEvent} {code : Int} (h : v.bufferIsDirty = false)
      (hcheck : filesysIsCrcCorrect.replay v t = some ((.ok, code), v)) :
      CompletePath v t (.ok, code) { v with isWritingFile := false }

theorem completePath {v w : FilesysVars} {t : List LfsEvent} {r : FilesysError × Int}
    (h : filesysCompleteFileWrite.replay v t = some (r, w)) : CompletePath v t r w := by
  rw [filesysCompleteFileWrite, replay_vars_bind] at h
  split at h
  · next hdirty =>
    obtain ⟨rfl, heq⟩ := replay_pure.mp h
    cases heq
    exact .dirty hdirty
  next hclean =>
  have hclean := Bool.eq_false_of_not_eq_true hclean
  obtain ⟨u₁, u₂, ⟨crcCheck, code⟩, v', rfl, h₁, h₂⟩ := replay_bind.mp h
  -- the check changes no variable
  obtain ⟨rfl, _⟩ := filesysIsCrcCorrect_inspects _ _ _ _ h₁
  dsimp only at h₂
  split at h₂
  · next hcheck =>
    obtain ⟨rfl, heq⟩ := replay_pure.mp h₂
    cases heq
    rw [List.append_nil]
    exact .rejected hclean h₁ hcheck
  · next hcheck =>
    rw [replay_modify_bind] at h₂
    obtain ⟨rfl, heq⟩ := replay_pure.mp h₂
    cases heq
    rw [List.append_nil]
    rw [not_not] at hcheck
    rw [hcheck] at h₁
    exact .completed hclean h₁

/-! ## Operations -/

/-- The operations that check, list or read. -/
def FilesysOp.inspects : FilesysOp → Bool
  | .computeCrc | .isCrcCorrect | .listFiles _ | .getFileInfo _ | .openFileRead _ _
  | .readData _ _ | .readFileSeek _ _ _ | .readFileTell _ | .readFileSize _
  | .closeFileRead _ => true
  | _ => false

theorem FilesysOp.prog_inspects (cfg : LfsConfig) {op : FilesysOp} (h : op.inspects = true) :
    Inspects (op.prog cfg) := by
  cases op with
  | computeCrc => exact .bind filesysComputeCrc_inspects fun _ => .pure _
  | isCrcCorrect => exact .bind filesysIsCrcCorrect_inspects fun _ => .pure _
  | listFiles maxFiles => exact .bind (filesysListFiles_inspects _) fun _ => .pure _
  | getFileInfo fname => exact .bind (filesysGetFileInfo_inspects _) fun _ => .pure _
  | openFileRead file fname => exact .bind (filesysOpenFileRead_inspects _ _) fun _ => .pure _
  | readData file size => exact .bind (filesysReadData_inspects _ _) fun _ => .pure _
  | readFileSeek file offset whence =>
    exact .bind (reportPosition_inspects (.perform_bind rfl fun _ => .pure _)) fun _ => .pure _
  | readFileTell file =>
    exact .bind (reportPosition_inspects (.perform_bind rfl fun _ => .pure _)) fun _ => .pure _
  | readFileSize file =>
    exact .bind (reportPosition_inspects (.perform_bind rfl fun _ => .pure _)) fun _ => .pure _
  | closeFileRead file => exact .bind (filesysCloseFileRead_inspects _) fun _ => .pure _
  | _ => simp [inspects] at h

/-- **What an operation can do**: the paths of the function it calls. -/
inductive OpPath (cfg : LfsConfig) (v : FilesysVars) :
    FilesysOp → List LfsEvent → OpResult → FilesysVars → Prop where
  | init {t : List LfsEvent} {e : FilesysError} {c : Int} {w : FilesysVars}
      (h : InitPath v t (e, c) w) :
      OpPath cfg v .init t { error := e, lfsErrorCode := c } w
  | reformatInit {t : List LfsEvent} {e : FilesysError} {c : Int} {w : FilesysVars}
      (h : ReformatPath v t (e, c) w) :
      OpPath cfg v .reformatInit t { error := e, lfsErrorCode := c } w
  | startFileWrite {fnameStr : FnameStr} {fileSize fileCrc : UInt32} {t : List LfsEvent}
      {e : FilesysError} {c : Int} {blocksLeft : Option Int} {w : FilesysVars}
      (h : StartPath cfg fnameStr fileSize fileCrc v t (e, c, blocksLeft) w) :
      OpPath cfg v (.startFileWrite fnameStr fileSize fileCrc) t
        { error := e, lfsErrorCode := c, blocksLeft } w
  | writeDataToBuffer {data : Mem} {nBytes offset : UInt16} {t : List LfsEvent}
      {e : FilesysError} {c : Int} {w : FilesysVars}
      (h : WriteDataPath data nBytes offset v t (e, c) w) :
      OpPath cfg v (.writeDataToBuffer data nBytes offset) t { error := e, lfsErrorCode := c } w
  | writeBufferToMram {nBytes : UInt16} {t : List LfsEvent} {e : FilesysError} {c : Int}
      {w : FilesysVars} (h : FlushPath nBytes v t (e, c) w) :
      OpPath cfg v (.writeBufferToMram nBytes) t { error := e, lfsErrorCode := c } w
  | completeFileWrite {t : List LfsEvent} {e : FilesysError} {c : Int} {w : FilesysVars}
      (h : CompletePath v t (e, c) w) :
      OpPath cfg v .completeFileWrite t { error := e, lfsErrorCode := c } w
  | clearBuffer : OpPath cfg v .clearBuffer [] { error := .ok, lfsErrorCode := lfsErrOk }
      v.clearBuffer
  | cancelFileWrite {t : List LfsEvent} {e : FilesysError} {c : Int} {w : FilesysVars}
      (h : CancelPath v t (e, c) w) :
      OpPath cfg v .cancelFileWrite t { error := e, lfsErrorCode := c } w
  | inspect {op : FilesysOp} {t : List LfsEvent} {r : OpResult} (hop : op.inspects = true)
      (h : (op.prog cfg).replay v t = some (r, v)) : OpPath cfg v op t r v

/-- A function behind an operation, and what the operation makes of its result. -/
theorem replay_bind_pure {α : Type} {x : Filesys α} {g : α → OpResult} {v w : FilesysVars}
    {t : List LfsEvent} {r : OpResult}
    (h : (x >>= fun a => pure (g a)).replay v t = some (r, w)) :
    ∃ a, x.replay v t = some (a, w) ∧ r = g a := by
  obtain ⟨t₁, t₂, a, v', rfl, h₁, h₂⟩ := replay_bind.mp h
  obtain ⟨rfl, heq⟩ := replay_pure.mp h₂
  obtain ⟨rfl, rfl⟩ := Prod.mk.inj heq
  rw [List.append_nil]
  exact ⟨a, h₁, rfl⟩

theorem opPath {cfg : LfsConfig} {v w : FilesysVars} {op : FilesysOp} {t : List LfsEvent}
    {r : OpResult} (h : (op.prog cfg).replay v t = some (r, w)) : OpPath cfg v op t r w := by
  have inspected (hop : op.inspects = true) : OpPath cfg v op t r w := by
    obtain ⟨rfl, _⟩ := FilesysOp.prog_inspects cfg hop v t r w h
    exact .inspect hop h
  cases op with
  | init =>
    obtain ⟨⟨e, c⟩, h₁, rfl⟩ := replay_bind_pure h
    exact .init (initPath h₁)
  | reformatInit =>
    obtain ⟨⟨e, c⟩, h₁, rfl⟩ := replay_bind_pure h
    exact .reformatInit (reformatPath h₁)
  | startFileWrite fnameStr fileSize fileCrc =>
    obtain ⟨⟨e, c, blocksLeft⟩, h₁, rfl⟩ := replay_bind_pure h
    exact .startFileWrite (startPath h₁)
  | writeDataToBuffer data nBytes offset =>
    obtain ⟨⟨e, c⟩, h₁, rfl⟩ := replay_bind_pure h
    exact .writeDataToBuffer (writeDataPath h₁)
  | writeBufferToMram nBytes =>
    obtain ⟨⟨e, c⟩, h₁, rfl⟩ := replay_bind_pure h
    exact .writeBufferToMram (flushPath h₁)
  | completeFileWrite =>
    obtain ⟨⟨e, c⟩, h₁, rfl⟩ := replay_bind_pure h
    exact .completeFileWrite (completePath h₁)
  | clearBuffer =>
    obtain ⟨rfl, heq⟩ := replay_pure.mp
      (show (pure { error := .ok, lfsErrorCode := lfsErrOk } : Filesys OpResult).replay
        v.clearBuffer t = some (r, w) from h)
    obtain ⟨rfl, rfl⟩ := Prod.mk.inj heq
    exact .clearBuffer
  | cancelFileWrite =>
    obtain ⟨⟨e, c⟩, h₁, rfl⟩ := replay_bind_pure h
    exact .cancelFileWrite (cancelPath h₁)
  | _ => exact inspected rfl

end Samwise
