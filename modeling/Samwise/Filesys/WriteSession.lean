import Samwise.Filesys.Paths

/-!
# Samwise — the invariant of a write session

The dirty flag is set only while a file is being written, and a clean buffer is all zeros.
Both hold from the first successful `filesys_initialize` on, whatever the operations are and
whatever littlefs returns.
-/

namespace Samwise

open Interaction Memory Run

/-- The invariant. -/
structure WriteSession (v : FilesysVars) : Prop where
  dirty_writing : v.bufferIsDirty = true → v.isWritingFile = true
  clean_zero : v.bufferIsDirty = false → ∀ i < filesysBufferSize, v.buffer i = 0

namespace WriteSession

variable {v w : FilesysVars} {t : List LfsEvent}

theorem clearBuffer_zero (v : FilesysVars) {i : Nat} (h : i < filesysBufferSize) :
    v.clearBuffer.buffer i = 0 := by
  refine fill_of_mem (Nat.zero_le i) ?_
  rwa [Nat.zero_add]

/-- It holds behind a `filesys_clear_buffer`, whatever held before. -/
theorem clearBuffer (v : FilesysVars) : WriteSession v.clearBuffer :=
  ⟨fun h => absurd h Bool.false_ne_true, fun _ _ hi => clearBuffer_zero v hi⟩

theorem mounted (v : FilesysVars) : WriteSession v.mounted :=
  ⟨fun h => absurd h Bool.false_ne_true, fun _ _ hi => clearBuffer_zero v hi⟩

theorem cancelled (v : FilesysVars) : WriteSession v.cancelled :=
  ⟨fun h => absurd h Bool.false_ne_true, fun _ _ hi => clearBuffer_zero v hi⟩

/-- With no file being written, the defensive branch of `filesys_start_file_write` is not
taken. -/
theorem cleaned_eq (hv : WriteSession v) (h : v.isWritingFile = false) : v.cleaned = v := by
  refine if_neg fun hdirty => ?_
  exact absurd (hv.dirty_writing hdirty) (by simp [h])

theorem named (hv : WriteSession v) (h : v.isWritingFile = false) (fnameStr : FnameStr) :
    WriteSession (v.named fnameStr) := by
  rw [FilesysVars.named, hv.cleaned_eq h]
  exact ⟨hv.dirty_writing, hv.clean_zero⟩

theorem init (hv : WriteSession v) {r : FilesysError × Int} (h : InitPath v t r w) :
    WriteSession w := by
  cases h with
  | mountFailed _ => exact hv
  | noBuffer _ _ => exact hv
  | mounted _ _ => exact mounted v

theorem reformatInit (hv : WriteSession v) {r : FilesysError × Int} (h : ReformatPath v t r w) :
    WriteSession w := by
  have hunmounted : WriteSession v.unmounted := ⟨hv.dirty_writing, hv.clean_zero⟩
  cases h with
  | formatFailed _ => exact hunmounted
  | formatted _ hinit => exact hunmounted.init hinit

theorem startFileWrite (hv : WriteSession v) {cfg : LfsConfig} {fnameStr : FnameStr}
    {fileSize fileCrc : UInt32} {r : FilesysError × Int × Option Int}
    (h : StartPath cfg fnameStr fileSize fileCrc v t r w) : WriteSession w := by
  cases h with
  | alreadyWriting _ => exact hv
  | fsSizeFailed hidle _ => rwa [hv.cleaned_eq hidle]
  | noSpace hidle _ _ => rwa [hv.cleaned_eq hidle]
  | openFailed hidle _ _ _ => exact hv.named hidle fnameStr
  | setattrFailed hidle _ _ _ _ => exact hv.named hidle fnameStr
  | closeFailed hidle _ _ _ _ _ => exact hv.named hidle fnameStr
  | started hidle _ _ _ _ _ =>
    have hclean : v.bufferIsDirty = false := by
      refine Bool.eq_false_of_not_eq_true fun hdirty => ?_
      exact absurd (hv.dirty_writing hdirty) (by simp [hidle])
    refine ⟨fun _ => rfl, fun _ i hi => ?_⟩
    have hbuffer : ((v.named fnameStr).started fileSize fileCrc).buffer = v.buffer := by
      rw [FilesysVars.named, hv.cleaned_eq hidle]
      rfl
    rw [hbuffer]
    exact hv.clean_zero hclean i hi

theorem writeDataToBuffer (hv : WriteSession v) {data : Mem} {nBytes offset : UInt16}
    {r : FilesysError × Int} (h : WriteDataPath data nBytes offset v t r w) : WriteSession w := by
  cases h with
  | exceeds _ => exact hv
  | noFile _ _ => exact hv
  | written _ hwriting => exact ⟨fun _ => hwriting, fun h => absurd h.symm Bool.false_ne_true⟩

theorem cancelFileWrite (hv : WriteSession v) {r : FilesysError × Int} (h : CancelPath v t r w) :
    WriteSession w := by
  cases h with
  | noFile _ => exact hv
  | removeFailed _ _ => exact hv
  | cancelled _ _ => exact cancelled v

theorem writeBufferToMram (hv : WriteSession v) {nBytes : UInt16} {r : FilesysError × Int}
    (h : FlushPath nBytes v t r w) : WriteSession w := by
  cases h with
  | noFile _ => exact hv
  | clean _ _ => exact hv
  | openFailed _ _ _ => exact hv
  | writeFailed _ _ _ _ hcancel => exact hv.cancelFileWrite hcancel
  | closeFailed _ _ _ _ _ => exact hv
  | flushed _ _ _ _ _ => exact clearBuffer v

theorem completeFileWrite (hv : WriteSession v) {r : FilesysError × Int}
    (h : CompletePath v t r w) : WriteSession w := by
  cases h with
  | dirty _ => exact hv
  | rejected _ _ _ => exact hv
  | completed hclean _ =>
    exact ⟨fun hdirty => absurd (hclean.symm.trans hdirty) Bool.false_ne_true, hv.clean_zero⟩

/-- **Every operation keeps the invariant**, on every path. -/
theorem step (hv : WriteSession v) {cfg : LfsConfig} {op : FilesysOp} {r : OpResult}
    (h : OpPath cfg v op t r w) : WriteSession w := by
  cases h with
  | init h => exact hv.init h
  | reformatInit h => exact hv.reformatInit h
  | startFileWrite h => exact hv.startFileWrite h
  | writeDataToBuffer h => exact hv.writeDataToBuffer h
  | writeBufferToMram h => exact hv.writeBufferToMram h
  | completeFileWrite h => exact hv.completeFileWrite h
  | clearBuffer => exact clearBuffer v
  | cancelFileWrite h => exact hv.cancelFileWrite h
  | inspect _ _ => exact hv

end WriteSession

/-- A successful `filesys_initialize` sets the invariant up. -/
theorem writeSession_of_init {v w : FilesysVars} {t : List LfsEvent} {r : FilesysError × Int}
    (h : InitPath v t r w) (hok : r.1 = .ok) : WriteSession w := by
  cases h with
  | mountFailed _ => cases hok
  | noBuffer _ _ => cases hok
  | mounted _ _ => exact .mounted v

section Runs

variable {σ : Type} (respond : σ → LfsEvent → Option σ) (cfg : LfsConfig)

/-- A run keeps the invariant. -/
theorem writeSession_run {s s' : FilesysState σ} {es : List FilesysEvent}
    (hrun : run (filesysStep respond cfg) s es = some s') (hs : WriteSession s.vars) :
    WriteSession s'.vars := by
  refine invariant' (filesysStep respond cfg) (I := fun s => WriteSession s.vars) ?_ hrun hs
  intro s e s' hs h
  exact hs.step (opPath ((filesysStep_eq_some respond cfg).mp h).1)

/-- A run that begins with a successful `filesys_initialize` has it. -/
theorem writeSession_of_run {s s' : FilesysState σ} {e : FilesysEvent} {es : List FilesysEvent}
    (hop : e.op = .init) (hok : e.result.error = .ok)
    (hrun : run (filesysStep respond cfg) s (e :: es) = some s') : WriteSession s'.vars := by
  obtain ⟨s₁, hfirst, hrest⟩ := run_cons_some _ hrun
  obtain ⟨hreplay, _⟩ := (filesysStep_eq_some respond cfg).mp hfirst
  obtain ⟨op, t, r⟩ := e
  obtain ⟨v, l⟩ := s
  obtain ⟨v₁, l₁⟩ := s₁
  obtain rfl : op = .init := hop
  cases opPath hreplay with
  | init h => exact writeSession_run respond cfg hrest (writeSession_of_init h hok)
  | inspect hop _ => simp [FilesysOp.inspects] at hop

/-- **The write-session invariant.** In every run that begins with a successful
`filesys_initialize`, with any operations and any littlefs: a dirty buffer belongs to a file
being written, a clean one is all zeros, and so the defensive branch of
`filesys_start_file_write`, for a dirty buffer without a file, is never reached. -/
theorem write_session_invariant (s s' : FilesysState σ) (e : FilesysEvent)
    (es : List FilesysEvent) (hop : e.op = .init) (hok : e.result.error = .ok)
    (hrun : run (filesysStep respond cfg) s (e :: es) = some s') :
    (s'.vars.bufferIsDirty = true → s'.vars.isWritingFile = true) ∧
    (s'.vars.bufferIsDirty = false → ∀ i < filesysBufferSize, s'.vars.buffer i = 0) ∧
    ¬(s'.vars.isWritingFile = false ∧ s'.vars.bufferIsDirty = true) := by
  have hs := writeSession_of_run respond cfg hop hok hrun
  refine ⟨hs.dirty_writing, hs.clean_zero, fun ⟨hidle, hdirty⟩ => ?_⟩
  exact absurd (hs.dirty_writing hdirty) (by simp [hidle])

end Runs

/-- The invariant, behind a flush whose write and whose cancel both fail. -/
theorem write_session_invariant_failed_flush :
    ∃ s : FilesysState Unit,
      run (filesysStep anyLfs mramConfig) ⟨.atBoot, ()⟩
        [sampleInit, sampleStart 2 0, sampleWrite, sampleFailedFlush (-5)] = some s ∧
      (s.vars.bufferIsDirty = true → s.vars.isWritingFile = true) ∧
      (s.vars.bufferIsDirty = false → ∀ i < filesysBufferSize, s.vars.buffer i = 0) ∧
      ¬(s.vars.isWritingFile = false ∧ s.vars.bufferIsDirty = true) :=
  ⟨_, rfl, write_session_invariant anyLfs mramConfig ⟨.atBoot, ()⟩ _ sampleInit
    [sampleStart 2 0, sampleWrite, sampleFailedFlush (-5)] rfl rfl rfl⟩

end Samwise
