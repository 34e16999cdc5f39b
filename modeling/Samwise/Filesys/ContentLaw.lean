import Samwise.Filesys.FileStore
import Samwise.Filesys.WriteSession

/-!
# Samwise — the content law of the buffered writer

Over a store of files, the buffered writer refines a list of bytes: `Writer` says, from the
operations and their results alone, what has been flushed since the start and what the
buffer holds. The refinement relation is `Session`; every operation keeps it, on every path
and with every pattern of littlefs failures, and a run therefore ends with the file that the
list of bytes describes.
-/

namespace Samwise

open Interaction Memory Run

/-! ## The abstract writer -/

/-- A file as it was started, what was flushed into it since, and the bytes written since the
last flush, over zeros. -/
structure Writer where
  fnameStr : FnameStr
  fileSize : UInt32
  fileCrc : UInt32
  content : List UInt8 := []
  overlay : Mem := fun _ => 0
  dirty : Bool := false

/-- The writer before the first start. -/
def Writer.idle : Writer := { fnameStr := .replicate 3 0, fileSize := 0, fileCrc := 0 }

/-- The path of the file. -/
def Writer.path (w : Writer) : List UInt8 := cString w.fnameStr.toList

/-- Nothing is left in the buffer. -/
def Writer.cleared (w : Writer) : Writer := { w with overlay := fun _ => 0, dirty := false }

/-- An accepted `filesys_write_data_to_buffer`. -/
def Writer.written (w : Writer) (data : Mem) (nBytes offset : UInt16) : Writer :=
  { w with
    overlay := write w.overlay offset.toNat (read data 0 nBytes.toNat)
    dirty := true }

/-- A successful `filesys_write_buffer_to_mram`: the first bytes of a dirty buffer are
appended, a clean one is left alone. -/
def Writer.flushed (w : Writer) (nBytes : UInt16) : Writer :=
  if w.dirty = true then
    { w.cleared with content := w.content ++ read w.overlay 0 nBytes.toNat }
  else w

/-- The writer behind an operation that is accepted. -/
def Writer.accepted (w : Writer) : FilesysOp → Writer
  | .startFileWrite fnameStr fileSize fileCrc => { fnameStr, fileSize, fileCrc }
  | .writeDataToBuffer data nBytes offset => w.written data nBytes offset
  | .writeBufferToMram nBytes => w.flushed nBytes
  | .clearBuffer => w.cleared
  | _ => w

/-- The writer behind an operation. One that is rejected contributes nothing. -/
def Writer.after (w : Writer) (e : FilesysEvent) : Writer :=
  if e.result.error ≠ .ok then w else w.accepted e.op

theorem Writer.after_eq_self {w : Writer} {e : FilesysEvent} (h : w.accepted e.op = w) :
    w.after e = w := by
  unfold Writer.after
  split
  · rfl
  · exact h

/-! ## A write session's calls on the store -/

namespace FileStore

variable {resolve : List UInt8 → List UInt8} {s s' : FileStore}

theorem openFile_append {file : FileRef} {path : List UInt8}
    (h : s.openFile file path .wronlyAppend = some s') :
    ∃ e, s.files path = some e ∧
      s' = s.withHandle file { path, flags := .wronlyAppend, content := e.content } := by
  unfold openFile at h
  cases hfile : s.files path with
  | none => simp [hfile] at h
  | some e =>
    rw [hfile] at h
    exact ⟨e, rfl, (Option.some.inj h).symm⟩

/-- Opening an object that truncates: a file that was not there is made anew, one that was is
to be truncated by the close. -/
theorem openFile_trunc {file : FileRef} {path : List UInt8}
    (h : s.openFile file path .creatWronlyTrunc = some s') :
    s'.files = Function.update s.files path (some ((s.files path).getD ⟨[], none⟩)) ∧
      s'.handles = Function.update s.handles file (some
        { path, flags := .creatWronlyTrunc, content := [], dirty := (s.files path).isSome }) := by
  unfold openFile at h
  cases hfile : s.files path with
  | none =>
    rw [hfile] at h
    obtain rfl := Option.some.inj h
    exact ⟨rfl, rfl⟩
  | some e =>
    rw [hfile] at h
    obtain rfl := Option.some.inj h
    refine ⟨?_, rfl⟩
    show s.files = _
    rw [Option.getD_some, ← hfile, Function.update_eq_self]

/-- Closing an object that was not removed and had no error. -/
theorem closeFile_own {file : FileRef} {o : OpenFile} {err : Int}
    (ho : s.handles file = some o) (herrored : o.errored = false) (hlinked : o.linked = true)
    (h : s.closeFile file err = some s') :
    s'.handles = Function.update s.handles file none ∧
      s'.files = if err < 0 ∨ o.dirty = false then s.files
        else Function.update s.files o.path
          ((s.files o.path).map fun e => { e with content := o.content }) := by
  unfold closeFile at h
  rw [ho] at h
  simp only [herrored, hlinked, Bool.false_eq_true, Bool.true_eq_false, or_false, false_or] at h
  split at h
  · next hquiet =>
    obtain rfl := Option.some.inj h
    exact ⟨rfl, (if_pos hquiet).symm⟩
  · next hcommit =>
    obtain rfl := Option.some.inj h
    exact ⟨rfl, (if_neg hcommit).symm⟩

/-- A write through an object that appends. -/
theorem writeFile_append {file : FileRef} {path content data : List UInt8} {n : Int}
    (ho : s.handles file = some { path, flags := .wronlyAppend, content })
    (h : s.writeFile file data n = some s') :
    ∃ o, s' = s.withHandle file o ∧ o.path = path ∧ o.linked = true ∧
      (if n < 0 then o.dirty = false
        else o.content = content ++ data ∧ o.content.length ≤ lfsFileMax ∧ o.dirty = true ∧
          o.errored = false) := by
  unfold writeFile at h
  rw [ho] at h
  simp only [reduceCtorEq, if_false, if_true, List.take_length] at h
  have hdrop : content.drop (content.length + data.length) = [] :=
    List.drop_eq_nil_of_le (Nat.le_add_right _ _)
  rw [hdrop, List.append_nil] at h
  split at h
  · next hn =>
    obtain rfl := Option.some.inj h
    refine ⟨_, rfl, rfl, rfl, ?_⟩
    rw [if_pos hn]
  · next hn =>
    split at h
    · next hmax =>
      obtain rfl := Option.some.inj h
      refine ⟨_, rfl, rfl, rfl, ?_⟩
      rw [if_neg hn]
      exact ⟨rfl, hmax.2, rfl, rfl⟩
    · cases h

theorem Settled.removeFile (hs : s.Settled) (path : List UInt8) : (s.removeFile path).Settled := by
  intro file o hfile
  obtain ⟨o', ho', rfl⟩ := Option.map_eq_some_iff.mp hfile
  have hquiet := hs file o' ho'
  split
  · exact hquiet
  · exact hquiet

end FileStore

section Store

variable {resolve : List UInt8 → List UInt8} {s s' : FileStore}

theorem storeLfs_open {file : FileRef} {path : List UInt8} {flags : OpenFlags} {err : Int}
    (herr : ¬err < 0)
    (h : storeLfs resolve s (called (.fileOpencfg file path flags) err) = some s') :
    s.openFile file (resolve path) flags = some s' := by
  rwa [storeLfs_fileOpencfg, if_neg herr] at h

/-- A failed `lfs_file_opencfg`. -/
theorem storeLfs_open_failed {file : FileRef} {path : List UInt8} {flags : OpenFlags} {err : Int}
    (hs : s.Settled) (herr : err < 0)
    (h : storeLfs resolve s (called (.fileOpencfg file path flags) err) = some s') :
    s'.files = s.files ∧ s'.Settled := by
  rw [storeLfs_fileOpencfg, if_pos herr] at h
  obtain rfl := Option.some.inj h
  exact ⟨rfl, hs.update_none rfl⟩

/-- Unmounting does nothing to the files. -/
theorem run_unmountTrace {v : FilesysVars} {err : Int} {t : List LfsEvent}
    (hrun : run (storeLfs resolve) s (unmountTrace v err ++ t) = some s') :
    run (storeLfs resolve) s t = some s' := by
  unfold unmountTrace at hrun
  split at hrun
  · exact hrun
  · exact hrun

/-- A file behind the calls of `filesys_start_file_write`: the attribute is set on disk at once,
the truncation comes with the close. -/
def startedEntry (e : FileEntry) (fileCrc : UInt32) (a c : Int) : FileEntry where
  content := if c < 0 then e.content else []
  crcAttr := if a < 0 then e.crcAttr else some fileCrc

/-- The calls of `filesys_start_file_write` behind a successful `lfs_file_opencfg`. -/
theorem run_start_files {path : List UInt8} {fileCrc : UInt32} {n o a c : Int} (ho : ¬o < 0)
    (hrun : run (storeLfs resolve) s
      [called .fsSize n, called (.fileOpencfg .startFileWrite path .creatWronlyTrunc) o,
        called (.setattr path fileCrc) a, called (.fileClose .startFileWrite) c] = some s') :
    s'.handles = Function.update s.handles .startFileWrite none ∧
      s'.files = Function.update s.files (resolve path)
        (some (startedEntry ((s.files (resolve path)).getD ⟨[], none⟩) fileCrc a c)) := by
  obtain ⟨s₁, hsize, hrun₁⟩ := run_cons_some _ hrun
  obtain ⟨s₂, hopen, hrun₂⟩ := run_cons_some _ hrun₁
  obtain ⟨s₃, hattr, hrun₃⟩ := run_cons_some _ hrun₂
  obtain ⟨s₄, hclose, hrun₄⟩ := run_cons_some _ hrun₃
  obtain rfl := Option.some.inj hsize
  obtain rfl := Option.some.inj hrun₄
  obtain ⟨hfiles₂, hhandles₂⟩ := FileStore.openFile_trunc (storeLfs_open ho hopen)
  obtain ⟨e, he⟩ : ∃ e, (s.files (resolve path)).getD ⟨[], none⟩ = e := ⟨_, rfl⟩
  rw [he] at hfiles₂ ⊢
  -- the attribute is set on disk, with the object open
  obtain ⟨hhandles₃, hfiles₃⟩ : s₃.handles = s₂.handles ∧
      s₃.files = Function.update s.files (resolve path)
        (some { e with crcAttr := if a < 0 then e.crcAttr else some fileCrc }) := by
    rw [storeLfs_setattr] at hattr
    split at hattr
    · next ha =>
      obtain rfl := Option.some.inj hattr
      exact ⟨rfl, by rw [hfiles₂, if_pos ha]⟩
    · next ha =>
      rw [FileStore.setAttr, hfiles₂, Function.update_self] at hattr
      obtain rfl := Option.some.inj hattr
      refine ⟨rfl, ?_⟩
      rw [if_neg ha]
      exact Function.update_idem _ _ _
  have howned : s₃.handles .startFileWrite = some
      { path := resolve path
        flags := .creatWronlyTrunc
        content := []
        dirty := (s.files (resolve path)).isSome } := by
    rw [hhandles₃, hhandles₂]
    exact Function.update_self _ _ _
  obtain ⟨hhandles₄, hfiles₄⟩ := FileStore.closeFile_own howned rfl rfl hclose
  refine ⟨by rw [hhandles₄, hhandles₃, hhandles₂, Function.update_idem], ?_⟩
  rw [hfiles₄, hfiles₃]
  dsimp only
  by_cases hc : c < 0
  · rw [if_pos (Or.inl hc), startedEntry, if_pos hc]
  cases hfile : s.files (resolve path) with
  | none =>
    rw [hfile] at he
    simp only [Option.isSome_none, or_true, if_true, startedEntry, if_neg hc, ← he]
    rfl
  | some old =>
    rw [if_neg (by simp [hc]), Function.update_self, Function.update_idem, startedEntry, if_neg hc]
    rfl

theorem run_start {path : List UInt8} {fileCrc : UInt32} {n o a c : Int} (hs : s.Settled)
    (ho : ¬o < 0)
    (hrun : run (storeLfs resolve) s
      [called .fsSize n, called (.fileOpencfg .startFileWrite path .creatWronlyTrunc) o,
        called (.setattr path fileCrc) a, called (.fileClose .startFileWrite) c] = some s') :
    s'.Settled ∧ (¬a < 0 → ¬c < 0 → s'.files (resolve path) = some ⟨[], some fileCrc⟩) ∧
      ∀ p ≠ resolve path, s'.files p = s.files p := by
  obtain ⟨hhandles, hfiles⟩ := run_start_files ho hrun
  refine ⟨hs.update_none hhandles, fun ha hc => ?_, fun p hp => ?_⟩
  · rw [hfiles, Function.update_self, startedEntry, if_neg ha, if_neg hc]
  · rw [hfiles, Function.update_of_ne hp]

/-- An append through the object of `filesys_write_buffer_to_mram`, and its close. -/
theorem run_flush {path data : List UInt8} {o b c : Int} (hs : s.Settled) (ho : ¬o < 0)
    (hb : ¬b < 0)
    (hrun : run (storeLfs resolve) s
      [called (.fileOpencfg .writeBufferToMram path .wronlyAppend) o,
        called (.fileWrite .writeBufferToMram data) b,
        called (.fileClose .writeBufferToMram) c] = some s') :
    s'.Settled ∧ (c < 0 → s'.files = s.files) ∧
      (¬c < 0 → ∃ e, s.files (resolve path) = some e ∧
        s'.files (resolve path) = some { e with content := e.content ++ data } ∧
        (e.content ++ data).length ≤ lfsFileMax) ∧
      ∀ p ≠ resolve path, s'.files p = s.files p := by
  obtain ⟨s₁, hopen, hrun₁⟩ := run_cons_some _ hrun
  obtain ⟨s₂, hwrite, hrun₂⟩ := run_cons_some _ hrun₁
  obtain ⟨s₃, hclose, hrun₃⟩ := run_cons_some _ hrun₂
  obtain rfl := Option.some.inj hrun₃
  obtain ⟨e, he, rfl⟩ := FileStore.openFile_append (storeLfs_open ho hopen)
  rw [storeLfs_fileWrite] at hwrite
  obtain ⟨h, rfl, hpath, hlinked, hwritten⟩ :=
    FileStore.writeFile_append FileStore.withHandle_self hwrite
  rw [if_neg hb] at hwritten
  obtain ⟨hcontent, hmax, hdirty, herrored⟩ := hwritten
  rw [storeLfs_fileClose] at hclose
  obtain ⟨hclosed, hfiles⟩ :=
    FileStore.closeFile_own FileStore.withHandle_self herrored hlinked hclose
  -- a close that fails commits nothing, one that succeeds commits the appended content
  have hfiles' : s₃.files = if c < 0 then s.files
      else Function.update s.files (resolve path)
        (some { e with content := e.content ++ data }) := by
    rw [hfiles, hpath]
    simp only [hdirty, Bool.true_eq_false, or_false]
    split
    · rfl
    · simp only [FileStore.withHandle, he, Option.map_some, hcontent]
  refine ⟨hs.update_none (f := .writeBufferToMram) ?_, fun hc => ?_, fun hc => ⟨e, he, ?_, ?_⟩,
    fun p hp => ?_⟩
  · rw [hclosed]
    simp only [FileStore.withHandle, Function.update_idem]
  · rw [hfiles', if_pos hc]
  · rw [hfiles', if_neg hc, Function.update_self]
  · rwa [← hcontent]
  · rw [hfiles']
    split
    · rfl
    · exact Function.update_of_ne hp _ _

/-- A failed append, up to the cancel. -/
theorem run_failed_flush {path data : List UInt8} {o b n m : Int} {t : List LfsEvent}
    (hs : s.Settled) (ho : ¬o < 0) (hb : b < 0)
    (hrun : run (storeLfs resolve) s
      (called (.fileOpencfg .writeBufferToMram path .wronlyAppend) o ::
        called (.fileWrite .writeBufferToMram data) b ::
        called (.fileSize .writeBufferToMram) n :: called .fsSize m :: t) = some s') :
    ∃ s₁ : FileStore, s₁.files = s.files ∧ s₁.Settled ∧
      run (storeLfs resolve) s₁ t = some s' := by
  obtain ⟨s₁, hopen, hrun₁⟩ := run_cons_some _ hrun
  obtain ⟨s₂, hwrite, hrun₂⟩ := run_cons_some _ hrun₁
  obtain ⟨e, he, rfl⟩ := FileStore.openFile_append (storeLfs_open ho hopen)
  rw [storeLfs_fileWrite] at hwrite
  obtain ⟨h, rfl, _, _, hwritten⟩ :=
    FileStore.writeFile_append FileStore.withHandle_self hwrite
  rw [if_pos hb] at hwritten
  -- the handle stays open, but nothing is pending in it
  have hs₂ : ((s.withHandle .writeBufferToMram
      { path := resolve path, flags := .wronlyAppend, content := e.content }).withHandle
        .writeBufferToMram h).Settled := by
    refine hs.update_some (f := .writeBufferToMram) (o := h) ?_ ?_
    · rw [FileStore.withHandle, FileStore.withHandle, Function.update_idem]
    · exact fun hdirty => absurd (hwritten.symm.trans hdirty) Bool.false_ne_true
  obtain ⟨s₃, hsize, hrun₃⟩ := run_cons_some _ hrun₂
  obtain ⟨s₄, hfsSize, hrun₄⟩ := run_cons_some _ hrun₃
  obtain ⟨hfiles₃, hs₃⟩ := storeLfs_inspects resolve hs₂ rfl hsize
  obtain ⟨hfiles₄, hs₄⟩ := storeLfs_inspects resolve hs₃ rfl hfsSize
  exact ⟨s₄, hfiles₄.trans hfiles₃, hs₄, hrun₄⟩

/-- `lfs_mount`, in `filesys_initialize`: the files stay and no handle is open. -/
theorem run_mount {err : Int} (hrun : run (storeLfs resolve) s [called .mount err] = some s') :
    s'.files = s.files ∧ s'.Settled := by
  obtain rfl := Option.some.inj hrun
  exact ⟨rfl, fun _ _ h => by cases h⟩

/-- `lfs_remove`, in `filesys_cancel_file_write`. -/
theorem run_remove {path : List UInt8} {err : Int} (hs : s.Settled)
    (hrun : run (storeLfs resolve) s [called (.remove path) err] = some s') :
    s'.Settled ∧ (err < 0 → s'.files = s.files) ∧
      ∀ p ≠ resolve path, s'.files p = s.files p := by
  obtain ⟨s₁, hremove, hrun₁⟩ := run_cons_some _ hrun
  obtain rfl := Option.some.inj hrun₁
  rw [storeLfs_remove] at hremove
  split at hremove
  · obtain rfl := Option.some.inj hremove
    exact ⟨hs, fun _ => rfl, fun _ _ => rfl⟩
  · next herr =>
    obtain rfl := Option.some.inj hremove
    exact ⟨hs.removeFile _, fun h => absurd h herr, fun _ hp => Function.update_of_ne hp _ _⟩

end Store

/-! ## The refinement -/

/-- The variables and the store while a file is being written and the writer stands at `w`:
the file is what was flushed, the buffer is what was written since. Outside `lawful` runs a
reformat may have taken the file away, and bytes from behind the buffer may have got into
it. -/
structure WritesAs (resolve : List UInt8 → List UInt8) (lawful : Prop) (v : FilesysVars)
    (s : FileStore) (w : Writer) : Prop where
  fnameStr : v.bufferedFnameStr = w.fnameStr
  fileSize : v.bufferedFileLen = w.fileSize
  fileCrc : v.bufferedFileCrc = w.fileCrc
  file : (∃ content, s.files (resolve w.path) = some ⟨content, some w.fileCrc⟩ ∧
      content.length = w.content.length ∧ (lawful → content = w.content)) ∨
    ¬lawful ∧ s.files (resolve w.path) = none
  length : w.content.length ≤ lfsFileMax
  dirty : v.bufferIsDirty = w.dirty
  buffer : lawful → ∀ i < filesysBufferSize, v.buffer i = w.overlay i

theorem WritesAs.path {resolve : List UInt8 → List UInt8} {lawful : Prop} {v : FilesysVars}
    {s : FileStore} {w : Writer} (h : WritesAs resolve lawful v s w) : v.path = w.path := by
  rw [FilesysVars.path, h.fnameStr, Writer.path]

/-- The refinement relation. With no file being written, it says nothing about the writer. -/
structure Session (resolve : List UInt8 → List UInt8) (lawful : Prop) (v : FilesysVars)
    (s : FileStore) (w : Writer) : Prop where
  flags : WriteSession v
  settled : s.Settled
  writes : v.isWritingFile = true → WritesAs resolve lawful v s w

namespace Session

variable {resolve : List UInt8 → List UInt8} {lawful : Prop} {v v' : FilesysVars}
  {s s' : FileStore} {w : Writer} {t : List LfsEvent}

theorem idle (hflags : WriteSession v) (hs : s.Settled) (h : v.isWritingFile = false)
    (w : Writer) : Session resolve lawful v s w :=
  ⟨hflags, hs, fun hwriting => absurd (h.symm.trans hwriting) Bool.false_ne_true⟩

/-- Calls that leave the files alone, and no assignment. -/
theorem frame (hv : Session resolve lawful v s w) (hfiles : s'.files = s.files)
    (hs' : s'.Settled) : Session resolve lawful v s' w := by
  refine ⟨hv.flags, hs', fun hwriting => ?_⟩
  have hw := hv.writes hwriting
  refine ⟨hw.fnameStr, hw.fileSize, hw.fileCrc, ?_, hw.length, hw.dirty, hw.buffer⟩
  rw [hfiles]
  exact hw.file

/-- The buffer is cleared on both sides. -/
theorem clearBuffer (hv : Session resolve lawful v s w) :
    Session resolve lawful v.clearBuffer s w.cleared := by
  refine ⟨.clearBuffer v, hv.settled, fun hwriting => ?_⟩
  have hw := hv.writes hwriting
  exact ⟨hw.fnameStr, hw.fileSize, hw.fileCrc, hw.file, hw.length, rfl,
    fun _ _ hi => WriteSession.clearBuffer_zero v hi⟩

theorem cancelFileWrite (hv : Session resolve lawful v s w) {r : FilesysError × Int}
    (h : CancelPath v t r v') (hrun : run (storeLfs resolve) s t = some s') :
    Session resolve lawful v' s' w := by
  cases h with
  | noFile _ =>
    obtain rfl := Option.some.inj hrun
    exact hv
  | removeFailed _ herr =>
    obtain ⟨hs', hfiles, _⟩ := run_remove hv.settled hrun
    exact hv.frame (hfiles herr) hs'
  | cancelled _ _ =>
    obtain ⟨hs', _⟩ := run_remove hv.settled hrun
    exact idle (.cancelled v) hs' rfl w

theorem init (hv : Session resolve lawful v s w) {r : FilesysError × Int} (h : InitPath v t r v')
    (hrun : run (storeLfs resolve) s t = some s') : Session resolve lawful v' s' w := by
  cases h with
  | mountFailed _ => exact hv.frame (run_mount hrun).1 (run_mount hrun).2
  | noBuffer _ _ => exact hv.frame (run_mount hrun).1 (run_mount hrun).2
  | mounted _ _ => exact idle (.mounted v) (run_mount hrun).2 rfl w

/-- A reformat, where the file may go. -/
theorem reformatInit (hlawful : ¬lawful) (hv : Session resolve lawful v s w)
    {r : FilesysError × Int} (h : ReformatPath v t r v')
    (hrun : run (storeLfs resolve) s t = some s') : Session resolve lawful v' s' w := by
  have hunmounted : Session resolve lawful v.unmounted s w := by
    refine ⟨⟨hv.flags.dirty_writing, hv.flags.clean_zero⟩, hv.settled, fun hwriting => ?_⟩
    have hw := hv.writes hwriting
    exact ⟨hw.fnameStr, hw.fileSize, hw.fileCrc, hw.file, hw.length, hw.dirty, hw.buffer⟩
  cases h with
  | formatFailed herr =>
    obtain ⟨s₁, hformat, hrun₁⟩ := run_cons_some _ (run_unmountTrace hrun)
    obtain rfl := Option.some.inj hrun₁
    rw [storeLfs_format, if_pos herr] at hformat
    obtain rfl := Option.some.inj hformat
    exact hunmounted.frame rfl fun _ _ h => by cases h
  | formatted herr hinit =>
    obtain ⟨s₁, hformat, hrun₁⟩ := run_cons_some _ (run_unmountTrace hrun)
    rw [storeLfs_format, if_neg herr] at hformat
    obtain rfl := Option.some.inj hformat
    have hformatted : Session resolve lawful v.unmounted
        { s with files := fun _ => none, handles := fun _ => none } w := by
      refine ⟨hunmounted.flags, (fun _ _ h => by cases h), fun hwriting => ?_⟩
      have hw := hv.writes hwriting
      exact ⟨hw.fnameStr, hw.fileSize, hw.fileCrc, Or.inr ⟨hlawful, rfl⟩, hw.length, hw.dirty,
        hw.buffer⟩
    exact hformatted.init hinit hrun₁

theorem startFileWrite (hv : Session resolve lawful v s w) {cfg : LfsConfig} {fnameStr : FnameStr}
    {fileSize fileCrc : UInt32} {r : FilesysError × Int × Option Int}
    (h : StartPath cfg fnameStr fileSize fileCrc v t r v')
    (hrun : run (storeLfs resolve) s t = some s') :
    Session resolve lawful v' s' (if r.1 ≠ .ok then w else { fnameStr, fileSize, fileCrc }) := by
  have hflags := hv.flags.startFileWrite h
  have hcleaned (hidle : v.isWritingFile = false) : v.cleaned.isWritingFile = false := by
    rw [hv.flags.cleaned_eq hidle]
    exact hidle
  have hnamed (hidle : v.isWritingFile = false) : (v.named fnameStr).isWritingFile = false :=
    hcleaned hidle
  have hsize {n : Int} (hrun : run (storeLfs resolve) s [called .fsSize n] = some s') :
      s'.Settled := by
    obtain rfl := Option.some.inj hrun
    exact hv.settled
  cases h with
  | alreadyWriting _ =>
    obtain rfl := Option.some.inj hrun
    exact hv
  | fsSizeFailed hidle _ => exact idle hflags (hsize hrun) (hcleaned hidle) w
  | noSpace hidle _ _ => exact idle hflags (hsize hrun) (hcleaned hidle) w
  -- an error leaves no write in progress, so nothing is claimed of the file
  | openFailed hidle _ _ ho =>
    obtain ⟨s₁, hfsSize, hrun₁⟩ := run_cons_some _ hrun
    obtain ⟨s₂, hopen, hrun₂⟩ := run_cons_some _ hrun₁
    obtain rfl := Option.some.inj hfsSize
    obtain rfl := Option.some.inj hrun₂
    exact idle hflags (storeLfs_open_failed hv.settled ho hopen).2 (hnamed hidle) w
  | setattrFailed hidle _ _ ho _ =>
    exact idle hflags (run_start hv.settled ho hrun).1 (hnamed hidle) w
  | closeFailed hidle _ _ ho _ _ =>
    exact idle hflags (run_start hv.settled ho hrun).1 (hnamed hidle) w
  -- the file is there and empty, and so is the buffer
  | started hidle _ _ ho ha hc =>
    obtain ⟨hs', hfile, _⟩ := run_start hv.settled ho hrun
    refine ⟨hflags, hs', fun _ => ⟨rfl, rfl, rfl, Or.inl ⟨[], hfile ha hc, rfl, fun _ => rfl⟩,
      Nat.zero_le _, rfl, fun _ => hflags.clean_zero rfl⟩⟩

theorem writeDataToBuffer (hv : Session resolve lawful v s w) {data : Mem}
    {nBytes offset : UInt16} {r : FilesysError × Int}
    (h : WriteDataPath data nBytes offset v t r v')
    (hrun : run (storeLfs resolve) s t = some s') :
    Session resolve lawful v' s' (if r.1 ≠ .ok then w else w.written data nBytes offset) := by
  have hflags := hv.flags.writeDataToBuffer h
  cases h with
  | exceeds _ =>
    obtain rfl := Option.some.inj hrun
    exact hv
  | noFile _ _ =>
    obtain rfl := Option.some.inj hrun
    exact hv
  | written _ _ =>
    obtain rfl := Option.some.inj hrun
    refine ⟨hflags, hv.settled, fun hwriting => ?_⟩
    have hw := hv.writes hwriting
    exact ⟨hw.fnameStr, hw.fileSize, hw.fileCrc, hw.file, hw.length, rfl,
      fun hl i hi => write_congr (hw.buffer hl i hi)⟩

theorem completeFileWrite (hv : Session resolve lawful v s w) {r : FilesysError × Int}
    (h : CompletePath v t r v') (hrun : run (storeLfs resolve) s t = some s') :
    Session resolve lawful v' s' w := by
  have hflags := hv.flags.completeFileWrite h
  have inspected {r : FilesysError × Int} (hcheck : filesysIsCrcCorrect.replay v t = some (r, v)) :
      s'.files = s.files ∧ s'.Settled :=
    run_storeLfs_inspects resolve hv.settled (filesysIsCrcCorrect_inspects _ _ _ _ hcheck).2 hrun
  cases h with
  | dirty _ =>
    obtain rfl := Option.some.inj hrun
    exact hv
  | rejected _ hcheck _ => exact hv.frame (inspected hcheck).1 (inspected hcheck).2
  | completed _ hcheck => exact idle hflags (inspected hcheck).2 rfl w

/-- The flush: the one operation that changes the file. -/
theorem writeBufferToMram (hv : Session resolve lawful v s w) {nBytes : UInt16}
    (hn : lawful → nBytes.toNat ≤ filesysBufferSize) {r : FilesysError × Int}
    (h : FlushPath nBytes v t r v') (hrun : run (storeLfs resolve) s t = some s') :
    Session resolve lawful v' s' (if r.1 ≠ .ok then w else w.flushed nBytes) := by
  cases h with
  | noFile _ =>
    obtain rfl := Option.some.inj hrun
    exact hv
  | clean hwriting hclean =>
    obtain rfl := Option.some.inj hrun
    have hw : w.dirty ≠ true := by
      rw [← (hv.writes hwriting).dirty, hclean]
      exact Bool.false_ne_true
    rw [Writer.flushed, if_neg hw]
    exact hv
  | openFailed _ _ ho =>
    obtain ⟨s₁, hopen, hrun₁⟩ := run_cons_some _ hrun
    obtain rfl := Option.some.inj hrun₁
    obtain ⟨hfiles, hs'⟩ := storeLfs_open_failed hv.settled ho hopen
    exact hv.frame hfiles hs'
  | writeFailed _ _ ho hb hcancel =>
    obtain ⟨s₁, hfiles, hs₁, hrun₁⟩ := run_failed_flush hv.settled ho hb hrun
    exact (hv.frame hfiles hs₁).cancelFileWrite hcancel hrun₁
  | closeFailed _ _ ho hb hc =>
    obtain ⟨hs', hfiles, _⟩ := run_flush hv.settled ho hb hrun
    exact hv.frame (hfiles hc) hs'
  | flushed hwriting hdirty ho hb hc =>
    obtain ⟨hs', _, hflushed, _⟩ := run_flush hv.settled ho hb hrun
    obtain ⟨e, he, he', hmax⟩ := hflushed hc
    have hw := hv.writes hwriting
    rw [hw.path] at he he'
    -- the open found the file, so it is there
    obtain ⟨content, hfile, hlength, hcontent⟩ := hw.file.resolve_right
      fun ⟨_, hnone⟩ => by simp [he] at hnone
    obtain rfl := Option.some.inj (he.symm.trans hfile)
    rw [Writer.flushed, if_pos (hw.dirty.symm.trans hdirty)]
    have hgrown : (content ++ read v.buffer 0 nBytes.toNat).length =
        (w.content ++ read w.overlay 0 nBytes.toNat).length := by
      rw [List.length_append, List.length_append, hlength, length_read, length_read]
    refine ⟨.clearBuffer v, hs', fun _ => ⟨hw.fnameStr, hw.fileSize, hw.fileCrc,
      Or.inl ⟨_, he', hgrown, fun hl => ?_⟩, hgrown ▸ hmax, rfl,
      fun _ _ hi => WriteSession.clearBuffer_zero v hi⟩⟩
    have hbytes : read v.buffer 0 nBytes.toNat = read w.overlay 0 nBytes.toNat :=
      read_congr fun i _ hi => hw.buffer hl i (by have := hn hl; omega)
    rw [hcontent hl, hbytes]
    rfl

end Session

/-- The operations that the content law is about: no reformat, and flushes of bytes of the
buffer. -/
def FilesysOp.Lawful : FilesysOp → Prop
  | .reformatInit => False
  | .writeBufferToMram nBytes => nBytes.toNat ≤ filesysBufferSize
  | _ => True

section Runs

variable {resolve : List UInt8 → List UInt8} {lawful : Prop} {cfg : LfsConfig}

/-- **Every operation keeps the refinement**, on every path: the code's writer and the
abstract one go on together. -/
theorem Session.step {v v' : FilesysVars} {s s' : FileStore} {w : Writer} {e : FilesysEvent}
    (hv : Session resolve lawful v s w) (h : OpPath cfg v e.op e.trace e.result v')
    (hrun : run (storeLfs resolve) s e.trace = some s') (hlawful : lawful → e.op.Lawful) :
    Session resolve lawful v' s' (w.after e) := by
  obtain ⟨op, t, r⟩ := e
  dsimp only at h hrun hlawful
  cases h with
  | init h =>
    rw [Writer.after_eq_self rfl]
    exact hv.init h hrun
  | reformatInit h =>
    rw [Writer.after_eq_self rfl]
    exact hv.reformatInit hlawful h hrun
  | startFileWrite h => exact hv.startFileWrite h hrun
  | writeDataToBuffer h => exact hv.writeDataToBuffer h hrun
  | writeBufferToMram h => exact hv.writeBufferToMram hlawful h hrun
  | completeFileWrite h =>
    rw [Writer.after_eq_self rfl]
    exact hv.completeFileWrite h hrun
  | clearBuffer =>
    obtain rfl := Option.some.inj hrun
    exact hv.clearBuffer
  | cancelFileWrite h =>
    rw [Writer.after_eq_self rfl]
    exact hv.cancelFileWrite h hrun
  -- what only reads changes neither the store nor the writer
  | inspect hop h =>
    obtain ⟨hfiles, hs'⟩ := run_storeLfs_inspects resolve hv.settled
      (FilesysOp.prog_inspects cfg hop v t r v h).2 hrun
    have hstays : w.accepted op = w := by
      cases op with
      | init | reformatInit | startFileWrite | writeDataToBuffer | writeBufferToMram
      | completeFileWrite | clearBuffer | cancelFileWrite => simp [FilesysOp.inspects] at hop
      | _ => rfl
    rw [Writer.after_eq_self hstays]
    exact hv.frame hfiles hs'

/-- A run keeps it, with the abstract writer folded along. -/
theorem session_run {s s' : FilesysState FileStore} {es : List FilesysEvent} {w : Writer}
    (hs : Session resolve lawful s.vars s.lfs w) (hlawful : lawful → ∀ e ∈ es, e.op.Lawful)
    (hrun : run (filesysStep (storeLfs resolve) cfg) s es = some s') :
    Session resolve lawful s'.vars s'.lfs (es.foldl Writer.after w) := by
  induction es generalizing s w with
  | nil =>
    obtain rfl := Option.some.inj hrun
    exact hs
  | cons e es ih =>
    obtain ⟨s₁, hstep, hrest⟩ := run_cons_some _ hrun
    obtain ⟨hreplay, hlfs⟩ := (filesysStep_eq_some _ _).mp hstep
    have hs₁ := hs.step (opPath hreplay) hlfs fun hl => hlawful hl e List.mem_cons_self
    exact ih hs₁ (fun hl e' he' => hlawful hl e' (List.mem_cons_of_mem _ he')) hrest

/-- A successful `filesys_initialize` sets it up, from any variables and any store. -/
theorem session_of_init {s s' : FilesysState FileStore} {e : FilesysEvent} (hop : e.op = .init)
    (hok : e.result.error = .ok)
    (hstep : filesysStep (storeLfs resolve) cfg s e = some s') (w : Writer) :
    Session resolve lawful s'.vars s'.lfs w := by
  obtain ⟨hreplay, hlfs⟩ := (filesysStep_eq_some _ _).mp hstep
  obtain ⟨op, t, r⟩ := e
  obtain ⟨v, l⟩ := s
  obtain ⟨v', l'⟩ := s'
  obtain rfl : op = .init := hop
  cases opPath hreplay with
  | inspect hop _ => simp [FilesysOp.inspects] at hop
  | init h =>
    cases h with
    | mountFailed _ => cases hok
    | noBuffer _ _ => cases hok
    | mounted _ _ =>
      obtain rfl := Option.some.inj hlfs
      exact Session.idle (.mounted v) (fun _ _ h => by cases h) rfl w

end Runs

/-- **The content law of the buffered writer.** In every run that begins with a successful
`filesys_initialize`, whatever calls of littlefs fail on the way, the file being written
holds what the abstract writer has flushed since its start, and nothing else. A reformat is
not among the operations, and flushes are of bytes of the buffer. -/
theorem content_law (resolve : List UInt8 → List UInt8) (cfg : LfsConfig)
    (s s' : FilesysState FileStore) (e : FilesysEvent) (es : List FilesysEvent)
    (hop : e.op = .init) (hok : e.result.error = .ok) (hes : ∀ e ∈ es, e.op.Lawful)
    (hrun : run (filesysStep (storeLfs resolve) cfg) s (e :: es) = some s')
    (hwriting : s'.vars.isWritingFile = true) :
    (s'.lfs.files (resolve s'.vars.path)).map FileEntry.content =
      some (es.foldl Writer.after .idle).content := by
  obtain ⟨s₁, hfirst, hrest⟩ := run_cons_some _ hrun
  have hs₁ : Session resolve True s₁.vars s₁.lfs .idle := session_of_init hop hok hfirst _
  have hs' := (session_run hs₁ (fun _ => hes) hrest).writes hwriting
  rw [hs'.path]
  rcases hs'.file with ⟨content, hfile, _, hcontent⟩ | ⟨hnot, _⟩
  · rw [hfile, ← hcontent trivial]
    rfl
  · exact absurd trivial hnot

/-- Two bytes written and flushed into a file that was started. -/
theorem content_law_flushed :
    ∃ s : FilesysState FileStore,
      run (filesysStep (storeLfs id) mramConfig) ⟨.atBoot, .empty⟩
        [sampleInit, sampleStart 2 0, sampleWrite, sampleFlush 2 [7, 7]] = some s ∧
      (s.lfs.files (id s.vars.path)).map FileEntry.content = some [7, 7] :=
  ⟨_, rfl, content_law id mramConfig ⟨.atBoot, .empty⟩ _ sampleInit
    [sampleStart 2 0, sampleWrite, sampleFlush 2 [7, 7]] rfl rfl (by
      simp [sampleStart, sampleWrite, sampleFlush, FilesysOp.Lawful]) rfl rfl⟩

end Samwise
