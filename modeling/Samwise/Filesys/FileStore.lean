import Mathlib.Logic.Function.Basic
import Samwise.Filesys.Paths

/-!
# Samwise — littlefs as a store of files

What littlefs does to files, as a machine over its calls: a file is its bytes and its CRC
attribute, an open file object sees the bytes as they were when it was opened, and what is
written through it reaches the file when it is closed. Any call may return an error, and then
the files are as before; which calls do is not said. A read may return fewer bytes than asked
for, but at least one before the end of the file. A call on an object that is not open is one
that littlefs forbids (`LFS_ASSERT`), and the machine has no step for it.

All open files share `cache_buffer`, so an object's reads are said to return its own bytes
only while it is the last that was opened or read (`cacheOwner`).
-/

namespace Samwise

open Interaction Run

/-- A file. -/
structure FileEntry where
  content : List UInt8
  crcAttr : Option UInt32
deriving DecidableEq

/-- An open file object. `dirty` and `errored` are `LFS_F_DIRTY` and `LFS_F_ERRED`; removing
a file unlinks the objects that are open on it. -/
structure OpenFile where
  path : List UInt8
  flags : OpenFlags
  content : List UInt8
  pos : Nat := 0
  dirty : Bool := false
  errored : Bool := false
  linked : Bool := true

/-- Where `lfs_file_seek` moves to. -/
def OpenFile.seekTarget (h : OpenFile) (off whence : Int32) : Int :=
  if whence = 0 then off.toInt
  else if whence = 1 then h.pos + off.toInt
  else if whence = 2 then h.content.length + off.toInt
  else h.pos

/-- The files by their paths, the open objects, and the one whose data `cache_buffer` holds. -/
structure FileStore where
  files : List UInt8 → Option FileEntry
  handles : FileRef → Option OpenFile
  cacheOwner : Option FileRef

/-- `LFS_FILE_MAX`. -/
def lfsFileMax : Nat := 2147483647

namespace FileStore

/-- No files, and nothing open. -/
def empty : FileStore := ⟨fun _ => none, fun _ => none, none⟩

/-- The object is open, and used `cache_buffer` last. -/
def withHandle (s : FileStore) (file : FileRef) (h : OpenFile) : FileStore :=
  { s with handles := Function.update s.handles file (some h), cacheOwner := some file }

/-- A successful `lfs_file_opencfg`. A file that is made anew is on disk at once, a
truncation is not. -/
def openFile (s : FileStore) (file : FileRef) (path : List UInt8) (flags : OpenFlags) :
    Option FileStore :=
  match s.files path, flags with
  | some e, .rdonly => some (s.withHandle file { path, flags := .rdonly, content := e.content })
  | some e, .wronlyAppend =>
    some (s.withHandle file { path, flags := .wronlyAppend, content := e.content })
  | some _, .creatWronlyTrunc =>
    some (s.withHandle file { path, flags := .creatWronlyTrunc, content := [], dirty := true })
  | none, .creatWronlyTrunc =>
    some
      { s.withHandle file { path, flags := .creatWronlyTrunc, content := [] } with
        files := Function.update s.files path (some ⟨[], none⟩) }
  | none, _ => none

/-- `lfs_file_close`. Pending bytes are committed, unless there was an error. -/
def closeFile (s : FileStore) (file : FileRef) (err : Int) : Option FileStore :=
  match s.handles file with
  | none => none
  | some h =>
    let closed := { s with handles := Function.update s.handles file none, cacheOwner := none }
    if err < 0 ∨ h.errored = true ∨ h.dirty = false ∨ h.linked = false then some closed
    else
      some { closed with
        files := Function.update s.files h.path
          ((s.files h.path).map fun e => { e with content := h.content }) }

/-- `lfs_file_read`. -/
def readFile (s : FileStore) (file : FileRef) {size : Nat} (result : ReadResult size) :
    Option FileStore :=
  match s.handles file with
  | none => none
  | some h =>
    if h.flags ≠ .rdonly then none
    else
      match result with
      | .failed _ _ => some { s with cacheOwner := none }
      | .read bytes _ =>
        let moved := { s with
          handles := Function.update s.handles file (some { h with pos := h.pos + bytes.length }) }
        if s.cacheOwner = some file then
          if bytes = (h.content.drop h.pos).take bytes.length ∧
              (bytes = [] → size = 0 ∨ h.content.drop h.pos = []) then
            some moved
          else none
        else some { moved with cacheOwner := none }

/-- `lfs_file_write`, which returns the number of bytes given or an error. -/
def writeFile (s : FileStore) (file : FileRef) (data : List UInt8) (n : Int) :
    Option FileStore :=
  match s.handles file with
  | none => none
  | some h =>
    let start := if h.flags = .wronlyAppend then h.content.length else h.pos
    let content := h.content.take start ++ data ++ h.content.drop (start + data.length)
    if h.flags = .rdonly then none
    else if n < 0 then some (s.withHandle file { h with errored := true })
    else if n = data.length ∧ content.length ≤ lfsFileMax then
      some (s.withHandle file
        { h with content, pos := start + data.length, dirty := true, errored := false })
    else none

/-- `lfs_file_seek`. -/
def seekFile (s : FileStore) (file : FileRef) (off whence : Int32) (n : Int) :
    Option FileStore :=
  match s.handles file with
  | none => none
  | some h =>
    if n < 0 then some s
    else if n = h.seekTarget off whence then
      some { s with handles := Function.update s.handles file (some { h with pos := n.toNat }) }
    else none

/-- A successful `lfs_setattr`. -/
def setAttr (s : FileStore) (path : List UInt8) (value : UInt32) : Option FileStore :=
  (s.files path).map fun e =>
    { s with files := Function.update s.files path (some { e with crcAttr := some value }) }

/-- A successful `lfs_remove`. -/
def removeFile (s : FileStore) (path : List UInt8) : FileStore :=
  { s with
    files := Function.update s.files path none
    handles := fun file => (s.handles file).map fun h =>
      if h.path = path then { h with linked := false } else h }

end FileStore

section Machine

variable (resolve : List UInt8 → List UInt8)

/-- littlefs as a store of files. How it resolves a path is a parameter: two paths that are
resolved alike name the same file. -/
def storeLfs (s : FileStore) : LfsEvent → Option FileStore
  | ⟨.mount, _⟩ => some { s with handles := fun _ => none }
  | ⟨.unmount, _⟩ => some s
  | ⟨.format, err⟩ =>
    if (show Int from err) < 0 then some { s with handles := fun _ => none }
    else some { s with files := fun _ => none, handles := fun _ => none }
  | ⟨.fsSize, _⟩ => some s
  | ⟨.fileOpencfg file path flags, err⟩ =>
    if (show Int from err) < 0 then
      some { s with handles := Function.update s.handles file none, cacheOwner := none }
    else s.openFile file (resolve path) flags
  | ⟨.fileClose file, err⟩ => s.closeFile file err
  | ⟨.fileRead file _, result⟩ => s.readFile file (show ReadResult _ from result)
  | ⟨.fileWrite file data, n⟩ => s.writeFile file data n
  | ⟨.fileSize file, n⟩ =>
    (s.handles file).bind fun h =>
      if (show Int from n) < 0 ∨ (show Int from n) = h.content.length then some s else none
  | ⟨.fileSeek file off whence, n⟩ => s.seekFile file off whence n
  | ⟨.fileTell file, n⟩ =>
    (s.handles file).bind fun h =>
      if (show Int from n) < 0 ∨ (show Int from n) = h.pos then some s else none
  | ⟨.getattr path, attr⟩ =>
    let attr : AttrResult := attr
    if attr.code < 0 ∨ (s.files (resolve path)).bind FileEntry.crcAttr = some attr.value then
      some s
    else none
  | ⟨.setattr path value, err⟩ =>
    if (show Int from err) < 0 then some s else s.setAttr (resolve path) value
  | ⟨.remove path, err⟩ =>
    if (show Int from err) < 0 then some s else some (s.removeFile (resolve path))
  | ⟨.dirOpen _, _⟩ | ⟨.dirRead, _⟩ | ⟨.dirClose, _⟩ => some s

section Equations

variable {resolve : List UInt8 → List UInt8} {s : FileStore} {file : FileRef} {path : List UInt8}

theorem storeLfs_format {err : Int} :
    storeLfs resolve s (called .format err) =
      if err < 0 then some { s with handles := fun _ => none }
      else some { s with files := fun _ => none, handles := fun _ => none } := rfl

theorem storeLfs_fileOpencfg {flags : OpenFlags} {err : Int} :
    storeLfs resolve s (called (.fileOpencfg file path flags) err) =
      if err < 0 then
        some { s with handles := Function.update s.handles file none, cacheOwner := none }
      else s.openFile file (resolve path) flags := rfl

theorem storeLfs_fileClose {err : Int} :
    storeLfs resolve s (called (.fileClose file) err) = s.closeFile file err := rfl

theorem storeLfs_fileWrite {data : List UInt8} {n : Int} :
    storeLfs resolve s (called (.fileWrite file data) n) = s.writeFile file data n := rfl

theorem storeLfs_setattr {value : UInt32} {err : Int} :
    storeLfs resolve s (called (.setattr path value) err) =
      if err < 0 then some s else s.setAttr (resolve path) value := rfl

theorem storeLfs_remove {err : Int} :
    storeLfs resolve s (called (.remove path) err) =
      if err < 0 then some s else some (s.removeFile (resolve path)) := rfl

@[simp] theorem FileStore.withHandle_self {h : OpenFile} :
    (s.withHandle file h).handles file = some h := Function.update_self _ _ _

end Equations

/-! ## Inspecting -/

/-- No object has bytes to commit, but for those whose last write failed. It holds between
the operations of the filesystem. -/
def FileStore.Settled (s : FileStore) : Prop :=
  ∀ file h, s.handles file = some h → h.dirty = true → h.errored = true

namespace FileStore

variable {s : FileStore}

theorem Settled.of_handles {s' : FileStore} (hs : s.Settled) (h : s'.handles = s.handles) :
    s'.Settled := by
  intro file h' hfile
  rw [h] at hfile
  exact hs file h' hfile

theorem Settled.update_none {s' : FileStore} (hs : s.Settled) {f : FileRef}
    (h : s'.handles = Function.update s.handles f none) : s'.Settled := by
  intro file' h' hfile
  rw [h] at hfile
  by_cases heq : file' = f
  · subst heq
    simp at hfile
  · rw [Function.update_of_ne heq] at hfile
    exact hs file' h' hfile

theorem Settled.update_some {s' : FileStore} (hs : s.Settled) {f : FileRef} {o : OpenFile}
    (h : s'.handles = Function.update s.handles f (some o))
    (ho : o.dirty = true → o.errored = true) : s'.Settled := by
  intro file' h' hfile
  rw [h] at hfile
  by_cases heq : file' = f
  · subst heq
    rw [Function.update_self] at hfile
    obtain rfl := Option.some.inj hfile
    exact ho
  · rw [Function.update_of_ne heq] at hfile
    exact hs file' h' hfile

/-- Closing an object of a settled store commits nothing. -/
theorem closeFile_settled {s' : FileStore} {file : FileRef} {err : Int} (hs : s.Settled)
    (h : s.closeFile file err = some s') : s'.files = s.files ∧ s'.Settled := by
  unfold closeFile at h
  cases hfile : s.handles file with
  | none => simp [hfile] at h
  | some o =>
    rw [hfile] at h
    have hquiet : err < 0 ∨ o.errored = true ∨ o.dirty = false ∨ o.linked = false := by
      cases hdirty : o.dirty with
      | false => exact Or.inr (Or.inr (Or.inl rfl))
      | true => exact Or.inr (Or.inl (hs file o hfile hdirty))
    simp only [if_pos hquiet] at h
    obtain rfl := Option.some.inj h
    exact ⟨rfl, hs.update_none rfl⟩

theorem readFile_settled {s' : FileStore} {file : FileRef} {size : Nat} {result : ReadResult size}
    (hs : s.Settled) (h : s.readFile file result = some s') : s'.files = s.files ∧ s'.Settled := by
  unfold readFile at h
  cases hfile : s.handles file with
  | none => simp [hfile] at h
  | some o =>
    rw [hfile] at h
    have ho : o.dirty = true → o.errored = true := hs file o hfile
    dsimp only at h
    split at h
    · cases h
    cases result with
    | failed _ _ =>
      obtain rfl := Option.some.inj h
      exact ⟨rfl, hs.of_handles rfl⟩
    | read bytes _ =>
      dsimp only at h
      split at h
      · split at h
        · obtain rfl := Option.some.inj h
          exact ⟨rfl, hs.update_some rfl ho⟩
        · cases h
      · obtain rfl := Option.some.inj h
        exact ⟨rfl, hs.update_some rfl ho⟩

theorem seekFile_settled {s' : FileStore} {file : FileRef} {off whence : Int32} {n : Int}
    (hs : s.Settled) (h : s.seekFile file off whence n = some s') :
    s'.files = s.files ∧ s'.Settled := by
  unfold seekFile at h
  cases hfile : s.handles file with
  | none => simp [hfile] at h
  | some o =>
    rw [hfile] at h
    have ho : o.dirty = true → o.errored = true := hs file o hfile
    dsimp only at h
    split at h
    · obtain rfl := Option.some.inj h
      exact ⟨rfl, hs⟩
    split at h
    · obtain rfl := Option.some.inj h
      exact ⟨rfl, hs.update_some rfl ho⟩
    · cases h

theorem openFile_rdonly_settled {s' : FileStore} {file : FileRef} {path : List UInt8}
    (hs : s.Settled) (h : s.openFile file path .rdonly = some s') :
    s'.files = s.files ∧ s'.Settled := by
  unfold openFile at h
  cases hfile : s.files path with
  | none => simp [hfile] at h
  | some e =>
    rw [hfile] at h
    obtain rfl := Option.some.inj h
    exact ⟨rfl, hs.update_some rfl fun h => absurd h Bool.false_ne_true⟩

end FileStore

/-- **Calls that inspect leave a settled store's files alone.** -/
theorem storeLfs_inspects {s s' : FileStore} {e : LfsEvent} (hs : s.Settled)
    (he : LfsCall.inspects e.call = true) (h : storeLfs resolve s e = some s') :
    s'.files = s.files ∧ s'.Settled := by
  obtain ⟨c, r⟩ := e
  have stays {p : Prop} {_ : Decidable p} (h : (if p then some s else none) = some s') :
      s'.files = s.files ∧ s'.Settled := by
    split at h
    · obtain rfl := Option.some.inj h
      exact ⟨rfl, hs⟩
    · cases h
  cases c with
  | fsSize | dirOpen | dirRead | dirClose =>
    obtain rfl := Option.some.inj h
    exact ⟨rfl, hs⟩
  | fileOpencfg file path flags =>
    cases flags with
    | rdonly =>
      simp only [storeLfs] at h
      split at h
      · obtain rfl := Option.some.inj h
        exact ⟨rfl, hs.update_none rfl⟩
      · exact FileStore.openFile_rdonly_settled hs h
    | _ => simp [LfsCall.inspects] at he
  | fileClose file => exact FileStore.closeFile_settled hs h
  | fileRead file size => exact FileStore.readFile_settled hs h
  | fileSize file | fileTell file =>
    obtain ⟨o, _, h⟩ := Option.bind_eq_some_iff.mp h
    exact stays h
  | fileSeek file off whence => exact FileStore.seekFile_settled hs h
  | getattr path => exact stays h
  | _ => simp [LfsCall.inspects] at he

/-- And so does a trace of them. -/
theorem run_storeLfs_inspects {s s' : FileStore} {t : List LfsEvent} (hs : s.Settled)
    (ht : ∀ e ∈ t, LfsCall.inspects e.call = true) (h : run (storeLfs resolve) s t = some s') :
    s'.files = s.files ∧ s'.Settled := by
  induction t generalizing s with
  | nil =>
    obtain rfl := Option.some.inj h
    exact ⟨rfl, hs⟩
  | cons e t ih =>
    obtain ⟨s₁, he, hrest⟩ := run_cons_some _ h
    obtain ⟨hfiles, hs₁⟩ := storeLfs_inspects resolve hs (ht e List.mem_cons_self) he
    obtain ⟨hfiles', hs'⟩ := ih hs₁ (fun e' he' => ht e' (List.mem_cons_of_mem _ he')) hrest
    exact ⟨hfiles'.trans hfiles, hs'⟩

end Machine

end Samwise
