import Samwise.Filesys.CacheReads
import Samwise.Filesys.Paths
import Mathlib.Logic.Function.Basic

/-!
# Samwise — open files that share a cache

`filesys.c` opens every file with `filesys_lfs_file_cfg`, so all file objects read through the
same `cache_buffer`, and each keeps its own record of what is in it. littlefs is here a machine
that reads as `FileCache` says. What the calls that write leave on the disk and in
`cache_buffer` is a parameter, a function of the calls made so far.
-/

namespace Samwise

open Interaction Prog Memory Run Fallible Lfs

/-! ## The machine -/

/-- A file object: open for reading, or for writing. -/
inductive FileObject where
  | reading (f : File)
  | writing

/-- The disk, `cache_buffer`, the open file objects, the one that used `cache_buffer` last, and
the calls so far, the last one first. -/
structure CacheState (cfg : LfsConfig) where
  disk : Disk cfg
  buffer : Mem
  objects : FileRef → Option FileObject
  lastUser : Option FileRef
  calls : List LfsEvent

/-- What a call that writes leaves on the disk and in `cache_buffer`. -/
structure WriteEffect (cfg : LfsConfig) where
  disk : Disk cfg
  buffer : Mem

/-- The response is what a read came to. -/
def ReadResult.Reports {size : Nat} : ReadResult size → Except Int (List UInt8) → Prop
  | .failed code _, .error e => code = e
  | .read bytes _, .ok data => bytes = data
  | _, _ => False

instance {size : Nat} (result : ReadResult size) (r : Except Int (List UInt8)) :
    Decidable (result.Reports r) :=
  match result, r with
  | .failed code _, .error e => inferInstanceAs (Decidable (code = e))
  | .read bytes _, .ok data => inferInstanceAs (Decidable (bytes = data))
  | .failed _ _, .ok _ => inferInstanceAs (Decidable False)
  | .read _ _, .error _ => inferInstanceAs (Decidable False)

section Machine

variable {cfg : LfsConfig} (resolve : List UInt8 → List UInt8)
  (effects : List LfsEvent → WriteEffect cfg)

namespace CacheState

/-- `lfs_file_opencfg`, with what it leaves if it writes or fails. -/
def openFile (s : CacheState cfg) (left : WriteEffect cfg) (file : FileRef) (path : List UInt8)
    (flags : OpenFlags) (err : Int) : Option (CacheState cfg) :=
  let disk := if flags = .rdonly then s.disk else left.disk
  if err < 0 then
    some { s with
      disk
      buffer := left.buffer
      objects := Function.update s.objects file none
      lastUser := none }
  else if flags = .rdonly then
    (s.disk.dir path).map fun entry =>
      let (f, buffer) := openRdonly path entry s.buffer
      { s with
        buffer
        objects := Function.update s.objects file (some (.reading f))
        lastUser := some file }
  else
    some { s with
      disk
      buffer := left.buffer
      objects := Function.update s.objects file (some .writing)
      lastUser := some file }

/-- A call on a file object that is open for writing. -/
def writeWith (s : CacheState cfg) (left : WriteEffect cfg) (file : FileRef)
    (object : Option FileObject) : CacheState cfg :=
  { s with
    disk := left.disk
    buffer := left.buffer
    objects := Function.update s.objects file object
    lastUser := some file }

/-- `lfs_file_read`. -/
def readFile (s : CacheState cfg) (file : FileRef) (f : File) {size : Nat}
    (result : ReadResult size) : Option (CacheState cfg) :=
  let (r, behind) := (fileFlushedread s.disk f size).run.run ⟨f.cursor, s.buffer⟩
  if result.Reports r then
    some { s with
      buffer := behind.buffer
      objects := Function.update s.objects file (some (.reading { f with cursor := behind.cursor }))
      lastUser := some file }
  else none

/-- `lfs_file_seek`. -/
def seekFile (s : CacheState cfg) (file : FileRef) (f : File) (off whence : Int32) (n : Int) :
    Option (CacheState cfg) :=
  let (m, f') := fileSeek cfg f off whence
  if n = m then
    some { s with objects := Function.update s.objects file (some (.reading f')) }
  else none

end CacheState

/-- littlefs, with the file objects' caches. A call on an object that is not open is one that
littlefs forbids, and so are reading one that is open for writing and the other way round. -/
def cacheLfs (s : CacheState cfg) (e : LfsEvent) : Option (CacheState cfg) :=
  let left := effects (e :: s.calls)
  let s := { s with calls := e :: s.calls }
  match e with
  | ⟨.mount, _⟩ => some { s with objects := fun _ => none }
  | ⟨.format, _⟩ => some { s with disk := left.disk, objects := fun _ => none }
  | ⟨.setattr _ _, _⟩ | ⟨.remove _, _⟩ => some { s with disk := left.disk }
  | ⟨.unmount, _⟩ | ⟨.fsSize, _⟩ | ⟨.getattr _, _⟩ | ⟨.dirOpen _, _⟩ | ⟨.dirRead, _⟩
  | ⟨.dirClose, _⟩ => some s
  | ⟨.fileOpencfg file path flags, err⟩ => s.openFile left file (resolve path) flags err
  | ⟨.fileClose file, _⟩ =>
    match s.objects file with
    | none => none
    | some (.reading _) => some { s with objects := Function.update s.objects file none }
    | some .writing => some (s.writeWith left file none)
  | ⟨.fileRead file _, result⟩ =>
    match s.objects file with
    | some (.reading f) => s.readFile file f (show ReadResult _ from result)
    | _ => none
  | ⟨.fileWrite file _, _⟩ =>
    match s.objects file with
    | some .writing => some (s.writeWith left file (some .writing))
    | _ => none
  | ⟨.fileSize file, n⟩ =>
    match s.objects file with
    | none => none
    | some (.reading f) => if (show Int from n) = f.size.toNat then some s else none
    | some .writing => some s
  | ⟨.fileSeek file off whence, n⟩ =>
    match s.objects file with
    | none => none
    | some (.reading f) => s.seekFile file f off whence n
    | some .writing => some (s.writeWith left file (some .writing))
  | ⟨.fileTell file, n⟩ =>
    match s.objects file with
    | none => none
    | some (.reading f) => if (show Int from n) = f.cursor.pos then some s else none
    | some .writing => some s

/-! ## What other objects leave alone -/

variable {resolve effects} {s s' : CacheState cfg} {file : FileRef}

/-- What the object remembers of `cache_buffer` is true. -/
def CacheState.RecordTrue (s : CacheState cfg) (file : FileRef) : Prop :=
  ∀ f entry, s.objects file = some (.reading f) → s.disk.dir f.path = some entry →
    Holds cfg s.disk.dev entry ⟨f.cursor, s.buffer⟩

/-- If the object is open for reading, it is open on its file and in its place, and if no other
object used `cache_buffer` since, what it remembers of it is true. -/
def CacheState.Keeps (s : CacheState cfg) (file : FileRef) : Prop :=
  ∀ f, s.objects file = some (.reading f) → ∃ entry, s.disk.dir f.path = some entry ∧
    f.OpenOn entry ∧ f.cursor.InPlace cfg s.disk.dev entry ∧
    (s.lastUser = some file → Holds cfg s.disk.dev entry ⟨f.cursor, s.buffer⟩)

/-- The call does not change the file that the object has open for reading; and if it reads it,
no other object used `cache_buffer` since it did, or what it remembers is true all the same. -/
structure Undisturbed (resolve : List UInt8 → List UInt8) (effects : List LfsEvent → WriteEffect cfg)
    (file : FileRef) (s : CacheState cfg) (e : LfsEvent) : Prop where
  unwritten : ∀ s', cacheLfs resolve effects s e = some s' →
    ∀ f, s.objects file = some (.reading f) → SameFile s.disk s'.disk f.path
  cached : ∀ size, e.call = .fileRead file size → s.lastUser = some file ∨ s.RecordTrue file

/-- A call that leaves the object, `cache_buffer` and who used it as they are. -/
theorem CacheState.Keeps.frame (hs : s.Keeps file) (hobjects : s'.objects file = s.objects file)
    (hsame : ∀ f, s.objects file = some (.reading f) → SameFile s.disk s'.disk f.path)
    (hcache : s'.lastUser = some file → s.lastUser = some file ∧ s'.buffer = s.buffer) :
    s'.Keeps file := by
  intro f hf
  rw [hobjects] at hf
  obtain ⟨entry, hentry, hopen, hplace, hholds⟩ := hs f hf
  have hsame := hsame f hf
  refine ⟨entry, hsame.dir.trans hentry, hopen, hsame.place hentry hplace, fun hlast => ?_⟩
  obtain ⟨hlast, hbuffer⟩ := hcache hlast
  rw [hbuffer]
  exact hsame.holds hentry (hholds hlast)

/-- An object that is not open for reading. -/
theorem CacheState.Keeps.of_closed (h : ∀ f, s.objects file ≠ some (.reading f)) : s.Keeps file :=
  fun f hf => absurd hf (h f)

/-- A call on another object, which uses `cache_buffer` or leaves it as it is. -/
theorem CacheState.Keeps.other {file' : FileRef} {object : Option FileObject} (hs : s.Keeps file)
    (hne : file ≠ file') (hobjects : s'.objects = Function.update s.objects file' object)
    (hsame : ∀ f, s.objects file = some (.reading f) → SameFile s.disk s'.disk f.path)
    (hcache : s'.lastUser = none ∨ s'.lastUser = some file' ∨
      s'.lastUser = s.lastUser ∧ s'.buffer = s.buffer) :
    s'.Keeps file := by
  refine hs.frame (by rw [hobjects, Function.update_of_ne hne]) hsame fun hlast => ?_
  rcases hcache with h | h | ⟨h, hbuffer⟩
  · cases h.symm.trans hlast
  · exact absurd (Option.some.inj (hlast.symm.trans h)) hne
  · exact ⟨h.symm.trans hlast, hbuffer⟩

/-- The object is not open for reading any more, or not yet. -/
theorem CacheState.Keeps.update {object : Option FileObject}
    (hobjects : s'.objects = Function.update s.objects file object)
    (h : ∀ f, object ≠ some (.reading f)) : s'.Keeps file := by
  refine .of_closed fun f hf => h f ?_
  rwa [hobjects, Function.update_self] at hf

/-- A read through a true record. -/
theorem CacheState.readFile_spec (hcfg : 144 ≤ cfg.blockSize.toNat) {f : File} {entry : Struct}
    {size : Nat} {result : ReadResult size} (hentry : s.disk.dir f.path = some entry)
    (hopen : f.OpenOn entry) (hplace : f.cursor.InPlace cfg s.disk.dev entry)
    (hholds : Holds cfg s.disk.dev entry ⟨f.cursor, s.buffer⟩)
    (h : s.readFile file f result = some s') :
    ∃ bytes cursor, bytes = ((entry.content cfg s.disk.dev).drop f.cursor.pos).take size ∧
      result.Reports (.ok bytes) ∧ cursor.pos = f.cursor.pos + bytes.length ∧
      cursor.InPlace cfg s.disk.dev entry ∧ Holds cfg s.disk.dev entry ⟨cursor, s'.buffer⟩ ∧
      s' = { s with
        buffer := s'.buffer
        objects := Function.update s.objects file (some (.reading { f with cursor }))
        lastUser := some file } := by
  have hread := yields_fileFlushedread hcfg hopen hentry size
    (s := ⟨f.cursor, s.buffer⟩) hplace hholds
  unfold Yields at hread
  unfold readFile at h
  -- the loop's result, whatever it is, satisfies its specification
  generalize (fileFlushedread s.disk f size).run.run ⟨f.cursor, s.buffer⟩ = y at *
  obtain ⟨r, behind⟩ := y
  obtain ⟨bytes, hbytes, hr, hpos, hplace', hholds'⟩ := hread
  dsimp only at h hr hpos hplace' hholds'
  subst hr
  split at h
  · next hreports =>
    obtain rfl := Option.some.inj h
    exact ⟨bytes, behind.cursor, hbytes, hreports, hpos, hplace', hholds', rfl⟩
  · cases h

theorem CacheState.Keeps.openFile {left : WriteEffect cfg} {file' : FileRef} {path : List UInt8}
    {flags : OpenFlags} {err : Int} (hs : s.Keeps file)
    (hsame : ∀ f, s.objects file = some (.reading f) → SameFile s.disk s'.disk f.path)
    (h : s.openFile left file' path flags err = some s') : s'.Keeps file := by
  unfold CacheState.openFile at h
  dsimp only at h
  by_cases hfile : file = file'
  · subst hfile
    split at h
    · obtain rfl := Option.some.inj h
      exact .update rfl nofun
    split at h
    · obtain ⟨entry, hentry, rfl⟩ := Option.map_eq_some_iff.mp h
      obtain ⟨hpath, hopen, hplace, hholds⟩ :=
        openRdonly_spec s.disk path entry s.buffer
      intro f hf
      dsimp only at hf
      rw [Function.update_self] at hf
      obtain rfl := FileObject.reading.inj (Option.some.inj hf)
      exact ⟨entry, by rw [hpath]; exact hentry, hopen, hplace, fun _ => hholds⟩
    · obtain rfl := Option.some.inj h
      exact .update rfl nofun
  · -- another handle is opened
    split at h
    · obtain rfl := Option.some.inj h
      exact hs.other hfile rfl hsame (Or.inl rfl)
    split at h
    · obtain ⟨entry, _, rfl⟩ := Option.map_eq_some_iff.mp h
      exact hs.other hfile rfl hsame (Or.inr (Or.inl rfl))
    · obtain rfl := Option.some.inj h
      exact hs.other hfile rfl hsame (Or.inr (Or.inl rfl))

/-- A call on an object that is open for writing, by whoever. -/
theorem CacheState.Keeps.writeWith {left : WriteEffect cfg} {file' : FileRef}
    {object : Option FileObject} (hs : s.Keeps file) (hobject : ∀ f, object ≠ some (.reading f))
    (hsame : ∀ f, s.objects file = some (.reading f) →
      SameFile s.disk (s.writeWith left file' object).disk f.path) :
    (s.writeWith left file' object).Keeps file := by
  by_cases hfile : file = file'
  · subst hfile
    exact .update rfl hobject
  · exact hs.other hfile rfl hsame (Or.inr (Or.inl rfl))

theorem CacheState.readFile_user {f : File} {size : Nat} {result : ReadResult size}
    (h : s.readFile file f result = some s') :
    ∃ object, s'.objects = Function.update s.objects file object ∧ s'.lastUser = some file := by
  unfold readFile at h
  split at h
  split at h
  · obtain rfl := Option.some.inj h
    exact ⟨_, rfl, rfl⟩
  · cases h

theorem CacheState.Keeps.seekFile {file' : FileRef} {f : File} {off whence : Int32} {n : Int}
    (hs : s.Keeps file) (hf : s.objects file' = some (.reading f))
    (hsame : ∀ f, s.objects file = some (.reading f) → SameFile s.disk s'.disk f.path)
    (h : s.seekFile file' f off whence n = some s') : s'.Keeps file := by
  unfold CacheState.seekFile at h
  dsimp only at h
  split at h
  · obtain rfl := Option.some.inj h
    by_cases hfile : file = file'
    · subst hfile
      obtain ⟨entry, hentry, hopen, hplace, hholds⟩ := hs f hf
      obtain ⟨hpath, hopen', hplace', hholds'⟩ :=
        fileSeek_spec off whence hopen hplace
      intro f' hf'
      dsimp only at hf'
      rw [Function.update_self] at hf'
      obtain rfl := FileObject.reading.inj (Option.some.inj hf')
      exact ⟨entry, by rw [hpath]; exact hentry, hopen', hplace', fun h => hholds' _ (hholds h)⟩
    · exact hs.other hfile rfl hsame (Or.inr (Or.inr ⟨rfl, rfl⟩))
  · cases h

/-- A step keeps the object in its place and its record true. -/
theorem cacheLfs_keeps (hcfg : 144 ≤ cfg.blockSize.toNat) {e : LfsEvent} (hs : s.Keeps file)
    (hok : Undisturbed resolve effects file s e) (hstep : cacheLfs resolve effects s e = some s') :
    s'.Keeps file := by
  have hsame := hok.unwritten s' hstep
  have hcached := hok.cached
  obtain ⟨c, r⟩ := e
  -- the calls so far are nothing an object depends on
  have hs : CacheState.Keeps { s with calls := ⟨c, r⟩ :: s.calls } file := hs
  cases c with
  | mount =>
    obtain rfl := Option.some.inj hstep
    exact .of_closed nofun
  | format =>
    obtain rfl := Option.some.inj hstep
    exact .of_closed nofun
  | unmount | fsSize | getattr | dirOpen | dirRead | dirClose | setattr | remove =>
    obtain rfl := Option.some.inj hstep
    exact hs.frame rfl hsame fun h => ⟨h, rfl⟩
  | fileOpencfg file' path flags => exact hs.openFile hsame hstep
  | fileClose file' =>
    simp only [cacheLfs] at hstep
    split at hstep
    · cases hstep
    · obtain rfl := Option.some.inj hstep
      by_cases hfile : file = file'
      · subst hfile
        exact .update rfl nofun
      · exact hs.other hfile rfl hsame (Or.inr (Or.inr ⟨rfl, rfl⟩))
    · obtain rfl := Option.some.inj hstep
      exact hs.writeWith nofun hsame
  | fileRead file' size =>
    simp only [cacheLfs] at hstep
    split at hstep
    · next f hf =>
      by_cases hfile : file = file'
      · subst hfile
        obtain ⟨entry, hentry, hopen, hplace, hholds⟩ := hs f hf
        have hholds := (hcached size rfl).elim hholds fun h => h f entry hf hentry
        obtain ⟨bytes, cursor, _, _, _, hplace', hholds', hs'⟩ :=
          CacheState.readFile_spec hcfg hentry hopen hplace hholds hstep
        rw [hs']
        intro f' hf'
        dsimp only at hf'
        rw [Function.update_self] at hf'
        obtain rfl := FileObject.reading.inj (Option.some.inj hf')
        exact ⟨entry, hentry, hopen.of_cursor cursor, hplace', fun _ => hholds'⟩
      · obtain ⟨object, hobjects, hlast⟩ := CacheState.readFile_user hstep
        exact hs.other hfile hobjects hsame (Or.inr (Or.inl hlast))
    · cases hstep
  | fileWrite file' data =>
    simp only [cacheLfs] at hstep
    split at hstep
    · obtain rfl := Option.some.inj hstep
      exact hs.writeWith nofun hsame
    · cases hstep
  | fileSize file' =>
    simp only [cacheLfs] at hstep
    split at hstep
    · cases hstep
    · split at hstep
      · obtain rfl := Option.some.inj hstep
        exact hs.frame rfl hsame fun h => ⟨h, rfl⟩
      · cases hstep
    · obtain rfl := Option.some.inj hstep
      exact hs.frame rfl hsame fun h => ⟨h, rfl⟩
  | fileSeek file' off whence =>
    simp only [cacheLfs] at hstep
    split at hstep
    · cases hstep
    · next f hf => exact hs.seekFile hf hsame hstep
    · obtain rfl := Option.some.inj hstep
      exact hs.writeWith nofun hsame
  | fileTell file' =>
    simp only [cacheLfs] at hstep
    split at hstep
    · cases hstep
    · split at hstep
      · obtain rfl := Option.some.inj hstep
        exact hs.frame rfl hsame fun h => ⟨h, rfl⟩
      · cases hstep
    · obtain rfl := Option.some.inj hstep
      exact hs.frame rfl hsame fun h => ⟨h, rfl⟩

/-- And so do the calls of an operation, and of a run of operations. -/
theorem run_cacheLfs_keeps (hcfg : 144 ≤ cfg.blockSize.toNat) {t : List LfsEvent}
    (hs : s.Keeps file) (hok : AllSteps (cacheLfs resolve effects)
      (Undisturbed resolve effects file) s t)
    (hrun : run (cacheLfs resolve effects) s t = some s') : s'.Keeps file :=
  invariant _ (fun _ _ _ hok hs hstep => cacheLfs_keeps hcfg hs hok hstep) hok hrun hs

/-- The operation's calls do not disturb the object. -/
def UndisturbedOp (resolve : List UInt8 → List UInt8) (effects : List LfsEvent → WriteEffect cfg)
    (file : FileRef) (s : FilesysState (CacheState cfg)) (e : FilesysEvent) : Prop :=
  AllSteps (cacheLfs resolve effects) (Undisturbed resolve effects file) s.lfs e.trace

theorem filesys_keeps (hcfg : 144 ≤ cfg.blockSize.toNat) {s s' : FilesysState (CacheState cfg)}
    {es : List FilesysEvent} (hs : s.lfs.Keeps file)
    (hok : AllSteps (filesysStep (cacheLfs resolve effects) cfg)
      (UndisturbedOp resolve effects file) s es)
    (hrun : run (filesysStep (cacheLfs resolve effects) cfg) s es = some s') :
    s'.lfs.Keeps file := by
  refine invariant _ (I := fun s => s.lfs.Keeps file) (fun s e s' hok hs hstep => ?_) hok hrun hs
  obtain ⟨_, hcalls⟩ := (filesysStep_eq_some _ _).mp hstep
  exact run_cacheLfs_keeps hcfg hs hok hcalls

/-! ## Isolation -/

/-- The next bytes of the handle's own file, from its position on. -/
def CacheState.ownBytes (s : CacheState cfg) (file : FileRef) (size : UInt32) :
    Option (List UInt8) :=
  match s.objects file with
  | some (.reading f) =>
    (s.disk.dir f.path).map fun entry =>
      ((entry.content cfg s.disk.dev).drop f.cursor.pos).take size.toNat
  | _ => none

/-- The position of a handle. -/
def CacheState.position (s : CacheState cfg) (file : FileRef) : Option Nat :=
  match s.objects file with
  | some (.reading f) => some f.cursor.pos
  | _ => none

/-- A `lfs_file_read` through a record that is true. -/
theorem cacheLfs_fileRead (hcfg : 144 ≤ cfg.blockSize.toNat) (hs : s.Keeps file) {size : UInt32}
    {result : ReadResult size.toNat} (hcached : s.lastUser = some file ∨ s.RecordTrue file)
    (hstep : cacheLfs resolve effects s ⟨LfsCall.fileRead file size, result⟩ = some s') :
    ∃ bytes pos, s.ownBytes file size = some bytes ∧ result.Reports (.ok bytes) ∧
      s.position file = some pos ∧ s'.position file = some (pos + bytes.length) := by
  simp only [cacheLfs] at hstep
  split at hstep
  · next f hf =>
    obtain ⟨entry, hentry, hopen, hplace, hholds⟩ := hs f hf
    have hholds := hcached.elim hholds fun h => h f entry hf hentry
    obtain ⟨bytes, cursor, hbytes, hreports, hpos, _, _, hs'⟩ :=
      CacheState.readFile_spec (s := { s with calls := ⟨LfsCall.fileRead file size, result⟩ :: s.calls })
        hcfg hentry hopen hplace hholds hstep
    refine ⟨bytes, f.cursor.pos, ?_, hreports, ?_, ?_⟩
    · simp only [CacheState.ownBytes, hf, hentry, Option.map_some, hbytes]
    · simp only [CacheState.position, hf]
    · rw [hs']
      simp only [CacheState.position, Function.update_self, hpos]
  · cases hstep

end Machine

/-- **Isolation of open read handles.** In every run of operations, on any number of files,
that do not write to the handle's file, every `filesys_read_data` returns the bytes of the
handle's own file at its current position, and goes on behind them, if at every
`filesys_read_data` on the handle no other file object has used `cache_buffer` since the handle
did, or what the handle remembers of it is true all the same. -/
theorem reads_own_file {cfg : LfsConfig} (hcfg : 144 ≤ cfg.blockSize.toNat)
    (resolve : List UInt8 → List UInt8) (effects : List LfsEvent → WriteEffect cfg) (n : Nat)
    (size : UInt32) {s s' : FilesysState (CacheState cfg)} (es : List FilesysEvent)
    {e : FilesysEvent} (hs : s.lfs.objects = fun _ => none) (he : e.op = .readData n size)
    (hok : AllSteps (filesysStep (cacheLfs resolve effects) cfg)
      (UndisturbedOp resolve effects (.caller n)) s (es ++ [e]))
    (hrun : run (filesysStep (cacheLfs resolve effects) cfg) s (es ++ [e]) = some s') :
    ∃ s₁ bytes pos, run (filesysStep (cacheLfs resolve effects) cfg) s es = some s₁ ∧
      s₁.lfs.ownBytes (.caller n) size = some bytes ∧ e.result.data = some bytes ∧
      s₁.lfs.position (.caller n) = some pos ∧
      s'.lfs.position (.caller n) = some (pos + bytes.length) := by
  obtain ⟨s₁, hrun₁, hlast⟩ := run_append_some _ hrun
  -- what the handle keeps up to the last read
  have hkeeps : s₁.lfs.Keeps (.caller n) := by
    refine filesys_keeps hcfg (.of_closed ?_) hok.of_append hrun₁
    rw [hs]
    exact fun _ => nofun
  have hundisturbed := (hok.append_right _ hrun₁).1
  obtain ⟨s₂, hstep, hnil⟩ := run_cons_some _ hlast
  obtain rfl : s₂ = s' := Option.some.inj hnil
  obtain ⟨op, t, r⟩ := e
  obtain rfl : op = .readData n size := he
  obtain ⟨hreplay, hcalls⟩ := (filesysStep_eq_some _ _).mp hstep
  obtain ⟨⟨error, data, code⟩, hread, rfl⟩ := replay_bind_pure hreplay
  obtain ⟨res, u, rfl, hu⟩ := replay_perform_bind.mp hread
  -- nobody else used the cache since, so its bytes are this file's
  have hcached := hundisturbed.1.cached size rfl
  obtain ⟨l, hcall, hrest⟩ := run_cons_some _ hcalls
  obtain ⟨bytes, pos, hbytes, hreports, hpos, hpos'⟩ :=
    cacheLfs_fileRead hcfg hkeeps hcached hcall
  cases res with
  | failed code hneg => cases hreports
  | read bytes' hle =>
    obtain rfl : bytes' = bytes := hreports
    have hcode : ¬(ReadResult.read bytes' hle).code < 0 := Int.not_lt.mpr (Int.natCast_nonneg _)
    rw [if_neg hcode] at hu
    obtain ⟨rfl, hresult⟩ := replay_pure.mp hu
    obtain rfl : l = s₂.lfs := Option.some.inj hrest
    simp only [Prod.mk.injEq] at hresult
    exact ⟨s₁, bytes', pos, hrun₁, hbytes, hresult.1.2.1, hpos, hpos'⟩

/-! ## Two open files -/

/-- A disk with the inline files `"a"` and `"b"`, of one byte each. -/
def sampleDisk : Disk mramConfig where
  dev := fun _ _ => 0xFF
  dir := fun path =>
    if path = [0x61] then some (.inlineStruct [1] (by decide))
    else if path = [0x62] then some (.inlineStruct [2] (by decide))
    else none
  onDevice := by
    intro path head size h
    split at h
    · cases h
    split at h
    · cases h
    · cases h

/-- Behind the start: nothing is open. -/
def sampleCacheState : FilesysState (CacheState mramConfig) :=
  ⟨.atBoot, ⟨sampleDisk, fun _ => 0, fun _ => none, none, []⟩⟩

/-- A disk that nothing is written to. -/
def sampleEffects (_ : List LfsEvent) : WriteEffect mramConfig := ⟨sampleDisk, fun _ => 0⟩

/-- The file `name` of the one byte `b` is opened for reading, as `file`. -/
def sampleOpenRead (file : Nat) (name b : UInt8) : FilesysEvent :=
  ⟨.openFileRead file [name],
    [⟨LfsCall.fileOpencfg .getFileInfo [name] .rdonly, (0 : Int)⟩,
      ⟨LfsCall.fileSize .getFileInfo, (1 : Int)⟩, ⟨LfsCall.fileClose .getFileInfo, (0 : Int)⟩,
      ⟨LfsCall.getattr [name], (⟨4, crc32 [b]⟩ : AttrResult)⟩,
      ⟨LfsCall.fileOpencfg .computeFileCrc [name] .rdonly, (0 : Int)⟩,
      ⟨LfsCall.fileRead .computeFileCrc 1, (.read [b] (Nat.le_refl 1) : ReadResult 1)⟩,
      ⟨LfsCall.fileClose .computeFileCrc, (0 : Int)⟩,
      ⟨LfsCall.fileOpencfg (.caller file) [name] .rdonly, (0 : Int)⟩],
    { error := .ok, lfsErrorCode := 0,
      info := some ⟨#v[name, 0, 0], 1, crc32 [b], crc32 [b], 7⟩ }⟩

/-- One byte is read through `file`, and it is `b`. -/
def sampleRead (file : Nat) (b : UInt8) : FilesysEvent :=
  ⟨.readData file 1,
    [⟨LfsCall.fileRead (.caller file) 1, (.read [b] (Nat.le_refl 1) : ReadResult 1)⟩],
    { error := .ok, lfsErrorCode := 0, data := some [b] }⟩

/-- The call reads through the object. -/
def LfsCall.readsFrom (file : FileRef) : LfsCall → Bool
  | .fileRead file' _ => file' = file
  | _ => false

section Still

variable {cfg : LfsConfig} {resolve : List UInt8 → List UInt8}
  {effects : List LfsEvent → WriteEffect cfg} {s s' : CacheState cfg} {file : FileRef}

theorem CacheState.openFile_disk {left : WriteEffect cfg} {path : List UInt8} {flags : OpenFlags}
    {err : Int} (h : s.openFile left file path flags err = some s') :
    s'.disk = s.disk ∨ s'.disk = left.disk := by
  have hdisk : (if flags = .rdonly then s.disk else left.disk) = s.disk ∨
      (if flags = .rdonly then s.disk else left.disk) = left.disk := by
    split
    · exact Or.inl rfl
    · exact Or.inr rfl
  unfold openFile at h
  dsimp only at h
  split at h
  · obtain rfl := Option.some.inj h
    exact hdisk
  split at h
  · obtain ⟨entry, _, rfl⟩ := Option.map_eq_some_iff.mp h
    exact Or.inl rfl
  · obtain rfl := Option.some.inj h
    exact Or.inr rfl

theorem CacheState.readFile_disk {f : File} {size : Nat} {result : ReadResult size}
    (h : s.readFile file f result = some s') : s'.disk = s.disk := by
  unfold readFile at h
  split at h
  split at h
  · obtain rfl := Option.some.inj h
    rfl
  · cases h

theorem CacheState.seekFile_disk {f : File} {off whence : Int32} {n : Int}
    (h : s.seekFile file f off whence n = some s') : s'.disk = s.disk := by
  unfold seekFile at h
  split at h
  split at h
  · obtain rfl := Option.some.inj h
    rfl
  · cases h

/-- A step leaves the disk alone, or as a call that writes does. -/
theorem cacheLfs_disk {e : LfsEvent} (h : cacheLfs resolve effects s e = some s') :
    s'.disk = s.disk ∨ s'.disk = (effects (e :: s.calls)).disk := by
  obtain ⟨c, r⟩ := e
  cases c with
  -- calls that only read
  | mount | unmount | fsSize | getattr | dirOpen | dirRead | dirClose =>
    obtain rfl := Option.some.inj h
    exact Or.inl rfl
  -- calls that write to the disk
  | format | setattr | remove =>
    obtain rfl := Option.some.inj h
    exact Or.inr rfl
  | fileOpencfg =>
    have hdisk := CacheState.openFile_disk h
    exact hdisk
  | fileRead =>
    simp only [cacheLfs] at h
    split at h
    · have hdisk := CacheState.readFile_disk h
      exact Or.inl hdisk
    · cases h
  | fileWrite =>
    simp only [cacheLfs] at h
    split at h
    · obtain rfl := Option.some.inj h
      exact Or.inr rfl
    · cases h
  | fileClose =>
    simp only [cacheLfs] at h
    split at h
    · cases h
    · obtain rfl := Option.some.inj h
      exact Or.inl rfl
    · obtain rfl := Option.some.inj h
      exact Or.inr rfl
  | fileSeek =>
    simp only [cacheLfs] at h
    split at h
    · cases h
    · have hdisk := CacheState.seekFile_disk h
      exact Or.inl hdisk
    · obtain rfl := Option.some.inj h
      exact Or.inr rfl
  | fileSize | fileTell =>
    simp only [cacheLfs] at h
    split at h
    · cases h
    · split at h
      · obtain rfl := Option.some.inj h
        exact Or.inl rfl
      · cases h
    · obtain rfl := Option.some.inj h
      exact Or.inl rfl

/-- Where no call changes the disk, only what else uses `cache_buffer` disturbs an object. -/
theorem undisturbed_of_still {d : Disk cfg} (heffects : ∀ calls, (effects calls).disk = d)
    {e : LfsEvent} (hs : s.disk = d)
    (hcached : ∀ size, e.call = .fileRead file size → s.lastUser = some file) :
    Undisturbed resolve effects file s e := by
  refine ⟨fun s' hstep f _ => ?_, fun size he => Or.inl (hcached size he)⟩
  have hdisk : s'.disk = s.disk := (cacheLfs_disk hstep).elim id fun h =>
    (h.trans (heffects _)).trans hs.symm
  rw [hdisk]
  exact .refl _ _

theorem run_still {d : Disk cfg} (heffects : ∀ calls, (effects calls).disk = d)
    {t : List LfsEvent} (hs : s.disk = d) (h : run (cacheLfs resolve effects) s t = some s') :
    s'.disk = d :=
  invariant' _ (fun _ _ _ hs hstep =>
    (cacheLfs_disk hstep).elim (fun h => h.trans hs) fun h => h.trans (heffects _)) h hs

theorem run_undisturbed {d : Disk cfg} (heffects : ∀ calls, (effects calls).disk = d)
    {t : List LfsEvent} (hs : s.disk = d) (ht : ∀ e ∈ t, e.call.readsFrom file = false) :
    AllSteps (cacheLfs resolve effects) (Undisturbed resolve effects file) s t := by
  induction t generalizing s with
  | nil => trivial
  | cons e t ih =>
    refine ⟨undisturbed_of_still heffects hs fun size he => ?_, fun s' hstep => ih ?_ ?_⟩
    · have hreads := ht e List.mem_cons_self
      rw [he, LfsCall.readsFrom, decide_eq_false_iff_not] at hreads
      exact absurd rfl hreads
    · exact (cacheLfs_disk hstep).elim (fun h => h.trans hs) fun h => h.trans (heffects _)
    · exact fun e' he' => ht e' (List.mem_cons_of_mem _ he')

end Still

/-- A handle that nothing else was opened behind reads its file. -/
theorem reads_own_file_alone :
    ∃ s₁ bytes pos, run (filesysStep (cacheLfs id sampleEffects) mramConfig) sampleCacheState
        [sampleInit, sampleOpenRead 1 0x61 1] = some s₁ ∧
      s₁.lfs.ownBytes (.caller 1) 1 = some bytes ∧ (sampleRead 1 1).result.data = some bytes ∧
      s₁.lfs.position (.caller 1) = some pos := by
  have hrun : (run (filesysStep (cacheLfs id sampleEffects) mramConfig) sampleCacheState
      ([sampleInit, sampleOpenRead 1 0x61 1] ++ [sampleRead 1 1])).isSome = true := by
    decide +kernel
  have hlast : (run (filesysStep (cacheLfs id sampleEffects) mramConfig) sampleCacheState
      [sampleInit, sampleOpenRead 1 0x61 1]).all (fun s =>
        decide (s.lfs.lastUser = some (.caller 1))) = true := by
    decide +kernel
  obtain ⟨s', hs'⟩ := Option.isSome_iff_exists.mp hrun
  -- no call of this run writes
  have hstill {s₁ s₂ : FilesysState (CacheState mramConfig)} {e : FilesysEvent}
      (hs : s₁.lfs.disk = sampleDisk)
      (h : filesysStep (cacheLfs id sampleEffects) mramConfig s₁ e = some s₂) :
      s₂.lfs.disk = sampleDisk :=
    run_still (fun _ => rfl) hs ((filesysStep_eq_some _ _).mp h).2
  have hok : AllSteps (filesysStep (cacheLfs id sampleEffects) mramConfig)
      (UndisturbedOp id sampleEffects (.caller 1)) sampleCacheState
      ([sampleInit, sampleOpenRead 1 0x61 1] ++ [sampleRead 1 1]) := by
    refine ⟨run_undisturbed (fun _ => rfl) rfl ?_, fun s₁ h₁ =>
      ⟨run_undisturbed (fun _ => rfl) (hstill rfl h₁) ?_, fun s₂ h₂ =>
        ⟨⟨undisturbed_of_still (fun _ => rfl) (hstill (hstill rfl h₁) h₂) fun _ _ => ?_,
          fun _ _ => trivial⟩, fun _ _ => trivial⟩⟩⟩
    · exact List.forall_mem_singleton.mpr rfl
    · simp [sampleOpenRead, LfsCall.readsFrom]
    · have hrun₂ : run (filesysStep (cacheLfs id sampleEffects) mramConfig) sampleCacheState
          [sampleInit, sampleOpenRead 1 0x61 1] = some s₂ := by
        rw [run_cons, h₁, Option.bind_some, run_cons, h₂]
        rfl
      rw [hrun₂] at hlast
      exact of_decide_eq_true hlast
  obtain ⟨s₁, bytes, pos, hrun₁, hown, hdata, hpos, _⟩ :=
    reads_own_file (by decide) id sampleEffects 1 1 [sampleInit, sampleOpenRead 1 0x61 1] rfl rfl
      hok hs'
  exact ⟨s₁, bytes, pos, hrun₁, hown, hdata, hpos⟩

/-- **A handle returns another file's byte**: with `"a"` and `"b"` open and no write at all, the
first read through the handle of `"a"` returns the byte of `"b"`. -/
theorem read_returns_other_file :
    ∃ s s', run (filesysStep (cacheLfs id sampleEffects) mramConfig) sampleCacheState
        [sampleInit, sampleOpenRead 1 0x61 1, sampleOpenRead 2 0x62 2] = some s ∧
      filesysStep (cacheLfs id sampleEffects) mramConfig s (sampleRead 1 2) = some s' ∧
      s.lfs.ownBytes (.caller 1) 1 = some [1] ∧ (sampleRead 1 2).result.data = some [2] := by
  have hrun : (run (filesysStep (cacheLfs id sampleEffects) mramConfig) sampleCacheState
      [sampleInit, sampleOpenRead 1 0x61 1, sampleOpenRead 2 0x62 2]).any (fun s =>
        (filesysStep (cacheLfs id sampleEffects) mramConfig s (sampleRead 1 2)).isSome &&
          decide (s.lfs.ownBytes (.caller 1) 1 = some [1])) = true := by
    decide +kernel
  obtain ⟨s, hs, hread⟩ := (Option.any_eq_true _ _).mp hrun
  rw [Bool.and_eq_true, decide_eq_true_eq, Option.isSome_iff_exists] at hread
  obtain ⟨⟨s', hs'⟩, hown⟩ := hread
  exact ⟨s, s', hs, hs', hown, rfl⟩

end Samwise
