import Samwise.Filesys.ErrorReports

/-!
# Samwise — the listing of the root directory

`filesys_list_files` over a littlefs with a root directory: `lfs_dir_read` hands out `.` and
`..`, then the entries in their order, and any call may fail. `Truthful` says what the flags of
an entry mean on such a littlefs. Checking a file does not touch the directory and leaves all
files as they are, so what the loop has found is a front of the regular files.
-/

namespace Samwise

open Interaction Memory Prog Run

/-! ## The directory -/

/-- `LFS_TYPE_DIR`. -/
def lfsTypeDir : UInt8 := 2

/-- What `lfs_dir_read` hands out of the root directory, where `stored` are the files and
directories in it. -/
def rootEntries (stored : List LfsInfo) : List LfsInfo :=
  ⟨lfsTypeDir, [0x2E]⟩ :: ⟨lfsTypeDir, [0x2E, 0x2E]⟩ :: stored

/-- The files, and the entries behind the position of the open directory. -/
structure DirStore where
  store : FileStore
  rest : List LfsInfo

/-- `lfs_dir_read`: the next entry, or 0 behind the last one. -/
def DirStore.readDir (s : DirStore) (result : DirResult) : Option DirStore :=
  if result.code < 0 then some s
  else
    match s.rest with
    | [] => if result.code = 0 then some s else none
    | entry :: rest =>
      if result.code = 1 ∧ result.info = entry then some { s with rest } else none

/-- A store of files with a root directory. -/
def dirLfs (resolve : List UInt8 → List UInt8) (entries : List LfsInfo) (s : DirStore) :
    LfsEvent → Option DirStore
  | ⟨.dirOpen _, err⟩ =>
    if (show Int from err) < 0 then some s else some { s with rest := entries }
  | ⟨.dirRead, result⟩ => s.readDir (show DirResult from result)
  | e => (storeLfs resolve s.store e).map fun store => { s with store }

section Directory

variable {resolve : List UInt8 → List UInt8} {entries : List LfsInfo} {s s' : DirStore}

/-- A call on a file does nothing to the directory. -/
theorem dirLfs_of_file {e : LfsEvent} (he : LfsCall.ofDirectory e.call = false) :
    dirLfs resolve entries s e = (storeLfs resolve s.store e).map fun store => { s with store } := by
  obtain ⟨c, r⟩ := e
  cases c with
  | dirOpen _ | dirRead | dirClose => cases he
  | _ => rfl

theorem run_dirLfs_of_file {t : List LfsEvent}
    (ht : ∀ e ∈ t, LfsCall.ofDirectory e.call = false)
    (h : run (dirLfs resolve entries) s t = some s') :
    run (storeLfs resolve) s.store t = some s'.store ∧ s'.rest = s.rest := by
  induction t generalizing s with
  | nil =>
    obtain rfl := Option.some.inj h
    exact ⟨rfl, rfl⟩
  | cons e t ih =>
    obtain ⟨s₁, he, hrest⟩ := run_cons_some _ h
    rw [dirLfs_of_file (ht e List.mem_cons_self)] at he
    obtain ⟨store, hstore, rfl⟩ := Option.map_eq_some_iff.mp he
    obtain ⟨hrun, heq⟩ := ih (fun e' he' => ht e' (List.mem_cons_of_mem _ he')) hrest
    rw [run_cons, hstore]
    exact ⟨hrun, heq⟩

/-- An entry that was read is the next one. -/
theorem readDir_cases {result : DirResult} (h : s.readDir result = some s')
    (hcode : ¬result.code < 0) :
    (result.code = 0 ∧ s.rest = [] ∧ s' = s) ∨
      ∃ rest, s.rest = result.info :: rest ∧ result.code ≠ 0 ∧ s' = { s with rest } := by
  unfold DirStore.readDir at h
  rw [if_neg hcode] at h
  cases hrest : s.rest with
  | nil =>
    simp only [hrest] at h
    split at h
    · next hzero => exact Or.inl ⟨hzero, rfl, (Option.some.inj h).symm⟩
    · cases h
  | cons entry rest =>
    simp only [hrest] at h
    split at h
    · next hone =>
      refine Or.inr ⟨rest, by rw [hone.2], ?_, (Option.some.inj h).symm⟩
      rw [hone.1]
      decide
    · cases h

end Directory

/-! ## Checking leaves the files alone -/

/-- The object has no bytes to commit. -/
def FileStore.Clean (s : FileStore) (file : FileRef) : Prop :=
  ∀ o, s.handles file = some o → o.dirty = false

/-- The call reads through the object, or asks for an attribute. -/
def LfsCall.readsThrough (file : FileRef) : LfsCall → Bool
  | .fileOpencfg f _ .rdonly | .fileRead f _ | .fileSize f | .fileClose f => f = file
  | .getattr _ => true
  | _ => false

section Clean

variable {resolve : List UInt8 → List UInt8} {s s' : FileStore} {file : FileRef}

theorem FileStore.Clean.update {o : OpenFile} (ho : o.dirty = false)
    (h : s'.handles = Function.update s.handles file (some o)) : s'.Clean file := by
  intro o' ho'
  rw [h, Function.update_self] at ho'
  obtain rfl := Option.some.inj ho'
  exact ho

theorem FileStore.Clean.closed (h : s'.handles = Function.update s.handles file none) :
    s'.Clean file := by
  intro o ho
  rw [h, Function.update_self] at ho
  cases ho

/-- An object is clean from the moment it is opened for reading. -/
theorem storeLfs_open_clean {path : List UInt8} {err : Int}
    (h : storeLfs resolve s (called (.fileOpencfg file path .rdonly) err) = some s') :
    s'.files = s.files ∧ s'.Clean file := by
  by_cases herr : err < 0
  · rw [storeLfs_fileOpencfg, if_pos herr] at h
    obtain rfl := Option.some.inj h
    exact ⟨rfl, .closed rfl⟩
  · obtain ⟨e, _, rfl⟩ := storeLfs_open_rdonly herr h
    exact ⟨rfl, .update (o := { path := resolve path, flags := .rdonly, content := e.content })
      rfl rfl⟩

/-- Reading through a clean object keeps it clean. -/
theorem FileStore.Clean.readFile {size : Nat} {result : ReadResult size} (hs : s.Clean file)
    (h : s.readFile file result = some s') : s'.files = s.files ∧ s'.Clean file := by
  unfold FileStore.readFile at h
  cases hfile : s.handles file with
  | none => simp [hfile] at h
  | some o =>
    rw [hfile] at h
    have ho : o.dirty = false := hs o hfile
    dsimp only at h
    split at h
    · cases h
    cases result with
    | failed _ _ =>
      obtain rfl := Option.some.inj h
      exact ⟨rfl, hs⟩
    | read bytes _ =>
      dsimp only at h
      split at h
      · split at h
        · obtain rfl := Option.some.inj h
          exact ⟨rfl, .update (o := { o with pos := o.pos + bytes.length }) ho rfl⟩
        · cases h
      · obtain rfl := Option.some.inj h
        exact ⟨rfl, .update (o := { o with pos := o.pos + bytes.length }) ho rfl⟩

/-- Closing it commits nothing. -/
theorem FileStore.Clean.closeFile {err : Int} (hs : s.Clean file)
    (h : s.closeFile file err = some s') : s'.files = s.files ∧ s'.Clean file := by
  unfold FileStore.closeFile at h
  cases hfile : s.handles file with
  | none => simp [hfile] at h
  | some o =>
    rw [hfile] at h
    simp only [hs o hfile, true_or, or_true, if_true] at h
    obtain rfl := Option.some.inj h
    exact ⟨rfl, .closed rfl⟩

theorem storeLfs_clean {e : LfsEvent} (hs : s.Clean file)
    (he : LfsCall.readsThrough file e.call = true) (h : storeLfs resolve s e = some s') :
    s'.files = s.files ∧ s'.Clean file := by
  obtain ⟨c, r⟩ := e
  have stays {p : Prop} {_ : Decidable p} (h : (if p then some s else none) = some s') :
      s'.files = s.files ∧ s'.Clean file := by
    split at h
    · obtain rfl := Option.some.inj h
      exact ⟨rfl, hs⟩
    · cases h
  cases c with
  | fileOpencfg f path flags =>
    cases flags with
    | rdonly =>
      obtain rfl : f = file := of_decide_eq_true he
      exact storeLfs_open_clean h
    | _ => cases he
  | fileRead f size =>
    obtain rfl : f = file := of_decide_eq_true he
    exact hs.readFile h
  | fileSize f =>
    obtain ⟨o, _, h⟩ := Option.bind_eq_some_iff.mp h
    exact stays h
  | fileClose f =>
    obtain rfl : f = file := of_decide_eq_true he
    exact hs.closeFile h
  | getattr path => exact stays h
  | _ => cases he

theorem run_storeLfs_clean {t : List LfsEvent} (hs : s.Clean file)
    (ht : ∀ e ∈ t, LfsCall.readsThrough file e.call = true)
    (h : run (storeLfs resolve) s t = some s') : s'.files = s.files ∧ s'.Clean file := by
  induction t generalizing s with
  | nil =>
    obtain rfl := Option.some.inj h
    exact ⟨rfl, hs⟩
  | cons e t ih =>
    obtain ⟨s₁, he, hrest⟩ := run_cons_some _ h
    obtain ⟨hfiles, hs₁⟩ := storeLfs_clean hs (ht e List.mem_cons_self) he
    obtain ⟨hfiles', hs'⟩ := ih hs₁ (fun e' he' => ht e' (List.mem_cons_of_mem _ he')) hrest
    exact ⟨hfiles'.trans hfiles, hs'⟩

theorem readsThrough_of_computesCrc {c : LfsCall} (h : c.computesCrc = true) :
    c.readsThrough .computeFileCrc = true := by
  cases c with
  | fileOpencfg file path flags =>
    cases file <;> cases flags <;> first | rfl | cases h
  | fileRead file n => cases file <;> first | rfl | cases h
  | fileClose file => cases file <;> first | rfl | cases h
  | _ => cases h

/-- A check of the CRC leaves every file as it is. -/
theorem run_filesysComputeFileCrc_files {fname : List UInt8} {fileSize : UInt32}
    {v w : FilesysVars} {t : List LfsEvent} {r : CrcOutcome}
    (hreplay : (filesysComputeFileCrc fname fileSize).replay v t = some (r, w))
    (hrun : run (storeLfs resolve) s t = some s') : s'.files = s.files := by
  have hcalls := (filesysComputeFileCrc_computesCrc fname fileSize v t r w hreplay).2
  obtain ⟨err, u, rfl, _⟩ := replay_filesysFileOpen_bind.mp hreplay
  obtain ⟨s₁, hopen, hrest⟩ := run_cons_some _ hrun
  obtain ⟨hfiles, hs₁⟩ := storeLfs_open_clean hopen
  have hu : ∀ e ∈ u, LfsCall.readsThrough .computeFileCrc e.call = true :=
    fun e he => readsThrough_of_computesCrc (hcalls e (List.mem_cons_of_mem _ he))
  exact (run_storeLfs_clean hs₁ hu hrest).1.trans hfiles

end Clean

/-! ## What an entry says -/

/-- The stored attribute of the file was read. -/
def AttrRead (name : List UInt8) (t : List LfsEvent) : Prop :=
  ∃ attr : AttrResult, called (.getattr name) attr ∈ t ∧ 0 ≤ attr.code

/-- `filesys_compute_file_crc` was called, and none of its calls failed. -/
def CrcComputed (t : List LfsEvent) : Prop :=
  (∃ e ∈ t, LfsCall.computesCrc e.call = true) ∧
    ∀ e ∈ t, LfsCall.computesCrc e.call = true → 0 ≤ LfsEvent.code e

/-- What `*info` says of a file, with the calls `t` of `filesys_get_file_info`: its name, and by
its flags what was read and computed. A CRC that was computed is that of the whole file. -/
structure Truthful (resolve : List UInt8 → List UInt8) (files : List UInt8 → Option FileEntry)
    (fname : List UInt8) (t : List LfsEvent) (info : FileInfo) : Prop where
  name : info.fname = (FileInfo.named fname).fname
  expected : info.has fileInfoExpectedCrcValid = true ↔ AttrRead fname t
  computed : info.has fileInfoComputedCrcValid = true ↔ CrcComputed t
  content : CrcComputed t →
    ∃ e, files (resolve fname) = some e ∧ info.computedCrc = crc32 e.content
  crcMatch : info.has fileInfoCrcMatch = true ↔ AttrRead fname t ∧ CrcComputed t ∧
    ∃ e, files (resolve fname) = some e ∧ e.crcAttr = some (crc32 e.content)

section Info

variable {resolve : List UInt8 → List UInt8} {s s' : FileStore} {fname : List UInt8}
  {v : FilesysVars} {t : List LfsEvent} {r : FilesysError × FileInfo × Int}

/-- Nothing was read or computed: no flag is set. -/
theorem Truthful.unchecked (files : List UInt8 → Option FileEntry)
    (h : ∀ e ∈ t, LfsCall.checksCrc e.call = false) :
    Truthful resolve files fname t (.named fname) := by
  have hattr : ¬AttrRead fname t := fun ⟨_, he, _⟩ => Bool.false_ne_true (h _ he).symm
  have hcomputed : ¬CrcComputed t := fun ⟨⟨e, he, hcall⟩, _⟩ =>
    absurd (checksCrc_of_computesCrc hcall) (by simp [h e he])
  refine ⟨rfl, ?_, ?_, fun h => absurd h hcomputed, ?_⟩ <;> simp [hattr, hcomputed]

theorem CrcComputed.cons {e : LfsEvent} (he : LfsCall.computesCrc e.call = false) :
    CrcComputed (e :: t) ↔ CrcComputed t := by
  unfold CrcComputed
  simp [he]

/-- The check of the CRC is all of the calls. -/
theorem crcComputed_iff {fileSize : UInt32} {w : FilesysVars} {outcome : CrcOutcome}
    (h : (filesysComputeFileCrc fname fileSize).replay v t = some (outcome, w)) :
    CrcComputed t ↔ ∀ e ∈ t, 0 ≤ LfsEvent.code e := by
  have hcalls := (filesysComputeFileCrc_computesCrc _ _ _ _ _ _ h).2
  obtain ⟨err, u, rfl, _⟩ := replay_filesysFileOpen_bind.mp h
  exact ⟨fun hcomputed e he => hcomputed.2 e he (hcalls e he),
    fun hall => ⟨⟨_, List.mem_cons_self, rfl⟩, fun e he _ => hall e he⟩⟩

/-- The calls before the check of the CRC: they find the size of the file and its attribute, and
leave the files as they are. -/
theorem run_checked {o n c : Int} {attr : AttrResult} (ho : ¬o < 0) (hn : ¬n < 0)
    (hrun : run (storeLfs resolve) s
      (called (.fileOpencfg .getFileInfo fname .rdonly) o :: called (.fileSize .getFileInfo) n ::
        called (.fileClose .getFileInfo) c :: called (.getattr fname) attr :: t) = some s') :
    ∃ e s₁, s.files (resolve fname) = some e ∧ n = (e.content.length : Int) ∧
      (¬attr.code < 0 → e.crcAttr = some attr.value) ∧ s₁.files = s.files ∧
      run (storeLfs resolve) s₁ t = some s' := by
  obtain ⟨s₁, hopen, hrun₁⟩ := run_cons_some _ hrun
  obtain ⟨s₂, hsize, hrun₂⟩ := run_cons_some _ hrun₁
  obtain ⟨s₃, hclose, hrun₃⟩ := run_cons_some _ hrun₂
  obtain ⟨s₄, hattr, hrun₄⟩ := run_cons_some _ hrun₃
  obtain ⟨e, he, hs₁⟩ := storeLfs_open_rdonly ho hopen
  obtain ⟨hfiles₁, hclean₁⟩ := storeLfs_open_clean hopen
  obtain ⟨hfiles₂, hclean₂⟩ := storeLfs_clean hclean₁ (by simp [LfsCall.readsThrough]) hsize
  obtain ⟨hfiles₃, hclean₃⟩ := storeLfs_clean hclean₂ (by simp [LfsCall.readsThrough]) hclose
  obtain ⟨hfiles₄, _⟩ := storeLfs_clean hclean₃ rfl hattr
  refine ⟨e, s₄, he, ?_, fun ha => ?_, ?_, hrun₄⟩
  · obtain ⟨o, ho, hn⟩ := storeLfs_fileSize hn hsize
    rw [hs₁, FileStore.withHandle_self] at ho
    obtain rfl := Option.some.inj ho
    exact hn
  · have hvalue := storeLfs_getattr ha hattr
    rwa [hfiles₃, hfiles₂, hfiles₁, he, Option.bind_some] at hvalue
  · rw [hfiles₄, hfiles₃, hfiles₂, hfiles₁]

/-- The attribute is asked for once, and not in the check of the CRC. -/
theorem attrRead_checked {o n c : Int} {attr : AttrResult} {fileSize : UInt32}
    {w : FilesysVars} {outcome : CrcOutcome}
    (hcrc : (filesysComputeFileCrc fname fileSize).replay v t = some (outcome, w)) :
    ¬attr.code < 0 ↔ AttrRead fname
      (called (.fileOpencfg .getFileInfo fname .rdonly) o :: called (.fileSize .getFileInfo) n ::
        called (.fileClose .getFileInfo) c :: called (.getattr fname) attr :: t) := by
  constructor
  · intro ha
    exact ⟨attr, by simp, not_lt.mp ha⟩
  · rintro ⟨attr', he', ha⟩
    simp only [List.mem_cons] at he'
    rcases he' with h | h | h | h | h
    · cases h
    · cases h
    · cases h
    · cases h
      exact not_lt.mpr ha
    · cases (filesysComputeFileCrc_computesCrc _ _ _ _ _ _ hcrc).2 _ h

/-- **`filesys_get_file_info` is truthful**, whatever call fails, and leaves the files as they
are. -/
theorem InfoPath.truthful (h : InfoPath fname v t r)
    (hmax : ∀ p e, s.files p = some e → e.content.length ≤ lfsFileMax)
    (hrun : run (storeLfs resolve) s t = some s') :
    s'.files = s.files ∧ Truthful resolve s.files fname t r.2.1 := by
  cases h with
  | openFailed _ =>
    obtain ⟨s₁, hopen, hrun⟩ := run_cons_some _ hrun
    obtain rfl := Option.some.inj hrun
    exact ⟨(storeLfs_open_clean hopen).1, .unchecked _ (List.forall_mem_singleton.mpr rfl)⟩
  | sizeFailed _ _ | closeFailed _ _ _ =>
    obtain ⟨s₁, hopen, hrun⟩ := run_cons_some _ hrun
    obtain ⟨hfiles, hs₁⟩ := storeLfs_open_clean hopen
    refine ⟨(run_storeLfs_clean hs₁ ?_ hrun).1.trans hfiles, .unchecked _ ?_⟩
    · simp [LfsCall.readsThrough]
    · exact List.forall_mem_cons.mpr ⟨rfl,
        List.forall_mem_cons.mpr ⟨rfl, List.forall_mem_singleton.mpr rfl⟩⟩
  | @checked o n c attr t outcome ho hn hc hcrc =>
    obtain ⟨e, s₁, he, hlength, hvalue, hfiles, hrun₁⟩ := run_checked ho hn hrun
    have hfile : s₁.files (resolve fname) = some e := by rw [hfiles, he]
    have hsize : (UInt32.ofInt n).toNat = e.content.length := by
      rw [hlength, ofInt_eq_ofNat (hmax _ e he)]
      exact UInt32.toNat_ofNat_of_lt' (Nat.lt_of_le_of_lt (hmax _ e he) (by decide))
    have hspec := checkedInfo_spec fname n attr outcome
    have hread := @attrRead_checked fname v t o n c attr _ _ _ hcrc
    have hcomputed : outcome.error = .ok ↔ CrcComputed
        (called (.fileOpencfg .getFileInfo fname .rdonly) o :: called (.fileSize .getFileInfo) n ::
          called (.fileClose .getFileInfo) c :: called (.getattr fname) attr :: t) := by
      rw [CrcComputed.cons rfl, CrcComputed.cons rfl, CrcComputed.cons rfl, CrcComputed.cons rfl,
        crcComputed_iff hcrc, filesysComputeFileCrc_ok_iff hcrc hrun₁]
      exact and_iff_left ⟨e, hfile, hsize.le⟩
    have hcontent (hok : outcome.error = .ok) : outcome.crc = crc32 e.content := by
      obtain ⟨e', he', _, hcrc'⟩ := filesysComputeFileCrc_crc hcrc hrun₁ hok
      rw [hfile] at he'
      obtain rfl := Option.some.inj he'
      rw [hcrc', hsize, List.take_length]
    refine ⟨(run_filesysComputeFileCrc_files hcrc hrun₁).trans hfiles, hspec.name,
      hspec.expected.trans hread, hspec.computed.trans hcomputed, fun h => ?_, ?_⟩
    · have hok := hcomputed.mpr h
      exact ⟨e, he, (hspec.computedCrc hok).trans (hcontent hok)⟩
    · rw [hspec.crcMatch, hread, ← hcomputed]
      refine and_congr_right fun ha => and_congr_right fun hok => ?_
      have hattr := hvalue (hread.mpr ha)
      rw [hcontent hok]
      constructor
      · exact fun h => ⟨e, he, by rw [hattr, h]⟩
      · rintro ⟨e', he', h⟩
        rw [he] at he'
        obtain rfl := Option.some.inj he'
        rw [hattr] at h
        exact (Option.some.inj h).symm

end Info

/-! ## The loop -/

/-- The entries of regular files. -/
def regularFiles (entries : List LfsInfo) : List LfsInfo :=
  entries.filter fun entry => entry.type = lfsTypeReg

/-- `*info` was made by `filesys_get_file_info`, for the file of the entry, by calls among `t`. -/
def Describes (resolve : List UInt8 → List UInt8) (files : List UInt8 → Option FileEntry)
    (v : FilesysVars) (t : List LfsEvent) (entry : LfsInfo) (info : FileInfo) : Prop :=
  ∃ u error code, u <:+: t ∧
    (filesysGetFileInfo entry.name).replay v u = some ((error, info, code), v) ∧
    Truthful resolve files entry.name u info

section Loop

variable {resolve : List UInt8 → List UInt8} {entries : List LfsInfo} {v w : FilesysVars}

theorem Describes.mono {files : List UInt8 → Option FileEntry} {t t' : List LfsEvent}
    (h : t <:+: t') {entry : LfsInfo} {info : FileInfo}
    (hd : Describes resolve files v t entry info) : Describes resolve files v t' entry info := by
  obtain ⟨u, error, code, hu, hreplay, htruthful⟩ := hd
  exact ⟨u, error, code, hu.trans h, hreplay, htruthful⟩

/-- The loop describes the regular files that are left, as far as there is room. Induction on
the rounds, of which there are as many as entries. -/
theorem listFilesLoop_describes {maxFiles : UInt16} (rounds : Nat) {s s' : DirStore}
    {fileList found : List FileInfo} {t : List LfsEvent} (hrounds : s.rest.length ≤ rounds)
    (hmax : ∀ p e, s.store.files p = some e → e.content.length ≤ lfsFileMax)
    (hreplay : (listFilesLoop maxFiles rounds fileList).replay v t = some ((found, none), w))
    (hrun : run (dirLfs resolve entries) s t = some s') :
    ∃ new, found = fileList ++ new ∧ List.Forall₂ (Describes resolve s.store.files v t)
      ((regularFiles s.rest).take (maxFiles.toNat - fileList.length)) new := by
  induction rounds generalizing s fileList t with
  | zero =>
    obtain ⟨rfl, heq⟩ := replay_pure.mp hreplay
    cases heq
    rw [List.eq_nil_of_length_eq_zero (Nat.le_zero.mp hrounds)]
    exact ⟨[], (List.append_nil _).symm, by simp [regularFiles]⟩
  | succ rounds ih =>
    obtain ⟨result, u, rfl, h₁⟩ := replay_perform_bind.mp hreplay
    obtain ⟨s₁, hread, hrun₁⟩ := run_cons_some _ hrun
    have ends {u : List LfsEvent}
        (hu : (pure (fileList, none) : Filesys (List FileInfo × Option Int)).replay v u
          = some ((found, none), w)) : found = fileList ++ [] := by
      obtain ⟨rfl, heq⟩ := replay_pure.mp hu
      cases heq
      exact (List.append_nil _).symm
    split at h₁
    · next hcode =>
      obtain ⟨rfl, heq⟩ := replay_pure.mp h₁
      cases heq
    next hcode =>
    have hcases := readDir_cases (show s.readDir result = some s₁ from hread) hcode
    split at h₁
    · next hzero =>
      -- the end of the directory
      obtain ⟨_, hrest, _⟩ | ⟨_, _, hne, _⟩ := hcases
      · rw [hrest]
        exact ⟨[], ends h₁, by simp [regularFiles]⟩
      · exact absurd hzero hne
    next hne =>
    obtain ⟨hzero, _⟩ | ⟨rest, hrest, _, rfl⟩ := hcases
    · exact absurd hzero hne
    have hleft : rest.length ≤ rounds := by
      rw [hrest, List.length_cons] at hrounds
      omega
    rw [hrest]
    split at h₁
    · next htype =>
      -- a directory
      obtain ⟨new, hfound, hnew⟩ := ih (s := { s with rest }) hleft hmax h₁ hrun₁
      have hskip : regularFiles (result.info :: rest) = regularFiles rest :=
        List.filter_cons_of_neg (by simp [htype])
      rw [hskip]
      exact ⟨new, hfound, hnew.imp fun _ _ => Describes.mono (List.suffix_cons _ _).isInfix⟩
    next htype =>
    have hregular : regularFiles (result.info :: rest) = result.info :: regularFiles rest :=
      List.filter_cons_of_pos (by simp [not_not.mp htype])
    split at h₁
    · next hfull =>
      have hroom : maxFiles.toNat - fileList.length = 0 := Nat.sub_eq_zero_of_le hfull
      rw [hroom]
      exact ⟨[], ends h₁, by simp⟩
    next hroom =>
    obtain ⟨u₁, u₂, ⟨error, info, code⟩, v₁, rfl, h₂, h₃⟩ := replay_bind.mp h₁
    obtain ⟨hinfo, rfl⟩ := infoPath h₂
    obtain ⟨s₂, hrun₂, hrun₃⟩ := run_append_some _ hrun₁
    obtain ⟨hstore, hrest₂⟩ := run_dirLfs_of_file (filesysGetFileInfo_ofDirectory h₂) hrun₂
    obtain ⟨hfiles, htruthful⟩ := hinfo.truthful hmax hstore
    obtain ⟨new, hfound, hnew⟩ := ih (hrest₂ ▸ hleft) (hfiles ▸ hmax) h₃ hrun₃
    refine ⟨info :: new, by rw [hfound, List.append_assoc]; rfl, ?_⟩
    have htake : maxFiles.toNat - fileList.length
        = maxFiles.toNat - (fileList ++ [info]).length + 1 := by
      rw [List.length_append, List.length_singleton]
      omega
    rw [hregular, htake, List.take_succ_cons]
    refine .cons ⟨u₁, error, code, ?_, h₂, htruthful⟩ ?_
    · exact ⟨[_], u₂, rfl⟩
    · rw [hrest₂, hfiles] at hnew
      exact hnew.imp fun _ _ => Describes.mono ⟨called .dirRead result :: u₁, [], by simp⟩

end Loop

/-! ## The listing -/

/-- A short name is kept whole, with its terminator. -/
theorem FileInfo.cString_named {fname : List UInt8} (hlength : fname.length ≤ 2)
    (hzero : 0 ∉ fname) : cString (FileInfo.named fname).fname.toList = fname := by
  have hbytes : (FileInfo.named fname).fname.toList
      = fname ++ List.replicate (3 - fname.length) 0 := by
    have hdrop : (List.replicate 3 (0 : UInt8)).drop fname.length
        = List.replicate (3 - fname.length) 0 := List.drop_replicate
    rw [FileInfo.named, List.take_of_length_le hlength, toList_copyInto _ (by omega),
      Vector.toList_replicate, hdrop]
  obtain ⟨n, hn⟩ : ∃ n, 3 - fname.length = n + 1 := ⟨2 - fname.length, by omega⟩
  rw [hbytes, hn, List.replicate_succ, cString_append_of_notMem hzero, cString_zero_cons,
    List.append_nil]

/-- **The listing is complete and truthful.** For every root directory whose entries, `.` and
`..` included, are no more than the rounds of the loop, every `max_files` and every pattern of
failing calls: a listing that succeeds has an entry for each of the first `max_files` regular
files, in the order of the directory, and no more. An entry has the file's name, and its flags
say what was read and computed: `CRC_MATCH` that the stored attribute was read, the CRC of the
whole content was computed, and that they are equal. -/
theorem filesys_list_files_complete (resolve : List UInt8 → List UInt8) (stored : List LfsInfo)
    (hentries : (rootEntries stored).length ≤ filesysMaxLoopListFiles)
    (hnames : ∀ entry ∈ stored, entry.type = lfsTypeReg → entry.name.length ≤ 2 ∧ 0 ∉ entry.name)
    (s s' : DirStore) (hmax : ∀ p e, s.store.files p = some e → e.content.length ≤ lfsFileMax)
    (maxFiles : UInt16) (v w : FilesysVars) (t : List LfsEvent) (fileList : List FileInfo)
    (code : Int) (hreplay : (filesysListFiles maxFiles).replay v t = some ((.ok, fileList, code), w))
    (hrun : run (dirLfs resolve (rootEntries stored)) s t = some s') :
    fileList.length = min (regularFiles stored).length maxFiles.toNat ∧
    List.Forall₂ (fun entry info => cString info.fname.toList = entry.name ∧
        Describes resolve s.store.files v t entry info)
      ((regularFiles stored).take maxFiles.toNat) fileList := by
  have hdescribes : List.Forall₂ (Describes resolve s.store.files v t)
      ((regularFiles stored).take maxFiles.toNat) fileList := by
    obtain ⟨o, u, rfl, h₁⟩ := replay_perform_bind.mp hreplay
    obtain ⟨s₁, hopen, hrun₁⟩ := run_cons_some _ hrun
    split at h₁
    · obtain ⟨rfl, heq⟩ := replay_pure.mp h₁
      cases heq
    next ho =>
    obtain rfl : { s with rest := rootEntries stored } = s₁ :=
      Option.some.inj ((if_neg ho).symm.trans hopen)
    obtain ⟨u₁, u₂, ⟨found, failed⟩, v₁, rfl, h₂, h₃⟩ := replay_bind.mp h₁
    obtain ⟨s₂, hrun₂, _⟩ := run_append_some _ hrun₁
    cases failed with
    | some res =>
      obtain ⟨_, _, rfl, h₄⟩ := replay_perform_bind.mp h₃
      obtain ⟨rfl, heq⟩ := replay_pure.mp h₄
      cases heq
    | none =>
      have hfound : found = fileList := by
        obtain ⟨_, _, rfl, h₄⟩ := replay_perform_bind.mp h₃
        split at h₄
        · obtain ⟨rfl, heq⟩ := replay_pure.mp h₄
          cases heq
        · obtain ⟨rfl, heq⟩ := replay_pure.mp h₄
          cases heq
          rfl
      obtain ⟨new, hnew, hall⟩ := listFilesLoop_describes
        (s := { s with rest := rootEntries stored }) _ hentries hmax h₂ hrun₂
      obtain rfl : fileList = new := hfound.symm.trans hnew
      -- the dots are directories
      exact hall.imp fun _ _ => Describes.mono ⟨[called (.dirOpen filesysRootDir) o], u₂, by simp⟩
  refine ⟨?_, ?_⟩
  · rw [← hdescribes.length_eq, List.length_take, min_comm]
  · refine List.forall₂_iff_get.mpr ⟨hdescribes.length_eq, fun i h₁ h₂ => ?_⟩
    have hd := hdescribes.get h₁ h₂
    obtain ⟨hmem, htype⟩ := List.mem_filter.mp (List.mem_of_mem_take (List.get_mem _ ⟨i, h₁⟩))
    obtain ⟨hlength, hzero⟩ := hnames _ hmem (of_decide_eq_true htype)
    refine ⟨?_, hd⟩
    obtain ⟨_, _, _, _, _, htruthful⟩ := hd
    rw [htruthful.name]
    exact FileInfo.cString_named hlength hzero

/-- A directory and an empty file `"a"` in the root directory. -/
def sampleRoot : List LfsInfo := [⟨lfsTypeDir, [0x64]⟩, ⟨lfsTypeReg, [0x61]⟩]

/-- The file, with its CRC. -/
def sampleRootStore : DirStore :=
  ⟨{ FileStore.empty with files := fun p => if p = [0x61] then some ⟨[], some 0⟩ else none }, []⟩

/-- The calls of their listing. -/
def sampleRootCalls : List LfsEvent :=
  [called (.dirOpen filesysRootDir) (0 : Int), called .dirRead ⟨1, ⟨lfsTypeDir, [0x2E]⟩⟩,
    called .dirRead ⟨1, ⟨lfsTypeDir, [0x2E, 0x2E]⟩⟩, called .dirRead ⟨1, ⟨lfsTypeDir, [0x64]⟩⟩,
    called .dirRead ⟨1, ⟨lfsTypeReg, [0x61]⟩⟩] ++ sampleInfoCalls ⟨4, 0⟩ ++
    [called .dirRead ⟨0, ⟨0, []⟩⟩, called .dirClose (0 : Int)]

/-- One entry, for the file. -/
theorem filesys_list_files_complete_sample :
    ∃ fileList s', (filesysListFiles 3).replay .atBoot sampleRootCalls
        = some ((.ok, fileList, 0), .atBoot) ∧
      run (dirLfs id (rootEntries sampleRoot)) sampleRootStore sampleRootCalls = some s' ∧
      fileList.length = min (regularFiles sampleRoot).length (3 : UInt16).toNat := by
  refine ⟨_, _, rfl, rfl, ?_⟩
  refine (filesys_list_files_complete id sampleRoot (by decide) (by decide) sampleRootStore _
    (fun p e he => ?_) 3 .atBoot .atBoot sampleRootCalls _ 0 rfl rfl).1
  have hempty : e = ⟨[], some 0⟩ := by
    unfold sampleRootStore at he
    dsimp only at he
    split at he
    · exact (Option.some.inj he).symm
    · cases he
  rw [hempty]
  exact Nat.zero_le _

end Samwise
