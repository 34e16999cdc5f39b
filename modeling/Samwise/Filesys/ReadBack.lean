import Samwise.Filesys.ContentLaw
import Samwise.Filesys.Reading

/-!
# Samwise — completed writes read back

`filesys_complete_file_write` checks the CRC of as many bytes as were declared;
`filesys_open_file_read` checks the CRC of the file as it is on disk, and reports its size.
So a completed file reads back as declared exactly if no more bytes were flushed into it than
were declared: too few are found out by the first check, too many by none.
-/

namespace Samwise

open Interaction Memory Prog Run

/-! ## A file at rest -/

/-- The operation starts to write the file at the resolved path `p`. -/
def FilesysOp.Starts (resolve : List UInt8 → List UInt8) (p : List UInt8) : FilesysOp → Prop
  | .startFileWrite fnameStr _ _ => resolve (cString fnameStr.toList) = p
  | _ => False

/-- The file at the resolved path `p` is not being written. It is as it was, or a reformat has
taken it. -/
structure Resting (resolve : List UInt8 → List UInt8) (p : List UInt8) (entry : FileEntry)
    (v : FilesysVars) (s : FileStore) : Prop where
  flags : WriteSession v
  settled : s.Settled
  elsewhere : v.isWritingFile = true → resolve v.path ≠ p
  file : s.files p = some entry ∨ s.files p = none

namespace Resting

variable {resolve : List UInt8 → List UInt8} {p : List UInt8} {entry : FileEntry}
  {v v' : FilesysVars} {s s' : FileStore} {t : List LfsEvent}

/-- Calls that leave the file alone, and assignments that begin no other write. -/
theorem frame (hv : Resting resolve p entry v s) (hflags : WriteSession v') (hs' : s'.Settled)
    (hfile : s'.files p = s.files p)
    (hwriting : v'.isWritingFile = true → v.isWritingFile = true ∧ v'.path = v.path) :
    Resting resolve p entry v' s' := by
  refine ⟨hflags, hs', fun h => ?_, ?_⟩
  · obtain ⟨h', hpath⟩ := hwriting h
    rw [hpath]
    exact hv.elsewhere h'
  · rw [hfile]
    exact hv.file

theorem cancelFileWrite (hv : Resting resolve p entry v s) {r : FilesysError × Int}
    (h : CancelPath v t r v') (hrun : run (storeLfs resolve) s t = some s') :
    Resting resolve p entry v' s' := by
  have hflags := hv.flags.cancelFileWrite h
  cases h with
  | noFile _ =>
    obtain rfl := Option.some.inj hrun
    exact hv
  | removeFailed hwriting _ =>
    obtain ⟨hs', _, hframe⟩ := run_remove hv.settled hrun
    exact hv.frame hflags hs' (hframe p (hv.elsewhere hwriting).symm) fun h => ⟨h, rfl⟩
  | cancelled hwriting _ =>
    obtain ⟨hs', _, hframe⟩ := run_remove hv.settled hrun
    exact hv.frame hflags hs' (hframe p (hv.elsewhere hwriting).symm) nofun

theorem init (hv : Resting resolve p entry v s) {r : FilesysError × Int} (h : InitPath v t r v')
    (hrun : run (storeLfs resolve) s t = some s') : Resting resolve p entry v' s' := by
  have hflags := hv.flags.init h
  have mounts {err : Int} (hrun : run (storeLfs resolve) s [called .mount err] = some s') :
      s'.Settled ∧ s'.files p = s.files p :=
    ⟨(run_mount hrun).2, congrFun (run_mount hrun).1 p⟩
  cases h with
  | mountFailed _ => exact hv.frame hflags (mounts hrun).1 (mounts hrun).2 fun h => ⟨h, rfl⟩
  | noBuffer _ _ => exact hv.frame hflags (mounts hrun).1 (mounts hrun).2 fun h => ⟨h, rfl⟩
  | mounted _ _ => exact hv.frame hflags (mounts hrun).1 (mounts hrun).2 nofun

theorem reformatInit (hv : Resting resolve p entry v s) {r : FilesysError × Int}
    (h : ReformatPath v t r v') (hrun : run (storeLfs resolve) s t = some s') :
    Resting resolve p entry v' s' := by
  have hunmounted : Resting resolve p entry v.unmounted s :=
    hv.frame ⟨hv.flags.dirty_writing, hv.flags.clean_zero⟩ hv.settled rfl fun h => ⟨h, rfl⟩
  cases h with
  | formatFailed herr =>
    obtain ⟨s₁, hformat, hrun₁⟩ := run_cons_some _ (run_unmountTrace hrun)
    obtain rfl := Option.some.inj hrun₁
    rw [storeLfs_format, if_pos herr] at hformat
    obtain rfl := Option.some.inj hformat
    exact hunmounted.frame hunmounted.flags (fun _ _ h => by cases h) rfl fun h => ⟨h, rfl⟩
  | formatted herr hinit =>
    obtain ⟨s₁, hformat, hrun₁⟩ := run_cons_some _ (run_unmountTrace hrun)
    rw [storeLfs_format, if_neg herr] at hformat
    obtain rfl := Option.some.inj hformat
    have hformatted : Resting resolve p entry v.unmounted
        { s with files := fun _ => none, handles := fun _ => none } :=
      ⟨hunmounted.flags, (fun _ _ h => by cases h), hunmounted.elsewhere, Or.inr rfl⟩
    exact hformatted.init hinit hrun₁

theorem startFileWrite (hv : Resting resolve p entry v s) {cfg : LfsConfig} {fnameStr : FnameStr}
    {fileSize fileCrc : UInt32} {r : FilesysError × Int × Option Int}
    (hother : resolve (cString fnameStr.toList) ≠ p)
    (h : StartPath cfg fnameStr fileSize fileCrc v t r v')
    (hrun : run (storeLfs resolve) s t = some s') : Resting resolve p entry v' s' := by
  have hflags := hv.flags.startFileWrite h
  -- `filesys_clear_buffer` and the naming do not make a write of an idle state
  have hcleaned (hidle : v.isWritingFile = false) (hwriting : v.cleaned.isWritingFile = true) :
      v.isWritingFile = true ∧ v.cleaned.path = v.path := by
    rw [hv.flags.cleaned_eq hidle] at hwriting
    exact absurd (hidle.symm.trans hwriting) Bool.false_ne_true
  have hnamed (hidle : v.isWritingFile = false)
      (hwriting : (v.named fnameStr).isWritingFile = true) :
      v.isWritingFile = true ∧ (v.named fnameStr).path = v.path :=
    absurd (hcleaned hidle hwriting).1 (by simp [hidle])
  have hsize {n : Int} (hrun : run (storeLfs resolve) s [called .fsSize n] = some s') : s' = s :=
    (Option.some.inj hrun).symm
  cases h with
  | alreadyWriting _ =>
    obtain rfl := Option.some.inj hrun
    exact hv
  | fsSizeFailed hidle _ =>
    obtain rfl := hsize hrun
    exact hv.frame hflags hv.settled rfl (hcleaned hidle)
  | noSpace hidle _ _ =>
    obtain rfl := hsize hrun
    exact hv.frame hflags hv.settled rfl (hcleaned hidle)
  -- a file that does not open leaves the store alone
  | openFailed hidle _ _ ho =>
    obtain ⟨s₁, hfsSize, hrun₁⟩ := run_cons_some _ hrun
    obtain ⟨s₂, hopen, hrun₂⟩ := run_cons_some _ hrun₁
    obtain rfl := Option.some.inj hfsSize
    obtain rfl := Option.some.inj hrun₂
    obtain ⟨hfiles, hs'⟩ := storeLfs_open_failed hv.settled ho hopen
    exact hv.frame hflags hs' (congrFun hfiles p) (hnamed hidle)
  -- from here on the other file has been created
  | setattrFailed hidle _ _ ho _ =>
    obtain ⟨hs', _, hframe⟩ := run_start hv.settled ho hrun
    exact hv.frame hflags hs' (hframe p hother.symm) (hnamed hidle)
  | closeFailed hidle _ _ ho _ _ =>
    obtain ⟨hs', _, hframe⟩ := run_start hv.settled ho hrun
    exact hv.frame hflags hs' (hframe p hother.symm) (hnamed hidle)
  | started hidle _ _ ho _ _ =>
    obtain ⟨hs', _, hframe⟩ := run_start hv.settled ho hrun
    refine ⟨hflags, hs', fun _ => hother, ?_⟩
    rw [hframe p hother.symm]
    exact hv.file

theorem writeBufferToMram (hv : Resting resolve p entry v s) {nBytes : UInt16}
    {r : FilesysError × Int} (h : FlushPath nBytes v t r v')
    (hrun : run (storeLfs resolve) s t = some s') : Resting resolve p entry v' s' := by
  have hflags := hv.flags.writeBufferToMram h
  cases h with
  | noFile _ =>
    obtain rfl := Option.some.inj hrun
    exact hv
  | clean _ _ =>
    obtain rfl := Option.some.inj hrun
    exact hv
  | openFailed _ _ ho =>
    obtain ⟨s₁, hopen, hrun₁⟩ := run_cons_some _ hrun
    obtain rfl := Option.some.inj hrun₁
    obtain ⟨hfiles, hs'⟩ := storeLfs_open_failed hv.settled ho hopen
    exact hv.frame hflags hs' (congrFun hfiles p) fun h => ⟨h, rfl⟩
  -- the failed flush leaves what it wrote to the other file, and cancels
  | writeFailed _ _ ho hb hcancel =>
    obtain ⟨s₁, hfiles, hs₁, hrun₁⟩ := run_failed_flush hv.settled ho hb hrun
    have hv₁ : Resting resolve p entry v s₁ :=
      hv.frame hv.flags hs₁ (congrFun hfiles p) fun h => ⟨h, rfl⟩
    exact hv₁.cancelFileWrite hcancel hrun₁
  | closeFailed hwriting _ ho hb _ =>
    obtain ⟨hs', _, _, hframe⟩ := run_flush hv.settled ho hb hrun
    exact hv.frame hflags hs' (hframe p (hv.elsewhere hwriting).symm) fun h => ⟨h, rfl⟩
  | flushed hwriting _ ho hb _ =>
    obtain ⟨hs', _, _, hframe⟩ := run_flush hv.settled ho hb hrun
    exact hv.frame hflags hs' (hframe p (hv.elsewhere hwriting).symm) fun h => ⟨h, rfl⟩

theorem completeFileWrite (hv : Resting resolve p entry v s) {r : FilesysError × Int}
    (h : CompletePath v t r v') (hrun : run (storeLfs resolve) s t = some s') :
    Resting resolve p entry v' s' := by
  have hflags := hv.flags.completeFileWrite h
  have inspected {r : FilesysError × Int} (hcheck : filesysIsCrcCorrect.replay v t = some (r, v)) :
      s'.files = s.files ∧ s'.Settled :=
    run_storeLfs_inspects resolve hv.settled (filesysIsCrcCorrect_inspects _ _ _ _ hcheck).2 hrun
  cases h with
  | dirty _ =>
    obtain rfl := Option.some.inj hrun
    exact hv
  | rejected _ hcheck _ =>
    obtain ⟨hfiles, hs'⟩ := inspected hcheck
    exact hv.frame hflags hs' (congrFun hfiles p) fun h => ⟨h, rfl⟩
  | completed _ hcheck =>
    obtain ⟨hfiles, hs'⟩ := inspected hcheck
    exact hv.frame hflags hs' (congrFun hfiles p) nofun

/-- **No operation touches a file at rest**, but for a start of its name. -/
theorem step (hv : Resting resolve p entry v s) {cfg : LfsConfig} {op : FilesysOp} {r : OpResult}
    (hop : ¬op.Starts resolve p) (h : OpPath cfg v op t r v')
    (hrun : run (storeLfs resolve) s t = some s') : Resting resolve p entry v' s' := by
  cases h with
  | init h => exact hv.init h hrun
  | reformatInit h => exact hv.reformatInit h hrun
  -- the only operation that could name this file again
  | startFileWrite h => exact hv.startFileWrite hop h hrun
  | writeDataToBuffer h =>
    have hflags := hv.flags.writeDataToBuffer h
    cases h with
    | exceeds _ | noFile _ _ =>
      obtain rfl := Option.some.inj hrun
      exact hv
    | written _ _ =>
      obtain rfl := Option.some.inj hrun
      exact hv.frame hflags hv.settled rfl fun h => ⟨h, rfl⟩
  | writeBufferToMram h => exact hv.writeBufferToMram h hrun
  | completeFileWrite h => exact hv.completeFileWrite h hrun
  | clearBuffer =>
    obtain rfl := Option.some.inj hrun
    exact hv.frame (.clearBuffer v) hv.settled rfl fun h => ⟨h, rfl⟩
  | cancelFileWrite h => exact hv.cancelFileWrite h hrun
  | inspect hop h =>
    obtain ⟨hfiles, hs'⟩ := run_storeLfs_inspects resolve hv.settled
      (FilesysOp.prog_inspects cfg hop v t r v h).2 hrun
    exact hv.frame hv.flags hs' (congrFun hfiles p) fun h => ⟨h, rfl⟩

end Resting

section Runs

variable {resolve : List UInt8 → List UInt8} {cfg : LfsConfig}

/-- A run without a start of its name leaves a file at rest. -/
theorem resting_run {p : List UInt8} {entry : FileEntry} {s s' : FilesysState FileStore}
    {es : List FilesysEvent} (hs : Resting resolve p entry s.vars s.lfs)
    (hes : ∀ e ∈ es, ¬e.op.Starts resolve p)
    (hrun : run (filesysStep (storeLfs resolve) cfg) s es = some s') :
    Resting resolve p entry s'.vars s'.lfs := by
  induction es generalizing s with
  | nil =>
    obtain rfl := Option.some.inj hrun
    exact hs
  | cons e es ih =>
    obtain ⟨s₁, hstep, hrest⟩ := run_cons_some _ hrun
    obtain ⟨hreplay, hlfs⟩ := (filesysStep_eq_some _ _).mp hstep
    have hs₁ := hs.step (hes e List.mem_cons_self) (opPath hreplay) hlfs
    exact ih hs₁ (fun e' he' => hes e' (List.mem_cons_of_mem _ he')) hrest

/-- What a successful `filesys_complete_file_write` leaves behind: a file at rest that begins
with as many bytes as were declared, with the declared CRC, and is as long as what was
flushed. -/
theorem resting_of_complete {s s' : FilesysState FileStore} {w : Writer} {e : FilesysEvent}
    (hs : Session resolve False s.vars s.lfs w) (hop : e.op = .completeFileWrite)
    (hok : e.result.error = .ok) (hstep : filesysStep (storeLfs resolve) cfg s e = some s') :
    ∃ front back, Resting resolve (resolve w.path) ⟨front ++ back, some w.fileCrc⟩ s'.vars s'.lfs ∧
      front.length = w.fileSize.toNat ∧ crc32 front = w.fileCrc ∧
      (front ++ back).length = w.content.length ∧ w.content.length ≤ lfsFileMax := by
  obtain ⟨hreplay, hlfs⟩ := (filesysStep_eq_some _ _).mp hstep
  obtain ⟨op, t, r⟩ := e
  obtain ⟨v, l⟩ := s
  obtain ⟨v', l'⟩ := s'
  obtain rfl : op = .completeFileWrite := hop
  cases opPath hreplay with
  | inspect hop _ => simp [FilesysOp.inspects] at hop
  | completeFileWrite h =>
    have hflags := hs.flags.completeFileWrite h
    cases h with
    | dirty _ => cases hok
    | rejected _ _ hr => exact absurd hok hr
    | completed _ hcheck =>
      -- the check has read the first `fileSize` bytes, and their CRC is the announced one
      obtain ⟨hwriting, entry, front, back, hentry, hcontent, hlength, hcrc⟩ :=
        ensures_filesysIsCrcCorrect _ _ _ _ hcheck hlfs rfl
      have hw := hs.writes hwriting
      rw [hw.path] at hentry
      obtain ⟨content, hfile, hflushed, _⟩ := hw.file.resolve_right
        fun hidle => by cases hentry.symm.trans hidle.2
      obtain rfl := Option.some.inj (hentry.symm.trans hfile)
      obtain rfl : content = front ++ back := hcontent
      obtain ⟨hfiles, hs'⟩ := run_storeLfs_inspects resolve hs.settled
        (filesysIsCrcCorrect_inspects _ _ _ _ hcheck).2 hlfs
      refine ⟨front, back, ⟨hflags, hs', fun h => absurd h Bool.false_ne_true, Or.inl ?_⟩,
        hlength.trans ?_, hcrc.trans ?_, hflushed, hw.length⟩
      · rw [hfiles]
        exact hfile
      · rw [hw.fileSize]
      · exact hw.fileCrc

end Runs

/-! ## Reading back -/

/-- The file reads back as one of `n` bytes with the CRC `c`: `opened`, which led to `s`,
succeeded and reported as much, every run of reads on the object that finds the end of the
file has returned these bytes, and more than `n` reads find it. -/
structure ReadsBack (resolve : List UInt8 → List UInt8) (cfg : LfsConfig)
    (s : FilesysState FileStore) (opened : FilesysEvent) (file : Nat) (n : Nat) (c : UInt32) :
    Prop where
  ok : opened.result.error = .ok
  info : ∃ info, opened.result.info = some info ∧ info.fileSize.toNat = n ∧
    info.has fileInfoCrcMatch = true
  bytes : ∀ es s', (∀ e ∈ es, e.ReadsOn file) →
    run (filesysStep (storeLfs resolve) cfg) s es = some s' →
    (∃ e ∈ es, e.result.data = some []) →
      (es.flatMap FilesysEvent.bytes).length = n ∧ crc32 (es.flatMap FilesysEvent.bytes) = c
  ends : ∀ es s', (∀ e ∈ es, e.ReadsOn file) →
    run (filesysStep (storeLfs resolve) cfg) s es = some s' → n < es.length →
      ∃ e ∈ es, e.result.data = some []

/-- **Completed writes read back** exactly if as many bytes were flushed as were declared. In
every run that begins with a successful `filesys_initialize`: a file that was completed and
not started again, and is opened with no call of littlefs failing, is what it was declared to
be if and only if the flushes since its start were of that many bytes. -/
theorem completed_reads_back_iff (resolve : List UInt8 → List UInt8) (cfg : LfsConfig)
    (s s₁ s₂ s₃ s₄ : FilesysState FileStore) (first completed opened : FilesysEvent)
    (es es' : List FilesysEvent) (w : Writer) (file : Nat)
    (hfirst : first.op = .init) (hmounted : first.result.error = .ok)
    (hwrites : run (filesysStep (storeLfs resolve) cfg) s (first :: es) = some s₁)
    (hw : w = es.foldl Writer.after .idle)
    (hcomplete : completed.op = .completeFileWrite) (hok : completed.result.error = .ok)
    (hcompleted : filesysStep (storeLfs resolve) cfg s₁ completed = some s₂)
    (hrest : ∀ e ∈ es', ¬e.op.Starts resolve (resolve w.path))
    (hbetween : run (filesysStep (storeLfs resolve) cfg) s₂ es' = some s₃)
    (hopen : opened.op = .openFileRead file w.path) (hhealthy : opened.Healthy)
    (hopened : filesysStep (storeLfs resolve) cfg s₃ opened = some s₄) :
    ReadsBack resolve cfg s₄ opened file w.fileSize.toNat w.fileCrc ↔
      w.content.length = w.fileSize.toNat := by
  obtain ⟨s₀, hinit, hes⟩ := run_cons_some _ hwrites
  have hsession : Session resolve False s₁.vars s₁.lfs w := by
    rw [hw]
    exact session_run (session_of_init hfirst hmounted hinit _) (fun h => h.elim) hes
  obtain ⟨front, back, hs₂, hlength, hcrc, hflushed, hmax⟩ :=
    resting_of_complete hsession hcomplete hok hcompleted
  -- nothing starts the file again, so it rests until it is opened
  have hs₃ := resting_run hs₂ hrest hbetween
  obtain ⟨hreplay, hlfs⟩ := (filesysStep_eq_some _ _).mp hopened
  obtain ⟨op, t, r⟩ := opened
  obtain rfl : op = .openFileRead file w.path := hopen
  obtain ⟨⟨error, info, code⟩, hread, rfl⟩ := replay_bind_pure hreplay
  have hthere {e : FileEntry} (he : s₃.lfs.files (resolve w.path) = some e) :
      e = ⟨front ++ back, some w.fileCrc⟩ := by
    rcases hs₃.file with h | h
    · exact Option.some.inj (he.symm.trans h)
    · cases he.symm.trans h
  obtain ⟨e, c, he, hc, hinfo, hmatch, hreads⟩ :=
    ensures_filesysOpenFileRead hs₃.settled (.caller file) w.path
      (fun e he => by rw [hthere he, hflushed]; exact hmax) _ _ _ _ hread
      (run_healthyLfs hhealthy hlfs)
  obtain rfl := hthere he
  obtain rfl : w.fileCrc = c := Option.some.inj hc
  obtain rfl : info = _ := hinfo
  dsimp only at hmatch hreads
  -- the size littlefs reports does not wrap
  have hsize : (UInt32.ofNat (front ++ back).length).toNat = w.content.length := by
    rw [hflushed]
    exact UInt32.toNat_ofNat_of_lt' (Nat.lt_of_le_of_lt hmax (by decide))
  constructor
  · rintro ⟨_, ⟨info, hinfo, hn, _⟩, _, _⟩
    obtain rfl := Option.some.inj hinfo
    exact hsize.symm.trans hn
  · -- no byte behind the checked ones: what the reads give is the announced content
    intro hn
    have hback : back = [] := by
      rw [List.length_append] at hflushed
      exact List.length_eq_zero_iff.mp (by omega)
    subst hback
    rw [List.append_nil] at hmatch hreads hsize ⊢
    have hopenOk := hmatch.mpr hcrc
    refine ⟨hopenOk, ⟨_, rfl, hsize.trans hn, (FileEntry.info_match _ _ _).mpr hcrc⟩,
      fun reads s' hes hrun hend => ?_, fun reads s' hes hrun hcount => ?_⟩
    · obtain ⟨rest, hall, hnone, _⟩ := readData_run (hreads hopenOk) hes hrun
      rw [hnone hend, List.append_nil] at hall
      rw [← hall]
      exact ⟨hlength, hcrc⟩
    · obtain ⟨rest, hall, _, hend⟩ := readData_run (hreads hopenOk) hes hrun
      refine hend.resolve_right fun hle => ?_
      have := congrArg List.length hall
      rw [List.length_append] at this
      omega

/-! ## Two sessions -/

/-- The calls of a CRC check that reads all it asks for at once. -/
def sampleCheck (size : UInt32) (bytes : List UInt8) (h : bytes.length ≤ size.toNat) :
    List LfsEvent :=
  [⟨LfsCall.fileOpencfg .computeFileCrc [0x61, 0x62] .rdonly, (0 : Int)⟩,
    ⟨LfsCall.fileRead .computeFileCrc size, ReadResult.read bytes h⟩,
    ⟨LfsCall.fileClose .computeFileCrc, (0 : Int)⟩]

/-- A `filesys_complete_file_write` that succeeds. -/
def sampleComplete (size : UInt32) (bytes : List UInt8) (h : bytes.length ≤ size.toNat) :
    FilesysEvent :=
  ⟨.completeFileWrite, sampleCheck size bytes h, { error := .ok, lfsErrorCode := 0 }⟩

/-- A `filesys_open_file_read` of the two bytes, with `attr` in the file's attribute. -/
def sampleOpen (error : FilesysError) (attr : UInt32) (opens : List LfsEvent) : FilesysEvent :=
  ⟨.openFileRead 0 [0x61, 0x62],
    [⟨LfsCall.fileOpencfg .getFileInfo [0x61, 0x62] .rdonly, (0 : Int)⟩,
      ⟨LfsCall.fileSize .getFileInfo, (2 : Int)⟩, ⟨LfsCall.fileClose .getFileInfo, (0 : Int)⟩,
      ⟨LfsCall.getattr [0x61, 0x62], (⟨4, attr⟩ : AttrResult)⟩] ++
      sampleCheck 2 [7, 7] (by decide) ++ opens,
    { error, lfsErrorCode := 0,
      info := some (FileEntry.info ⟨[7, 7], some attr⟩ [0x61, 0x62] attr) }⟩

/-- One byte declared, two flushed: the check of the first byte passes, and the file cannot be
opened for reading. -/
theorem excess_flush_not_read_back :
    ∃ s₁ s₂ s₃ : FilesysState FileStore,
      run (filesysStep (storeLfs id) mramConfig) ⟨.atBoot, .empty⟩
        [sampleInit, sampleStart 1 (crc32 [7]), sampleWrite, sampleFlush 2 [7, 7]] = some s₁ ∧
      filesysStep (storeLfs id) mramConfig s₁ (sampleComplete 1 [7] (by decide)) = some s₂ ∧
      filesysStep (storeLfs id) mramConfig s₂ (sampleOpen .errCrcMismatch (crc32 [7]) []) =
        some s₃ ∧
      (sampleOpen .errCrcMismatch (crc32 [7]) []).Healthy ∧
      ¬ReadsBack id mramConfig s₃ (sampleOpen .errCrcMismatch (crc32 [7]) []) 0 1 (crc32 [7]) := by
  refine ⟨_, _, _, rfl, rfl, rfl, ?_, fun h => ?_⟩
  · unfold FilesysEvent.Healthy
    decide
  · cases h.ok

/-- Two bytes declared and flushed. -/
theorem completed_reads_back_two_bytes :
    ∃ s₁ s₂ s₃ : FilesysState FileStore,
      run (filesysStep (storeLfs id) mramConfig) ⟨.atBoot, .empty⟩
        [sampleInit, sampleStart 2 (crc32 [7, 7]), sampleWrite, sampleFlush 2 [7, 7]] = some s₁ ∧
      filesysStep (storeLfs id) mramConfig s₁ (sampleComplete 2 [7, 7] (by decide)) = some s₂ ∧
      filesysStep (storeLfs id) mramConfig s₂ (sampleOpen .ok (crc32 [7, 7])
        [⟨LfsCall.fileOpencfg (.caller 0) [0x61, 0x62] .rdonly, (0 : Int)⟩]) = some s₃ ∧
      ReadsBack id mramConfig s₃ (sampleOpen .ok (crc32 [7, 7])
        [⟨LfsCall.fileOpencfg (.caller 0) [0x61, 0x62] .rdonly, (0 : Int)⟩]) 0 2
        (crc32 [7, 7]) := by
  refine ⟨_, _, _, rfl, rfl, rfl, ?_⟩
  refine (completed_reads_back_iff id mramConfig ⟨.atBoot, .empty⟩ _ _ _ _ sampleInit
    (sampleComplete 2 [7, 7] (by decide)) _
    [sampleStart 2 (crc32 [7, 7]), sampleWrite, sampleFlush 2 [7, 7]] [] _ 0 rfl rfl rfl rfl rfl
    rfl rfl (by simp) rfl rfl ?_ rfl).mpr rfl
  unfold FilesysEvent.Healthy
  decide

end Samwise
