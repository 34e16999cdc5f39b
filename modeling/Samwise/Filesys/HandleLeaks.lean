import Samwise.Filesys.WriteSession

/-!
# Samwise — littlefs's list of open handles

littlefs links every open file and directory object into a list, and unlinks it when it is
closed, also if the close returns an error. Mounting and formatting start an empty list. Here
littlefs is that list and responds in every way: `mlistAfter` is what an event does to it.

Every operation closes what it opens, on every path but one: `filesys_write_buffer_to_mram`
returns from a failed `lfs_file_write` without closing the file, and the list keeps a pointer
into its stack frame.
-/

namespace Samwise

open Interaction Memory Prog Run

/-! ## The list -/

/-- An object in the list. -/
inductive Handle where
  | file (file : FileRef)
  | dir
deriving DecidableEq, Repr

/-- littlefs's `mlist` after an event. -/
def mlistAfter (open_ : List Handle) : LfsEvent → List Handle
  | ⟨.mount, _⟩ | ⟨.format, _⟩ => []
  | ⟨.fileOpencfg file _ _, err⟩ => if (show Int from err) < 0 then open_ else .file file :: open_
  | ⟨.fileClose file, _⟩ => open_.erase (.file file)
  | ⟨.dirOpen _, err⟩ => if (show Int from err) < 0 then open_ else .dir :: open_
  | ⟨.dirClose, _⟩ => open_.erase .dir
  | _ => open_

/-- littlefs as its list of handles. -/
def handlesLfs (open_ : List Handle) (e : LfsEvent) : Option (List Handle) :=
  some (mlistAfter open_ e)

theorem run_handlesLfs (open_ : List Handle) (t : List LfsEvent) :
    run handlesLfs open_ t = some (t.foldl mlistAfter open_) := by
  induction t generalizing open_ with
  | nil => rfl
  | cons e t ih => exact ih (mlistAfter open_ e)

/-- A `lfs_file_write` that failed. -/
def failedWrite : LfsEvent → Bool
  | ⟨.fileWrite _ _, bytesWritten⟩ => (show Int from bytesWritten) < 0
  | _ => false

/-! ## Programs and the list -/

/-- The program turns the open handles `before` into `after`, whatever else is open. -/
def Turns {α : Type} (before : List Handle) (x : Filesys α) (after : α → List Handle) : Prop :=
  ∀ v rest, Ensures handlesLfs v (before ++ rest) x fun a _ handles => handles = after a ++ rest

namespace Turns

variable {α β : Type} {before : List Handle} {after : α → List Handle}

theorem pure {a : α} (h : after a = before) : Turns before (Pure.pure a : Filesys α) after :=
  fun _ _ => .pure (by rw [h])

theorem bind {x : Filesys β} {f : β → Filesys α} {mid : β → List Handle}
    (hx : Turns before x mid) (hf : ∀ b, Turns (mid b) (f b) after) :
    Turns before (x >>= f) after :=
  fun v rest => .bind (hx v rest) fun b w handles hb => by
    rw [hb]
    exact hf b w rest

theorem vars_bind {f : FilesysVars → Filesys α} (h : ∀ v, Turns before (f v) after) :
    Turns before (vars >>= f) after :=
  fun v rest => .vars_bind (h v v rest)

theorem ite {c : Prop} {_ : Decidable c} {x y : Filesys α} (hx : c → Turns before x after)
    (hy : ¬c → Turns before y after) : Turns before (if c then x else y) after :=
  fun v rest => .ite (fun h => hx h v rest) fun h => hy h v rest

/-- A call that leaves the list alone. -/
theorem perform_bind {c : littlefs.Call} {f : littlefs.Response c → Filesys α}
    (hc : ∀ open_ r, mlistAfter open_ ⟨c, r⟩ = open_) (h : ∀ r, Turns before (f r) after) :
    Turns before (perform c >>= f) after := by
  refine fun v rest => .perform_bind fun r handles hr => ?_
  obtain rfl : mlistAfter (before ++ rest) ⟨c, r⟩ = handles := Option.some.inj hr
  rw [hc]
  exact h r v rest

/-- An open, which links the object where it succeeds. -/
theorem open_bind {file : FileRef} {fname : List UInt8} {flags : OpenFlags} {f : Int → Filesys α}
    (hfailed : ∀ err < 0, Turns before (f err) after)
    (h : Turns (.file file :: before) (f lfsErrOk) after) :
    Turns before (filesysFileOpen file fname flags >>= f) after := by
  refine fun v rest => ensures_filesysFileOpen_bind fun err handles hr => ?_
  have hr : (if err < 0 then before ++ rest else .file file :: (before ++ rest)) = handles :=
    Option.some.inj hr
  by_cases herr : err < 0
  · rw [if_pos herr] at hr
    rw [← hr, errorCode_of_neg herr]
    exact hfailed err herr v rest
  · rw [if_neg herr] at hr
    rw [← hr, errorCode, if_neg herr]
    exact h v rest

/-- A close, which unlinks the object in any case. -/
theorem close_bind {file : FileRef} {f : Int → Filesys α} (h : ∀ err, Turns before (f err) after) :
    Turns (.file file :: before) (filesysFileClose file >>= f) after := by
  refine fun v rest => ensures_filesysFileClose_bind fun err handles hr => ?_
  have hr : (.file file :: (before ++ rest)).erase (.file file) = handles := Option.some.inj hr
  rw [List.erase_cons_head] at hr
  rw [← hr]
  exact h _ v rest

theorem dirOpen_bind {f : Int → Filesys α} (hfailed : ∀ err < 0, Turns before (f err) after)
    (h : ∀ err, ¬err < 0 → Turns (.dir :: before) (f err) after) :
    Turns before (lfsDirOpen filesysRootDir >>= f) after := by
  refine fun v rest => .perform_bind (S := littlefs) (c := LfsCall.dirOpen filesysRootDir)
    (f := f) fun (err : Int) handles hr => ?_
  have hr : (if err < 0 then before ++ rest else .dir :: (before ++ rest)) = handles :=
    Option.some.inj hr
  by_cases herr : err < 0
  · rw [if_pos herr] at hr
    rw [← hr]
    exact hfailed err herr v rest
  · rw [if_neg herr] at hr
    rw [← hr]
    exact h err herr v rest

theorem dirClose_bind {f : Int → Filesys α} (h : ∀ err, Turns before (f err) after) :
    Turns (.dir :: before) (lfsDirClose >>= f) after := by
  refine fun v rest => .perform_bind (S := littlefs) (c := LfsCall.dirClose) (f := f)
    fun (err : Int) handles hr => ?_
  have hr : (.dir :: (before ++ rest)).erase .dir = handles := Option.some.inj hr
  rw [List.erase_cons_head] at hr
  rw [← hr]
  exact h err v rest

/-- What a program does to the list it does below other open handles as well. -/
theorem frame {x : Filesys α} (h : Turns [] x fun _ => []) :
    Turns before x fun _ => before :=
  fun v rest => h v (before ++ rest)

/-- What the list is behind a trace. -/
theorem foldl_eq {x : Filesys α} (h : Turns [] x after) {v w : FilesysVars} {t : List LfsEvent}
    {a : α} (hrun : x.replay v t = some (a, w)) (open_ : List Handle) :
    t.foldl mlistAfter open_ = after a ++ open_ :=
  h v open_ t a w _ hrun (run_handlesLfs open_ t)

end Turns

/-! ## The functions that check and read close what they open -/

theorem computeFileCrcFinish_turns (crc : UInt32) :
    Turns [.file .computeFileCrc] (computeFileCrcFinish crc) fun _ => [] :=
  .close_bind fun _ => .ite (fun _ => .pure rfl) fun _ => .pure rfl

/-- Induction on the rounds. -/
theorem computeFileCrcLoop_turns (rounds : Nat) (bytesRemaining crc : UInt32) :
    Turns [.file .computeFileCrc] (computeFileCrcLoop rounds bytesRemaining crc) fun _ => [] := by
  induction rounds generalizing bytesRemaining crc with
  | zero => exact computeFileCrcFinish_turns crc
  | succ rounds ih =>
    refine .ite (fun _ => computeFileCrcFinish_turns crc) fun _ => ?_
    refine .perform_bind (fun _ _ => rfl) fun result => ?_
    refine .ite (fun _ => .close_bind fun _ => .pure rfl) fun _ => ?_
    refine .ite (fun _ => .close_bind fun _ => .pure rfl) fun _ => ?_
    exact ih _ _

theorem filesysComputeFileCrc_turns (fname : List UInt8) (fileSize : UInt32) :
    Turns [] (filesysComputeFileCrc fname fileSize) fun _ => [] := by
  refine .open_bind (fun err herr => ?_) ?_
  · exact .ite (fun _ => .pure rfl) fun h => absurd herr h
  · exact .ite (fun h => absurd h (by decide)) fun _ => computeFileCrcLoop_turns _ _ _

theorem filesysComputeCrc_turns : Turns [] filesysComputeCrc fun _ => [] :=
  .vars_bind fun _ => .ite (fun _ => .pure rfl) fun _ => filesysComputeFileCrc_turns _ _

theorem filesysIsCrcCorrect_turns : Turns [] filesysIsCrcCorrect fun _ => [] :=
  .vars_bind fun _ => .ite (fun _ => .pure rfl) fun _ => .bind filesysComputeCrc_turns fun _ =>
    .ite (fun _ => .pure rfl) fun _ => .ite (fun _ => .pure rfl) fun _ => .pure rfl

theorem filesysGetFileInfo_turns (fname : List UInt8) :
    Turns [] (filesysGetFileInfo fname) fun _ => [] := by
  refine .open_bind (fun err herr => ?_) ?_
  · exact .ite (fun _ => .pure rfl) fun h => absurd herr h
  refine .ite (fun h => absurd h (by decide)) fun _ => ?_
  refine .perform_bind (fun _ _ => rfl) fun fileSize => ?_
  refine .ite (fun _ => .close_bind fun _ => .pure rfl) fun _ => ?_
  refine .close_bind fun _ => .ite (fun _ => .pure rfl) fun _ => ?_
  refine .perform_bind (fun _ _ => rfl) fun attr => ?_
  exact .bind (filesysComputeFileCrc_turns _ _) fun _ => .pure rfl

/-- Induction on the rounds. -/
theorem listFilesLoop_turns (maxFiles : UInt16) (rounds : Nat) (fileList : List FileInfo) :
    Turns [.dir] (listFilesLoop maxFiles rounds fileList) fun _ => [.dir] := by
  induction rounds generalizing fileList with
  | zero => exact .pure rfl
  | succ rounds ih =>
    refine .perform_bind (fun _ _ => rfl) fun entry => ?_
    refine .ite (fun _ => .pure rfl) fun _ => .ite (fun _ => .pure rfl) fun _ => ?_
    refine .ite (fun _ => ih _) fun _ => .ite (fun _ => .pure rfl) fun _ => ?_
    exact .bind (filesysGetFileInfo_turns _).frame fun _ => ih _

theorem filesysListFiles_turns (maxFiles : UInt16) :
    Turns [] (filesysListFiles maxFiles) fun _ => [] := by
  refine .dirOpen_bind (fun err herr => ?_) fun err herr => ?_
  · exact .ite (fun _ => .pure rfl) fun h => absurd herr h
  refine .ite (fun h => absurd h herr) fun _ => ?_
  refine .bind (listFilesLoop_turns _ _ _) fun (fileList, failed) => ?_
  cases failed with
  | some res => exact .dirClose_bind fun _ => .pure rfl
  | none => exact .dirClose_bind fun _ => .ite (fun _ => .pure rfl) fun _ => .pure rfl

/-- Where it succeeds, it leaves its caller's file open. -/
theorem filesysOpenFileRead_turns (file : FileRef) (fname : List UInt8) :
    Turns [] (filesysOpenFileRead file fname) fun r => if r.1 = .ok then [.file file] else [] := by
  refine .bind (filesysGetFileInfo_turns fname) fun r => ?_
  refine .ite (fun h => .pure (if_neg h)) fun _ => ?_
  refine .ite (fun _ => .pure rfl) fun _ => .ite (fun _ => .pure rfl) fun _ => ?_
  refine .ite (fun _ => .pure rfl) fun _ => .open_bind (fun err herr => ?_) ?_
  · exact .ite (fun _ => .pure rfl) fun h => absurd herr h
  · exact .ite (fun h => absurd h (by decide)) fun _ => .pure rfl

theorem reportPosition_turns {onError : FilesysError} {query : Filesys Int}
    (h : Turns [] query fun _ => []) : Turns [] (reportPosition onError query) fun _ => [] :=
  .bind h fun _ => .ite (fun _ => .pure rfl) fun _ => .pure rfl

/-! ## Operations -/

/-- A flush whose `lfs_file_write` failed. -/
def LosesHandle (e : FilesysEvent) : Prop :=
  match e.op with
  | .writeBufferToMram _ => e.trace.any failedWrite = true
  | _ => False

/-- The list behind an operation: the handles before it, but for those that mounting drops,
the caller's file that it opens or closes, and the one that a failed flush leaves behind. -/
def handlesAfter (e : FilesysEvent) (open_ : List Handle) : List Handle :=
  match e.op with
  | .init | .reformatInit => []
  | .openFileRead file _ =>
    if e.result.error = .ok then .file (.caller file) :: open_ else open_
  | .closeFileRead file => open_.erase (.file (.caller file))
  | .writeBufferToMram _ =>
    if e.trace.any failedWrite = true then .file .writeBufferToMram :: open_ else open_
  | _ => open_

section Paths

variable {v w : FilesysVars} {t : List LfsEvent} (open_ : List Handle)

theorem mlist_init {r : FilesysError × Int} (h : InitPath v t r w) :
    t.foldl mlistAfter open_ = [] := by
  cases h <;> rfl

theorem mlist_reformat {r : FilesysError × Int} (h : ReformatPath v t r w) :
    t.foldl mlistAfter open_ = [] := by
  cases h with
  | formatFailed _ => rw [List.foldl_append]; rfl
  | formatted _ hinit =>
    rw [List.foldl_append, List.foldl_cons]
    exact mlist_init _ hinit

theorem mlist_start {cfg : LfsConfig} {fnameStr : FnameStr} {fileSize fileCrc : UInt32}
    {r : FilesysError × Int × Option Int}
    (h : StartPath cfg fnameStr fileSize fileCrc v t r w) : t.foldl mlistAfter open_ = open_ := by
  cases h with
  | alreadyWriting _ => rfl
  | fsSizeFailed _ _ => rfl
  | noSpace _ _ _ => rfl
  | openFailed _ _ _ ho => simp [mlistAfter, ho]
  | setattrFailed _ _ _ ho _ => simp [mlistAfter, ho]
  | closeFailed _ _ _ ho _ _ => simp [mlistAfter, ho]
  | started _ _ _ ho _ _ => simp [mlistAfter, ho]

theorem mlist_cancel {r : FilesysError × Int} (h : CancelPath v t r w) :
    t.foldl mlistAfter open_ = open_ := by
  cases h <;> rfl

theorem mlist_flush {nBytes : UInt16} {r : FilesysError × Int} (h : FlushPath nBytes v t r w) :
    t.foldl mlistAfter open_
      = if t.any failedWrite = true then .file .writeBufferToMram :: open_ else open_ := by
  cases h with
  | noFile _ => rfl
  | clean _ _ => rfl
  | openFailed _ _ ho => simp [mlistAfter, ho, failedWrite]
  | writeFailed _ _ ho hb hcancel =>
    have hrest := mlist_cancel (.file .writeBufferToMram :: open_) hcancel
    simp [mlistAfter, ho, failedWrite, hb, hrest]
  | closeFailed _ _ ho hb _ => simp [mlistAfter, ho, failedWrite, hb]
  | flushed _ _ ho hb _ => simp [mlistAfter, ho, failedWrite, hb]

/-- The operations that check, list or read. -/
theorem mlist_inspect {cfg : LfsConfig} {op : FilesysOp} {r : OpResult}
    (hop : op.inspects = true) (h : (op.prog cfg).replay v t = some (r, v)) :
    t.foldl mlistAfter open_ = handlesAfter ⟨op, t, r⟩ open_ := by
  cases op with
  | computeCrc =>
    obtain ⟨_, h₁, _⟩ := replay_bind_pure h
    exact filesysComputeCrc_turns.foldl_eq h₁ open_
  | isCrcCorrect =>
    obtain ⟨_, h₁, _⟩ := replay_bind_pure h
    exact filesysIsCrcCorrect_turns.foldl_eq h₁ open_
  | listFiles maxFiles =>
    obtain ⟨_, h₁, _⟩ := replay_bind_pure h
    exact (filesysListFiles_turns maxFiles).foldl_eq h₁ open_
  | getFileInfo fname =>
    obtain ⟨_, h₁, _⟩ := replay_bind_pure h
    exact (filesysGetFileInfo_turns fname).foldl_eq h₁ open_
  | openFileRead file fname =>
    obtain ⟨⟨e, info, c⟩, h₁, rfl⟩ := replay_bind_pure h
    rw [(filesysOpenFileRead_turns (.caller file) fname).foldl_eq h₁ open_]
    -- the caller owns the handle only where the open succeeded
    by_cases he : e = .ok
    · simp [handlesAfter, he]
    · simp [handlesAfter, he]
  | readData file size =>
    obtain ⟨_, h₁, _⟩ := replay_bind_pure h
    have hturns : Turns [] (filesysReadData (.caller file) size) fun _ => [] :=
      .perform_bind (fun _ _ => rfl) fun _ => .ite (fun _ => .pure rfl) fun _ => .pure rfl
    exact hturns.foldl_eq h₁ open_
  | readFileSeek file offset whence =>
    obtain ⟨_, h₁, _⟩ := replay_bind_pure h
    exact (reportPosition_turns (.perform_bind (fun _ _ => rfl) fun _ => .pure rfl)).foldl_eq
      h₁ open_
  | readFileTell file =>
    obtain ⟨_, h₁, _⟩ := replay_bind_pure h
    exact (reportPosition_turns (.perform_bind (fun _ _ => rfl) fun _ => .pure rfl)).foldl_eq
      h₁ open_
  | readFileSize file =>
    obtain ⟨_, h₁, _⟩ := replay_bind_pure h
    exact (reportPosition_turns (.perform_bind (fun _ _ => rfl) fun _ => .pure rfl)).foldl_eq
      h₁ open_
  | closeFileRead file =>
    obtain ⟨_, h₁, _⟩ := replay_bind_pure h
    obtain ⟨err, u, rfl, h₂⟩ := replay_perform_bind.mp h₁
    -- nothing follows the close
    have hu : u = [] := by
      split at h₂
      · exact (replay_pure.mp h₂).1
      · exact (replay_pure.mp h₂).1
    rw [hu]
    rfl
  | _ => simp [FilesysOp.inspects] at hop

/-- The check of a completed write closes what it opens. -/
theorem mlist_complete {r : FilesysError × Int} (h : CompletePath v t r w) :
    t.foldl mlistAfter open_ = open_ := by
  cases h with
  | dirty _ => rfl
  | rejected _ hcheck _ => exact filesysIsCrcCorrect_turns.foldl_eq hcheck open_
  | completed _ hcheck => exact filesysIsCrcCorrect_turns.foldl_eq hcheck open_

/-- **What an operation does to littlefs's list**, on every path. -/
theorem mlist_op {cfg : LfsConfig} {op : FilesysOp} {r : OpResult} (h : OpPath cfg v op t r w) :
    t.foldl mlistAfter open_ = handlesAfter ⟨op, t, r⟩ open_ := by
  cases h with
  | init h => exact mlist_init open_ h
  | reformatInit h => exact mlist_reformat open_ h
  | startFileWrite h => exact mlist_start open_ h
  | writeDataToBuffer h => cases h <;> rfl
  | writeBufferToMram h => exact mlist_flush open_ h
  | completeFileWrite h => exact mlist_complete open_ h
  | clearBuffer => rfl
  | cancelFileWrite h => exact mlist_cancel open_ h
  | inspect hop h => exact mlist_inspect open_ hop h

end Paths

/-! ## Leaks -/

/-- The operation is a `filesys_open_file_read` that succeeded. -/
def OpensForCaller (e : FilesysEvent) : Prop :=
  match e.op with
  | .openFileRead _ _ => e.result.error = .ok
  | _ => False

/-- Of an operation's own handles, only a failed flush leaves one open. -/
theorem handlesAfter_nil_iff {e : FilesysEvent} (h : ¬OpensForCaller e) :
    handlesAfter e [] = [] ↔ ¬LosesHandle e := by
  obtain ⟨op, t, r⟩ := e
  cases op with
  | openFileRead file fname =>
    have h : ¬r.error = .ok := h
    simp [handlesAfter, LosesHandle, h]
  | writeBufferToMram nBytes => simp [handlesAfter, LosesHandle]
  | _ => simp [handlesAfter, LosesHandle]

/-- The handle belongs to a caller of `filesys_open_file_read`. -/
def Handle.OwnedByCaller (h : Handle) : Prop := ∃ file, h = .file (.caller file)

theorem handlesAfter_owned {e : FilesysEvent} (he : ¬LosesHandle e) {open_ : List Handle}
    (hopen : ∀ h ∈ open_, h.OwnedByCaller) : ∀ h ∈ handlesAfter e open_, h.OwnedByCaller := by
  obtain ⟨op, t, r⟩ := e
  cases op with
  | init => exact fun _ hmem => absurd hmem List.not_mem_nil
  | reformatInit => exact fun _ hmem => absurd hmem List.not_mem_nil
  | openFileRead file fname =>
    intro h hmem
    simp only [handlesAfter] at hmem
    split at hmem
    · rcases List.mem_cons.mp hmem with rfl | hmem
      · exact ⟨file, rfl⟩
      · exact hopen h hmem
    · exact hopen h hmem
  | closeFileRead file => exact fun h hmem => hopen h (List.mem_of_mem_erase hmem)
  | writeBufferToMram nBytes =>
    intro h hmem
    simp only [handlesAfter, if_neg (show ¬t.any failedWrite = true from he)] at hmem
    exact hopen h hmem
  | _ => exact hopen

/-- **Handles are closed, but for a failed flush.** Every operation other than a successful
`filesys_open_file_read` has closed what it opened when it returns, if and only if it is not
a flush whose `lfs_file_write` failed. In every run of operations that are not, littlefs's list
holds only handles owned by callers of `filesys_open_file_read`. -/
theorem handles_closed (cfg : LfsConfig) :
    (∀ (e : FilesysEvent) (v w : FilesysVars),
      (e.op.prog cfg).replay v e.trace = some (e.result, w) → ¬OpensForCaller e →
        (e.trace.foldl mlistAfter [] = [] ↔ ¬LosesHandle e)) ∧
    (∀ (v : FilesysVars) (es : List FilesysEvent) (s : FilesysState (List Handle)),
      run (filesysStep handlesLfs cfg) ⟨v, []⟩ es = some s →
      AllSteps (filesysStep handlesLfs cfg) (fun _ e => ¬LosesHandle e) ⟨v, []⟩ es →
        ∀ h ∈ s.lfs, h.OwnedByCaller) := by
  constructor
  · intro e v w hreplay hopens
    rw [mlist_op [] (opPath hreplay)]
    exact handlesAfter_nil_iff hopens
  · intro v es s hrun hok
    refine invariant (filesysStep handlesLfs cfg)
      (I := fun s => ∀ h ∈ s.lfs, h.OwnedByCaller) ?_ hok hrun
      (fun _ hmem => absurd hmem List.not_mem_nil)
    intro s e s' he hs hstep
    obtain ⟨hreplay, hconf⟩ := (filesysStep_eq_some _ _).mp hstep
    rw [run_handlesLfs, Option.some.injEq, mlist_op s.lfs (opPath hreplay)] at hconf
    rw [← hconf]
    exact handlesAfter_owned he hs

/-- A file of no bytes, opened for reading. -/
def sampleOpenEmpty : FilesysEvent :=
  ⟨.openFileRead 0 [0x61, 0x62],
    [called (.fileOpencfg .getFileInfo [0x61, 0x62] .rdonly) (0 : Int),
      called (.fileSize .getFileInfo) (0 : Int), called (.fileClose .getFileInfo) (0 : Int),
      called (.getattr [0x61, 0x62]) (⟨4, 0⟩ : AttrResult),
      called (.fileOpencfg .computeFileCrc [0x61, 0x62] .rdonly) (0 : Int),
      called (.fileClose .computeFileCrc) (0 : Int),
      called (.fileOpencfg (.caller 0) [0x61, 0x62] .rdonly) (0 : Int)],
    { error := .ok, lfsErrorCode := 0, info := some ⟨sampleName, 0, 0, 0, 7⟩ }⟩

/-- littlefs's list, behind a successful `filesys_open_file_read`. -/
theorem handles_closed_open_file :
    ∃ s : FilesysState (List Handle),
      run (filesysStep handlesLfs mramConfig) ⟨.atBoot, []⟩
        [sampleInit, sampleStart 0 0, sampleOpenEmpty] = some s ∧
      s.lfs = [.file (.caller 0)] ∧ ∀ h ∈ s.lfs, h.OwnedByCaller := by
  refine ⟨_, rfl, rfl, ?_⟩
  exact (handles_closed mramConfig).2 .atBoot [sampleInit, sampleStart 0 0, sampleOpenEmpty] _ rfl
    ⟨id, fun _ _ => ⟨id, fun _ _ => ⟨id, fun _ _ => trivial⟩⟩⟩

/-- **A failed flush leaks its file**: the pointer into the stack frame of
`filesys_write_buffer_to_mram` stays in littlefs's list, with the file removed and no write in
progress any more. -/
theorem failed_flush_leaks_handle :
    ¬∀ (v : FilesysVars) (es : List FilesysEvent) (s : FilesysState (List Handle)),
      run (filesysStep handlesLfs mramConfig) ⟨v, []⟩ es = some s →
        ∀ h ∈ s.lfs, h.OwnedByCaller := by
  intro h
  obtain ⟨file, hfile⟩ := h .atBoot
    [sampleInit, sampleStart 2 0, sampleWrite, sampleFailedFlush 0] _ rfl
    (.file .writeBufferToMram) (List.mem_singleton_self _)
  cases hfile

end Samwise
