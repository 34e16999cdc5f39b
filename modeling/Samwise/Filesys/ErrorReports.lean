import Samwise.Filesys.InfoPaths

/-!
# Samwise — which error of littlefs is reported

`*lfs_error_code` is documented as the first error that littlefs returned. `firstError` reads it
off a trace. `filesys_get_file_info` reports the errors of the calls it makes itself, but not
that of `lfs_getattr` and not those of `filesys_compute_file_crc`, which go into a local
variable; `filesys_list_files` reports those of its calls on the directory only.
-/

namespace Samwise

open Interaction Prog

/-! ## The first error -/

/-- The first negative result of a trace, and `LFS_ERR_OK` if there is none. -/
def firstError : List LfsEvent → Int
  | [] => lfsErrOk
  | e :: t => if e.code < 0 then e.code else firstError t

theorem firstError_of_nonneg {t : List LfsEvent} (h : ∀ e ∈ t, 0 ≤ LfsEvent.code e) :
    firstError t = lfsErrOk := by
  induction t with
  | nil => rfl
  | cons e t ih =>
    rw [firstError, if_neg (not_lt.mpr (h e List.mem_cons_self))]
    exact ih fun e' he' => h e' (List.mem_cons_of_mem _ he')

theorem firstError_append_of_nonneg {t u : List LfsEvent} (h : ∀ e ∈ t, 0 ≤ LfsEvent.code e) :
    firstError (t ++ u) = firstError u := by
  induction t with
  | nil => rfl
  | cons e t ih =>
    rw [List.cons_append, firstError, if_neg (not_lt.mpr (h e List.mem_cons_self))]
    exact ih fun e' he' => h e' (List.mem_cons_of_mem _ he')

theorem firstError_append_of_neg {t u : List LfsEvent} (h : firstError t < 0) :
    firstError (t ++ u) = firstError t := by
  induction t with
  | nil => exact absurd h (lt_irrefl _)
  | cons e t ih =>
    rw [List.cons_append, firstError, firstError]
    split
    · rfl
    · next he =>
      rw [firstError, if_neg he] at h
      exact ih h

theorem firstError_cons_of_neg {e : LfsEvent} {t : List LfsEvent} (h : e.code < 0) :
    firstError (e :: t) = e.code := if_pos h

theorem firstError_cons_of_nonneg {e : LfsEvent} {t : List LfsEvent} (h : ¬e.code < 0) :
    firstError (e :: t) = firstError t := if_neg h

/-- Either nothing failed, or one call is the first that did. -/
theorem firstError_cases (t : List LfsEvent) :
    (∀ e ∈ t, 0 ≤ LfsEvent.code e) ∨ ∃ front e back, t = front ++ e :: back ∧
      (∀ e' ∈ front, 0 ≤ LfsEvent.code e') ∧ e.code < 0 := by
  induction t with
  | nil => exact Or.inl fun _ he => absurd he List.not_mem_nil
  | cons e t ih =>
    by_cases he : e.code < 0
    · exact Or.inr ⟨[], e, t, rfl, fun _ h => absurd h List.not_mem_nil, he⟩
    rw [not_lt] at he
    rcases ih with hall | ⟨front, f, back, rfl, hfront, hf⟩
    · left
      intro e' he'
      rcases List.mem_cons.mp he' with rfl | he'
      · exact he
      · exact hall e' he'
    · right
      refine ⟨e :: front, f, back, rfl, fun e' he' => ?_, hf⟩
      rcases List.mem_cons.mp he' with rfl | he'
      · exact he
      · exact hfront e' he'

theorem firstError_eq_ok {t : List LfsEvent} :
    firstError t = lfsErrOk ↔ ∀ e ∈ t, 0 ≤ LfsEvent.code e := by
  refine ⟨fun h => ?_, firstError_of_nonneg⟩
  rcases firstError_cases t with hall | ⟨front, e, back, rfl, hfront, he⟩
  · exact hall
  · rw [firstError_append_of_nonneg hfront, firstError_cons_of_neg he] at h
    rw [h] at he
    exact absurd he (lt_irrefl _)

/-- The first error among the calls of one kind is the first of all, if no other call fails
before it, or one does with the same number. -/
theorem firstError_filter {own : LfsEvent → Bool} {t : List LfsEvent} :
    firstError (t.filter own) = firstError t ↔ ∀ front e back, t = front ++ e :: back →
      (∀ e' ∈ front, 0 ≤ LfsEvent.code e') → e.code < 0 → own e = false →
      firstError (back.filter own) = e.code := by
  have hfilter {front : List LfsEvent} (hfront : ∀ e' ∈ front, 0 ≤ LfsEvent.code e') :
      ∀ e' ∈ front.filter own, 0 ≤ LfsEvent.code e' :=
    fun e' he' => hfront e' (List.mem_of_mem_filter he')
  constructor
  · rintro h front e back rfl hfront he hown
    rw [List.filter_append, firstError_append_of_nonneg (hfilter hfront),
      List.filter_cons_of_neg (by simp [hown]), firstError_append_of_nonneg hfront,
      firstError_cons_of_neg he] at h
    exact h
  · intro h
    rcases firstError_cases t with hall | ⟨front, e, back, rfl, hfront, he⟩
    · rw [firstError_of_nonneg hall, firstError_of_nonneg (hfilter hall)]
    rw [List.filter_append, firstError_append_of_nonneg (hfilter hfront),
      firstError_append_of_nonneg hfront, firstError_cons_of_neg he]
    cases hown : own e with
    | true => rw [List.filter_cons_of_pos hown, firstError_cons_of_neg he]
    | false =>
      rw [List.filter_cons_of_neg (by simp [hown])]
      exact h front e back rfl hfront he hown

/-! ## One file -/

/-- No call that checks the CRC fails. -/
def CrcCallsSucceed (t : List LfsEvent) : Prop :=
  ∀ e ∈ t, LfsCall.checksCrc e.call = true → 0 ≤ LfsEvent.code e

theorem CrcCallsSucceed.nil : CrcCallsSucceed [] := fun _ he => absurd he List.not_mem_nil

theorem CrcCallsSucceed.cons {e : LfsEvent} {t : List LfsEvent}
    (he : LfsCall.checksCrc e.call = true → 0 ≤ e.code) :
    CrcCallsSucceed (e :: t) ↔ CrcCallsSucceed t := by
  refine ⟨fun h e' he' => h e' (List.mem_cons_of_mem _ he'), fun h e' he' => ?_⟩
  rcases List.mem_cons.mp he' with rfl | he'
  · exact he
  · exact h e' he'

theorem CrcCallsSucceed.skip {e : LfsEvent} {t : List LfsEvent}
    (he : LfsCall.checksCrc e.call = false) (h : CrcCallsSucceed t) : CrcCallsSucceed (e :: t) :=
  (CrcCallsSucceed.cons fun hcheck => absurd hcheck (by simp [he])).mpr h

theorem checksCrc_of_computesCrc {c : LfsCall} (h : c.computesCrc = true) :
    c.checksCrc = true := by
  cases c with
  | getattr path => rfl
  | _ => exact h

/-- A trace of which every call checks the CRC. -/
theorem crcCallsSucceed_iff {t : List LfsEvent}
    (h : ∀ e ∈ t, LfsCall.checksCrc e.call = true) :
    CrcCallsSucceed t ↔ firstError t = lfsErrOk := by
  rw [firstError_eq_ok]
  exact ⟨fun hok e he => hok e he (h e he), fun hok e he _ => hok e he⟩

/-- `filesys_get_file_info` reports the first error exactly if no call that checks the CRC
fails: its other calls come first. -/
theorem InfoPath.reports {fname : List UInt8} {v : FilesysVars} {t : List LfsEvent}
    {r : FilesysError × FileInfo × Int} (h : InfoPath fname v t r) :
    r.2.2 = firstError t ↔ CrcCallsSucceed t := by
  cases h with
  | openFailed ho =>
    refine ⟨fun _ => .skip rfl .nil, fun _ => Eq.symm ?_⟩
    exact firstError_cons_of_neg ho
  | sizeFailed ho hn =>
    refine ⟨fun _ => .skip rfl (.skip rfl (.skip rfl .nil)), fun _ => Eq.symm ?_⟩
    refine (firstError_cons_of_nonneg ?_).trans (firstError_cons_of_neg ?_)
    · exact ho
    · exact hn
  | closeFailed ho hn hc =>
    refine ⟨fun _ => .skip rfl (.skip rfl (.skip rfl .nil)), fun _ => Eq.symm ?_⟩
    refine (firstError_cons_of_nonneg ?_).trans
      ((firstError_cons_of_nonneg ?_).trans (firstError_cons_of_neg ?_))
    · exact ho
    · exact hn
    · exact hc
  | checked ho hn hc hcrc =>
    -- nothing has failed so far, and all that follows checks the CRC
    rw [CrcCallsSucceed.cons (fun h => by cases h), CrcCallsSucceed.cons (fun h => by cases h),
      CrcCallsSucceed.cons (fun h => by cases h), crcCallsSucceed_iff, eq_comm]
    · refine Eq.congr ((firstError_cons_of_nonneg ?_).trans
        ((firstError_cons_of_nonneg ?_).trans (firstError_cons_of_nonneg ?_))) rfl
      · exact ho
      · exact hn
      · exact hc
    · intro e he
      rcases List.mem_cons.mp he with rfl | he
      · rfl
      · exact checksCrc_of_computesCrc
          ((filesysComputeFileCrc_computesCrc _ _ _ _ _ _ hcrc).2 e he)

/-- Where both CRCs are valid, every call succeeded. -/
theorem InfoPath.succeeds {fname : List UInt8} {v : FilesysVars} {t : List LfsEvent}
    {r : FilesysError × FileInfo × Int} (h : InfoPath fname v t r)
    (hexpected : r.2.1.has fileInfoExpectedCrcValid = true)
    (hcomputed : r.2.1.has fileInfoComputedCrcValid = true) :
    ∀ e ∈ t, 0 ≤ LfsEvent.code e := by
  cases h with
  | openFailed _ | sizeFailed _ _ | closeFailed _ _ _ =>
    rw [FileInfo.named_has] at hexpected
    cases hexpected
  | checked ho hn hc hcrc =>
    replace hexpected := (checkedInfo_spec fname _ _ _).expected.mp hexpected
    replace hcomputed := (checkedInfo_spec fname _ _ _).computed.mp hcomputed
    intro e he
    simp only [List.mem_cons] at he
    rcases he with rfl | rfl | rfl | rfl | he
    · exact not_lt.mp ho
    · exact not_lt.mp hn
    · exact not_lt.mp hc
    · exact not_lt.mp hexpected
    · exact (filesysComputeFileCrc_succeeds hcrc).2 hcomputed e he

/-- And so does `filesys_open_file_read`: a check that failed ends it. -/
theorem replay_filesysOpenFileRead_reports {n : Nat} {fname : List UInt8} {v w : FilesysVars}
    {t : List LfsEvent} {r : FilesysError × FileInfo × Int}
    (h : (filesysOpenFileRead (.caller n) fname).replay v t = some (r, w)) :
    r.2.2 = firstError t ↔ CrcCallsSucceed t := by
  obtain ⟨t₁, t₂, ⟨infoErr, info, code⟩, v₁, rfl, h₁, h₂⟩ := replay_bind.mp h
  obtain ⟨hinfo, rfl⟩ := infoPath h₁
  have hreports := hinfo.reports
  have ends {e : FilesysError} {u : List LfsEvent}
      (hu : (pure (e, info, code) : Filesys (FilesysError × FileInfo × Int)).replay v₁ u
        = some (r, w)) : r.2.2 = firstError (t₁ ++ u) ↔ CrcCallsSucceed (t₁ ++ u) := by
    obtain ⟨rfl, heq⟩ := replay_pure.mp hu
    cases heq
    rw [List.append_nil]
    exact hreports
  dsimp only at h₂
  split at h₂
  · exact ends h₂
  next hok =>
  split at h₂
  · exact ends h₂
  next hexpected =>
  split at h₂
  · exact ends h₂
  next hcomputed =>
  split at h₂
  · exact ends h₂
  -- the checks are done, and nothing has failed
  obtain ⟨o, u, rfl, h₃⟩ := replay_filesysFileOpen_bind.mp h₂
  have hsucceeds := hinfo.succeeds (Bool.eq_true_of_not_eq_false hexpected)
    (Bool.eq_true_of_not_eq_false hcomputed)
  have hchecks {u : List LfsEvent} (hu : CrcCallsSucceed u) : CrcCallsSucceed (t₁ ++ u) := by
    intro e he hcheck
    rcases List.mem_append.mp he with he | he
    · exact hsucceeds e he
    · exact hu e he hcheck
  have hcode : code = lfsErrOk := by
    rw [← firstError_of_nonneg hsucceeds]
    exact hreports.mpr fun e he _ => hsucceeds e he
  rw [firstError_append_of_nonneg hsucceeds]
  split at h₃
  · next ho =>
    obtain ⟨rfl, heq⟩ := replay_pure.mp h₃
    cases heq
    rw [errorCode_neg] at ho
    rw [errorCode_of_neg ho]
    refine ⟨fun _ => hchecks (.skip rfl .nil), fun _ => Eq.symm ?_⟩
    exact firstError_cons_of_neg ho
  · next ho =>
    obtain ⟨rfl, heq⟩ := replay_pure.mp h₃
    cases heq
    rw [errorCode_neg] at ho
    refine ⟨fun _ => hchecks (.skip rfl .nil), fun _ => ?_⟩
    show code = _
    rw [hcode]
    symm
    refine firstError_cons_of_nonneg ?_
    exact ho

/-! ## The directory -/

/-- The call is one on the directory. -/
def LfsCall.ofDirectory : LfsCall → Bool
  | .dirOpen _ | .dirRead | .dirClose => true
  | _ => false

/-- The calls on the directory, with their results. -/
def directoryCalls (t : List LfsEvent) : List LfsEvent :=
  t.filter fun e => LfsCall.ofDirectory e.call

/-- The first call that fails is one on the directory, or the next of these to fail returns
the same number. -/
def DirectoryFailsFirst (t : List LfsEvent) : Prop :=
  ∀ front e back, t = front ++ e :: back → (∀ e' ∈ front, 0 ≤ LfsEvent.code e') → e.code < 0 →
    LfsCall.ofDirectory e.call = false → firstError (directoryCalls back) = e.code

/-- `filesys_get_file_info` makes no call on the directory. -/
theorem filesysGetFileInfo_ofDirectory {fname : List UInt8} {v w : FilesysVars}
    {t : List LfsEvent} {r : FilesysError × FileInfo × Int}
    (h : (filesysGetFileInfo fname).replay v t = some (r, w)) :
    ∀ e ∈ t, LfsCall.ofDirectory e.call = false := by
  cases (infoPath h).1 with
  | openFailed _ | sizeFailed _ _ | closeFailed _ _ _ => simp [LfsCall.ofDirectory]
  | checked _ _ _ hcrc =>
    intro e he
    simp only [List.mem_cons] at he
    rcases he with rfl | rfl | rfl | rfl | he
    · rfl
    · rfl
    · rfl
    · rfl
    · have hcall := (filesysComputeFileCrc_computesCrc _ _ _ _ _ _ hcrc).2 e he
      obtain ⟨c, _⟩ := e
      cases c with
      | dirOpen _ | dirRead | dirClose => cases hcall
      | _ => rfl

theorem directoryCalls_filesysGetFileInfo {fname : List UInt8} {v w : FilesysVars}
    {t u : List LfsEvent} {r : FilesysError × FileInfo × Int}
    (h : (filesysGetFileInfo fname).replay v t = some (r, w)) :
    directoryCalls (t ++ u) = directoryCalls u := by
  have hothers : ∀ e ∈ t, ¬LfsCall.ofDirectory e.call = true := fun e he => by
    simp [filesysGetFileInfo_ofDirectory h e he]
  rw [directoryCalls, List.filter_append, List.filter_eq_nil_iff.mpr hothers]
  rfl

/-- The loop of `filesys_list_files` ends with the first `lfs_dir_read` that fails. Induction on
the rounds. -/
theorem listFilesLoop_reports {maxFiles : UInt16} (rounds : Nat) {fileList found : List FileInfo}
    {failed : Option Int} {v w : FilesysVars} {t : List LfsEvent}
    (h : (listFilesLoop maxFiles rounds fileList).replay v t = some ((found, failed), w)) :
    (failed = none ∧ ∀ e ∈ directoryCalls t, 0 ≤ LfsEvent.code e) ∨
      ∃ c, failed = some c ∧ c < 0 ∧ firstError (directoryCalls t) = c := by
  induction rounds generalizing fileList t v with
  | zero =>
    obtain ⟨rfl, heq⟩ := replay_pure.mp h
    cases heq
    exact Or.inl ⟨rfl, fun _ he => absurd he List.not_mem_nil⟩
  | succ rounds ih =>
    obtain ⟨entry, u, rfl, h₁⟩ := replay_perform_bind.mp h
    split at h₁
    · next hcode =>
      obtain ⟨rfl, heq⟩ := replay_pure.mp h₁
      cases heq
      refine Or.inr ⟨_, rfl, hcode, ?_⟩
      exact firstError_cons_of_neg hcode
    next hcode =>
    -- the entry was read; what the rest of the loop does decides
    have later {u : List LfsEvent} (hu : (failed = none ∧
        ∀ e ∈ directoryCalls u, 0 ≤ LfsEvent.code e) ∨
          ∃ c, failed = some c ∧ c < 0 ∧ firstError (directoryCalls u) = c) :
        (failed = none ∧
          ∀ e ∈ directoryCalls (called .dirRead entry :: u), 0 ≤ LfsEvent.code e) ∨
          ∃ c, failed = some c ∧ c < 0 ∧
            firstError (directoryCalls (called .dirRead entry :: u)) = c := by
      rcases hu with ⟨hnone, hall⟩ | ⟨c, hfailed, hneg, hfirst⟩
      · refine Or.inl ⟨hnone, fun e he => ?_⟩
        rcases List.mem_cons.mp he with rfl | he
        · exact not_lt.mp hcode
        · exact hall e he
      · refine Or.inr ⟨c, hfailed, hneg, (firstError_cons_of_nonneg ?_).trans hfirst⟩
        exact hcode
    have ends {u : List LfsEvent}
        (hu : (pure (fileList, none) : Filesys (List FileInfo × Option Int)).replay v u
          = some ((found, failed), w)) : failed = none ∧
          ∀ e ∈ directoryCalls u, 0 ≤ LfsEvent.code e := by
      obtain ⟨rfl, heq⟩ := replay_pure.mp hu
      cases heq
      exact ⟨rfl, fun _ he => absurd he List.not_mem_nil⟩
    split at h₁
    · exact later (Or.inl (ends h₁))
    split at h₁
    · exact later (ih h₁)
    split at h₁
    · exact later (Or.inl (ends h₁))
    obtain ⟨u₁, u₂, ⟨_, info, _⟩, v₁, rfl, h₂, h₃⟩ := replay_bind.mp h₁
    refine later ?_
    rw [directoryCalls_filesysGetFileInfo h₂]
    exact ih h₃

/-- `filesys_list_files` reports the first error of its calls on the directory. -/
theorem replay_filesysListFiles_reports {maxFiles : UInt16} {v w : FilesysVars}
    {t : List LfsEvent} {r : FilesysError × List FileInfo × Int}
    (h : (filesysListFiles maxFiles).replay v t = some (r, w)) :
    r.2.2 = firstError (directoryCalls t) := by
  obtain ⟨o, u, rfl, h₁⟩ := replay_perform_bind.mp h
  split at h₁
  · next ho =>
    obtain ⟨rfl, heq⟩ := replay_pure.mp h₁
    cases heq
    symm
    exact firstError_cons_of_neg ho
  next ho =>
  obtain ⟨u₁, u₂, ⟨found, failed⟩, v₁, rfl, h₂, h₃⟩ := replay_bind.mp h₁
  have hopened : firstError (directoryCalls (called (.dirOpen filesysRootDir) o :: (u₁ ++ u₂)))
      = firstError (directoryCalls u₁ ++ directoryCalls u₂) := by
    refine (firstError_cons_of_nonneg ?_).trans ?_
    · exact ho
    · rw [directoryCalls, List.filter_append]
      rfl
  rcases listFilesLoop_reports _ h₂ with ⟨rfl, hall⟩ | ⟨c, rfl, hneg, hfirst⟩
  · obtain ⟨err, u₃, rfl, h₄⟩ := replay_perform_bind.mp h₃
    rw [hopened, firstError_append_of_nonneg hall]
    split at h₄
    · next herr =>
      obtain ⟨rfl, heq⟩ := replay_pure.mp h₄
      cases heq
      symm
      exact firstError_cons_of_neg herr
    · next herr =>
      obtain ⟨rfl, heq⟩ := replay_pure.mp h₄
      cases heq
      symm
      refine firstError_cons_of_nonneg ?_
      exact herr
  · obtain ⟨err, u₃, rfl, h₄⟩ := replay_perform_bind.mp h₃
    obtain ⟨rfl, heq⟩ := replay_pure.mp h₄
    cases heq
    rw [hopened, firstError_append_of_neg (by rw [hfirst]; exact hneg), hfirst]

/-! ## The reports -/

/-- **Which error is reported.** For every pattern of results: `filesys_get_file_info` and
`filesys_open_file_read` store the first error exactly if no call that checks the CRC fails, and
`filesys_list_files` does exactly if a call on the directory fails first, or the next of these to
fail returns the same number. -/
theorem lfs_error_code_reported (fname : List UInt8) (n : Nat) (maxFiles : UInt16)
    (v w : FilesysVars) (t : List LfsEvent) :
    (∀ r, (filesysGetFileInfo fname).replay v t = some (r, w) →
      (r.2.2 = firstError t ↔ CrcCallsSucceed t)) ∧
    (∀ r, (filesysOpenFileRead (.caller n) fname).replay v t = some (r, w) →
      (r.2.2 = firstError t ↔ CrcCallsSucceed t)) ∧
    ∀ r, (filesysListFiles maxFiles).replay v t = some (r, w) →
      (r.2.2 = firstError t ↔ DirectoryFailsFirst t) := by
  refine ⟨fun r h => (infoPath h).1.reports, fun r h => replay_filesysOpenFileRead_reports h,
    fun r h => ?_⟩
  rw [replay_filesysListFiles_reports h]
  exact firstError_filter

/-- The calls of `filesys_get_file_info` for an empty file `"a"`, all of them successful but
perhaps that of `lfs_getattr`. -/
def sampleInfoCalls (attr : AttrResult) : List LfsEvent :=
  [called (.fileOpencfg .getFileInfo [0x61] .rdonly) (0 : Int),
    called (.fileSize .getFileInfo) (0 : Int), called (.fileClose .getFileInfo) (0 : Int),
    called (.getattr [0x61]) attr,
    called (.fileOpencfg .computeFileCrc [0x61] .rdonly) (0 : Int),
    called (.fileClose .computeFileCrc) (0 : Int)]

/-- The calls of `filesys_list_files` where this is the only file. -/
def sampleListCalls (attr : AttrResult) : List LfsEvent :=
  called (.dirOpen filesysRootDir) (0 : Int) :: called .dirRead ⟨1, ⟨lfsTypeReg, [0x61]⟩⟩ ::
    (sampleInfoCalls attr ++
      [called .dirRead ⟨0, ⟨0, []⟩⟩, called .dirClose (0 : Int)])

/-- An attribute that cannot be read: `LFS_ERR_IO` from `lfs_getattr` is the only error, and none
of the three reports it. -/
theorem lfs_error_code_lost :
    (¬∀ fname v t r w, (filesysGetFileInfo fname).replay v t = some (r, w) →
      r.2.2 = firstError t) ∧
    (¬∀ n fname v t r w, (filesysOpenFileRead (.caller n) fname).replay v t = some (r, w) →
      r.2.2 = firstError t) ∧
    ¬∀ maxFiles v t r w, (filesysListFiles maxFiles).replay v t = some (r, w) →
      r.2.2 = firstError t := by
  refine ⟨fun h => ?_, fun h => ?_, fun h => ?_⟩
  · exact absurd (h [0x61] .atBoot (sampleInfoCalls ⟨-5, 0⟩) _ _ rfl) (by decide)
  · exact absurd (h 0 [0x61] .atBoot (sampleInfoCalls ⟨-5, 0⟩) _ _ rfl) (by decide)
  · exact absurd (h 1 .atBoot (sampleListCalls ⟨-5, 0⟩) _ _ rfl) (by decide)

/-- Without an error, none is reported. -/
theorem lfs_error_code_reported_healthy :
    ∃ r₁ r₂ r₃,
      (filesysGetFileInfo [0x61]).replay .atBoot (sampleInfoCalls ⟨4, 0⟩)
        = some (r₁, .atBoot) ∧
      (filesysOpenFileRead (.caller 0) [0x61]).replay .atBoot (sampleInfoCalls ⟨4, 1⟩)
        = some (r₂, .atBoot) ∧
      (filesysListFiles 1).replay .atBoot (sampleListCalls ⟨4, 0⟩) = some (r₃, .atBoot) ∧
      (r₁.2.2 = firstError (sampleInfoCalls ⟨4, 0⟩) ↔
        CrcCallsSucceed (sampleInfoCalls ⟨4, 0⟩)) ∧
      (r₂.2.2 = firstError (sampleInfoCalls ⟨4, 1⟩) ↔
        CrcCallsSucceed (sampleInfoCalls ⟨4, 1⟩)) ∧
      (r₃.2.2 = firstError (sampleListCalls ⟨4, 0⟩) ↔
        DirectoryFailsFirst (sampleListCalls ⟨4, 0⟩)) :=
  ⟨_, _, _, rfl, rfl, rfl,
    (lfs_error_code_reported [0x61] 0 1 .atBoot .atBoot (sampleInfoCalls ⟨4, 0⟩)).1 _ rfl,
    (lfs_error_code_reported [0x61] 0 1 .atBoot .atBoot (sampleInfoCalls ⟨4, 1⟩)).2.1 _ rfl,
    (lfs_error_code_reported [0x61] 0 1 .atBoot .atBoot (sampleListCalls ⟨4, 0⟩)).2.2 _ rfl⟩

end Samwise
