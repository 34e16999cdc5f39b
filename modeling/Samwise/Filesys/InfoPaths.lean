import Samwise.Filesys.FileCrc

/-!
# Samwise — the paths through `filesys_get_file_info`

`filesys_get_file_info` opens a file for its size, closes it, reads its CRC attribute and has
`filesys_compute_file_crc` open it again. `InfoPath` says what it can do, `CheckedInfo` what the
flags say behind the last of these paths.
-/

namespace Samwise

open Interaction Prog Run

/-- The call is `lfs_getattr`, or one that `filesys_compute_file_crc` makes. -/
def LfsCall.checksCrc : LfsCall → Bool
  | .getattr _ | .fileOpencfg .computeFileCrc _ .rdonly | .fileRead .computeFileCrc _
  | .fileClose .computeFileCrc => true
  | _ => false

/-- The call is one that `filesys_compute_file_crc` makes. -/
def LfsCall.computesCrc (c : LfsCall) : Bool :=
  match c with
  | .getattr _ => false
  | c => c.checksCrc

/-! ## The calls of the check -/

/-- Induction on the rounds. -/
theorem computeFileCrcLoop_computesCrc (rounds : Nat) (bytesRemaining crc : UInt32) :
    (computeFileCrcLoop rounds bytesRemaining crc).ReadOnly
      fun c => LfsCall.computesCrc c = true := by
  have hclose : (filesysFileClose .computeFileCrc).ReadOnly
      fun c => LfsCall.computesCrc c = true := .perform_bind rfl fun _ => .pure _
  have hfinish (crc : UInt32) : (computeFileCrcFinish crc).ReadOnly
      fun c => LfsCall.computesCrc c = true :=
    .bind hclose fun _ => .ite (fun _ => .pure _) fun _ => .pure _
  induction rounds generalizing bytesRemaining crc with
  | zero => exact hfinish crc
  | succ rounds ih =>
    refine .ite (fun _ => hfinish crc) fun _ => .perform_bind rfl fun result => ?_
    refine .ite (fun _ => .bind hclose fun _ => .pure _) fun _ => ?_
    refine .ite (fun _ => .bind hclose fun _ => .pure _) fun _ => ?_
    exact ih _ _

theorem filesysComputeFileCrc_computesCrc (fname : List UInt8) (fileSize : UInt32) :
    (filesysComputeFileCrc fname fileSize).ReadOnly fun c => LfsCall.computesCrc c = true :=
  .bind (.perform_bind rfl fun _ => .pure _) fun _ =>
    .ite (fun _ => .pure _) fun _ => computeFileCrcLoop_computesCrc _ _ _

/-! ## The paths -/

/-- `*info` behind both checks. -/
def checkedInfo (fname : List UInt8) (fileSize : Int) (attr : AttrResult) (computed : CrcOutcome) :
    FileInfo :=
  ((({ FileInfo.named fname with fileSize := UInt32.ofInt fileSize } : FileInfo).withAttr
    attr).withComputed computed).withMatch

/-- `filesys_get_file_info`. -/
inductive InfoPath (fname : List UInt8) (v : FilesysVars) :
    List LfsEvent → FilesysError × FileInfo × Int → Prop where
  | openFailed {o : Int} (ho : o < 0) :
      InfoPath fname v [called (.fileOpencfg .getFileInfo fname .rdonly) o]
        (.errOpenFile, .named fname, o)
  | sizeFailed {o n c : Int} (ho : ¬o < 0) (hn : n < 0) :
      InfoPath fname v
        [called (.fileOpencfg .getFileInfo fname .rdonly) o, called (.fileSize .getFileInfo) n,
          called (.fileClose .getFileInfo) c]
        (.errFileSize, .named fname, n)
  | closeFailed {o n c : Int} (ho : ¬o < 0) (hn : ¬n < 0) (hc : c < 0) :
      InfoPath fname v
        [called (.fileOpencfg .getFileInfo fname .rdonly) o, called (.fileSize .getFileInfo) n,
          called (.fileClose .getFileInfo) c]
        (.errCloseFile, .named fname, c)
  | checked {o n c : Int} {attr : AttrResult} {t : List LfsEvent} {computed : CrcOutcome}
      (ho : ¬o < 0) (hn : ¬n < 0) (hc : ¬c < 0)
      (hcrc : (filesysComputeFileCrc fname (UInt32.ofInt n)).replay v t = some (computed, v)) :
      InfoPath fname v
        (called (.fileOpencfg .getFileInfo fname .rdonly) o :: called (.fileSize .getFileInfo) n ::
          called (.fileClose .getFileInfo) c :: called (.getattr fname) attr :: t)
        (.ok, checkedInfo fname n attr computed, lfsErrOk)

theorem infoPath {fname : List UInt8} {v w : FilesysVars} {t : List LfsEvent}
    {r : FilesysError × FileInfo × Int}
    (h : (filesysGetFileInfo fname).replay v t = some (r, w)) : InfoPath fname v t r ∧ w = v := by
  obtain ⟨o, u₁, rfl, h₁⟩ := replay_filesysFileOpen_bind.mp h
  split at h₁
  · next ho =>
    obtain ⟨rfl, heq⟩ := replay_pure.mp h₁
    cases heq
    rw [errorCode_neg] at ho
    rw [errorCode_of_neg ho]
    exact ⟨.openFailed ho, rfl⟩
  next ho =>
  rw [errorCode_neg] at ho
  obtain ⟨n, u₂, rfl, h₂⟩ := replay_perform_bind.mp h₁
  split at h₂
  · next hn =>
    -- the code of this close is not looked at
    obtain ⟨c, u₃, rfl, h₃⟩ := replay_filesysFileClose_bind.mp h₂
    obtain ⟨rfl, heq⟩ := replay_pure.mp h₃
    cases heq
    exact ⟨.sizeFailed ho hn, rfl⟩
  next hn =>
  obtain ⟨c, u₃, rfl, h₃⟩ := replay_filesysFileClose_bind.mp h₂
  split at h₃
  · next hc =>
    obtain ⟨rfl, heq⟩ := replay_pure.mp h₃
    cases heq
    rw [errorCode_neg] at hc
    rw [errorCode_of_neg hc]
    exact ⟨.closeFailed ho hn hc, rfl⟩
  next hc =>
  rw [errorCode_neg] at hc
  obtain ⟨attr, u₄, rfl, h₄⟩ := replay_perform_bind.mp h₃
  obtain ⟨u₅, u₆, computed, v', rfl, h₅, h₆⟩ := replay_bind.mp h₄
  obtain ⟨rfl, heq⟩ := replay_pure.mp h₆
  cases heq
  obtain ⟨rfl, _⟩ := filesysComputeFileCrc_inspects _ _ _ _ _ _ h₅
  have hsize : (({ FileInfo.named fname with fileSize := UInt32.ofInt n } : FileInfo).withAttr
      attr).fileSize = UInt32.ofInt n := FileInfo.withAttr_fileSize _ _
  rw [List.append_nil]
  exact ⟨.checked ho hn hc (hsize ▸ h₅), rfl⟩

/-! ## The flags -/

@[simp] theorem FileInfo.named_has (fname : List UInt8) (mask : UInt8) :
    (FileInfo.named fname).has mask = false := by
  unfold FileInfo.has
  show ((0 : UInt8) &&& mask != 0) = false
  rw [UInt8.zero_and]
  rfl

/-- A flag that is set on top of others. -/
theorem or_and_bne_zero (flags bit mask : UInt8) :
    ((flags ||| bit) &&& mask != 0) = ((flags &&& mask != 0) || (bit &&& mask != 0)) := by
  have hdistrib : (flags ||| bit) &&& mask = (flags &&& mask) ||| (bit &&& mask) := by
    apply UInt8.toBitVec_inj.mp
    ext i
    simp [Bool.and_or_distrib_right]
  rw [hdistrib, Bool.eq_iff_iff]
  simp only [bne_iff_ne, ne_eq, UInt8.or_eq_zero_iff, Bool.or_eq_true]
  tauto

namespace FileInfo

variable (info : FileInfo) (attr : AttrResult) (outcome : CrcOutcome) (mask : UInt8)

theorem withAttr_has : (info.withAttr attr).has mask
    = (info.has mask || decide (¬attr.code < 0) && (fileInfoExpectedCrcValid &&& mask != 0)) := by
  unfold withAttr has
  split
  · next h => simp [h]
  · next h =>
    rw [or_and_bne_zero]
    simp [h]

theorem withComputed_has : (info.withComputed outcome).has mask = (info.has mask ||
    decide (outcome.error = .ok) && (fileInfoComputedCrcValid &&& mask != 0)) := by
  unfold withComputed has
  split
  · next h =>
    rw [or_and_bne_zero]
    simp [h]
  · next h => simp [h]

theorem withMatch_has : info.withMatch.has mask = (info.has mask ||
    decide (info.has fileInfoComputedCrcValid ∧ info.has fileInfoExpectedCrcValid ∧
      info.computedCrc = info.expectedCrc) && (fileInfoCrcMatch &&& mask != 0)) := by
  unfold withMatch
  split
  · next h =>
    simp only [has] at h ⊢
    rw [or_and_bne_zero]
    simp [h]
  · next h => simp [h]

theorem checked_crcs : (((info.withAttr attr).withComputed outcome).computedCrc =
    ((info.withAttr attr).withComputed outcome).expectedCrc ↔
      (if outcome.error = .ok then outcome.crc else 0) =
        if attr.code < 0 then 0 else attr.value) := by
  unfold withComputed withAttr
  split_ifs <;> rfl

theorem checked_fname :
    (((info.withAttr attr).withComputed outcome).withMatch).fname = info.fname := by
  unfold withMatch withComputed withAttr
  split_ifs <;> rfl

end FileInfo

/-- What `*info` says behind both checks. -/
structure CheckedInfo (fname : List UInt8) (attr : AttrResult) (outcome : CrcOutcome)
    (info : FileInfo) : Prop where
  name : info.fname = (FileInfo.named fname).fname
  expected : info.has fileInfoExpectedCrcValid = true ↔ ¬attr.code < 0
  computed : info.has fileInfoComputedCrcValid = true ↔ outcome.error = .ok
  crcMatch : info.has fileInfoCrcMatch = true ↔
    ¬attr.code < 0 ∧ outcome.error = .ok ∧ outcome.crc = attr.value
  computedCrc : outcome.error = .ok → info.computedCrc = outcome.crc

theorem checkedInfo_spec (fname : List UInt8) (n : Int) (attr : AttrResult)
    (outcome : CrcOutcome) :
    CheckedInfo fname attr outcome (checkedInfo fname n attr outcome) := by
  obtain ⟨info, hinfo, hchecked, hname⟩ : ∃ info : FileInfo, (∀ mask, info.has mask = false) ∧
      checkedInfo fname n attr outcome = ((info.withAttr attr).withComputed outcome).withMatch ∧
      info.fname = (FileInfo.named fname).fname :=
    ⟨{ FileInfo.named fname with fileSize := UInt32.ofInt n },
      fun mask => FileInfo.named_has fname mask, rfl, rfl⟩
  have hexpected : ((info.withAttr attr).withComputed outcome).has fileInfoExpectedCrcValid
      = decide (¬attr.code < 0) := by
    have hown : (fileInfoExpectedCrcValid &&& fileInfoExpectedCrcValid != 0) = true := by decide
    have hother : (fileInfoComputedCrcValid &&& fileInfoExpectedCrcValid != 0) = false := by decide
    rw [FileInfo.withComputed_has, FileInfo.withAttr_has, hinfo, hown, hother]
    simp
  have hcomputed : ((info.withAttr attr).withComputed outcome).has fileInfoComputedCrcValid
      = decide (outcome.error = .ok) := by
    have hown : (fileInfoComputedCrcValid &&& fileInfoComputedCrcValid != 0) = true := by decide
    have hother : (fileInfoExpectedCrcValid &&& fileInfoComputedCrcValid != 0) = false := by decide
    rw [FileInfo.withComputed_has, FileInfo.withAttr_has, hinfo, hown, hother]
    simp
  have hmatch : ((info.withAttr attr).withComputed outcome).has fileInfoCrcMatch = false := by
    have hothers : (fileInfoExpectedCrcValid &&& fileInfoCrcMatch != 0) = false ∧
        (fileInfoComputedCrcValid &&& fileInfoCrcMatch != 0) = false := by decide
    rw [FileInfo.withComputed_has, FileInfo.withAttr_has, hinfo, hothers.1, hothers.2]
    simp
  rw [hchecked]
  constructor
  · rw [FileInfo.checked_fname, hname]
  · have hother : (fileInfoCrcMatch &&& fileInfoExpectedCrcValid != 0) = false := by decide
    rw [FileInfo.withMatch_has, hexpected, hother]
    simp
  · have hother : (fileInfoCrcMatch &&& fileInfoComputedCrcValid != 0) = false := by decide
    rw [FileInfo.withMatch_has, hcomputed, hother]
    simp
  · have hown : (fileInfoCrcMatch &&& fileInfoCrcMatch != 0) = true := by decide
    simp only [FileInfo.withMatch_has, hmatch, hown, hexpected, hcomputed,
      FileInfo.checked_crcs]
    by_cases ha : attr.code < 0 <;> by_cases hc : outcome.error = .ok <;> simp [ha, hc]
  · intro hok
    unfold FileInfo.withMatch FileInfo.withComputed
    simp only [if_pos hok]
    split_ifs <;> rfl

end Samwise
