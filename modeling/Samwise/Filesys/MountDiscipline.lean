import Samwise.Filesys.Paths

/-!
# Samwise — which operations reach an unmounted filesystem

littlefs seen only for whether it is mounted. A reformat takes it down and may then fail, in
`lfs_format` or in the `lfs_mount` behind it; `filesys_initialize` may fail in `lfs_mount` too,
also when it is called again. None of the other functions asks: `lfs_mounted` is read by
`filesys_reformat_initialize` alone. So it depends on the operation, and on the flags of the
write session, whether the next call reaches an unmounted littlefs.
-/

namespace Samwise

open Interaction Prog Run

/-! ## The mount state -/

/-- Whether littlefs is mounted; if not, whether it was a reformat that took it down. -/
inductive MountState where
  | mounted
  | mountFailed
  | reformatFailed
deriving DecidableEq, Repr

/-- littlefs, mounted or not. `lfs_format` leaves it unmounted, and a `lfs_mount` that fails
does as well. -/
def mountLfs (m : MountState) : LfsEvent → Option MountState
  | ⟨.mount, err⟩ =>
    if (show Int from err) < 0 then
      some (if m = .reformatFailed then .reformatFailed else .mountFailed)
    else some .mounted
  | ⟨.unmount, _⟩ | ⟨.format, _⟩ => some .reformatFailed
  | _ => some m

/-- A file, directory, attribute or size operation of littlefs. -/
def LfsCall.onFiles : LfsCall → Bool
  | .mount | .unmount | .format => false
  | _ => true

theorem mountLfs_onFiles {m : MountState} {e : LfsEvent} (h : e.call.onFiles = true) :
    mountLfs m e = some m := by
  obtain ⟨c, r⟩ := e
  cases c <;> first | rfl | cases h

/-- The calls on files go out while littlefs is mounted. -/
def MountedCall (m : MountState) (c : LfsEvent) : Prop := c.call.onFiles = true → m = .mounted

/-- Calls on files only: they all go out mounted, or there are none. -/
theorem allSteps_mounted_iff {m : MountState} {t : List LfsEvent}
    (ht : ∀ c ∈ t, c.call.onFiles = true) :
    AllSteps mountLfs MountedCall m t ↔ m = .mounted ∨ t = [] := by
  constructor
  · intro h
    cases t with
    | nil => exact Or.inr rfl
    | cons c t => exact Or.inl (h.1 (ht c List.mem_cons_self))
  · rintro (rfl | rfl)
    · induction t with
      | nil => trivial
      | cons c t ih =>
        refine ⟨fun _ => rfl, fun m' hm' => ?_⟩
        -- a call on files leaves the mount state as it is
        rw [mountLfs_onFiles (ht c List.mem_cons_self)] at hm'
        obtain rfl := Option.some.inj hm'
        exact ih fun c' hc' => ht c' (List.mem_cons_of_mem _ hc')
    · trivial

theorem allSteps_mounted_of_none {m : MountState} {t : List LfsEvent}
    (ht : ∀ c ∈ t, c.call.onFiles = false) : AllSteps mountLfs MountedCall m t := by
  refine .of_mem _ (fun c hc m honFiles => ?_) m
  rw [ht c hc] at honFiles
  cases honFiles

/-! ## Which operations call littlefs -/

section Calls

variable {cfg : LfsConfig} {v w : FilesysVars} {op : FilesysOp} {t : List LfsEvent} {r : OpResult}

/-- The operations that mount. -/
def FilesysOp.mounts : FilesysOp → Bool
  | .init | .reformatInit => true
  | _ => false

/-- The operation reaches littlefs with these variables. -/
def FilesysOp.reachesLfs (v : FilesysVars) : FilesysOp → Bool
  | .writeDataToBuffer _ _ _ | .clearBuffer => false
  | .startFileWrite _ _ _ => !v.isWritingFile
  | .writeBufferToMram _ => v.isWritingFile && v.bufferIsDirty
  | .computeCrc | .isCrcCorrect | .cancelFileWrite => v.isWritingFile
  | .completeFileWrite => v.isWritingFile && !v.bufferIsDirty
  | _ => true

/-- With these variables, the operation returns an error before it reaches littlefs. -/
def FilesysOp.refused (v : FilesysVars) : FilesysOp → Bool
  | .startFileWrite _ _ _ => v.isWritingFile
  | .writeDataToBuffer _ nBytes offset =>
    decide (offset.toNat + nBytes.toNat > filesysBufferSize) || !v.isWritingFile
  | .writeBufferToMram _ | .computeCrc | .isCrcCorrect | .cancelFileWrite => !v.isWritingFile
  | .completeFileWrite => !v.isWritingFile || v.bufferIsDirty
  | _ => false

theorem mounts_of_inspects (h : op.inspects = true) : op.mounts = false := by
  cases op <;> first | rfl | cases h

theorem LfsCall.onFiles_of_inspects {c : LfsCall} (h : c.inspects = true) : c.onFiles = true := by
  cases c <;> first | rfl | cases h

/-- A program that opens a file first. -/
theorem ne_nil_of_open {α : Type} {file : FileRef} {fname : List UInt8} {flags : OpenFlags}
    {f : Int → Filesys α} {y : α × FilesysVars}
    (h : (filesysFileOpen file fname flags >>= f).replay v t = some y) : t ≠ [] := by
  obtain ⟨err, u, rfl, _⟩ := replay_filesysFileOpen_bind.mp h
  exact List.cons_ne_nil _ _

/-- A program whose first part makes a call. -/
theorem ne_nil_of_bind {α β : Type} {x : Filesys β} {f : β → Filesys α} {y : α × FilesysVars}
    (hx : ∀ {t b v'}, x.replay v t = some (b, v') → t ≠ [])
    (h : (x >>= f).replay v t = some y) : t ≠ [] := by
  obtain ⟨t₁, t₂, b, v', rfl, h₁, _⟩ := replay_bind.mp h
  exact List.append_ne_nil_of_left_ne_nil (hx h₁) t₂

/-- The CRC of the file being written: refused if there is none, and else it is opened. -/
theorem computeCrc_trace {c : CrcOutcome} (h : filesysComputeCrc.replay v t = some (c, w)) :
    v.isWritingFile = false ∧ t = [] ∧ c.error ≠ .ok ∨ v.isWritingFile = true ∧ t ≠ [] := by
  rw [filesysComputeCrc, replay_vars_bind] at h
  split at h
  · next hidle =>
    obtain ⟨rfl, heq⟩ := replay_pure.mp h
    cases heq
    exact Or.inl ⟨hidle, rfl, by decide⟩
  · next hwriting => exact Or.inr ⟨Bool.eq_true_of_not_eq_false hwriting, ne_nil_of_open h⟩

theorem isCrcCorrect_trace {x : FilesysError × Int}
    (h : filesysIsCrcCorrect.replay v t = some (x, w)) :
    v.isWritingFile = false ∧ t = [] ∧ x.1 ≠ .ok ∨ v.isWritingFile = true ∧ t ≠ [] := by
  rw [filesysIsCrcCorrect, replay_vars_bind] at h
  split at h
  · next hidle =>
    obtain ⟨rfl, heq⟩ := replay_pure.mp h
    cases heq
    exact Or.inl ⟨hidle, rfl, by decide⟩
  · next hwriting =>
    have hwriting := Bool.eq_true_of_not_eq_false hwriting
    refine Or.inr ⟨hwriting, ne_nil_of_bind (fun h₁ => ?_) h⟩
    -- the check computes the CRC first
    rcases computeCrc_trace h₁ with ⟨hidle, _⟩ | ⟨_, hne⟩
    · exact absurd (hwriting.symm.trans hidle) (by decide)
    · exact hne

theorem getFileInfo_ne_nil {fname : List UInt8} {y : (FilesysError × FileInfo × Int) × FilesysVars}
    (h : (filesysGetFileInfo fname).replay v t = some y) : t ≠ [] :=
  ne_nil_of_open h

/-- What the trace and the result of an operation say of the flags it started from. -/
structure Quiet (v : FilesysVars) (op : FilesysOp) (r : OpResult) : Prop where
  unreached : op.reachesLfs v = false
  refused : op ≠ .clearBuffer → (r.error ≠ .ok ↔ op.refused v = true)

/-- All that an operation calls which does not mount is on files. -/
theorem trace_onFiles (hop : op.mounts = false) (h : OpPath cfg v op t r w) :
    ∀ c ∈ t, c.call.onFiles = true := by
  cases h with
  | init h => cases hop
  | reformatInit h => cases hop
  | clearBuffer => exact List.forall_mem_nil _
  | startFileWrite h => cases h <;> simp [LfsCall.onFiles]
  | writeDataToBuffer h => cases h <;> exact List.forall_mem_nil _
  | writeBufferToMram h =>
    cases h with
    -- the cancel behind a failed write removes the file
    | writeFailed _ _ _ _ hcancel => cases hcancel <;> simp [LfsCall.onFiles]
    | _ => simp [LfsCall.onFiles]
  | completeFileWrite h =>
    cases h with
    | dirty _ => exact List.forall_mem_nil _
    | rejected _ hcheck _ =>
      exact fun c hc => LfsCall.onFiles_of_inspects ((filesysIsCrcCorrect_inspects _ _ _ _ hcheck).2 c hc)
    | completed _ hcheck =>
      exact fun c hc => LfsCall.onFiles_of_inspects ((filesysIsCrcCorrect_inspects _ _ _ _ hcheck).2 c hc)
  | cancelFileWrite h => cases h <;> simp [LfsCall.onFiles]
  | inspect hinspects h =>
    exact fun c hc => LfsCall.onFiles_of_inspects
      ((FilesysOp.prog_inspects cfg hinspects _ _ _ _ h).2 c hc)

theorem trace_cases_of_inspects (hop : op.inspects = true)
    (h : (op.prog cfg).replay v t = some (r, w)) :
    t = [] ∧ Quiet v op r ∨ t ≠ [] ∧ op.reachesLfs v = true ∧ op.refused v = false := by
  cases op with
  | computeCrc =>
    obtain ⟨c, h₁, rfl⟩ := replay_bind_pure h
    rcases computeCrc_trace h₁ with ⟨hidle, rfl, hfail⟩ | ⟨hwriting, hne⟩
    · exact Or.inl ⟨rfl, hidle, fun _ => by simp [FilesysOp.refused, hidle, hfail]⟩
    · exact Or.inr ⟨hne, hwriting, by simp [FilesysOp.refused, hwriting]⟩
  | isCrcCorrect =>
    obtain ⟨⟨e, c⟩, h₁, rfl⟩ := replay_bind_pure h
    rcases isCrcCorrect_trace h₁ with ⟨hidle, rfl, hfail⟩ | ⟨hwriting, hne⟩
    · exact Or.inl ⟨rfl, hidle, fun _ => by simp [FilesysOp.refused, hidle, hfail]⟩
    · exact Or.inr ⟨hne, hwriting, by simp [FilesysOp.refused, hwriting]⟩
  | listFiles maxFiles =>
    obtain ⟨_, h₁, rfl⟩ := replay_bind_pure h
    obtain ⟨_, u, rfl, _⟩ := replay_perform_bind.mp h₁
    exact Or.inr ⟨List.cons_ne_nil _ _, rfl, rfl⟩
  | getFileInfo fname =>
    obtain ⟨_, h₁, rfl⟩ := replay_bind_pure h
    exact Or.inr ⟨getFileInfo_ne_nil h₁, rfl, rfl⟩
  | openFileRead file fname =>
    obtain ⟨_, h₁, rfl⟩ := replay_bind_pure h
    exact Or.inr ⟨ne_nil_of_bind getFileInfo_ne_nil h₁, rfl, rfl⟩
  | readData file size | readFileSeek file off whence | readFileTell file | readFileSize file
  | closeFileRead file =>
    obtain ⟨_, h₁, rfl⟩ := replay_bind_pure h
    obtain ⟨_, u, rfl, _⟩ := replay_perform_bind.mp h₁
    exact Or.inr ⟨List.cons_ne_nil _ _, rfl, rfl⟩
  | _ => cases hop

/-- **An operation that does not mount** makes no call at all, or it reaches littlefs. -/
theorem trace_cases (hop : op.mounts = false) (h : OpPath cfg v op t r w) :
    t = [] ∧ Quiet v op r ∨ t ≠ [] ∧ op.reachesLfs v = true ∧ op.refused v = false := by
  cases h with
  | init h => cases hop
  | reformatInit h => cases hop
  | clearBuffer => exact Or.inl ⟨rfl, rfl, fun hne => absurd rfl hne⟩
  | startFileWrite h =>
    cases h with
    -- refused before the first call
    | alreadyWriting h => exact Or.inl ⟨rfl, by simp [FilesysOp.reachesLfs, h], by simp [FilesysOp.refused, h]⟩
    | fsSizeFailed h | noSpace h | openFailed h | setattrFailed h | closeFailed h | started h =>
      exact Or.inr ⟨List.cons_ne_nil _ _, by simp [FilesysOp.reachesLfs, h], by simp [FilesysOp.refused, h]⟩
  | writeDataToBuffer h =>
    refine Or.inl ?_
    cases h with
    | exceeds h => exact ⟨rfl, rfl, fun _ => by simp only [FilesysOp.refused, decide_eq_true h]; simp⟩
    | noFile h hidle => exact ⟨rfl, rfl, by simp [FilesysOp.refused, hidle]⟩
    | written h hwriting => exact ⟨rfl, rfl, fun _ => by
        simp only [FilesysOp.refused, decide_eq_false h, hwriting]; simp⟩
  | writeBufferToMram h =>
    cases h with
    | noFile h => exact Or.inl ⟨rfl, by simp [FilesysOp.reachesLfs, h], by simp [FilesysOp.refused, h]⟩
    | clean h hdirty =>
      exact Or.inl ⟨rfl, by simp [FilesysOp.reachesLfs, hdirty], by simp [FilesysOp.refused, h]⟩
    | openFailed h hdirty | writeFailed h hdirty | closeFailed h hdirty | flushed h hdirty =>
      exact Or.inr ⟨List.cons_ne_nil _ _, by simp [FilesysOp.reachesLfs, h, hdirty],
        by simp [FilesysOp.refused, h]⟩
  | completeFileWrite h =>
    cases h with
    | dirty h => exact Or.inl ⟨rfl, by simp [FilesysOp.reachesLfs, h], by simp [FilesysOp.refused, h]⟩
    | rejected h hcheck hr =>
      -- the CRC is read through littlefs only while a write is in progress
      rcases isCrcCorrect_trace hcheck with ⟨hidle, rfl, _⟩ | ⟨hwriting, hne⟩
      · exact Or.inl ⟨rfl, by simp [FilesysOp.reachesLfs, hidle], by simp [FilesysOp.refused, hidle, hr]⟩
      · exact Or.inr ⟨hne, by simp [FilesysOp.reachesLfs, h, hwriting],
          by simp [FilesysOp.refused, h, hwriting]⟩
    | completed h hcheck =>
      rcases isCrcCorrect_trace hcheck with ⟨_, _, hfail⟩ | ⟨hwriting, hne⟩
      · exact absurd rfl hfail
      · exact Or.inr ⟨hne, by simp [FilesysOp.reachesLfs, h, hwriting],
          by simp [FilesysOp.refused, h, hwriting]⟩
  | cancelFileWrite h =>
    cases h with
    | noFile h => exact Or.inl ⟨rfl, by simp [FilesysOp.reachesLfs, h], by simp [FilesysOp.refused, h]⟩
    | removeFailed h | cancelled h =>
      exact Or.inr ⟨List.cons_ne_nil _ _, by simp [FilesysOp.reachesLfs, h], by simp [FilesysOp.refused, h]⟩
  | inspect hinspects h => exact trace_cases_of_inspects hinspects h

end Calls

/-! ## The discipline -/

section Discipline

variable {cfg : LfsConfig} {s s' : FilesysState MountState} {e : FilesysEvent}

/-- What is asked of an operation: no call on files goes out unmounted, no write counts as in
progress behind a reformat that failed, and until a mount succeeds every operation is refused.
`filesys_clear_buffer` returns nothing, so it has no error to return. -/
structure Disciplined (s s' : FilesysState MountState) (e : FilesysEvent) : Prop where
  mounted : AllSteps mountLfs MountedCall s.lfs e.trace
  idle : e.op = .reformatInit → e.result.error ≠ .ok → s'.vars.isWritingFile = false
  refused : s.lfs = .reformatFailed → e.op.mounts = false →
    e.trace = [] ∧ (e.op = .clearBuffer ∨ e.result.error ≠ .ok)

/-- `lfs_format` and `lfs_mount` succeed. -/
def FilesysEvent.Reformats (e : FilesysEvent) : Prop :=
  ∀ c ∈ e.trace, c.call = .format ∨ c.call = .mount → 0 ≤ LfsEvent.code c

/-- The operations that keep the discipline, by the state they start from and the results of
`lfs_format` and `lfs_mount`. -/
structure Permitted (s : FilesysState MountState) (e : FilesysEvent) : Prop where
  mountFailed : s.lfs = .mountFailed → e.op.mounts = true ∨ e.op.reachesLfs s.vars = false
  reformatFailed : s.lfs = .reformatFailed →
    e.op.mounts = true ∨ e.op = .clearBuffer ∨ e.op.refused s.vars = true
  idle : e.op = .reformatInit → s.vars.isWritingFile = false ∨ e.Reformats

theorem initPath_calls {v w : FilesysVars} {t : List LfsEvent} {r : FilesysError × Int}
    (h : InitPath v t r w) : ∀ c ∈ t, c.call.onFiles = false := by
  cases h <;> exact fun c hc => by rw [List.mem_singleton.mp hc]; rfl

theorem unmountTrace_calls {v : FilesysVars} {err : Int} {c : LfsEvent}
    (h : c ∈ unmountTrace v err) : c.call = .unmount := by
  unfold unmountTrace at h
  split at h
  · rw [List.mem_singleton.mp h]
  · cases h

theorem reformatPath_calls {v w : FilesysVars} {t : List LfsEvent} {r : FilesysError × Int}
    (h : ReformatPath v t r w) : ∀ c ∈ t, c.call.onFiles = false := by
  intro c hc
  cases h with
  | formatFailed h =>
    rcases List.mem_append.mp hc with hc | hc
    · rw [unmountTrace_calls hc]
      rfl
    · rw [List.mem_singleton.mp hc]
      rfl
  | formatted h hinit =>
    rcases List.mem_append.mp hc with hc | hc
    · rw [unmountTrace_calls hc]
      rfl
    · rcases List.mem_cons.mp hc with rfl | hc
      · rfl
      · exact initPath_calls hinit c hc

/-- Behind a reformat that failed a write counts as in progress exactly if one did before. -/
theorem reformat_idle_iff {v w : FilesysVars} {t : List LfsEvent} {r : FilesysError × Int}
    (hbuffer : v.bufferAllocated = true) (h : ReformatPath v t r w) :
    (r.1 ≠ .ok → w.isWritingFile = false) ↔ v.isWritingFile = false ∨
      ∀ c ∈ t, c.call = .format ∨ c.call = .mount → 0 ≤ LfsEvent.code c := by
  cases h with
  | @formatFailed e err h =>
    -- the code of the format is an error: only the flag can make the condition true
    have hfails : ¬∀ c ∈ unmountTrace v e ++ [called .format err],
        c.call = .format ∨ c.call = .mount → 0 ≤ LfsEvent.code c := by
      intro hall
      have hcode := hall (called .format err) (by simp) (Or.inl rfl)
      exact absurd hcode (Int.not_le.mpr h)
    simp only [ne_eq, hfails, or_false]
    exact ⟨fun hw => hw (by decide), fun hv _ => hv⟩
  | @formatted e err t r w h hinit =>
    cases hinit with
    | @mountFailed m hm =>
      have hfails : ¬∀ c ∈ unmountTrace v e ++ called .format err :: [called .mount m],
          c.call = .format ∨ c.call = .mount → 0 ≤ LfsEvent.code c := by
        intro hall
        have hcode := hall (called .mount m) (by simp) (Or.inr rfl)
        exact absurd hcode (Int.not_le.mpr hm)
      simp only [ne_eq, hfails, or_false]
      exact ⟨fun hw => hw (by decide), fun hv _ => hv⟩
    | noBuffer _ hnone => exact absurd (hnone.symm.trans hbuffer) (by decide)
    | @mounted m hm _ =>
      refine ⟨fun _ => Or.inr fun c hc hcall => ?_, fun _ hfail => absurd rfl hfail⟩
      rcases List.mem_append.mp hc with hc | hc
      · -- the unmount is neither
        rw [unmountTrace_calls hc] at hcall
        rcases hcall with hcall | hcall <;> cases hcall
      rcases List.mem_cons.mp hc with rfl | hc
      · exact Int.not_lt.mp h
      · rw [List.mem_singleton.mp hc]
        exact Int.not_lt.mp hm

/-- One operation keeps the discipline exactly if it is permitted. -/
theorem disciplined_iff (hbuffer : s.vars.bufferAllocated = true)
    (hstep : filesysStep mountLfs cfg s e = some s') : Disciplined s s' e ↔ Permitted s e := by
  obtain ⟨v, m⟩ := s
  obtain ⟨w, m'⟩ := s'
  obtain ⟨op, t, r⟩ := e
  have hpath : OpPath cfg v op t r w := opPath ((filesysStep_eq_some _ _).mp hstep).1
  by_cases hop : op.mounts = true
  · -- a mount or a reformat makes no call on files, so only the flag is left
    have hcalls : ∀ c ∈ t, c.call.onFiles = false := by
      cases hpath with
      | init h => exact initPath_calls h
      | reformatInit h => exact reformatPath_calls h
      | inspect hinspects _ => exact absurd (hop.symm.trans (mounts_of_inspects hinspects)) (by decide)
      | _ => cases hop
    have hidle : (op = .reformatInit → r.error ≠ .ok → w.isWritingFile = false) ↔
        (op = .reformatInit → v.isWritingFile = false ∨
          FilesysEvent.Reformats ⟨op, t, r⟩) := by
      cases hpath with
      | reformatInit h =>
        have hiff := reformat_idle_iff hbuffer h
        exact ⟨fun hw _ => hiff.mp (hw rfl), fun hw _ => hiff.mpr (hw rfl)⟩
      | init h => exact ⟨nofun, nofun⟩
      | inspect hinspects _ => exact absurd (hop.symm.trans (mounts_of_inspects hinspects)) (by decide)
      | _ => cases hop
    constructor
    · intro h
      exact ⟨fun _ => Or.inl hop, fun _ => Or.inl hop, hidle.mp h.idle⟩
    · intro h
      refine ⟨allSteps_mounted_of_none hcalls, hidle.mpr h.idle, fun _ hmounts => ?_⟩
      exact absurd (hop.symm.trans hmounts) (by decide)
  · have hop : op.mounts = false := Bool.eq_false_of_not_eq_true hop
    have hreformat {P : Prop} (h : op = .reformatInit) : P := by
      rw [h] at hop
      cases hop
    -- otherwise the operation is refused by its flags, or it reaches littlefs
    rcases trace_cases hop hpath with ⟨rfl, hquiet⟩ | ⟨hne, hreaches, hrefused⟩
    · constructor
      · intro h
        refine ⟨fun _ => Or.inr hquiet.unreached, fun hfailed => Or.inr ?_, hreformat⟩
        by_cases hclear : op = .clearBuffer
        · exact Or.inl hclear
        · exact Or.inr ((hquiet.refused hclear).mp ((h.refused hfailed hop).2.resolve_left hclear))
      · intro h
        refine ⟨trivial, hreformat, fun hfailed _ => ⟨rfl, ?_⟩⟩
        by_cases hclear : op = .clearBuffer
        · exact Or.inl hclear
        · have hrefused := ((h.reformatFailed hfailed).resolve_left
            (by simp only [hop]; decide)).resolve_left hclear
          exact Or.inr ((hquiet.refused hclear).mpr hrefused)
    · -- it reaches littlefs: then littlefs has to be mounted
      have hcalls : ∀ c ∈ t, c.call.onFiles = true := trace_onFiles hop hpath
      have hclear : op ≠ .clearBuffer := by
        rintro rfl
        cases hreaches
      constructor
      · intro h
        have hmounted := ((allSteps_mounted_iff hcalls).mp h.mounted).resolve_right hne
        refine ⟨fun hfailed => ?_, fun hfailed => ?_, hreformat⟩
        · cases hmounted.symm.trans hfailed
        · cases hmounted.symm.trans hfailed
      · intro h
        have hmounted : m = .mounted := by
          cases m with
          | mounted => rfl
          | mountFailed =>
            have := (h.mountFailed rfl).resolve_left (by simp only [hop]; decide)
            exact absurd (hreaches.symm.trans this) (by decide)
          | reformatFailed =>
            have := ((h.reformatFailed rfl).resolve_left (by simp only [hop]; decide)).resolve_left
              hclear
            exact absurd (this.symm.trans hrefused) (by decide)
        refine ⟨(allSteps_mounted_iff hcalls).mpr (Or.inl hmounted), hreformat, fun hfailed => ?_⟩
        cases hmounted.symm.trans hfailed

/-- The heap buffer stays. -/
theorem opPath_bufferAllocated {v w : FilesysVars} {op : FilesysOp} {t : List LfsEvent}
    {r : OpResult} (h : OpPath cfg v op t r w) : w.bufferAllocated = v.bufferAllocated := by
  cases h with
  | init h => cases h <;> rfl
  | reformatInit h =>
    cases h with
    | formatFailed _ => rfl
    | formatted _ hinit => cases hinit <;> rfl
  | startFileWrite h =>
    have hcleaned : v.cleaned.bufferAllocated = v.bufferAllocated := by
      unfold FilesysVars.cleaned
      split <;> rfl
    cases h <;> first | rfl | exact hcleaned
  | writeDataToBuffer h => cases h <;> rfl
  | writeBufferToMram h =>
    cases h with
    | writeFailed _ _ _ _ hcancel => cases hcancel <;> rfl
    | _ => rfl
  | completeFileWrite h => cases h <;> rfl
  | clearBuffer => rfl
  | cancelFileWrite h => cases h <;> rfl
  | inspect _ _ => rfl

/-- Behind a successful `filesys_initialize` there is a buffer, and there stays one. -/
theorem bufferAllocated_of_run {e₀ : FilesysEvent} {es : List FilesysEvent}
    {s₀ : FilesysState MountState} (he₀ : e₀.op = .init) (hok : e₀.result.error = .ok)
    (hrun : run (filesysStep mountLfs cfg) s₀ (e₀ :: es) = some s) :
    s.vars.bufferAllocated = true := by
  obtain ⟨s₁, hstep, hrest⟩ := run_cons_some _ hrun
  refine invariant' _ (I := fun s => s.vars.bufferAllocated = true) (fun s e s' hs hstep => ?_) hrest ?_
  · exact (opPath_bufferAllocated (opPath ((filesysStep_eq_some _ _).mp hstep).1)).trans hs
  · obtain ⟨op, t, r⟩ := e₀
    obtain ⟨v, m⟩ := s₀
    obtain ⟨w, m'⟩ := s₁
    obtain rfl : op = .init := he₀
    have hpath : OpPath cfg v .init t r w := opPath ((filesysStep_eq_some _ _).mp hstep).1
    cases hpath with
    | init h =>
      cases h with
      | mountFailed _ => cases hok
      | noBuffer _ _ => cases hok
      | mounted _ hbuffer => exact hbuffer
    | inspect hop _ => cases hop

end Discipline

/-- **Mount discipline.** In every run behind a successful `filesys_initialize`, the next
operation keeps the discipline if and only if it is permitted. -/
theorem mount_discipline (cfg : LfsConfig) (s₀ : FilesysState MountState) (e₀ : FilesysEvent)
    (es : List FilesysEvent) (he₀ : e₀.op = .init) (hok : e₀.result.error = .ok)
    (s : FilesysState MountState) (hrun : run (filesysStep mountLfs cfg) s₀ (e₀ :: es) = some s)
    (e : FilesysEvent) (s' : FilesysState MountState)
    (hstep : filesysStep mountLfs cfg s e = some s') : Disciplined s s' e ↔ Permitted s e :=
  disciplined_iff (bufferAllocated_of_run he₀ hok hrun) hstep

/-- A `filesys_list_files` behind a mount that succeeded. -/
def sampleListEmpty : FilesysEvent :=
  ⟨.listFiles 4,
    [called (.dirOpen filesysRootDir) (0 : Int), called .dirRead (⟨0, ⟨0, []⟩⟩ : DirResult),
      called .dirClose (0 : Int)],
    { error := .ok, lfsErrorCode := 0 }⟩

/-- A reformat in which `lfs_format` fails. -/
def sampleFailedReformat : FilesysEvent :=
  ⟨.reformatInit, [called .unmount (0 : Int), called .format (-5 : Int)],
    { error := .errReformat, lfsErrorCode := -5 }⟩

/-- Listing files while they are mounted is disciplined. -/
theorem mount_discipline_list :
    ∃ s s', run (filesysStep mountLfs mramConfig) ⟨.atBoot, .mountFailed⟩ [sampleInit] = some s ∧
      filesysStep mountLfs mramConfig s sampleListEmpty = some s' ∧
      Disciplined s s' sampleListEmpty := by
  refine ⟨_, _, rfl, rfl, ?_⟩
  refine (mount_discipline mramConfig ⟨.atBoot, .mountFailed⟩ sampleInit [] rfl rfl _ rfl
    sampleListEmpty _ rfl).mpr ⟨?_, ?_, ?_⟩
  · exact nofun
  · exact nofun
  · exact nofun

/-- **A failed reformat is not noticed**: behind it `filesys_list_files` opens a directory of the
unmounted littlefs. -/
theorem failed_reformat_undisciplined :
    ¬∀ (s₀ : FilesysState MountState) (e₀ : FilesysEvent) (es : List FilesysEvent),
      e₀.op = .init → e₀.result.error = .ok → ∀ s,
      run (filesysStep mountLfs mramConfig) s₀ (e₀ :: es) = some s → ∀ e s',
      filesysStep mountLfs mramConfig s e = some s' → Disciplined s s' e := by
  intro h
  have hlist := h ⟨.atBoot, .mountFailed⟩ sampleInit [sampleFailedReformat] rfl rfl _ rfl
    sampleListEmpty _ rfl
  cases hlist.mounted.1 rfl

end Samwise
