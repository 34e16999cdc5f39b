import Samwise.Filesys.ContentLaw

/-!
# Samwise — the bounds of the write buffer

`filesys_buffer` is a heap block of `FILESYS_BUFFER_SIZE` bytes, which two operations share,
each with a length of its own. `filesys_write_data_to_buffer` compares offset and length with
the size of the block before anything else. `filesys_write_buffer_to_mram` compares its length
with nothing: `lfs_file_write` is given a range that may end beyond the block.
-/

namespace Samwise

open Interaction Memory Prog Run

/-- The bytes of `filesys_buffer` that an operation goes through. `lfs_file_write` counts with
all of the range it is given, also where it fails on the way. -/
inductive TouchesBuffer (e : FilesysEvent) : Nat → Prop where
  /-- The `memcpy` of `filesys_write_data_to_buffer`. -/
  | stored {data : Mem} {nBytes offset : UInt16} {i : Nat}
      (hop : e.op = .writeDataToBuffer data nBytes offset) (hok : e.result.error = .ok)
      (hi : i < nBytes.toNat) : TouchesBuffer e (offset.toNat + i)
  /-- The `lfs_file_write` of `filesys_write_buffer_to_mram`. -/
  | handed {nBytes : UInt16} {file : FileRef} {data : List UInt8} {n : Int} {i : Nat}
      (hop : e.op = .writeBufferToMram nBytes)
      (hcall : called (.fileWrite file data) n ∈ e.trace) (hi : i < data.length) :
      TouchesBuffer e i
  /-- The loop of `filesys_clear_buffer`. -/
  | cleared {i : Nat} (hi : i < filesysBufferSize) : TouchesBuffer e i

/-- Where the bytes end that an operation's arguments ask for. -/
def FilesysOp.bufferEnd : FilesysOp → Nat
  | .writeDataToBuffer _ nBytes offset => offset.toNat + nBytes.toNat
  | .writeBufferToMram nBytes => nBytes.toNat
  | _ => 0

/-- The operation keeps to the buffer, and one that asks for more is refused. -/
structure WithinBuffer (s s' : FilesysState FileStore) (e : FilesysEvent) : Prop where
  inside : ∀ i, TouchesBuffer e i → i < filesysBufferSize
  refused : filesysBufferSize < e.op.bufferEnd →
    e.result.error ≠ .ok ∧ s'.vars.buffer = s.vars.buffer ∧
      s'.vars.bufferIsDirty = s.vars.bufferIsDirty ∧ s'.lfs.files = s.lfs.files

/-- A flush has a length that fits, or does not come to its `lfs_file_write`: there is no file,
or `lfs_file_opencfg` fails. -/
def FlushFits (s : FilesysState FileStore) (e : FilesysEvent) : Prop :=
  ∀ nBytes, e.op = .writeBufferToMram nBytes →
    nBytes.toNat ≤ filesysBufferSize ∨ s.vars.isWritingFile = false ∨
      (s.vars.bufferIsDirty = true ∧
        ∃ (file : FileRef) (path : List UInt8) (flags : OpenFlags) (o : Int),
          o < 0 ∧ called (.fileOpencfg file path flags) o ∈ e.trace)

section Steps

variable {resolve : List UInt8 → List UInt8} {cfg : LfsConfig}
  {s s' : FilesysState FileStore} {e : FilesysEvent}

/-- An operation that asks for no byte of the buffer, or for one within, only has to keep to
it. -/
theorem WithinBuffer.of_le (hend : e.op.bufferEnd ≤ filesysBufferSize)
    (hinside : ∀ i, TouchesBuffer e i → i < filesysBufferSize) : WithinBuffer s s' e :=
  ⟨hinside, fun h => absurd hend (Nat.not_le.mpr h)⟩

/-- `filesys_write_data_to_buffer` is always within. -/
theorem withinBuffer_writeData {data : Mem} {nBytes offset : UInt16} {r : FilesysError × Int}
    (hop : e.op = .writeDataToBuffer data nBytes offset)
    (hpath : WriteDataPath data nBytes offset s.vars e.trace r s'.vars)
    (hresult : e.result.error = r.1) (hrun : run (storeLfs resolve) s.lfs e.trace = some s'.lfs) :
    WithinBuffer s s' e := by
  have hinside (hend : e.result.error = .ok → offset.toNat + nBytes.toNat ≤ filesysBufferSize) :
      ∀ i, TouchesBuffer e i → i < filesysBufferSize := by
    intro i h
    cases h with
    | stored hop' hok hi =>
      obtain ⟨rfl, rfl, rfl⟩ := FilesysOp.writeDataToBuffer.inj (hop.symm.trans hop')
      have := hend hok
      omega
    | handed hop' _ _ => cases hop.symm.trans hop'
    | cleared hi => exact hi
  obtain ⟨op, t, result⟩ := e
  obtain ⟨v, l⟩ := s
  obtain ⟨v', l'⟩ := s'
  dsimp only at hop hpath hresult hrun
  subst hop
  cases hpath with
  | exceeds hexceeds =>
    obtain rfl : l = l' := Option.some.inj hrun
    refine ⟨hinside fun hok => ?_, fun _ => ⟨?_, rfl, rfl, rfl⟩⟩
    · cases hresult.symm.trans hok
    · rw [hresult]
      decide
  | noFile hfits _ => exact .of_le (Nat.not_lt.mp hfits) (hinside fun _ => Nat.not_lt.mp hfits)
  | written hfits _ => exact .of_le (Nat.not_lt.mp hfits) (hinside fun _ => Nat.not_lt.mp hfits)

/-- A call of `lfs_file_opencfg` or `lfs_file_write`. -/
def LfsCall.opensOrWrites : LfsCall → Bool
  | .fileOpencfg _ _ _ | .fileWrite _ _ => true
  | _ => false

theorem opensOrWrites_cancel {v w : FilesysVars} {t : List LfsEvent} {r : FilesysError × Int}
    (h : CancelPath v t r w) : ∀ ev ∈ t, LfsCall.opensOrWrites ev.call = false := by
  cases h with
  | noFile _ => exact List.forall_mem_nil _
  | removeFailed _ _ => exact List.forall_mem_singleton.mpr rfl
  | cancelled _ _ => exact List.forall_mem_singleton.mpr rfl

/-- In the calls of a flush the first is the only `lfs_file_opencfg`, the second the only
`lfs_file_write`. -/
theorem mem_flush_calls {file file' : FileRef} {path data : List UInt8} {flags : OpenFlags}
    {o b : Int} {u : List LfsEvent} (hu : ∀ ev ∈ u, LfsCall.opensOrWrites ev.call = false)
    {ev : LfsEvent} (hev : LfsCall.opensOrWrites ev.call = true)
    (hmem : ev ∈ called (.fileOpencfg file path flags) o ::
      called (.fileWrite file' data) b :: u) :
    ev = called (.fileOpencfg file path flags) o ∨ ev = called (.fileWrite file' data) b := by
  rcases List.mem_cons.mp hmem with h | hmem
  · exact .inl h
  · rcases List.mem_cons.mp hmem with h | hmem
    · exact .inr h
    · exact absurd (hev.symm.trans (hu ev hmem)) (Ne.symm Bool.false_ne_true)

/-- A flush that comes to its `lfs_file_write` is within exactly if its length fits. -/
theorem withinBuffer_flush_of_written {nBytes : UInt16} {file file' : FileRef}
    {path : List UInt8} {flags : OpenFlags} {o b : Int} {u : List LfsEvent}
    (hop : e.op = .writeBufferToMram nBytes) (hwriting : s.vars.isWritingFile = true)
    (htrace : e.trace = called (.fileOpencfg file path flags) o ::
      called (.fileWrite file' (Memory.read s.vars.buffer 0 nBytes.toNat)) b :: u)
    (ho : ¬o < 0) (hu : ∀ ev ∈ u, LfsCall.opensOrWrites ev.call = false) :
    WithinBuffer s s' e ↔ FlushFits s e := by
  constructor
  · -- the byte behind the buffer is not read
    intro hwithin n hop'
    obtain rfl := FilesysOp.writeBufferToMram.inj (hop.symm.trans hop')
    refine .inl (Nat.not_lt.mp fun hlong => ?_)
    refine Nat.lt_irrefl _ (hwithin.inside filesysBufferSize (.handed hop (n := b) (?_ : called
      (.fileWrite file' (Memory.read s.vars.buffer 0 nBytes.toNat)) b ∈ e.trace) ?_))
    · rw [htrace]
      exact List.mem_cons_of_mem _ List.mem_cons_self
    · rwa [Memory.length_read]
  · intro hfits
    have hle : nBytes.toNat ≤ filesysBufferSize := by
      obtain hle | hidle | ⟨_, file₁, path₁, flags₁, o₁, ho₁, hmem⟩ := hfits nBytes hop
      · exact hle
      · cases hwriting.symm.trans hidle
      · rw [htrace] at hmem
        rcases mem_flush_calls hu rfl hmem with heq | heq
        · cases heq
          exact absurd ho₁ ho
        · cases heq
    refine .of_le (by rwa [hop]) fun i h => ?_
    cases h with
    | stored hop' _ _ => cases hop.symm.trans hop'
    | handed _ hcall hi =>
      rw [htrace] at hcall
      rcases mem_flush_calls hu rfl hcall with heq | heq
      · cases heq
      · cases heq
        rw [Memory.length_read] at hi
        exact Nat.lt_of_lt_of_le hi hle
    | cleared hi => exact hi

/-- `filesys_write_buffer_to_mram` is within where its length fits or it does not come to the
`lfs_file_write`. -/
theorem withinBuffer_flush {nBytes : UInt16} {r : FilesysError × Int}
    (hop : e.op = .writeBufferToMram nBytes)
    (hpath : FlushPath nBytes s.vars e.trace r s'.vars) (hresult : e.result.error = r.1)
    (hrun : run (storeLfs resolve) s.lfs e.trace = some s'.lfs) :
    WithinBuffer s s' e ↔ FlushFits s e := by
  -- on the paths without a `lfs_file_write` only the clearing touches the buffer
  have hinside (hnone : (∀ ev ∈ e.trace, LfsCall.opensOrWrites ev.call = false) ∨
      ∃ path o, e.trace = [called (.fileOpencfg .writeBufferToMram path .wronlyAppend) o]) :
      ∀ i, TouchesBuffer e i → i < filesysBufferSize := by
    intro i h
    cases h with
    | stored hop' _ _ => cases hop.symm.trans hop'
    | handed _ hcall _ =>
      obtain hnone | ⟨path, o, htrace⟩ := hnone
      · exact absurd (hnone _ hcall) (Ne.symm Bool.false_ne_true)
      · rw [htrace] at hcall
        cases List.mem_singleton.mp hcall
    | cleared hi => exact hi
  obtain ⟨op, t, result⟩ := e
  obtain ⟨v, l⟩ := s
  obtain ⟨v', l'⟩ := s'
  dsimp only at hop hpath hresult hrun hinside
  subst hop
  cases hpath with
  | noFile hidle =>
    obtain rfl : l = l' := Option.some.inj hrun
    refine iff_of_true ⟨hinside (.inl (List.forall_mem_nil _)), fun _ => ?_⟩ ?_
    · refine ⟨?_, rfl, rfl, rfl⟩
      rw [hresult]
      decide
    · exact fun _ _ => .inr (.inl hidle)
  | clean hwriting hclean =>
    constructor
    · intro hwithin n hop'
      obtain rfl := FilesysOp.writeBufferToMram.inj hop'
      exact .inl (Nat.not_lt.mp fun hlong => (hwithin.refused hlong).1 hresult)
    · intro hfits
      obtain hle | hidle | ⟨hdirty, _⟩ := hfits nBytes rfl
      · exact .of_le hle (hinside (.inl (List.forall_mem_nil _)))
      · cases hwriting.symm.trans hidle
      · cases hclean.symm.trans hdirty
  | openFailed _ hdirty ho =>
    refine iff_of_true ⟨hinside (.inr ⟨_, _, rfl⟩), fun _ => ?_⟩ ?_
    · obtain ⟨l₁, hopen, hnil⟩ := run_cons_some _ hrun
      obtain rfl : l₁ = l' := Option.some.inj hnil
      rw [storeLfs_fileOpencfg, if_pos ho] at hopen
      obtain rfl := Option.some.inj hopen
      refine ⟨?_, rfl, rfl, rfl⟩
      rw [hresult]
      simp
    · exact fun _ _ => .inr (.inr ⟨hdirty, _, _, _, _, ho, List.mem_singleton_self _⟩)
  | writeFailed hwriting _ ho _ hcancel =>
    apply withinBuffer_flush_of_written rfl hwriting rfl ho
    exact List.forall_mem_cons.mpr ⟨rfl, List.forall_mem_cons.mpr ⟨rfl,
      opensOrWrites_cancel hcancel⟩⟩
  | closeFailed hwriting _ ho _ _ =>
    exact withinBuffer_flush_of_written rfl hwriting rfl ho (List.forall_mem_singleton.mpr rfl)
  | flushed hwriting _ ho _ _ =>
    exact withinBuffer_flush_of_written rfl hwriting rfl ho (List.forall_mem_singleton.mpr rfl)

/-- An operation that stores nothing in the buffer and gives nothing of it away is within. -/
theorem withinBuffer_other
    (hwrite : ∀ data nBytes offset, e.op ≠ .writeDataToBuffer data nBytes offset)
    (hflush : ∀ nBytes, e.op ≠ .writeBufferToMram nBytes) :
    WithinBuffer s s' e ↔ FlushFits s e := by
  refine iff_of_true (.of_le ?_ fun i h => ?_) fun n hop => absurd hop (hflush n)
  · cases hop : e.op with
    | writeDataToBuffer data nBytes offset => exact absurd hop (hwrite _ _ _)
    | writeBufferToMram nBytes => exact absurd hop (hflush _)
    | _ => exact Nat.zero_le _
  · cases h with
    | stored hop _ _ => exact absurd hop (hwrite _ _ _)
    | handed hop _ _ => exact absurd hop (hflush _)
    | cleared hi => exact hi

/-- **One operation** is within the buffer exactly if it is no flush that does not fit. -/
theorem withinBuffer_iff (hstep : filesysStep (storeLfs resolve) cfg s e = some s') :
    WithinBuffer s s' e ↔ FlushFits s e := by
  obtain ⟨hreplay, hrun⟩ := (filesysStep_eq_some _ _).mp hstep
  cases hop : e.op with
  | writeDataToBuffer data nBytes offset =>
    rw [hop] at hreplay
    obtain ⟨r, hreplay', hresult⟩ := replay_bind_pure hreplay
    refine iff_of_true (withinBuffer_writeData hop (writeDataPath hreplay') ?_ hrun) ?_
    · rw [hresult]
    · exact fun n hop' => nomatch hop.symm.trans hop'
  | writeBufferToMram nBytes =>
    rw [hop] at hreplay
    obtain ⟨r, hreplay', hresult⟩ := replay_bind_pure hreplay
    refine withinBuffer_flush hop (flushPath hreplay') ?_ hrun
    rw [hresult]
  | _ => exact withinBuffer_other (by simp [hop]) (by simp [hop])

/-- **The bounds of the write buffer.** In every run of filesystem operations from any state,
every byte of `filesys_buffer` that is read or written is inside the block, and what does not
fit is refused with nothing changed, exactly if every flush of the run has a length that fits,
or finds no file, or fails to open it. -/
theorem filesys_buffer_bounds (resolve : List UInt8 → List UInt8) (cfg : LfsConfig)
    (s : FilesysState FileStore) (es : List FilesysEvent) :
    AllSteps (filesysStep (storeLfs resolve) cfg)
        (fun s e => ∀ s', filesysStep (storeLfs resolve) cfg s e = some s' → WithinBuffer s s' e)
        s es ↔
      AllSteps (filesysStep (storeLfs resolve) cfg)
        (fun s e => ∀ s', filesysStep (storeLfs resolve) cfg s e = some s' → FlushFits s e)
        s es := by
  constructor
  · exact AllSteps.mono _ fun s e h s' hstep => (withinBuffer_iff hstep).mp (h s' hstep)
  · exact AllSteps.mono _ fun s e h s' hstep => (withinBuffer_iff hstep).mpr (h s' hstep)

end Steps

/-- A flush through all its calls, each of which succeeds. -/
theorem replay_flush {nBytes : UInt16} {v : FilesysVars} {b : Int}
    (hwriting : v.isWritingFile = true) (hdirty : v.bufferIsDirty = true) (hb : ¬b < 0) :
    (filesysWriteBufferToMram nBytes).replay v
        [called (.fileOpencfg .writeBufferToMram v.path .wronlyAppend) (0 : Int),
          called (.fileWrite .writeBufferToMram (Memory.read v.buffer 0 nBytes.toNat)) b,
          called (.fileClose .writeBufferToMram) (0 : Int)]
      = some ((.ok, lfsErrOk), v.clearBuffer) := by
  rw [filesysWriteBufferToMram, replay_vars_bind, if_neg (by simp [hwriting]),
    if_neg (by simp [hdirty])]
  refine replay_filesysFileOpen_bind.mpr ⟨0, _, rfl, ?_⟩
  rw [if_neg (by decide)]
  refine replay_perform_bind.mpr ⟨b, _, rfl, ?_⟩
  rw [if_neg hb]
  refine replay_filesysFileClose_bind.mpr ⟨0, _, rfl, ?_⟩
  rw [if_neg (by decide), replay_clearBuffer_bind]
  exact replay_pure.mpr ⟨rfl, rfl⟩

theorem exists_closeFile {l : FileStore} {file : FileRef} {o : OpenFile} (err : Int)
    (ho : l.handles file = some o) : ∃ l', l.closeFile file err = some l' := by
  simp only [FileStore.closeFile, ho]
  split
  · exact ⟨_, rfl⟩
  · exact ⟨_, rfl⟩

/-- The store takes such a flush, of bytes for which the file has room. -/
theorem exists_run_flush {resolve : List UInt8 → List UInt8} {l : FileStore} {f : FileEntry}
    {file : FileRef} {path data : List UInt8} (hfile : l.files (resolve path) = some f)
    (hroom : (f.content ++ data).length ≤ lfsFileMax) :
    ∃ l', run (storeLfs resolve) l
      [called (.fileOpencfg file path .wronlyAppend) (0 : Int),
        called (.fileWrite file data) (data.length : Int),
        called (.fileClose file) (0 : Int)] = some l' := by
  have hopen : storeLfs resolve l (called (.fileOpencfg file path .wronlyAppend) (0 : Int))
      = some (l.withHandle file
          { path := resolve path, flags := .wronlyAppend, content := f.content }) := by
    rw [storeLfs_fileOpencfg, if_neg (by decide)]
    simp only [FileStore.openFile, hfile]
  rw [run_cons, hopen, Option.bind_some, run_cons, storeLfs_fileWrite, FileStore.writeFile,
    FileStore.withHandle_self]
  have hdrop : f.content.drop (f.content.length + data.length) = [] :=
    List.drop_eq_nil_of_le (Nat.le_add_right _ _)
  simp only [hdrop, reduceCtorEq, if_true, if_false, List.take_length, List.append_nil]
  rw [if_neg (by omega), if_pos ⟨trivial, hroom⟩, Option.bind_some, run_cons, storeLfs_fileClose]
  obtain ⟨l', hclose⟩ := exists_closeFile 0 (FileStore.withHandle_self (s := l.withHandle file _))
  exact ⟨l', by rw [hclose]; rfl⟩

/-- The variables behind a start and a write of two bytes. -/
def overReadVars : FilesysVars :=
  ((FilesysVars.atBoot.mounted.named sampleName).started 2000 0).written (fun _ => 7) 2 0

/-- Longer than the buffer, which has 1025 bytes. -/
def overReadLength : UInt16 := 2000

/-- What `lfs_file_write` is given: 975 bytes of it lie behind the buffer. -/
def overReadData : List UInt8 := Memory.read overReadVars.buffer 0 overReadLength.toNat

/-- The flush succeeds, and the file gets what the heap holds behind the buffer. -/
theorem filesys_buffer_overread :
    ¬∀ resolve cfg s es, AllSteps (filesysStep (storeLfs resolve) cfg)
      (fun s e => ∀ s', filesysStep (storeLfs resolve) cfg s e = some s' → WithinBuffer s s' e)
      s es := by
  intro h
  have hall := h id mramConfig ⟨.atBoot, .empty⟩
    ([sampleInit, sampleStart 2000 0, sampleWrite] ++ [sampleFlush overReadLength overReadData])
  obtain ⟨lfs, hrun, hfile⟩ : ∃ lfs : FileStore,
      run (filesysStep (storeLfs id) mramConfig) ⟨.atBoot, .empty⟩
        [sampleInit, sampleStart 2000 0, sampleWrite] = some ⟨overReadVars, lfs⟩ ∧
      lfs.files [0x61, 0x62] = some ⟨[], some 0⟩ :=
    ⟨_, rfl, rfl⟩
  have hlength : overReadData.length = overReadLength.toNat := Memory.length_read _ _ _
  obtain ⟨lfs', hflush⟩ := @exists_run_flush id _ _ .writeBufferToMram _ overReadData hfile (by
      rw [List.nil_append, hlength]
      decide)
  have hreplay := @replay_flush overReadLength overReadVars overReadData.length rfl rfl (by omega)
  have hstep : filesysStep (storeLfs id) mramConfig ⟨overReadVars, lfs⟩
      (sampleFlush overReadLength overReadData) = some ⟨overReadVars.clearBuffer, lfs'⟩ :=
    (filesysStep_eq_some _ _).mpr ⟨replay_bind.mpr ⟨_, [], _, _, (List.append_nil _).symm, hreplay,
      replay_pure.mpr ⟨rfl, rfl⟩⟩, hflush⟩
  have hlast := (AllSteps.append_right _ hall hrun).1 _ hstep
  -- the first byte behind the buffer is among those handed over
  refine Nat.lt_irrefl _ (hlast.inside filesysBufferSize
    (.handed rfl (List.mem_cons_of_mem _ List.mem_cons_self) ?_))
  rw [hlength]
  decide

end Samwise
