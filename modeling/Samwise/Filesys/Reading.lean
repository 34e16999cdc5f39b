import Samwise.Filesys.FileStore

/-!
# Samwise — checking and reading over a store of files

What the CRC check and `filesys_open_file_read` find in a store of files, whatever part of
it littlefs reads at a time. A result about calls that may fail and one about calls that do
not come from the same induction: `StoresFiles` stands for both, with a proposition that a
failing call would prove.
-/

namespace Samwise

open Interaction Memory Prog Run

/-! ## Objects being read -/

/-- The object is open for reading, `cache_buffer` holds its data, and `rest` is what lies
behind its position. -/
def FileStore.Reads (s : FileStore) (file : FileRef) (rest : List UInt8) : Prop :=
  ∃ o, s.handles file = some o ∧ o.flags = .rdonly ∧ s.cacheOwner = some file ∧
    rest = o.content.drop o.pos

section Store

variable {resolve : List UInt8 → List UInt8} {s s' : FileStore} {file : FileRef}

/-- A successful open for reading. -/
theorem storeLfs_open_rdonly {path : List UInt8} {err : Int} (herr : ¬err < 0)
    (h : storeLfs resolve s (called (.fileOpencfg file path .rdonly) err) = some s') :
    ∃ e, s.files (resolve path) = some e ∧
      s' = s.withHandle file { path := resolve path, flags := .rdonly, content := e.content } := by
  rw [storeLfs_fileOpencfg, if_neg herr] at h
  unfold FileStore.openFile at h
  cases hfile : s.files (resolve path) with
  | none => simp [hfile] at h
  | some e =>
    rw [hfile] at h
    exact ⟨e, rfl, (Option.some.inj h).symm⟩

theorem FileStore.withHandle_reads {path content : List UInt8} :
    (s.withHandle file { path, flags := .rdonly, content }).Reads file content :=
  ⟨_, withHandle_self, rfl, rfl, rfl⟩

/-- The size of an open object's file. -/
theorem storeLfs_fileSize {n : Int} (hn : ¬n < 0)
    (h : storeLfs resolve s (called (.fileSize file) n) = some s') :
    ∃ o, s.handles file = some o ∧ n = o.content.length := by
  obtain ⟨o, ho, h⟩ := Option.bind_eq_some_iff.mp h
  split at h
  · next hsize => exact ⟨o, ho, hsize.resolve_left hn⟩
  · cases h

/-- The attribute of a file. -/
theorem storeLfs_getattr {path : List UInt8} {attr : AttrResult} (hattr : ¬attr.code < 0)
    (h : storeLfs resolve s ⟨LfsCall.getattr path, attr⟩ = some s') :
    (s.files (resolve path)).bind FileEntry.crcAttr = some attr.value := by
  simp only [storeLfs] at h
  split at h
  · next hvalue => exact hvalue.resolve_left hattr
  · cases h

/-- A read hands out a piece of the rest; an empty one only at its end. -/
theorem FileStore.Reads.read {rest : List UInt8} (hs : s.Reads file rest) {size : UInt32}
    {bytes : List UInt8} {h : bytes.length ≤ size.toNat}
    (hread : storeLfs resolve s ⟨LfsCall.fileRead file size, ReadResult.read bytes h⟩ = some s') :
    ∃ rest', rest = bytes ++ rest' ∧ s'.Reads file rest' ∧
      (bytes = [] → size.toNat = 0 ∨ rest = []) := by
  obtain ⟨o, ho, hflags, howner, rfl⟩ := hs
  have hread : s.readFile file (.read bytes h) = some s' := hread
  simp only [FileStore.readFile, ho, hflags, howner, ne_eq, not_true_eq_false, if_false,
    if_true] at hread
  split at hread
  · next hbytes =>
    obtain rfl := Option.some.inj hread
    refine ⟨(o.content.drop o.pos).drop bytes.length, ?_, ?_, hbytes.2⟩
    · nth_rewrite 1 [← List.take_append_drop bytes.length (o.content.drop o.pos)]
      rw [← hbytes.1]
    · exact ⟨_, Function.update_self _ _ _, rfl, rfl, List.drop_drop⟩
  · cases hread

end Store

/-! ## Failing calls -/

/-- `respond` is a store of files, perhaps one on which fewer calls fail; if one fails, then
`F`. -/
structure StoresFiles (resolve : List UInt8 → List UInt8)
    (respond : FileStore → LfsEvent → Option FileStore) (F : Prop) : Prop where
  store : ∀ {s e s'}, respond s e = some s' → storeLfs resolve s e = some s'
  fails : ∀ {s e s'}, respond s e = some s' → LfsEvent.code e < 0 → F

theorem StoresFiles.run {resolve : List UInt8 → List UInt8}
    {respond : FileStore → LfsEvent → Option FileStore} {F : Prop}
    (hstore : StoresFiles resolve respond F) {s s' : FileStore} {t : List LfsEvent}
    (h : Run.run respond s t = some s') : Run.run (storeLfs resolve) s t = some s' := by
  induction t generalizing s with
  | nil => exact h
  | cons e t ih =>
    obtain ⟨s₁, he, hrest⟩ := run_cons_some _ h
    rw [run_cons, hstore.store he]
    exact ih hrest

theorem storesFiles_storeLfs (resolve : List UInt8 → List UInt8) :
    StoresFiles resolve (storeLfs resolve) True := ⟨id, fun _ _ => trivial⟩

/-- The store of files on which no call fails. -/
def healthyLfs (resolve : List UInt8 → List UInt8) (s : FileStore) (e : LfsEvent) :
    Option FileStore :=
  if e.code < 0 then none else storeLfs resolve s e

theorem storesFiles_healthyLfs (resolve : List UInt8 → List UInt8) :
    StoresFiles resolve (healthyLfs resolve) False := by
  constructor
  · intro s e s' h
    unfold healthyLfs at h
    split at h
    · cases h
    · exact h
  · intro s e s' h hcode
    rw [healthyLfs, if_pos hcode] at h
    cases h

/-- A run without failing calls is one of this store. -/
theorem run_healthyLfs {resolve : List UInt8 → List UInt8} {s s' : FileStore} {t : List LfsEvent}
    (ht : ∀ e ∈ t, 0 ≤ LfsEvent.code e) (h : run (storeLfs resolve) s t = some s') :
    run (healthyLfs resolve) s t = some s' := by
  induction t generalizing s with
  | nil => exact h
  | cons e t ih =>
    obtain ⟨s₁, he, hrest⟩ := run_cons_some _ h
    have hcode : ¬e.code < 0 := not_lt.mpr (ht e List.mem_cons_self)
    rw [run_cons, healthyLfs, if_neg hcode, he]
    exact ih (fun e' he' => ht e' (List.mem_cons_of_mem _ he')) hrest

/-! ## The CRC of a file -/

section Crc

variable {resolve : List UInt8 → List UInt8} {respond : FileStore → LfsEvent → Option FileStore}
  {F : Prop} {s : FileStore} {v : FilesysVars}

theorem toNat_sub_ofNat {n : UInt32} {k : Nat} (h : k ≤ n.toNat) :
    (n - UInt32.ofNat k).toNat = n.toNat - k := by
  have hk : (UInt32.ofNat k).toNat = k :=
    UInt32.toNat_ofNat_of_lt' (Nat.lt_of_le_of_lt h n.toNat_lt)
  rw [UInt32.toNat_sub_of_le, hk]
  rwa [UInt32.le_iff_toNat_le, hk]

/-- One read asks for no more than is left, and for something. -/
theorem exists_toRead {bytesRemaining : UInt32} (hpos : 0 < bytesRemaining.toNat) :
    ∃ toRead : UInt32, toRead =
      (if bytesRemaining < filesysReadBufferSize then bytesRemaining else filesysReadBufferSize) ∧
      toRead.toNat ≤ bytesRemaining.toNat ∧ 0 < toRead.toNat := by
  refine ⟨_, rfl, ?_⟩
  split
  · exact ⟨Nat.le_refl _, hpos⟩
  · next h => exact ⟨UInt32.le_iff_toNat_le.mp (UInt32.not_lt.mp h), by decide⟩

/-- What the check of `n` bytes says of the rest of the file, with `crc` the CRC of what lies
before: the CRC of the first `n` bytes, or that there are too few. -/
def Checks (F : Prop) (rest : List UInt8) (n : Nat) (crc : UInt32) (r : CrcOutcome) : Prop :=
  (r.error = .ok → ∃ front back, rest = front ++ back ∧ front.length = n ∧
    r.crc = ~~~crc32Continue front crc) ∧
  (r.error ≠ .ok → F ∨ rest.length < n)

theorem ensures_computeFileCrcFinish (hstore : StoresFiles resolve respond F) (crc : UInt32)
    (rest : List UInt8) :
    Ensures respond v s (computeFileCrcFinish crc) fun r _ _ => Checks F rest 0 crc r := by
  refine ensures_filesysFileClose_bind fun err s' h => .ite (fun herr => .pure ?_) fun _ => ?_
  · rw [errorCode_neg] at herr
    exact ⟨(fun hok => by cases hok), fun _ => Or.inl (hstore.fails h herr)⟩
  · exact .pure ⟨fun _ => ⟨[], rest, rfl, rfl, rfl⟩, fun hfail => absurd rfl hfail⟩

/-- The loop. Induction on the rounds; what was read so far is in `crc`. -/
theorem ensures_computeFileCrcLoop (hstore : StoresFiles resolve respond F) (rounds : Nat)
    {bytesRemaining crc : UInt32} {rest : List UInt8} (hs : s.Reads .computeFileCrc rest)
    (hrounds : bytesRemaining.toNat ≤ rounds) :
    Ensures respond v s (computeFileCrcLoop rounds bytesRemaining crc) fun r _ _ =>
      Checks F rest bytesRemaining.toNat crc r := by
  induction rounds generalizing s bytesRemaining crc rest with
  | zero =>
    rw [Nat.le_zero.mp hrounds]
    exact ensures_computeFileCrcFinish hstore crc rest
  | succ rounds ih =>
    refine .ite (fun hzero => ?_) fun hne => ?_
    · subst hzero
      exact ensures_computeFileCrcFinish hstore crc rest
    have hpos : 0 < bytesRemaining.toNat := by
      refine Nat.pos_of_ne_zero fun h => hne ?_
      exact UInt32.toNat_inj.mp h
    obtain ⟨toRead, htoRead, hle, hread⟩ := exists_toRead hpos
    rw [← htoRead]
    refine .perform_bind fun result s₁ h => ?_
    have hresult := hstore.store h
    refine .ite (fun hcode => ?_) fun hcode => .ite (fun hend => ?_) fun hgo => ?_
    · refine ensures_filesysFileClose_bind fun _ _ _ => .pure ⟨(fun hok => by cases hok), fun _ => ?_⟩
      exact Or.inl (hstore.fails h hcode)
    · -- an empty read: the file is shorter than its size says
      refine ensures_filesysFileClose_bind fun _ _ _ => .pure ⟨(fun hok => by cases hok), fun _ => ?_⟩
      cases result with
      | failed code hneg => exact absurd hneg hcode
      | read bytes hbytes =>
        have hempty : bytes = [] := List.length_eq_zero_iff.mp (Int.ofNat_eq_zero.mp hend)
        obtain ⟨_, _, _, hnone⟩ := hs.read hresult
        have hrest : rest = [] := (hnone hempty).resolve_left hread.ne'
        rw [hrest]
        exact Or.inr hpos
    · cases result with
      | failed code hneg => exact absurd hneg hcode
      | read bytes hbytes =>
        obtain ⟨rest', rfl, hs₁, _⟩ := hs.read hresult
        -- the rest of the loop reads on from here
        have hsub := toNat_sub_ofNat (hbytes.trans hle)
        have hnonempty : bytes.length ≠ 0 := fun h => hgo (Int.ofNat_eq_zero.mpr h)
        have hleft : (bytesRemaining - UInt32.ofNat bytes.length).toNat ≤ rounds := by
          rw [hsub]
          omega
        refine (ih hs₁ hleft).mono fun r _ _ hr => ?_
        have hr : Checks F rest' (bytesRemaining - UInt32.ofNat bytes.length).toNat
          (crc32Continue bytes crc) r := hr
        rw [hsub] at hr
        refine ⟨fun hok => ?_, fun hfail => ?_⟩
        · obtain ⟨front, back, rfl, hfront, hcrc⟩ := hr.1 hok
          refine ⟨bytes ++ front, back, (List.append_assoc _ _ _).symm, ?_, ?_⟩
          · rw [List.length_append, hfront]
            omega
          · rw [hcrc, crc32Continue_append]
        · refine (hr.2 hfail).imp_right fun hshort => ?_
          rw [List.length_append]
          omega

/-- `filesys_compute_file_crc`: the CRC of the first `fileSize` bytes of the file. -/
theorem ensures_filesysComputeFileCrc (hstore : StoresFiles resolve respond F)
    (fname : List UInt8) (fileSize : UInt32) :
    Ensures respond v s (filesysComputeFileCrc fname fileSize) fun r _ _ =>
      r.error ≠ .ok ∧ F ∨ ∃ e, s.files (resolve fname) = some e ∧
        Checks F e.content fileSize.toNat 0xFFFFFFFF r := by
  refine ensures_filesysFileOpen_bind fun err s' h => .ite (fun herr => .pure ?_) fun herr => ?_
  · rw [errorCode_neg] at herr
    exact Or.inl ⟨nofun, hstore.fails h herr⟩
  · rw [errorCode_neg] at herr
    obtain ⟨e, he, hopen⟩ := storeLfs_open_rdonly herr (hstore.store h)
    have hs' : s'.Reads .computeFileCrc e.content := by
      rw [hopen]
      exact FileStore.withHandle_reads
    refine (ensures_computeFileCrcLoop hstore _ hs' (Nat.le_refl _)).mono fun r _ _ hr => ?_
    exact Or.inr ⟨e, he, hr⟩

/-- `filesys_is_crc_correct` accepts only a file that has the declared number of bytes, at
least, and of these the declared CRC. -/
theorem ensures_filesysIsCrcCorrect :
    Ensures (storeLfs resolve) v s filesysIsCrcCorrect fun r _ _ =>
      r.1 = .ok → v.isWritingFile = true ∧ ∃ e front back, s.files (resolve v.path) = some e ∧
        e.content = front ++ back ∧ front.length = v.bufferedFileLen.toNat ∧
        crc32 front = v.bufferedFileCrc := by
  refine .vars_bind (.ite (fun _ => .pure nofun) fun hwriting => ?_)
  have hwriting : v.isWritingFile = true := Bool.eq_true_of_not_eq_false hwriting
  have hcompute : Ensures (storeLfs resolve) v s filesysComputeCrc fun r _ _ =>
      r.error = .ok → ∃ e front back, s.files (resolve v.path) = some e ∧
        e.content = front ++ back ∧ front.length = v.bufferedFileLen.toNat ∧
        r.crc = crc32 front := by
    refine .vars_bind (.ite (fun hidle => ?_) fun _ => ?_)
    · exact absurd (hwriting.symm.trans hidle) (Ne.symm Bool.false_ne_true)
    refine (ensures_filesysComputeFileCrc (storesFiles_storeLfs resolve) _ _).mono ?_
    rintro r _ _ (⟨hfail, _⟩ | ⟨e, he, hchecks, _⟩) hok
    · exact absurd hok hfail
    · obtain ⟨front, back, hcontent, hlength, hcrc⟩ := hchecks hok
      exact ⟨e, front, back, he, hcontent, hlength, hcrc⟩
  refine hcompute.bind fun r w s' hr => .ite (fun hfail => .pure fun hok => absurd hok hfail) ?_
  refine fun hok => .ite (fun _ => .pure nofun) fun hcrc => .pure fun _ => ⟨hwriting, ?_⟩
  obtain ⟨e, front, back, he, hcontent, hlength, hcrc'⟩ := hr (not_not.mp hok)
  exact ⟨e, front, back, he, hcontent, hlength, hcrc'.symm.trans (not_not.mp hcrc)⟩

end Crc

/-! ## Opening a file for reading -/

/-- A length below littlefs's maximum goes through `int` and `uint32_t` unchanged. -/
theorem ofInt_eq_ofNat {n : Nat} (hmax : n ≤ lfsFileMax) :
    UInt32.ofInt (n : Int) = UInt32.ofNat n := by
  have hmod : ((n : Int) % 2 ^ 32).toNat = n := by
    rw [lfsFileMax] at hmax
    omega
  exact congrArg UInt32.ofNat hmod

/-- The information on a file with its CRC attribute `c`. -/
def FileEntry.info (e : FileEntry) (fname : List UInt8) (c : UInt32) : FileInfo :=
  { FileInfo.named fname with
    fileSize := UInt32.ofNat e.content.length
    computedCrc := crc32 e.content
    expectedCrc := c
    flags := fileInfoExpectedCrcValid ||| fileInfoComputedCrcValid |||
      if crc32 e.content = c then fileInfoCrcMatch else 0 }

theorem FileEntry.info_expected (e : FileEntry) (fname : List UInt8) (c : UInt32) :
    (e.info fname c).has fileInfoExpectedCrcValid = true := by
  unfold FileInfo.has FileEntry.info
  dsimp only
  split
  · decide
  · decide

theorem FileEntry.info_computed (e : FileEntry) (fname : List UInt8) (c : UInt32) :
    (e.info fname c).has fileInfoComputedCrcValid = true := by
  unfold FileInfo.has FileEntry.info
  dsimp only
  split
  · decide
  · decide

theorem FileEntry.info_match (e : FileEntry) (fname : List UInt8) (c : UInt32) :
    (e.info fname c).has fileInfoCrcMatch = true ↔ crc32 e.content = c := by
  unfold FileInfo.has FileEntry.info
  dsimp only
  split
  · next h => exact ⟨fun _ => h, fun _ => by decide⟩
  · next h => exact ⟨fun hmatch => absurd hmatch (by decide), fun h' => absurd h' h⟩

@[simp] theorem FileInfo.withAttr_fileSize (info : FileInfo) (attr : AttrResult) :
    (info.withAttr attr).fileSize = info.fileSize := by
  unfold FileInfo.withAttr
  split
  · rfl
  · rfl

/-- It is what `filesys_get_file_info` puts together. -/
theorem FileEntry.info_eq (e : FileEntry) (fname : List UInt8) {attr : AttrResult}
    {computed : CrcOutcome} (hattr : ¬attr.code < 0) (hok : computed.error = .ok)
    (hcrc : computed.crc = crc32 e.content) :
    ((({ FileInfo.named fname with fileSize := UInt32.ofNat e.content.length } :
      FileInfo).withAttr attr).withComputed computed).withMatch = e.info fname attr.value := by
  have hchecked : (({ FileInfo.named fname with fileSize := UInt32.ofNat e.content.length } :
      FileInfo).withAttr attr).withComputed computed =
      { FileInfo.named fname with
        fileSize := UInt32.ofNat e.content.length
        computedCrc := crc32 e.content
        expectedCrc := attr.value
        flags := fileInfoExpectedCrcValid ||| fileInfoComputedCrcValid } := by
    rw [FileInfo.withAttr, if_neg hattr, FileInfo.withComputed, if_pos hok, hcrc]
    simp only [FileInfo.named, FileInfo.mk.injEq, true_and]
    decide
  rw [hchecked]
  unfold FileInfo.withMatch FileEntry.info
  by_cases hmatch : crc32 e.content = attr.value
  · simp only [FileInfo.has, hmatch, and_true, if_true]
    rfl
  · simp only [hmatch, and_false, if_false]
    rfl

section Healthy

variable {resolve : List UInt8 → List UInt8} {s : FileStore} {v : FilesysVars}

theorem healthyLfs_code {s' : FileStore} {e : LfsEvent} (h : healthyLfs resolve s e = some s') :
    ¬e.code < 0 :=
  (storesFiles_healthyLfs resolve).fails h

theorem healthyLfs_store {s' : FileStore} {e : LfsEvent} (h : healthyLfs resolve s e = some s') :
    storeLfs resolve s e = some s' :=
  (storesFiles_healthyLfs resolve).store h

theorem ensures_inspects {α : Type} {x : Filesys α} (hx : Inspects x) (hs : s.Settled) :
    Ensures (healthyLfs resolve) v s x fun _ _ s' => s'.files = s.files ∧ s'.Settled := by
  intro t a w s' hreplay hrun
  obtain ⟨_, hcalls⟩ := hx v t a w hreplay
  exact run_storeLfs_inspects resolve hs hcalls ((storesFiles_healthyLfs resolve).run hrun)

/-- `filesys_get_file_info`, where no call fails: the file is there and has its attribute,
and the information is right. -/
theorem ensures_filesysGetFileInfo (hs : s.Settled) (fname : List UInt8)
    (hmax : ∀ e, s.files (resolve fname) = some e → e.content.length ≤ lfsFileMax) :
    Ensures (healthyLfs resolve) v s (filesysGetFileInfo fname) fun r _ _ =>
      ∃ e c, s.files (resolve fname) = some e ∧ e.crcAttr = some c ∧
        r = (.ok, e.info fname c, lfsErrOk) := by
  refine ensures_filesysFileOpen_bind fun err s₁ hopen => .ite (fun herr => ?_) fun _ => ?_
  · exact absurd (errorCode_neg.mp herr) (healthyLfs_code hopen)
  obtain ⟨e, he, hs₁⟩ := storeLfs_open_rdonly (healthyLfs_code hopen) (healthyLfs_store hopen)
  obtain ⟨hfiles₁, hsettled₁⟩ := storeLfs_inspects resolve hs rfl (healthyLfs_store hopen)
  refine .perform_bind fun (n : Int) s₂ hsize => .ite (fun hn => ?_) fun _ => ?_
  · exact absurd hn (healthyLfs_code hsize)
  obtain ⟨hfiles₂, hsettled₂⟩ := storeLfs_inspects resolve hsettled₁ rfl (healthyLfs_store hsize)
  have hn : n = (e.content.length : Int) := by
    obtain ⟨o, ho, hn⟩ : ∃ o, s₁.handles .getFileInfo = some o ∧ n = (o.content.length : Int) :=
      storeLfs_fileSize (healthyLfs_code hsize) (healthyLfs_store hsize)
    rw [hs₁, FileStore.withHandle_self] at ho
    obtain rfl := Option.some.inj ho
    exact hn
  refine ensures_filesysFileClose_bind fun err s₃ hclose => .ite (fun herr => ?_) fun _ => ?_
  · exact absurd (errorCode_neg.mp herr) (healthyLfs_code hclose)
  obtain ⟨hfiles₃, hsettled₃⟩ := storeLfs_inspects resolve hsettled₂ rfl (healthyLfs_store hclose)
  refine .perform_bind fun (attr : AttrResult) s₄ hattr => ?_
  obtain ⟨hfiles₄, hsettled₄⟩ := storeLfs_inspects resolve hsettled₃ rfl (healthyLfs_store hattr)
  -- nothing has been written on the way: the attribute and the content are of one file
  have hfile₃ : s₃.files (resolve fname) = some e := by rw [hfiles₃, hfiles₂, hfiles₁, he]
  have hcode : ¬attr.code < 0 := healthyLfs_code hattr
  have hvalue : e.crcAttr = some attr.value := by
    have hvalue := storeLfs_getattr hcode (healthyLfs_store hattr)
    rwa [hfile₃, Option.bind_some] at hvalue
  refine (ensures_filesysComputeFileCrc (storesFiles_healthyLfs resolve) _ _).bind ?_
  intro computed w s₅ hcomputed
  refine .pure ⟨e, attr.value, he, hvalue, ?_⟩
  have hmax := hmax e he
  have hofInt : UInt32.ofInt n = UInt32.ofNat e.content.length := by
    rw [hn]
    exact ofInt_eq_ofNat hmax
  have hsize : (UInt32.ofNat e.content.length).toNat = e.content.length :=
    UInt32.toNat_ofNat_of_lt' (Nat.lt_of_le_of_lt hmax (by decide))
  obtain ⟨e', he', hchecks⟩ := hcomputed.resolve_left fun h => h.2
  rw [hfiles₄, hfile₃] at he'
  obtain rfl := Option.some.inj he'
  rw [FileInfo.withAttr_fileSize, hofInt, hsize] at hchecks
  have hok : computed.error = .ok := by
    by_contra hfail
    exact (hchecks.2 hfail).elim id (Nat.lt_irrefl _)
  obtain ⟨front, back, hcontent, hlength, hcrc⟩ := hchecks.1 hok
  have hfront : front = e.content := by
    have hback : back = [] := by
      rw [hcontent, List.length_append] at hlength
      exact List.length_eq_zero_iff.mp (by omega)
    rw [hcontent, hback, List.append_nil]
  rw [hofInt, e.info_eq fname hcode hok (by rw [hcrc, hfront]; rfl)]

/-- `filesys_open_file_read`, where no call fails: the file is there, and it is opened if its
CRC is the one in its attribute. -/
theorem ensures_filesysOpenFileRead (hs : s.Settled) (file : FileRef) (fname : List UInt8)
    (hmax : ∀ e, s.files (resolve fname) = some e → e.content.length ≤ lfsFileMax) :
    Ensures (healthyLfs resolve) v s (filesysOpenFileRead file fname) fun r _ s' =>
      ∃ e c, s.files (resolve fname) = some e ∧ e.crcAttr = some c ∧
        r.2.1 = e.info fname c ∧ (r.1 = .ok ↔ crc32 e.content = c) ∧
        (r.1 = .ok → s'.Reads file e.content) := by
  refine ((ensures_filesysGetFileInfo hs fname hmax).and
    (ensures_inspects (filesysGetFileInfo_inspects fname) hs)).bind ?_
  rintro r w s₁ ⟨⟨e, c, he, hc, rfl⟩, hfiles, hsettled⟩
  refine .ite (fun h => absurd rfl h) fun _ => ?_
  refine .ite (fun h => ?_) fun _ => .ite (fun h => ?_) fun _ => .ite (fun hmatch => ?_) fun hmatch => ?_
  · rw [e.info_expected] at h
    cases h
  · rw [e.info_computed] at h
    cases h
  · -- the CRCs differ: the file is not opened again
    rw [Bool.eq_false_iff, ne_eq, e.info_match] at hmatch
    exact .pure ⟨e, c, he, hc, rfl, ⟨nofun, fun h => absurd h hmatch⟩, nofun⟩
  · rw [Bool.not_eq_false, e.info_match] at hmatch
    refine ensures_filesysFileOpen_bind fun err s₂ hopen => .ite (fun herr => ?_) fun _ => ?_
    · exact absurd (errorCode_neg.mp herr) (healthyLfs_code hopen)
    obtain ⟨e', he', hs₂⟩ := storeLfs_open_rdonly (healthyLfs_code hopen) (healthyLfs_store hopen)
    rw [hfiles, he] at he'
    obtain rfl := Option.some.inj he'
    refine .pure ⟨e, c, he, hc, rfl, ⟨fun _ => hmatch, fun _ => rfl⟩, fun _ => ?_⟩
    rw [hs₂]
    exact FileStore.withHandle_reads

/-- `filesys_read_data`, where no call fails: the next piece of the file, empty only at its
end. -/
theorem ensures_filesysReadData {file : FileRef} {rest : List UInt8} (hs : s.Reads file rest)
    {size : UInt32} (hsize : 0 < size) :
    Ensures (healthyLfs resolve) v s (filesysReadData file size) fun r _ s' =>
      ∃ bytes rest', r.2.1 = some bytes ∧ rest = bytes ++ rest' ∧ s'.Reads file rest' ∧
        (bytes = [] → rest = []) := by
  refine .perform_bind fun (res : ReadResult size.toNat) s₁ hread => ?_
  have hcode : ¬res.code < 0 := healthyLfs_code hread
  refine .ite (fun h => absurd h hcode) fun _ => .pure ?_
  cases res with
  | failed code hneg => exact absurd hneg hcode
  | read bytes hbytes =>
    obtain ⟨rest', hrest, hs₁, hempty⟩ := hs.read (healthyLfs_store hread)
    refine ⟨bytes, rest', rfl, hrest, hs₁, fun h => (hempty h).resolve_left ?_⟩
    exact (UInt32.lt_iff_toNat_lt.mp hsize).ne'

end Healthy

/-! ## Reading to the end -/

/-- No call of the operation fails. -/
def FilesysEvent.Healthy (e : FilesysEvent) : Prop := ∀ c ∈ e.trace, 0 ≤ LfsEvent.code c

/-- The bytes a `filesys_read_data` returned. -/
def FilesysEvent.bytes (e : FilesysEvent) : List UInt8 := e.result.data.getD []

/-- The operation is a `filesys_read_data` of at least one byte, and no call fails. -/
structure FilesysEvent.ReadsOn (file : Nat) (e : FilesysEvent) : Prop where
  op : ∃ size, e.op = .readData file size ∧ 0 < size
  healthy : e.Healthy

section Reads

variable {resolve : List UInt8 → List UInt8} {cfg : LfsConfig} {file : Nat}

theorem readData_step {s s' : FilesysState FileStore} {e : FilesysEvent} {rest : List UInt8}
    (hs : s.lfs.Reads (.caller file) rest) (he : e.ReadsOn file)
    (hstep : filesysStep (storeLfs resolve) cfg s e = some s') :
    ∃ rest', e.result.data = some e.bytes ∧ rest = e.bytes ++ rest' ∧
      s'.lfs.Reads (.caller file) rest' ∧ (e.bytes = [] → rest = []) := by
  obtain ⟨op, t, r⟩ := e
  obtain ⟨⟨size, rfl, hsize⟩, hhealthy⟩ := he
  obtain ⟨hreplay, hrun⟩ := (filesysStep_eq_some _ _).mp hstep
  obtain ⟨⟨error, data, code⟩, hread, rfl⟩ := replay_bind_pure hreplay
  obtain ⟨bytes, rest', hdata, hrest, hs', hempty⟩ :=
    ensures_filesysReadData hs hsize _ _ _ _ hread (run_healthyLfs hhealthy hrun)
  obtain rfl : data = some bytes := hdata
  exact ⟨rest', rfl, hrest, hs', hempty⟩

/-- What a run of reads returns, in order, is a front of the file's rest: all of it, if one of
them found the end, and one of them does if there are more reads than bytes. -/
theorem readData_run {s s' : FilesysState FileStore} {es : List FilesysEvent}
    {rest : List UInt8} (hs : s.lfs.Reads (.caller file) rest) (hes : ∀ e ∈ es, e.ReadsOn file)
    (hrun : run (filesysStep (storeLfs resolve) cfg) s es = some s') :
    ∃ rest', rest = es.flatMap FilesysEvent.bytes ++ rest' ∧
      ((∃ e ∈ es, e.result.data = some []) → rest' = []) ∧
      ((∃ e ∈ es, e.result.data = some []) ∨ es.length ≤ (es.flatMap FilesysEvent.bytes).length) := by
  induction es generalizing s rest with
  | nil => exact ⟨rest, rfl, fun ⟨_, h, _⟩ => absurd h List.not_mem_nil, Or.inr (Nat.le_refl _)⟩
  | cons e es ih =>
    obtain ⟨s₁, hstep, hrest⟩ := run_cons_some _ hrun
    obtain ⟨rest₁, hdata, rfl, hs₁, hempty⟩ := readData_step hs (hes e List.mem_cons_self) hstep
    obtain ⟨rest', rfl, hend, hcount⟩ :=
      ih hs₁ (fun e' he' => hes e' (List.mem_cons_of_mem _ he')) hrest
    refine ⟨rest', by rw [List.flatMap_cons, List.append_assoc], ?_, ?_⟩
    · rintro ⟨e', he', hnone⟩
      rcases List.mem_cons.mp he' with rfl | he'
      · -- an empty read: there was nothing left
        rw [hdata] at hnone
        have hall := hempty (Option.some.inj hnone)
        simp only [List.append_eq_nil_iff] at hall
        exact hall.2.2
      · exact hend ⟨e', he', hnone⟩
    · -- a read that is not empty takes at least a byte
      by_cases hbytes : e.bytes = []
      · exact Or.inl ⟨e, List.mem_cons_self, hbytes ▸ hdata⟩
      · refine hcount.imp (fun ⟨e', he', hnone⟩ => ⟨e', List.mem_cons_of_mem _ he', hnone⟩) ?_
        intro hle
        have hpos : 0 < e.bytes.length := List.length_pos_iff.mpr hbytes
        rw [List.flatMap_cons, List.length_append, List.length_cons]
        omega

end Reads

end Samwise
