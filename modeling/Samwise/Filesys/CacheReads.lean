import Samwise.Filesys.CacheRecords

/-!
# Samwise — reads through a true record

While what a file object remembers of `cache_buffer` is true, its reads return the file's own
bytes, and what it remembers stays true: over opening, reading and seeking, and over whatever
leaves the file and `cache_buffer` alone.
-/

namespace Samwise

open Memory LittleEndian Fallible

namespace Lfs

/-! ## Finding blocks -/

section Blocks

variable {cfg : LfsConfig} {disk : Disk cfg} {s : ReadState}

theorem ctzSkip_le (current target : Nat) : ctzSkip current target ≤ 31 :=
  Nat.le_trans (Nat.min_le_left _ _) (Nat.sub_le_of_le_add (Nat.sub_le 32 _))

theorem ctzSkip_le_ctz (current target : Nat) : ctzSkip current target ≤ ctz current :=
  Nat.min_le_right _ _

/-- A walk along the pointers stays on the list. Induction on the rounds. -/
theorem listed_ctzWalk {dev : UInt32 → Mem} {head size block : UInt32} {current : Nat}
    (target rounds : Nat) (h : Listed cfg dev head size current block) :
    ∃ i, Listed cfg dev head size i (ctzWalk dev rounds block current target) := by
  induction rounds generalizing block current with
  | zero => exact ⟨current, h⟩
  | succ rounds ih =>
    rw [ctzWalk]
    split
    · next hgt => exact ih (h.pointer (Nat.zero_lt_of_lt hgt) (ctzSkip_le_ctz current target))
    · exact ⟨current, h⟩

theorem listed_blockAt (cfg : LfsConfig) (dev : UInt32 → Mem) (head size : UInt32) (i : Nat) :
    ∃ j, Listed cfg dev head size j (blockAt cfg dev head size i) := listed_ctzWalk i _ .head

/-- The loop of `lfs_ctz_find` walks along the pointers. Induction on the rounds. -/
theorem yields_ctzFindLoop {path : List UInt8} {head size block : UInt32} {current target : Nat}
    (hcfg : 144 ≤ cfg.blockSize.toNat) (hentry : disk.dir path = some (.ctzStruct head size))
    (hsize : 0 < size.toNat) (rounds : Nat)
    (hblock : Listed cfg disk.dev head size current block)
    (hs : Holds cfg disk.dev (.ctzStruct head size) s) :
    Yields (ctzFindLoop disk rounds block current target) s
      (Gives cfg disk.dev (.ctzStruct head size) s
        (ctzWalk disk.dev rounds block current target)) := by
  induction rounds generalizing block current s with
  | zero => exact .pure ⟨rfl, rfl, hs⟩
  | succ rounds ih =>
    rw [ctzWalk]
    refine .ite (fun hgt => ?_) fun hle => ?_
    · rw [if_pos hgt]
      have hskip := ctzSkip_le current target
      refine .bind (yields_bdRead hentry hsize (by decide) hblock hs (by omega))
        (fun pointer s₁ h => ?_) fun e s₁ h => h.not_error.elim
      obtain rfl := Except.ok.inj h.result
      -- the pointer that is read leads to a block of the list again
      have hnext := hblock.pointer (Nat.zero_lt_of_lt hgt) (ctzSkip_le_ctz current target)
      refine (ih hnext h.holds).mono fun r s' h' => ?_
      exact ⟨h'.result, h.place.trans h'.place, h'.holds⟩
    · rw [if_neg hle]
      exact .pure ⟨rfl, rfl, hs⟩

/-- `lfs_ctz_find` finds the block and the offset of a position. -/
theorem yields_ctzFind {path : List UInt8} {head size : UInt32}
    (hcfg : 144 ≤ cfg.blockSize.toNat) (hentry : disk.dir path = some (.ctzStruct head size))
    (hsize : 0 < size.toNat) (pos : Nat) (hs : Holds cfg disk.dev (.ctzStruct head size) s) :
    Yields (ctzFind disk head size pos) s
      (Gives cfg disk.dev (.ctzStruct head size) s
        (blockAt cfg disk.dev head size (ctzIndex cfg pos).1, (ctzIndex cfg pos).2)) := by
  refine .bind (yields_ctzFindLoop hcfg hentry hsize _ .head hs) (fun block s' h => ?_)
    fun e s' h => h.not_error.elim
  obtain rfl := Except.ok.inj h.result
  exact .pure ⟨rfl, h.place, h.holds⟩

end Blocks

/-! ## Reading files -/

/-- Where an object reads next, by its entry: the position lies at the offset, and in the
block, that the object has. -/
def Struct.Place (cfg : LfsConfig) (dev : UInt32 → Mem) : Struct → Cursor → Prop
  | .inlineStruct _ _, p => ctzIndex cfg p.pos = (0, p.off)
  | .ctzStruct head size, p =>
    ∃ i, ctzIndex cfg p.pos = (i, p.off) ∧ p.block = blockAt cfg dev head size i

/-- While an object is reading, it is in its place, or at the end of a block. -/
def Cursor.InPlace (cfg : LfsConfig) (dev : UInt32 → Mem) (entry : Struct) (p : Cursor) : Prop :=
  p.reading = true → p.off = cfg.blockSize.toNat ∨ entry.Place cfg dev p

/-- The object was opened on the entry. -/
def File.OpenOn (f : File) : Struct → Prop
  | .inlineStruct data _ => f.inline = true ∧ f.size.toNat = data.length
  | .ctzStruct head size => f.inline = false ∧ f.head = head ∧ f.size = size

section Files

variable {cfg : LfsConfig} {disk : Disk cfg} {entry : Struct} {s : ReadState} {f : File}

theorem File.OpenOn.size_eq (hf : f.OpenOn entry) : f.size.toNat = entry.length := by
  cases entry with
  | inlineStruct data h => exact hf.2
  | ctzStruct head size => exact congrArg UInt32.toNat hf.2.2

theorem Struct.Place.index {p : Cursor} (hp : entry.Place cfg disk.dev p) :
    ∃ i, ctzIndex cfg p.pos = (i, p.off) := by
  cases entry with
  | inlineStruct data h => exact ⟨0, hp⟩
  | ctzStruct head size =>
    obtain ⟨i, hi, _⟩ := hp
    exact ⟨i, hi⟩

/-- An object goes on within its block. -/
theorem Struct.Place.add (hcfg : 144 ≤ cfg.blockSize.toNat) {p p' : Cursor} {n : Nat}
    (hp : entry.Place cfg disk.dev p) (hn : p.off + n < cfg.blockSize.toNat)
    (hpos : p'.pos = p.pos + n) (hoff : p'.off = p.off + n) (hblock : p'.block = p.block) :
    entry.Place cfg disk.dev p' := by
  cases entry with
  | inlineStruct data h =>
    show ctzIndex cfg p'.pos = (0, p'.off)
    rw [hpos, hoff]
    exact ctzIndex_add hcfg hp hn
  | ctzStruct head size =>
    obtain ⟨i, hi, hat⟩ := hp
    refine ⟨i, ?_, hblock.trans hat⟩
    rw [hpos, hoff]
    exact ctzIndex_add hcfg hi hn

/-- A new block is found where one is needed. -/
theorem yields_nextBlock (hcfg : 144 ≤ cfg.blockSize.toNat) (hf : f.OpenOn entry)
    (hentry : disk.dir f.path = some entry) (hpos : s.cursor.pos < entry.length)
    (hp : s.cursor.InPlace cfg disk.dev entry) (hs : Holds cfg disk.dev entry s) :
    Yields (nextBlock disk f) s fun r s' =>
      r = .ok () ∧ s'.cursor.pos = s.cursor.pos ∧ s'.cursor.reading = true ∧
        entry.Place cfg disk.dev s'.cursor ∧ Holds cfg disk.dev entry s' := by
  refine .get_bind (.ite (fun _ => ?_) fun hreading => ?_)
  · cases entry with
    | inlineStruct data h =>
      have hfirst : s.cursor.pos < cfg.blockSize.toNat - 2 * 4 := by
        rw [Struct.length] at hpos
        rw [cacheSize_eq] at h
        omega
      rw [hf.1]
      exact .modify ⟨rfl, rfl, rfl, ctzIndex_of_lt hfirst, hs.aligned, hs.bytes⟩
    | ctzStruct head size =>
      obtain ⟨hinline, rfl, rfl⟩ := hf
      rw [hinline]
      refine .bind (yields_ctzFind hcfg hentry (Nat.zero_lt_of_lt hpos) _ hs)
        (fun found s₁ h => ?_) fun e s₁ h => h.not_error.elim
      obtain rfl := Except.ok.inj h.result
      have hfound : ctzIndex cfg s₁.cursor.pos =
          ((ctzIndex cfg s.cursor.pos).1, (ctzIndex cfg s.cursor.pos).2) := by rw [h.place.pos]
      exact .modify ⟨rfl, h.place.pos, rfl, ⟨_, hfound, rfl⟩, h.holds.aligned, h.holds.bytes⟩
  · -- the cursor is in a block already
    rw [not_or, Bool.not_eq_false] at hreading
    exact .pure ⟨rfl, rfl, hreading.1, (hp hreading.1).resolve_left hreading.2, hs⟩

/-- What an object reads in its place is the file's. -/
theorem yields_piece (hcfg : 144 ≤ cfg.blockSize.toNat) (hf : f.OpenOn entry)
    (hentry : disk.dir f.path = some entry) (hp : entry.Place cfg disk.dev s.cursor) {n : Nat}
    (hpos : s.cursor.pos + n ≤ entry.length) (hn : 0 < n)
    (hfit : s.cursor.off + n ≤ cfg.blockSize.toNat) (hs : Holds cfg disk.dev entry s) :
    Yields (readPiece disk f s.cursor n) s
      (Gives cfg disk.dev entry s (read (entry.bytes cfg disk.dev) s.cursor.pos n)) := by
  cases entry with
  | inlineStruct data h =>
    -- an inline file is one block
    have hoff : s.cursor.off = s.cursor.pos := by
      have hsnd := ctzIndex_snd_of_fst hcfg (n := s.cursor.pos) (by rw [hp])
      rwa [hp] at hsnd
    rw [readPiece, if_pos hf.1, hoff]
    refine yields_dirGetread hentry (by omega) hs hpos ?_
    rw [cacheSize_eq] at h
    omega
  | ctzStruct head size =>
    obtain ⟨hinline, rfl, rfl⟩ := hf
    obtain ⟨i, hi, hat⟩ := hp
    rw [readPiece, if_neg (by rw [hinline]; exact Bool.false_ne_true)]
    obtain ⟨j, hj⟩ := listed_blockAt cfg disk.dev f.head f.size i
    -- within a block the file's bytes lie side by side
    have hbytes : read ((Struct.ctzStruct f.head f.size).bytes cfg disk.dev) s.cursor.pos n =
        read (disk.dev s.cursor.block) s.cursor.off n := by
      refine read_eq_read fun k hk => ?_
      have hplace := ctzIndex_add hcfg (k := k) hi (by omega)
      simp only [Struct.bytes, hplace, hat]
    rw [hbytes]
    exact yields_bdRead hentry (by rw [Struct.length] at hpos; omega) (by omega) (hat ▸ hj) hs hfit

/-- The state behind a read of `n` bytes of the file. -/
structure ReadsOn (cfg : LfsConfig) (dev : UInt32 → Mem) (entry : Struct) (s : ReadState) (n : Nat)
    (r : Except Int (List UInt8)) (s' : ReadState) : Prop where
  result : r = .ok (read (entry.bytes cfg dev) s.cursor.pos n)
  pos : s'.cursor.pos = s.cursor.pos + n
  place : s'.cursor.InPlace cfg dev entry
  holds : Holds cfg dev entry s'

/-- Induction on the rounds. -/
theorem yields_flushedreadLoop (hcfg : 144 ≤ cfg.blockSize.toNat) (hf : f.OpenOn entry)
    (hentry : disk.dir f.path = some entry) (rounds : Nat) {n : Nat}
    (hp : s.cursor.InPlace cfg disk.dev entry) (hs : Holds cfg disk.dev entry s)
    (hpos : s.cursor.pos + n ≤ entry.length) (hrounds : n ≤ rounds) :
    Yields (flushedreadLoop disk f rounds n) s (ReadsOn cfg disk.dev entry s n) := by
  induction rounds generalizing n s with
  | zero =>
    obtain rfl := Nat.le_zero.mp hrounds
    exact .pure ⟨rfl, rfl, hp, hs⟩
  | succ rounds ih =>
    refine .ite (fun hzero => ?_) fun hne => ?_
    · subst hzero
      exact .pure ⟨rfl, rfl, hp, hs⟩
    refine .bind (yields_nextBlock hcfg hf hentry (by omega) hp hs) (fun _ s₁ h₁ => ?_)
      fun e s₁ h₁ => by cases h₁.1
    obtain ⟨_, hpos₁, hreading₁, hplace₁, hs₁⟩ := h₁
    obtain ⟨i, hi⟩ := hplace₁.index
    have hoff : s₁.cursor.off < cfg.blockSize.toNat := by
      have hsnd := ctzIndex_snd_lt hcfg s₁.cursor.pos
      rwa [hi] at hsnd
    refine .get_bind ?_
    dsimp only
    -- one piece: to the end of the block, or of what is asked for
    obtain ⟨diff, hdiff⟩ : ∃ diff, min n (cfg.blockSize.toNat - s₁.cursor.off) = diff := ⟨_, rfl⟩
    rw [hdiff]
    have hle : diff ≤ n := hdiff ▸ Nat.min_le_left _ _
    have hfit : s₁.cursor.off + diff ≤ cfg.blockSize.toNat := by omega
    refine .bind (yields_piece hcfg hf hentry hplace₁ (by omega) (by omega) hfit hs₁)
      (fun data s₂ h₂ => .modify_bind ?_) fun e s₂ h₂ => h₂.not_error.elim
    obtain rfl := Except.ok.inj h₂.result
    have hplace₂ := h₂.place
    rw [SamePlace] at hplace₂
    refine .bind (ih ?_ ?_ ?_ ?_) (fun rest s' h' => .pure ⟨?_, ?_, h'.place, h'.holds⟩)
      fun e s' h' => by cases h'.result
    · -- in place behind the piece
      intro _
      rcases Nat.lt_or_eq_of_le hfit with hlt | heq
      · refine Or.inr (hplace₁.add hcfg hlt ?_ ?_ ?_)
        · rw [hplace₂]
        · rw [hplace₂]
        · rw [hplace₂]
      · refine Or.inl ?_
        rw [hplace₂]
        exact heq
    · exact ⟨h₂.holds.aligned, h₂.holds.bytes⟩
    · rw [hplace₂]
      dsimp only
      omega
    · omega
    · obtain rfl := Except.ok.inj h'.result
      rw [hplace₂]
      dsimp only
      rw [hpos₁, ← read_add, Nat.add_sub_cancel' hle]
    · rw [h'.pos, hplace₂]
      dsimp only
      omega

/-- **Reads through a true record.** `lfs_file_flushedread` returns the next bytes of the file,
goes on behind them, and leaves a true record. -/
theorem yields_fileFlushedread (hcfg : 144 ≤ cfg.blockSize.toNat) (hf : f.OpenOn entry)
    (hentry : disk.dir f.path = some entry) (size : Nat)
    (hp : s.cursor.InPlace cfg disk.dev entry) (hs : Holds cfg disk.dev entry s) :
    Yields (fileFlushedread disk f size) s fun r s' =>
      ∃ bytes, bytes = ((entry.content cfg disk.dev).drop s.cursor.pos).take size ∧
        r = .ok bytes ∧ s'.cursor.pos = s.cursor.pos + bytes.length ∧
        s'.cursor.InPlace cfg disk.dev entry ∧ Holds cfg disk.dev entry s' := by
  refine .get_bind (.ite (fun hend => ?_) fun hbefore => ?_)
  · have hnone : (entry.content cfg disk.dev).drop s.cursor.pos = [] := by
      refine List.drop_eq_nil_of_le ?_
      rw [Struct.content, length_read, ← hf.size_eq]
      exact hend
    refine .pure ⟨[], ?_, rfl, rfl, hp, hs⟩
    rw [hnone, List.take_nil]
  · dsimp only
    rw [hf.size_eq] at hbefore ⊢
    have hfit : s.cursor.pos + min size (entry.length - s.cursor.pos) ≤ entry.length := by omega
    refine (yields_flushedreadLoop hcfg hf hentry _ hp hs hfit (Nat.le_refl _)).mono fun r s' h => ?_
    refine ⟨_, ?_, h.result, ?_, h.place, h.holds⟩
    · rw [Struct.content, drop_read, take_read_min, Nat.zero_add]
    · rw [h.pos, length_read]

/-! ## Opening and seeking -/

/-- A file just opened. -/
theorem openRdonly_spec (disk : Disk cfg) (path : List UInt8) (entry : Struct) (buffer : Mem) :
    (openRdonly path entry buffer).1.path = path ∧ (openRdonly path entry buffer).1.OpenOn entry ∧
      (openRdonly path entry buffer).1.cursor.InPlace cfg disk.dev entry ∧
      Holds cfg disk.dev entry
        ⟨(openRdonly path entry buffer).1.cursor, (openRdonly path entry buffer).2⟩ := by
  cases entry with
  | inlineStruct data h =>
    have hsize : (UInt32.ofNat data.length).toNat = data.length :=
      UInt32.toNat_ofNat_of_lt' (Nat.lt_of_le_of_lt h (by decide))
    refine ⟨rfl, ⟨rfl, hsize⟩, fun h => absurd h Bool.false_ne_true, dvd_zero _, Or.inr ⟨_, _, .inline, fun i hi hlt => ?_⟩⟩
    simp only [openRdonly] at hi hlt ⊢
    rw [if_pos (Nat.zero_lt_of_lt hlt), getslice_eq cfg disk.dev h]
    exact write_zero_read _ _ _ hi
  | ctzStruct head size =>
    exact ⟨rfl, ⟨rfl, rfl, rfl⟩, fun h => absurd h Bool.false_ne_true, dvd_zero _, Or.inl rfl⟩

/-- What `lfs_file_seek` may do to an object: nothing; move on in the block, within what it
remembers; or forget the block. -/
theorem fileSeek_cases (cfg : LfsConfig) (f : File) (off whence : Int32) :
    (fileSeek cfg f off whence).2 = f ∨ ∃ n,
      (fileSeek cfg f off whence).2 =
          { f with cursor := { f.cursor with pos := n, off := (ctzIndex cfg n).2 } } ∧
        (f.cursor.reading = true ∧ f.cursor.off ≠ cfg.blockSize.toNat) ∧
        (ctzIndex cfg f.cursor.pos).1 = (ctzIndex cfg n).1 ∨
      (fileSeek cfg f off whence).2 = { f with cursor := { f.cursor.flush f.inline with pos := n } } := by
  unfold fileSeek
  dsimp only
  generalize (if whence = 0 then off.toUInt32 else _ : UInt32) = npos
  split
  · exact Or.inl rfl
  split
  · exact Or.inl rfl
  · refine Or.inr ⟨npos.toNat, ?_⟩
    split
    · next h => exact Or.inl ⟨rfl, h.1, h.2.1⟩
    · exact Or.inr rfl

theorem Cursor.flush_reading (p : Cursor) (inline : Bool) : (p.flush inline).reading = false := by
  unfold Cursor.flush
  split
  · rfl
  · next h => exact Bool.eq_false_of_not_eq_true h

theorem Cursor.flush_cache (p : Cursor) (inline : Bool) :
    (p.flush inline).cache = p.cache ∨ (p.flush inline).cache = { p.cache with block := .null } := by
  unfold Cursor.flush
  split
  · split
    · exact Or.inl rfl
    · exact Or.inr rfl
  · exact Or.inl rfl

theorem File.OpenOn.of_cursor (hf : f.OpenOn entry) (p : Cursor) :
    File.OpenOn { f with cursor := p } entry := by
  cases entry with
  | inlineStruct data h => exact hf
  | ctzStruct head size => exact hf

theorem Struct.Place.move {p : Cursor} {n : Nat} (hp : entry.Place cfg disk.dev p)
    (hindex : (ctzIndex cfg p.pos).1 = (ctzIndex cfg n).1) :
    entry.Place cfg disk.dev { p with pos := n, off := (ctzIndex cfg n).2 } := by
  cases entry with
  | inlineStruct data h =>
    have hfirst : (ctzIndex cfg p.pos).1 = 0 := congrArg Prod.fst hp
    exact Prod.ext (hindex.symm.trans hfirst) rfl
  | ctzStruct head size =>
    obtain ⟨i, hi, hat⟩ := hp
    rw [hi] at hindex
    exact ⟨i, Prod.ext hindex.symm rfl, hat⟩

theorem Holds.of_cache {p p' : Cursor} {buffer : Mem} (hs : Holds cfg disk.dev entry ⟨p, buffer⟩)
    (h : p'.cache = p.cache ∨ p'.cache = { p.cache with block := .null }) :
    Holds cfg disk.dev entry ⟨p', buffer⟩ := by
  obtain ⟨haligned, hbytes⟩ := hs
  rcases h with h | h
  · refine ⟨?_, ?_⟩
    · dsimp only
      rwa [h]
    · dsimp only
      rwa [h]
  · refine ⟨?_, Or.inl ?_⟩
    · dsimp only
      rwa [h]
    · dsimp only
      rw [h]

/-- A seek keeps an object on its entry, in its place and its record true. -/
theorem fileSeek_spec (off whence : Int32)
    (hf : f.OpenOn entry) (hp : f.cursor.InPlace cfg disk.dev entry) :
    (fileSeek cfg f off whence).2.path = f.path ∧
      (fileSeek cfg f off whence).2.OpenOn entry ∧
      (fileSeek cfg f off whence).2.cursor.InPlace cfg disk.dev entry ∧
      ∀ buffer, Holds cfg disk.dev entry ⟨f.cursor, buffer⟩ →
        Holds cfg disk.dev entry ⟨(fileSeek cfg f off whence).2.cursor, buffer⟩ := by
  rcases fileSeek_cases cfg f off whence with h | ⟨n, ⟨h, ⟨hreading, hoff⟩, hindex⟩ | h⟩
  · rw [h]
    exact ⟨rfl, hf, hp, fun _ => id⟩
  · rw [h]
    exact ⟨rfl, hf.of_cursor _, fun _ => Or.inr ((hp hreading).resolve_left hoff |>.move hindex),
      fun _ hs => ⟨hs.aligned, hs.bytes⟩⟩
  · rw [h]
    refine ⟨rfl, hf.of_cursor _, fun hreading => ?_, fun _ hs => ?_⟩
    · exact absurd (hreading.symm.trans (f.cursor.flush_reading f.inline)) Bool.false_ne_true.symm
    · exact hs.of_cache (f.cursor.flush_cache f.inline)

/-! ## Other files -/

/-- Between two disks, the file has the same entry and its blocks have the same bytes. -/
structure SameFile (disk disk' : Disk cfg) (path : List UInt8) : Prop where
  dir : disk'.dir path = disk.dir path
  dev : ∀ head size, disk.dir path = some (.ctzStruct head size) →
    ∀ i b, Listed cfg disk.dev head size i b → disk'.dev b = disk.dev b

theorem SameFile.refl (disk : Disk cfg) (path : List UInt8) : SameFile disk disk path :=
  ⟨rfl, fun _ _ _ _ _ _ => rfl⟩

section Frame

variable {disk' : Disk cfg} {path : List UInt8}

/-- Induction on the derivation that the block is listed. -/
theorem SameFile.listed (h : SameFile disk disk' path) {head size : UInt32}
    (hentry : disk.dir path = some (.ctzStruct head size)) {i : Nat} {b : UInt32}
    (hb : Listed cfg disk.dev head size i b) : Listed cfg disk'.dev head size i b := by
  induction hb with
  | head => exact .head
  | pointer hb hi hskip ih =>
    have hnext := ih.pointer hi hskip
    rwa [h.dev head size hentry _ _ hb] at hnext

/-- Walks along the pointers are the same. Induction on the rounds. -/
theorem SameFile.ctzWalk_eq (h : SameFile disk disk' path) {head size : UInt32}
    (hentry : disk.dir path = some (.ctzStruct head size)) (target rounds : Nat) {current : Nat}
    {block : UInt32} (hblock : Listed cfg disk.dev head size current block) :
    ctzWalk disk'.dev rounds block current target = ctzWalk disk.dev rounds block current target := by
  induction rounds generalizing block current with
  | zero => rfl
  | succ rounds ih =>
    rw [ctzWalk, ctzWalk, h.dev head size hentry _ _ hblock]
    split
    · next hgt => exact ih (hblock.pointer (Nat.zero_lt_of_lt hgt) (ctzSkip_le_ctz current target))
    · rfl

theorem SameFile.blockAt_eq (h : SameFile disk disk' path) {head size : UInt32}
    (hentry : disk.dir path = some (.ctzStruct head size)) (i : Nat) :
    blockAt cfg disk'.dev head size i = blockAt cfg disk.dev head size i :=
  h.ctzWalk_eq hentry _ _ .head

/-- The object is still in its place, -/
theorem SameFile.place (h : SameFile disk disk' path) (hentry : disk.dir path = some entry)
    {p : Cursor} (hp : p.InPlace cfg disk.dev entry) : p.InPlace cfg disk'.dev entry := by
  intro hreading
  refine (hp hreading).imp_right fun hplace => ?_
  cases entry with
  | inlineStruct data hdata => exact hplace
  | ctzStruct head size =>
    obtain ⟨i, hi, hat⟩ := hplace
    exact ⟨i, hi, hat.trans (h.blockAt_eq hentry i).symm⟩

/-- and what it remembers still true. -/
theorem SameFile.holds (h : SameFile disk disk' path) (hentry : disk.dir path = some entry)
    (hs : Holds cfg disk.dev entry s) : Holds cfg disk'.dev entry s := by
  refine ⟨hs.aligned, hs.bytes.imp_right ?_⟩
  rintro ⟨m, len, hm, hbytes⟩
  refine ⟨m, len, ?_, hbytes⟩
  generalize s.cursor.cache.block = block at hm ⊢
  cases hm with
  | inline => exact .inline
  | block hb =>
    rw [← h.dev _ _ hentry _ _ hb]
    exact .block (h.listed hentry hb)

end Frame

end Files

end Lfs

end Samwise
