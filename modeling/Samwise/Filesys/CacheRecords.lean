import Samwise.Filesys.FileCache

/-!
# Samwise — true records of the cache

The bytes of a file, read off the disk without any cache (`Struct.content`), and what it means
that a file object's record of `cache_buffer` is true (`Holds`). Through a true record, reads
of a block or of a directory entry return what the disk has, and leave a true record.
-/

namespace Samwise

open Memory LittleEndian Fallible

namespace Lfs

/-! ## Alignment -/

theorem alignDown_le (a n : Nat) : alignDown a n ≤ a := Nat.sub_le _ _

theorem dvd_alignDown (a n : Nat) : n ∣ alignDown a n := Nat.dvd_sub_mod a

theorem lt_alignDown_add (a : Nat) {n : Nat} (hn : 0 < n) : a < alignDown a n + n := by
  have hmod := Nat.mod_lt a hn
  have hle := Nat.mod_le a n
  rw [alignDown]
  omega

/-- Aligning down keeps an aligned number below. -/
theorem le_alignDown {a b n : Nat} (hn : 0 < n) (hb : n ∣ b) (hle : b ≤ a) : b ≤ alignDown a n := by
  by_contra hlt
  obtain ⟨k, hk⟩ := Nat.dvd_sub hb (dvd_alignDown a n)
  have hnear := lt_alignDown_add a hn
  have hpos : 0 < k := by
    by_contra h0
    obtain rfl : k = 0 := Nat.eq_zero_of_not_pos h0
    omega
  have hstep : n ≤ n * k := Nat.le_mul_of_pos_right n hpos
  omega

theorem le_alignUp (a : Nat) {n : Nat} (hn : 0 < n) : a ≤ alignUp a n := by
  have h := lt_alignDown_add (a + n - 1) hn
  rw [alignUp]
  omega

/-! ## Where a position lies -/

section Index

variable {cfg : LfsConfig}

/-- The position of the first byte that the block of index `i` has of its file. -/
def firstPos (cfg : LfsConfig) (i : Nat) : Nat :=
  if i = 0 then 0 else (cfg.blockSize.toNat - 2 * 4) * i + 4 * (popc (i - 1) + 2)

@[simp] theorem firstPos_zero : firstPos cfg 0 = 0 := rfl

theorem firstPos_succ (i : Nat) :
    firstPos cfg (i + 1) =
      (cfg.blockSize.toNat - 2 * 4) * i + (cfg.blockSize.toNat - 2 * 4) + 4 * (popc i + 2) := by
  rw [firstPos, if_neg (Nat.succ_ne_zero i), Nat.mul_succ, Nat.add_sub_cancel]

theorem firstPos_le (i : Nat) : firstPos cfg i ≤ (cfg.blockSize.toNat - 2 * 4) * i + 136 := by
  cases i with
  | zero => exact Nat.zero_le _
  | succ i =>
    have h := popc_le i
    rw [firstPos_succ, Nat.mul_succ (cfg.blockSize.toNat - 2 * 4) i]
    omega

/-- `lfs_ctz_index` finds the block that has the position. Its first guess takes all blocks to
be as full as the first one but for two pointers, and may be one too large. -/
theorem ctzIndex_spec (hcfg : 144 ≤ cfg.blockSize.toNat) (n : Nat) :
    firstPos cfg (ctzIndex cfg n).1 ≤ n ∧ n < firstPos cfg ((ctzIndex cfg n).1 + 1) ∧
      (ctzIndex cfg n).2 =
        n - (cfg.blockSize.toNat - 2 * 4) * (ctzIndex cfg n).1 - 4 * popc (ctzIndex cfg n).1 := by
  obtain ⟨b, hb⟩ : ∃ b, cfg.blockSize.toNat - 2 * 4 = b := ⟨_, rfl⟩
  have hfirst (i : Nat) : firstPos cfg i ≤ b * i + 136 := hb ▸ firstPos_le i
  unfold ctzIndex
  simp only [firstPos_succ, hb]
  have hpos : 136 ≤ b := by omega
  -- the code guesses the index as `n / b`, which the pointers make too large by at most one
  have hguess := Nat.div_add_mod n b
  have hmod := Nat.mod_lt n (Nat.lt_of_lt_of_le (by decide : 0 < 136) hpos)
  cases hi : n / b with
  | zero =>
    rw [hi, Nat.mul_zero] at hguess
    have hzero : popc 0 = 0 := rfl
    simp only [if_pos, firstPos_zero, Nat.mul_zero, hzero]
    omega
  | succ j =>
    rw [hi, Nat.mul_succ] at hguess
    have hpopc := popc_le j
    have hmul : b * (j + 1) = b * j + b := Nat.mul_succ b j
    simp only [if_neg (Nat.succ_ne_zero j), Nat.add_sub_cancel]
    by_cases hright : 4 * (popc j + 2) ≤ n % b
    · -- the guess is right
      have hindex : (n - 4 * (popc j + 2)) / b = j + 1 := by
        refine Nat.div_eq_of_lt_le ?_ ?_
        · rw [Nat.mul_comm (j + 1) b]
          omega
        · rw [Nat.mul_comm (j + 1 + 1) b, Nat.mul_succ b (j + 1)]
          omega
      rw [hindex, firstPos_succ, hb]
      refine ⟨?_, ?_, trivial⟩
      · omega
      · omega
    · -- the position is before the guessed block
      have hindex : (n - 4 * (popc j + 2)) / b = j := by
        refine Nat.div_eq_of_lt_le ?_ ?_
        · rw [Nat.mul_comm j b]
          omega
        · rw [Nat.mul_comm (j + 1) b]
          omega
      rw [hindex]
      have hj := hfirst j
      refine ⟨?_, ?_, trivial⟩
      · omega
      · omega

theorem firstPos_monotone (hcfg : 144 ≤ cfg.blockSize.toNat) : Monotone (firstPos cfg) := by
  refine monotone_nat_of_le_succ fun i => ?_
  have hle : firstPos cfg i ≤ _ := firstPos_le i
  rw [firstPos_succ]
  omega

/-- The pointers at a block's front lie before its first position. -/
theorem le_firstPos (i : Nat) :
    (cfg.blockSize.toNat - 2 * 4) * i + 4 * popc i ≤ firstPos cfg i := by
  cases i with
  | zero => exact Nat.le_refl 0
  | succ i =>
    have hpopc := popc_succ_le i
    rw [firstPos_succ, Nat.mul_succ (cfg.blockSize.toNat - 2 * 4) i]
    omega

/-- A position in the reach of a block's index has that index. -/
theorem ctzIndex_fst_eq (hcfg : 144 ≤ cfg.blockSize.toNat) {n i : Nat}
    (hlo : firstPos cfg i ≤ n) (hhi : n < firstPos cfg (i + 1)) : (ctzIndex cfg n).1 = i := by
  obtain ⟨hlo', hhi', _⟩ := ctzIndex_spec hcfg n
  rcases Nat.lt_trichotomy (ctzIndex cfg n).1 i with hlt | heq | hgt
  · have hmono := firstPos_monotone hcfg (Nat.succ_le_of_lt hlt)
    exact absurd (Nat.lt_of_lt_of_le hhi' hmono) (Nat.not_lt.mpr hlo)
  · exact heq
  · have hmono := firstPos_monotone hcfg (Nat.succ_le_of_lt hgt)
    exact absurd (Nat.lt_of_lt_of_le hhi hmono) (Nat.not_lt.mpr hlo')

/-- Going on within a block. -/
theorem ctzIndex_add (hcfg : 144 ≤ cfg.blockSize.toNat) {n i off k : Nat}
    (h : ctzIndex cfg n = (i, off)) (hk : off + k < cfg.blockSize.toNat) :
    ctzIndex cfg (n + k) = (i, off + k) := by
  obtain ⟨hlo, hhi, hoff⟩ := ctzIndex_spec hcfg n
  rw [h] at hlo hhi hoff
  dsimp only at hlo hhi hoff
  have hfront : _ ≤ firstPos cfg i := le_firstPos i
  have hfst : (ctzIndex cfg (n + k)).1 = i := by
    refine ctzIndex_fst_eq hcfg (Nat.le_add_right_of_le hlo) ?_
    rw [firstPos_succ]
    omega
  have hsnd := (ctzIndex_spec hcfg (n + k)).2.2
  rw [hfst] at hsnd
  refine Prod.ext hfst ?_
  dsimp only
  omega

/-- Offsets lie in the block. -/
theorem ctzIndex_snd_lt (hcfg : 144 ≤ cfg.blockSize.toNat) (n : Nat) :
    (ctzIndex cfg n).2 < cfg.blockSize.toNat := by
  obtain ⟨_, hhi, hoff⟩ := ctzIndex_spec hcfg n
  rw [firstPos_succ] at hhi
  omega

/-- The first block is all bytes of its file. -/
theorem ctzIndex_snd_of_fst (hcfg : 144 ≤ cfg.blockSize.toNat) {n : Nat}
    (h : (ctzIndex cfg n).1 = 0) : (ctzIndex cfg n).2 = n := by
  obtain ⟨_, _, hoff⟩ := ctzIndex_spec hcfg n
  rw [hoff, h]
  rfl

theorem ctzIndex_of_lt {n : Nat} (hn : n < cfg.blockSize.toNat - 2 * 4) :
    ctzIndex cfg n = (0, n) := by
  rw [ctzIndex, Nat.div_eq_of_lt hn]
  rfl

end Index

/-! ## The bytes of a file -/

section Content

variable {cfg : LfsConfig}

/-- The walk of `lfs_ctz_find` over the device. -/
def ctzWalk (dev : UInt32 → Mem) : Nat → UInt32 → Nat → Nat → UInt32
  | 0, head, _, _ => head
  | rounds + 1, head, current, target =>
    if current > target then
      let skip := ctzSkip current target
      ctzWalk dev rounds (ofLe32 (read (dev head) (4 * skip) 4)) (current - 2 ^ skip) target
    else head

/-- The block of index `i`. -/
def blockAt (cfg : LfsConfig) (dev : UInt32 → Mem) (head size : UInt32) (i : Nat) : UInt32 :=
  let current := (ctzIndex cfg (size.toNat - 1)).1
  ctzWalk dev current head current i

/-- The byte of a file at each position. -/
def Struct.bytes (cfg : LfsConfig) (dev : UInt32 → Mem) : Struct → Mem
  | .inlineStruct data _, p => data[p]?.getD 0
  | .ctzStruct head size, p =>
    let (i, off) := ctzIndex cfg p
    dev (blockAt cfg dev head size i) off

/-- The number of bytes of a file. -/
def Struct.length : Struct → Nat
  | .inlineStruct data _ => data.length
  | .ctzStruct _ size => size.toNat

/-- The bytes of a file. -/
def Struct.content (cfg : LfsConfig) (dev : UInt32 → Mem) (entry : Struct) : List UInt8 :=
  read (entry.bytes cfg dev) 0 entry.length

end Content

/-! ## True records -/

/-- The memories of a file that a record can be of, with their lengths: the file's entry, or a
block of its list. -/
inductive Backs (cfg : LfsConfig) (dev : UInt32 → Mem) : Struct → CacheBlock → Mem → Nat → Prop
  | inline {data : List UInt8} {h : data.length ≤ cacheSize} :
    Backs cfg dev (.inlineStruct data h) .inline ((Struct.inlineStruct data h).bytes cfg dev)
      data.length
  | block {head size : UInt32} {i : Nat} {b : UInt32} (hb : Listed cfg dev head size i b) :
    Backs cfg dev (.ctzStruct head size) (.block b) (dev b) cfg.blockSize.toNat

/-- What the object remembers of `cache_buffer`, if anything, is true. -/
structure Holds (cfg : LfsConfig) (dev : UInt32 → Mem) (entry : Struct) (s : ReadState) :
    Prop where
  aligned : readSize ∣ s.cursor.cache.off
  bytes : s.cursor.cache.block = .null ∨ ∃ m len, Backs cfg dev entry s.cursor.cache.block m len ∧
    ∀ i < s.cursor.cache.size, s.cursor.cache.off + i < len →
      s.buffer i = m (s.cursor.cache.off + i)

/-- Only the record, and `cache_buffer`, differ. -/
def SamePlace (s s' : ReadState) : Prop := s'.cursor = { s.cursor with cache := s'.cursor.cache }

theorem SamePlace.pos {s s' : ReadState} (h : SamePlace s s') : s'.cursor.pos = s.cursor.pos := by
  rw [SamePlace] at h
  rw [h]

theorem SamePlace.trans {s s' s'' : ReadState} (h : SamePlace s s') (h' : SamePlace s' s'') :
    SamePlace s s'' := by
  rw [SamePlace] at *
  rw [h', h]

/-- An access succeeds with `a`, changes nothing but the record and `cache_buffer`, and the
record is true. -/
structure Gives {α : Type} (cfg : LfsConfig) (dev : UInt32 → Mem) (entry : Struct)
    (s : ReadState) (a : α) (r : Except Int α) (s' : ReadState) : Prop where
  result : r = .ok a
  place : SamePlace s s'
  holds : Holds cfg dev entry s'

theorem Gives.not_error {α : Type} {cfg : LfsConfig} {dev : UInt32 → Mem} {entry : Struct}
    {s s' : ReadState} {a : α} {e : Int} (h : Gives cfg dev entry s a (.error e) s') : False := by
  cases h.result

/-! ## Reading blocks -/

section Blocks

variable {cfg : LfsConfig} {disk : Disk cfg} {entry : Struct} {s : ReadState}

theorem Backs.unique {block : CacheBlock} {m m' : Mem} {len len' : Nat}
    (h : Backs cfg disk.dev entry block m len) (h' : Backs cfg disk.dev entry block m' len') :
    m = m' ∧ len = len' := by
  cases h with
  | inline =>
    cases h' with
    | inline => exact ⟨rfl, rfl⟩
  | block _ =>
    cases h' with
    | block _ => exact ⟨rfl, rfl⟩

/-- What `cache_buffer` has of a memory of the file, by a true record. -/
theorem Holds.read_covered {block : CacheBlock} {m : Mem} {off n len : Nat}
    (hs : Holds cfg disk.dev entry s) (hm : Backs cfg disk.dev entry block m len)
    (hcovers : s.cursor.cache.Covers block off)
    (hn : n ≤ s.cursor.cache.size - (off - s.cursor.cache.off)) (hlen : off + n ≤ len) :
    read s.buffer (off - s.cursor.cache.off) n = read m off n := by
  obtain ⟨hblock, hlt, hle⟩ := hcovers
  refine read_eq_read fun i hi => ?_
  rcases hs.bytes with hnull | ⟨m', len', hm', hbytes⟩
  · rw [← hblock, hnull] at hm
    cases hm
  · rw [hblock] at hm'
    obtain ⟨rfl, rfl⟩ := hm'.unique hm
    rw [hbytes _ (by omega) (by omega)]
    congr 1
    omega

/-- Loading `cache_buffer` from a memory of the file, and remembering that. -/
theorem Holds.load {c : Cache} {m : Mem} {len : Nat}
    (hm : Backs cfg disk.dev entry c.block m len) (hc : readSize ∣ c.off) :
    Holds cfg disk.dev entry
      { cursor := { s.cursor with cache := c }, buffer := write s.buffer 0 (read m c.off c.size) } :=
  ⟨hc, Or.inr ⟨m, len, hm, fun _ hi _ => write_zero_read s.buffer m c.off hi⟩⟩

/-- The window that is loaded for an offset covers it. -/
theorem window_covers {hint : Nat} (block : UInt32) {off : Nat} (hhint : 0 < hint)
    (hoff : off < cfg.blockSize.toNat) :
    (window cfg hint block off).Covers (.block block) off := by
  have hlo := alignDown_le off readSize
  have hhi : off < alignDown off readSize + readSize := lt_alignDown_add off (by decide)
  have hup : off + hint ≤ alignUp (off + hint) readSize := le_alignUp _ (by decide)
  refine ⟨rfl, ?_, hlo⟩
  rw [readSize_eq] at hlo hhi hup
  simp only [window, readSize_eq, cacheSize_eq]
  omega

/-- And so does the one of an inline file. -/
theorem inline_covers {hint : Nat} (off : Nat) (hhint : 0 < hint) :
    Cache.Covers ⟨.inline, alignDown off readSize, min (alignUp (off + hint) readSize) cacheSize⟩
      .inline off := by
  have hlo := alignDown_le off readSize
  have hhi : off < alignDown off readSize + readSize := lt_alignDown_add off (by decide)
  have hup : off + hint ≤ alignUp (off + hint) readSize := le_alignUp _ (by decide)
  refine ⟨rfl, ?_, hlo⟩
  rw [readSize_eq] at hlo hhi hup
  simp only [readSize_eq, cacheSize_eq]
  omega

/-- The rounds that a loop over `cache_buffer` still needs: two for a byte that is not
covered. -/
def roundsFor (s : ReadState) (block : CacheBlock) (off size : Nat) : Nat :=
  2 * size + if s.cursor.cache.Covers block off then 0 else 1

theorem roundsFor_zero {block : CacheBlock} {off n : Nat} (h : roundsFor s block off n ≤ 0) :
    n = 0 := by
  rw [roundsFor] at h
  omega

theorem roundsFor_rest {block : CacheBlock} {off n diff rounds : Nat}
    (h : roundsFor s block off n ≤ rounds + 1) (hpos : 0 < diff) (hdiff : diff ≤ n) :
    roundsFor s block (off + diff) (n - diff) ≤ rounds := by
  rw [roundsFor] at *
  split at h <;> split <;> omega

theorem roundsFor_loaded {block : CacheBlock} {off n rounds : Nat} {s' : ReadState}
    (h : roundsFor s block off n ≤ rounds + 1) (hmiss : ¬s.cursor.cache.Covers block off)
    (hcovers : s'.cursor.cache.Covers block off) : roundsFor s' block off n ≤ rounds := by
  rw [roundsFor, if_neg hmiss] at h
  rw [roundsFor, if_pos hcovers]
  omega

theorem roundsFor_le (block : CacheBlock) (off n : Nat) : roundsFor s block off n ≤ 2 * n + 1 := by
  rw [roundsFor]
  split <;> omega

/-- A round that has `diff` of the bytes, and the rest. -/
theorem yields_round {rest : Access (List UInt8)} {m : Mem} {bytes : List UInt8}
    {off n diff : Nat} (hdiff : diff ≤ n) (hbytes : bytes = read m off diff)
    (hrest : Yields rest s (Gives cfg disk.dev entry s (read m (off + diff) (n - diff)))) :
    Yields (rest >>= fun rest => pure (bytes ++ rest)) s
      (Gives cfg disk.dev entry s (read m off n)) := by
  refine .bind hrest (fun rest s' h => .pure ⟨?_, h.place, h.holds⟩) fun e s' h => h.not_error.elim
  obtain rfl := Except.ok.inj h.result
  rw [hbytes, ← read_add, Nat.add_sub_cancel' hdiff]

/-- Up to the bytes that the record has of the block, there is an aligned piece to read. -/
theorem priority_bounds {c : Cache} {block : CacheBlock} {off n : Nat} (hc : readSize ∣ c.off)
    (hoff : off % readSize = 0) (hn : readSize ≤ n) (hmiss : ¬c.Covers block off) :
    readSize ≤ (if c.block = block ∧ off < c.off + c.size then min n (c.off - off) else n) ∧
      (if c.block = block ∧ off < c.off + c.size then min n (c.off - off) else n) ≤ n := by
  split
  · next h =>
    have hlt : off < c.off := Nat.lt_of_not_le fun hle => hmiss ⟨h.1, h.2, hle⟩
    have hdvd : readSize ∣ c.off - off := Nat.dvd_sub hc (Nat.dvd_of_mod_eq_zero hoff)
    have hge := Nat.le_of_dvd (Nat.sub_pos_of_lt hlt) hdvd
    exact ⟨Nat.le_min.mpr ⟨hn, hge⟩, Nat.min_le_left _ _⟩
  · exact ⟨hn, Nat.le_refl n⟩

/-- Induction on the rounds. -/
theorem yields_bdReadLoop {hint : Nat} {block head size : UInt32} {index : Nat} (hhint : 0 < hint)
    (hblock : Listed cfg disk.dev head size index block)
    (rounds : Nat) {off n : Nat} (hs : Holds cfg disk.dev (.ctzStruct head size) s)
    (hfit : off + n ≤ cfg.blockSize.toNat) (hrounds : roundsFor s (.block block) off n ≤ rounds) :
    Yields (bdReadLoop disk hint block rounds off n) s
      (Gives cfg disk.dev (.ctzStruct head size) s (read (disk.dev block) off n)) := by
  induction rounds generalizing off n s with
  | zero =>
    obtain rfl := roundsFor_zero hrounds
    exact .pure ⟨rfl, rfl, hs⟩
  | succ rounds ih =>
    refine .ite (fun hzero => ?_) fun hne => ?_
    · subst hzero
      exact .pure ⟨rfl, rfl, hs⟩
    refine .get_bind (.ite (fun hcovers => ?_) fun hmiss => .ite (fun hbypass => ?_) fun _ => ?_)
    · -- the cache covers the beginning
      have hcover := hcovers
      obtain ⟨_, hlt, hle⟩ := hcover
      exact yields_round (Nat.min_le_left _ _)
        (hs.read_covered (.block hblock) hcovers (Nat.min_le_right _ _) (by omega))
        (ih hs (by omega) (roundsFor_rest hrounds (by omega) (Nat.min_le_left _ _)))
    · -- a large aligned read goes past the cache
      obtain ⟨_, haligned, hlarge⟩ := hbypass
      obtain ⟨hge, hle⟩ := priority_bounds hs.aligned haligned hlarge hmiss
      have hpos := Nat.lt_of_lt_of_le (by decide : 0 < readSize)
        (le_alignDown (by decide) dvd_rfl hge)
      have hdiff := Nat.le_trans (alignDown_le _ readSize) hle
      exact yields_round hdiff rfl (ih hs (by omega) (roundsFor_rest hrounds hpos hdiff))
    · -- otherwise the cache is filled first, and the next round finds it there
      have hcovers := window_covers block hhint (show off < cfg.blockSize.toNat by omega)
      refine .modify_bind ((ih ?_ hfit (roundsFor_loaded hrounds hmiss hcovers)).mono ?_)
      · exact .load (.block hblock) (dvd_alignDown _ _)
      · exact fun r s' h => ⟨h.result, .trans rfl h.place, h.holds⟩

/-- `lfs_bd_read` of a block of the file. -/
theorem yields_bdRead {path : List UInt8} {hint : Nat} {block head size : UInt32} {index : Nat}
    (hentry : disk.dir path = some (.ctzStruct head size)) (hsize : 0 < size.toNat)
    (hhint : 0 < hint) (hblock : Listed cfg disk.dev head size index block) {off n : Nat}
    (hs : Holds cfg disk.dev (.ctzStruct head size) s) (hfit : off + n ≤ cfg.blockSize.toNat) :
    Yields (bdRead disk hint block off n) s
      (Gives cfg disk.dev (.ctzStruct head size) s (read (disk.dev block) off n)) := by
  refine .ite (fun hbad => ?_) fun _ => yields_bdReadLoop hhint hblock _ hs hfit (roundsFor_le _ _ _)
  have hdevice := disk.onDevice path head size hentry hsize index block hblock
  rcases hbad with hbad | hbad
  · exact absurd hfit (Nat.not_le.mpr hbad)
  · exact absurd hdevice (UInt32.not_lt.mpr hbad)

/-- `lfs_dir_getslice` is a window of the entry's bytes. -/
theorem getslice_eq (cfg : LfsConfig) (dev : UInt32 → Mem) {data : List UInt8}
    (h : data.length ≤ cacheSize) (goff gsize : Nat) :
    getslice data goff gsize = read ((Struct.inlineStruct data h).bytes cfg dev) goff gsize := by
  apply List.ext_getElem?
  intro i
  rw [getElem?_read, getslice, List.getElem?_append, List.getElem?_replicate, List.getElem?_take,
    List.getElem?_drop, List.length_take, List.length_drop]
  simp only [Struct.bytes]
  by_cases hi : i < gsize
  · by_cases hdata : goff + i < data.length
    · rw [if_pos (by omega), if_pos hi, if_pos hi, List.getElem?_eq_getElem hdata]
      rfl
    · rw [if_neg (by omega), if_pos (by omega), if_pos hi,
        List.getElem?_eq_none (Nat.not_lt.mp hdata)]
      rfl
  · rw [if_neg (by omega), if_neg (by omega), if_neg hi]

/-- Induction on the rounds. -/
theorem yields_dirGetreadLoop {path data : List UInt8} {h : data.length ≤ cacheSize} {hint : Nat}
    (hentry : disk.dir path = some (.inlineStruct data h)) (hhint : 0 < hint)
    (rounds : Nat) {off n : Nat} (hs : Holds cfg disk.dev (.inlineStruct data h) s)
    (hfit : off + n ≤ data.length) (hrounds : roundsFor s .inline off n ≤ rounds) :
    Yields (dirGetreadLoop disk hint path rounds off n) s
      (Gives cfg disk.dev (.inlineStruct data h) s
        (read ((Struct.inlineStruct data h).bytes cfg disk.dev) off n)) := by
  induction rounds generalizing off n s with
  | zero =>
    obtain rfl := roundsFor_zero hrounds
    exact .pure ⟨rfl, rfl, hs⟩
  | succ rounds ih =>
    refine .ite (fun hzero => ?_) fun hne => ?_
    · subst hzero
      exact .pure ⟨rfl, rfl, hs⟩
    refine .get_bind (.ite (fun hcovers => ?_) fun hmiss => ?_)
    · have hcover := hcovers
      obtain ⟨_, hlt, hle⟩ := hcover
      exact yields_round (Nat.min_le_left _ _)
        (hs.read_covered .inline hcovers (Nat.min_le_right _ _) (by omega))
        (ih hs (by omega) (roundsFor_rest hrounds (by omega) (Nat.min_le_left _ _)))
    · have hcovers := inline_covers off hhint
      dsimp only
      rw [hentry]
      refine .modify_bind ((ih ?_ hfit (roundsFor_loaded hrounds hmiss hcovers)).mono ?_)
      · rw [getslice_eq cfg disk.dev h]
        exact .load .inline (dvd_alignDown _ _)
      · exact fun r s' h => ⟨h.result, .trans rfl h.place, h.holds⟩

/-- `lfs_dir_getread` of an inline file. -/
theorem yields_dirGetread {path data : List UInt8} {h : data.length ≤ cacheSize} {hint : Nat}
    (hentry : disk.dir path = some (.inlineStruct data h)) (hhint : 0 < hint) {off n : Nat}
    (hs : Holds cfg disk.dev (.inlineStruct data h) s) (hfit : off + n ≤ data.length)
    (hblock : data.length ≤ cfg.blockSize.toNat) :
    Yields (dirGetread disk hint path off n) s
      (Gives cfg disk.dev (.inlineStruct data h) s
        (read ((Struct.inlineStruct data h).bytes cfg disk.dev) off n)) := by
  refine .ite (fun hbad => absurd hbad (Nat.not_lt.mpr (Nat.le_trans hfit hblock))) fun _ => ?_
  exact yields_dirGetreadLoop hentry hhint _ hs hfit (roundsFor_le _ _ _)

end Blocks

end Lfs

end Samwise
