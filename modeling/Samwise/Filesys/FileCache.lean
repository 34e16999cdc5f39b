import Samwise.Filesys.Filesys
import Samwise.Lib.Fallible
import Samwise.Lib.LittleEndian

/-!
# Samwise — how littlefs reads a file

The reading path of `lib/littlefs-SSI/lfs.c`, for files opened with `filesys_lfs_file_cfg`: a
file object remembers which bytes of which block `cache_buffer` holds, and reads through that
buffer the blocks of the file and the pointers between them. The block devices of
`src/filesys` read without errors, so the device is a memory for each block. The directory is
what `lfs_dir_find` and `lfs_dir_get` find there, through a cache of their own.
-/

namespace Samwise

open Memory LittleEndian

namespace Lfs

/-! ## Numbers (`lfs_util.h`) -/

/-- `lfs_aligndown`. -/
def alignDown (a alignment : Nat) : Nat := a - a % alignment

/-- `lfs_alignup`. -/
def alignUp (a alignment : Nat) : Nat := alignDown (a + alignment - 1) alignment

/-- `lfs_npw2`. -/
def npw2 (a : Nat) : Nat := 32 - (BitVec.ofNat 32 (a - 1)).clz.toNat

/-- `lfs_ctz`. -/
def ctz (a : Nat) : Nat := (BitVec.ofNat 32 a).ctz.toNat

/-- The loop of `lfs_popc` over the bits. -/
def popcLoop : Nat → Nat → Nat
  | 0, _ => 0
  | bits + 1, a => a % 2 + popcLoop bits (a / 2)

/-- `lfs_popc`. -/
def popc (a : Nat) : Nat := popcLoop 32 a

theorem popcLoop_le (bits a : Nat) : popcLoop bits a ≤ bits := by
  induction bits generalizing a with
  | zero => exact Nat.le_refl 0
  | succ bits ih =>
    have h := ih (a / 2)
    rw [popcLoop]
    omega

theorem popc_le (a : Nat) : popc a ≤ 32 := popcLoop_le 32 a

/-- Counting up sets one bit at most. -/
theorem popcLoop_succ_le (bits a : Nat) : popcLoop bits (a + 1) ≤ popcLoop bits a + 1 := by
  induction bits generalizing a with
  | zero => exact Nat.zero_le _
  | succ bits ih =>
    have h := ih (a / 2)
    rw [popcLoop, popcLoop]
    rcases Nat.mod_two_eq_zero_or_one a with heven | hodd
    · have hhalf : (a + 1) / 2 = a / 2 := by omega
      rw [hhalf]
      omega
    · have hhalf : (a + 1) / 2 = a / 2 + 1 := by omega
      rw [hhalf]
      omega

theorem popc_succ_le (a : Nat) : popc (a + 1) ≤ popc a + 1 := popcLoop_succ_le 32 a

/-- `read_size`. -/
def readSize : Nat := 16

/-- `FILESYS_CFG_CACHE_SIZE`. -/
def cacheSize : Nat := 16

@[simp] theorem readSize_eq : readSize = 16 := rfl

@[simp] theorem cacheSize_eq : cacheSize = 16 := rfl

/-- `LFS_ERR_CORRUPT`. -/
def errCorrupt : Int := -84

/-- `LFS_ERR_INVAL`. -/
def errInval : Int := -22

/-- `LFS_ERR_NOENT`. -/
def errNoent : Int := -2

/-! ## The disk -/

/-- `lfs_ctz_index`: the index of the block with the position `n`, and the offset in it. -/
def ctzIndex (cfg : LfsConfig) (n : Nat) : Nat × Nat :=
  let b := cfg.blockSize.toNat - 2 * 4
  let i := n / b
  if i = 0 then (0, n)
  else
    let i := (n - 4 * (popc (i - 1) + 2)) / b
    (i, n - b * i - 4 * popc i)

/-- The blocks of a file whose last one is `head`, with their indices: the block of index `i`
starts with pointers, the one at `4 * skip` to the block of index `i - 2 ^ skip`. -/
inductive Listed (cfg : LfsConfig) (dev : UInt32 → Mem) (head size : UInt32) :
    Nat → UInt32 → Prop
  | head : Listed cfg dev head size (ctzIndex cfg (size.toNat - 1)).1 head
  | pointer {i skip : Nat} {b : UInt32} (hb : Listed cfg dev head size i b) (hi : 0 < i)
    (hskip : skip ≤ ctz i) :
    Listed cfg dev head size (i - 2 ^ skip) (ofLe32 (read (dev b) (4 * skip) 4))

/-- What a directory entry has of its file: the bytes of an inline file, which are never more
than fit a cache, or the last block of a list of blocks, and the file's size. -/
inductive Struct where
  | inlineStruct (data : List UInt8) (h : data.length ≤ cacheSize)
  | ctzStruct (head size : UInt32)

/-- The blocks, and the directory entries by their resolved paths. The blocks of a file lie on
the device. -/
structure Disk (cfg : LfsConfig) where
  dev : UInt32 → Mem
  dir : List UInt8 → Option Struct
  onDevice : ∀ path head size, dir path = some (.ctzStruct head size) → 0 < size.toNat →
    ∀ i b, Listed cfg dev head size i b → b < cfg.blockCount

/-! ## File objects -/

/-- The `block` of a cache record: `LFS_BLOCK_NULL`, `LFS_BLOCK_INLINE` or a block. -/
inductive CacheBlock where
  | null
  | inline
  | block (b : UInt32)
deriving DecidableEq

/-- `lfs_cache_t` without its buffer: the buffer's first `size` bytes are those of the block
from `off` on. -/
structure Cache where
  block : CacheBlock
  off : Nat
  size : Nat

/-- What reading changes of a `lfs_file_t`. `reading` is `LFS_F_READING`. -/
structure Cursor where
  pos : Nat
  off : Nat
  block : UInt32
  reading : Bool
  cache : Cache

/-- A `lfs_file_t`. `inline` is `LFS_F_INLINE`, `head` and `size` are `ctz`. -/
structure File where
  path : List UInt8
  inline : Bool
  head : UInt32
  size : UInt32
  cursor : Cursor

/-- What a read works on: the object's cursor, and `cache_buffer`. -/
structure ReadState where
  cursor : Cursor
  buffer : Mem

/-- A function of `lfs.c` that reads, with a negative error code. -/
abbrev Access (α : Type) := ExceptT Int (StateM ReadState) α

/-- Assign to the cursor. -/
def setCursor (f : Cursor → Cursor) : Access Unit :=
  modify fun s => { s with cursor := f s.cursor }

/-- `cache_buffer` is loaded, and remembered. -/
def load (cache : Cache) (bytes : List UInt8) : Access Unit :=
  modify fun s =>
    { cursor := { s.cursor with cache := cache }, buffer := write s.buffer 0 bytes }

/-! ## Reading blocks -/

section Reading

variable {cfg : LfsConfig} (disk : Disk cfg)

/-- The offset lies in what the record says of the block. -/
def Cache.Covers (c : Cache) (block : CacheBlock) (off : Nat) : Prop :=
  c.block = block ∧ off < c.off + c.size ∧ c.off ≤ off

instance (c : Cache) (block : CacheBlock) (off : Nat) : Decidable (c.Covers block off) :=
  inferInstanceAs (Decidable (_ ∧ _ ∧ _))

/-- The window of the block that `lfs_bd_read` loads. -/
def window (cfg : LfsConfig) (hint : Nat) (block : UInt32) (off : Nat) : Cache :=
  let start := alignDown off readSize
  { block := .block block
    off := start
    size := min (min (alignUp (off + hint) readSize) cfg.blockSize.toNat - start) cacheSize }

/-- The loop of `lfs_bd_read`, without a `pcache`. A round reads a byte or loads the window
that the next one reads from. -/
def bdReadLoop (hint : Nat) (block : UInt32) : Nat → Nat → Nat → Access (List UInt8)
  | 0, _, _ => return []
  | rounds + 1, off, size => do
    if size = 0 then return [] else
    let s ← get
    let c := s.cursor.cache
    if c.Covers (.block block) off then
      let diff := min size (c.size - (off - c.off))
      let rest ← bdReadLoop hint block rounds (off + diff) (size - diff)
      return read s.buffer (off - c.off) diff ++ rest
    else
    -- the record takes priority over the device
    let diff := if c.block = .block block ∧ off < c.off + c.size then min size (c.off - off)
      else size
    if size ≥ hint ∧ off % readSize = 0 ∧ size ≥ readSize then
      let diff := alignDown diff readSize
      let rest ← bdReadLoop hint block rounds (off + diff) (size - diff)
      return read (disk.dev block) off diff ++ rest
    else
    let w := window cfg hint block off
    load w (read (disk.dev block) w.off w.size)
    bdReadLoop hint block rounds off size

/-- `lfs_bd_read`, without a `pcache` and with the file's cache as `rcache`. -/
def bdRead (hint : Nat) (block : UInt32) (off size : Nat) : Access (List UInt8) := do
  if off + size > cfg.blockSize.toNat ∨ block ≥ cfg.blockCount then throw errCorrupt else
  bdReadLoop disk hint block (2 * size + 1) off size

/-- `lfs_dir_getslice` of an inline file: its bytes from `goff` on, and zeros behind them. -/
def getslice (data : List UInt8) (goff gsize : Nat) : List UInt8 :=
  let bytes := (data.drop goff).take gsize
  bytes ++ .replicate (gsize - bytes.length) 0

/-- The loop of `lfs_dir_getread`, without a `pcache`. -/
def dirGetreadLoop (hint : Nat) (path : List UInt8) : Nat → Nat → Nat → Access (List UInt8)
  | 0, _, _ => return []
  | rounds + 1, off, size => do
    if size = 0 then return [] else
    let s ← get
    let c := s.cursor.cache
    if c.Covers .inline off then
      let diff := min size (c.size - (off - c.off))
      let rest ← dirGetreadLoop hint path rounds (off + diff) (size - diff)
      return read s.buffer (off - c.off) diff ++ rest
    else
    let start := alignDown off readSize
    let w : Cache := ⟨.inline, start, min (alignUp (off + hint) readSize) cacheSize⟩
    match disk.dir path with
    | some (.inlineStruct data _) =>
      load w (getslice data w.off w.size)
      dirGetreadLoop hint path rounds off size
    | _ =>
      setCursor fun p => { p with cache := w }
      throw errNoent

/-- `lfs_dir_getread`. -/
def dirGetread (hint : Nat) (path : List UInt8) (off size : Nat) : Access (List UInt8) := do
  if off + size > cfg.blockSize.toNat then throw errCorrupt else
  dirGetreadLoop disk hint path (2 * size + 1) off size

/-! ## Finding blocks -/

/-- How far `lfs_ctz_find` skips, as a power of two. -/
def ctzSkip (current target : Nat) : Nat := min (npw2 (current - target + 1) - 1) (ctz current)

/-- The loop of `lfs_ctz_find`; as many rounds as blocks are enough. -/
def ctzFindLoop : Nat → UInt32 → Nat → Nat → Access UInt32
  | 0, head, _, _ => return head
  | rounds + 1, head, current, target => do
    if current > target then
      let skip := ctzSkip current target
      let pointer ← bdRead disk 4 head (4 * skip) 4
      ctzFindLoop rounds (ofLe32 pointer) (current - 2 ^ skip) target
    else return head

/-- `lfs_ctz_find`, for a file that is not empty. -/
def ctzFind (head size : UInt32) (pos : Nat) : Access (UInt32 × Nat) := do
  let current := (ctzIndex cfg (size.toNat - 1)).1
  let (target, off) := ctzIndex cfg pos
  let block ← ctzFindLoop disk current head current target
  return (block, off)

/-! ## Reading files -/

/-- The start of a round of `lfs_file_flushedread`: a new block, if one is needed. -/
def nextBlock (f : File) : Access Unit := do
  let s ← get
  if s.cursor.reading = false ∨ s.cursor.off = cfg.blockSize.toNat then
    if f.inline = false then
      let (block, off) ← ctzFind disk f.head f.size s.cursor.pos
      setCursor fun p => { p with block := block, off := off, reading := true }
    else
      setCursor fun p => { p with off := p.pos, reading := true }
  else return ()

/-- The read of a round of `lfs_file_flushedread`, from the directory or from the block. -/
def readPiece (f : File) (p : Cursor) (diff : Nat) : Access (List UInt8) :=
  if f.inline = true then dirGetread disk cfg.blockSize.toNat f.path p.off diff
  else bdRead disk cfg.blockSize.toNat p.block p.off diff

/-- The loop of `lfs_file_flushedread`; a round reads a byte at least. -/
def flushedreadLoop (f : File) : Nat → Nat → Access (List UInt8)
  | 0, _ => return []
  | rounds + 1, nsize => do
    if nsize = 0 then return [] else
    nextBlock disk f
    let s ← get
    let diff := min nsize (cfg.blockSize.toNat - s.cursor.off)
    let data ← readPiece disk f s.cursor diff
    setCursor fun p => { p with pos := p.pos + diff, off := p.off + diff }
    let rest ← flushedreadLoop f rounds (nsize - diff)
    return data ++ rest

/-- `lfs_file_flushedread`, for which `lfs_file_read` is another name where nothing was
written. -/
def fileFlushedread (f : File) (size : Nat) : Access (List UInt8) := do
  let s ← get
  if s.cursor.pos ≥ f.size.toNat then return [] else
  let nsize := min size (f.size.toNat - s.cursor.pos)
  flushedreadLoop disk f nsize nsize

/-- `lfs_file_flush`, for a file that was only read. -/
def Cursor.flush (p : Cursor) (inline : Bool) : Cursor :=
  if p.reading = true then
    { p with
      reading := false
      cache := if inline = true then p.cache else { p.cache with block := .null } }
  else p

/-- `lfs_file_seek`: the result, and the object behind it. -/
def fileSeek (cfg : LfsConfig) (f : File) (off whence : Int32) : Int × File :=
  let p := f.cursor
  let npos : UInt32 :=
    if whence = 0 then off.toUInt32
    else if whence = 1 then UInt32.ofNat p.pos + off.toUInt32
    else if whence = 2 then f.size + off.toUInt32
    else UInt32.ofNat p.pos
  if npos.toNat > 2147483647 then (errInval, f)
  else if p.pos = npos.toNat then (npos.toNat, f)
  else
    let (nindex, noff) := ctzIndex cfg npos.toNat
    if (p.reading = true ∧ p.off ≠ cfg.blockSize.toNat) ∧ (ctzIndex cfg p.pos).1 = nindex ∧
        p.cache.off ≤ noff ∧ noff < p.cache.off + p.cache.size then
      (npos.toNat, { f with cursor := { p with pos := npos.toNat, off := noff } })
    else (npos.toNat, { f with cursor := { p.flush f.inline with pos := npos.toNat } })

/-- A successful `lfs_file_opencfg` for reading: the object, and `cache_buffer` behind it. -/
def openRdonly (path : List UInt8) (entry : Struct) (buffer : Mem) : File × Mem :=
  let zeroed := fill buffer 0 cacheSize 0xFF
  match entry with
  | .ctzStruct head size =>
    (⟨path, false, head, size, ⟨0, 0, 0, false, .null, 0, 0⟩⟩, zeroed)
  | .inlineStruct data _ =>
    (⟨path, true, 0, UInt32.ofNat data.length, ⟨0, 0, 0, false, .inline, 0, cacheSize⟩⟩,
      if data.length > 0 then write zeroed 0 (getslice data 0 cacheSize) else zeroed)

end Reading

end Lfs

end Samwise
