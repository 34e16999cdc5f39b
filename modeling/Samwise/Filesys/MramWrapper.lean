import Samwise.Lib.BlockDevice
import Samwise.Drivers.MramMock

/-!
# Samwise — littlefs on the MRAM

`src/filesys/lfs_mram_wrapper.c`: the block device that littlefs gets, over whichever MRAM driver it
is linked with. Blocks lie in the cells one behind the other, an erase does nothing, and a program
goes wherever littlefs says. `filesys_initialize` calls `mram_init` before it mounts.
-/

namespace Samwise

open BlockDevice Service

/-- `FILESYS_BLOCK_SIZE` and `FILESYS_BLOCK_COUNT`, with `MRAM` or `TEST`. -/
def filesysGeometry : Geometry := ⟨256, 2048⟩

/-- `LFS_ERR_IO`. -/
def lfsErrIo : Int := -5

section Wrapper

variable {σ : Type} (call : σ → MramCall → Option (MramReply × σ))

/-- `lfs_mram_wrap_read`; `blockSize` is `c->block_size`. -/
def lfsMramWrapRead (blockSize block off : UInt32) (buffer : List UInt8) (size : Nat) (s : σ) :
    Option (Reply × σ) := do
  match ← call s (.read (block * blockSize + off) buffer size) with
  | (.data buffer, s) => return (⟨0, buffer⟩, s)
  | (_, s) => return (⟨0, buffer⟩, s)

/-- `lfs_mram_wrap_prog`. -/
def lfsMramWrapProg (blockSize block off : UInt32) (buffer : List UInt8) (size : Nat) (s : σ) :
    Option (Reply × σ) := do
  match ← call s (.write (block * blockSize + off) buffer size) with
  | (.written false, s) => return (⟨lfsErrIo, []⟩, s)
  | (_, s) => return (⟨0, []⟩, s)

/-- `lfs_mram_wrap_erase`. -/
def lfsMramWrapErase (s : σ) : Option (Reply × σ) := some (⟨0, []⟩, s)

/-- `lfs_mram_wrap_sync`. -/
def lfsMramWrapSync (s : σ) : Option (Reply × σ) := some (⟨0, []⟩, s)

/-- The device that `filesys_lfs_cfg` describes. -/
def lfsMram (s : σ) : Call → Option (Reply × σ)
  | .read block off buffer =>
    lfsMramWrapRead call 256 (.ofNat block) (.ofNat off) buffer buffer.length s
  | .prog block off bytes =>
    lfsMramWrapProg call 256 (.ofNat block) (.ofNat off) bytes bytes.length s
  | .erase _ => lfsMramWrapErase s
  | .sync => lfsMramWrapSync s

end Wrapper

/-- The address of a part of a block does not wrap, the part is no longer than the driver takes, and
it lies in the chip. -/
theorem address_of_allows {block off n : Nat} (hblock : block < filesysGeometry.blockCount)
    (hoff : off + n ≤ filesysGeometry.blockSize) :
    (UInt32.ofNat block * 256 + UInt32.ofNat off).toNat = block * 256 + off ∧ n ≤ 256 ∧
      block * 256 + off + n ≤ mramSize := by
  have hrange : block * 256 + off + n ≤ 2048 * 256 := address_lt hblock hoff
  have hsize : off + n ≤ 256 := hoff
  have hcount : block < 2048 := hblock
  refine ⟨?_, by omega, hrange⟩
  simp [UInt32.toNat_add, UInt32.toNat_mul]
  omega

section Driver

variable {σ : Type} {call : σ → MramCall → Option (MramReply × σ)} {R : MramCells → σ → Prop}

/-- What is known of the blocks is in the cells, and the chip is awake. -/
def LfsMramHolds (R : MramCells → σ → Prop) (c : Contents) (s : σ) : Prop :=
  ∃ v, R v s ∧ v.asleep = false ∧ c.HeldBy filesysGeometry v.cells

/-- **The wrapper is a block device**, over any driver that does to the cells what its calls say. -/
theorem lfsMram_implements (h : Implements MramCells.spec call R) :
    Implements filesysGeometry.spec (lfsMram call) (LfsMramHolds R) := by
  rintro c s dcall ⟨v, hs, hawake, hheld⟩ hallows
  cases dcall with
  | read block off buffer =>
    obtain ⟨hblock, hoff⟩ := hallows
    obtain ⟨haddress, hlength, hrange⟩ := address_of_allows hblock hoff
    obtain ⟨reply, s', hcall, hreply, hs'⟩ :=
      h v s (.read (.ofNat block * 256 + .ofNat off) buffer buffer.length) hs
        ⟨fun _ => ⟨hawake, by rw [haddress]; exact hrange⟩, fun _ => Nat.le_refl _⟩
    obtain rfl := (MramCells.answers_read_of_le hlength).mp hreply
    have hbuffer : Buffer.overlay (Memory.read v.cells (block * 256 + off) buffer.length) buffer =
        Memory.read v.cells (block * 256 + off) buffer.length := by
      rw [Buffer.overlay, Memory.length_read, List.drop_length, List.append_nil]
    rw [haddress, hbuffer] at hcall
    refine ⟨_, s', ?_, hheld.expects_read ⟨hblock, hoff⟩, v, hs', hawake, hheld⟩
    simp [lfsMram, lfsMramWrapRead, hcall, filesysGeometry]
  | prog block off bytes =>
    obtain ⟨hblock, hoff⟩ := hallows
    obtain ⟨haddress, hlength, hrange⟩ := address_of_allows hblock hoff
    obtain ⟨reply, s', hcall, hreply, hs'⟩ :=
      h v s (.write (.ofNat block * 256 + .ofNat off) bytes bytes.length) hs
        ⟨fun _ => ⟨hawake, by rw [haddress]; exact hrange⟩, fun _ => Nat.le_refl _⟩
    obtain rfl : reply = .written true := hreply.trans (by rw [decide_eq_true hlength])
    have hafter : v.after (.write (.ofNat block * 256 + .ofNat off) bytes bytes.length) =
        { v with cells := Memory.write v.cells (block * 256 + off) bytes } := by
      rw [MramCells.after_write_of_le hlength, haddress, List.take_length]
    have hwritten : R { v with cells := Memory.write v.cells (block * 256 + off) bytes } s' := by
      rw [← hafter]
      exact hs'
    refine ⟨⟨0, []⟩, s', ?_, rfl, _, hwritten, hawake, hheld.prog ⟨hblock, hoff⟩⟩
    simp [lfsMram, lfsMramWrapProg, hcall]
  | erase block => exact ⟨_, s, rfl, rfl, v, hs, hawake, hheld⟩
  | sync => exact ⟨_, s, rfl, rfl, v, hs, hawake, hheld⟩

end Driver

/-- **littlefs gets from the MRAM what it has put there.** Behind `mram_init`, whether the chip was
asleep or not, every list of calls within the geometry is served without an access that fails and
without an error; a read returns every byte that was last programmed, or was in the chip before, and
an erase changes nothing of that. -/
theorem lfsMram_serves_init {m : Mram} (hsized : m.Sized) {calls : List BlockDevice.Call}
    (hcalls : ∀ call ∈ calls, filesysGeometry.Allows call) :
    ∃ m₁ replies m', mramInit m = some m₁ ∧ serve (lfsMram Mram.call) m₁ calls =
        some (replies, m') ∧
      filesysGeometry.spec.AnswersAll (fun block off => some (m.chip.cells (block * 256 + off)))
        calls replies := by
  have hm : m.Holds ⟨m.chip.cells, m.chip.asleep⟩ := ⟨hsized, fun _ _ => rfl, rfl⟩
  obtain ⟨m₁, hinit, hm₁⟩ := hm.wake
  have hheld : LfsMramHolds (fun v m => m.Holds v)
      (fun block off => some (m.chip.cells (block * 256 + off))) m₁ :=
    ⟨_, hm₁, rfl, fun _ _ _ _ _ hv => Option.some.inj hv⟩
  obtain ⟨replies, m', hserve, hreplies, -⟩ := (lfsMram_implements mram_implements).serve hheld
    (Spec.PermitsAll.of_forall (fun call hcall _ => hcalls call hcall) _)
  exact ⟨m₁, replies, m', hinit, hserve, hreplies⟩

/-- The end of the last block, on a chip that was asleep: what was programmed is read behind an
erase. -/
theorem lfsMram_serves_init_last :
    ∃ m₁ replies m', mramInit { mramAtReset with
        chip := { mramAtReset.chip with asleep := true } } = some m₁ ∧
      serve (lfsMram Mram.call) m₁ [.prog 2047 240 (List.range' 1 16 |>.map UInt8.ofNat), .sync,
        .erase 2047, .read 2047 240 (List.replicate 16 0)] = some (replies, m') ∧
      filesysGeometry.spec.AnswersAll (fun _ _ => some 0)
        [.prog 2047 240 (List.range' 1 16 |>.map UInt8.ofNat), .sync, .erase 2047,
          .read 2047 240 (List.replicate 16 0)] replies :=
  lfsMram_serves_init { mramAtReset_sized with } (by decide)

end Samwise
