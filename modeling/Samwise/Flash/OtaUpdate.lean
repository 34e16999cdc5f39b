import Samwise.Flash.Flash

/-!
# Samwise — flashing the standby image

`ota_mvp/main.c` erases the sectors of program partition B and programs a new image page by
page. The persistent data of `flash.c` lies at a fixed offset of its own. This module gives
the flash operations of the update loop, what they leave in flash, and for which payloads the
two stay out of each other's way.
-/

namespace Samwise

open LittleEndian Memory

/-! ## The update loop -/

/-- `bazel_bin_ota_mvp_ota_bin` with its length, an `unsigned int`. -/
structure Payload where
  bytes : List UInt8
  length_lt : bytes.length < 2 ^ 32

/-- `payload_len`. -/
def Payload.len (payload : Payload) : UInt32 := UInt32.ofNat payload.bytes.length

/-- `target_offset`. -/
def targetOffset : UInt32 := 0x42000

/-- The size of `Program_B` in `pt.json`, 256K. -/
def programBSize : Nat := 256 * 1024

/-- `erase_size`: the payload's length, rounded up to `FLASH_SECTOR_SIZE`. -/
def eraseSize (payloadLen : UInt32) : UInt32 := (payloadLen + 4096 - 1) / 4096 * 4096

/-- `page_buf` of one pass of the loop. -/
def pageBuf (payload : Payload) (offset : UInt32) : Vector UInt8 256 :=
  let chunkSize := if payload.len - offset < 256 then payload.len - offset else 256
  copyInto (Vector.replicate 256 0xFF)
    ((payload.bytes.drop offset.toNat).take chunkSize.toNat)

/-- At most `n` passes of the loop, from `offset` on. -/
def programPages (payload : Payload) : Nat → UInt32 → List FlashOp
  | 0, _ => []
  | n + 1, offset =>
      if offset < payload.len then
        .program (targetOffset + offset).toNat (pageBuf payload offset).toList
          :: programPages payload n (offset + 256)
      else []

/-- The pages a payload takes. -/
def pageCount (payload : Payload) : Nat := (payload.bytes.length + 255) / 256

/-- The flash operations of the update. The loop makes one pass for each page; only a payload
within 256 bytes of `2 ^ 32` wraps its counter, and then starts over from here. -/
def otaFlash (payload : Payload) : List FlashOp :=
  .erase targetOffset.toNat (eraseSize payload.len).toNat
    :: programPages payload (pageCount payload) 0

@[simp] theorem targetOffset_toNat : targetOffset.toNat = 0x42000 := rfl

@[simp] theorem Payload.len_toNat (payload : Payload) :
    payload.len.toNat = payload.bytes.length :=
  UInt32.toNat_ofNat_of_lt' payload.length_lt

/-- The byte of a page, where the payload still has one. -/
theorem pageBuf_getElem (payload : Payload) (offset : UInt32) {j : Nat} (hj : j < 256)
    (hlt : offset.toNat + j < payload.bytes.length) :
    (pageBuf payload offset)[j] = payload.bytes[offset.toNat + j] := by
  have hle : offset ≤ payload.len := by
    rw [UInt32.le_iff_toNat_le, Payload.len_toNat]
    omega
  have hsub : (payload.len - offset).toNat = payload.bytes.length - offset.toNat := by
    rw [UInt32.toNat_sub_of_le _ _ hle, Payload.len_toNat]
  -- the chunk ends behind byte `j`, whether it is cut short or not
  have hchunk : j < (if payload.len - offset < 256 then payload.len - offset
      else 256 : UInt32).toNat := by
    split
    · omega
    · exact hj
  have hat : ((payload.bytes.drop offset.toNat).take
      (if payload.len - offset < 256 then payload.len - offset else 256 : UInt32).toNat)[j]?
        = some payload.bytes[offset.toNat + j] := by
    rw [List.getElem?_take_of_lt hchunk, List.getElem?_drop, List.getElem?_eq_getElem hlt]
  unfold pageBuf copyInto
  rw [Vector.getElem_ofFn, hat, Option.getD_some]

/-! ## The passes of the loop -/

/-- The operation of the pass at page `j`. -/
def pageOp (payload : Payload) (j : Nat) : FlashOp :=
  .program (targetOffset + UInt32.ofNat (256 * j)).toNat
    (pageBuf payload (UInt32.ofNat (256 * j))).toList

theorem ofNat_succ_page (k : Nat) :
    UInt32.ofNat (256 * k) + 256 = UInt32.ofNat (256 * (k + 1)) := by
  rw [Nat.mul_succ, UInt32.ofNat_add]
  rfl

theorem page_toNat {k : Nat} (h : 256 * k < 2 ^ 32) : (UInt32.ofNat (256 * k)).toNat = 256 * k :=
  UInt32.toNat_ofNat_of_lt' h

theorem page_lt_len {payload : Payload} {k : Nat} (h : 256 * k < 2 ^ 32) :
    UInt32.ofNat (256 * k) < payload.len ↔ 256 * k < payload.bytes.length := by
  rw [UInt32.lt_iff_toNat_lt, Payload.len_toNat, page_toNat h]

theorem programPages_succ {payload : Payload} {k : Nat} (n : Nat)
    (h : 256 * k < payload.bytes.length) :
    programPages payload (n + 1) (UInt32.ofNat (256 * k))
      = pageOp payload k :: programPages payload n (UInt32.ofNat (256 * (k + 1))) := by
  have hlt : UInt32.ofNat (256 * k) < payload.len :=
    (page_lt_len (lt_trans h payload.length_lt)).mpr h
  rw [programPages, if_pos hlt, ofNat_succ_page]
  rfl

theorem programPages_of_le {payload : Payload} {k : Nat} (n : Nat) (hk : 256 * k < 2 ^ 32)
    (h : payload.bytes.length ≤ 256 * k) :
    programPages payload n (UInt32.ofNat (256 * k)) = [] := by
  cases n with
  | zero => rfl
  | succ n =>
      have hge : ¬ UInt32.ofNat (256 * k) < payload.len := by
        rw [page_lt_len hk]
        omega
      rw [programPages, if_neg hge]

theorem pageOp_of_mem {payload : Payload} {op : FlashOp} {n k : Nat}
    (hlen : payload.bytes.length ≤ 2 ^ 32 - 256)
    (hk : 256 * k < 2 ^ 32) (hop : op ∈ programPages payload n (UInt32.ofNat (256 * k))) :
    ∃ j, k ≤ j ∧ 256 * j < payload.bytes.length ∧ op = pageOp payload j := by
  induction n generalizing k with
  | zero => exact absurd hop List.not_mem_nil
  | succ n ih =>
      by_cases h : 256 * k < payload.bytes.length
      · rw [programPages_succ n h] at hop
        cases List.mem_cons.mp hop with
        | inl heq => exact ⟨k, le_rfl, h, heq⟩
        | inr htail =>
            obtain ⟨j, hkj, hj, heq⟩ := ih (by omega) htail
            exact ⟨j, by omega, hj, heq⟩
      · rw [programPages_of_le _ hk (not_lt.mp h)] at hop
        exact absurd hop List.not_mem_nil

theorem pageOp_mem {payload : Payload} {n k j : Nat} (hkj : k ≤ j) (hn : j < k + n)
    (hj : 256 * j < payload.bytes.length) :
    pageOp payload j ∈ programPages payload n (UInt32.ofNat (256 * k)) := by
  induction n generalizing k with
  | zero => omega
  | succ n ih =>
      have h : 256 * k < payload.bytes.length := by omega
      rw [programPages_succ n h]
      by_cases heq : j = k
      · rw [heq]
        exact List.mem_cons_self
      · exact List.mem_cons_of_mem _ (ih (by omega) (by omega))

/-- Where a page goes, as long as the address does not wrap. -/
theorem pageOp_touches {payload : Payload} {i j : Nat} (hj : 256 * j < 2 ^ 32 - 0x42000) :
    (pageOp payload j).touches i ↔ 0x42000 + 256 * j ≤ i ∧ i < 0x42000 + 256 * j + 256 := by
  have hat : (targetOffset + UInt32.ofNat (256 * j)).toNat = 0x42000 + 256 * j := by
    rw [UInt32.toNat_add, targetOffset_toNat, page_toNat (by omega)]
    omega
  show (targetOffset + UInt32.ofNat (256 * j)).toNat ≤ i
    ∧ i < (targetOffset + UInt32.ofNat (256 * j)).toNat
      + (pageBuf payload (UInt32.ofNat (256 * j))).toList.length ↔ _
  rw [hat, Vector.length_toList]

/-- The erased range ends with the sector of the payload's last byte. -/
theorem eraseSize_toNat {payloadLen : UInt32} (h : payloadLen.toNat ≤ 2 ^ 32 - 4096) :
    (eraseSize payloadLen).toNat = (payloadLen.toNat + 4095) / 4096 * 4096 := by
  unfold eraseSize
  rw [UInt32.toNat_mul, UInt32.toNat_div, UInt32.toNat_sub, UInt32.toNat_add]
  simp only [UInt32.reduceToNat]
  omega

/-! ## What the update leaves in flash -/

/-- The loop stores the payload byte for byte. -/
theorem programPages_image {payload : Payload} {m : Flash} {n k i : Nat}
    (hlen : payload.bytes.length ≤ 2 ^ 32 - 0x42000) (hn : payload.bytes.length ≤ 256 * (k + n))
    (hlo : 256 * k ≤ i) (hi : i < payload.bytes.length) :
    applyOps m (programPages payload n (UInt32.ofNat (256 * k))) (0x42000 + i)
      = payload.bytes[i] := by
  -- on the passes left; the page that holds byte `i` is stored once, the later ones lie behind it
  induction n generalizing m k with
  | zero => omega
  | succ n ih =>
      have hk : 256 * k < payload.bytes.length := by omega
      rw [programPages_succ n hk]
      show applyOps ((pageOp payload k).apply m) _ (0x42000 + i) = _
      by_cases hpage : 256 * (k + 1) ≤ i
      · exact ih (by omega) hpage
      · have hrest : ∀ op ∈ programPages payload n (UInt32.ofNat (256 * (k + 1))),
            ¬ op.touches (0x42000 + i) := by
          intro op hop htouch
          obtain ⟨j, hkj, hj, rfl⟩ := pageOp_of_mem (by omega) (by omega) hop
          have := (pageOp_touches (by omega)).mp htouch
          omega
        have hoffset : (UInt32.ofNat (256 * k)).toNat = 256 * k := page_toNat (by omega)
        have hat : (targetOffset + UInt32.ofNat (256 * k)).toNat = 0x42000 + 256 * k := by
          rw [UInt32.toNat_add, targetOffset_toNat, hoffset]
          omega
        obtain ⟨j, rfl⟩ : ∃ j, i = 256 * k + j := ⟨i - 256 * k, by omega⟩
        have hj : j < (pageBuf payload (UInt32.ofNat (256 * k))).toList.length := by
          rw [Vector.length_toList]
          omega
        have hbyte := pageBuf_getElem payload (UInt32.ofNat (256 * k)) (j := j)
          (by omega) (by omega)
        rw [applyOps_of_not_touches hrest, ← Nat.add_assoc, ← hat]
        show write m _ (pageBuf payload (UInt32.ofNat (256 * k))).toList _ = _
        rw [write_add hj, Vector.getElem_toList, hbyte]
        exact getElem_congr_idx (by rw [hoffset])

theorem otaFlash_image {payload : Payload} {m : Flash} {i : Nat}
    (hlen : payload.bytes.length ≤ 2 ^ 32 - 0x42000) (hi : i < payload.bytes.length) :
    applyOps m (otaFlash payload) (0x42000 + i) = payload.bytes[i] := by
  show applyOps (FlashOp.apply m _)
    (programPages payload (pageCount payload) (UInt32.ofNat (256 * 0))) (0x42000 + i) = _
  apply programPages_image hlen _ (Nat.zero_le i) hi
  unfold pageCount
  omega

/-- The update stays below the end of the payload's last sector. -/
theorem otaFlash_touches {payload : Payload} {op : FlashOp} {i : Nat}
    (hlen : payload.bytes.length ≤ 2 ^ 32 - 0x43000) (hop : op ∈ otaFlash payload)
    (htouch : op.touches i) :
    0x42000 ≤ i ∧ i < 0x42000 + (payload.bytes.length + 4095) / 4096 * 4096 := by
  cases List.mem_cons.mp hop with
  | inl heq =>
      have hlen' : payload.len.toNat ≤ 2 ^ 32 - 4096 := by
        rw [Payload.len_toNat]
        omega
      have hsize := eraseSize_toNat hlen'
      rw [Payload.len_toNat] at hsize
      subst heq
      have hrange : 0x42000 ≤ i ∧ i < 0x42000 + (eraseSize payload.len).toNat := htouch
      rwa [hsize] at hrange
  | inr hpage =>
      obtain ⟨j, -, hj, rfl⟩ := pageOp_of_mem (k := 0) (by omega) (by omega) hpage
      have := (pageOp_touches (by omega)).mp htouch
      omega

/-! ## The image and the persistent data -/

def FitsProgramB (payload : Payload) : Prop := payload.bytes.length ≤ programBSize

/-- The update leaves the sector of the persistent data as it was. -/
def SectorKept (payload : Payload) : Prop :=
  ∀ (m : Flash) (i : Nat), flashTargetOffset ≤ i → i < flashTargetOffset + flashSectorSize →
    applyOps m (otaFlash payload) i = m i

/-- The operations of later calls of `write_persistent_data`. -/
def laterWrites (writes : List (PersistentData × Behind)) : List FlashOp :=
  writes.flatMap fun w => writePersistentData w.1 w.2

/-- No later `write_persistent_data` changes a byte of the flashed image. -/
def ImageKept (payload : Payload) : Prop :=
  ∀ (m : Flash) (writes : List (PersistentData × Behind)) (i : Nat),
    targetOffset.toNat ≤ i → i < targetOffset.toNat + payload.bytes.length →
      applyOps (applyOps m (otaFlash payload)) (laterWrites writes) i
        = applyOps m (otaFlash payload) i

/-- The update erases and programs partition B only. -/
def StaysInProgramB (payload : Payload) : Prop :=
  ∀ op ∈ otaFlash payload, ∀ i, op.touches i →
    targetOffset.toNat ≤ i ∧ i < targetOffset.toNat + programBSize

theorem laterWrites_touches {writes : List (PersistentData × Behind)} {op : FlashOp} {i : Nat}
    (hop : op ∈ laterWrites writes) (htouch : op.touches i) :
    flashTargetOffset ≤ i ∧ i < flashTargetOffset + flashSectorSize := by
  obtain ⟨w, -, hop⟩ := List.mem_flatMap.mp hop
  rcases List.mem_cons.mp hop with rfl | hop
  · exact htouch
  · cases List.mem_singleton.mp hop
    have hpage : flashTargetOffset ≤ i ∧ i < flashTargetOffset
        + ((w.1.bytes ++ w.2.toList).take flashPageSize).length := htouch
    have hlength := List.length_take_le flashPageSize (w.1.bytes ++ w.2.toList)
    simp only [flashPageSize_eq] at hlength hpage
    simp only [flashSectorSize_eq]
    omega

theorem sectorKept_iff (payload : Payload) (hfits : FitsProgramB payload) :
    SectorKept payload ↔ payload.bytes.length ≤ 0x37000 := by
  unfold FitsProgramB programBSize at hfits
  constructor
  · intro hkept
    by_contra hlong
    -- the byte of the image at the sector's first offset is there whatever was there before
    have hi : 0x37000 < payload.bytes.length := not_le.mp hlong
    have himage := otaFlash_image (m := fun _ => payload.bytes[0x37000] + 1) (by omega) hi
    have hsame := hkept (fun _ => payload.bytes[0x37000] + 1) flashTargetOffset le_rfl
      (by unfold flashTargetOffset flashSectorSize; omega)
    have hnext : payload.bytes[0x37000] = payload.bytes[0x37000] + 1 := himage.symm.trans hsame
    simp at hnext
  · intro hshort m i hlo hhi
    apply applyOps_of_not_touches
    intro op hop htouch
    have hreach := otaFlash_touches (by omega) hop htouch
    unfold flashTargetOffset at hlo
    omega

theorem imageKept_iff (payload : Payload) (hfits : FitsProgramB payload) :
    ImageKept payload ↔ payload.bytes.length ≤ 0x37000 := by
  unfold FitsProgramB programBSize at hfits
  constructor
  · intro hkept
    by_contra hlong
    -- a record whose marker differs from the image in its first byte
    have hi : 0x37000 < payload.bytes.length := not_le.mp hlong
    let b := payload.bytes[0x37000]
    let d : PersistentData := ⟨(b + 1).toUInt32, 0, 0⟩
    let behind : Behind := Vector.replicate 244 0
    let m := applyOps (fun _ => 0) (otaFlash payload)
    have himage : m flashTargetOffset = b := otaFlash_image (m := fun _ => 0) (by omega) hi
    have hsame : applyOps m (writePersistentData d behind ++ []) flashTargetOffset = b :=
      (hkept (fun _ => 0) [(d, behind)] flashTargetOffset (by decide)
        (by rw [targetOffset_toNat]; unfold flashTargetOffset; omega)).trans himage
    have hmarker : read (applyOps m (writePersistentData d behind ++ [])) flashTargetOffset 1
        = [b + 1] := by
      show read (write _ flashTargetOffset _) flashTargetOffset 1 = _
      rw [read_write _ _ (by simp)]
      show [UInt8.ofNat (b + 1).toUInt32.toNat] = [b + 1]
      rw [UInt8.toNat_toUInt32, UInt8.ofNat_toNat]
    have hread : read (applyOps m (writePersistentData d behind ++ [])) flashTargetOffset 1
        = [b] := by
      rw [← hsame]
      rfl
    rw [hread] at hmarker
    simp at hmarker
  · intro hshort m writes i hlo hhi
    apply applyOps_of_not_touches
    intro op hop htouch
    have hsector := laterWrites_touches hop htouch
    rw [targetOffset_toNat] at hhi
    unfold flashTargetOffset at hsector
    omega

/-- A payload too large for the partition is flashed beyond its end all the same. -/
theorem not_staysInProgramB (payload : Payload) (hlarge : ¬ FitsProgramB payload) :
    ¬ StaysInProgramB payload := by
  unfold FitsProgramB programBSize at hlarge
  intro hstays
  -- page 1024 is the first one behind the partition
  have hpage : pageOp payload 1024
      ∈ programPages payload (pageCount payload) (UInt32.ofNat (256 * 0)) := by
    apply pageOp_mem (Nat.zero_le 1024)
    · unfold pageCount
      omega
    · omega
  have htouch : (pageOp payload 1024).touches 0x82000 :=
    (pageOp_touches (by omega)).mpr (by omega)
  have hin := hstays _ (List.mem_cons_of_mem _ hpage) 0x82000 htouch
  rw [targetOffset_toNat] at hin
  unfold programBSize at hin
  omega

/-- What the two areas of flash owe each other: an update that fits leaves the persistent data
alone and is left alone by it, and one that does not fit stays in its partition. -/
def UpdateDisjoint (payload : Payload) : Prop :=
  (FitsProgramB payload → SectorKept payload ∧ ImageKept payload)
    ∧ (¬ FitsProgramB payload → StaysInProgramB payload)

/-- **The standby image and the persistent data.** They are disjoint for payloads of at most
`0x37000` bytes, and for no others: the sector of the persistent data lies inside partition B,
and nothing checks the payload's length. -/
theorem ota_update_disjoint (payload : Payload) :
    (UpdateDisjoint payload ↔ payload.bytes.length ≤ 0x37000)
      ∧ (FitsProgramB payload →
          (SectorKept payload ↔ payload.bytes.length ≤ 0x37000)
            ∧ (ImageKept payload ↔ payload.bytes.length ≤ 0x37000))
      ∧ (¬ FitsProgramB payload → ¬ StaysInProgramB payload) := by
  refine ⟨⟨fun hdisjoint => ?_, fun hshort => ?_⟩,
    fun hfits => ⟨sectorKept_iff payload hfits, imageKept_iff payload hfits⟩,
    not_staysInProgramB payload⟩
  · by_cases hfits : FitsProgramB payload
    · exact (sectorKept_iff payload hfits).mp (hdisjoint.1 hfits).1
    · exact absurd (hdisjoint.2 hfits) (not_staysInProgramB payload hfits)
  · have hfits : FitsProgramB payload := by
      unfold FitsProgramB programBSize
      omega
    exact ⟨fun _ => ⟨(sectorKept_iff payload hfits).mpr hshort,
      (imageKept_iff payload hfits).mpr hshort⟩, fun hlarge => absurd hfits hlarge⟩

/-- An image of 225281 zero bytes. -/
def largeImage : Payload := ⟨List.replicate 225281 0, by rw [List.length_replicate]; decide⟩

/-- It fits the partition, and overwrites the persistent data. -/
theorem large_image_not_disjoint : FitsProgramB largeImage ∧ ¬ UpdateDisjoint largeImage := by
  have hlength : largeImage.bytes.length = 225281 := List.length_replicate
  have hfits : FitsProgramB largeImage := by
    unfold FitsProgramB programBSize
    omega
  refine ⟨hfits, fun hdisjoint => ?_⟩
  have hshort := (sectorKept_iff largeImage hfits).mp (hdisjoint.1 hfits).1
  omega

end Samwise
