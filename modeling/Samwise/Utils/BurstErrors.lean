import Samwise.Filesys.Listing
import Samwise.Payload.PayloadUart
import Samwise.Payload.SerialPacketHandler

/-!
# Samwise — error bursts and the CRC

A burst is a change of bits that are sent within a short time. CRC-32 detects every burst of at
most 32 bits, wherever it lies and however long the message is; so no check that compares with
the CRC of what was sent accepts a message with such an error: not those of
`payload_uart_read_packet` and of `read_packet` on the other side, nor those that the filesystem
makes of a stored file.
-/

namespace Samwise

open Interaction Prog Run ReflectedCrc

/-- Bit `p` of a message in the order of transmission, the least significant bit of each byte
first. -/
def transmittedBit (message : List UInt8) (p : Nat) : Bool :=
  (message.getD (p / 8) 0).toNat.testBit (p % 8)

/-- What was sent came in with an error, all of it among `n` consecutive bits. -/
structure ErrorBurst (n : Nat) (sent received : List UInt8) : Prop where
  length : sent.length = received.length
  differs : sent ≠ received
  window : ∃ start, ∀ p, transmittedBit sent p ≠ transmittedBit received p →
    start ≤ p ∧ p < start + n

theorem transmittedBit_eq_sentBit (message : List UInt8) (p : Nat) :
    transmittedBit message p = sentBit (message.map UInt8.toBitVec) p := by
  induction message generalizing p with
  | nil => exact Nat.zero_testBit _
  | cons byte message ih =>
    rw [List.map_cons, sentBit, transmittedBit]
    by_cases hp : p < 8
    · rw [if_pos hp, Nat.div_eq_of_lt hp, Nat.mod_eq_of_lt hp]
      rfl
    · obtain ⟨q, rfl⟩ := Nat.exists_eq_add_of_le' (Nat.not_lt.mp hp)
      rw [if_neg hp, Nat.add_sub_cancel, ← ih, Nat.add_div_right q (by decide),
        Nat.add_mod_right, List.getD_cons_succ]
      rfl

theorem ErrorBurst.crc32_ne {sent received : List UInt8} (h : ErrorBurst 32 sent received) :
    crc32 sent ≠ crc32 received := by
  obtain ⟨start, hwindow⟩ := h.window
  have hburst : DifferWithin 32 (sent.map UInt8.toBitVec) (received.map UInt8.toBitVec) := by
    refine ⟨start, fun p hp => hwindow p ?_⟩
    rwa [transmittedBit_eq_sentBit, transmittedBit_eq_sentBit]
  have hne : sent.map UInt8.toBitVec ≠ received.map UInt8.toBitVec := fun heq =>
    h.differs (List.map_injective_iff.mpr (fun _ _ => UInt8.toBitVec_inj.mp) heq)
  have hregister := foldl_feed_ne (g := crc32Generator) (c := BitVec.allOnes 32) (by decide)
    (by decide) (by decide) (by simp [h.length]) hburst hne
  intro heq
  apply hregister
  have hcontinue : crc32Continue sent 0xFFFFFFFF = crc32Continue received 0xFFFFFFFF :=
    UInt32.not_inj.mp heq
  have hbits := congrArg UInt32.toBitVec hcontinue
  rwa [toBitVec_crc32Continue, toBitVec_crc32Continue] at hbits

/-! ## The packet of the payload -/

theorem ErrorBurst.checkBody {header : PayloadUart.PacketHeader} {sent received : List UInt8}
    (hlength : header.length.toNat = sent.length) (hcrc : header.checksum = crc32 sent)
    (h : ErrorBurst 32 sent (received.take sent.length)) :
    PayloadUart.checkBody header received = .returned 0 received := by
  have hreceived : ¬received.length < header.length.toNat := by
    have := h.length
    rw [List.length_take] at this
    omega
  unfold PayloadUart.checkBody
  dsimp only
  rw [if_neg hreceived, hlength, hcrc, if_pos h.crc32_ne.symm]

/-- The check of the Pi. -/
theorem ErrorBurst.piCheckBody {header : SerialPacketHandler.DecodedHeader}
    {sent received : List UInt8} (hcrc : header.expectedCrc32 = LittleEndian.le32 (crc32 sent))
    (h : ErrorBurst 32 sent received) :
    SerialPacketHandler.checkBody header received = .returned none := by
  have hne : LittleEndian.le32 (crc32 sent) ≠ LittleEndian.le32 (crc32 received) := by
    intro heq
    apply h.crc32_ne
    rw [← LittleEndian.ofLe32_le32 (crc32 sent), heq, LittleEndian.ofLe32_le32]
  unfold SerialPacketHandler.checkBody
  split
  · rfl
  · rw [hcrc, if_pos hne]

/-! ## A stored file -/

section Store

variable {resolve : List UInt8 → List UInt8} {s s' : FileStore} {v w : FilesysVars}
  {t : List LfsEvent} {e : FileEntry} {sent : List UInt8}

/-- `filesys_complete_file_write`. -/
theorem ErrorBurst.completeFileWrite (h : ErrorBurst 32 sent e.content)
    (hfile : s.files (resolve v.path) = some e)
    (hlength : v.bufferedFileLen.toNat = sent.length) (hcrc : v.bufferedFileCrc = crc32 sent)
    {r : FilesysError × Int}
    (hreplay : filesysCompleteFileWrite.replay v t = some (r, w))
    (hrun : run (storeLfs resolve) s t = some s') : r.1 ≠ .ok := by
  intro hok
  cases completePath hreplay with
  | dirty _ => cases hok
  | rejected _ _ hr => exact hr hok
  | completed _ hcheck =>
    obtain ⟨_, e', front, back, hfile', hcontent, hfront, hcrc'⟩ :=
      ensures_filesysIsCrcCorrect _ _ _ _ hcheck hrun rfl
    rw [hfile] at hfile'
    obtain rfl := Option.some.inj hfile'
    have hback : back = [] := by
      have := congrArg List.length hcontent
      rw [List.length_append, ← h.length, hfront, hlength] at this
      exact List.length_eq_zero_iff.mp (by omega)
    rw [hback, List.append_nil] at hcontent
    rw [hcontent] at h
    exact h.crc32_ne (hcrc.symm.trans hcrc'.symm)

/-- `filesys_get_file_info`. -/
theorem ErrorBurst.getFileInfo (h : ErrorBurst 32 sent e.content) {fname : List UInt8}
    (hfile : s.files (resolve fname) = some e) (hcrc : e.crcAttr = some (crc32 sent))
    (hmax : ∀ p e, s.files p = some e → e.content.length ≤ lfsFileMax)
    {r : FilesysError × FileInfo × Int}
    (hreplay : (filesysGetFileInfo fname).replay v t = some (r, w))
    (hrun : run (storeLfs resolve) s t = some s') : r.2.1.has fileInfoCrcMatch = false := by
  obtain ⟨_, htruthful⟩ := (infoPath hreplay).1.truthful hmax hrun
  refine Bool.eq_false_of_not_eq_true fun hmatch => ?_
  obtain ⟨_, _, e', hfile', hcrc'⟩ := htruthful.crcMatch.mp hmatch
  rw [hfile] at hfile'
  obtain rfl := Option.some.inj hfile'
  rw [hcrc] at hcrc'
  exact h.crc32_ne (Option.some.inj hcrc')

/-- `filesys_open_file_read`. -/
theorem ErrorBurst.openFileRead (h : ErrorBurst 32 sent e.content) {fname : List UInt8}
    (hfile : s.files (resolve fname) = some e) (hcrc : e.crcAttr = some (crc32 sent))
    (hmax : ∀ p e, s.files p = some e → e.content.length ≤ lfsFileMax) {file : FileRef}
    {r : FilesysError × FileInfo × Int}
    (hreplay : (filesysOpenFileRead file fname).replay v t = some (r, w))
    (hrun : run (storeLfs resolve) s t = some s') : r.1 ≠ .ok := by
  obtain ⟨t₁, t₂, ⟨infoErr, info, code⟩, v₁, rfl, h₁, h₂⟩ := replay_bind.mp hreplay
  obtain ⟨s₁, hrun₁, _⟩ := run_append_some _ hrun
  have hmatch : info.has fileInfoCrcMatch = false := h.getFileInfo hfile hcrc hmax h₁ hrun₁
  have ends {error : FilesysError} {u : List LfsEvent} (herror : error ≠ .ok)
      (hu : (pure (error, info, code) : Filesys (FilesysError × FileInfo × Int)).replay v₁ u
        = some (r, w)) : r.1 ≠ .ok := by
    obtain ⟨rfl, heq⟩ := replay_pure.mp hu
    obtain ⟨rfl, _⟩ := Prod.mk.inj heq
    exact herror
  dsimp only at h₂
  split at h₂
  · next hinfo => exact ends hinfo h₂
  split at h₂
  · exact ends (by decide) h₂
  split at h₂
  · exact ends (by decide) h₂
  exact ends (by decide) h₂

end Store

/-- **Burst detection.** Two messages of one length that differ, and only within 32 consecutive
bits in the order of transmission, have different CRCs. So with such an error no packet passes
`payload_uart_read_packet` or the `read_packet` of the Pi, and no file passes
`filesys_complete_file_write`, `filesys_get_file_info` or `filesys_open_file_read`, whatever
calls of littlefs fail. -/
theorem crc32_detects_bursts :
    (∀ sent received, ErrorBurst 32 sent received → crc32 sent ≠ crc32 received) ∧
    (∀ (header : PayloadUart.PacketHeader) (sent received : List UInt8),
      header.length.toNat = sent.length → header.checksum = crc32 sent →
      ErrorBurst 32 sent (received.take sent.length) →
      PayloadUart.checkBody header received = .returned 0 received) ∧
    (∀ (header : SerialPacketHandler.DecodedHeader) (sent received : List UInt8),
      header.expectedCrc32 = LittleEndian.le32 (crc32 sent) → ErrorBurst 32 sent received →
      SerialPacketHandler.checkBody header received = .returned none) ∧
    ∀ (resolve : List UInt8 → List UInt8) (s s' : FileStore) (v w : FilesysVars)
      (t : List LfsEvent) (e : FileEntry) (sent : List UInt8), ErrorBurst 32 sent e.content →
      run (storeLfs resolve) s t = some s' →
      (∀ p e, s.files p = some e → e.content.length ≤ lfsFileMax) →
      (∀ r, s.files (resolve v.path) = some e → v.bufferedFileLen.toNat = sent.length →
        v.bufferedFileCrc = crc32 sent → filesysCompleteFileWrite.replay v t = some (r, w) →
        r.1 ≠ .ok) ∧
      (∀ fname, s.files (resolve fname) = some e → e.crcAttr = some (crc32 sent) →
        (∀ r, (filesysGetFileInfo fname).replay v t = some (r, w) →
          r.2.1.has fileInfoCrcMatch = false) ∧
        ∀ file r, (filesysOpenFileRead file fname).replay v t = some (r, w) → r.1 ≠ .ok) := by
  refine ⟨fun _ _ h => h.crc32_ne, fun _ _ _ hlength hcrc h => h.checkBody hlength hcrc,
    fun _ _ _ hcrc h => h.piCheckBody hcrc, fun resolve s s' v w t e sent h hrun hmax => ⟨?_, ?_⟩⟩
  · exact fun r hfile hlength hcrc hreplay => h.completeFileWrite hfile hlength hcrc hreplay hrun
  · exact fun fname hfile hcrc => ⟨fun r hreplay => h.getFileInfo hfile hcrc hmax hreplay hrun,
      fun file r hreplay => h.openFileRead hfile hcrc hmax hreplay hrun⟩

/-- One bit of the first byte. -/
theorem sampleBurst : ErrorBurst 32 [1, 2] [3, 2] := by
  refine ⟨rfl, by decide, 0, fun p hp => ⟨Nat.zero_le _, ?_⟩⟩
  by_contra hout
  have hbehind : 2 ≤ p / 8 := by omega
  apply hp
  unfold transmittedBit
  rw [List.getD_eq_default _ _ hbehind, List.getD_eq_default _ _ hbehind]

/-- The variables while this file is written. -/
def sampleBurstVars : FilesysVars :=
  { FilesysVars.atBoot with
    isWritingFile := true
    bufferedFnameStr := #v[0x61, 0, 0]
    bufferedFileLen := 2
    bufferedFileCrc := crc32 [1, 2] }

/-- The packet is rejected, and so is the file. -/
theorem crc32_detects_bursts_sample :
    crc32 [1, 2] ≠ crc32 [3, 2] ∧
    PayloadUart.checkBody ⟨2, 0, crc32 [1, 2]⟩ [3, 2] = .returned 0 [3, 2] ∧
    SerialPacketHandler.checkBody ⟨2, 0, LittleEndian.le32 (crc32 [1, 2])⟩ [3, 2]
      = .returned none ∧
    ∃ r s', filesysCompleteFileWrite.replay sampleBurstVars
        (sampleTwoReads 2 [3] [2] (by decide) (by decide)) = some (r, sampleBurstVars) ∧
      run (storeLfs id) { FileStore.empty with files := fun _ => some ⟨[3, 2], none⟩ }
        (sampleTwoReads 2 [3] [2] (by decide) (by decide)) = some s' ∧ r.1 ≠ .ok := by
  refine ⟨crc32_detects_bursts.1 _ _ sampleBurst,
    crc32_detects_bursts.2.1 ⟨2, 0, crc32 [1, 2]⟩ [1, 2] [3, 2] rfl rfl sampleBurst,
    crc32_detects_bursts.2.2.1 ⟨2, 0, LittleEndian.le32 (crc32 [1, 2])⟩ [1, 2] [3, 2] rfl
      sampleBurst, (.errCrcMismatch, 0), _, rfl, rfl, ?_⟩
  refine (crc32_detects_bursts.2.2.2 id { FileStore.empty with files := fun _ => some ⟨[3, 2], none⟩ }
    _ sampleBurstVars sampleBurstVars (sampleTwoReads 2 [3] [2] (by decide) (by decide))
    ⟨[3, 2], none⟩ [1, 2] sampleBurst rfl (fun p e he => ?_)).1 _ rfl rfl rfl ?_
  · obtain rfl := Option.some.inj he
    decide
  · rfl

end Samwise
