import Samwise.Packet.Packet
import Samwise.Lib.Run

/-!
# Samwise — packet authentication and replay protection

`is_packet_authenticated` of `src/packet/packet.c` with its static `last_seen_msg_id`, and
what it guarantees over whole histories of packets and reboots. HMAC-SHA256 is an arbitrary
function `Hmac`: nothing here rests on it being hard to invert.

The replay argument is one order: an accepted packet is `Fresher` than everything accepted
before it, where a stamp `(boot_count, msg_id)` is compared first by boot count. A reboot
moves to a larger boot count, an acceptance to a larger `msg_id`, and a rejection moves
nothing (`accepted_pairwise`).
-/

namespace Samwise

open LittleEndian Run

/-! ## The check -/

/-- `PACKET_HMAC_PSK`: `PACKET_HMAC_PSK_LEN` bytes. -/
abbrev PacketHmacPsk := Vector UInt8 32

/-- HMAC-SHA256 as a function of key and message. -/
abbrev Hmac := PacketHmacPsk → List UInt8 → Digest

/-- `PACKET_OFFSET_DATA`, `offsetof(packet_t, data)`. -/
def packetOffsetData : Nat := 5

/-- `PACKET_OFFSET_AFTER_DATA`, `offsetof(packet_t, boot_count)`. -/
def packetOffsetAfterData : Nat := packetOffsetData + packetDataSize

/-- `PACKET_OFFSET_HMAC`, `offsetof(packet_t, hmac)`. -/
def packetOffsetHmac : Nat := packetOffsetAfterData + 4 + 4

/-- tinycrypt's `_compare`: the differing bits of two byte strings, or-ed together. -/
def tcCompare (a b : List UInt8) : UInt8 :=
  (List.zipWith (· ^^^ ·) a b).foldl (· ||| ·) 0

/-- The message under the HMAC: the three pieces of the struct that are fed to
`tc_hmac_update`, taken at their offsets. -/
def hmacMessage (p : Packet) : List UInt8 :=
  p.bytes.take packetOffsetData
    ++ (p.bytes.drop packetOffsetData).take p.len.toNat
    ++ (p.bytes.drop packetOffsetAfterData).take (packetOffsetHmac - packetOffsetAfterData)

/-- `is_packet_authenticated`: the verdict and `last_seen_msg_id` afterwards. `psk` is `none`
where `PACKET_HMAC_PSK` is not defined. -/
def isPacketAuthenticated (hmac : Hmac) (psk : Option PacketHmacPsk) (lastSeenMsgId : UInt32)
    (packet : Packet) (currentBootCount : UInt32) : Bool × UInt32 :=
  match psk with
  | none => (true, lastSeenMsgId)
  | some key =>
    if packet.bootCount ≠ currentBootCount then (false, lastSeenMsgId)
    else if packet.msgId ≤ lastSeenMsgId then (false, lastSeenMsgId)
    else
      let outHmac := hmac key (hmacMessage packet)
      if tcCompare outHmac.toList packet.hmac.toList ≠ 0 then (false, lastSeenMsgId)
      else (true, packet.msgId)

/-! ## What the check decides -/

theorem or_eq_zero_iff (a b : UInt8) : a ||| b = 0 ↔ a = 0 ∧ b = 0 := by
  rw [← UInt8.toNat_inj, ← UInt8.toNat_inj, ← UInt8.toNat_inj, UInt8.toNat_or]
  exact Nat.or_eq_zero_iff

theorem foldl_or_eq_zero_iff (bs : List UInt8) (acc : UInt8) :
    bs.foldl (· ||| ·) acc = 0 ↔ acc = 0 ∧ ∀ b ∈ bs, b = 0 := by
  induction bs generalizing acc with
  | nil => simp
  | cons b bs ih =>
    rw [List.foldl_cons, ih, or_eq_zero_iff]
    simp only [List.mem_cons, forall_eq_or_imp, and_assoc]

/-- `_compare` returns zero exactly on equal strings. Induction on the strings; one byte
differs from another exactly where their xor is not zero. -/
theorem tcCompare_eq_zero_iff {a b : List UInt8} (h : a.length = b.length) :
    tcCompare a b = 0 ↔ a = b := by
  rw [tcCompare, foldl_or_eq_zero_iff]
  induction a generalizing b with
  | nil =>
    obtain rfl : b = [] := List.length_eq_zero_iff.mp h.symm
    simp
  | cons x a ih =>
    cases b with
    | nil => simp at h
    | cons y b =>
      have ih' := ih (Nat.succ.inj h)
      simp only [true_and] at ih'
      simp only [List.zipWith_cons_cons, List.mem_cons, forall_eq_or_imp, true_and, ih',
        UInt8.xor_eq_zero_iff, List.cons.injEq]

/-- The three pieces under the HMAC are the five header bytes, the payload in use and the
two counters, whenever `len` fits the data array. -/
theorem hmacMessage_eq (p : Packet) (h : p.len.toNat ≤ packetDataSize) :
    hmacMessage p = p.header ++ p.payload ++ p.counters := by
  have hhead : p.bytes.take packetOffsetData = p.header := by
    rw [Packet.bytes, List.append_assoc, List.append_assoc]
    exact List.take_left' rfl
  have hdata : (p.bytes.drop packetOffsetData).take p.len.toNat = p.payload := by
    have hdrop : p.bytes.drop packetOffsetData
        = p.data.toList ++ (p.counters ++ p.hmac.toList) := by
      simp [Packet.bytes, packetOffsetData, List.append_assoc, Packet.header]
    rw [hdrop, List.take_append_of_le_length (by simpa using h), Packet.payload]
  have hcounters : (p.bytes.drop packetOffsetAfterData).take
      (packetOffsetHmac - packetOffsetAfterData) = p.counters := by
    have hdrop : p.bytes.drop packetOffsetAfterData = p.counters ++ p.hmac.toList := by
      rw [Packet.bytes, List.append_assoc]
      exact List.drop_left' (by simp [packetOffsetAfterData, packetOffsetData])
    rw [hdrop]
    exact List.take_left' (by simp [packetOffsetHmac, Nat.add_assoc])
  rw [hmacMessage, hhead, hdata, hcounters]

/-- The condition under which a packet passes: the boot count is the current one, the
`msg_id` is new, and the tag is the one computed. -/
def Accepts (hmac : Hmac) (key : PacketHmacPsk) (lastSeenMsgId currentBootCount : UInt32)
    (p : Packet) : Prop :=
  p.bootCount = currentBootCount ∧ lastSeenMsgId < p.msgId ∧ hmac key (hmacMessage p) = p.hmac

instance (hmac : Hmac) (key : PacketHmacPsk) (last cur : UInt32) (p : Packet) :
    Decidable (Accepts hmac key last cur p) := by unfold Accepts; infer_instance

/-- **The check, in one step.** A packet passes exactly under `Accepts`, and
`last_seen_msg_id` moves exactly when it does. -/
theorem isPacketAuthenticated_some (hmac : Hmac) (key : PacketHmacPsk) (last cur : UInt32)
    (p : Packet) :
    isPacketAuthenticated hmac (some key) last p cur
      = if Accepts hmac key last cur p then (true, p.msgId) else (false, last) := by
  have htag : tcCompare (hmac key (hmacMessage p)).toList p.hmac.toList ≠ 0
      ↔ hmac key (hmacMessage p) ≠ p.hmac := by
    rw [Ne, tcCompare_eq_zero_iff (by simp), Vector.toList_inj]
  unfold isPacketAuthenticated Accepts
  simp only [htag]
  by_cases hboot : p.bootCount = cur
  · by_cases hmsg : p.msgId ≤ last
    · have hnlt : ¬last < p.msgId := UInt32.not_lt.mpr hmsg
      simp [hboot, hmsg, hnlt]
    · have hlt : last < p.msgId := UInt32.not_le.mp hmsg
      by_cases hmac_eq : hmac key (hmacMessage p) = p.hmac
      · simp [hboot, hmsg, hlt, hmac_eq]
      · simp [hboot, hmsg, hlt, hmac_eq]
  · simp [hboot]

theorem isPacketAuthenticated_true_iff (hmac : Hmac) (key : PacketHmacPsk) (last cur : UInt32)
    (p : Packet) :
    (isPacketAuthenticated hmac (some key) last p cur).1 = true ↔ Accepts hmac key last cur p := by
  rw [isPacketAuthenticated_some]
  split <;> simp_all

/-! ## Histories of packets and reboots -/

/-- What replay protection rests on: the reboot counter the check is called with, and the
static `last_seen_msg_id`. -/
structure ReplayState where
  bootCount : UInt32
  lastSeenMsgId : UInt32
deriving DecidableEq

/-- An event of a history: a packet is handed to the check, or the satellite reboots with a
new reboot counter. -/
inductive ReplayEvent where
  | packet (p : Packet)
  | reboot (bootCount : UInt32)

section Replay

variable (hmac : Hmac) (key : PacketHmacPsk)

/-- The check, called in state `s`. -/
def authenticate (s : ReplayState) (p : Packet) : Bool × UInt32 :=
  isPacketAuthenticated hmac (some key) s.lastSeenMsgId p s.bootCount

/-- One event. A reboot clears the static variable and is possible only to a strictly larger
counter, which is what `increment_reboot_counter` is for. -/
def replayStep (s : ReplayState) : ReplayEvent → Option ReplayState
  | .packet p => some { s with lastSeenMsgId := (authenticate hmac key s p).2 }
  | .reboot bootCount =>
    if s.bootCount < bootCount then some { bootCount, lastSeenMsgId := 0 } else none

/-- The packet of an event, where it is accepted. -/
def acceptedAt (s : ReplayState) : ReplayEvent → List Packet
  | .packet p => if (authenticate hmac key s p).1 then [p] else []
  | .reboot _ => []

/-- The packets accepted in a history, in order. -/
def accepted (s : ReplayState) (es : List ReplayEvent) : List Packet :=
  outputs (replayStep hmac key) (acceptedAt hmac key) s es

/-- Whether `p` is accepted after the history `es`. -/
def acceptedAfter (s : ReplayState) (es : List ReplayEvent) (p : Packet) : Bool :=
  match run (replayStep hmac key) s es with
  | some t => (authenticate hmac key t p).1
  | none => false

/-- `es'` is `es` with packets inserted that are rejected where they arrive. -/
inductive RejectedInserted : ReplayState → List ReplayEvent → List ReplayEvent → Prop where
  | nil (s : ReplayState) : RejectedInserted s [] []
  | keep {s s' : ReplayState} {e : ReplayEvent} {es es' : List ReplayEvent}
      (hstep : replayStep hmac key s e = some s') (hrest : RejectedInserted s' es es') :
      RejectedInserted s (e :: es) (e :: es')
  | insert {s : ReplayState} {p : Packet} {es es' : List ReplayEvent}
      (hreject : (authenticate hmac key s p).1 = false) (hrest : RejectedInserted s es es') :
      RejectedInserted s es (.packet p :: es')

/-! ### One event -/

theorem authenticate_eq (s : ReplayState) (p : Packet) :
    authenticate hmac key s p = if Accepts hmac key s.lastSeenMsgId s.bootCount p
      then (true, p.msgId) else (false, s.lastSeenMsgId) :=
  isPacketAuthenticated_some hmac key s.lastSeenMsgId s.bootCount p

theorem authenticate_true_iff (s : ReplayState) (p : Packet) :
    (authenticate hmac key s p).1 = true ↔ Accepts hmac key s.lastSeenMsgId s.bootCount p :=
  isPacketAuthenticated_true_iff hmac key s.lastSeenMsgId s.bootCount p

/-- A rejected packet leaves the state as it was. -/
theorem replayStep_reject {s : ReplayState} {p : Packet}
    (h : (authenticate hmac key s p).1 = false) :
    replayStep hmac key s (.packet p) = some s := by
  rw [authenticate_eq] at h
  rw [replayStep, authenticate_eq]
  split at h
  · simp at h
  · next hnot => rw [if_neg hnot]

/-- An accepted packet moves `last_seen_msg_id` to its own. -/
theorem replayStep_accept {s : ReplayState} {p : Packet}
    (h : (authenticate hmac key s p).1 = true) :
    replayStep hmac key s (.packet p) = some ⟨p.bootCount, p.msgId⟩ := by
  have hacc := (authenticate_true_iff hmac key s p).mp h
  rw [replayStep, authenticate_eq, if_pos hacc, hacc.1]

/-! ### The order behind it -/

/-- The stamp of a packet. -/
def Packet.stamp (p : Packet) : UInt32 × UInt32 := (p.bootCount, p.msgId)

/-- A stamp `b` is fresher than `a`: a later boot, or the same boot and a larger id. -/
def Fresher (a b : UInt32 × UInt32) : Prop := a.1 < b.1 ∨ a.1 = b.1 ∧ a.2 < b.2

theorem Fresher.trans {a b c : UInt32 × UInt32} (hab : Fresher a b) (hbc : Fresher b c) :
    Fresher a c := by
  simp only [Fresher, UInt32.lt_iff_toNat_lt, ← UInt32.toNat_inj] at *
  omega

theorem Fresher.ne {a b : UInt32 × UInt32} (h : Fresher a b) : a ≠ b := by
  rintro rfl
  simp [Fresher] at h

/-- What is fresher than the state after an event is fresher than the state before it, and
than the packet accepted there: an acceptance makes its own stamp the new state, a reboot
makes a fresher one, a rejection makes none. -/
theorem Fresher.of_replayStep {s s' : ReplayState} {e : ReplayEvent}
    (h : replayStep hmac key s e = some s') (q : Packet)
    (hq : Fresher (s'.bootCount, s'.lastSeenMsgId) q.stamp) :
    Fresher (s.bootCount, s.lastSeenMsgId) q.stamp ∧
      ∀ p ∈ acceptedAt hmac key s e, Fresher p.stamp q.stamp := by
  cases e with
  | packet p =>
    by_cases hauth : (authenticate hmac key s p).1 = true
    · have hacc := (authenticate_true_iff hmac key s p).mp hauth
      have hfresh : Fresher (s.bootCount, s.lastSeenMsgId) p.stamp :=
        Or.inr ⟨hacc.1.symm, hacc.2.1⟩
      rw [replayStep_accept hmac key hauth] at h
      obtain rfl := Option.some.inj h
      refine ⟨hfresh.trans hq, ?_⟩
      simp only [acceptedAt, if_pos hauth, List.mem_singleton, forall_eq]
      exact hq
    · -- a rejected packet moves nothing
      rw [replayStep_reject hmac key (by simpa using hauth)] at h
      obtain rfl := Option.some.inj h
      simp only [acceptedAt, if_neg hauth]
      exact ⟨hq, by simp⟩
  | reboot c =>
    rw [replayStep] at h
    split at h
    · next hlt =>
      obtain rfl := Option.some.inj h
      have hfresh : Fresher (s.bootCount, s.lastSeenMsgId) (c, 0) := Or.inl hlt
      exact ⟨hfresh.trans hq, by simp [acceptedAt]⟩
    · simp at h

/-- **The order of acceptances.** Everything accepted in a history is fresher than the state
it starts from, and each acceptance is fresher than the ones before it. -/
theorem accepted_pairwise (s : ReplayState) (es : List ReplayEvent) :
    (∀ q ∈ accepted hmac key s es, Fresher (s.bootCount, s.lastSeenMsgId) q.stamp) ∧
    (accepted hmac key s es).Pairwise fun a b => Fresher a.stamp b.stamp := by
  refine outputs_pairwise (replayStep hmac key) (acceptedAt hmac key) (P := fun _ _ => True)
    (I := fun _ => True) (B := fun s q => Fresher (s.bootCount, s.lastSeenMsgId) q.stamp)
    ?_ ?_ (AllSteps.of_forall _ (fun _ _ => trivial) s es) trivial
  · intro s e _ _
    cases e with
    | packet p =>
      by_cases hauth : (authenticate hmac key s p).1 = true
      · have hacc := (authenticate_true_iff hmac key s p).mp hauth
        simp only [acceptedAt, if_pos hauth, List.mem_singleton, forall_eq, List.pairwise_singleton,
          and_true]
        exact Or.inr ⟨hacc.1.symm, hacc.2.1⟩
      · simp [acceptedAt, hauth]
    | reboot c => simp [acceptedAt]
  · intro s e s' _ _ hse
    exact ⟨trivial, Fresher.of_replayStep hmac key hse⟩

/-- Without reboots, everything accepted carries the reboot counter of the start. -/
theorem accepted_packets_bootCount (s : ReplayState) (ps : List Packet) :
    ∀ q ∈ accepted hmac key s (ps.map .packet), q.bootCount = s.bootCount := by
  induction ps generalizing s with
  | nil => simp [accepted]
  | cons p ps ih =>
    intro q hq
    rw [List.map_cons] at hq
    by_cases h : (authenticate hmac key s p).1 = true
    · have hboot : p.bootCount = s.bootCount := ((authenticate_true_iff hmac key s p).mp h).1
      rw [accepted, outputs_cons_some _ _ (replayStep_accept hmac key h), acceptedAt, if_pos h] at hq
      rcases List.mem_cons.mp hq with rfl | hq
      · exact hboot
      · exact (ih _ q hq).trans hboot
    · have hfalse : (authenticate hmac key s p).1 = false := by simpa using h
      rw [accepted, outputs_cons_some _ _ (replayStep_reject hmac key hfalse), acceptedAt,
        if_neg h] at hq
      exact ih s q hq

/-- Inserting rejected packets does not change where a history leads. -/
theorem RejectedInserted.run_eq {s : ReplayState} {es es' : List ReplayEvent}
    (h : RejectedInserted hmac key s es es') :
    run (replayStep hmac key) s es' = run (replayStep hmac key) s es := by
  induction h with
  | nil s => rfl
  | keep hstep _ ih => rw [run_cons, run_cons, hstep, Option.bind_some, Option.bind_some, ih]
  | insert hreject _ ih =>
    rw [run_cons, replayStep_reject hmac key hreject, Option.bind_some, ih]

/-- **Replay protection.** Over every history of packets and reboots, from any state: no
`(boot_count, msg_id)` pair is accepted twice; between two reboots the accepted ids strictly
increase under the current boot count; an accepted packet that `parse_packet` produced
carries the HMAC over its header, payload and counters; a rejected packet changes nothing;
and so rejected packets, wherever they arrive, never decide about a later one. -/
theorem replay_protection (s : ReplayState) :
    (∀ es, ((accepted hmac key s es).map Packet.stamp).Nodup) ∧
    (∀ es (ps : List Packet) t, run (replayStep hmac key) s es = some t →
      ((accepted hmac key t (ps.map .packet)).map Packet.msgId).Pairwise (· < ·) ∧
      ∀ q ∈ accepted hmac key t (ps.map .packet), q.bootCount = t.bootCount) ∧
    (∀ es t buf n old q, run (replayStep hmac key) s es = some t →
      parsePacket buf n old = (true, q) → (authenticate hmac key t q).1 = true →
      q.hmac = hmac key (q.header ++ q.payload ++ le32 q.bootCount ++ le32 q.msgId)) ∧
    (∀ es t p, run (replayStep hmac key) s es = some t → (authenticate hmac key t p).1 = false →
      (authenticate hmac key t p).2 = t.lastSeenMsgId) ∧
    (∀ es es' p, RejectedInserted hmac key s es es' →
      acceptedAfter hmac key s es' p = acceptedAfter hmac key s es p) := by
  refine ⟨fun es => ?_, fun es ps t _ => ⟨?_, ?_⟩, ?_, ?_, ?_⟩
  · rw [List.Nodup, List.pairwise_map]
    exact (accepted_pairwise hmac key s es).2.imp Fresher.ne
  · have hboot := accepted_packets_bootCount hmac key t ps
    rw [List.pairwise_map]
    refine (accepted_pairwise hmac key t (ps.map .packet)).2.imp_of_mem ?_
    intro a b ha hb hab
    rcases hab with hlt | ⟨_, hlt⟩
    · -- both carry the boot count of the segment
      rw [Packet.stamp, Packet.stamp, hboot a ha, hboot b hb] at hlt
      simp at hlt
    · exact hlt
  · exact accepted_packets_bootCount hmac key t ps
  · intro es t buf n old q _ hparse hauth
    -- the tag that is checked covers header, payload and counters
    have hacc := (authenticate_true_iff hmac key t q).mp hauth
    rw [← hacc.2.2, hmacMessage_eq q (parsePacket_len_le hparse), Packet.counters,
      ← List.append_assoc]
  · intro es t p _ hreject
    rw [authenticate_eq] at hreject ⊢
    split at hreject
    · simp at hreject
    · next hnot => rw [if_neg hnot]
  · intro es es' p h
    rw [acceptedAfter, acceptedAfter, h.run_eq]

end Replay

/-- The guarantee at work: a genuine packet off the air, a forged one in front of it, and
the reboot before both. -/
theorem replay_protection_forged_first :
    let hmac : Hmac := fun _ _ => Vector.replicate 32 7
    let key : PacketHmacPsk := Vector.replicate 32 1
    let s : ReplayState := ⟨1, 9⟩
    let genuine : Packet :=
      { Packet.zero with bootCount := 2, msgId := 5, hmac := Vector.replicate 32 7 }
    let forged : Packet := { genuine with msgId := 6, hmac := Vector.replicate 32 0 }
    let history : List ReplayEvent := [.reboot 2]
    ((accepted hmac key s (history ++ [.packet genuine, .packet genuine])).map Packet.stamp).Nodup ∧
    (accepted hmac key ⟨2, 0⟩ [.packet genuine, .packet genuine]).map Packet.msgId = [5] ∧
    genuine.hmac = hmac key
      (genuine.header ++ genuine.payload ++ le32 genuine.bootCount ++ le32 genuine.msgId) ∧
    (authenticate hmac key ⟨2, 0⟩ forged).2 = 0 ∧
    acceptedAfter hmac key s (history ++ [.packet forged]) genuine =
      acceptedAfter hmac key s history genuine := by
  intro hmac key s genuine forged history
  obtain ⟨hnodup, hsegment, htag, hrejected, hinserted⟩ := replay_protection hmac key s
  have hrun : run (replayStep hmac key) s history = some ⟨2, 0⟩ := by decide
  have hforged : (authenticate hmac key ⟨2, 0⟩ forged).1 = false := by decide
  have hparse : parsePacket (genuine.frame ++ []) 45 Packet.zero = (true, genuine) := by
    have hdata : Memory.copyInto Packet.zero.data genuine.payload = Packet.zero.data :=
      Memory.copyInto_nil _
    have h := parsePacket_frame genuine Packet.zero [] (by decide)
    rwa [hdata] at h
  refine ⟨hnodup _, by decide, ?_, ?_, ?_⟩
  · exact htag history _ _ 45 Packet.zero genuine hrun hparse (by decide)
  · exact hrejected history _ forged hrun hforged
  · exact hinserted _ _ genuine (.keep (by decide) (.insert hforged (.nil _)))

end Samwise
