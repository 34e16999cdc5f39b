import Samwise.Lib.Run
import Samwise.Scheduler.Scheduler

/-!
# Samwise — the number in a ping reply

`number_commands_processed` is a `uint8_t` that every dispatched command counts up, and the number
a PING is answered with. Against it stands the number of packets that were dispatched since
`command_task_init`, in any run of the command task: whatever else runs in between, as long as it
leaves the field alone.
-/

namespace Samwise

open Run

/-! ## The text -/

/-- The reply that reports `n` commands. -/
def pingReport (n : Nat) : List UInt8 := utf8 ("Number commands executed: " ++ toString n)

theorem pingText_eq (n : UInt8) : pingText n = pingReport n.toNat := rfl

/-- Different numbers are reported differently. -/
theorem pingReport_inj {m n : Nat} : pingReport m = pingReport n ↔ m = n := by
  constructor
  · intro h
    have hbytes : ("Number commands executed: " ++ toString m).toByteArray
        = ("Number commands executed: " ++ toString n).toByteArray := by
      apply ByteArray.ext
      exact Array.toList_inj.mp h
    have htext := congrArg String.toList (String.toByteArray_inj.mp hbytes)
    rw [String.toList_append, String.toList_append] at htext
    have hdigits : Nat.toDigits 10 m = Nat.toDigits 10 n := by
      rw [← Nat.toList_repr, ← Nat.toList_repr]
      exact List.append_cancel_left htext
    calc m = Nat.ofDigitChars 10 (Nat.toDigits 10 m) 0 := Nat.ofDigitChars_ten_toDigits.symm
      _ = Nat.ofDigitChars 10 (Nat.toDigits 10 n) 0 := by rw [hdigits]
      _ = n := Nat.ofDigitChars_ten_toDigits
  · rintro rfl
    rfl

/-! ## What a dispatch does to the count and to the replies -/

/-- Between `w` and `w'` one command was counted, and only a PING may have added a packet to
`tx_queue`: its reply, with the new count. -/
structure World.Counts (p : Packet) (w w' : World) : Prop where
  count : w'.slate.numberCommandsProcessed = w.slate.numberCommandsProcessed + 1
  replies : w'.slate.txQueue.elems = w.slate.txQueue.elems ∨
    Command.ofByte p.commandByte = some .ping ∧ ∃ pkt,
      w'.slate.txQueue.elems = w.slate.txQueue.elems ++ [pkt] ∧
      pkt.payload = pingText (w.slate.numberCommandsProcessed + 1) ∧
      pkt.len.toNat = (pingText (w.slate.numberCommandsProcessed + 1)).length

theorem run_dispatchCommand_counts (p : Packet) (env : Env) (w : World) :
    w.Counts p ((dispatchCommand p).run env w).2 := by
  cases hcmd : Command.ofByte p.commandByte with
  | none =>
    rw [run_dispatchCommand_default env w (Or.inl hcmd)]
    exact ⟨rfl, Or.inl rfl⟩
  | some command =>
    cases command with
    | ping =>
      rw [run_dispatchCommand_ping env w hcmd]
      refine ⟨rfl, ?_⟩
      by_cases hroom : w.slate.txQueue.elems.length < txQueueSize
      · -- the reply finds room
        obtain ⟨hlen, hpayload⟩ := rfm9xFormatPacket_payload (env.stackPacket w.samples) 0 0 0 0
          (length_pingText_le (w.slate.numberCommandsProcessed + 1))
        exact Or.inr ⟨hcmd, _, (BoundedQueue.tryAdd_of_lt _ hroom).2, hpayload, hlen⟩
      · apply Or.inl
        show (w.slate.txQueue.tryAdd _).2.elems = _
        rw [BoundedQueue.tryAdd_of_full _ hroom]
    | payloadExec =>
      rw [run_dispatchCommand_payloadExec env w hcmd]
      exact ⟨rfl, Or.inl rfl⟩
    | payloadTurnOn =>
      rw [run_dispatchCommand_payloadTurnOn env w hcmd]
      exact ⟨rfl, Or.inl rfl⟩
    | payloadTurnOff =>
      rw [run_dispatchCommand_payloadTurnOff env w hcmd]
      exact ⟨rfl, Or.inl rfl⟩
    | manualStateOverride =>
      rw [run_dispatchCommand_manualStateOverride env w hcmd]
      exact ⟨rfl, Or.inl rfl⟩
    | adcsExec =>
      rw [run_dispatchCommand_adcsExec env w hcmd]
      exact ⟨rfl, Or.inl rfl⟩
    | adcsPacket =>
      rw [run_dispatchCommand_default env w (Or.inr hcmd)]
      exact ⟨rfl, Or.inl rfl⟩

section PingCount

variable (hmac : Hmac) (psk : Option PacketHmacPsk)

/-- The packet that `command_task_dispatch` takes and dispatches as a command, if any. -/
def dispatchedPacket (w : World) : Option Packet :=
  w.slate.rxQueue.tryRemove.1.filter fun packet =>
    (isPacketAuthenticated hmac psk w.lastSeenMsgId packet w.slate.rebootCounter).1

variable {hmac psk}

/-- A call that dispatches no command neither counts nor replies. -/
theorem commandTaskDispatch_of_none {w : World} (h : dispatchedPacket hmac psk w = none)
    (env : Env) :
    let w' := ((commandTaskDispatch hmac psk).run env w).2
    w'.slate.numberCommandsProcessed = w.slate.numberCommandsProcessed ∧
      w'.slate.txQueue = w.slate.txQueue := by
  rw [dispatchedPacket] at h
  cases hremove : w.slate.rxQueue.tryRemove with
  | mk removed rxQueue =>
    rw [hremove] at h
    cases removed with
    | none =>
      rw [commandTaskDispatch_of_empty hmac psk hremove]
      exact ⟨rfl, rfl⟩
    | some packet =>
      have hreject : ¬(isPacketAuthenticated hmac psk w.lastSeenMsgId packet
          w.slate.rebootCounter).1 = true := by
        intro haccept
        rw [Option.filter_some, if_pos haccept] at h
        cases h
      rw [commandTaskDispatch_of_packet hmac psk hremove, if_neg hreject]
      exact ⟨rfl, rfl⟩

/-- A call that dispatches a command counts it. -/
theorem commandTaskDispatch_of_some {w : World} {p : Packet}
    (h : dispatchedPacket hmac psk w = some p) (env : Env) :
    w.Counts p ((commandTaskDispatch hmac psk).run env w).2 := by
  rw [dispatchedPacket] at h
  cases hremove : w.slate.rxQueue.tryRemove with
  | mk removed rxQueue =>
    rw [hremove] at h
    obtain ⟨rfl, haccept⟩ := Option.filter_eq_some_iff.mp h
    rw [commandTaskDispatch_of_packet hmac psk hremove, if_pos haccept]
    have hcounts := run_dispatchCommand_counts p env { w with
      slate := { w.slate with rxQueue := rxQueue }
      lastSeenMsgId := (isPacketAuthenticated hmac psk w.lastSeenMsgId p
        w.slate.rebootCounter).2 }
    exact ⟨hcounts.count, hcounts.replies⟩

/-! ## Runs of the command task -/

/-- A packet that a dispatch added to `tx_queue`, and the number of packets dispatched as commands
by then, its PING included. -/
structure PingReply where
  number : Nat
  packet : Packet

/-- The reply reports the number, and is as long as its text. -/
def PingReply.Truthful (r : PingReply) : Prop :=
  r.packet.payload = pingReport r.number ∧ r.packet.len.toNat = (pingReport r.number).length

/-- The world since `command_task_init`, with the number of packets that were dispatched as
commands and the replies. -/
structure Counting where
  world : World
  dispatched : Nat
  replies : List PingReply

/-- A call of `command_task_dispatch`, or anything that leaves the count of commands alone. -/
inductive CommandEvent where
  | dispatch (env : Env)
  | other (f : World → World)

variable (hmac psk)

/-- One step. A dispatch adds its reply behind what `tx_queue` held. -/
def countStep (s : Counting) : CommandEvent → Option Counting
  | .dispatch env =>
    let world := ((commandTaskDispatch hmac psk).run env s.world).2
    let dispatched := s.dispatched + (dispatchedPacket hmac psk s.world).toList.length
    let added := world.slate.txQueue.elems.drop s.world.slate.txQueue.elems.length
    some ⟨world, dispatched, s.replies ++ added.map (PingReply.mk dispatched)⟩
  | .other f =>
    if (f s.world).slate.numberCommandsProcessed = s.world.slate.numberCommandsProcessed then
      some { s with world := f s.world }
    else none

/-- Behind `command_task_init`. -/
def afterCommandTaskInit (env : Env) (w : World) : Counting :=
  ⟨(Task.commandTask.taskInit.run env w).2, 0, []⟩

/-- The field is the number of dispatched commands modulo 256, and so is what the replies say. -/
structure Counting.Wraps (s : Counting) : Prop where
  count : s.world.slate.numberCommandsProcessed = UInt8.ofNat s.dispatched
  replies : ∀ r ∈ s.replies, r.number ≤ s.dispatched ∧
    r.packet.payload = pingReport (r.number % 256) ∧
    r.packet.len.toNat = (pingReport (r.number % 256)).length

variable {hmac psk}

theorem wraps_afterCommandTaskInit (env : Env) (w : World) :
    (afterCommandTaskInit env w).Wraps where
  count := rfl
  replies := by
    intro r hr
    cases hr

/-- The step lemma. -/
theorem countStep_wraps (s : Counting) (e : CommandEvent) (s' : Counting) (hs : s.Wraps)
    (h : countStep hmac psk s e = some s') : s'.Wraps := by
  cases e with
  | other f =>
    rw [countStep] at h
    split at h
    · next hsame =>
      cases h
      exact ⟨hsame.trans hs.count, hs.replies⟩
    · cases h
  | dispatch env =>
    cases h
    cases hpacket : dispatchedPacket hmac psk s.world with
    | none =>
      obtain ⟨hcount, htx⟩ := commandTaskDispatch_of_none hpacket env
      refine ⟨hcount.trans hs.count, ?_⟩
      intro r hr
      simp only [htx, List.drop_length, List.map_nil, List.append_nil] at hr
      exact hs.replies r hr
    | some p =>
      have hcounts := commandTaskDispatch_of_some hpacket env
      -- the new count is the next number modulo 256
      have hnext : s.world.slate.numberCommandsProcessed + 1 = UInt8.ofNat (s.dispatched + 1) := by
        rw [hs.count, UInt8.ofNat_add]
        rfl
      have hmod : (UInt8.ofNat (s.dispatched + 1)).toNat = (s.dispatched + 1) % 256 :=
        UInt8.toNat_ofNat'
      refine ⟨hcounts.count.trans hnext, ?_⟩
      intro r hr
      rcases List.mem_append.mp hr with hold | hnew
      · have hr := hs.replies r hold
        exact ⟨Nat.le_succ_of_le hr.1, hr.2⟩
      · rcases hcounts.replies with hsame | ⟨_, pkt, hadded, hpayload, hlen⟩
        · simp [hsame] at hnew
        · rw [hadded, List.drop_left, List.map_singleton, List.mem_singleton] at hnew
          rw [hnext, pingText_eq, hmod] at hpayload hlen
          subst hnew
          exact ⟨Nat.le_refl _, hpayload, hlen⟩

/-- The run lemma: the invariant holds in every run from `command_task_init`. -/
theorem run_wraps (env : Env) (w : World) {events : List CommandEvent} {s : Counting}
    (hrun : run (countStep hmac psk) (afterCommandTaskInit env w) events = some s) : s.Wraps :=
  invariant' (countStep hmac psk) countStep_wraps hrun (wraps_afterCommandTaskInit env w)

/-- What a reply says is the truth up to 255. -/
theorem Counting.Wraps.truthful_iff {s : Counting} (hs : s.Wraps) {r : PingReply}
    (hr : r ∈ s.replies) : r.Truthful ↔ r.number < 256 := by
  obtain ⟨_, hpayload, hlen⟩ := hs.replies r hr
  constructor
  · intro htrue
    have hmod : r.number % 256 = r.number := pingReport_inj.mp (hpayload.symm.trans htrue.1)
    rw [← hmod]
    exact Nat.mod_lt _ (by decide)
  · intro hlt
    rw [Nat.mod_eq_of_lt hlt] at hpayload hlen
    exact ⟨hpayload, hlen⟩

/-- **A ping reports the truth** exactly up to the 255th command: in every run of the command task
since `command_task_init`, a reply is right exactly if fewer than 256 packets were dispatched when
it was made, and so are all of them while fewer than 256 were dispatched. -/
theorem ping_reports_truth_iff (env : Env) (w : World) {events : List CommandEvent} {s : Counting}
    (hrun : run (countStep hmac psk) (afterCommandTaskInit env w) events = some s) :
    (∀ r ∈ s.replies, (r.Truthful ↔ r.number < 256)) ∧
      (s.dispatched < 256 → ∀ r ∈ s.replies, r.Truthful) := by
  have hs := run_wraps env w hrun
  refine ⟨fun r hr => hs.truthful_iff hr, ?_⟩
  intro hfew r hr
  apply (hs.truthful_iff hr).mpr
  exact Nat.lt_of_le_of_lt (hs.replies r hr).1 hfew

end PingCount

/-! ## Pings, one after the other -/

/-- A signed PING for boot 0, under an HMAC that is always zero. -/
def signedPing (msgId : UInt32) : Packet := { Packet.zero with msgId }

/-- The pings from `msgId` on, each received, dispatched and its reply sent. -/
def pingRounds (msgId : UInt32) : Nat → List CommandEvent
  | 0 => []
  | rounds + 1 =>
    .other (fun w => { w with
      slate := { w.slate with rxQueue := (w.slate.rxQueue.tryAdd (signedPing msgId)).2 } }) ::
    .dispatch Env.still ::
    .other (fun w => { w with
      slate := { w.slate with txQueue := w.slate.txQueue.tryRemove.2 } }) ::
    pingRounds (msgId + 1) rounds

/-- So many pings behind a reset. -/
def afterPings (rounds : Nat) : Option Counting :=
  run (countStep (fun _ _ => Vector.replicate 32 0) (some (Vector.replicate 32 0)))
    (afterCommandTaskInit Env.still (World.atReset ⟨0, 0, 0⟩)) (pingRounds 1 rounds)

/-- One ping, reported as one. -/
theorem ping_reports_truth_iff_once :
    ∃ s, afterPings 1 = some s ∧ s.dispatched = 1 ∧ s.replies ≠ [] ∧
      (∀ r ∈ s.replies, (r.Truthful ↔ r.number < 256)) ∧
      (s.dispatched < 256 → ∀ r ∈ s.replies, r.Truthful) := by
  have hran : (afterPings 1).map (fun s => (s.dispatched, s.replies.length)) = some (1, 1) := by
    decide +kernel
  obtain ⟨s, hrun, hone⟩ := Option.map_eq_some_iff.mp hran
  obtain ⟨hdispatched, hlen⟩ := Prod.mk.inj hone
  refine ⟨s, hrun, hdispatched, ?_, ping_reports_truth_iff Env.still (World.atReset ⟨0, 0, 0⟩) hrun⟩
  intro hnil
  rw [hnil] at hlen
  cases hlen

/-- The 256th ping is answered with another number. -/
theorem ping_256_not_truthful :
    ∃ s r, afterPings 256 = some s ∧ r ∈ s.replies ∧ r.number = 256 ∧
      r.packet.payload = pingReport 0 ∧ ¬r.Truthful := by
  have hran : (afterPings 256).map (fun s => s.replies.getLast?.map (·.number))
      = some (some 256) := by
    decide +kernel
  obtain ⟨s, hrun, hlast⟩ := Option.map_eq_some_iff.mp hran
  obtain ⟨r, hget, hnumber⟩ := Option.map_eq_some_iff.mp hlast
  have hs := run_wraps _ _ hrun
  have hr : r ∈ s.replies := List.mem_of_getLast? hget
  refine ⟨s, r, hrun, hr, hnumber, ?_, ?_⟩
  · rw [(hs.replies r hr).2.1, hnumber]
  · rw [hs.truthful_iff hr, hnumber]
    decide

end Samwise
