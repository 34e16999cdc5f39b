import Samwise.Lib.Memory
import Samwise.Payload.ReceivedFile

/-!
# Samwise — what `send_file` transmits, and whether it ends

The sender of `SerialFileTransfer.lean` again, with the buffer all its packets go through:
`_WRITE_BUF`, of which `send_file` and `_send_missing_packets` fill and write different slices.
Filling a slice with bytes of another number raises. The buffer is a detail
(`sendStepBuf_eq`), so what is true of the transfers without it is true of those with it.

Every chunk that is written is the file's. A short last packet cannot be sent twice, and a file
whose last packet ends a group is acknowledged once and asked for twice.
-/

namespace Samwise

namespace SerialFileTransfer

open Run

/-! ## The buffer -/

/-- `_WRITE_BUF`. -/
abbrev WriteBuf := Vector UInt8 packetSize

/-- `write_buf_view[0:n] = bytes`: an exception where the slice has another length. -/
def WriteBuf.assign (buf : WriteBuf) (n : Nat) (bytes : List UInt8) : Option WriteBuf :=
  if bytes.length = min n packetSize then some (Memory.copyInto buf bytes) else none

/-- `write_buf_view[0:n]`. -/
def WriteBuf.slice (buf : WriteBuf) (n : Nat) : List UInt8 := buf.toList.take n

/-- What was assigned to a slice is what is in it. -/
theorem WriteBuf.slice_assign {buf buf' : WriteBuf} {n : Nat} {bytes : List UInt8}
    (h : buf.assign n bytes = some buf') : buf'.slice n = bytes := by
  unfold WriteBuf.assign at h
  split at h
  · next hlength =>
    obtain rfl := Option.some.inj h
    have hfits : bytes.length ≤ packetSize := by omega
    rw [WriteBuf.slice, Memory.toList_copyInto buf hfits]
    by_cases hn : n ≤ packetSize
    · rw [List.take_append_of_le_length (by omega), List.take_of_length_le (by omega)]
    · -- a slice past the end is the whole buffer, all of which was assigned
      have hnone : buf.toList.drop bytes.length = [] :=
        List.drop_of_length_le (by rw [Vector.length_toList]; omega)
      rw [hnone, List.append_nil, List.take_of_length_le (by omega)]
  · cases h

section SendFile

variable (contents : List UInt8)

/-- `f.seek(offset)` and `f.read(n)`. -/
def readAt (offset n : Nat) : List UInt8 := (contents.drop offset).take n

/-- Fill the slice, write it as packet `seqNum`, and go on: the `write_packet` of the three
loops, or the exception that comes first. -/
def writeSlice (buf : WriteBuf) (seqNum n : Nat) (next : Sender) :
    Option SerialPacket × Sender × WriteBuf :=
  match buf.assign n (readAt contents (seqNum * packetSize) n) with
  | none => (none, .raised, buf)
  | some buf =>
    if seqNum < 256 ^ 2 then (some ⟨buf.slice n, seqNum⟩, next, buf) else (none, .raised, buf)

/-- The next `write_packet` of the sender, with the buffer. -/
def sendStepBuf (buf : WriteBuf) : Sender → Option (Option SerialPacket × Sender × WriteBuf)
  | .sendFull seqNum =>
    some (writeSlice contents buf seqNum packetSize
      (if seqNum % groupSize = groupSize - 1 then .request (some (seqNum + 1)) 0 0
        else sendFrom contents (seqNum + 1)))
  | .sendPartial =>
    some (writeSlice contents buf (numFullPackets contents) (contents.length % packetSize)
      (.request none 0 0))
  | .resend next cycle seqNum rest =>
    some (writeSlice contents buf seqNum packetSize (afterResend next cycle rest))
  | sender => (sendStep contents sender).map fun sent => (sent.1, sent.2, buf)

/-- A step of the transfer of a file, with the buffer. -/
def stepBuf (s : Transfer × WriteBuf) (e : TransferEvent) : Option (Transfer × WriteBuf) :=
  match e with
  | .write delivered =>
    match sendStepBuf contents s.2 s.1.sender with
    | none => none
    | some (none, sender, buf) => some ({ s.1 with sender }, buf)
    | some (some p, sender, buf) =>
      if delivered = false then some ({ s.1 with sender }, buf)
      else if s.1.reply = none then
        let received := receiveStep s.1.receiver p
        some (⟨sender, received.2, received.1⟩, buf)
      else none
  | e => (step contents s.1 e).map fun t => (t, s.2)

variable {contents}

/-- The loop over the full packets stays within them. -/
def Sender.WithinFile (contents : List UInt8) : Sender → Prop
  | .sendFull seqNum => seqNum < numFullPackets contents
  | _ => True

theorem sendFrom_withinFile (contents : List UInt8) (seqNum : Nat) :
    (sendFrom contents seqNum).WithinFile contents := by
  unfold sendFrom
  split
  · next hfull => exact hfull
  · split
    · trivial
    · trivial

/-! ## The buffer is a detail -/

theorem readAt_packetSize (contents : List UInt8) (seqNum : Nat) :
    readAt contents (seqNum * packetSize) packetSize = readChunk contents seqNum := rfl

/-- What is left behind the full packets is one short chunk. -/
theorem readAt_last (contents : List UInt8) :
    readAt contents (numFullPackets contents * packetSize) (contents.length % packetSize)
      = readChunk contents (numFullPackets contents) := by
  have hleft : contents.length - numFullPackets contents * packetSize
      = contents.length % packetSize := by
    unfold numFullPackets packetSize
    omega
  have hshort : contents.length % packetSize ≤ packetSize :=
    Nat.le_of_lt (Nat.mod_lt _ (by decide))
  have hdrop : (contents.drop (numFullPackets contents * packetSize)).length
      = contents.length % packetSize := by
    rw [List.length_drop, hleft]
  rw [readAt, readChunk, List.take_of_length_le (Nat.le_of_eq hdrop),
    List.take_of_length_le (by omega)]

/-- A slice that the chunk fills is written as the chunk. -/
theorem writeSlice_of_length (buf : WriteBuf) {seqNum n : Nat} {chunk : List UInt8} (next : Sender)
    (hchunk : readAt contents (seqNum * packetSize) n = chunk)
    (hlength : chunk.length = min n packetSize) :
    ∃ buf', writeSlice contents buf seqNum n next =
      if seqNum < 256 ^ 2 then (some ⟨chunk, seqNum⟩, next, buf') else (none, .raised, buf') := by
  have hassign : buf.assign n chunk = some (Memory.copyInto buf chunk) := if_pos hlength
  have hslice := WriteBuf.slice_assign hassign
  refine ⟨Memory.copyInto buf chunk, ?_⟩
  simp only [writeSlice, hchunk, hassign, hslice]

/-- **The buffer is a detail**: what is written, and where the sender goes on, is what
`sendStep` says. -/
theorem sendStepBuf_eq (buf : WriteBuf) {sender : Sender} (h : sender.WithinFile contents) :
    (sendStepBuf contents buf sender).map (fun sent => (sent.1, sent.2.1))
      = sendStep contents sender := by
  cases sender with
  | sendFull seqNum =>
    have hfull : seqNum < numFullPackets contents := h
    have hlength : (readChunk contents seqNum).length = min packetSize packetSize := by
      rw [length_readChunk]
      unfold numFullPackets packetSize at hfull
      unfold packetSize
      omega
    obtain ⟨buf', hwrite⟩ := writeSlice_of_length buf
      (if seqNum % groupSize = groupSize - 1 then .request (some (seqNum + 1)) 0 0
        else sendFrom contents (seqNum + 1)) (readAt_packetSize contents seqNum) hlength
    simp only [sendStepBuf, sendStep, hwrite, Option.map_some]
    split
    · rfl
    · rfl
  | sendPartial =>
    have hlength : (readChunk contents (numFullPackets contents)).length
        = min (contents.length % packetSize) packetSize := by
      rw [length_readChunk]
      unfold numFullPackets packetSize
      omega
    obtain ⟨buf', hwrite⟩ := writeSlice_of_length buf (.request none 0 0)
      (readAt_last contents) hlength
    simp only [sendStepBuf, sendStep, hwrite, Option.map_some]
    split
    · rfl
    · rfl
  | resend next cycle seqNum rest =>
    by_cases hwhole : (readChunk contents seqNum).length = packetSize
    · obtain ⟨buf', hwrite⟩ := writeSlice_of_length buf (afterResend next cycle rest)
        (readAt_packetSize contents seqNum) (hwhole.trans (Nat.min_self _).symm)
      simp only [sendStepBuf, sendStep, hwrite, Option.map_some, hwhole, true_and]
      split
      · cases rest <;> rfl
      · rfl
    · -- the slice does not fit a short chunk
      have hassign : buf.assign packetSize (readChunk contents seqNum) = none := by
        rw [WriteBuf.assign, Nat.min_self, if_neg hwhole]
      simp only [sendStepBuf, sendStep, writeSlice, readAt_packetSize, hassign, Option.map_some,
        hwhole, false_and, if_false]
  | _ =>
    simp only [sendStepBuf, Option.map_map]
    exact congrFun Option.map_id_fun' _

theorem sendNext_withinFile (contents : List UInt8) (next : Option Nat) :
    (sendNext contents next).WithinFile contents := by
  cases next with
  | none => trivial
  | some seqNum => exact sendFrom_withinFile contents seqNum

theorem nextCycle_withinFile (contents : List UInt8) (next : Option Nat) (cycle : Nat) :
    (nextCycle next cycle).WithinFile contents := by
  unfold nextCycle
  split
  · trivial
  · trivial

theorem sendStep_withinFile {sender sender' : Sender} {packet : Option SerialPacket}
    (h : sendStep contents sender = some (packet, sender')) : sender'.WithinFile contents := by
  cases sendStep_writes h with
  | count _ => exact sendFrom_withinFile contents 0
  | full _ =>
    split
    · trivial
    · exact sendFrom_withinFile contents _
  | @again next cycle seqNum rest _ _ =>
    cases rest with
    | nil => exact nextCycle_withinFile contents next cycle
    | cons => trivial
  | _ => trivial

/-- A step of the sender: it writes, it handles a list, it goes without one, or it stays. -/
theorem step_sender {s s' : Transfer} {e : TransferEvent} (h : step contents s e = some s') :
    (∃ packet, sendStep contents s.sender = some (packet, s'.sender)) ∨
    (∃ next cycle attempt missingPackets, s.sender = .await next cycle attempt ∧
      s.reply = some missingPackets ∧ s'.sender = handleMissing contents next cycle missingPackets) ∨
    (∃ next cycle attempt, s.sender = .await next cycle attempt ∧
      s'.sender = noResponse next cycle attempt) ∨
    s'.sender = s.sender := by
  cases step_moves h with
  | raises hsend => exact Or.inl ⟨_, hsend⟩
  | lost hsend => exact Or.inl ⟨_, hsend⟩
  | arrives hsend _ => exact Or.inl ⟨_, hsend⟩
  | answered hreply hsender => exact Or.inr (Or.inl ⟨_, _, _, _, hsender, hreply, rfl⟩)
  | answerLost _ => exact Or.inr (Or.inr (Or.inr rfl))
  | unanswered hsender => exact Or.inr (Or.inr (Or.inl ⟨_, _, _, hsender, rfl⟩))
  | bad _ => exact Or.inr (Or.inr (Or.inr rfl))

theorem step_withinFile {s s' : Transfer} {e : TransferEvent} (hs : s.sender.WithinFile contents)
    (h : step contents s e = some s') : s'.sender.WithinFile contents := by
  rcases step_sender h with ⟨packet, hsend⟩ | ⟨next, cycle, _, missingPackets, _, _, hsender⟩ |
    ⟨next, cycle, attempt, _, hsender⟩ | hsender
  · exact sendStep_withinFile hsend
  · rw [hsender]
    cases missingPackets with
    | nil => exact sendNext_withinFile contents next
    | cons => trivial
  · rw [hsender]
    unfold noResponse
    split
    · trivial
    · trivial
  · rw [hsender]
    exact hs

/-- A step with the buffer is one without it. -/
theorem stepBuf_map {s : Transfer × WriteBuf} (e : TransferEvent)
    (hs : s.1.sender.WithinFile contents) :
    (stepBuf contents s e).map Prod.fst = step contents s.1 e := by
  cases e with
  | write delivered =>
    have hsend := sendStepBuf_eq s.2 hs
    simp only [stepBuf, step, ← hsend]
    rcases sendStepBuf contents s.2 s.1.sender with _ | ⟨_ | p, sender, buf⟩
    · rfl
    · rfl
    · dsimp only [Option.map_some]
      split
      · rfl
      · split
        · rfl
        · rfl
  | _ =>
    simp only [stepBuf, Option.map_map]
    exact congrFun Option.map_id_fun' _

theorem stepBuf_withinFile {s s' : Transfer × WriteBuf} {e : TransferEvent}
    (hs : s.1.sender.WithinFile contents) (h : stepBuf contents s e = some s') :
    s'.1.sender.WithinFile contents := by
  have hproj := stepBuf_map e hs
  rw [h] at hproj
  exact step_withinFile hs hproj.symm

variable (contents) in
/-- **Transfers with the buffer are transfers without it**, run by run. -/
theorem run_stepBuf (buf : WriteBuf) (events : List TransferEvent) :
    (run (stepBuf contents) (.start, buf) events).map Prod.fst
      = run (step contents) .start events :=
  run_map (step contents) (stepBuf contents) Prod.fst
    (fun _ _ _ hs h => stepBuf_withinFile hs h) (fun _ e hs => stepBuf_map e hs)
    (t := (Transfer.start, buf)) trivial events

theorem allSteps_stepBuf (buf : WriteBuf) {ok : Transfer → TransferEvent → Prop}
    {events : List TransferEvent} :
    AllSteps (stepBuf contents) (fun s e => ok s.1 e) (.start, buf) events
      ↔ AllSteps (step contents) ok .start events :=
  AllSteps.map (step contents) (stepBuf contents) Prod.fst
    (fun _ _ _ hs h => stepBuf_withinFile hs h) (fun _ e hs => stepBuf_map e hs)
    (t := (Transfer.start, buf)) trivial

end SendFile

/-! ## What is transmitted -/

/-- The sender is at a `write_packet` of a packet of the file. -/
def Sender.isData : Sender → Bool
  | .sendFull _ => true
  | .sendPartial => true
  | .resend _ _ _ _ => true
  | _ => false

section Transmitted

variable (contents : List UInt8)

/-- The packets of the file that an event transmits, first or again. -/
def transmitted (s : Transfer × WriteBuf) : TransferEvent → List SerialPacket
  | .write _ =>
    match sendStepBuf contents s.2 s.1.sender with
    | some (some p, _, _) => if s.1.sender.isData = true then [p] else []
    | _ => []
  | _ => []

/-- The bytes of the file in a range of offsets. -/
def bytesIn (start stop : Nat) : List UInt8 := (contents.take stop).drop start

variable {contents}

theorem readChunk_eq_bytesIn (contents : List UInt8) (i : Nat) : readChunk contents i
    = bytesIn contents (packetSize * i) (min (packetSize * (i + 1)) contents.length) := by
  have hstop : packetSize * (i + 1) = packetSize * i + packetSize := Nat.mul_succ _ _
  rw [readChunk, bytesIn, ← List.take_eq_take_min, hstop, Nat.mul_comm, List.take_drop]

/-- A packet of the file carries its chunk. -/
theorem sendStep_data {sender sender' : Sender} {p : SerialPacket} (hdata : sender.isData = true)
    (h : sendStep contents sender = some (some p, sender')) :
    p.chunk = readChunk contents p.seqNum := by
  cases sendStep_writes h with
  | full _ => rfl
  | short _ => rfl
  | again _ _ => rfl
  | _ => cases hdata

theorem transmitted_chunk {s : Transfer × WriteBuf} (hs : s.1.sender.WithinFile contents)
    {e : TransferEvent} {p : SerialPacket} (hp : p ∈ transmitted contents s e) :
    p.chunk = readChunk contents p.seqNum := by
  cases e with
  | write delivered =>
    have hsend := sendStepBuf_eq s.2 hs
    simp only [transmitted] at hp
    rcases hbuf : sendStepBuf contents s.2 s.1.sender with _ | ⟨_ | q, sender, buf⟩
    · simp [hbuf] at hp
    · simp [hbuf] at hp
    · rw [hbuf] at hsend
      simp only [hbuf] at hp
      split at hp
      · next hdata =>
        obtain rfl := List.mem_singleton.mp hp
        exact sendStep_data hdata hsend.symm
      · cases hp
  | _ => cases hp

end Transmitted

/-! ## No step raises -/

/-- Nothing but packets of the file is lost: counts, requests and lists arrive, and the sender
goes without a list only where there is none. -/
def OnlyDataLost (s : Transfer) : TransferEvent → Prop
  | .write delivered => delivered = false → s.sender.isData = true
  | .reply delivered => delivered = true
  | .noResponse => s.reply = none
  | .badPacket => True

section Raises

variable (contents : List UInt8)

/-- A short last packet arrives when it is first sent, unless it is the only packet. -/
def KeepsLast (s : Transfer) (e : TransferEvent) : Prop :=
  s.sender = .sendPartial → e = .write false → numFullPackets contents = 0

/-- What the sender is at can be sent. -/
def Sender.Sendable : Sender → Prop
  | .sendFull seqNum => seqNum < numFullPackets contents
  | .sendPartial => numFullPackets contents < numPackets contents
  | .resend _ _ i rest => ∀ j ∈ i :: rest, j < numFullPackets contents
  | .raised => False
  | _ => True

/-- A request at the end of the group that starts at `g`, or behind the last packet. -/
def EndsGroup (g : Nat) : Option Nat → Prop
  | some seqNum => seqNum = g + groupSize ∧ seqNum ≤ numFullPackets contents
  | none => numPackets contents ≤ g + groupSize

/-- The sender is in the group that starts at `g`, or has given up. -/
def Sender.InGroup (g : Nat) : Sender → Prop
  | .sendFull seqNum => g ≤ seqNum ∧ seqNum < g + groupSize
  | .sendPartial => g ≤ numFullPackets contents ∧ numFullPackets contents < g + groupSize
  | .request next _ _ => EndsGroup contents g next
  | .await next _ _ => EndsGroup contents g next
  | .resend next _ _ _ => EndsGroup contents g next
  | .sendCount => False
  | .raised => False
  | .abort => True
  | .finished => True

/-- All packets have been sent once. -/
def Sender.PastLast : Sender → Prop
  | .request none _ _ => True
  | .await none _ _ => True
  | .resend none _ _ _ => True
  | _ => False

variable {contents}

theorem sendFrom_sendable (contents : List UInt8) (seqNum : Nat) :
    (sendFrom contents seqNum).Sendable contents := by
  have hle := numFullPackets_le contents
  unfold sendFrom
  split
  · next hfull => exact hfull
  · split
    · next hshort => exact Nat.lt_of_le_of_ne hle (Ne.symm hshort)
    · trivial

theorem sendNext_sendable (contents : List UInt8) (next : Option Nat) :
    (sendNext contents next).Sendable contents := by
  cases next with
  | none => trivial
  | some seqNum => exact sendFrom_sendable contents seqNum

theorem nextCycle_sendable (contents : List UInt8) (next : Option Nat) (cycle : Nat) :
    (nextCycle next cycle).Sendable contents := by
  unfold nextCycle
  split
  · trivial
  · trivial

theorem nextCycle_inGroup {g : Nat} {next : Option Nat} (cycle : Nat)
    (h : EndsGroup contents g next) : (nextCycle next cycle).InGroup contents g := by
  unfold nextCycle
  split
  · exact h
  · trivial

theorem nextCycle_pastLast {next : Option Nat} {cycle : Nat} (h : (nextCycle next cycle).PastLast) :
    next = none := by
  unfold nextCycle at h
  split at h
  · cases next with
    | none => rfl
    | some => exact h.elim
  · exact h.elim

/-- The loop goes on in the group, which is over with the file. -/
theorem sendFrom_inGroup {g seqNum : Nat} (hle : seqNum ≤ numFullPackets contents)
    (hg : g ≤ seqNum) (hlt : seqNum < g + groupSize) :
    (sendFrom contents seqNum).InGroup contents g := by
  unfold sendFrom
  split
  · exact ⟨hg, hlt⟩
  · next hfull =>
    have heq : numFullPackets contents = seqNum := Nat.le_antisymm (Nat.not_lt.mp hfull) hle
    split
    · exact ⟨heq ▸ hg, heq ▸ hlt⟩
    · next hwhole =>
      show numPackets contents ≤ g + groupSize
      rw [not_not.mp hwhole, heq]
      exact Nat.le_of_lt hlt

theorem sendFrom_pastLast {seqNum : Nat} (h : (sendFrom contents seqNum).PastLast) :
    numPackets contents = numFullPackets contents := by
  unfold sendFrom at h
  split at h
  · exact h.elim
  · split at h
    · exact h.elim
    · next hwhole => exact not_not.mp hwhole

/-- A packet of the file leaves the sender: which one, and where the sender goes on. -/
structure SendsData (contents : List UInt8) (sender sender' : Sender) (i : Nat) : Prop where
  lt : i < numPackets contents
  sendable : sender'.Sendable contents
  inGroup : ∀ g, g % groupSize = 0 → sender.InGroup contents g → sender'.InGroup contents g
  pastLast : sender'.PastLast → numPackets contents = numFullPackets contents ∨ sender.PastLast ∨
    sender = .sendPartial ∧ i = numFullPackets contents
  whole : sender ≠ .sendPartial → i < numFullPackets contents

/-- A sender whose packets have numbers does not raise. -/
theorem Sender.Sendable.not_raises {sender : Sender} (hs : sender.Sendable contents)
    (hfits : numPackets contents ≤ 256 ^ 2) : ¬sender.Raises contents := by
  have hle := numFullPackets_le contents
  intro hraises
  cases sender with
  | sendCount => exact hraises (Nat.lt_of_le_of_lt hfits (by decide))
  | sendFull seqNum =>
    have hfull : seqNum < numFullPackets contents := hs
    exact hraises (by omega)
  | sendPartial =>
    have hshort : numFullPackets contents < numPackets contents := hs
    exact hraises (by omega)
  | resend next cycle seqNum rest =>
    have hfull : seqNum < numFullPackets contents := hs seqNum List.mem_cons_self
    refine hraises ⟨?_, by omega⟩
    rw [length_readChunk]
    unfold numFullPackets packetSize at hfull
    unfold packetSize
    omega
  | _ => exact hraises

/-- **What the sender writes next**, where it can: a packet of the file, the count, a request,
or the end of it. -/
theorem sendStep_sendable {sender : Sender} (hfits : numPackets contents ≤ 256 ^ 2)
    (hs : sender.Sendable contents) {packet : Option SerialPacket} {sender' : Sender}
    (h : sendStep contents sender = some (packet, sender')) :
    (∃ i, packet = some ⟨readChunk contents i, i⟩ ∧ sender.isData = true ∧
      SendsData contents sender sender' i) ∨
    (sender = .sendCount ∧ packet = some ⟨toBytes (numPackets contents), 0⟩ ∧
      sender' = sendFrom contents 0) ∨
    (∃ next cycle attempt, sender = .request next cycle attempt ∧ packet = some ⟨sendAck, 0⟩ ∧
      sender' = .await next cycle attempt) ∨
    (sender = .abort ∧ packet = some ⟨abortFileTransfer, 0⟩ ∧ sender' = .finished) := by
  have hle := numFullPackets_le contents
  cases sendStep_writes h with
  | count _ => exact Or.inr (Or.inl ⟨rfl, rfl, rfl⟩)
  | @full seqNum _ =>
    have hfull : seqNum < numFullPackets contents := hs
    refine Or.inl ⟨seqNum, rfl, rfl, ⟨Nat.lt_of_lt_of_le hfull hle, ?_, ?_, ?_, ?_⟩⟩
    · split
      · trivial
      · exact sendFrom_sendable contents _
    · rintro g hg ⟨hge, hlt⟩
      unfold groupSize at hg hlt ⊢
      split
      · -- the group is over
        refine ⟨?_, hfull⟩
        unfold groupSize
        omega
      · refine sendFrom_inGroup hfull (Nat.le_succ_of_le hge) ?_
        unfold groupSize
        omega
    · split
      · exact False.elim
      · exact fun hpast => Or.inl (sendFrom_pastLast hpast)
    · exact fun _ => hfull
  | short _ =>
    have hshort : numFullPackets contents < numPackets contents := hs
    refine Or.inl ⟨_, rfl, rfl, ⟨hshort, trivial, ?_, fun _ => Or.inr (Or.inr ⟨rfl, rfl⟩), ?_⟩⟩
    · rintro g hg ⟨hge, hlt⟩
      have hone : numPackets contents ≤ numFullPackets contents + 1 := by
        unfold numPackets numFullPackets packetSize
        omega
      show numPackets contents ≤ g + groupSize
      omega
    · exact fun h => absurd rfl h
  | @again next cycle seqNum rest _ _ =>
    have hfull : seqNum < numFullPackets contents := hs seqNum List.mem_cons_self
    refine Or.inl ⟨seqNum, rfl, rfl, ⟨Nat.lt_of_lt_of_le hfull hle, ?_, ?_, ?_, ?_⟩⟩
    · cases rest with
      | nil => exact nextCycle_sendable contents next cycle
      | cons j rest => exact fun k hk => hs k (List.mem_cons_of_mem _ hk)
    · intro g _ hgroup
      cases rest with
      | nil => exact nextCycle_inGroup cycle hgroup
      | cons j rest => exact hgroup
    · intro hpast
      refine Or.inr (Or.inl ?_)
      cases rest with
      | nil =>
        obtain rfl := nextCycle_pastLast hpast
        trivial
      | cons j rest =>
        cases next with
        | none => trivial
        | some => exact hpast
    · exact fun _ => hfull
  | request next cycle attempt =>
    exact Or.inr (Or.inr (Or.inl ⟨next, cycle, attempt, rfl, rfl, rfl⟩))
  | abort => exact Or.inr (Or.inr (Or.inr ⟨rfl, rfl, rfl⟩))
  | raises hraises => exact absurd hraises (hs.not_raises hfits)

/-- What the receiver knows: the count, and a missing list of its group. Behind the last packet
nothing is missing that cannot be sent again, packet 0 apart. -/
structure Receiving.Fits (contents : List UInt8) (sender : Sender) (r : Receiving) : Prop where
  count : r.numPackets = SerialFileTransfer.numPackets contents
  aligned : r.groupStart % groupSize = 0
  nodup : r.missingPackets.Nodup
  missing : ∀ i ∈ r.missingPackets, i < r.groupStart + groupSize ∧
    i < SerialFileTransfer.numPackets contents
  pastLast : sender.PastLast → ∀ i ∈ r.missingPackets, i ≠ 0 → i < numFullPackets contents

/-- Without a list on its way, the sender is in the receiver's group; with one, the sender waits
for it and can do what it says. -/
def ReplyFits (contents : List UInt8) (s : Transfer) : Prop :=
  match s.reply with
  | none => ∀ r, s.receiver = .receiving r → s.sender.InGroup contents r.groupStart
  | some missingPackets => ∃ next cycle attempt, s.sender = .await next cycle attempt ∧
      (∀ i ∈ missingPackets, i < numFullPackets contents) ∧
      ∀ r, s.receiver = .receiving r →
        if missingPackets = [] then
          next = some r.groupStart ∧ r.groupStart ≤ numFullPackets contents
        else EndsGroup contents r.groupStart next

/-- A last packet that is a `SEND_ACK` to the receiver: both sides write, and neither reads. -/
def Transfer.Stuck (s : Transfer) : Prop :=
  s.reply ≠ none ∧ ∃ next cycle attempt, s.sender = .request next cycle attempt

/-- The invariant of a transfer that loses packets of the file only. -/
structure Transfer.Fits (contents : List UInt8) (s : Transfer) : Prop where
  sendable : s.sender.Sendable contents
  waiting : s.receiver = .waiting → s.sender = .sendCount
  receiving : ∀ r, s.receiver = .receiving r → r.Fits contents s.sender
  reply : ReplyFits contents s

theorem Receiving.Fits.good {sender : Sender} {r : Receiving} {p : SerialPacket}
    (hr : r.Fits contents sender) : (r.good p).Fits contents sender where
  count := hr.count
  aligned := hr.aligned
  nodup := hr.nodup.erase _
  missing i hi := hr.missing i (List.mem_of_mem_erase hi)
  pastLast hpast i hi := hr.pastLast hpast i (List.mem_of_mem_erase hi)

/-- A packet of the file is taken off the list, and the sender goes on. -/
theorem Receiving.Fits.writeChunk {sender sender' : Sender} {r : Receiving} {i : Nat}
    (hr : r.Fits contents sender) (hsends : SendsData contents sender sender' i) :
    ((r.good ⟨readChunk contents i, i⟩).writeChunk ⟨readChunk contents i, i⟩).Fits contents
      sender' where
  count := hr.count
  aligned := hr.aligned
  nodup := hr.nodup.erase _
  missing j hj := hr.missing j (List.mem_of_mem_erase hj)
  pastLast hpast j hj hzero := by
    have hmem : j ∈ r.missingPackets := List.mem_of_mem_erase hj
    have hbound := (hr.missing j hmem).2
    rcases hsends.pastLast hpast with hwhole | hpast' | ⟨_, hi⟩
    · omega
    · exact hr.pastLast hpast' j hmem hzero
    · -- the last packet is the one that has come
      have hne : j ≠ i := by
        rintro rfl
        exact (List.Nodup.not_mem_erase hr.nodup) hj
      have hone : SerialFileTransfer.numPackets contents ≤ numFullPackets contents + 1 := by
        unfold SerialFileTransfer.numPackets numFullPackets packetSize
        omega
      omega

/-- A packet of the file is lost, and the sender goes on. -/
theorem Receiving.Fits.lost {sender sender' : Sender} {r : Receiving} {i : Nat}
    (hr : r.Fits contents sender) (hsends : SendsData contents sender sender' i)
    (hkept : sender = .sendPartial → numFullPackets contents = 0) : r.Fits contents sender' where
  count := hr.count
  aligned := hr.aligned
  nodup := hr.nodup
  missing := hr.missing
  pastLast hpast j hj hzero := by
    have hbound := (hr.missing j hj).2
    rcases hsends.pastLast hpast with hwhole | hpast' | ⟨hsender, hi⟩
    · omega
    · exact hr.pastLast hpast' j hj hzero
    · have hnone := hkept hsender
      have hone : SerialFileTransfer.numPackets contents ≤ numFullPackets contents + 1 := by
        unfold SerialFileTransfer.numPackets numFullPackets packetSize
        omega
      omega

/-- The list a request is answered with, and the group it leaves the receiver in. -/
theorem fits_request {next : Option Nat} {cycle attempt : Nat} {r : Receiving}
    (hr : r.Fits contents (.request next cycle attempt))
    (hgroup : EndsGroup contents r.groupStart next) :
    Transfer.Fits contents ⟨.await next cycle attempt, (receivePacket r ⟨sendAck, 0⟩).2,
      (receivePacket r ⟨sendAck, 0⟩).1⟩ := by
  have hnot : sendAck ≠ abortFileTransfer := by decide
  have hgood := hr.good (p := ⟨sendAck, 0⟩)
  have hzero : 0 ∉ (r.good ⟨sendAck, 0⟩).missingPackets := List.Nodup.not_mem_erase hr.nodup
  have hstart : (r.good ⟨sendAck, 0⟩).groupStart = r.groupStart := rfl
  rw [← hstart] at hgroup
  rw [receivePacket, if_neg hnot, if_pos rfl]
  generalize r.good ⟨sendAck, 0⟩ = r₁ at hgood hzero hgroup
  -- what is listed can be sent again
  have hfull : ∀ i ∈ r₁.missingPackets, i < numFullPackets contents := by
    intro i hi
    obtain ⟨hwindow, _⟩ := hgood.missing i hi
    cases next with
    | some seqNum =>
      obtain ⟨hseq, hle⟩ := hgroup
      omega
    | none => exact hgood.pastLast trivial i hi fun h => hzero (h ▸ hi)
  by_cases hempty : r₁.missingPackets = []
  · have hreply : ∀ receiver : Receiver, (∀ r', receiver = .receiving r' →
          r'.Fits contents (.await next cycle attempt) ∧
          next = some r'.groupStart ∧ r'.groupStart ≤ numFullPackets contents) →
        receiver ≠ .waiting →
        Transfer.Fits contents ⟨.await next cycle attempt, receiver, some r₁.missingPackets⟩ := by
      intro receiver hreceiving hwaiting
      refine ⟨trivial, fun h => absurd h hwaiting, fun r' h => (hreceiving r' h).1, ?_⟩
      refine ⟨next, cycle, attempt, rfl, hfull, fun r' h => ?_⟩
      rw [if_pos hempty]
      exact (hreceiving r' h).2
    rw [Receiving.afterAck, if_pos hempty]
    by_cases hlast : r₁.receivedLastPacket = true
    · rw [if_pos hlast]
      exact hreply _ (fun r' h => by cases h) (by simp)
    · rw [if_neg hlast]
      by_cases hnone : group (r₁.groupStart + groupSize) r₁.numPackets = []
      · rw [if_pos hnone]
        exact hreply _ (fun r' h => by cases h) (by simp)
      · rw [if_neg hnone]
        refine hreply _ (fun r' h => ?_) (by simp)
        obtain rfl := Receiver.receiving.inj h
        -- there is a further group, so the sender is not past the last packet
        obtain ⟨i, hi⟩ := List.exists_mem_of_ne_nil _ hnone
        rw [hgood.count] at hi
        have hmore := mem_group.mp hi
        cases next with
        | none => exact absurd hgroup (by unfold EndsGroup; omega)
        | some seqNum =>
          obtain ⟨hseq, hle⟩ := hgroup
          refine ⟨⟨hgood.count, ?_, ?_, ?_, False.elim⟩, by rw [hseq], hseq ▸ hle⟩
          · show (r₁.groupStart + groupSize) % groupSize = 0
            rw [Nat.add_mod_right]
            exact hgood.aligned
          · exact List.nodup_range' ..
          · intro j hj
            have hj' : j ∈ group (r₁.groupStart + groupSize) r₁.numPackets := hj
            rw [hgood.count] at hj'
            exact (mem_group.mp hj').2
  · rw [Receiving.afterAck, if_neg hempty]
    refine ⟨trivial, fun h => (by cases h), fun r' h => ?_, ?_⟩
    · obtain rfl := Receiver.receiving.inj h
      have hpast : (Sender.await next cycle attempt).PastLast →
          (Sender.request next cycle attempt).PastLast := by
        cases next <;> exact id
      exact ⟨hgood.count, hgood.aligned, hgood.nodup, hgood.missing, hgood.pastLast ∘ hpast⟩
    · refine ⟨next, cycle, attempt, rfl, hfull, fun r' h => ?_⟩
      obtain rfl := Receiver.receiving.inj h
      rw [if_neg hempty]
      exact hgroup

/-- A packet of the file reaches the receiver in its loop. -/
theorem fits_data {sender sender' : Sender} {r : Receiving} {i : Nat}
    (hr : r.Fits contents sender) (hgroup : sender.InGroup contents r.groupStart)
    (hsend : sendStep contents sender = some (some ⟨readChunk contents i, i⟩, sender'))
    (hsends : SendsData contents sender sender' i) :
    let t : Transfer := ⟨sender', (receivePacket r ⟨readChunk contents i, i⟩).2,
      (receivePacket r ⟨readChunk contents i, i⟩).1⟩
    t.Fits contents ∨ t.Stuck := by
  intro t
  by_cases habort : readChunk contents i = abortFileTransfer
  · left
    have ht : t = ⟨sender', .returned false (r.good ⟨readChunk contents i, i⟩).file, none⟩ := by
      simp only [t, receivePacket, habort, if_true]
    rw [ht]
    exact ⟨hsends.sendable, fun h => (by cases h), fun r' h => (by cases h), fun r' h => by cases h⟩
  · by_cases hack : readChunk contents i = sendAck
    · -- a chunk of ten bytes is the last one
      right
      have hten : (readChunk contents i).length = 10 := by
        rw [hack]
        decide
      have hreply : t.reply ≠ none := by
        simp [t, receivePacket, hack, show sendAck ≠ abortFileTransfer by decide]
      have hlastShort : sender = .sendPartial := by
        by_contra hne
        have hfull := hsends.whole hne
        have hlength := length_readChunk contents i
        unfold numFullPackets packetSize at hfull
        unfold packetSize at hlength
        omega
      have hwrites := sendStep_writes hsend
      rw [hlastShort] at hwrites
      generalize hpacket : some (SerialPacket.mk (readChunk contents i) i) = packet at hwrites
      cases hwrites with
      | short _ => exact ⟨hreply, none, 0, 0, rfl⟩
      | raises _ => cases hpacket
    · left
      have ht : t = ⟨sender', .receiving ((r.good ⟨readChunk contents i, i⟩).writeChunk
          ⟨readChunk contents i, i⟩), none⟩ := by
        simp only [t, receivePacket, habort, hack, if_false]
      rw [ht]
      refine ⟨hsends.sendable, fun h => (by cases h), fun r' h => ?_, fun r' h => ?_⟩
      · obtain rfl := Receiver.receiving.inj h
        exact hr.writeChunk hsends
      · obtain rfl := Receiver.receiving.inj h
        exact hsends.inGroup _ hr.aligned hgroup

/-- A packet of the file goes where the receiver no longer is, or is lost. -/
theorem Transfer.Fits.sends {s : Transfer} {sender' : Sender} {i : Nat} (hs : s.Fits contents)
    (hfree : s.reply = none) (hsends : SendsData contents s.sender sender' i)
    (hdata : s.sender.isData = true)
    (hkept : ∀ r, s.receiver = .receiving r → s.sender = .sendPartial →
      numFullPackets contents = 0) : Transfer.Fits contents ⟨sender', s.receiver, none⟩ where
  sendable := hsends.sendable
  waiting h := by
    have hcount := hs.waiting h
    rw [hcount] at hdata
    cases hdata
  receiving r h := (hs.receiving r h).lost hsends (hkept r h)
  reply r h := by
    have hreply := hs.reply
    unfold ReplyFits at hreply
    rw [hfree] at hreply
    exact hsends.inGroup _ (hs.receiving r h).aligned (hreply r h)

/-- The count reaches the receiver. -/
theorem fits_count (hfits : numPackets contents ≤ 256 ^ 2) : Transfer.Fits contents
    ⟨sendFrom contents 0, (receiveStep .waiting ⟨toBytes (numPackets contents), 0⟩).2,
      (receiveStep .waiting ⟨toBytes (numPackets contents), 0⟩).1⟩ := by
  have hcount : numPackets contents < 256 ^ 4 := Nat.lt_of_le_of_lt hfits (by decide)
  have hsendable := sendFrom_sendable contents 0
  simp only [receiveStep, fromBytes_toBytes hcount]
  by_cases hempty : group 0 (numPackets contents) = []
  · rw [if_pos hempty]
    exact ⟨hsendable, fun h => (by cases h), fun r h => (by cases h), fun r h => by cases h⟩
  · rw [if_neg hempty]
    refine ⟨hsendable, fun h => (by cases h), fun r h => ?_, fun r h => ?_⟩
    · obtain rfl := Receiver.receiving.inj h
      refine ⟨rfl, rfl, List.nodup_range' .., fun i hi => (mem_group.mp hi).2, fun hpast i hi _ => ?_⟩
      rw [← sendFrom_pastLast hpast]
      exact (mem_group.mp hi).2.2
    · obtain rfl := Receiver.receiving.inj h
      exact sendFrom_inGroup (Nat.zero_le _) (Nat.le_refl _) (show 0 < 0 + groupSize by decide)

/-- A step of a sender that waits for a list, where none is on its way any more. -/
theorem Transfer.Fits.waits {s : Transfer} {next : Option Nat} {cycle attempt : Nat}
    {sender' : Sender} (hs : s.Fits contents) (hsender : s.sender = .await next cycle attempt)
    (hsendable : sender'.Sendable contents)
    (hreceiving : ∀ r, s.receiver = .receiving r → sender'.InGroup contents r.groupStart ∧
      (sender'.PastLast → next = none ∨ numPackets contents = numFullPackets contents)) :
    Transfer.Fits contents ⟨sender', s.receiver, none⟩ where
  sendable := hsendable
  waiting h := by
    have hcount := hs.waiting h
    rw [hsender] at hcount
    cases hcount
  receiving r h := by
    have hr := hs.receiving r h
    refine ⟨hr.count, hr.aligned, hr.nodup, hr.missing, fun hpast i hi hzero => ?_⟩
    rcases (hreceiving r h).2 hpast with rfl | hwhole
    · refine hr.pastLast ?_ i hi hzero
      rw [hsender]
      trivial
    · have hbound := (hr.missing i hi).2
      omega
  reply r h := (hreceiving r h).1

/-- A list is on its way only while the sender waits for it. -/
theorem Transfer.Fits.reply_none {s : Transfer} {packet : Option SerialPacket} {sender' : Sender}
    (hs : s.Fits contents) (hsend : sendStep contents s.sender = some (packet, sender')) :
    s.reply = none := by
  cases hsome : s.reply with
  | none => rfl
  | some missingPackets =>
    have hreply := hs.reply
    unfold ReplyFits at hreply
    rw [hsome] at hreply
    obtain ⟨next, cycle, attempt, hawait, _⟩ := hreply
    rw [hawait] at hsend
    cases hsend

theorem Transfer.Fits.inGroup {s : Transfer} {r : Receiving} (hs : s.Fits contents)
    (hfree : s.reply = none) (hr : s.receiver = .receiving r) :
    s.sender.InGroup contents r.groupStart := by
  have hreply := hs.reply
  unfold ReplyFits at hreply
  rw [hfree] at hreply
  exact hreply r hr

/-- Where the receiver is gone, the sender can go on as it likes. -/
theorem fits_returned {sender : Sender} (hsendable : sender.Sendable contents) (result : Bool)
    (file : List UInt8) : Transfer.Fits contents ⟨sender, .returned result file, none⟩ :=
  ⟨hsendable, fun h => (by cases h), fun r h => (by cases h), fun r h => by cases h⟩

theorem fits_raised {sender : Sender} (hsendable : sender.Sendable contents) :
    Transfer.Fits contents ⟨sender, .raised, none⟩ :=
  ⟨hsendable, fun h => (by cases h), fun r h => (by cases h), fun r h => by cases h⟩

/-- A packet of the file is lost. -/
theorem Transfer.Fits.lost {s : Transfer} {p : SerialPacket} {sender : Sender}
    (hfits : numPackets contents ≤ 256 ^ 2) (hs : s.Fits contents) (hdata : s.sender.isData = true)
    (hkeeps : numFullPackets contents < numPackets contents →
      KeepsLast contents s (.write false))
    (hsend : sendStep contents s.sender = some (some p, sender)) :
    Transfer.Fits contents { s with sender } := by
  have hfree := hs.reply_none hsend
  rcases sendStep_sendable hfits hs.sendable hsend with
    ⟨i, _, _, hsends⟩ | ⟨hsender, _⟩ | ⟨_, _, _, hsender, _⟩ | ⟨hsender, _⟩
  · rw [hfree]
    refine hs.sends hfree hsends hdata fun r _ hlastShort => hkeeps ?_ hlastShort rfl
    have hsendable := hs.sendable
    rw [hlastShort] at hsendable
    exact hsendable
  -- the others are not packets of the file
  · rw [hsender] at hdata
    cases hdata
  · rw [hsender] at hdata
    cases hdata
  · rw [hsender] at hdata
    cases hdata

/-- A packet arrives. -/
theorem Transfer.Fits.arrives {s : Transfer} {p : SerialPacket} {sender : Sender}
    (hfits : numPackets contents ≤ 256 ^ 2) (hs : s.Fits contents)
    (hsend : sendStep contents s.sender = some (some p, sender)) :
    let t : Transfer := ⟨sender, (receiveStep s.receiver p).2, (receiveStep s.receiver p).1⟩
    t.Fits contents ∨ t.Stuck := by
  have hfree := hs.reply_none hsend
  have hgroup {r : Receiving} (hr : s.receiver = .receiving r) := hs.inGroup hfree hr
  rcases sendStep_sendable hfits hs.sendable hsend with ⟨i, hp, hdata, hsends⟩ |
    ⟨hsender, hp, rfl⟩ | ⟨next, cycle, attempt, hsender, hp, rfl⟩ | ⟨hsender, hp, rfl⟩
  all_goals obtain rfl := Option.some.inj hp
  · -- a packet of the file
    cases hreceiver : s.receiver with
    | receiving r => exact fits_data (hs.receiving r hreceiver) (hgroup hreceiver) hsend hsends
    | waiting =>
      rw [hs.waiting hreceiver] at hdata
      cases hdata
    | returned result file => exact Or.inl (fits_returned hsends.sendable result file)
    | raised => exact Or.inl (fits_raised hsends.sendable)
  · -- the count
    left
    have hsendable := sendFrom_sendable contents 0
    cases hreceiver : s.receiver with
    | waiting => exact fits_count hfits
    | receiving r =>
      have hnone := hgroup hreceiver
      rw [hsender] at hnone
      exact hnone.elim
    | returned result file => exact fits_returned hsendable result file
    | raised => exact fits_raised hsendable
  · -- a request for the missing packets
    left
    cases hreceiver : s.receiver with
    | waiting =>
      have hcount := hs.waiting hreceiver
      rw [hsender] at hcount
      cases hcount
    | receiving r =>
      have hr := hs.receiving r hreceiver
      have hends := hgroup hreceiver
      rw [hsender] at hr hends
      exact fits_request hr hends
    | returned result file => exact fits_returned (by trivial) result file
    | raised => exact fits_raised (by trivial)
  · -- the abort command
    left
    cases hreceiver : s.receiver with
    | waiting =>
      have hcount := hs.waiting hreceiver
      rw [hsender] at hcount
      cases hcount
    | receiving r =>
      simp only [receiveStep, receivePacket, if_true]
      exact fits_returned (by trivial) _ _
    | returned result file => exact fits_returned (by trivial) result file
    | raised => exact fits_raised (by trivial)

/-- A list of missing packets arrives. -/
theorem Transfer.Fits.answered {s : Transfer} {missingPackets : List Nat} {next : Option Nat}
    {cycle attempt : Nat} (hs : s.Fits contents) (hsome : s.reply = some missingPackets)
    (hsender : s.sender = .await next cycle attempt) : Transfer.Fits contents
      ⟨handleMissing contents next cycle missingPackets, s.receiver, none⟩ := by
  have hreply := hs.reply
  unfold ReplyFits at hreply
  rw [hsome] at hreply
  obtain ⟨next', cycle', attempt', hsender', hfull, hgroup⟩ := hreply
  obtain ⟨rfl, rfl, rfl⟩ := Sender.await.inj (hsender.symm.trans hsender')
  cases missingPackets with
  | nil =>
    refine hs.waits hsender (sendNext_sendable contents next) fun r hr => ?_
    obtain ⟨rfl, hle⟩ := hgroup r hr
    exact ⟨sendFrom_inGroup hle (Nat.le_refl _) (Nat.lt_add_of_pos_right (by decide)),
      fun hpast => Or.inr (sendFrom_pastLast hpast)⟩
  | cons i rest =>
    refine hs.waits hsender hfull fun r hr => ⟨hgroup r hr, fun hpast => Or.inl ?_⟩
    cases next with
    | none => rfl
    | some => exact hpast.elim

/-- No list arrives in time. -/
theorem Transfer.Fits.unanswered {s : Transfer} {next : Option Nat} {cycle attempt : Nat}
    (hs : s.Fits contents) (hfree : s.reply = none)
    (hsender : s.sender = .await next cycle attempt) :
    Transfer.Fits contents { s with sender := noResponse next cycle attempt } := by
  rw [hfree]
  refine hs.waits hsender ?_ fun r hr => ?_
  · unfold noResponse
    split
    · trivial
    · trivial
  · have hgroup := hs.inGroup hfree hr
    rw [hsender] at hgroup
    unfold noResponse
    split
    · refine ⟨hgroup, fun hpast => Or.inl ?_⟩
      cases next with
      | none => rfl
      | some => exact hpast.elim
    · exact ⟨trivial, False.elim⟩

/-- What the receiver reads is no packet. -/
theorem Transfer.Fits.bad {s : Transfer} (hs : s.Fits contents) (hfree : s.reply = none) :
    Transfer.Fits contents { s with receiver := receiveBad s.receiver } := by
  rw [hfree]
  cases hreceiver : s.receiver with
  | receiving r =>
    have hr := hs.receiving r hreceiver
    have hgroup := hs.inGroup hfree hreceiver
    simp only [receiveBad]
    split
    · refine ⟨hs.sendable, fun h => (by cases h), fun r' h => ?_, fun r' h => ?_⟩
      · obtain rfl := Receiver.receiving.inj h
        exact ⟨hr.count, hr.aligned, hr.nodup, hr.missing, hr.pastLast⟩
      · obtain rfl := Receiver.receiving.inj h
        exact hgroup
    · exact fits_returned hs.sendable _ _
  | waiting =>
    exact ⟨hs.sendable, fun _ => hs.waiting hreceiver, fun r' h => (by cases h),
      fun r' h => by cases h⟩
  | returned result file => exact fits_returned hs.sendable result file
  | raised => exact fits_raised hs.sendable

/-- **One step** that loses packets of the file only, and not a short last one. -/
theorem Transfer.Fits.step {s s' : Transfer} {e : TransferEvent}
    (hfits : numPackets contents ≤ 256 ^ 2) (hs : s.Fits contents) (he : OnlyDataLost s e)
    (hkeeps : numFullPackets contents < numPackets contents → KeepsLast contents s e)
    (h : SerialFileTransfer.step contents s e = some s') :
    s'.Fits contents ∨ s'.Stuck := by
  cases step_moves h with
  | raises hsend =>
    rcases sendStep_sendable hfits hs.sendable hsend with
      ⟨_, hp, _⟩ | ⟨_, hp, _⟩ | ⟨_, _, _, _, hp, _⟩ | ⟨_, hp, _⟩
    all_goals cases hp
  | lost hsend => exact Or.inl (hs.lost hfits (he rfl) hkeeps hsend)
  | arrives hsend _ => exact hs.arrives hfits hsend
  | answered hreply hsender => exact Or.inl (hs.answered hreply hsender)
  | answerLost _ => cases he
  | unanswered hsender => exact Or.inl (hs.unanswered he hsender)
  | bad hfree => exact Or.inl (hs.bad hfree)

/-- A stuck transfer stays stuck. -/
theorem Transfer.Stuck.step {s s' : Transfer} {e : TransferEvent} (hs : s.Stuck)
    (he : OnlyDataLost s e) (h : SerialFileTransfer.step contents s e = some s') : False := by
  obtain ⟨hreply, next, cycle, attempt, hsender⟩ := hs
  cases step_moves h with
  | raises hsend =>
    rw [hsender] at hsend
    cases hsend
  | lost _ =>
    have hdata := he rfl
    rw [hsender] at hdata
    cases hdata
  | arrives _ hfree => exact hreply hfree
  | answered _ hawait =>
    rw [hsender] at hawait
    cases hawait
  | answerLost _ => cases he
  | unanswered _ => exact hreply he
  | bad hfree => exact hreply hfree

/-- **No step of `send_file` raises** where the count fits the packet numbers, nothing but
packets of the file is lost, and a short last packet is not. -/
theorem sendFile_not_raised (hfits : numPackets contents ≤ 256 ^ 2) {events : List TransferEvent}
    {t : Transfer} (hrun : run (step contents) .start events = some t)
    (hok : AllSteps (step contents) (fun s e => OnlyDataLost s e ∧
      (numFullPackets contents < numPackets contents → KeepsLast contents s e)) .start events) :
    t.sender ≠ .raised := by
  have hstart : Transfer.start.Fits contents :=
    ⟨trivial, fun _ => rfl, fun r h => (by cases h), fun r h => by cases h⟩
  have hinv : t.Fits contents ∨ t.Stuck := by
    refine invariant (step contents) (I := fun s => s.Fits contents ∨ s.Stuck)
      (fun s e s' he hs hstep => ?_) hok hrun (Or.inl hstart)
    rcases hs with hs | hs
    · exact hs.step hfits he.1 he.2 hstep
    · exact (hs.step he.1 hstep).elim
  rcases hinv with ht | ⟨_, next, cycle, attempt, hsender⟩
  · intro hraised
    have hsendable := ht.sendable
    rw [hraised] at hsendable
    exact hsendable
  · rw [hsender]
    simp

end Raises

end SerialFileTransfer

end Samwise
