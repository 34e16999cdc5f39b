import Samwise.Payload.SerialFileTransfer

/-!
# Samwise — what a received file holds

When `receive_file` returns `True`, is the local file the sender's? Two things can go wrong
without notice: a packet that is not the count is taken for it, and a `SEND_ACK`, which is
sent with sequence number 0, is taken for packet 0 as far as the missing list goes. Where
neither happens, the file is the sender's: chunks are written in their places, the window of
the receiver is never behind what the sender sends, and a group is left only once all of it
is written.
-/

namespace Samwise

namespace SerialFileTransfer

open Run

/-! ## Writing at an offset -/

theorem length_writeAt {file chunk : List UInt8} {offset n : Nat} (hfile : file.length ≤ n)
    (hchunk : offset + chunk.length ≤ n) : (writeAt file offset chunk).length ≤ n := by
  unfold writeAt
  split
  · exact hfile
  · simp only [List.length_append, List.length_take, List.length_replicate, List.length_drop]
    omega

theorem getElem?_writeAt_of_mem {file chunk : List UInt8} {offset k : Nat} (hle : offset ≤ k)
    (hlt : k < offset + chunk.length) : (writeAt file offset chunk)[k]? = chunk[k - offset]? := by
  have hne : chunk ≠ [] := by
    intro heq
    rw [heq, List.length_nil] at hlt
    omega
  have hfront : (file.take offset ++ List.replicate (offset - file.length) (0 : UInt8)).length
      = offset := by
    simp only [List.length_append, List.length_take, List.length_replicate]
    omega
  rw [writeAt, if_neg hne, List.append_assoc _ chunk,
    List.getElem?_append_right (by omega), hfront, List.getElem?_append_left (by omega)]

theorem getElem?_writeAt_of_notMem {file chunk : List UInt8} {offset k : Nat}
    (hk : k < file.length) (h : k < offset ∨ offset + chunk.length ≤ k) :
    (writeAt file offset chunk)[k]? = file[k]? := by
  unfold writeAt
  split
  · rfl
  · rcases h with hlt | hge
    · have hfront : k < (file.take offset).length := by
        rw [List.length_take]
        omega
      rw [List.append_assoc, List.append_assoc, List.getElem?_append_left hfront,
        List.getElem?_take_of_lt hlt]
    · have hfront : (file.take offset ++ List.replicate (offset - file.length) (0 : UInt8) ++
          chunk).length = offset + chunk.length := by
        simp only [List.length_append, List.length_take, List.length_replicate]
        omega
      rw [List.getElem?_append_right (by omega), hfront, List.getElem?_drop]
      congr 1
      omega

/-! ## Chunks -/

section Chunks

variable (contents : List UInt8)

/-- The bytes of a chunk are in the file. -/
def Written (file : List UInt8) (seqNum : Nat) : Prop :=
  ∀ k, seqNum * packetSize ≤ k → k < (seqNum + 1) * packetSize → k < contents.length →
    file[k]? = contents[k]?

variable {contents}

theorem length_readChunk (contents : List UInt8) (seqNum : Nat) : (readChunk contents seqNum).length
    = min packetSize (contents.length - seqNum * packetSize) := by
  rw [readChunk, List.length_take, List.length_drop]

theorem Written.writeAt (contents file : List UInt8) (seqNum : Nat) :
    Written contents (writeAt file (seqNum * packetSize) (readChunk contents seqNum)) seqNum ∧
      ∀ i, Written contents file i →
        Written contents (SerialFileTransfer.writeAt file (seqNum * packetSize)
          (readChunk contents seqNum)) i := by
  have hchunk := length_readChunk contents seqNum
  have hself : Written contents (SerialFileTransfer.writeAt file (seqNum * packetSize)
      (readChunk contents seqNum)) seqNum := by
    intro k hle hlt hk
    rw [Nat.succ_mul] at hlt
    rw [getElem?_writeAt_of_mem hle (by omega), readChunk, List.getElem?_take_of_lt (by omega),
      List.getElem?_drop]
    congr 1
    omega
  refine ⟨hself, fun i hi => ?_⟩
  by_cases heq : i = seqNum
  · rw [heq]
    exact hself
  · intro k hle hlt hk
    have hbyte : file[k]? = contents[k]? := hi k hle hlt hk
    have hlong : k < file.length := by
      rw [List.getElem?_eq_getElem hk] at hbyte
      exact (List.getElem?_eq_some_iff.mp hbyte).1
    -- the two chunks do not overlap
    have hapart : k < seqNum * packetSize ∨
        seqNum * packetSize + (readChunk contents seqNum).length ≤ k := by
      rw [Nat.succ_mul] at hlt
      rcases Nat.lt_or_gt_of_ne heq with h | h
      · have := Nat.mul_le_mul_right packetSize h
        rw [Nat.succ_mul] at this
        omega
      · have := Nat.mul_le_mul_right packetSize h
        rw [Nat.succ_mul] at this
        omega
    rw [getElem?_writeAt_of_notMem hlong hapart, hbyte]

/-- A file in which all chunks are written is the sender's. -/
theorem eq_of_written {file : List UInt8} (hlen : file.length ≤ contents.length)
    (h : ∀ i < numPackets contents, Written contents file i) : file = contents := by
  apply List.ext_getElem?
  intro k
  by_cases hk : k < contents.length
  · refine h (k / packetSize) ?_ k (Nat.div_mul_le_self _ _) ?_ hk
    · unfold numPackets packetSize
      omega
    · unfold packetSize
      omega
  · rw [List.getElem?_eq_none (by omega), List.getElem?_eq_none (by omega)]

theorem fromBytes_toBytes {n : Nat} (h : n < 256 ^ 4) : fromBytes (toBytes n) = n := by
  rw [fromBytes, toBytes, List.reverse_reverse, LittleEndian.decode_encode, Nat.mod_eq_of_lt h]

theorem mem_group {i groupStart n : Nat} :
    i ∈ group groupStart n ↔ groupStart ≤ i ∧ i < groupStart + groupSize ∧ i < n := by
  rw [group, List.mem_range'_1]
  omega

end Chunks

/-! ## The sender behind the receiver -/

section Sender

variable (contents : List UInt8) (groupStart : Nat)

/-- Where the loop over the full packets goes on behind a request. -/
def Sender.next : Sender → Option Nat
  | .request next _ _ => next
  | .await next _ _ => next
  | .resend next _ _ _ => next
  | _ => none

/-- The sender has the count behind it, and no packet before it that is behind the window of
the receiver. -/
def Sender.Behind : Sender → Prop
  | .sendCount => False
  | .sendFull seqNum => seqNum < numFullPackets contents ∧ seqNum < groupStart + groupSize
  | .sendPartial => numFullPackets contents < numPackets contents ∧
      numFullPackets contents < groupStart + groupSize
  | .request next _ _ => ∀ seqNum, next = some seqNum → seqNum ≤ groupStart + groupSize
  | .await next _ _ => ∀ seqNum, next = some seqNum → seqNum ≤ groupStart + groupSize
  | .resend next _ i rest => (∀ seqNum, next = some seqNum → seqNum ≤ groupStart + groupSize) ∧
      ∀ seqNum ∈ i :: rest, seqNum < groupStart + groupSize
  | _ => True

variable {contents groupStart}

theorem numFullPackets_le (contents : List UInt8) : numFullPackets contents ≤ numPackets contents := by
  unfold numFullPackets numPackets packetSize
  omega

theorem sendFrom_behind {seqNum : Nat} (h : seqNum < groupStart + groupSize) :
    (sendFrom contents seqNum).Behind contents groupStart := by
  have hle := numFullPackets_le contents
  unfold sendFrom
  split
  · next hfull => exact ⟨hfull, h⟩
  · split
    · exact ⟨by omega, by omega⟩
    · intro seqNum hnext
      cases hnext

theorem Sender.Behind.mono {sender : Sender} {groupStart' : Nat}
    (h : sender.Behind contents groupStart) (hle : groupStart ≤ groupStart') :
    sender.Behind contents groupStart' := by
  cases sender with
  | sendFull seqNum => exact ⟨h.1, Nat.lt_of_lt_of_le h.2 (by omega)⟩
  | sendPartial => exact ⟨h.1, Nat.lt_of_lt_of_le h.2 (by omega)⟩
  | request next cycle attempt =>
    exact fun seqNum hn => Nat.le_trans (h seqNum hn) (by omega)
  | await next cycle attempt =>
    exact fun seqNum hn => Nat.le_trans (h seqNum hn) (by omega)
  | resend next cycle i rest =>
    exact ⟨fun seqNum hn => Nat.le_trans (h.1 seqNum hn) (by omega),
      fun seqNum hmem => Nat.lt_of_lt_of_le (h.2 seqNum hmem) (by omega)⟩
  | _ => exact h

theorem nextCycle_behind {next : Option Nat} {cycle : Nat}
    (h : ∀ seqNum, next = some seqNum → seqNum ≤ groupStart + groupSize) :
    (nextCycle next cycle).Behind contents groupStart := by
  unfold nextCycle
  split
  · exact h
  · trivial

theorem noResponse_behind {next : Option Nat} {cycle attempt : Nat}
    (h : ∀ seqNum, next = some seqNum → seqNum ≤ groupStart + groupSize) :
    (noResponse next cycle attempt).Behind contents groupStart := by
  unfold noResponse
  split
  · exact h
  · trivial

/-- An empty list sends the loop on, any other one its packets again. -/
theorem handleMissing_behind {next : Option Nat} {cycle : Nat} {missingPackets : List Nat}
    (hnext : ∀ seqNum, next = some seqNum → seqNum ≤ groupStart + groupSize)
    (hempty : missingPackets = [] → ∀ seqNum, next = some seqNum →
      seqNum < groupStart + groupSize)
    (hmissing : ∀ seqNum ∈ missingPackets, seqNum < groupStart + groupSize) :
    (handleMissing contents next cycle missingPackets).Behind contents groupStart := by
  cases missingPackets with
  | nil =>
    cases next with
    | none => trivial
    | some seqNum => exact sendFrom_behind (hempty rfl seqNum rfl)
  | cons i rest => exact ⟨hnext, hmissing⟩

/-- What the sender writes: a chunk of the window, a request, or the end. -/
theorem sendStep_cases {sender sender' : Sender} {packet : Option SerialPacket}
    (hsender : sender.Behind contents groupStart) (haligned : groupStart % groupSize = 0)
    (h : sendStep contents sender = some (packet, sender')) :
    sender'.Behind contents groupStart ∧ ∀ p, packet = some p →
      ((∃ i, p = ⟨readChunk contents i, i⟩ ∧ i < numPackets contents ∧
          i < groupStart + groupSize) ∨
        (p = ⟨sendAck, 0⟩ ∧ ∃ next cycle attempt,
          sender = .request next cycle attempt ∧ sender' = .await next cycle attempt) ∨
        p = ⟨abortFileTransfer, 0⟩) := by
  have hle := numFullPackets_le contents
  unfold groupSize at haligned
  cases sendStep_writes h with
  | count _ => exact hsender.elim
  | @full seqNum _ =>
    obtain ⟨hfull, hwindow⟩ := hsender
    refine ⟨?_, fun p hp => ?_⟩
    · unfold groupSize at hwindow ⊢
      split
      · intro next hnext
        obtain rfl := Option.some.inj hnext
        unfold groupSize
        omega
      · -- not the last packet of a group, so the next one is in the same
        refine sendFrom_behind ?_
        unfold groupSize
        omega
    · obtain rfl := Option.some.inj hp
      exact Or.inl ⟨seqNum, rfl, Nat.lt_of_lt_of_le hfull hle, hwindow⟩
  | short _ =>
    obtain ⟨hshort, hwindow⟩ := hsender
    refine ⟨fun next hnext => (by cases hnext), fun p hp => ?_⟩
    obtain rfl := Option.some.inj hp
    exact Or.inl ⟨_, rfl, hshort, hwindow⟩
  | request next cycle attempt =>
    refine ⟨hsender, fun p hp => ?_⟩
    obtain rfl := Option.some.inj hp
    exact Or.inr (Or.inl ⟨rfl, next, cycle, attempt, rfl, rfl⟩)
  | @again next cycle i rest hwhole _ =>
    obtain ⟨hnext, hrest⟩ := hsender
    refine ⟨?_, fun p hp => ?_⟩
    · cases rest with
      | nil => exact nextCycle_behind hnext
      | cons j rest => exact ⟨hnext, fun k hk => hrest k (List.mem_cons_of_mem _ hk)⟩
    · obtain rfl := Option.some.inj hp
      refine Or.inl ⟨i, rfl, ?_, hrest i List.mem_cons_self⟩
      -- a whole chunk lies in the file
      have hlength := length_readChunk contents i
      unfold numPackets
      unfold packetSize at *
      omega
  | abort =>
    refine ⟨trivial, fun p hp => ?_⟩
    obtain rfl := Option.some.inj hp
    exact Or.inr (Or.inr rfl)
  | raises _ => exact ⟨trivial, fun p hp => by cases hp⟩

end Sender

/-! ## The invariant -/

section Invariant

variable {contents : List UInt8}

/-- The receiver knows the count; a packet up to the end of its window that is not missing is
written; it has seen the last packet only with the last window. -/
structure Receiving.Sound (contents : List UInt8) (r : Receiving) : Prop where
  count : r.numPackets = SerialFileTransfer.numPackets contents
  aligned : r.groupStart % groupSize = 0
  missing : ∀ i ∈ r.missingPackets, i < r.groupStart + groupSize
  last : r.receivedLastPacket = true →
    SerialFileTransfer.numPackets contents ≤ r.groupStart + groupSize
  written : ∀ i < SerialFileTransfer.numPackets contents, i < r.groupStart + groupSize →
    i ∉ r.missingPackets → Written contents r.file i
  length : r.file.length ≤ contents.length

/-- The sender asks for a list, or has given up. -/
def Sender.Asking : Sender → Prop
  | .request _ _ _ => True
  | .await _ _ _ => True
  | .abort => True
  | .finished => True
  | _ => False

/-- A list on its way to the sender: it is of the receiver's window, it is on its way only
while the sender asks for it, and an empty one says that the receiver has moved on. -/
def ReplySound (groupStart : Nat) (sender : Sender) (reply : Option (List Nat)) : Prop :=
  ∀ missingPackets, reply = some missingPackets →
    (∀ i ∈ missingPackets, i < groupStart + groupSize) ∧
    (missingPackets = [] → ∀ seqNum, sender.next = some seqNum →
      seqNum < groupStart + groupSize) ∧
    sender.Asking

/-- The invariant of a transfer. -/
structure Transfer.Sound (contents : List UInt8) (s : Transfer) : Prop where
  waiting : s.receiver = .waiting → s.reply = none
  receiving : ∀ r, s.receiver = .receiving r → r.Sound contents ∧
    s.sender.Behind contents r.groupStart ∧ ReplySound r.groupStart s.sender s.reply
  returned : ∀ file, s.receiver = .returned true file → file = contents

/-- Nothing deceives the receiver: the first packet it gets is the count, and no `SEND_ACK`
with the sequence number of a missing packet reaches it. -/
def Undeceived (s : Transfer) (e : TransferEvent) : Prop :=
  e = .write true →
    match s.receiver with
    | .waiting => s.sender = .sendCount
    | .receiving r => (∃ next cycle attempt, s.sender = .request next cycle attempt) →
        0 ∉ r.missingPackets
    | _ => True

/-- No chunk of the file is one of the two command strings. -/
def NoCommands (contents : List UInt8) : Prop :=
  ∀ i, readChunk contents i ≠ sendAck ∧ readChunk contents i ≠ abortFileTransfer

/-- A chunk of the window is written where it belongs. -/
theorem Receiving.Sound.writeChunk {r : Receiving} {i : Nat} (hr : r.Sound contents)
    (hi : i < SerialFileTransfer.numPackets contents)
    (hwindow : i < r.groupStart + groupSize) :
    ((r.good ⟨readChunk contents i, i⟩).writeChunk ⟨readChunk contents i, i⟩).Sound contents := by
  obtain ⟨hself, hothers⟩ := Written.writeAt contents r.file i
  constructor
  · exact hr.count
  · exact hr.aligned
  · exact fun j hj => hr.missing j (List.mem_of_mem_erase hj)
  · intro hlast
    rcases (Bool.or_eq_true _ _).mp hlast with hlast | hnow
    · exact hr.last hlast
    · -- the last packet has come: the window holds the end of the file
      have hcount := hr.count
      have heq : i = r.numPackets - 1 := of_decide_eq_true hnow
      show SerialFileTransfer.numPackets contents ≤ r.groupStart + groupSize
      omega
  · -- what is off the list now is chunk `i` or was off it before
    intro j hj hjwindow hjmissing
    by_cases heq : j = i
    · rw [heq]
      exact hself
    · refine hothers j (hr.written j hj hjwindow fun hmem => hjmissing ?_)
      exact (List.mem_erase_of_ne heq).mpr hmem
  · refine length_writeAt hr.length ?_
    have hlength := length_readChunk contents i
    unfold SerialFileTransfer.numPackets at hi
    show i * packetSize + (readChunk contents i).length ≤ contents.length
    unfold packetSize at *
    omega

/-- A packet with a number that is not missing changes no more than the count of bad ones. -/
theorem Receiving.Sound.good {r : Receiving} {p : SerialPacket} (hr : r.Sound contents)
    (hp : p.seqNum ∉ r.missingPackets) : (r.good p).Sound contents ∧
      (r.good p).missingPackets = r.missingPackets := by
  have herase : r.missingPackets.erase p.seqNum = r.missingPackets := List.erase_of_not_mem hp
  refine ⟨⟨hr.count, hr.aligned, ?_, hr.last, ?_, hr.length⟩, herase⟩
  · show ∀ i ∈ r.missingPackets.erase p.seqNum, _
    rw [herase]
    exact hr.missing
  · show ∀ i < _, _ → i ∉ r.missingPackets.erase p.seqNum → _
    rw [herase]
    exact hr.written

/-- **Behind the missing list.** An empty one ends the transfer with the sender's file, or
moves the window on by a group. -/
theorem Receiving.Sound.afterAck {r : Receiving} (hr : r.Sound contents) :
    match r.afterAck with
    | .waiting => False
    | .receiving r' => r'.Sound contents ∧ r.groupStart ≤ r'.groupStart ∧
        (r.missingPackets = [] → r'.groupStart = r.groupStart + groupSize)
    | .returned result file => result = true ∧ file = contents
    | .raised => True := by
  unfold Receiving.afterAck
  by_cases hempty : r.missingPackets = []
  · -- the whole window is written
    have hall : ∀ i < SerialFileTransfer.numPackets contents, i < r.groupStart + groupSize →
        Written contents r.file i := by
      intro i hi hwindow
      refine hr.written i hi hwindow ?_
      rw [hempty]
      exact List.not_mem_nil
    rw [if_pos hempty]
    by_cases hlast : r.receivedLastPacket = true
    · rw [if_pos hlast]
      have hcovers := hr.last hlast
      exact ⟨rfl, eq_of_written hr.length fun i hi => hall i hi (Nat.lt_of_lt_of_le hi hcovers)⟩
    · rw [if_neg hlast]
      by_cases hnone : group (r.groupStart + groupSize) r.numPackets = []
      · simp only [hnone, if_true]
      · simp only [hnone, if_false]
        refine ⟨⟨hr.count, ?_, ?_, fun hlast' => absurd hlast' hlast, ?_, hr.length⟩,
          Nat.le_add_right _ _, fun _ => trivial⟩
        · show (r.groupStart + groupSize) % groupSize = 0
          rw [Nat.add_mod_right]
          exact hr.aligned
        · exact fun i hi => (mem_group.mp hi).2.1
        · intro i hi hwindow hmissing
          -- not in the new group, so in the old window
          refine hall i hi (Nat.lt_of_not_le fun hge => hmissing (mem_group.mpr ⟨hge, hwindow, ?_⟩))
          rw [hr.count]
          exact hi
  · rw [if_neg hempty]
    exact ⟨hr, Nat.le_refl _, fun h => absurd h hempty⟩

theorem replySound_none (groupStart : Nat) (sender : Sender) :
    ReplySound groupStart sender none := by
  intro missingPackets hreply
  cases hreply

/-- A step of the sender alone. -/
theorem Transfer.Sound.of_sender {s : Transfer} {sender : Sender} {reply : Option (List Nat)}
    (hs : s.Sound contents) (hnone : s.reply = none → reply = none)
    (hreceiving : ∀ r : Receiving, r.Sound contents → s.sender.Behind contents r.groupStart →
      ReplySound r.groupStart s.sender s.reply →
      sender.Behind contents r.groupStart ∧ ReplySound r.groupStart sender reply) :
    Transfer.Sound contents ⟨sender, s.receiver, reply⟩ where
  waiting h := hnone (hs.waiting h)
  receiving r h := by
    obtain ⟨hr, hbehind, hreply⟩ := hs.receiving r h
    exact ⟨hr, hreceiving r hr hbehind hreply⟩
  returned := hs.returned

theorem Transfer.Sound.lost {s : Transfer} {sender' : Sender} {packet : Option SerialPacket}
    (hs : s.Sound contents) (hsend : sendStep contents s.sender = some (packet, sender')) :
    Transfer.Sound contents ⟨sender', s.receiver, s.reply⟩ := by
  refine hs.of_sender id fun r hr hbehind hreply => ?_
  refine ⟨(sendStep_cases hbehind hr.aligned hsend).1, fun missingPackets hsome => ?_⟩
  obtain ⟨hmissing, hempty, hasking⟩ := hreply missingPackets hsome
  have hwrites := sendStep_writes hsend
  generalize s.sender = sender at hwrites hempty hasking
  cases hwrites with
  | request next cycle attempt => exact ⟨hmissing, hempty, trivial⟩
  | abort => exact ⟨hmissing, fun _ seqNum hnext => (by cases hnext), trivial⟩
  | raises hraises =>
    cases sender with
    | request | await | abort | finished | raised => exact hraises.elim
    | _ => exact hasking.elim
  | _ =>
    -- nothing else is written while a list is on its way
    exact hasking.elim

/-- The count reaches the receiver first. -/
theorem sound_count {sender' : Sender} {p : SerialPacket}
    (hsend : sendStep contents .sendCount = some (some p, sender')) :
    Transfer.Sound contents
      ⟨sender', (receiveStep .waiting p).2, (receiveStep .waiting p).1⟩ := by
  cases sendStep_writes hsend with
  | count hfits =>
    unfold receiveStep
    simp only [fromBytes_toBytes hfits]
    split
    · exact ⟨fun _ => rfl, fun r h => (by cases h), fun file h => (by cases h)⟩
    · refine ⟨fun _ => rfl, fun r h => ?_, fun file h => (by cases h)⟩
      obtain rfl := Receiver.receiving.inj h
      refine ⟨⟨rfl, rfl, fun i hi => (mem_group.mp hi).2.1, fun h => (by cases h), ?_,
        Nat.zero_le _⟩, sendFrom_behind (show 0 < 0 + groupSize by decide), replySound_none _ _⟩
      intro i hi hwindow hmissing
      exact absurd (mem_group.mpr ⟨Nat.zero_le i, hwindow, hi⟩) hmissing

/-- A packet reaches the receiver in its loop. -/
theorem sound_receivePacket {sender sender' : Sender} {p : SerialPacket} {r : Receiving}
    (hcommands : NoCommands contents) (hr : r.Sound contents)
    (hbehind : sender.Behind contents r.groupStart)
    (hzero : (∃ next cycle attempt, sender = .request next cycle attempt) → 0 ∉ r.missingPackets)
    (hsend : sendStep contents sender = some (some p, sender')) :
    Transfer.Sound contents ⟨sender', (receivePacket r p).2, (receivePacket r p).1⟩ := by
  obtain ⟨hbehind', hpacket⟩ := sendStep_cases hbehind hr.aligned hsend
  rcases hpacket p rfl with ⟨i, rfl, hi, hwindow⟩ | ⟨rfl, next, cycle, attempt, rfl, rfl⟩ | rfl
  · -- a chunk of the window
    obtain ⟨hack, habort⟩ := hcommands i
    rw [receivePacket, if_neg habort, if_neg hack]
    refine ⟨fun _ => rfl, fun r' h => ?_, fun file h => (by cases h)⟩
    obtain rfl := Receiver.receiving.inj h
    exact ⟨hr.writeChunk hi hwindow, hbehind', replySound_none _ _⟩
  · -- `SEND_ACK`, with the number 0: the only packet that is no chunk and yet comes off the list
    obtain ⟨hgood, hmissing⟩ := hr.good (p := ⟨sendAck, 0⟩) (hzero ⟨next, cycle, attempt, rfl⟩)
    have hnot : sendAck ≠ abortFileTransfer := by decide
    rw [receivePacket, if_neg hnot, if_pos rfl]
    have hafter := hgood.afterAck
    refine ⟨fun h => ?_, fun r' h => ?_, fun file h => ?_⟩
    · rw [show (r.good ⟨sendAck, 0⟩).afterAck = .waiting from h] at hafter
      exact hafter.elim
    · rw [show (r.good ⟨sendAck, 0⟩).afterAck = .receiving r' from h] at hafter
      obtain ⟨hr', hle, hmoved⟩ := hafter
      have hwindow : r.groupStart ≤ r'.groupStart := hle
      refine ⟨hr', hbehind'.mono hwindow, fun missingPackets hsome => ?_⟩
      obtain rfl := Option.some.inj hsome
      refine ⟨fun i hi => ?_, fun hempty seqNum hnext => ?_, trivial⟩
      · exact Nat.lt_of_lt_of_le (hgood.missing i hi) (Nat.add_le_add_right hle _)
      · -- the list is empty because the window has moved on
        have hmoved' : r'.groupStart = r.groupStart + groupSize := hmoved hempty
        have hbound : seqNum ≤ r.groupStart + groupSize := hbehind seqNum hnext
        have hpos : 0 < groupSize := by decide
        omega
    · rw [show (r.good ⟨sendAck, 0⟩).afterAck = .returned true file from h] at hafter
      exact hafter.2
  · -- the sender gives the transfer up
    rw [receivePacket, if_pos rfl]
    exact ⟨fun _ => rfl, fun r' h => (by cases h), fun file h => (by cases h)⟩

theorem Transfer.Sound.bad {s : Transfer} (hs : s.Sound contents) (hfree : s.reply = none) :
    Transfer.Sound contents { s with receiver := receiveBad s.receiver } := by
  refine ⟨fun _ => hfree, fun r' h => ?_, fun file h => ?_⟩
  · have hbad : receiveBad s.receiver = .receiving r' := h
    cases hreceiver : s.receiver with
    | receiving r =>
      -- the third bad packet ends the transfer; before that only the count changes
      obtain ⟨hr, hbehind, hreply⟩ := hs.receiving r hreceiver
      rw [hreceiver, receiveBad] at hbad
      simp only at hbad
      split at hbad
      · obtain rfl := Receiver.receiving.inj hbad
        exact ⟨⟨hr.count, hr.aligned, hr.missing, hr.last, hr.written, hr.length⟩, hbehind, hreply⟩
      · cases hbad
    | _ =>
      rw [hreceiver] at hbad
      cases hbad
  · have hbad : receiveBad s.receiver = .returned true file := h
    cases hreceiver : s.receiver with
    | receiving r =>
      rw [hreceiver, receiveBad] at hbad
      simp only at hbad
      split at hbad
      · cases hbad
      · cases hbad
    | returned result file' =>
      rw [hreceiver] at hbad
      exact hs.returned file (hreceiver.trans hbad)
    | _ =>
      rw [hreceiver] at hbad
      cases hbad

/-- **One step** keeps the invariant, where nothing deceives the receiver. -/
theorem Transfer.Sound.step {s s' : Transfer} {e : TransferEvent} (hcommands : NoCommands contents)
    (hs : s.Sound contents) (he : Undeceived s e)
    (hstep : SerialFileTransfer.step contents s e = some s') : s'.Sound contents := by
  cases step_moves hstep with
  | raises hsend => exact hs.lost hsend
  | lost hsend => exact hs.lost hsend
  | arrives hsend hfree =>
    -- the packet arrives: what it does depends on where the receiver is
    have hundeceived := he rfl
    cases hreceiver : s.receiver with
    | waiting =>
      rw [hreceiver] at hundeceived
      have hcount : s.sender = .sendCount := hundeceived
      rw [hcount] at hsend
      exact sound_count hsend
    | receiving r =>
      rw [hreceiver] at hundeceived
      obtain ⟨hr, hbehind, -⟩ := hs.receiving r hreceiver
      exact sound_receivePacket hcommands hr hbehind hundeceived hsend
    | returned result file =>
      exact ⟨fun _ => rfl, fun r h => (by cases h),
        fun file' h => hs.returned file' (hreceiver.trans h)⟩
    | raised => exact ⟨fun _ => rfl, fun r h => (by cases h), fun file h => (by cases h)⟩
  | answered hreply hsender =>
    refine hs.of_sender (fun _ => rfl) fun r _ hbehind hsound => ?_
    rw [hsender] at hbehind hsound
    -- the list was true when it was sent, and what it lists is still in the window
    obtain ⟨hmissing, hempty, -⟩ := hsound _ hreply
    exact ⟨handleMissing_behind hbehind hempty hmissing, replySound_none _ _⟩
  | answerLost _ =>
    -- the list is lost, and the sender goes on waiting
    exact hs.of_sender (fun _ => rfl) fun r _ hbehind _ => ⟨hbehind, replySound_none _ _⟩
  | unanswered hsender =>
    refine hs.of_sender id fun r _ hbehind hsound => ?_
    rw [hsender] at hbehind hsound
    refine ⟨noResponse_behind hbehind, fun missingPackets hsome => ?_⟩
    obtain ⟨hmissing, hempty, -⟩ := hsound missingPackets hsome
    -- the list may still be on its way when the sender gives up on it
    unfold noResponse
    split
    · exact ⟨hmissing, hempty, trivial⟩
    · exact ⟨hmissing, fun _ seqNum hnext => (by cases hnext), trivial⟩
  | bad hfree => exact hfree ▸ hs.bad hfree

theorem start_sound : Transfer.start.Sound contents where
  waiting _ := rfl
  receiving r h := by cases h
  returned file h := by cases h

/-- **A received file is the sender's**, in every transfer in which nothing deceives the
receiver, whatever else is lost and whatever is sent again. -/
theorem received_file_intact (hcommands : NoCommands contents) (events : List TransferEvent)
    (t : Transfer) (hrun : run (step contents) .start events = some t)
    (hok : AllSteps (step contents) Undeceived .start events) (file : List UInt8)
    (hreturned : t.receiver = .returned true file) : file = contents := by
  have hsound : t.Sound contents := invariant (step contents)
    (fun _ _ _ he hs hstep => hs.step hcommands he hstep) hok hrun start_sound
  exact hsound.returned file hreturned

end Invariant

/-- A file of three bytes, and a transfer in which nothing is lost. -/
theorem received_file_intact_three_bytes :
    ∃ t file, run (step [1, 2, 3]) .start [.write true, .write true, .write true] = some t ∧
      t.receiver = .returned true file ∧ file = [1, 2, 3] := by
  have hcommands : NoCommands [1, 2, 3] := by
    intro i
    have hlength := length_readChunk [1, 2, 3] i
    have hshort : (readChunk [1, 2, 3] i).length ≤ 3 := by
      rw [hlength]
      exact Nat.le_trans (Nat.min_le_right _ _) (Nat.sub_le _ _)
    constructor
    · intro heq
      rw [heq] at hshort
      exact absurd hshort (by decide)
    · intro heq
      rw [heq] at hshort
      exact absurd hshort (by decide)
  have hok : AllSteps (step [1, 2, 3]) Undeceived .start
      [.write true, .write true, .write true] := by
    refine ⟨fun _ => rfl, fun s₁ h₁ => ?_⟩
    obtain rfl := Option.some.inj h₁
    refine ⟨fun _ => ?_, fun s₂ h₂ => ?_⟩
    · rintro ⟨next, cycle, attempt, h⟩
      cases h
    · obtain rfl := Option.some.inj h₂
      exact ⟨fun _ _ => by decide, fun _ _ => trivial⟩
  exact ⟨_, _, rfl, rfl, received_file_intact hcommands _ _ rfl hok _ rfl⟩

/-- **A hole goes unnoticed**: packet 0 of two is lost, `SEND_ACK` takes it off the missing
list, and `receive_file` returns `True` for a file that begins with zeros. -/
theorem hole_in_received_file :
    ¬ ∀ (contents : List UInt8), NoCommands contents → ∀ (events : List TransferEvent)
        (t : Transfer), run (step contents) .start events = some t →
      ∀ file, t.receiver = .returned true file → file = contents := by
  intro h
  let contents : List UInt8 := List.replicate 1025 7
  have hcommands : NoCommands contents := by
    intro i
    have hlength := length_readChunk contents i
    have hsize : contents.length = 1025 := List.length_replicate
    rw [hsize] at hlength
    unfold packetSize at hlength
    constructor
    · intro heq
      have hten : sendAck.length = 10 := by decide
      rw [heq, hten] at hlength
      omega
    · intro heq
      have hseven : abortFileTransfer.length = 7 := by decide
      rw [heq, hseven] at hlength
      omega
  have hrun : (run (step contents) .start
      [.write true, .write false, .write true, .write true]).any (fun t =>
        t.receiver = .returned true (List.replicate 1024 0 ++ [7])) = true := by
    decide +kernel
  obtain ⟨t, ht, hreturned⟩ := (Option.any_eq_true _ _).mp hrun
  have hfile := h contents hcommands _ t ht _ (of_decide_eq_true hreturned)
  have hhead : (List.replicate 1024 (0 : UInt8) ++ [7]).head? = contents.head? := by rw [hfile]
  exact absurd hhead (by decide)

end SerialFileTransfer

end Samwise
