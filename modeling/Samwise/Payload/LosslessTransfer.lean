import Samwise.Payload.SendFile

/-!
# Samwise — a transfer in which nothing is lost

There is one such run (`losslessEvent`), so it can be followed: packet by packet to the last one,
and from there to success, or to where it fails. It fails for an empty file (the receiver indexes
an empty list), for a file that ends with its group (the sender asks a receiver that has
returned), for more packets than there are packet numbers, and for a short last packet that reads
as a command.
-/

namespace Samwise

namespace SerialFileTransfer

open Run

/-! ## The run -/

/-- The next event where nothing is lost: everything written arrives, and the sender goes
without a list where none comes. -/
def losslessEvent (s : Transfer) : Option TransferEvent :=
  if s.reply = none then
    match s.sender with
    | .await _ _ _ => some .noResponse
    | .finished => none
    | .raised => none
    | _ => some (.write true)
  else some (.reply true)

/-- The event is the next one, and the sender has not given up. -/
def Lossless (s : Transfer) (e : TransferEvent) : Prop :=
  losslessEvent s = some e ∧ s.sender ≠ .abort

section Lossless

variable (contents : List UInt8)

/-- The run of lossless events leads from `s` to `t`. -/
def Reaches (s t : Transfer) : Prop :=
  ∃ events, run (step contents) s events = some t ∧ AllSteps (step contents) Lossless s events

/-- The run ends in success on both sides. -/
def Succeeds (s : Transfer) : Prop :=
  ∃ file, Reaches contents s ⟨.finished, .returned true file, none⟩

variable {contents}

theorem Reaches.refl (s : Transfer) : Reaches contents s s := ⟨[], rfl, trivial⟩

theorem Reaches.trans {s t u : Transfer} (h : Reaches contents s t) (h' : Reaches contents t u) :
    Reaches contents s u := by
  obtain ⟨es, hrun, hok⟩ := h
  obtain ⟨fs, hrun', hok'⟩ := h'
  refine ⟨es ++ fs, ?_, hok.append (step contents) hrun hok'⟩
  rw [run_append, hrun]
  exact hrun'

/-- One event further. -/
theorem Reaches.head {s t u : Transfer} {e : TransferEvent} (he : losslessEvent s = some e)
    (hsender : s.sender ≠ .abort) (hstep : step contents s e = some t)
    (h : Reaches contents t u) : Reaches contents s u := by
  obtain ⟨es, hrun, hok⟩ := h
  refine ⟨e :: es, ?_, ⟨he, hsender⟩, fun t' ht' => ?_⟩
  · rw [run_cons, hstep]
    exact hrun
  · obtain rfl := Option.some.inj (hstep.symm.trans ht')
    exact hok

/-- What is written arrives. -/
theorem Reaches.write {sender sender' : Sender} {p : SerialPacket} (receiver : Receiver)
    (hsend : sendStep contents sender = some (some p, sender')) (hsender : sender ≠ .abort) :
    Reaches contents ⟨sender, receiver, none⟩
      ⟨sender', (receiveStep receiver p).2, (receiveStep receiver p).1⟩ := by
  have hevent : losslessEvent ⟨sender, receiver, none⟩ = some (.write true) := by
    cases sender with
    | await next cycle attempt => cases hsend
    | finished => cases hsend
    | raised => cases hsend
    | _ => rfl
  exact .head hevent hsender (step_write_delivered hsend rfl) (.refl _)

/-- **There is one lossless run**: what it reaches succeeds if and only if it does. Induction on
the run. -/
theorem Reaches.succeeds_iff {s t : Transfer} (h : Reaches contents s t) :
    Succeeds contents s ↔ Succeeds contents t := by
  obtain ⟨es, hrun, hok⟩ := h
  constructor
  · intro hsucceeds
    induction es generalizing s with
    | nil =>
      obtain rfl := Option.some.inj hrun
      exact hsucceeds
    | cons e es ih =>
      obtain ⟨s', hstep, hrest⟩ := run_cons_some (step contents) hrun
      refine ih hrest (hok.2 s' hstep) ?_
      -- a successful run takes the same event
      obtain ⟨file, fs, hrun', hok'⟩ := hsucceeds
      cases fs with
      | nil =>
        obtain rfl := Option.some.inj hrun'
        have hnext := hok.1.1
        cases hnext
      | cons f fs =>
        obtain rfl := Option.some.inj (hok.1.1.symm.trans hok'.1.1)
        obtain ⟨s'', hstep', hrest'⟩ := run_cons_some (step contents) hrun'
        obtain rfl := Option.some.inj (hstep.symm.trans hstep')
        exact ⟨file, fs, hrest', hok'.2 s' hstep⟩
  · rintro ⟨file, hend⟩
    exact ⟨file, Reaches.trans ⟨es, hrun, hok⟩ hend⟩

/-! ## Where it fails -/

/-- A receiver that has returned or raised does not go on. -/
theorem step_receiver_done {s s' : Transfer} {e : TransferEvent} {receiver : Receiver}
    (hdone : (∃ result file, receiver = .returned result file) ∨ receiver = .raised)
    (hs : s.receiver = receiver) (h : step contents s e = some s') : s'.receiver = receiver := by
  have hstays : ∀ p, (receiveStep receiver p).2 = receiver := by
    intro p
    rcases hdone with ⟨result, file, rfl⟩ | rfl
    · rfl
    · rfl
  have hbad : receiveBad receiver = receiver := by
    rcases hdone with ⟨result, file, rfl⟩ | rfl
    · rfl
    · rfl
  cases step_moves h with
  | arrives _ _ =>
    show (receiveStep s.receiver _).2 = receiver
    rw [hs]
    exact hstays _
  | bad _ =>
    show receiveBad s.receiver = receiver
    rw [hs]
    exact hbad
  | _ => exact hs

theorem not_succeeds_of_receiver {s : Transfer}
    (h : (∃ file, s.receiver = .returned false file) ∨ s.receiver = .raised) :
    ¬Succeeds contents s := by
  rintro ⟨file, events, hrun, _⟩
  have hdone : (∃ result file, s.receiver = .returned result file) ∨ s.receiver = .raised :=
    h.imp_left fun ⟨file, hfile⟩ => ⟨false, file, hfile⟩
  have hend : Receiver.returned true file = s.receiver :=
    invariant' (step contents) (I := fun v => v.receiver = s.receiver)
      (fun v e v' hv hstep => step_receiver_done hdone hv hstep) hrun rfl
  rcases h with ⟨file', hfile⟩ | hraised
  · rw [hfile] at hend
    cases hend
  · rw [hraised] at hend
    cases hend

theorem not_succeeds_of_raised {s : Transfer} (h : s.sender = .raised) : ¬Succeeds contents s := by
  rintro ⟨file, events, hrun, _⟩
  have hend : Sender.finished = .raised := by
    refine invariant' (step contents) (I := fun v => v.sender = .raised)
      (fun v e v' hv hstep => ?_) hrun h
    rcases step_sender hstep with ⟨packet, hsend⟩ | ⟨_, _, _, _, hawait, _⟩ |
      ⟨_, _, _, hawait, _⟩ | hsame
    · rw [hv] at hsend
      cases hsend
    · rw [hv] at hawait
      cases hawait
    · rw [hv] at hawait
      cases hawait
    · rw [hsame, hv]
  cases hend

theorem not_succeeds_of_abort {s : Transfer} (h : s.sender = .abort) : ¬Succeeds contents s := by
  rintro ⟨file, events, hrun, hok⟩
  cases events with
  | nil =>
    obtain rfl := Option.some.inj hrun
    cases h
  | cons e events => exact hok.1.2 h

/-! ## Behind an empty list -/

section AfterAck

variable {r : Receiving}

theorem good_missing (hempty : r.missingPackets = []) :
    (r.good ⟨sendAck, 0⟩).missingPackets = [] := by
  show r.missingPackets.erase 0 = []
  rw [hempty, List.erase_nil]

theorem afterAck_last (hempty : r.missingPackets = []) (hlast : r.receivedLastPacket = true) :
    r.afterAck = .returned true r.file := by
  rw [Receiving.afterAck, if_pos hempty, if_pos hlast]

theorem afterAck_raised (hempty : r.missingPackets = []) (hlast : r.receivedLastPacket = false)
    (hnone : group (r.groupStart + groupSize) r.numPackets = []) : r.afterAck = .raised := by
  rw [Receiving.afterAck, if_pos hempty, if_neg (by simp [hlast])]
  exact if_pos hnone

theorem afterAck_next (hempty : r.missingPackets = []) (hlast : r.receivedLastPacket = false)
    (hmore : group (r.groupStart + groupSize) r.numPackets ≠ []) :
    r.afterAck = .receiving
      { r with
        groupStart := r.groupStart + groupSize
        missingPackets := group (r.groupStart + groupSize) r.numPackets } := by
  rw [Receiving.afterAck, if_pos hempty, if_neg (by simp [hlast])]
  exact if_neg hmore

end AfterAck

/-! ## From packet to packet -/

/-- `receive_file` before packet `k`: the rest of its group is missing. -/
def beforePacket (contents : List UInt8) (k : Nat) (file : List UInt8) : Receiving where
  numPackets := numPackets contents
  missingPackets := List.range' k (min (k - k % groupSize + groupSize) (numPackets contents) - k)
  groupStart := k - k % groupSize
  consecutiveBadPackets := 0
  receivedLastPacket := false
  file := file

/-- Both sides before packet `k`. -/
def atPacket (contents : List UInt8) (k : Nat) (file : List UInt8) : Transfer :=
  ⟨sendFrom contents k, .receiving (beforePacket contents k file), none⟩

/-- `receive_file` behind packet `k`. -/
def behindPacket (contents : List UInt8) (k : Nat) (file : List UInt8) : Receiving :=
  ((beforePacket contents k file).good ⟨readChunk contents k, k⟩).writeChunk
    ⟨readChunk contents k, k⟩

/-- Packet `k` is off the list, and the others of its group stay on. -/
theorem behindPacket_missing (contents : List UInt8) {k : Nat} (file : List UInt8)
    (hk : k < numPackets contents) :
    (behindPacket contents k file).missingPackets =
      List.range' (k + 1) (min (k - k % groupSize + groupSize) (numPackets contents) - (k + 1)) := by
  have hmod : k % groupSize < groupSize := Nat.mod_lt _ (by decide)
  have hle : k % groupSize ≤ k := Nat.mod_le _ _
  obtain ⟨m, hm⟩ : ∃ m, min (k - k % groupSize + groupSize) (numPackets contents) - k = m + 1 :=
    ⟨min (k - k % groupSize + groupSize) (numPackets contents) - k - 1, by omega⟩
  show (List.range' k (min (k - k % groupSize + groupSize) (numPackets contents) - k)).erase k = _
  rw [hm, List.range'_succ, List.erase_cons_head]
  congr 1
  omega

theorem behindPacket_eq (contents : List UInt8) (k : Nat) (file : List UInt8) :
    behindPacket contents k file = ⟨numPackets contents, (behindPacket contents k file).missingPackets,
      k - k % groupSize, 0, (behindPacket contents k file).receivedLastPacket,
      (behindPacket contents k file).file⟩ := rfl

theorem behindPacket_last {k : Nat} (file : List UInt8) :
    (behindPacket contents k file).receivedLastPacket = (k == numPackets contents - 1) :=
  Bool.false_or _

/-- A whole chunk is no command. -/
theorem readChunk_not_command {k : Nat} (hk : k < numFullPackets contents) :
    readChunk contents k ≠ abortFileTransfer ∧ readChunk contents k ≠ sendAck := by
  have hlength := length_readChunk contents k
  unfold numFullPackets packetSize at hk
  unfold packetSize at hlength
  constructor
  · intro heq
    have hseven : abortFileTransfer.length = 7 := by decide
    rw [heq, hseven] at hlength
    omega
  · intro heq
    have hten : sendAck.length = 10 := by decide
    rw [heq, hten] at hlength
    omega

/-- A chunk that is no command is written. -/
theorem receiveStep_chunk {r : Receiving} {p : SerialPacket}
    (h : p.chunk ≠ abortFileTransfer ∧ p.chunk ≠ sendAck) :
    receiveStep (.receiving r) p = (none, .receiving ((r.good p).writeChunk p)) := by
  rw [receiveStep, receivePacket, if_neg h.1, if_neg h.2]

/-- A full packet arrives. -/
theorem reaches_sendFull {k : Nat} (file : List UInt8) (hk : k < numFullPackets contents)
    (hfits : k < 256 ^ 2) : Reaches contents (atPacket contents k file)
      ⟨if k % groupSize = groupSize - 1 then .request (some (k + 1)) 0 0 else sendFrom contents (k + 1),
        .receiving (behindPacket contents k file), none⟩ := by
  have hsender : sendFrom contents k = .sendFull k := if_pos hk
  have hsend : sendStep contents (.sendFull k) = some (some ⟨readChunk contents k, k⟩,
      if k % groupSize = groupSize - 1 then .request (some (k + 1)) 0 0
      else sendFrom contents (k + 1)) := by
    rw [sendStep, if_pos hfits]
  have harrives := Reaches.write (.receiving (beforePacket contents k file)) hsend
    (by simp)
  rw [receiveStep_chunk (readChunk_not_command hk)] at harrives
  rw [atPacket, hsender]
  exact harrives

/-- A request is answered. -/
theorem reaches_request {next : Option Nat} {r : Receiving} (hempty : r.missingPackets = []) :
    Reaches contents ⟨.request next 0 0, .receiving r, none⟩
      ⟨.await next 0 0, (r.good ⟨sendAck, 0⟩).afterAck, some []⟩ := by
  have hnot : sendAck ≠ abortFileTransfer := by decide
  have hanswer : receiveStep (.receiving r) ⟨sendAck, 0⟩
      = (some [], (r.good ⟨sendAck, 0⟩).afterAck) := by
    rw [receiveStep, receivePacket, if_neg hnot, if_pos rfl, good_missing hempty]
  have hsend : sendStep contents (.request next 0 0)
      = some (some ⟨sendAck, 0⟩, .await next 0 0) := rfl
  have hasks := Reaches.write (.receiving r) hsend (by simp)
  rw [hanswer] at hasks
  exact hasks

/-- An empty list sends the loop on. -/
theorem reaches_sendNext (next : Option Nat) (receiver : Receiver) :
    Reaches contents ⟨.await next 0 0, receiver, some []⟩
      ⟨sendNext contents next, receiver, none⟩ :=
  .head (e := .reply true) rfl (by simp) rfl (.refl _)

/-- From a packet to the next, where there is one behind it. -/
theorem reaches_next {k : Nat} (file : List UInt8) (hk : k < numFullPackets contents)
    (hmore : k + 1 < numPackets contents) (hfits : k < 256 ^ 2) :
    ∃ file', Reaches contents (atPacket contents k file) (atPacket contents (k + 1) file') := by
  have hsent := reaches_sendFull file hk hfits
  have hmissing := behindPacket_missing contents file (Nat.lt_of_succ_lt hmore)
  have hlast : (behindPacket contents k file).receivedLastPacket = false := by
    rw [behindPacket_last]
    simp
    omega
  refine ⟨(behindPacket contents k file).file, hsent.trans ?_⟩
  unfold groupSize at *
  by_cases hend : k % 32 = 31
  · -- the group is over: the receiver's list is empty, and it goes on to the next group
    have hempty : (behindPacket contents k file).missingPackets = [] := by
      rw [hmissing]
      have hnone : min (k - k % 32 + 32) (numPackets contents) - (k + 1) = 0 := by omega
      rw [hnone]
      rfl
    rw [if_pos hend]
    refine (reaches_request hempty).trans ?_
    have hafter : ((behindPacket contents k file).good ⟨sendAck, 0⟩).afterAck
        = .receiving (beforePacket contents (k + 1) (behindPacket contents k file).file) := by
      have hstart : k - k % 32 + 32 = k + 1 - (k + 1) % 32 := by omega
      have hgroup : group (k - k % 32 + 32) (numPackets contents)
          = List.range' (k + 1) (min (k + 1 - (k + 1) % 32 + 32) (numPackets contents) - (k + 1)) := by
        rw [group]
        unfold groupSize
        congr 1
        · omega
        · omega
      have hne : group (k - k % 32 + 32) (numPackets contents) ≠ [] :=
        List.ne_nil_of_mem (mem_group.mpr ⟨by omega, by unfold groupSize; omega, hmore⟩)
      rw [afterAck_next (good_missing hempty) hlast hne]
      show Receiver.receiving (Receiving.mk _ (group (k - k % 32 + 32) (numPackets contents))
        (k - k % 32 + 32) 0 (behindPacket contents k file).receivedLastPacket _) = _
      rw [hgroup, hstart, hlast]
      rfl
    rw [hafter]
    exact reaches_sendNext _ _
  · rw [if_neg hend]
    have hgroup : k + 1 - (k + 1) % 32 = k - k % 32 := by omega
    have hsame : behindPacket contents k file
        = beforePacket contents (k + 1) (behindPacket contents k file).file := by
      rw [behindPacket_eq, hmissing, hlast]
      unfold beforePacket groupSize
      rw [hgroup]
    rw [atPacket, ← hsame]
    exact .refl _

/-- **Any packet is reached**, as far as there are packets and packet numbers. Induction on the
packet. -/
theorem reaches_packet (hcount : numPackets contents < 256 ^ 4) {k : Nat}
    (hle : k ≤ numFullPackets contents) (hlt : k < numPackets contents) (hfits : k ≤ 256 ^ 2) :
    ∃ file, Reaches contents .start (atPacket contents k file) := by
  induction k with
  | zero =>
    have hsend : sendStep contents .sendCount
        = some (some ⟨toBytes (numPackets contents), 0⟩, sendFrom contents 0) := by
      rw [sendStep, if_pos hcount]
    have hne : group 0 (numPackets contents) ≠ [] :=
      List.ne_nil_of_mem (mem_group.mpr ⟨Nat.le_refl 0, show 0 < 0 + groupSize by decide, hlt⟩)
    have hreceive : receiveStep .waiting ⟨toBytes (numPackets contents), 0⟩
        = (none, .receiving (beforePacket contents 0 [])) := by
      simp only [receiveStep, fromBytes_toBytes hcount]
      rw [if_neg hne]
      rfl
    have hcounted := Reaches.write .waiting hsend (by simp)
    rw [hreceive] at hcounted
    exact ⟨[], hcounted⟩
  | succ k ih =>
    obtain ⟨file, hreaches⟩ := ih (by omega) (by omega) (by omega)
    obtain ⟨file', hnext⟩ := reaches_next file hle hlt (by omega)
    exact ⟨file', hreaches.trans hnext⟩

/-! ## The last packet -/

/-- Nobody answers. -/
theorem reaches_unanswered (contents : List UInt8) (next : Option Nat) (cycle attempt : Nat)
    (file : List UInt8) :
    Reaches contents ⟨.request next cycle attempt, .returned true file, none⟩
      ⟨noResponse next cycle attempt, .returned true file, none⟩ := by
  have hsend : sendStep contents (.request next cycle attempt)
      = some (some ⟨sendAck, 0⟩, .await next cycle attempt) := rfl
  have hasks := Reaches.write (.returned true file) hsend (by simp)
  exact hasks.trans (.head (e := .noResponse) rfl (by simp) rfl (.refl _))

/-- A sender that asks a receiver that has returned gives up. -/
theorem not_succeeds_unanswered (next : Option Nat) (file : List UInt8) :
    ¬Succeeds contents ⟨.request next 0 0, .returned true file, none⟩ := by
  have hfirst := reaches_unanswered contents next 0 0 file
  have hsecond := reaches_unanswered contents next 0 1 file
  have hthird := reaches_unanswered contents next 0 2 file
  rw [((hfirst.trans hsecond).trans hthird).succeeds_iff]
  exact not_succeeds_of_abort rfl

/-- The last packet is behind, and the receiver is asked. -/
theorem succeeds_asked {next : Option Nat} {r : Receiving} (hempty : r.missingPackets = [])
    (hlast : r.receivedLastPacket = true) :
    Succeeds contents ⟨.request next 0 0, .receiving r, none⟩
      ↔ Succeeds contents ⟨sendNext contents next, .returned true r.file, none⟩ := by
  have hasked : Reaches contents ⟨.request next 0 0, .receiving r, none⟩
      ⟨.await next 0 0, (r.good ⟨sendAck, 0⟩).afterAck, some []⟩ := reaches_request hempty
  rw [afterAck_last (good_missing hempty) hlast] at hasked
  exact (hasked.trans (reaches_sendNext next _)).succeeds_iff

theorem succeeds_finished (file : List UInt8) :
    Succeeds contents ⟨.finished, .returned true file, none⟩ := ⟨file, .refl _⟩

/-- A full last packet: success, unless it ends its group. -/
theorem succeeds_lastFull {k : Nat} (file : List UInt8) (hk : k < numFullPackets contents)
    (hlast : k + 1 = numPackets contents) (hfits : k < 256 ^ 2) :
    Succeeds contents (atPacket contents k file) ↔ k % groupSize ≠ groupSize - 1 := by
  have hmissing := behindPacket_missing contents file (by omega : k < numPackets contents)
  have hempty : (behindPacket contents k file).missingPackets = [] := by
    rw [hmissing]
    have hnone : min (k - k % groupSize + groupSize) (numPackets contents) - (k + 1) = 0 := by omega
    rw [hnone]
    rfl
  have hreceived : (behindPacket contents k file).receivedLastPacket = true := by
    rw [behindPacket_last]
    simp
    omega
  -- behind the last packet the loop is over
  have hle := numFullPackets_le contents
  have hover : sendFrom contents (k + 1) = .request none 0 0 := by
    rw [sendFrom, if_neg (by omega), if_neg (by omega)]
  rw [(reaches_sendFull file hk hfits).succeeds_iff, hover]
  by_cases hend : k % groupSize = groupSize - 1
  · rw [if_pos hend, succeeds_asked hempty hreceived]
    show Succeeds contents ⟨sendFrom contents (k + 1), _, none⟩ ↔ _
    rw [hover]
    exact iff_of_false (not_succeeds_unanswered none _) (fun h => h hend)
  · rw [if_neg hend, succeeds_asked hempty hreceived]
    exact iff_of_true (succeeds_finished _) hend

/-- A short last packet: success, unless it reads as a command. -/
theorem succeeds_lastPartial (file : List UInt8)
    (hshort : numFullPackets contents + 1 = numPackets contents)
    (hfits : numFullPackets contents < 256 ^ 2) :
    Succeeds contents (atPacket contents (numFullPackets contents) file) ↔
      readChunk contents (numFullPackets contents) ≠ sendAck ∧
        readChunk contents (numFullPackets contents) ≠ abortFileTransfer := by
  have hsender : sendFrom contents (numFullPackets contents) = .sendPartial := by
    rw [sendFrom, if_neg (Nat.lt_irrefl _), if_pos (by omega)]
  have hsend : sendStep contents .sendPartial = some
      (some ⟨readChunk contents (numFullPackets contents), numFullPackets contents⟩,
        .request none 0 0) := by
    rw [sendStep, if_pos hfits]
  have hsent := Reaches.write
    (.receiving (beforePacket contents (numFullPackets contents) file)) hsend (by simp)
  have hmissing := behindPacket_missing contents file
    (by omega : numFullPackets contents < numPackets contents)
  have hempty : (behindPacket contents (numFullPackets contents) file).missingPackets = [] := by
    rw [hmissing]
    have hnone : min (numFullPackets contents - numFullPackets contents % groupSize + groupSize)
        (numPackets contents) - (numFullPackets contents + 1) = 0 := by omega
    rw [hnone]
    rfl
  rw [atPacket, hsender, hsent.succeeds_iff]
  by_cases habort : readChunk contents (numFullPackets contents) = abortFileTransfer
  · -- the receiver gives the transfer up
    refine iff_of_false (not_succeeds_of_receiver (Or.inl ?_)) fun h => h.2 habort
    exact ⟨_, by rw [receiveStep, receivePacket, if_pos habort]⟩
  · by_cases hack : readChunk contents (numFullPackets contents) = sendAck
    · -- the receiver has no packets left, and has not seen the last one
      refine iff_of_false (not_succeeds_of_receiver (Or.inr ?_)) fun h => h.1 hack
      have hnone : group (numFullPackets contents - numFullPackets contents % groupSize + groupSize)
          (numPackets contents) = [] := by
        rw [List.eq_nil_iff_forall_not_mem]
        intro i hi
        have hmem := mem_group.mp hi
        have hmod : numFullPackets contents % groupSize < groupSize := Nat.mod_lt _ (by decide)
        omega
      rw [receiveStep, receivePacket, if_neg habort, if_pos hack]
      exact afterAck_raised hempty rfl hnone
    · rw [receiveStep_chunk ⟨habort, hack⟩]
      have hreceived : (behindPacket contents (numFullPackets contents) file).receivedLastPacket
          = true := by
        rw [behindPacket_last]
        simp
        omega
      refine iff_of_true ?_ ⟨hack, habort⟩
      show Succeeds contents
        ⟨.request none 0 0, .receiving (behindPacket contents (numFullPackets contents) file), none⟩
      rw [succeeds_asked hempty hreceived]
      exact succeeds_finished _

/-- Without packets the receiver's first group is empty. -/
theorem not_succeeds_empty (hzero : numPackets contents = 0) : ¬Succeeds contents .start := by
  have hcount : numPackets contents < 256 ^ 4 := by
    rw [hzero]
    decide
  have hsend : sendStep contents .sendCount
      = some (some ⟨toBytes (numPackets contents), 0⟩, sendFrom contents 0) := by
    rw [sendStep, if_pos hcount]
  have hcounted := Reaches.write .waiting hsend (by simp)
  have hstart : Transfer.start = ⟨.sendCount, .waiting, none⟩ := rfl
  rw [hstart, hcounted.succeeds_iff]
  refine not_succeeds_of_receiver (Or.inr ?_)
  rw [hzero]
  rfl

/-- A sender that cannot write its next packet raises. -/
theorem reaches_raised {sender : Sender} (receiver : Receiver)
    (h : sendStep contents sender = some (none, .raised)) :
    Reaches contents ⟨sender, receiver, none⟩ ⟨.raised, receiver, none⟩ := by
  have hevent : losslessEvent ⟨sender, receiver, none⟩ = some (.write true) := by
    cases sender with
    | await next cycle attempt => cases h
    | finished => cases h
    | raised => cases h
    | _ => rfl
  have habort : sender ≠ .abort := by
    rintro rfl
    cases h
  exact .head hevent habort (by simp [step, h]) (.refl _)

/-- With more packets than packet numbers the sender raises, at the count or at the first packet
without a number. -/
theorem raises_many (hmany : 256 ^ 2 < numPackets contents) :
    ∃ receiver, Reaches contents .start ⟨.raised, receiver, none⟩ := by
  by_cases hcount : numPackets contents < 256 ^ 4
  · have hone : numPackets contents ≤ numFullPackets contents + 1 := by
      unfold numPackets numFullPackets packetSize
      omega
    obtain ⟨file, hreaches⟩ := reaches_packet hcount (k := 256 ^ 2) (by omega) hmany (Nat.le_refl _)
    refine ⟨_, hreaches.trans (reaches_raised _ ?_)⟩
    unfold sendFrom
    split
    · rw [sendStep, if_neg (Nat.lt_irrefl _)]
    · split
      · rw [sendStep, if_neg (by omega)]
      · next hwhole => exact absurd (not_not.mp hwhole) (by omega)
  · refine ⟨_, reaches_raised .waiting ?_⟩
    rw [sendStep, if_neg hcount]

/-- Only the last chunk can be a command. -/
theorem noCommands_iff : NoCommands contents ↔
    readChunk contents (numFullPackets contents) ≠ sendAck ∧
      readChunk contents (numFullPackets contents) ≠ abortFileTransfer := by
  refine ⟨fun h => h _, fun h i => ?_⟩
  rcases Nat.lt_trichotomy i (numFullPackets contents) with hlt | rfl | hgt
  · exact (readChunk_not_command hlt).symm
  · exact h
  · -- behind the end of the file
    have hnil : readChunk contents i = [] := by
      rw [← List.length_eq_zero_iff, length_readChunk]
      unfold numFullPackets packetSize at hgt
      unfold packetSize
      omega
    rw [hnil]
    exact ⟨by decide, by decide⟩

/-- **When nothing is lost**: both sides end in success exactly if there are packets, not more
than there are packet numbers, the file does not end with a group, and no chunk is a command. -/
theorem succeeds_iff (contents : List UInt8) : Succeeds contents .start ↔
    numPackets contents ≤ 256 ^ 2 ∧ contents.length % (packetSize * groupSize) ≠ 0 ∧
      NoCommands contents := by
  have hle := numFullPackets_le contents
  have hone : numPackets contents ≤ numFullPackets contents + 1 := by
    unfold numPackets numFullPackets packetSize
    omega
  by_cases hfits : numPackets contents ≤ 256 ^ 2
  · by_cases hzero : numPackets contents = 0
    · refine iff_of_false (not_succeeds_empty hzero) fun h => h.2.1 ?_
      have hempty : contents.length = 0 := by
        unfold numPackets packetSize at hzero
        omega
      rw [hempty]
      rfl
    · obtain ⟨k, hk⟩ := Nat.exists_eq_succ_of_ne_zero hzero
      obtain ⟨file, hreaches⟩ := reaches_packet (Nat.lt_of_le_of_lt hfits (by decide)) (k := k)
        (by omega) (by omega) (by omega)
      rw [hreaches.succeeds_iff, noCommands_iff]
      by_cases hwhole : numPackets contents = numFullPackets contents
      · -- a file of whole packets ends where its last packet does, and behind it is nothing
        have hends : contents.length % (packetSize * groupSize) = 0
            ↔ k % groupSize = groupSize - 1 := by
          unfold numPackets numFullPackets packetSize at *
          unfold groupSize
          omega
        have hnil : readChunk contents (numFullPackets contents) = [] := by
          rw [← List.length_eq_zero_iff, length_readChunk]
          unfold numPackets numFullPackets packetSize at *
          omega
        rw [succeeds_lastFull file (by omega) hk.symm (by omega), hnil, ne_eq, ne_eq, hends]
        exact ⟨fun h => ⟨hfits, h, by decide, by decide⟩, fun h => h.2.1⟩
      · have hlast : k = numFullPackets contents := by omega
        have hends : contents.length % (packetSize * groupSize) ≠ 0 := by
          unfold numPackets numFullPackets packetSize at hwhole
          unfold packetSize groupSize
          omega
        rw [hlast, succeeds_lastPartial file (by omega) (by omega)]
        exact ⟨fun h => ⟨hfits, hends, h⟩, fun h => h.2.2⟩
  · obtain ⟨receiver, hraises⟩ := raises_many (Nat.not_le.mp hfits)
    rw [hraises.succeeds_iff]
    exact iff_of_false (not_succeeds_of_raised rfl) fun h => hfits h.1

/-! ## Losing packets of the file -/

theorem Lossless.onlyDataLost {s : Transfer} {e : TransferEvent} (h : Lossless s e) :
    OnlyDataLost s e := by
  have hevent := h.1
  unfold losslessEvent at hevent
  split at hevent
  · next hfree =>
    split at hevent
    · obtain rfl := Option.some.inj hevent
      exact hfree
    · cases hevent
    · cases hevent
    · obtain rfl := Option.some.inj hevent
      exact fun hlost => by cases hlost
  · obtain rfl := Option.some.inj hevent
    rfl

variable (contents) in
/-- The sender raises in some transfer that loses packets of the file only. -/
def Raises : Prop :=
  ∃ events t, run (step contents) .start events = some t ∧
    AllSteps (step contents) OnlyDataLost .start events ∧ t.sender = .raised

theorem Reaches.onlyDataLost {s t : Transfer} (h : Reaches contents s t) :
    ∃ events, run (step contents) s events = some t ∧
      AllSteps (step contents) OnlyDataLost s events := by
  obtain ⟨events, hrun, hok⟩ := h
  exact ⟨events, hrun, hok.mono _ fun _ _ h => h.onlyDataLost⟩

/-- **A short last packet, lost once, raises** where it is not the only one: the receiver lists
it, and its chunk does not fill the slice it is sent again from. -/
theorem raises_short (hfits : numPackets contents ≤ 256 ^ 2)
    (hshort : numFullPackets contents + 1 = numPackets contents)
    (hmore : 0 < numFullPackets contents) : Raises contents := by
  obtain ⟨file, hreaches⟩ := reaches_packet (Nat.lt_of_le_of_lt hfits (by decide))
    (Nat.le_refl (numFullPackets contents)) (by omega) (by omega)
  obtain ⟨events, hrun, hok⟩ := hreaches.onlyDataLost
  have hsender : sendFrom contents (numFullPackets contents) = .sendPartial := by
    rw [sendFrom, if_neg (Nat.lt_irrefl _), if_pos (by omega)]
  rw [atPacket, hsender] at hrun
  -- the last packet is the one that is missing, and stays missing
  have hmissing : (beforePacket contents (numFullPackets contents) file).missingPackets
      = [numFullPackets contents] := by
    have hmod : numFullPackets contents % groupSize < groupSize := Nat.mod_lt _ (by decide)
    have hle : numFullPackets contents % groupSize ≤ numFullPackets contents := Nat.mod_le _ _
    have hwindow : min (numFullPackets contents - numFullPackets contents % groupSize + groupSize)
        (numPackets contents) - numFullPackets contents = 1 := by omega
    show List.range' (numFullPackets contents) (min (numFullPackets contents
      - numFullPackets contents % groupSize + groupSize) (numPackets contents)
      - numFullPackets contents) = _
    rw [hwindow]
    rfl
  generalize beforePacket contents (numFullPackets contents) file = r at hrun hmissing
  have hgood : (r.good ⟨sendAck, 0⟩).missingPackets = [numFullPackets contents] := by
    show r.missingPackets.erase 0 = _
    rw [hmissing, List.erase_cons_tail (by simp; omega), List.erase_nil]
  have hafter : (r.good ⟨sendAck, 0⟩).afterAck = .receiving (r.good ⟨sendAck, 0⟩) := by
    rw [Receiving.afterAck, if_neg (by simp [hgood])]
  have hnot : sendAck ≠ abortFileTransfer := by decide
  have hchunk : (readChunk contents (numFullPackets contents)).length ≠ packetSize := by
    rw [length_readChunk]
    unfold numPackets numFullPackets packetSize at *
    omega
  have hlost : step contents ⟨.sendPartial, .receiving r, none⟩ (.write false)
      = some ⟨.request none 0 0, .receiving r, none⟩ := by
    have hnumber : numFullPackets contents < 65536 := by omega
    simp [step, sendStep, hnumber]
  have hasked : step contents ⟨.request none 0 0, .receiving r, none⟩ (.write true)
      = some ⟨.await none 0 0, .receiving (r.good ⟨sendAck, 0⟩), some [numFullPackets contents]⟩ := by
    simp [step, sendStep, receiveStep, receivePacket, hnot, hgood, hafter]
  have hlisted : step contents
      ⟨.await none 0 0, .receiving (r.good ⟨sendAck, 0⟩), some [numFullPackets contents]⟩ (.reply true)
      = some ⟨.resend none 0 (numFullPackets contents) [],
          .receiving (r.good ⟨sendAck, 0⟩), none⟩ := rfl
  have hraises : step contents ⟨.resend none 0 (numFullPackets contents) [],
      .receiving (r.good ⟨sendAck, 0⟩), none⟩ (.write true)
      = some ⟨.raised, .receiving (r.good ⟨sendAck, 0⟩), none⟩ := by
    simp [step, sendStep, hchunk]
  refine ⟨events ++ [.write false, .write true, .reply true, .write true],
    ⟨.raised, .receiving (r.good ⟨sendAck, 0⟩), none⟩, ?_, hok.append (step contents) hrun ?_, rfl⟩
  · rw [run_append, hrun, Option.bind_some, run_cons, hlost, Option.bind_some, run_cons, hasked,
      Option.bind_some, run_cons, hlisted, Option.bind_some, run_cons, hraises]
    rfl
  · refine ⟨fun _ => rfl, fun s₁ h₁ => ?_⟩
    obtain rfl := Option.some.inj (hlost.symm.trans h₁)
    refine ⟨fun h => (by cases h), fun s₂ h₂ => ?_⟩
    obtain rfl := Option.some.inj (hasked.symm.trans h₂)
    refine ⟨rfl, fun s₃ h₃ => ?_⟩
    obtain rfl := Option.some.inj (hlisted.symm.trans h₃)
    exact ⟨fun h => (by cases h), fun _ _ => trivial⟩

/-- Where a short last packet may be lost and the sender still not raise: it is the only one. -/
theorem raises_iff : Raises contents ↔
    ¬(numPackets contents ≤ 256 ^ 2 ∧
      (contents.length % packetSize = 0 ∨ contents.length < packetSize)) := by
  have hone : numPackets contents ≤ numFullPackets contents + 1 := by
    unfold numPackets numFullPackets packetSize
    omega
  constructor
  · rintro ⟨events, t, hrun, hok, hraised⟩ ⟨hfits, hsize⟩
    -- every run keeps a short last packet, as there is none or nothing before it
    refine sendFile_not_raised hfits hrun (hok.and (step contents) (.of_forall _ ?_ _ _)) hraised
    intro s e hshort _ _
    unfold numPackets numFullPackets packetSize at *
    omega
  · intro h
    by_cases hfits : numPackets contents ≤ 256 ^ 2
    · have hsize := not_or.mp fun hsize => h ⟨hfits, hsize⟩
      refine raises_short hfits ?_ ?_
      · unfold numPackets numFullPackets packetSize at *
        omega
      · unfold numFullPackets packetSize at *
        omega
    · obtain ⟨receiver, hraises⟩ := raises_many (Nat.not_le.mp hfits)
      obtain ⟨events, hrun, hok⟩ := hraises.onlyDataLost
      exact ⟨events, _, hrun, hok, rfl⟩

end Lossless

/-! ## The file sender -/

section FileSender

variable (contents : List UInt8) (buf : WriteBuf)

/-- What a transfer of the file is to do: the packets of the file that are written carry its
bytes, whatever is lost; no loss of such packets makes the sender raise; and where nothing is
lost, both sides end in success. -/
structure SendsFile : Prop where
  exact : ∀ events, ∀ p ∈ outputs (stepBuf contents) (transmitted contents) (.start, buf) events,
    p.chunk = bytesIn contents (packetSize * p.seqNum)
      (min (packetSize * (p.seqNum + 1)) contents.length)
  quiet : ∀ events t, run (stepBuf contents) (.start, buf) events = some t →
    AllSteps (stepBuf contents) (fun s e => OnlyDataLost s.1 e) (.start, buf) events →
      t.1.sender ≠ .raised
  ends : ∃ events file t, run (stepBuf contents) (.start, buf) events = some t ∧
    AllSteps (stepBuf contents) (fun s e => Lossless s.1 e) (.start, buf) events ∧
      t.1 = ⟨.finished, .returned true file, none⟩

theorem transmitted_exact (events : List TransferEvent) {p : SerialPacket}
    (hp : p ∈ outputs (stepBuf contents) (transmitted contents) (.start, buf) events) :
    p.chunk = bytesIn contents (packetSize * p.seqNum)
      (min (packetSize * (p.seqNum + 1)) contents.length) := by
  rw [← readChunk_eq_bytesIn]
  exact outputs_forall (stepBuf contents) (transmitted contents)
    (I := fun s => s.1.sender.WithinFile contents) (P := fun p => p.chunk = readChunk contents p.seqNum)
    (fun _ _ _ hs h => stepBuf_withinFile hs h) (fun _ _ hs _ hp => transmitted_chunk hs hp)
    (s := (Transfer.start, buf)) trivial p hp

/-- Runs with the buffer and without it. -/
theorem exists_run_stepBuf {P : Transfer → Prop} {ok : Transfer → TransferEvent → Prop} :
    (∃ events t, run (stepBuf contents) (.start, buf) events = some t ∧
      AllSteps (stepBuf contents) (fun s e => ok s.1 e) (.start, buf) events ∧ P t.1) ↔
    ∃ events t, run (step contents) .start events = some t ∧
      AllSteps (step contents) ok .start events ∧ P t := by
  refine exists_congr fun events => ?_
  have hruns := run_stepBuf contents buf events
  constructor
  · rintro ⟨t, hrun, hok, ht⟩
    rw [hrun] at hruns
    exact ⟨t.1, hruns.symm, (allSteps_stepBuf buf).mp hok, ht⟩
  · rintro ⟨t, hrun, hok, ht⟩
    rw [hrun] at hruns
    obtain ⟨t', hrun', rfl⟩ := Option.map_eq_some_iff.mp hruns
    exact ⟨t', hrun', (allSteps_stepBuf buf).mpr hok, ht⟩

/-- **The file sender.** In every transfer, whatever is lost and whatever the buffer held, each
packet of the file that is written, first or again, carries exactly its bytes. Where there are
packet numbers enough, the sender does not raise in any run that loses packets of the file only,
and not a short last one behind others. And for a file as a whole all is well exactly if its
packets have numbers, it has no short last packet behind others, it does not end with a group,
and no chunk is a command. -/
theorem file_sender :
    (∀ events, ∀ p ∈ outputs (stepBuf contents) (transmitted contents) (.start, buf) events,
      p.chunk = bytesIn contents (packetSize * p.seqNum)
        (min (packetSize * (p.seqNum + 1)) contents.length)) ∧
    (numPackets contents ≤ 256 ^ 2 → ∀ events t,
      run (stepBuf contents) (.start, buf) events = some t →
      AllSteps (stepBuf contents) (fun s e => OnlyDataLost s.1 e ∧ KeepsLast contents s.1 e)
        (.start, buf) events → t.1.sender ≠ .raised) ∧
    (SendsFile contents buf ↔ numPackets contents ≤ 256 ^ 2 ∧
      (contents.length % packetSize = 0 ∨ contents.length < packetSize) ∧
      contents.length % (packetSize * groupSize) ≠ 0 ∧ NoCommands contents) := by
  refine ⟨fun events p hp => transmitted_exact contents buf events hp,
    fun hfits events t hrun hok => ?_, ?_⟩
  · have hruns := run_stepBuf contents buf events
    rw [hrun] at hruns
    refine sendFile_not_raised hfits hruns.symm ?_
    exact (allSteps_stepBuf buf).mp (hok.mono _ fun s e h => ⟨h.1, fun _ => h.2⟩)
  · have hraises : (∃ events t, run (stepBuf contents) (.start, buf) events = some t ∧
        AllSteps (stepBuf contents) (fun s e => OnlyDataLost s.1 e) (.start, buf) events ∧
          t.1.sender = .raised) ↔ Raises contents :=
      exists_run_stepBuf contents buf (P := fun t => t.sender = .raised)
    have hends : (∃ file, ∃ events t, run (stepBuf contents) (.start, buf) events = some t ∧
        AllSteps (stepBuf contents) (fun s e => Lossless s.1 e) (.start, buf) events ∧
          t.1 = ⟨.finished, .returned true file, none⟩) ↔ Succeeds contents .start := by
      refine exists_congr fun file => (exists_run_stepBuf contents buf
        (P := fun t => t = ⟨.finished, .returned true file, none⟩)).trans ?_
      constructor
      · rintro ⟨events, t, hrun, hok, rfl⟩
        exact ⟨events, hrun, hok⟩
      · rintro ⟨events, hrun, hok⟩
        exact ⟨events, _, hrun, hok, rfl⟩
    rw [raises_iff] at hraises
    rw [succeeds_iff] at hends
    constructor
    · intro h
      obtain ⟨events, file, hrun⟩ := h.ends
      obtain ⟨hfits, hgroup, hcommands⟩ := hends.mp ⟨file, events, hrun⟩
      have hsize := not_not.mp fun hnot => by
        obtain ⟨events', t, hrun', hok', hraised⟩ := hraises.mpr hnot
        exact h.quiet events' t hrun' hok' hraised
      exact ⟨hfits, hsize.2, hgroup, hcommands⟩
    · rintro ⟨hfits, hsize, hgroup, hcommands⟩
      obtain ⟨file, events, hrun⟩ := hends.mpr ⟨hfits, hgroup, hcommands⟩
      refine ⟨fun events p hp => transmitted_exact contents buf events hp, fun events' t hrun' hok' =>
        fun hraised => ?_, ⟨events, file, hrun⟩⟩
      exact hraises.mp ⟨events', t, hrun', hok', hraised⟩ ⟨hfits, hsize⟩

end FileSender

/-- **A short last packet that is lost once**: not every file is sent as it is to be, and one of
1025 bytes is not. -/
theorem lost_short_packet_raises : ¬∀ (contents : List UInt8) (buf : WriteBuf),
    SendsFile contents buf := by
  intro h
  have hlength : (List.replicate 1025 (7 : UInt8)).length = 1025 := List.length_replicate
  have hraises : Raises (List.replicate 1025 7) := by
    apply raises_short
    · rw [numPackets, hlength]
      decide
    · rw [numPackets, numFullPackets, hlength]
      decide
    · rw [numFullPackets, hlength]
      decide
  obtain ⟨events, t, hrun, hok, hraised⟩ := (exists_run_stepBuf _ (Vector.replicate packetSize 0)
    (P := fun t => t.sender = .raised)).mpr hraises
  exact (h _ _).quiet events t hrun hok hraised

end SerialFileTransfer

end Samwise
