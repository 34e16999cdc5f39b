import Samwise.Lib.LittleEndian
import Samwise.Lib.Run

/-!
# Samwise — transferring files over the payload's serial link

`payload/helpers/serial_file_transfer.py`: `send_file` with `_send_missing_packets` and
`_request_missing_packets` on one side, `receive_file` on the other, as two machines that
exchange whole packets. What `SerialPacketHandler.write_packet` returns is not looked at by
either side, so a packet is delivered or it is not. The receiver is blocked while it writes a
list of missing packets, until that list is delivered or given up.

A Python exception ends the function it is raised in.
-/

namespace Samwise

namespace SerialFileTransfer

/-! ## Constants and packets -/

/-- `PACKET_SIZE`. -/
def packetSize : Nat := 1024

/-- `GROUP_SIZE`. -/
def groupSize : Nat := 32

/-- `MAX_ACK_RETRIES`. -/
def maxAckRetries : Nat := 3

/-- `MAX_RESEND_CYCLES`. -/
def maxResendCycles : Nat := 3

/-- `MAX_BAD_PACKETS`. -/
def maxBadPackets : Nat := 3

/-- `SEND_ACK`, the bytes of `!SEND_ACK!`. -/
def sendAck : List UInt8 := "!SEND_ACK!".toUTF8.data.toList

/-- `ABORT_FILE_TRANSFER`, the bytes of `!ABORT!`. -/
def abortFileTransfer : List UInt8 := "!ABORT!".toUTF8.data.toList

/-- What `read_packet` returns: the bytes and the sequence number. -/
structure SerialPacket where
  chunk : List UInt8
  seqNum : Nat
deriving DecidableEq

/-- `int.to_bytes(4, "big")`. -/
def toBytes (n : Nat) : List UInt8 := (LittleEndian.encode 4 n).reverse

/-- `int.from_bytes(_, "big")`. -/
def fromBytes (bytes : List UInt8) : Nat := LittleEndian.decode bytes.reverse

/-! ## The sender -/

/-- Where `send_file` is. In a request, `next` is the packet the loop over the full packets
goes on with, or `none` behind the last group; `cycle` and `attempt` count the two loops. -/
inductive Sender where
  | sendCount
  | sendFull (seqNum : Nat)
  | sendPartial
  | request (next : Option Nat) (cycle attempt : Nat)
  | await (next : Option Nat) (cycle attempt : Nat)
  | resend (next : Option Nat) (cycle seqNum : Nat) (rest : List Nat)
  | abort
  | finished
  | raised
deriving DecidableEq

section SendFile

variable (contents : List UInt8)

/-- `num_full_packets`. -/
def numFullPackets : Nat := contents.length / packetSize

/-- `num_packets`. -/
def numPackets : Nat := (contents.length + (packetSize - 1)) / packetSize

/-- `f.read(PACKET_SIZE)` behind `f.seek(seq_num * PACKET_SIZE)`. -/
def readChunk (seqNum : Nat) : List UInt8 := (contents.drop (seqNum * packetSize)).take packetSize

/-- The loop over the full packets, before packet `seqNum`, and what follows it. -/
def sendFrom (seqNum : Nat) : Sender :=
  if seqNum < numFullPackets contents then .sendFull seqNum
  else if numPackets contents ≠ numFullPackets contents then .sendPartial
  else .request none 0 0

/-- `_send_missing_packets` returned `True`. -/
def sendNext (next : Option Nat) : Sender :=
  match next with
  | some seqNum => sendFrom contents seqNum
  | none => .finished

/-- A resend cycle is over. -/
def nextCycle (next : Option Nat) (cycle : Nat) : Sender :=
  if cycle + 1 < maxResendCycles then .request next (cycle + 1) 0 else .abort

/-- The loop over the missing packets, behind a packet. -/
def afterResend (next : Option Nat) (cycle : Nat) : List Nat → Sender
  | [] => nextCycle next cycle
  | seqNum :: rest => .resend next cycle seqNum rest

/-- What the sender does with the list it requested. -/
def handleMissing (next : Option Nat) (cycle : Nat) (missingPackets : List Nat) : Sender :=
  match missingPackets with
  | [] => sendNext contents next
  | seqNum :: rest => .resend next cycle seqNum rest

/-- `read_packet` returned `None` in `_request_missing_packets`. -/
def noResponse (next : Option Nat) (cycle attempt : Nat) : Sender :=
  if attempt + 1 < maxAckRetries then .request next cycle (attempt + 1) else .abort

/-- The next `write_packet` of the sender, if it is at one: the packet, or `none` where an
exception comes first, and where the sender is afterwards. A sequence number is two bytes in
the packet's header, and a short last chunk does not fit the slice it is assigned to when it
is sent again. -/
def sendStep : Sender → Option (Option SerialPacket × Sender)
  | .sendCount =>
    if numPackets contents < 256 ^ 4 then
      some (some ⟨toBytes (numPackets contents), 0⟩, sendFrom contents 0)
    else some (none, .raised)
  | .sendFull seqNum =>
    if seqNum < 256 ^ 2 then
      some (some ⟨readChunk contents seqNum, seqNum⟩,
        if seqNum % groupSize = groupSize - 1 then .request (some (seqNum + 1)) 0 0
        else sendFrom contents (seqNum + 1))
    else some (none, .raised)
  | .sendPartial =>
    if numFullPackets contents < 256 ^ 2 then
      some (some ⟨readChunk contents (numFullPackets contents), numFullPackets contents⟩,
        .request none 0 0)
    else some (none, .raised)
  | .request next cycle attempt => some (some ⟨sendAck, 0⟩, .await next cycle attempt)
  | .resend next cycle seqNum rest =>
    if (readChunk contents seqNum).length = packetSize ∧ seqNum < 256 ^ 2 then
      some (some ⟨readChunk contents seqNum, seqNum⟩, afterResend next cycle rest)
    else some (none, .raised)
  | .abort => some (some ⟨abortFileTransfer, 0⟩, .finished)
  | .await _ _ _ => none
  | .finished => none
  | .raised => none

/-- The sender is at a packet that it cannot write. -/
def Sender.Raises : Sender → Prop
  | .sendCount => ¬numPackets contents < 256 ^ 4
  | .sendFull seqNum => ¬seqNum < 256 ^ 2
  | .sendPartial => ¬numFullPackets contents < 256 ^ 2
  | .resend _ _ seqNum _ =>
    ¬((readChunk contents seqNum).length = packetSize ∧ seqNum < 256 ^ 2)
  | _ => False

/-- What the sender does at a `write_packet`. -/
inductive Sender.Writes : Sender → Option SerialPacket → Sender → Prop
  | count (hcount : numPackets contents < 256 ^ 4) :
      Writes .sendCount (some ⟨toBytes (numPackets contents), 0⟩) (sendFrom contents 0)
  | full {seqNum : Nat} (hnumber : seqNum < 256 ^ 2) :
      Writes (.sendFull seqNum) (some ⟨readChunk contents seqNum, seqNum⟩)
        (if seqNum % groupSize = groupSize - 1 then .request (some (seqNum + 1)) 0 0
        else sendFrom contents (seqNum + 1))
  | short (hnumber : numFullPackets contents < 256 ^ 2) :
      Writes .sendPartial
        (some ⟨readChunk contents (numFullPackets contents), numFullPackets contents⟩)
        (.request none 0 0)
  | request (next : Option Nat) (cycle attempt : Nat) :
      Writes (.request next cycle attempt) (some ⟨sendAck, 0⟩) (.await next cycle attempt)
  | again {next : Option Nat} {cycle seqNum : Nat} {rest : List Nat}
      (hwhole : (readChunk contents seqNum).length = packetSize) (hnumber : seqNum < 256 ^ 2) :
      Writes (.resend next cycle seqNum rest) (some ⟨readChunk contents seqNum, seqNum⟩)
        (afterResend next cycle rest)
  | abort : Writes .abort (some ⟨abortFileTransfer, 0⟩) .finished
  | raises {sender : Sender} (hraises : sender.Raises contents) : Writes sender none .raised

variable {contents}

theorem sendStep_writes {sender sender' : Sender} {packet : Option SerialPacket}
    (h : sendStep contents sender = some (packet, sender')) :
    sender.Writes contents packet sender' := by
  cases sender with
  | sendCount =>
    simp only [sendStep] at h
    split at h
    · next hcount =>
      obtain ⟨rfl, rfl⟩ := Prod.mk.inj (Option.some.inj h)
      exact .count hcount
    · next hcount =>
      obtain ⟨rfl, rfl⟩ := Prod.mk.inj (Option.some.inj h)
      exact .raises hcount
  | sendFull seqNum =>
    simp only [sendStep] at h
    split at h
    · next hnumber =>
      obtain ⟨rfl, rfl⟩ := Prod.mk.inj (Option.some.inj h)
      exact .full hnumber
    · next hnumber =>
      obtain ⟨rfl, rfl⟩ := Prod.mk.inj (Option.some.inj h)
      exact .raises hnumber
  | sendPartial =>
    simp only [sendStep] at h
    split at h
    · next hnumber =>
      obtain ⟨rfl, rfl⟩ := Prod.mk.inj (Option.some.inj h)
      exact .short hnumber
    · next hnumber =>
      obtain ⟨rfl, rfl⟩ := Prod.mk.inj (Option.some.inj h)
      exact .raises hnumber
  | request next cycle attempt =>
    obtain ⟨rfl, rfl⟩ := Prod.mk.inj (Option.some.inj h)
    exact .request next cycle attempt
  | resend next cycle seqNum rest =>
    simp only [sendStep] at h
    split at h
    · next hfits =>
      obtain ⟨rfl, rfl⟩ := Prod.mk.inj (Option.some.inj h)
      exact .again hfits.1 hfits.2
    · next hfits =>
      obtain ⟨rfl, rfl⟩ := Prod.mk.inj (Option.some.inj h)
      exact .raises hfits
  | abort =>
    obtain ⟨rfl, rfl⟩ := Prod.mk.inj (Option.some.inj h)
    exact .abort
  | await next cycle attempt => cases h
  | finished => cases h
  | raised => cases h

end SendFile

/-! ## The receiver -/

/-- The variables of `receive_file` in its loop, and the local file. -/
structure Receiving where
  numPackets : Nat
  missingPackets : List Nat
  groupStart : Nat
  consecutiveBadPackets : Nat
  receivedLastPacket : Bool
  file : List UInt8
deriving DecidableEq

/-- Where `receive_file` is. -/
inductive Receiver where
  | waiting
  | receiving (r : Receiving)
  | returned (result : Bool) (file : List UInt8)
  | raised
deriving DecidableEq

/-- `[i for i in range(group_start, min(group_start + GROUP_SIZE, num_packets))]`. -/
def group (groupStart numPackets : Nat) : List Nat :=
  List.range' groupStart (min (groupStart + groupSize) numPackets - groupStart)

/-- `f.seek(offset)` and `f.write(chunk)`: a gap reads as zeros, and nothing is written for
an empty chunk. -/
def writeAt (file : List UInt8) (offset : Nat) (chunk : List UInt8) : List UInt8 :=
  if chunk = [] then file
  else file.take offset ++ List.replicate (offset - file.length) 0 ++ chunk ++
    file.drop (offset + chunk.length)

/-- The top of the loop for a good packet, whatever it carries. -/
def Receiving.good (r : Receiving) (p : SerialPacket) : Receiving :=
  { r with consecutiveBadPackets := 0, missingPackets := r.missingPackets.erase p.seqNum }

/-- The branch for a normal packet. -/
def Receiving.writeChunk (r : Receiving) (p : SerialPacket) : Receiving :=
  { r with
    file := writeAt r.file (p.seqNum * packetSize) p.chunk
    receivedLastPacket := r.receivedLastPacket || p.seqNum == r.numPackets - 1 }

/-- The branch for `SEND_ACK`, once the list is sent. The log lines index the list of a new
group, which raises if it is empty. -/
def Receiving.afterAck (r : Receiving) : Receiver :=
  if r.missingPackets = [] then
    if r.receivedLastPacket = true then .returned true r.file
    else
      let groupStart := r.groupStart + groupSize
      let missingPackets := group groupStart r.numPackets
      if missingPackets = [] then .raised
      else .receiving { r with groupStart, missingPackets }
  else .receiving r

/-- A packet in the loop of `receive_file`: the missing list it answers with, if it does, and
where it goes on. -/
def receivePacket (r : Receiving) (p : SerialPacket) : Option (List Nat) × Receiver :=
  let r := r.good p
  if p.chunk = abortFileTransfer then (none, .returned false r.file)
  else if p.chunk = sendAck then (some r.missingPackets, r.afterAck)
  else (none, .receiving (r.writeChunk p))

/-- `read_packet` returns a packet to `receive_file`. -/
def receiveStep (receiver : Receiver) (p : SerialPacket) : Option (List Nat) × Receiver :=
  match receiver with
  | .waiting =>
    let numPackets := fromBytes p.chunk
    let missingPackets := group 0 numPackets
    (none,
      if missingPackets = [] then .raised
      else .receiving ⟨numPackets, missingPackets, 0, 0, false, []⟩)
  | .receiving r => receivePacket r p
  | other => (none, other)

/-- `read_packet` returns `None` to `receive_file`. -/
def receiveBad : Receiver → Receiver
  | .waiting => .returned false []
  | .receiving r =>
    let r := { r with consecutiveBadPackets := r.consecutiveBadPackets + 1 }
    if r.consecutiveBadPackets < maxBadPackets then .receiving r else .returned false r.file
  | other => other

/-! ## The transfer -/

/-- Both sides, and the list of missing packets the receiver is writing. -/
structure Transfer where
  sender : Sender
  receiver : Receiver
  reply : Option (List Nat)
deriving DecidableEq

/-- Both sides at the start. -/
def Transfer.start : Transfer := ⟨.sendCount, .waiting, none⟩

/-- What can happen: the sender writes its next packet, which is delivered or lost; so is the
receiver's list; the sender gives up waiting for it; the receiver gets no good packet. -/
inductive TransferEvent where
  | write (delivered : Bool)
  | reply (delivered : Bool)
  | noResponse
  | badPacket
deriving DecidableEq

variable (contents : List UInt8)

/-- A step of the transfer of a file. -/
def step (s : Transfer) : TransferEvent → Option Transfer
  | .write delivered =>
    match sendStep contents s.sender with
    | none => none
    | some (none, sender) => some { s with sender }
    | some (some p, sender) =>
      if delivered = false then some { s with sender }
      else if s.reply = none then
        let received := receiveStep s.receiver p
        some ⟨sender, received.2, received.1⟩
      else none
  | .reply delivered =>
    match s.reply, s.sender with
    | none, _ => none
    | some missingPackets, .await next cycle _ =>
      if delivered = true then
        some ⟨handleMissing contents next cycle missingPackets, s.receiver, none⟩
      else some { s with reply := none }
    | some _, _ => if delivered = true then none else some { s with reply := none }
  | .noResponse =>
    match s.sender with
    | .await next cycle attempt => some { s with sender := noResponse next cycle attempt }
    | _ => none
  | .badPacket =>
    if s.reply = none then some { s with receiver := receiveBad s.receiver } else none

/-- What a step can do. -/
inductive Transfer.Moves (s : Transfer) : TransferEvent → Transfer → Prop
  | raises {delivered : Bool} {sender : Sender}
      (hsend : sendStep contents s.sender = some (none, sender)) :
      Moves s (.write delivered) { s with sender }
  | lost {p : SerialPacket} {sender : Sender}
      (hsend : sendStep contents s.sender = some (some p, sender)) :
      Moves s (.write false) { s with sender }
  | arrives {p : SerialPacket} {sender : Sender}
      (hsend : sendStep contents s.sender = some (some p, sender)) (hfree : s.reply = none) :
      Moves s (.write true) ⟨sender, (receiveStep s.receiver p).2, (receiveStep s.receiver p).1⟩
  | answered {missingPackets : List Nat} {next : Option Nat} {cycle attempt : Nat}
      (hreply : s.reply = some missingPackets) (hsender : s.sender = .await next cycle attempt) :
      Moves s (.reply true) ⟨handleMissing contents next cycle missingPackets, s.receiver, none⟩
  | answerLost {missingPackets : List Nat} (hreply : s.reply = some missingPackets) :
      Moves s (.reply false) { s with reply := none }
  | unanswered {next : Option Nat} {cycle attempt : Nat}
      (hsender : s.sender = .await next cycle attempt) :
      Moves s .noResponse { s with sender := noResponse next cycle attempt }
  | bad (hfree : s.reply = none) : Moves s .badPacket { s with receiver := receiveBad s.receiver }

variable {contents}

theorem step_moves {s s' : Transfer} {e : TransferEvent} (h : step contents s e = some s') :
    s.Moves contents e s' := by
  cases e with
  | write delivered =>
    simp only [step] at h
    split at h
    · cases h
    · next sender hsend =>
      obtain rfl := Option.some.inj h
      exact .raises hsend
    · next p sender hsend =>
      cases delivered with
      | false =>
        rw [if_pos rfl] at h
        obtain rfl := Option.some.inj h
        exact .lost hsend
      | true =>
        rw [if_neg (by decide)] at h
        split at h
        · next hfree =>
          obtain rfl := Option.some.inj h
          exact .arrives hsend hfree
        · cases h
  | reply delivered =>
    simp only [step] at h
    split at h
    · cases h
    · next missingPackets next cycle attempt hreply hsender =>
      split at h
      · next hdelivered =>
        obtain rfl := Option.some.inj h
        exact hdelivered ▸ .answered hreply hsender
      · next hlost =>
        obtain rfl := Option.some.inj h
        exact Bool.eq_false_iff.mpr hlost ▸ .answerLost hreply
    · next hreply _ =>
      split at h
      · cases h
      · next hlost =>
        obtain rfl := Option.some.inj h
        exact Bool.eq_false_iff.mpr hlost ▸ .answerLost hreply
  | noResponse =>
    simp only [step] at h
    split at h
    · next next cycle attempt hsender =>
      obtain rfl := Option.some.inj h
      exact .unanswered hsender
    · cases h
  | badPacket =>
    simp only [step] at h
    split at h
    · next hfree =>
      obtain rfl := Option.some.inj h
      exact .bad hfree
    · cases h

/-- A packet arrives where no list is on its way. -/
theorem step_write_delivered {s : Transfer} {p : SerialPacket} {sender : Sender}
    (h : sendStep contents s.sender = some (some p, sender)) (hfree : s.reply = none) :
    step contents s (.write true)
      = some ⟨sender, (receiveStep s.receiver p).2, (receiveStep s.receiver p).1⟩ := by
  simp only [step, h, hfree, Bool.true_eq_false, if_false, if_true]

end SerialFileTransfer

end Samwise
