import Samwise.Payload.PayloadUart
import Samwise.Payload.SerialPacketHandler
import Samwise.Lib.Run

/-!
# Samwise — what an ACK of the payload link says

Any number of `payload_uart_write_packet` calls against the Pi's `read_packet` loop, over a
line that delays, loses and corrupts bytes. The three ACKs of a transfer are one byte, and the
receive queue of the flight side keeps what came in before a call: an ACK says what the flight
side takes it for only as long as none is on its way that answers something else.

The invariant counts the ACKs on their way: at most one in the sync and the header stage, and
one in the body stage only if the Pi has returned the packet.
-/

namespace Samwise

open SerialLine

namespace PayloadLink

open PayloadUart (payloadUartWritePacket ackByte)
open SerialPacketHandler (readPacket)

/-- A call of `payload_uart_write_packet`, and what the Pi's `read_packet` has returned since
it began. -/
structure Call where
  packet : List UInt8
  seqNum : UInt16
  writer : Party PayloadUart.WritePacket
  delivered : List (List UInt8 × Nat)

/-- The link: `toPi` and `toFlight` are the bytes on their way and in the receive queues. -/
structure State where
  clock : Nat
  call : Option Call
  reader : Party SerialPacketHandler.ReadPacket
  toPi : List UInt8
  toFlight : List UInt8

/-- The Pi waits for its first packet. -/
def start : State := ⟨0, none, ⟨.waitForSync 0 0, 0⟩, [], []⟩

inductive Event where
  | call (packet : List UInt8) (seqNum : UInt16)
  | flight (now : Nat) (m : Move)
  | pi (now : Nat) (m : Move)
  /-- The loop of the Pi calls `read_packet` again. -/
  | readAgain (now : Nat)
  | loseToPi (i : Nat)
  | loseToFlight (i : Nat)
  | corruptToPi (i : Nat) (b : UInt8)
  /-- On the way to the flight side, no byte turns into an ACK. -/
  | corruptToFlight (i : Nat) (b : UInt8)
  deriving DecidableEq, Repr

/-- How far a call has come: the ACK it is after, or that it has returned. -/
inductive Stage where
  | sync | header | body | failed | succeeded
  deriving DecidableEq, Repr

def stage : PayloadUart.WritePacket → Stage
  | .sync _ _ | .awaitSyn _ _ | .safeSleep _ => .sync
  | .writeStart | .writeHeader _ _ | .awaitHeader _ => .header
  | .writeBody _ _ | .awaitBody _ => .body
  | .returned .successfulWrite => .succeeded
  | .returned _ => .failed

def Stage.Over (g : Stage) : Prop := g = .failed ∨ g = .succeeded

instance (g : Stage) : Decidable g.Over := inferInstanceAs (Decidable (_ ∨ _))

def Call.stage (c : Call) : Stage := PayloadLink.stage c.writer.state

/-- What `read_packet` returned, if it did and was successful. -/
def Call.deliver (c : Call) : SerialPacketHandler.ReadPacket → Call
  | .returned (some result) => { c with delivered := c.delivered ++ [result] }
  | _ => c

/-- The link after an event; `none` where the event is not possible. -/
def step (s : State) : Event → Option State
  | .call packet seqNum =>
    if ∀ c ∈ s.call, c.stage.Over then
      let writer := ⟨PayloadUart.writePacketEntry packet, s.clock⟩
      some { s with call := some ⟨packet, seqNum, writer, []⟩ }
    else none
  | .flight now m =>
    if now < s.clock then none
    else
      s.call.bind fun c =>
        (c.writer.move (payloadUartWritePacket c.packet c.seqNum) now s.toFlight m).map
          fun (writer, rest, out) =>
            { s with
              clock := now, call := some { c with writer }, toFlight := rest,
              toPi := s.toPi ++ out }
  | .pi now m =>
    if now < s.clock then none
    else
      (s.reader.move readPacket now s.toPi m).map fun (reader, rest, out) =>
        { s with
          clock := now, reader, toPi := rest, toFlight := s.toFlight ++ out,
          call := s.call.map fun c => c.deliver reader.state }
  | .readAgain now =>
    if now < s.clock then none
    else
      match s.reader.state with
      | .returned _ => some { s with clock := now, reader := ⟨.waitForSync 0 now, now⟩ }
      | _ => none
  | .loseToPi i => some { s with toPi := s.toPi.eraseIdx i }
  | .loseToFlight i => some { s with toFlight := s.toFlight.eraseIdx i }
  | .corruptToPi i b => some { s with toPi := s.toPi.set i b }
  | .corruptToFlight i b =>
    if b = ackByte then none else some { s with toFlight := s.toFlight.set i b }

/-! ## What is claimed and when it holds -/

def Call.Delivered (c : Call) : Prop := (c.packet, c.seqNum.toNat) ∈ c.delivered

instance (c : Call) : Decidable c.Delivered := inferInstanceAs (Decidable (_ ∈ _))

/-- A call that has returned `SUCCESSFUL_WRITE` has been delivered. -/
def State.Sound (s : State) : Prop := ∀ c ∈ s.call, c.stage = .succeeded → c.Delivered

/-- The number and the checksum in the header of the call. -/
def Call.fields (c : Call) : Nat × List UInt8 :=
  (c.seqNum.toNat, LittleEndian.le32 (crc32 c.packet))

/-- The ACK the Pi is about to send is one for what the call is waiting for, if it has not
returned: a sync while the call syncs, with no other ACK on its way; a header while the call is
at its header, with the call's number and checksum in it; a packet while the call is at its
body. -/
def Call.Expects (c : Call) (toFlight : List UInt8) : SerialPacketHandler.ReadPacket → Prop
  | .sendSyncAck => c.stage.Over ∨ c.stage = .sync ∧ ackByte ∉ toFlight
  | .sendHeaderAck h =>
    c.stage.Over ∨ c.stage = .header ∧ (h.seqNum, h.expectedCrc32) = c.fields
  | .sendBodyAck _ _ => c.stage.Over ∨ c.stage = .body
  | _ => True

/-- No call begins with an ACK on its way, and during a call the Pi sends only ACKs that the
call expects. -/
def InTurn (s : State) : Event → Prop
  | .call _ _ => ackByte ∉ s.toFlight
  | .pi _ .proceed => ∀ c ∈ s.call, c.Expects s.toFlight s.reader.state
  | _ => True

/-- The packet the Pi is about to acknowledge. -/
def acknowledged : SerialPacketHandler.ReadPacket → Option (List UInt8)
  | .sendBodyAck packet _ => some packet
  | _ => none

/-- The packet the Pi is about to acknowledge is the call's if its checksum is. -/
def NoCollision (s : State) : Event → Prop
  | .pi _ .proceed =>
    ∀ c ∈ s.call, ∀ packet ∈ acknowledged s.reader.state,
      crc32 packet = crc32 c.packet → packet = c.packet
  | _ => True

instance (c : Call) (toFlight : List UInt8) :
    (r : SerialPacketHandler.ReadPacket) → Decidable (c.Expects toFlight r)
  | .sendSyncAck => inferInstanceAs (Decidable (_ ∨ _))
  | .sendHeaderAck _ => inferInstanceAs (Decidable (_ ∨ _))
  | .sendBodyAck _ _ => inferInstanceAs (Decidable (_ ∨ _))
  | .waitForSync _ _ | .waitForStart _ _ | .readHeader _ _ | .readBody _ _ _ | .returned _ =>
    isTrue trivial

instance (s : State) : (e : Event) → Decidable (InTurn s e)
  | .call _ _ => inferInstanceAs (Decidable (_ ∉ _))
  | .pi _ .proceed => inferInstanceAs (Decidable (∀ c ∈ s.call, _))
  | .pi _ .expire | .pi _ .byte | .flight _ _ | .readAgain _ | .loseToPi _ | .loseToFlight _
  | .corruptToPi _ _ | .corruptToFlight _ _ => isTrue trivial

instance (s : State) : (e : Event) → Decidable (NoCollision s e)
  | .pi _ .proceed => inferInstanceAs (Decidable (∀ c ∈ s.call, ∀ packet ∈ acknowledged _, _))
  | .pi _ .expire | .pi _ .byte | .call _ _ | .flight _ _ | .readAgain _ | .loseToPi _
  | .loseToFlight _ | .corruptToPi _ _ | .corruptToFlight _ _ => isTrue trivial

instance (s : State) : Decidable s.Sound := inferInstanceAs (Decidable (∀ c ∈ s.call, _))

/-! ## What a move can do -/

/-- What an ACK moves a call on to. -/
def Stage.next : Stage → Stage
  | .sync => .header
  | .header => .body
  | .body => .succeeded
  | .failed => .failed
  | .succeeded => .succeeded

section Flight

variable {packet : List UInt8} {seqNum : UInt16} {p q : Party PayloadUart.WritePacket} {now : Nat}
  {inbox rest out : List UInt8} {m : Move}

/-- A move of a call: it stays in its stage or fails, and takes no ACK, or it takes one and goes
on to the next stage. -/
def FlightMove (g g' : Stage) (inbox rest : List UInt8) : Prop :=
  rest.count ackByte ≤ inbox.count ackByte ∧ (g' = g ∨ g' = .failed) ∨
    inbox = ackByte :: rest ∧ g' = g.next

theorem FlightMove.stay (inbox : List UInt8) (g : Stage) : FlightMove g g inbox inbox :=
  .inl ⟨Nat.le_refl _, .inl rfl⟩

theorem flightMove_of_put {b : UInt8} {next : Nat → PayloadUart.WritePacket} {g : Stage}
    (hact : payloadUartWritePacket packet seqNum p.state = .put b next)
    (hnext : stage (next now) = g)
    (hmove : p.move (payloadUartWritePacket packet seqNum) now inbox m = some (q, rest, out)) :
    FlightMove g (stage q.state) inbox rest := by
  obtain ⟨_, hq, hrest, _⟩ := Party.move_of_put hact hmove
  rw [hq, hnext, hrest]
  exact .stay inbox g

theorem flightMove_of_sleep {ticks : Nat} {next : Nat → PayloadUart.WritePacket} {g : Stage}
    (hact : payloadUartWritePacket packet seqNum p.state = .sleep ticks next)
    (hnext : stage (next now) = g ∨ stage (next now) = .failed)
    (hmove : p.move (payloadUartWritePacket packet seqNum) now inbox m = some (q, rest, out)) :
    FlightMove g (stage q.state) inbox rest := by
  obtain ⟨hq, hrest, _⟩ := Party.move_of_sleep hact hmove
  rw [hq, hrest]
  exact .inl ⟨Nat.le_refl _, hnext⟩

theorem flightMove_of_putBefore {deadline : Nat} {b : UInt8}
    {next late : Nat → PayloadUart.WritePacket} {g : Stage}
    (hact : payloadUartWritePacket packet seqNum p.state = .putBefore deadline b next late)
    (hnext : stage (next now) = g) (hlate : stage (late now) = g ∨ stage (late now) = .failed)
    (hmove : p.move (payloadUartWritePacket packet seqNum) now inbox m = some (q, rest, out)) :
    FlightMove g (stage q.state) inbox rest := by
  obtain ⟨hrest, ⟨hq, _⟩ | ⟨hq, _⟩⟩ := Party.move_of_putBefore hact hmove
  · rw [hq, hnext, hrest]
    exact .stay inbox g
  · rw [hq, hrest]
    exact .inl ⟨Nat.le_refl _, hlate⟩

theorem flightMove_of_receiveAck {from_ : Nat} {yes no : Nat → PayloadUart.WritePacket} {g : Stage}
    (hact : payloadUartWritePacket packet seqNum p.state = PayloadUart.receiveAck from_ yes no)
    (hyes : stage (yes now) = g.next) (hno : stage (no now) = g ∨ stage (no now) = .failed)
    (hmove : p.move (payloadUartWritePacket packet seqNum) now inbox m = some (q, rest, out)) :
    FlightMove g (stage q.state) inbox rest := by
  obtain ⟨_, ⟨hq, hrest⟩ | ⟨b, hq, hinbox⟩⟩ := Party.move_of_get hact hmove
  · -- the second is over
    rw [hq, hrest]
    exact .inl ⟨Nat.le_refl _, hno⟩
  · -- any byte ends the wait, and only an ACK ends it well
    by_cases hb : b = ackByte
    · rw [if_pos hb] at hq
      rw [hq, hinbox, hb]
      exact .inr ⟨rfl, hyes⟩
    · rw [if_neg hb] at hq
      rw [hq, hinbox]
      exact .inl ⟨List.count_le_count_cons, hno⟩

/-- **What one move of a call does.** One case for each place in the function. -/
theorem flightMove
    (hmove : p.move (payloadUartWritePacket packet seqNum) now inbox m = some (q, rest, out)) :
    FlightMove (stage p.state) (stage q.state) inbox rest := by
  cases hp : p.state with
  | sync tries sent =>
    by_cases hsent : sent < PayloadUart.synCount
    · have hact : payloadUartWritePacket packet seqNum p.state
          = .put PayloadUart.synByte fun _ => .sync tries (sent + 1) := by
        rw [hp]
        exact if_pos hsent
      exact flightMove_of_put hact rfl hmove
    · have hact : payloadUartWritePacket packet seqNum p.state
          = .sleep 0 fun now => .awaitSyn tries now := by
        rw [hp]
        exact if_neg hsent
      exact flightMove_of_sleep hact (.inl rfl) hmove
  | awaitSyn tries since =>
    have hact : payloadUartWritePacket packet seqNum p.state
        = PayloadUart.receiveAck since (fun _ => .writeStart) (fun _ => .safeSleep tries) := by
      rw [hp]
      rfl
    exact flightMove_of_receiveAck hact rfl (.inl rfl) hmove
  | safeSleep tries =>
    have hact : payloadUartWritePacket packet seqNum p.state
        = .sleep (PayloadUart.ofUs (100 * 1000)) fun _ =>
          if tries + 1 < PayloadUart.synRetries then .sync (tries + 1) 0
          else .returned .synUnsuccessful := by
      rw [hp]
      rfl
    refine flightMove_of_sleep hact ?_ hmove
    -- another try, or the last one is over
    split
    · exact .inl rfl
    · exact .inr rfl
  | writeStart =>
    have hact : payloadUartWritePacket packet seqNum p.state
        = .put PayloadUart.startByte fun now => .writeHeader now 0 := by
      rw [hp]
      rfl
    exact flightMove_of_put hact rfl hmove
  | writeHeader since written =>
    cases hb : (PayloadUart.computePacketHeader packet seqNum).toBytes[written]? with
    | some b =>
      have hact : payloadUartWritePacket packet seqNum p.state
          = .putBefore (since + PayloadUart.writeMaxTimeout) b
            (fun _ => .writeHeader since (written + 1)) (fun _ => .returned .uartWriteTimedout) := by
        rw [hp]
        simp only [payloadUartWritePacket, hb]
      -- a header that is not written in time ends the call
      exact flightMove_of_putBefore hact rfl (.inr rfl) hmove
    | none =>
      have hact : payloadUartWritePacket packet seqNum p.state
          = .sleep 0 fun now => .awaitHeader now := by
        rw [hp]
        simp only [payloadUartWritePacket, hb]
      exact flightMove_of_sleep hact (.inl rfl) hmove
  | awaitHeader since =>
    have hact : payloadUartWritePacket packet seqNum p.state
        = PayloadUart.receiveAck since (fun now => .writeBody now 0) (fun _ => .returned .headerUnacknowledged) := by
      rw [hp]
      rfl
    exact flightMove_of_receiveAck hact rfl (.inr rfl) hmove
  | writeBody since written =>
    cases hb : packet[written]? with
    | some b =>
      have hact : payloadUartWritePacket packet seqNum p.state
          = .putBefore (since + PayloadUart.writeMaxTimeout) b
            (fun _ => .writeBody since (written + 1)) (fun now => .awaitBody now) := by
        rw [hp]
        simp only [payloadUartWritePacket, hb]
      -- a body that is not written in time does not
      exact flightMove_of_putBefore hact rfl (.inl rfl) hmove
    | none =>
      have hact : payloadUartWritePacket packet seqNum p.state
          = .sleep 0 fun now => .awaitBody now := by
        rw [hp]
        simp only [payloadUartWritePacket, hb]
      exact flightMove_of_sleep hact (.inl rfl) hmove
  | awaitBody since =>
    have hact : payloadUartWritePacket packet seqNum p.state
        = PayloadUart.receiveAck since (fun _ => .returned .successfulWrite) (fun _ => .returned .finalWriteUnsuccessful) := by
      rw [hp]
      rfl
    exact flightMove_of_receiveAck hact rfl (.inr rfl) hmove
  | returned code =>
    have hact : payloadUartWritePacket packet seqNum p.state = .returned := by rw [hp]; rfl
    rw [Party.move_of_returned hact] at hmove
    cases hmove

end Flight

/-! ### The Pi -/

/-- The Pi has acknowledged a sync and not yet the header. -/
def BeforeHeader : SerialPacketHandler.ReadPacket → Prop
  | .waitForStart _ _ | .readHeader _ _ | .sendHeaderAck _ => True
  | _ => False

/-- The number and the checksum of the packet whose body the Pi reads or acknowledges. -/
def bodyFields : SerialPacketHandler.ReadPacket → Option (Nat × List UInt8)
  | .readBody h _ _ => some (h.seqNum, h.expectedCrc32)
  | .sendBodyAck packet seqNum => some (seqNum, LittleEndian.le32 (crc32 packet))
  | _ => none

/-- A state in which `read_packet` has returned a packet. -/
def result? : SerialPacketHandler.ReadPacket → Option (List UInt8 × Nat)
  | .returned result => result
  | _ => none

/-- What one move of the Pi does: it sends nothing, or one of the three ACKs. -/
inductive PiMove : Move → SerialPacketHandler.ReadPacket → SerialPacketHandler.ReadPacket →
    List UInt8 → Prop
  | quiet {m : Move} {r r' : SerialPacketHandler.ReadPacket}
      (hbefore : BeforeHeader r' → BeforeHeader r)
      (hfields : bodyFields r' = none ∨ bodyFields r' = bodyFields r) (hresult : result? r' = none) :
      PiMove m r r' []
  | syncAck (now : Nat) : PiMove .proceed .sendSyncAck (.waitForStart 0 now) [ackByte]
  | headerAck {h : SerialPacketHandler.DecodedHeader} {r' : SerialPacketHandler.ReadPacket}
      (hbefore : ¬BeforeHeader r')
      (hfields : bodyFields r' = none ∨ bodyFields r' = some (h.seqNum, h.expectedCrc32))
      (hresult : result? r' = none) : PiMove .proceed (.sendHeaderAck h) r' [ackByte]
  | bodyAck (packet : List UInt8) (seqNum : Nat) :
      PiMove .proceed (.sendBodyAck packet seqNum) (.returned (some (packet, seqNum))) [ackByte]

section Pi

open SerialPacketHandler (DecodedHeader)

variable {p q : Party SerialPacketHandler.ReadPacket} {now : Nat} {inbox rest out : List UInt8}
  {m : Move}

theorem checkBody_fields (h : DecodedHeader) (packet : List UInt8) :
    ¬BeforeHeader (SerialPacketHandler.checkBody h packet) ∧
      (bodyFields (SerialPacketHandler.checkBody h packet) = none ∨
        bodyFields (SerialPacketHandler.checkBody h packet) = some (h.seqNum, h.expectedCrc32)) ∧
      result? (SerialPacketHandler.checkBody h packet) = none := by
  unfold SerialPacketHandler.checkBody
  split
  · exact ⟨id, .inl rfl, rfl⟩
  · split
    · exact ⟨id, .inl rfl, rfl⟩
    · next hcrc =>
      refine ⟨id, .inr ?_, rfl⟩
      rw [Decidable.not_not.mp hcrc]
      rfl

/-- **What one move of the Pi does.** One case for each place in the function. -/
theorem piMove (hmove : p.move readPacket now inbox m = some (q, rest, out)) :
    PiMove m p.state q.state out := by
  cases hp : p.state with
  | waitForSync count since =>
    have hact : readPacket p.state = .get (since + SerialPacketHandler.timeout)
        (fun now b => SerialPacketHandler.countSync count now b) (fun _ => .returned none) := by
      rw [hp]
      rfl
    obtain ⟨rfl, ⟨hq, _⟩ | ⟨b, hq, _⟩⟩ := Party.move_of_get hact hmove
    · rw [hq]
      exact .quiet id (.inl rfl) rfl
    · rw [hq]
      dsimp only [SerialPacketHandler.countSync]
      generalize (if b = SerialPacketHandler.synByte then count + 1 else 0) = count'
      split
      · exact .quiet id (.inl rfl) rfl
      · exact .quiet id (.inl rfl) rfl
  | sendSyncAck =>
    have hact : readPacket p.state
        = .put SerialPacketHandler.ackByte fun now => .waitForStart 0 now := by
      rw [hp]
      rfl
    obtain ⟨rfl, hq, _, rfl⟩ := Party.move_of_put hact hmove
    rw [hq]
    exact .syncAck now
  | waitForStart count since =>
    have hmissed (now : Nat) : PiMove m (.waitForStart count since)
        (SerialPacketHandler.missedStart count now) [] := by
      unfold SerialPacketHandler.missedStart
      split
      · exact .quiet (fun _ => trivial) (.inl rfl) rfl
      · exact .quiet (fun _ => trivial) (.inl rfl) rfl
    have hact : readPacket p.state = .get (since + SerialPacketHandler.timeout)
        (fun now b => if b = SerialPacketHandler.primByte then .readHeader now []
          else SerialPacketHandler.missedStart count now)
        (fun now => SerialPacketHandler.missedStart count now) := by
      rw [hp]
      rfl
    obtain ⟨rfl, ⟨hq, _⟩ | ⟨b, hq, _⟩⟩ := Party.move_of_get hact hmove
    · rw [hq]
      exact hmissed now
    · rw [hq]
      split
      · exact .quiet (fun _ => trivial) (.inl rfl) rfl
      · exact hmissed now
  | readHeader since received =>
    have hact : readPacket p.state = .read SerialPacketHandler.headerLen
        (since + SerialPacketHandler.timeout) received (.readHeader since)
        (fun _ header => SerialPacketHandler.checkHeader header) (fun _ _ => .returned none) := by
      rw [hp]
      rfl
    obtain ⟨rfl, ⟨hq, _⟩ | ⟨b, hq, _⟩⟩ := Party.move_of_get hact hmove
    · rw [hq]
      exact .quiet (fun _ => trivial) (.inl rfl) rfl
    · rw [hq]
      dsimp only [SerialPacketHandler.checkHeader]
      split
      · split
        · exact .quiet (fun _ => trivial) (.inl rfl) rfl
        · exact .quiet (fun _ => trivial) (.inl rfl) rfl
      · exact .quiet (fun _ => trivial) (.inl rfl) rfl
  | sendHeaderAck h =>
    have hact : readPacket p.state = .put SerialPacketHandler.ackByte fun now =>
        if h.packetLength = 0 then SerialPacketHandler.checkBody h [] else .readBody h now [] := by
      rw [hp]
      rfl
    obtain ⟨rfl, hq, _, rfl⟩ := Party.move_of_put hact hmove
    rw [hq]
    split
    · -- a packet of no bytes is checked at once
      obtain ⟨hbefore, hfields, hresult⟩ := checkBody_fields h []
      exact .headerAck hbefore hfields hresult
    · exact .headerAck id (.inr rfl) rfl
  | readBody h since received =>
    -- whether all bytes came or the time is over, the packet is checked
    have hchecked (packet : List UInt8) : PiMove m (.readBody h since received)
        (SerialPacketHandler.checkBody h packet) [] := by
      obtain ⟨hbefore, hfields, hresult⟩ := checkBody_fields h packet
      exact .quiet (fun hnow => absurd hnow hbefore) hfields hresult
    have hact : readPacket p.state = .read h.packetLength (since + SerialPacketHandler.timeout)
        received (.readBody h since) (fun _ packet => SerialPacketHandler.checkBody h packet)
        (fun _ packet => SerialPacketHandler.checkBody h packet) := by
      rw [hp]
      rfl
    obtain ⟨rfl, ⟨hq, _⟩ | ⟨b, hq, _⟩⟩ := Party.move_of_get hact hmove
    · rw [hq]
      exact hchecked received
    · rw [hq]
      dsimp only
      split
      · exact hchecked _
      · exact .quiet id (.inr rfl) rfl
  | sendBodyAck packet seqNum =>
    have hact : readPacket p.state
        = .put SerialPacketHandler.ackByte fun _ => .returned (some (packet, seqNum)) := by
      rw [hp]
      rfl
    obtain ⟨rfl, hq, _, rfl⟩ := Party.move_of_put hact hmove
    rw [hq]
    exact .bodyAck packet seqNum
  | returned result =>
    have hact : readPacket p.state = .returned := by rw [hp]; rfl
    rw [Party.move_of_returned hact] at hmove
    cases hmove

end Pi

/-! ## The invariant -/

/-- The number and the checksum of the packet the Pi is at are the call's. -/
def Call.Carried (c : Call) (r : SerialPacketHandler.ReadPacket) : Prop :=
  ∀ f ∈ bodyFields r, f = c.fields

/-- The ACKs on their way during a call. One that is there in the header stage answers the
call's header, and the Pi has not acknowledged anything since. -/
def Call.Ordered (c : Call) (r : SerialPacketHandler.ReadPacket) (acks : Nat) : Prop :=
  match c.stage with
  | .sync => acks ≤ 1
  | .header => acks = 0 ∨ acks = 1 ∧ ¬BeforeHeader r ∧ c.Carried r
  | .body => c.Delivered ∨ acks = 0 ∧ c.Carried r
  | .succeeded => c.Delivered
  | .failed => True

variable {c : Call} {r r' : SerialPacketHandler.ReadPacket} {acks acks' : Nat}

/-- Bytes that get lost and what the Pi does without an ACK keep the order. -/
theorem Call.Ordered.mono (hord : c.Ordered r acks) (hacks : acks' ≤ acks)
    (hbefore : BeforeHeader r' → BeforeHeader r) (hcarried : c.Carried r → c.Carried r') :
    c.Ordered r' acks' := by
  unfold Call.Ordered at hord ⊢
  cases hg : c.stage with
  | sync =>
    simp only [hg] at hord ⊢
    omega
  | header =>
    simp only [hg] at hord ⊢
    rcases hord with hnone | ⟨hone, hpast, hc⟩
    · exact .inl (by omega)
    · -- the ACK may be gone, and if it is there it is the same one
      by_cases hacks' : acks' = 0
      · exact .inl hacks'
      · exact .inr ⟨by omega, fun hnow => hpast (hbefore hnow), hcarried hc⟩
  | body =>
    simp only [hg] at hord ⊢
    rcases hord with hdone | ⟨hnone, hc⟩
    · exact .inl hdone
    · exact .inr ⟨by omega, hcarried hc⟩
  | failed => trivial
  | succeeded =>
    simp only [hg] at hord ⊢
    exact hord

/-- A move of the call keeps the order: an ACK it takes was the only one. -/
theorem Call.Ordered.flight {writer : Party PayloadUart.WritePacket} {inbox rest : List UInt8}
    (hord : c.Ordered r (inbox.count ackByte))
    (hmove : FlightMove c.stage (PayloadLink.stage writer.state) inbox rest) :
    Call.Ordered { c with writer } r (rest.count ackByte) := by
  have hstage : Call.stage { c with writer } = PayloadLink.stage writer.state := rfl
  rcases hmove with ⟨hcount, hsame | hfailed⟩ | ⟨hinbox, hnext⟩
  · have hkept : c.Ordered r (rest.count ackByte) := hord.mono hcount id id
    unfold Call.Ordered at hkept ⊢
    rw [hstage, hsame]
    exact hkept
  · unfold Call.Ordered
    rw [hstage, hfailed]
    trivial
  · -- it takes an ACK: one less is on its way
    have hcount : inbox.count ackByte = rest.count ackByte + 1 := by
      rw [hinbox, List.count_cons_self]
    unfold Call.Ordered at hord ⊢
    rw [hstage, hnext]
    cases hg : c.stage with
    -- the one on its way was the answer to the sync
    | sync =>
      simp only [hg, Stage.next] at hord ⊢
      exact .inl (by omega)
    -- it was the answer to the header, so the Pi reads this body
    | header =>
      simp only [hg, Stage.next] at hord ⊢
      rcases hord with hnone | ⟨hone, _, hcarried⟩
      · omega
      · exact .inr ⟨by omega, hcarried⟩
    -- there is one only if the packet has been returned
    | body =>
      simp only [hg, Stage.next] at hord ⊢
      rcases hord with hdone | ⟨hnone, _⟩
      · exact hdone
      · omega
    | failed => trivial
    | succeeded =>
      simp only [hg, Stage.next] at hord ⊢
      exact hord

/-- Once a call is over, ACKs and the Pi do not matter to it. -/
theorem Call.Ordered.of_over (hord : c.Ordered r acks) (hover : c.stage.Over) :
    c.Ordered r' acks' := by
  unfold Call.Ordered at hord ⊢
  rcases hover with hg | hg
  · rw [hg]
    trivial
  · simp only [hg] at hord ⊢
    exact hord

theorem Call.deliver_of_none (hresult : result? r = none) : c.deliver r = c := by
  cases r with
  | returned result =>
    obtain rfl : result = none := hresult
    rfl
  | _ => rfl

/-- A packet with the number and the checksum of the call is the call's, collisions apart. -/
theorem Call.Carried.eq_packet {packet : List UInt8} {seqNum : Nat}
    (hcarried : c.Carried (.sendBodyAck packet seqNum))
    (hcrc : crc32 packet = crc32 c.packet → packet = c.packet) :
    (packet, seqNum) = (c.packet, c.seqNum.toNat) := by
  have hfields : (seqNum, LittleEndian.le32 (crc32 packet)) = c.fields := hcarried _ rfl
  have hseq : seqNum = c.seqNum.toNat := congrArg Prod.fst hfields
  have hword : LittleEndian.le32 (crc32 packet) = LittleEndian.le32 (crc32 c.packet) :=
    congrArg Prod.snd hfields
  have hsum : crc32 packet = crc32 c.packet := by
    rw [← LittleEndian.ofLe32_le32 (crc32 packet), hword, LittleEndian.ofLe32_le32]
  rw [hcrc hsum, hseq]

/-- A move of the Pi keeps the order, where it sends only ACKs that the call expects. -/
theorem Call.Ordered.pi {m : Move} {toFlight out : List UInt8}
    (hord : c.Ordered r (toFlight.count ackByte)) (hmove : PiMove m r r' out)
    (hexpects : m = .proceed → c.Expects toFlight r)
    (hcrc : m = .proceed → ∀ packet ∈ acknowledged r,
      crc32 packet = crc32 c.packet → packet = c.packet) :
    (c.deliver r').Ordered r' ((toFlight ++ out).count ackByte) := by
  rw [List.count_append]
  cases hmove with
  | quiet hbefore hfields hresult =>
    rw [Call.deliver_of_none hresult]
    refine hord.mono (Nat.le_refl _) hbefore fun hcarried f hf => ?_
    rcases hfields with hnone | hsame
    · rw [hnone] at hf
      cases hf
    · rw [hsame] at hf
      exact hcarried f hf
  | syncAck now =>
    rw [Call.deliver_of_none rfl]
    rcases hexpects rfl with hover | ⟨hg, hack⟩
    · exact hord.of_over hover
    · -- the only ACK on its way is the new one
      have hnone : toFlight.count ackByte = 0 := List.count_eq_zero.mpr hack
      unfold Call.Ordered
      simp only [hg, hnone]
      decide
  | headerAck hbefore hfields hresult =>
    rw [Call.deliver_of_none hresult]
    rcases hexpects rfl with hover | ⟨hg, hheader⟩
    · exact hord.of_over hover
    · unfold Call.Ordered at hord ⊢
      simp only [hg] at hord ⊢
      rcases hord with hnone | ⟨_, hpast, _⟩
      · -- none was on its way, and the Pi goes on to the body of this header
        refine .inr ⟨by rw [hnone]; decide, hbefore, fun f hf => ?_⟩
        rcases hfields with hempty | hsome
        · rw [hempty] at hf
          cases hf
        · rw [hsome] at hf
          exact (Option.some.inj hf).symm.trans hheader
      · exact absurd trivial hpast
  | bodyAck packet seqNum =>
    have hkept : c.Delivered → (c.deliver (.returned (some (packet, seqNum)))).Delivered :=
      fun hdone => List.mem_append_left _ hdone
    have hstage : (c.deliver (.returned (some (packet, seqNum)))).stage = c.stage := rfl
    unfold Call.Ordered at hord ⊢
    rw [hstage]
    rcases hexpects rfl with (hg | hg) | hg
    · rw [hg]
      trivial
    · simp only [hg] at hord ⊢
      exact hkept hord
    · simp only [hg] at hord ⊢
      rcases hord with hdone | ⟨_, hcarried⟩
      · exact .inl (hkept hdone)
      · -- the packet that is acknowledged is the call's
        have heq := hcarried.eq_packet (hcrc rfl packet rfl)
        refine .inl (List.mem_append_right _ ?_)
        rw [heq]
        exact List.mem_singleton_self _

/-! ## Over a run -/

/-- The invariant. -/
def State.Ordered (s : State) : Prop :=
  ∀ c ∈ s.call, c.Ordered s.reader.state (s.toFlight.count ackByte)

theorem State.Ordered.sound {s : State} (hord : s.Ordered) : s.Sound := by
  intro c hc hg
  have hcall := hord c hc
  unfold Call.Ordered at hcall
  simpa only [hg] using hcall

theorem count_set_le (bytes : List UInt8) (i : Nat) {b : UInt8} (hb : b ≠ ackByte) :
    (bytes.set i b).count ackByte ≤ bytes.count ackByte := by
  by_cases hi : i < bytes.length
  · rw [List.count_set hi]
    have hne : (b == ackByte) = false := beq_eq_false_iff_ne.mpr hb
    rw [hne]
    simp
  · rw [List.set_eq_of_length_le (by omega)]

theorem stage_writePacketEntry (packet : List UInt8) :
    stage (PayloadUart.writePacketEntry packet) = .sync ∨
      stage (PayloadUart.writePacketEntry packet) = .failed := by
  unfold PayloadUart.writePacketEntry
  split
  · exact .inr rfl
  · exact .inl rfl

/-- **One step keeps the order.** -/
theorem State.Ordered.step {s s' : State} {e : Event} (hord : s.Ordered) (hturn : InTurn s e)
    (hcrc : NoCollision s e) (hstep : PayloadLink.step s e = some s') : s'.Ordered := by
  cases e with
  | call packet seqNum =>
    simp only [PayloadLink.step] at hstep
    split at hstep <;> cases hstep
    rintro c ⟨⟩
    -- a call begins with no ACK on its way
    have hnone : s.toFlight.count ackByte = 0 := List.count_eq_zero.mpr hturn
    unfold Call.Ordered Call.stage
    rcases stage_writePacketEntry packet with hg | hg
    · simp only [hg, hnone]
      decide
    · simp only [hg]
  | flight now m =>
    simp only [PayloadLink.step] at hstep
    split at hstep
    · cases hstep
    · obtain ⟨c, hc, hmap⟩ := Option.bind_eq_some_iff.mp hstep
      obtain ⟨⟨writer, rest, out⟩, hmove, hs'⟩ := Option.map_eq_some_iff.mp hmap
      cases hs'
      rintro c' ⟨⟩
      exact (hord c hc).flight (flightMove hmove)
  | pi now m =>
    simp only [PayloadLink.step] at hstep
    split at hstep
    · cases hstep
    · obtain ⟨⟨reader, rest, out⟩, hmove, hs'⟩ := Option.map_eq_some_iff.mp hstep
      cases hs'
      intro c' hc'
      obtain ⟨c, hc, rfl⟩ := Option.map_eq_some_iff.mp hc'
      refine (hord c hc).pi (piMove hmove) ?_ ?_
      · rintro rfl
        exact hturn c hc
      · rintro rfl
        exact hcrc c hc
  | readAgain now =>
    simp only [PayloadLink.step] at hstep
    split at hstep
    · cases hstep
    · split at hstep <;> cases hstep
      intro c hc
      exact (hord c hc).mono (Nat.le_refl _) (fun hnow => hnow.elim) (fun _ f hf => by cases hf)
  | loseToPi i =>
    cases hstep
    exact hord
  | loseToFlight i =>
    cases hstep
    intro c hc
    exact (hord c hc).mono ((List.eraseIdx_sublist _ i).count_le ackByte) id id
  | corruptToPi i b =>
    cases hstep
    exact hord
  | corruptToFlight i b =>
    simp only [PayloadLink.step] at hstep
    split at hstep
    · cases hstep
    · next hb =>
      cases hstep
      intro c hc
      exact (hord c hc).mono (count_set_le s.toFlight i hb) id id

/-- **What a success says.** In a run in which no call begins with an ACK on its way, and in
which the Pi sends during a call only the ACKs that it expects, a call returns
`SUCCESSFUL_WRITE` only if the Pi's `read_packet` has returned its packet and number. -/
theorem payload_write_sound {events : List Event} {s : State}
    (hrun : Run.run step start events = some s)
    (hturn : Run.AllSteps step InTurn start events)
    (hcrc : Run.AllSteps step NoCollision start events) : s.Sound := by
  have hboth : Run.AllSteps step (fun s e => InTurn s e ∧ NoCollision s e) start events :=
    hturn.and step hcrc
  have hstart : start.Ordered := by
    rintro c ⟨⟩
  exact (Run.invariant step (fun s e s' hok hs hse => hs.step hok.1 hok.2 hse) hboth hrun
    hstart).sound

/-- A call up to the Pi's last ACK: sync, header and a body of one byte. -/
def transferEvents (packet : List UInt8) (seqNum : UInt16) : List Event :=
  List.flatten
    [[.call packet seqNum], List.replicate 4 (.flight 0 .proceed), List.replicate 3 (.pi 30 .byte),
      [.pi 30 .proceed, .flight 40 .byte], List.replicate 10 (.flight 40 .proceed),
      List.replicate 9 (.pi 130 .byte), [.pi 130 .proceed, .flight 140 .byte],
      List.replicate 2 (.flight 140 .proceed), [.pi 150 .byte, .pi 150 .proceed]]

theorem payload_write_sound_one_byte :
    ∃ s, Run.run step start (transferEvents [0x70] 7 ++ [.flight 160 .byte]) = some s ∧ s.Sound ∧
      ∀ c ∈ s.call, c.stage = .succeeded := by
  have hruns : (Run.run step start (transferEvents [0x70] 7 ++ [.flight 160 .byte])).any
      (fun s => decide (∀ c ∈ s.call, c.stage = .succeeded)) = true := by decide +kernel
  obtain ⟨s, hs, hg⟩ := (Option.any_eq_true _ _).mp hruns
  exact ⟨s, hs, payload_write_sound hs (by decide +kernel) (by decide +kernel),
    of_decide_eq_true hg⟩

/-- The last ACK of a transfer comes after its call has given up. The next call takes it for the
answer to its sync, and the two ACKs that follow for those to its header and its packet, while
the body is lost. -/
def staleAckEvents : List Event :=
  List.flatten
    [transferEvents [0x70] 7, [.flight 115340 .expire, .readAgain 115340, .call [0x71] 8],
      List.replicate 4 (.flight 115340 .proceed), [.flight 115340 .byte],
      List.replicate 3 (.pi 115370 .byte), [.pi 115370 .proceed],
      List.replicate 10 (.flight 115380 .proceed), [.flight 115380 .byte],
      List.replicate 2 (.flight 115480 .proceed), List.replicate 9 (.pi 115480 .byte),
      [.loseToPi 0, .pi 115480 .proceed, .flight 115490 .byte]]

theorem stale_ack_taken_for_delivery :
    ¬∀ (events : List Event) (s : State), Run.run step start events = some s →
      Run.AllSteps step NoCollision start events → s.Sound := by
  intro hall
  have hruns : (Run.run step start staleAckEvents).any (fun s => decide (¬s.Sound)) = true := by
    decide +kernel
  obtain ⟨s, hs, hunsound⟩ := (Option.any_eq_true _ _).mp hruns
  exact of_decide_eq_true hunsound (hall staleAckEvents s hs (by decide +kernel))

end PayloadLink

end Samwise
