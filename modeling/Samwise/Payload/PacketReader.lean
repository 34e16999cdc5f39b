import Samwise.Payload.Interoperability
import Samwise.Payload.ReadBounds

/-!
# Samwise — the packet reader on a line

`payload_uart_read_packet` has two models: `payloadUartReadPacket`, a program at the end of a serial
line that counts time in bits, and `readPacketStep`, which takes the answers of the clock and of the
queue and keeps the offset of every store. Each action of the first is a few answers of the second
(`Shows.becomes`), and so a call on a line is one of those that `Payload/ReadBounds` is about.

`receive_into` counts in 16 bits, and the first model does not: where a header asks for no byte, it
reads on behind the wrap. So the two are compared where fewer than 65535 bytes come.
-/

namespace Samwise

open SerialLine Run

namespace PayloadUart

/-! ## The two clocks -/

/-- A time in bits of the line, as the clock has it in microseconds. -/
def toUs (t : Nat) : Nat := t * 1000000 / baudRate

theorem toUs_byteTimeout {start t : Nat} :
    (toUs t : Int) - toUs start < ((1000 : UInt32) * 1000).toNat ↔ t < start + byteTimeout := by
  have hms : ((1000 : UInt32) * 1000).toNat = 1000000 := by decide
  have hticks : byteTimeout = 115200 := rfl
  rw [hms, hticks]
  unfold toUs baudRate
  omega

theorem toUs_blocking {start t : Nat} :
    (toUs t : Int) - toUs start < (uartReadWriteBlockingMs * 1000).toNat
      ↔ t < start + uartReadWriteBlocking := by
  have hms : (uartReadWriteBlockingMs * 1000).toNat = 50000 := by decide
  have hticks : uartReadWriteBlocking = 5760 := rfl
  rw [hms, hticks]
  unfold toUs baudRate
  omega

/-! ## The answers behind an action -/

/-- The byte that left the queue. -/
def UartAnswer.removedByte : UartAnswer → Option UInt8
  | .removed b => some b
  | _ => none

/-- The byte that was sent; the reader sends nothing but ACKs. -/
def UartAnswer.sentByte : UartAnswer → Option UInt8
  | .sent => some ackByte
  | _ => none

/-- What the hardware answers around the time `t`, in which bytes are taken and sent. -/
structure AnswersAt (t : Nat) (taken sent : List UInt8) (as : List UartAnswer) : Prop where
  clock : ∀ us, .now us ∈ as → us = toUs t
  taken : as.filterMap UartAnswer.removedByte = taken
  sent : as.filterMap UartAnswer.sentByte = sent

namespace AnswersAt

variable {t : Nat}

theorem now : AnswersAt t [] [] [.now (toUs t)] := by
  refine ⟨fun us h => ?_, rfl, rfl⟩
  cases List.mem_singleton.mp h
  rfl

theorem removed (b : UInt8) : AnswersAt t [b] [] [.removed b] :=
  ⟨fun _ h => (nomatch List.mem_singleton.mp h), rfl, rfl⟩

theorem empty : AnswersAt t [] [] [.empty] :=
  ⟨fun _ h => (nomatch List.mem_singleton.mp h), rfl, rfl⟩

theorem sentAck : AnswersAt t [] [ackByte] [.sent] :=
  ⟨fun _ h => (nomatch List.mem_singleton.mp h), rfl, rfl⟩

theorem append {taken taken' sent sent' : List UInt8} {as bs : List UartAnswer}
    (ha : AnswersAt t taken sent as) (hb : AnswersAt t taken' sent' bs) :
    AnswersAt t (taken ++ taken') (sent ++ sent') (as ++ bs) where
  clock us h := (List.mem_append.mp h).elim (ha.clock us) (hb.clock us)
  taken := by rw [List.filterMap_append, ha.taken, hb.taken]
  sent := by rw [List.filterMap_append, ha.sent, hb.sent]

end AnswersAt

/-! ## A call of `receive_into` -/

/-- A call at the condition of its loop, which began at the time `start` and has received some
bytes. -/
def Receive.waiting (numBytes : UInt16) (timeoutMs : UInt32) (start : Nat) (received : List UInt8) :
    Receive where
  numBytes
  timeoutMs
  bytesReceived := .ofNat received.length
  stored := (List.range received.length).zip received
  pos := .outer (toUs start)

section ReceiveInto

variable {numBytes : UInt16} {timeoutMs : UInt32} {start t : Nat} {received : List UInt8}

theorem map_snd_stored (received : List UInt8) :
    ((List.range received.length).zip received).map Prod.snd = received := by
  rw [List.map_snd_zip]
  exact Nat.le_of_eq List.length_range.symm

theorem stored_concat (received : List UInt8) (b : UInt8) :
    (List.range received.length).zip received ++ [(received.length, b)]
      = (List.range (received ++ [b]).length).zip (received ++ [b]) := by
  rw [List.length_append, List.length_singleton, List.range_succ,
    List.zip_append List.length_range]
  rfl

/-- Time is left, and a byte is in the queue. -/
theorem run_receiveInto_byte (numBytes : UInt16) (b : UInt8) (hlen : received.length + 1 < 2 ^ 16)
    (htime : (toUs t : Int) - toUs start < (timeoutMs * 1000).toNat) :
    run receiveInto (.waiting numBytes timeoutMs start received) [.now (toUs t), .removed b]
      = some { Receive.waiting numBytes timeoutMs start (received ++ [b]) with
          pos := if (received ++ [b]).length = numBytes.toNat then .returned numBytes
            else .inner (toUs start) } := by
  have hcount : (UInt16.ofNat received.length).toNat = received.length := by
    rw [UInt16.toNat_ofNat']
    exact Nat.mod_eq_of_lt (by omega)
  have hlength : (received ++ [b]).length = received.length + 1 := by
    rw [List.length_append, List.length_singleton]
  have hnext : UInt16.ofNat received.length + 1 = UInt16.ofNat (received ++ [b]).length := by
    rw [hlength, UInt16.ofNat_add]
    rfl
  have hfull : UInt16.ofNat (received ++ [b]).length = numBytes ↔
      (received ++ [b]).length = numBytes.toNat := by
    rw [← UInt16.toNat_inj, UInt16.toNat_ofNat', Nat.mod_eq_of_lt (by omega)]
  have hinner : receiveInto (.waiting numBytes timeoutMs start received) (.now (toUs t))
      = some { Receive.waiting numBytes timeoutMs start received with
          pos := .inner (toUs start) } := if_pos htime
  rw [run_cons, hinner, Option.bind_some, run_cons]
  simp only [receiveInto, Receive.waiting, hcount, hnext, stored_concat, hfull]
  rfl

/-- The time is over. -/
theorem run_receiveInto_late (htime : ¬(toUs t : Int) - toUs start < (timeoutMs * 1000).toNat) :
    run receiveInto (.waiting numBytes timeoutMs start received) [.now (toUs t)]
      = some { Receive.waiting numBytes timeoutMs start received with
          pos := .returned (.ofNat received.length) } := by
  have hdone : receiveInto (.waiting numBytes timeoutMs start received) (.now (toUs t))
      = some { Receive.waiting numBytes timeoutMs start received with
          pos := .returned (.ofNat received.length) } := if_neg htime
  rw [run_cons, hdone]
  rfl

/-- Answers to a call of `receive_into` are answers to the reader that made it. Induction on the
answers; behind a `return` there is none. -/
theorem run_receiving {again : Receive → PacketRead} {done : UInt16 → Receive → PacketRead}
    (hagain : ∀ r a, readPacketStep (again r) a = receiving r a again done) {r r' : Receive}
    {as : List UartAnswer} (hopen : ∀ n, r.pos ≠ .returned n)
    (hrun : run receiveInto r as = some r') :
    run readPacketStep (again r) as = some (match r'.pos with
      | .returned n => done n r'
      | _ => again r') := by
  induction as generalizing r with
  | nil =>
    obtain rfl : r = r' := Option.some.inj hrun
    split
    · next n hn => exact absurd hn (hopen n)
    · rfl
  | cons a as ih =>
    obtain ⟨r₁, hstep, hrest⟩ := run_cons_some _ hrun
    have hfirst : readPacketStep (again r) a = some (match r₁.pos with
        | .returned n => done n r₁
        | _ => again r₁) := by
      rw [hagain, receiving, hstep]
      rfl
    rw [run_cons, hfirst, Option.bind_some]
    by_cases hreturned : ∃ n, r₁.pos = .returned n
    · obtain ⟨n, hn⟩ := hreturned
      cases as with
      | nil =>
        obtain rfl : r₁ = r' := Option.some.inj hrest
        rfl
      | cons a' as =>
        obtain ⟨r₂, hstep₂, _⟩ := run_cons_some _ hrest
        obtain ⟨numBytes, timeoutMs, bytesReceived, stored, pos⟩ := r₁
        dsimp only at hn
        subst hn
        cases a' <;> cases hstep₂
    · have hopen₁ : ∀ n, r₁.pos ≠ .returned n := fun n hn => hreturned ⟨n, hn⟩
      have hagain₁ : (match r₁.pos with
          | .returned n => done n r₁
          | _ => again r₁) = again r₁ := by
        split
        · next n hn => exact absurd hn (hopen₁ n)
        · rfl
      rw [hagain₁]
      exact ih hopen₁ hrest

end ReceiveInto

/-! ## What the reader's state shows -/

/-- The second model is where the first one is: a call that waits is at the condition of its loop,
and the bytes it has received are stored. Behind `return`, the caller sees the same bytes. -/
inductive Shows : ReadPacket → PacketRead → Prop where
  | receiveSyn {count start : Nat} (hcount : count < synCount) :
      Shows (.receiveSyn count start) (.receiveSyn (.ofNat count) (.waiting 1 1000 start []))
  | sendSynAck : Shows .sendSynAck .sendSynAck
  | receiveHeaderStart {runCount start : Nat} (hcount : runCount < startTries) :
      Shows (.receiveHeaderStart runCount start)
        (.receiveHeaderStart (.ofNat runCount) (.waiting 1 1000 start []))
  | receiveHeader {start : Nat} {received : List UInt8} (hlen : received.length < headerLen) :
      Shows (.receiveHeader start received)
        (.receiveHeader (.waiting (.ofNat headerLen) uartReadWriteBlockingMs start received))
  | sendHeaderAck (header : PacketHeader) : Shows (.sendHeaderAck header) (.sendHeaderAck header)
  | receiveBody {header : PacketHeader} {start : Nat} {received : List UInt8}
      (hlen : header.length ≠ 0 → received.length < header.length.toNat) :
      Shows (.receiveBody header start received)
        (.receiveBody header (.waiting header.length uartReadWriteBlockingMs start received))
  | sendBodyAck {header : PacketHeader} {stored : List (Nat × UInt8)}
      (hlen : header.length.toNat ≤ stored.length) :
      Shows (.sendBodyAck ((stored.map Prod.snd).take header.length.toNat))
        (.sendBodyAck header stored)
  | returned {length : Nat} {packet : List UInt8} {n : UInt16} {stored : List (Nat × UInt8)}
      (hlength : n.toNat = length)
      (hpacket : packet.take length = (stored.map Prod.snd).take length) :
      Shows (.returned length packet) (.returned n stored)

/-- The bytes of the `receive_into` that waits. -/
def ReadPacket.received : ReadPacket → List UInt8
  | .receiveHeader _ received | .receiveBody _ _ received => received
  | _ => []

section Becomes

variable {start t : Nat} {b : UInt8}

/-- The reader is answered, and goes on with a call that reads the clock. -/
theorem run_concat_now (t : Nat) (again : Receive → PacketRead)
    {done : UInt16 → Receive → PacketRead} {p : PacketRead} {as : List UartAnswer}
    {numBytes : UInt16} {timeoutMs : UInt32}
    (hagain : ∀ r a, readPacketStep (again r) a = receiving r a again done)
    (hrun : run readPacketStep p as = some (again { numBytes, timeoutMs })) :
    run readPacketStep p (as ++ [.now (toUs t)])
      = some (again (.waiting numBytes timeoutMs t [])) := by
  rw [run_append, hrun, Option.bind_some]
  have hentry : run receiveInto { numBytes, timeoutMs } [.now (toUs t)]
      = some (.waiting numBytes timeoutMs t []) := rfl
  exact run_receiving hagain (fun _ h => by cases h) hentry

/-- A call that waits for one byte: it comes, or the time is over. -/
theorem run_receiveByte (start t : Nat) (again : Receive → PacketRead)
    (done : UInt16 → UInt8 → PacketRead)
    (hagain : ∀ r a, readPacketStep (again r) a
      = receiving r a again fun n r => done n r.receivedByte) :
    (t < start + byteTimeout → ∀ b, run readPacketStep (again (.waiting 1 1000 start []))
      [.now (toUs t), .removed b] = some (done 1 b)) ∧
    (start + byteTimeout ≤ t → ∃ b, run readPacketStep (again (.waiting 1 1000 start []))
      [.now (toUs t)] = some (done 0 b)) := by
  constructor
  · intro htime b
    exact run_receiving hagain (fun _ h => by cases h)
      (run_receiveInto_byte 1 b (by decide) (toUs_byteTimeout.mpr htime))
  · intro hlate
    exact ⟨_, run_receiving hagain (fun _ h => by cases h)
      (run_receiveInto_late fun h => absurd (toUs_byteTimeout.mp h) (Nat.not_lt.mpr hlate))⟩

/-- One more byte of the sync. -/
theorem run_afterSyn {count : Nat} {p : PacketRead} {as : List UartAnswer} {sent taken : List UInt8}
    (hcount : count < synCount) (has : AnswersAt t taken sent as)
    (hrun : run readPacketStep p as = some (afterSyn (.ofNat count) 1 b)) :
    ∃ as p', AnswersAt t taken sent as ∧ run readPacketStep p as = some p' ∧
      Shows (countSyn count t b) p' := by
  obtain ⟨n, hn⟩ : ∃ n, n = if b = synByte then count + 1 else count := ⟨_, rfl⟩
  have hsmall : n < 256 := by
    unfold synCount at hcount
    rw [hn]
    split <;> omega
  have hbyte : (UInt8.ofNat n).toNat = n := UInt8.toNat_ofNat_of_lt' hsmall
  have hcode : (if b = synByte then UInt8.ofNat count + 1 else .ofNat count) = .ofNat n := by
    rw [hn]
    split
    · exact (UInt8.ofNat_add count 1).symm
    · rfl
  have hafter : afterSyn (.ofNat count) 1 b
      = if n ≥ synCount then .sendSynAck else .receiveSyn (.ofNat n) receiveByte := by
    rw [afterSyn, if_neg (by decide)]
    dsimp only
    rw [hcode, hbyte]
  rw [countSyn, ← hn]
  rw [hafter] at hrun
  split at hrun
  · next hall =>
    rw [if_pos hall]
    exact ⟨as, _, has, hrun, .sendSynAck⟩
  · next hmore =>
    rw [if_neg hmore]
    have hnext := run_concat_now t (.receiveSyn (.ofNat n)) (fun _ _ => rfl) hrun
    have has' := has.append .now
    rw [List.append_nil, List.append_nil] at has'
    exact ⟨_, _, has', hnext, .receiveSyn (Nat.not_le.mp hmore)⟩

/-- One more byte where the header is to start. -/
theorem run_afterHeaderStart {runCount : Nat} {p : PacketRead} {as : List UartAnswer}
    {sent taken : List UInt8} (hcount : runCount < startTries) (has : AnswersAt t taken sent as)
    (hrun : run readPacketStep p as = some (afterHeaderStart (.ofNat runCount) 1 b)) :
    ∃ as p', AnswersAt t taken sent as ∧ run readPacketStep p as = some p' ∧
      Shows (if b = startByte then .receiveHeader t [] else wrongStart runCount t) p' := by
  have has' := has.append .now
  rw [List.append_nil, List.append_nil] at has'
  rw [afterHeaderStart, if_neg (by decide)] at hrun
  split at hrun
  · next hstart =>
    rw [if_pos hstart]
    have hnext := run_concat_now t .receiveHeader (fun _ _ => rfl) hrun
    exact ⟨_, _, has', hnext, .receiveHeader (by decide)⟩
  · next hstart =>
    have hnext : UInt8.ofNat runCount + 1 = UInt8.ofNat (runCount + 1) :=
      (UInt8.ofNat_add runCount 1).symm
    have hbyte : (UInt8.ofNat (runCount + 1)).toNat = runCount + 1 := by
      unfold startTries at hcount
      exact UInt8.toNat_ofNat_of_lt' (show runCount + 1 < 256 by omega)
    rw [if_neg hstart, wrongStart]
    rw [hnext, hbyte] at hrun
    split at hrun
    · next hmore =>
      rw [if_pos hmore]
      have hnext := run_concat_now t (.receiveHeaderStart (.ofNat (runCount + 1)))
        (fun _ _ => rfl) hrun
      exact ⟨_, _, has', hnext, .receiveHeaderStart hmore⟩
    · next hmore =>
      rw [if_neg hmore]
      exact ⟨as, _, has, hrun, .returned rfl rfl⟩

/-- A call that waits for more bytes: one comes, or the time is over. -/
theorem run_receiveBytes (start t : Nat) (again : Receive → PacketRead)
    (done : UInt16 → Receive → PacketRead) (numBytes : UInt16) {received : List UInt8}
    (hagain : ∀ r a, readPacketStep (again r) a = receiving r a again done)
    (hlen : received.length + 1 < 2 ^ 16) :
    (t < start + uartReadWriteBlocking → ∀ b, (received ++ [b]).length ≠ numBytes.toNat →
      run readPacketStep (again (.waiting numBytes uartReadWriteBlockingMs start received))
        [.now (toUs t), .removed b, .empty]
          = some (again (.waiting numBytes uartReadWriteBlockingMs start (received ++ [b])))) ∧
    (t < start + uartReadWriteBlocking → ∀ b, (received ++ [b]).length = numBytes.toNat →
      ∃ r, r.stored.map Prod.snd = received ++ [b] ∧
        run readPacketStep (again (.waiting numBytes uartReadWriteBlockingMs start received))
          [.now (toUs t), .removed b] = some (done numBytes r)) ∧
    (start + uartReadWriteBlocking ≤ t → ∃ r, r.stored.map Prod.snd = received ∧
      run readPacketStep (again (.waiting numBytes uartReadWriteBlockingMs start received))
        [.now (toUs t)] = some (done (.ofNat received.length) r)) := by
  refine ⟨fun htime b hmore => ?_, fun htime b hfull => ?_, fun hlate => ?_⟩
  · have hbyte := run_receiveInto_byte numBytes b hlen (toUs_blocking.mpr htime)
    rw [if_neg hmore] at hbyte
    have hempty : run receiveInto (.waiting numBytes uartReadWriteBlockingMs start received)
        ([.now (toUs t), .removed b] ++ [.empty])
          = some (.waiting numBytes uartReadWriteBlockingMs start (received ++ [b])) := by
      rw [run_append, hbyte]
      rfl
    exact run_receiving hagain (fun _ h => by cases h) hempty
  · have hbyte := run_receiveInto_byte numBytes b hlen (toUs_blocking.mpr htime)
    rw [if_pos hfull] at hbyte
    exact ⟨_, map_snd_stored _, run_receiving hagain (fun _ h => by cases h) hbyte⟩
  · have htime : ¬(toUs t : Int) - toUs start < (uartReadWriteBlockingMs * 1000).toNat :=
      fun h => absurd (toUs_blocking.mp h) (Nat.not_lt.mpr hlate)
    exact ⟨_, map_snd_stored _, run_receiving hagain (fun _ h => by cases h)
      (run_receiveInto_late htime)⟩

/-- What is made of the bytes behind the header. -/
theorem shows_checkBody {header : PacketHeader} {received : List UInt8} {n : UInt16} {r : Receive}
    (hstored : r.stored.map Prod.snd = received) (hn : n.toNat = received.length) :
    Shows (checkBody header received) (afterBody header n r) := by
  have hlength : r.stored.length = received.length := by
    rw [← hstored, List.length_map]
  have hlt : n < header.length ↔ received.length < header.length.toNat := by
    rw [UInt16.lt_iff_toNat_lt, hn]
  rw [checkBody, afterBody, hstored]
  by_cases hshort : received.length < header.length.toNat
  · rw [if_pos hshort, if_pos (hlt.mpr hshort)]
    exact .returned rfl rfl
  · rw [if_neg hshort, if_neg fun h => hshort (hlt.mp h)]
    split
    · exact .returned rfl rfl
    · rw [← hstored]
      exact .sendBodyAck (by omega)

/-- **An action is a few answers.** At the same time, with the same bytes taken and sent, the second
model comes to where the first one does. One case for each state of the first. -/
theorem Shows.becomes {s s' : ReadPacket} {p : PacketRead} {taken sent : List UInt8}
    (h : Shows s p) (hlen : s.received.length + 1 < 2 ^ 16)
    (hstep : (payloadUartReadPacket s).Becomes t taken sent s') :
    ∃ as p', AnswersAt t taken sent as ∧ run readPacketStep p as = some p' ∧ Shows s' p' := by
  have hbyte (b : UInt8) : AnswersAt t [b] [] [.now (toUs t), .removed b] :=
    AnswersAt.now.append (.removed b)
  have hack : AnswersAt t [] [ackByte] [.sent, .now (toUs t)] := AnswersAt.sentAck.append .now
  cases h with
  | @receiveSyn count start hcount =>
    obtain ⟨hcame, hlate⟩ := run_receiveByte start t (.receiveSyn (.ofNat count))
      (afterSyn (.ofNat count)) fun _ _ => rfl
    rcases hstep.of_get with ⟨b, htime, rfl, rfl, rfl⟩ | ⟨htime, rfl, rfl, rfl⟩
    · exact run_afterSyn hcount (hbyte b) (hcame htime b)
    · obtain ⟨b, hrun⟩ := hlate htime
      exact ⟨_, _, .now, hrun, .returned rfl rfl⟩
  | sendSynAck =>
    obtain ⟨rfl, rfl, rfl⟩ := hstep.of_put
    exact ⟨_, _, hack, rfl, .receiveHeaderStart (by decide)⟩
  | @receiveHeaderStart runCount start hcount =>
    obtain ⟨hcame, hlate⟩ := run_receiveByte start t (.receiveHeaderStart (.ofNat runCount))
      (afterHeaderStart (.ofNat runCount)) fun _ _ => rfl
    rcases hstep.of_get with ⟨b, htime, rfl, rfl, rfl⟩ | ⟨htime, rfl, rfl, rfl⟩
    · exact run_afterHeaderStart hcount (hbyte b) (hcame htime b)
    · obtain ⟨b, hrun⟩ := hlate htime
      exact ⟨_, _, .now, hrun, .returned rfl rfl⟩
  | @receiveHeader start received hshort =>
    change received.length + 1 < 2 ^ 16 at hlen
    obtain ⟨hmore, hfull, hlate⟩ := run_receiveBytes start t .receiveHeader afterHeader
      (.ofNat headerLen) (fun _ _ => rfl) hlen
    rcases hstep.of_get with ⟨b, htime, rfl, rfl, rfl⟩ | ⟨htime, rfl, rfl, rfl⟩
    · dsimp only
      by_cases hall : (received ++ [b]).length = headerLen
      · obtain ⟨r, hstored, hrun⟩ := hfull htime b hall
        rw [if_pos hall]
        rw [afterHeader, if_neg (by decide), hstored] at hrun
        exact ⟨_, _, hbyte b, hrun, .sendHeaderAck _⟩
      · rw [if_neg hall]
        have hlength : (received ++ [b]).length = received.length + 1 := List.length_append
        exact ⟨_, _, (hbyte b).append .empty, hmore htime b hall, .receiveHeader (by omega)⟩
    · obtain ⟨r, -, hrun⟩ := hlate htime
      have hcount : (UInt16.ofNat received.length).toNat < headerLen := by
        rw [UInt16.toNat_ofNat']
        exact Nat.lt_of_le_of_lt (Nat.mod_le _ _) hshort
      rw [afterHeader, if_pos hcount] at hrun
      exact ⟨_, _, .now, hrun, .returned rfl rfl⟩
  | sendHeaderAck header =>
    obtain ⟨rfl, rfl, rfl⟩ := hstep.of_put
    have hsent : readPacketStep (.sendHeaderAck header) .sent
        = if header.length.toNat > maxPacketLen then some (.returned 0 [])
          else some (.receiveBody header (receivePacket header)) := rfl
    by_cases hbig : header.length.toNat > maxPacketLen
    · rw [if_pos hbig] at hsent ⊢
      exact ⟨[.sent], _, .sentAck, (run_cons ..).trans (by rw [hsent]; rfl), .returned rfl rfl⟩
    · rw [if_neg hbig] at hsent ⊢
      have hcall : run readPacketStep (.sendHeaderAck header) [.sent]
          = some (.receiveBody header (receivePacket header)) := by
        rw [run_cons, hsent]
        rfl
      have hrun := run_concat_now t (.receiveBody header) (fun _ _ => rfl) hcall
      refine ⟨_, _, hack, hrun, .receiveBody fun hne => ?_⟩
      exact Nat.pos_of_ne_zero fun hzero => hne (UInt16.toNat_inj.mp hzero)
  | @receiveBody header start received hshort =>
    change received.length + 1 < 2 ^ 16 at hlen
    obtain ⟨hmore, hfull, hlate⟩ := run_receiveBytes start t (.receiveBody header)
      (afterBody header) header.length (fun _ _ => rfl) hlen
    rcases hstep.of_get with ⟨b, htime, rfl, rfl, rfl⟩ | ⟨htime, rfl, rfl, rfl⟩
    · dsimp only
      by_cases hall : (received ++ [b]).length = header.length.toNat
      · obtain ⟨r, hstored, hrun⟩ := hfull htime b hall
        rw [if_pos hall]
        exact ⟨_, _, hbyte b, hrun, shows_checkBody hstored hall.symm⟩
      · rw [if_neg hall]
        have hlength : (received ++ [b]).length = received.length + 1 := List.length_append
        refine ⟨_, _, (hbyte b).append .empty, hmore htime b hall, .receiveBody fun hne => ?_⟩
        have := hshort hne
        omega
    · obtain ⟨r, hstored, hrun⟩ := hlate htime
      have hcount : (UInt16.ofNat received.length).toNat = received.length := by
        rw [UInt16.toNat_ofNat']
        exact Nat.mod_eq_of_lt (Nat.lt_of_succ_lt hlen)
      exact ⟨_, _, .now, hrun, shows_checkBody hstored hcount⟩
  | @sendBodyAck header stored hfits =>
    obtain ⟨rfl, rfl, rfl⟩ := hstep.of_put
    have hlength : ((stored.map Prod.snd).take header.length.toNat).length
        = header.length.toNat := by
      rw [List.length_take, List.length_map]
      exact Nat.min_eq_left hfits
    refine ⟨[.sent], _, .sentAck, rfl, .returned hlength.symm ?_⟩
    rw [hlength, List.take_take, Nat.min_self]
  | returned hlength hpacket => cases hstep

end Becomes

/-! ## A run -/

section Runs

variable {s s' : ReadPacket} {t : Nat} {taken sent : List UInt8}

theorem length_received_becomes (hstep : (payloadUartReadPacket s).Becomes t taken sent s') :
    s'.received.length ≤ s.received.length + taken.length := by
  have hcheck (header : PacketHeader) (received : List UInt8) :
      (checkBody header received).received = [] := by
    unfold checkBody
    dsimp only
    split
    · rfl
    · split <;> rfl
  cases s with
  | receiveSyn count start =>
    rcases hstep.of_get with ⟨b, -, -, -, rfl⟩ | ⟨-, -, -, rfl⟩
    · dsimp only [countSyn]
      generalize (if b = synByte then count + 1 else count) = count'
      split <;> exact Nat.zero_le _
    · exact Nat.zero_le _
  | sendSynAck =>
    obtain ⟨-, -, rfl⟩ := hstep.of_put
    exact Nat.zero_le _
  | receiveHeaderStart runCount start =>
    rcases hstep.of_get with ⟨b, -, -, -, rfl⟩ | ⟨-, -, -, rfl⟩
    · dsimp only [wrongStart]
      split
      · exact Nat.zero_le _
      · split <;> exact Nat.zero_le _
    · exact Nat.zero_le _
  | receiveHeader start received =>
    rcases hstep.of_get with ⟨b, -, rfl, -, rfl⟩ | ⟨-, -, -, rfl⟩
    · dsimp only
      split
      · exact Nat.zero_le _
      · exact Nat.le_of_eq List.length_append
    · exact Nat.zero_le _
  | sendHeaderAck header =>
    obtain ⟨-, -, rfl⟩ := hstep.of_put
    split <;> exact Nat.zero_le _
  | receiveBody header start received =>
    rcases hstep.of_get with ⟨b, -, rfl, -, rfl⟩ | ⟨-, -, -, rfl⟩
    · dsimp only
      split
      · rw [hcheck]
        exact Nat.zero_le _
      · exact Nat.le_of_eq List.length_append
    · dsimp only
      rw [hcheck]
      exact Nat.zero_le _
  | sendBodyAck packet =>
    obtain ⟨-, -, rfl⟩ := hstep.of_put
    exact Nat.zero_le _
  | returned length packet => cases hstep

/-- **A call on a line is one with stores.** Whatever comes and whenever, the second model answers
to the same bytes and comes to where the first one does. Induction on the run. -/
theorem payloadUartReadPacket_runs {start : Nat}
    (hrun : Runs payloadUartReadPacket (.receiveSyn 0 start) taken sent s)
    (hlen : taken.length + 1 < 2 ^ 16) :
    s.received.length ≤ taken.length ∧ ∃ as p, as.filterMap UartAnswer.removedByte = taken ∧
      as.filterMap UartAnswer.sentByte = sent ∧ run readPacketStep .entry as = some p ∧
      Shows s p := by
  induction hrun with
  | refl =>
    exact ⟨Nat.le_refl _, [.now (toUs start)], _, rfl, rfl, rfl, .receiveSyn (by decide)⟩
  | @tail s s' taken sent bytes out t _ hstep ih =>
    rw [List.length_append] at hlen
    obtain ⟨hreceived, as, p, htaken, hsent, hp, hshows⟩ := ih (by omega)
    obtain ⟨bs, p', hbs, hp', hshows'⟩ := hshows.becomes (by omega) hstep
    refine ⟨?_, as ++ bs, p', ?_, ?_, ?_, hshows'⟩
    · rw [List.length_append]
      exact Nat.le_trans (length_received_becomes hstep) (Nat.add_le_add_right hreceived _)
    · rw [List.filterMap_append, htaken, hbs.taken]
    · rw [List.filterMap_append, hsent, hbs.sent]
    · rw [run_append, hp]
      exact hp'

end Runs

end PayloadUart

/-! ## From the Pi -/

namespace SerialPacketHandler

/-- The bytes that `write_packet` has yet to send, at most. -/
def WritePacket.unsent (packet : List UInt8) : WritePacket → Nat
  | .sync tries sent =>
    synCount - sent + synCount * (synRetries - 1 - tries) + 1 + headerLen + packet.length
  | .awaitSync tries _ | .sleeping tries =>
    synCount * (synRetries - 1 - tries) + 1 + headerLen + packet.length
  | .writePrim => 1 + headerLen + packet.length
  | .writeHeader written => headerLen - written + packet.length
  | .awaitHeader _ => packet.length
  | .writeBody written => packet.length - written
  | .awaitBody _ | .returned _ | .raised => 0

variable {packet taken sent : List UInt8} {seqNum t : Nat} {s s' : WritePacket}

theorem becomes_receiveAck {σ : Type} {start : Nat} {yes no : Nat → σ} {q : σ}
    (hstep : (receiveAck start yes no).Becomes t taken sent q) :
    sent = [] ∧ (q = yes t ∨ q = no t) := by
  rcases hstep.of_get with ⟨b, -, -, rfl, rfl⟩ | ⟨-, -, rfl, rfl⟩
  · refine ⟨rfl, ?_⟩
    split
    · exact .inl rfl
    · exact .inr rfl
  · exact ⟨rfl, .inr rfl⟩

theorem WritePacket.unsent_becomes (hstep : (writePacket packet seqNum s).Becomes t taken sent s') :
    sent.length + s'.unsent packet ≤ s.unsent packet := by
  cases s with
  | sync tries n =>
    simp only [writePacket] at hstep
    split at hstep
    · next hn =>
      cases hstep
      simp only [unsent, List.length_singleton]
      omega
    · cases hstep
      simp only [unsent, List.length_nil]
      omega
  | awaitSync tries start =>
    obtain ⟨rfl, rfl | rfl⟩ := becomes_receiveAck hstep
    · simp only [unsent, List.length_nil]
      omega
    · simp only [unsent, List.length_nil]
      omega
  | sleeping tries =>
    cases hstep
    dsimp only
    split
    · next hmore =>
      simp only [unsent, List.length_nil, synCount, synRetries] at hmore ⊢
      omega
    · exact Nat.zero_le _
  | writePrim =>
    cases hstep
    simp only [unsent, List.length_singleton]
    omega
  | writeHeader written =>
    simp only [writePacket] at hstep
    split at hstep
    · next b hb =>
      cases hstep
      have hw := (List.getElem?_eq_some_iff.mp hb).1
      rw [length_calculateHeader] at hw
      simp only [unsent, List.length_singleton]
      omega
    · cases hstep
      simp only [unsent, List.length_nil]
      omega
  | awaitHeader start =>
    obtain ⟨rfl, rfl | rfl⟩ := becomes_receiveAck hstep
    · exact Nat.le_of_eq (Nat.zero_add _)
    · exact Nat.zero_le _
  | writeBody written =>
    simp only [writePacket] at hstep
    split at hstep
    · next b hb =>
      cases hstep
      have hw := (List.getElem?_eq_some_iff.mp hb).1
      simp only [unsent, List.length_singleton]
      omega
    · cases hstep
      exact Nat.zero_le _
  | awaitBody start =>
    obtain ⟨rfl, rfl | rfl⟩ := becomes_receiveAck hstep
    · exact Nat.le_refl _
    · exact Nat.le_refl _
  | returned acknowledged => cases hstep
  | raised => cases hstep

/-- A call sends at most its syncs, the start byte, the header and the packet. -/
theorem length_sent_le (hrun : Runs (writePacket packet seqNum) s taken sent s') :
    sent.length + s'.unsent packet ≤ s.unsent packet := by
  induction hrun with
  | refl => exact Nat.le_of_eq (Nat.zero_add _)
  | tail _ hstep ih =>
    have hout := WritePacket.unsent_becomes hstep
    rw [List.length_append]
    omega

end SerialPacketHandler

namespace PayloadUart

/-- The bytes are stored one behind the other, from the first offset on. -/
theorem offsets_stored {as : List UartAnswer} {p : PacketRead}
    (hrun : run readPacketStep .entry as = some p) :
    p.stored.map Prod.fst = List.range p.stored.length := by
  have hentry : PacketRead.BeforeBody .entry := trivial
  rcases hentry.run hrun with hbefore | ⟨pre, post, header, -, -, hpost⟩
  · rw [hbefore.stored_eq]
    rfl
  · have hbody : BodyStores header (.receiveBody header (receivePacket header)) :=
      ⟨rfl, .call _ _⟩
    have hp := invariant_count readPacketStep (fun _ _ _ hs => BodyStores.step hs) hpost hbody
    exact hp.1.stored.1

/-- **A packet from the Pi stands in the caller's buffer.** Where a transfer over the line
completes, the reader has stored the packet, byte after byte from the first offset on, and
returned its length. -/
theorem stored_of_completes {holding piHolding : Nat} {packet : List UInt8} {seqNum : UInt16}
    (hlen : packet.length ≤ maxPacketLen) (h : CompletesFromPi holding piHolding packet seqNum) :
    ∃ as n stored, run readPacketStep .entry as = some (.returned n stored) ∧
      n.toNat = packet.length ∧ (stored.map Prod.snd).take packet.length = packet ∧
      stored.map Prod.fst = List.range stored.length := by
  obtain ⟨l, hreach, -, ⟨-, hread⟩, -, -⟩ := h
  obtain ⟨takenL, sentL, takenR, sentR, hline⟩ := hreach.runs
  have hsent : sentL.length ≤ 18 + packet.length := by
    refine Nat.le_trans (Nat.le_of_add_right_le (SerialPacketHandler.length_sent_le hline.left)) ?_
    dsimp only [Port.init, SerialPacketHandler.writePacketEntry]
    split
    · exact Nat.zero_le _
    · split
      · exact Nat.zero_le _
      · exact Nat.le_of_eq rfl
  have htaken : takenR.length ≤ sentL.length := by
    have hbytes : sentL = takenR ++ l.right.bytes := hline.toRight
    rw [hbytes, List.length_append]
    exact Nat.le_add_right _ _
  obtain ⟨-, as, p, -, -, hp, hshows⟩ := payloadUartReadPacket_runs hline.right (by
    unfold maxPacketLen at hlen
    omega)
  have hoffsets := offsets_stored hp
  rw [hread] at hshows
  cases hshows with
  | returned hlength hpacket =>
    refine ⟨as, _, _, hp, hlength, ?_, hoffsets⟩
    rw [← hpacket]
    exact List.take_length

end PayloadUart

end Samwise
