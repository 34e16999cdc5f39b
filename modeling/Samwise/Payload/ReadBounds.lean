import Mathlib.Data.List.Count
import Samwise.Lib.Run
import Samwise.Payload.PayloadUart

/-!
# Samwise — where the reads from the payload store

`receive_into` and `payload_uart_read_packet` once more, now with every answer that the clock
and the queue may give, in any order and at any time, and with each byte stored at its offset.
A step is one answer. `receive_into` compares the number of bytes with `num_bytes` only behind
a store, and the length in a header is compared with `MAX_PACKET_LEN`, not with the size of the
buffer that the caller has.
-/

namespace Samwise

open Run

namespace PayloadUart

/-! ## `receive_into` -/

/-- What the hardware answers. -/
inductive UartAnswer where
  /-- `get_absolute_time`, in microseconds. -/
  | now (us : Nat)
  /-- `queue_try_remove`, where a byte is in the queue. -/
  | removed (b : UInt8)
  /-- `queue_try_remove`, where none is. -/
  | empty
  /-- `uart_putc_raw` is done. -/
  | sent
  deriving DecidableEq, Repr

/-- Where in `receive_into` the processor is: before the first statement, at the condition of
one of the loops, or behind a `return`. -/
inductive ReceiveAt where
  | entry
  | outer (start : Nat)
  | inner (start : Nat)
  | returned (n : UInt16)
  deriving DecidableEq, Repr

/-- A call of `receive_into`, with what it has stored so far, in order and by the offset from
`dest`. -/
structure Receive where
  numBytes : UInt16
  timeoutMs : UInt32
  bytesReceived : UInt16 := 0
  stored : List (Nat × UInt8) := []
  pos : ReceiveAt := .entry
  deriving DecidableEq, Repr

/-- `receive_into`. -/
def receiveInto (r : Receive) (a : UartAnswer) : Option Receive :=
  match r.pos, a with
  | .entry, .now us => some { r with pos := .outer us }
  | .outer start, .now us =>
    if (us : Int) - start < (r.timeoutMs * 1000).toNat then some { r with pos := .inner start }
    else some { r with pos := .returned r.bytesReceived }
  | .inner start, .removed b =>
    let bytesReceived := r.bytesReceived + 1
    some { r with
      bytesReceived
      stored := r.stored ++ [(r.bytesReceived.toNat, b)]
      pos := if bytesReceived = r.numBytes then .returned r.numBytes else .inner start }
  | .inner start, .empty => some { r with pos := .outer start }
  | _, _ => none

/-- The call stores at most `num_bytes` bytes, all of them in the first `num_bytes` of `dest`,
and returns at most `num_bytes`. -/
structure Receive.Within (r : Receive) : Prop where
  count : r.stored.length ≤ r.numBytes.toNat
  inside : ∀ p ∈ r.stored, p.1 < r.numBytes.toNat
  result : ∀ n, r.pos = .returned n → n ≤ r.numBytes

def UartAnswer.isRemoved : UartAnswer → Bool
  | .removed _ => true
  | _ => false

/-- The number of bytes taken from the queue. -/
def removedCount (as : List UartAnswer) : Nat := as.countP UartAnswer.isRemoved

/-! ## `payload_uart_read_packet` -/

/-- The stages of `payload_uart_read_packet`. From `receive_body` on, with what was stored into
the caller's buffer. -/
inductive PacketRead where
  | receiveSyn (count : UInt8) (r : Receive)
  | sendSynAck
  | receiveHeaderStart (runCount : UInt8) (r : Receive)
  | receiveHeader (r : Receive)
  | sendHeaderAck (header : PacketHeader)
  | receiveBody (header : PacketHeader) (r : Receive)
  | sendBodyAck (header : PacketHeader) (stored : List (Nat × UInt8))
  | returned (length : UInt16) (stored : List (Nat × UInt8))
  deriving DecidableEq, Repr

/-- `receive_into(slate, &received_byte, 1, 1000)`. -/
def receiveByte : Receive := { numBytes := 1, timeoutMs := 1000 }

/-- `UART_READ_WRITE_BLOCKING_MS`. -/
def uartReadWriteBlockingMs : UInt32 := 50

/-- The `receive_into` of the packet itself. -/
def receivePacket (header : PacketHeader) : Receive :=
  { numBytes := header.length, timeoutMs := uartReadWriteBlockingMs }

/-- The byte behind a `receive_into` of one byte. -/
def Receive.receivedByte (r : Receive) : UInt8 := (r.stored.map Prod.snd).headD 0

/-- `receive_syn` behind a `receive_into`. -/
def afterSyn (count : UInt8) (received : UInt16) (receivedByte : UInt8) : PacketRead :=
  if received = 0 then .returned 0 [] else
  let count := if receivedByte = synByte then count + 1 else count
  if count.toNat ≥ synCount then .sendSynAck else .receiveSyn count receiveByte

/-- `receive_header_start` behind a `receive_into`. -/
def afterHeaderStart (runCount : UInt8) (received : UInt16) (receivedByte : UInt8) :
    PacketRead :=
  if received = 0 then .returned 0 [] else
  if receivedByte = startByte then
    .receiveHeader
      { numBytes := UInt16.ofNat headerLen, timeoutMs := uartReadWriteBlockingMs } else
  if (runCount + 1).toNat < startTries then .receiveHeaderStart (runCount + 1) receiveByte
  else .returned 0 []

/-- From the `receive_into` of the header to the ACK. -/
def afterHeader (bytesReceived : UInt16) (r : Receive) : PacketRead :=
  if bytesReceived.toNat < headerLen then .returned 0 []
  else .sendHeaderAck (.ofBytes (r.stored.map Prod.snd))

/-- From the `receive_into` of the packet to the ACK. -/
def afterBody (header : PacketHeader) (bytesReceived : UInt16) (r : Receive) : PacketRead :=
  if bytesReceived < header.length then .returned 0 r.stored else
  if crc32 ((r.stored.map Prod.snd).take header.length.toNat) ≠ header.checksum then
    .returned 0 r.stored
  else .sendBodyAck header r.stored

/-- One answer to a `receive_into`, and what comes behind its `return`. -/
def receiving (r : Receive) (a : UartAnswer) (again : Receive → PacketRead)
    (done : UInt16 → Receive → PacketRead) : Option PacketRead :=
  (receiveInto r a).map fun r =>
    match r.pos with
    | .returned n => done n r
    | _ => again r

/-- `payload_uart_read_packet`. -/
def readPacketStep (p : PacketRead) (a : UartAnswer) : Option PacketRead :=
  match p with
  | .receiveSyn count r =>
    receiving r a (.receiveSyn count) fun n r => afterSyn count n r.receivedByte
  | .sendSynAck => if a = .sent then some (.receiveHeaderStart 0 receiveByte) else none
  | .receiveHeaderStart runCount r =>
    receiving r a (.receiveHeaderStart runCount) fun n r =>
      afterHeaderStart runCount n r.receivedByte
  | .receiveHeader r => receiving r a .receiveHeader afterHeader
  | .sendHeaderAck header =>
    if a = .sent then
      if header.length.toNat > maxPacketLen then some (.returned 0 [])
      else some (.receiveBody header (receivePacket header))
    else none
  | .receiveBody header r => receiving r a (.receiveBody header) (afterBody header)
  | .sendBodyAck header stored =>
    if a = .sent then some (.returned header.length stored) else none
  | .returned _ _ => none

/-- The call of `payload_uart_read_packet`. -/
def PacketRead.entry : PacketRead := .receiveSyn 0 receiveByte

/-- What was stored into the caller's buffer. -/
def PacketRead.stored : PacketRead → List (Nat × UInt8)
  | .receiveBody _ r => r.stored
  | .sendBodyAck _ stored | .returned _ stored => stored
  | _ => []

/-- `MAX_RECEIVED_LEN`, the size of the buffer of `ping_command`. -/
def maxReceivedLen : Nat := 1024

/-- All that was stored lies in the buffer of `ping_command`. -/
def PacketRead.WithinPing (p : PacketRead) : Prop := ∀ q ∈ p.stored, q.1 < maxReceivedLen

/-- The header that is received says a length that the buffer has, or no more bytes come behind
it than the buffer has. -/
def BodyFits (as : List UartAnswer) : Prop :=
  ∀ pre post header, as = pre ++ post →
    run readPacketStep .entry pre = some (.receiveBody header (receivePacket header)) →
    (0 < header.length.toNat ∧ header.length.toNat ≤ maxReceivedLen) ∨
      removedCount post ≤ maxReceivedLen

/-! ## What a call of `receive_into` keeps -/

/-- The bytes are stored one behind the other. Until the call returns, `bytes_received` says how
many there are; a number of bytes that is not zero is never passed. -/
structure Receive.Stores (numBytes : UInt16) (r : Receive) : Prop where
  args : r.numBytes = numBytes
  offsets : r.stored.map Prod.fst = List.range r.stored.length
  running : (∀ n, r.pos ≠ .returned n) → r.bytesReceived.toNat = r.stored.length ∧
    (numBytes ≠ 0 → r.stored.length < numBytes.toNat)
  count : numBytes ≠ 0 → r.stored.length ≤ numBytes.toNat
  result : ∀ n, r.pos = .returned n → n.toNat ≤ r.stored.length

/-- The counter wraps only where the number asked for is zero, and there the call returns. -/
theorem toNat_add_one {b n : UInt16} (hne : b + 1 ≠ n) (hlt : n ≠ 0 → b.toNat < n.toNat) :
    (b + 1).toNat = b.toNat + 1 := by
  have hsum : (b + 1).toNat = (b.toNat + 1) % 65536 := UInt16.toNat_add b 1
  rw [hsum]
  apply Nat.mod_eq_of_lt
  have hb := b.toNat_lt
  have hn := n.toNat_lt
  refine Nat.lt_of_le_of_ne hb fun hwrap => ?_
  by_cases hzero : n = 0
  · apply hne
    rw [hzero, ← UInt16.toNat_inj, hsum, hwrap]
    rfl
  · have := hlt hzero
    omega

namespace Receive.Stores

variable {numBytes : UInt16} {r r' : Receive} {a : UartAnswer}

/-- The call has just been entered. -/
theorem call (numBytes : UInt16) (timeoutMs : UInt32) :
    Stores numBytes { numBytes, timeoutMs } := by
  refine ⟨rfl, rfl, fun _ => ⟨rfl, fun h => ?_⟩, fun _ => Nat.zero_le _, nofun⟩
  exact Nat.pos_of_ne_zero fun hzero => h (UInt16.toNat_inj.mp hzero)

/-- A byte is stored behind the others, and the call returns or still has room. -/
theorem stored {n : UInt16} {timeoutMs : UInt32} {bytesReceived : UInt16}
    {stored : List (Nat × UInt8)} {start : Nat} (b : UInt8)
    (h : Stores n ⟨n, timeoutMs, bytesReceived, stored, .inner start⟩) :
    Stores n ⟨n, timeoutMs, bytesReceived + 1, stored ++ [(bytesReceived.toNat, b)],
      if bytesReceived + 1 = n then .returned n else .inner start⟩ := by
  obtain ⟨hreceived, hlt⟩ := h.running nofun
  dsimp only at hreceived hlt
  have hoffsets : stored.map Prod.fst = List.range stored.length := h.offsets
  have hlength : (stored ++ [(bytesReceived.toNat, b)]).length = stored.length + 1 :=
    List.length_append
  refine ⟨rfl, ?_, fun hopen => ?_, fun hn => ?_, fun m hm => ?_⟩
  · simp [hoffsets, List.range_succ, hreceived]
  · have hne : bytesReceived + 1 ≠ n := by
      intro heq
      exact hopen n (if_pos heq)
    have hnext := toNat_add_one hne fun hn => hreceived ▸ hlt hn
    refine ⟨hnext.trans (by rw [hlength, hreceived]), fun hn => ?_⟩
    have hneq : (bytesReceived + 1).toNat ≠ n.toNat := fun h => hne (UInt16.toNat_inj.mp h)
    rw [hnext, hreceived] at hneq
    have := hlt hn
    rw [hlength]
    omega
  · rw [hlength]
    exact hlt hn
  · dsimp only at hm
    split at hm
    · next heq =>
      cases hm
      have hsum : (bytesReceived + 1).toNat = (bytesReceived.toNat + 1) % 65536 :=
        UInt16.toNat_add bytesReceived 1
      rw [← heq, hsum, hlength, ← hreceived]
      exact Nat.mod_le _ _
    · cases hm

/-- One answer. -/
theorem step (h : Stores numBytes r) (hstep : receiveInto r a = some r') :
    Stores numBytes r' ∧ r'.stored.length = r.stored.length + (if a.isRemoved then 1 else 0) := by
  obtain ⟨n, timeoutMs, bytesReceived, stored, pos⟩ := r
  obtain rfl : n = numBytes := h.args
  have hoffsets := h.offsets
  cases pos with
  | entry =>
    cases a with
    | now us =>
      obtain rfl := Option.some.inj hstep
      exact ⟨⟨rfl, hoffsets, fun _ => h.running nofun, h.count, nofun⟩, rfl⟩
    | _ => cases hstep
  | outer start =>
    have hrunning := h.running nofun
    cases a with
    | now us =>
      simp only [receiveInto] at hstep
      split at hstep
      · obtain rfl := Option.some.inj hstep
        exact ⟨⟨rfl, hoffsets, fun _ => hrunning, h.count, nofun⟩, rfl⟩
      · obtain rfl := Option.some.inj hstep
        refine ⟨⟨rfl, hoffsets, fun hne => absurd rfl (hne _), h.count, fun m hm => ?_⟩, rfl⟩
        cases hm
        exact Nat.le_of_eq hrunning.1
    | _ => cases hstep
  | inner start =>
    cases a with
    | removed b =>
      obtain rfl := Option.some.inj hstep
      exact ⟨h.stored b, List.length_append⟩
    | empty =>
      obtain rfl := Option.some.inj hstep
      exact ⟨⟨rfl, hoffsets, fun _ => h.running nofun, h.count, nofun⟩, rfl⟩
    | _ => cases hstep
  | returned m => cases hstep

/-- A run of answers. -/
theorem run {as : List UartAnswer} (h : Stores numBytes r)
    (hrun : Run.run receiveInto r as = some r') :
    Stores numBytes r' ∧ r'.stored.length = r.stored.length + removedCount as :=
  invariant_count receiveInto (fun _ _ _ hs => hs.step) hrun h

/-- The offsets are below a bound exactly if the number of bytes is not above it. -/
theorem forall_lt_iff {stored : List (Nat × UInt8)} {bound : Nat}
    (h : stored.map Prod.fst = List.range stored.length) :
    (∀ p ∈ stored, p.1 < bound) ↔ stored.length ≤ bound := by
  have hmem (i : Nat) : i ∈ stored.map Prod.fst ↔ i < stored.length := by
    rw [h, List.mem_range]
  constructor
  · intro hall
    refine Nat.not_lt.mp fun hlong => ?_
    obtain ⟨p, hp, hpb⟩ := List.mem_map.mp ((hmem bound).mpr hlong)
    have := hall p hp
    omega
  · intro hle p hp
    have := (hmem p.1).mp (List.mem_map_of_mem hp)
    omega

end Receive.Stores

/-- A call keeps to what it was asked for exactly if that is not zero bytes or none comes. -/
theorem receiveInto_within (numBytes : UInt16) (timeoutMs : UInt32) {as : List UartAnswer}
    {r : Receive} (hrun : run receiveInto { numBytes, timeoutMs } as = some r) :
    r.Within ↔ numBytes ≠ 0 ∨ removedCount as = 0 := by
  obtain ⟨hr, hlength⟩ := (Receive.Stores.call numBytes timeoutMs).run hrun
  have hlength : r.stored.length = removedCount as := hlength.trans (Nat.zero_add _)
  constructor
  · intro hwithin
    by_cases hzero : numBytes = 0
    · have hcount := hwithin.count
      rw [hr.args, hzero, hlength] at hcount
      exact .inr (Nat.le_zero.mp hcount)
    · exact .inl hzero
  · intro h
    have hcount : r.stored.length ≤ numBytes.toNat := by
      obtain hne | hnone := h
      · exact hr.count hne
      · rw [hlength, hnone]
        exact Nat.zero_le _
    refine ⟨by rwa [hr.args], ?_, fun n hn => ?_⟩
    · rw [hr.args]
      exact (Receive.Stores.forall_lt_iff hr.offsets).mpr hcount
    · rw [hr.args, UInt16.le_iff_toNat_le]
      exact Nat.le_trans (hr.result n hn) hcount

/-! ## What a call of `payload_uart_read_packet` keeps -/

/-- From the entry of the last `receive_into` on, its bytes are what was stored. -/
def BodyStores (header : PacketHeader) : PacketRead → Prop
  | .receiveBody h r => h = header ∧ r.Stores header.length
  | .sendBodyAck _ stored | .returned _ stored =>
    stored.map Prod.fst = List.range stored.length ∧
      (header.length ≠ 0 → stored.length ≤ header.length.toNat)
  | _ => False

theorem receiving_eq_some {r : Receive} {a : UartAnswer} {again : Receive → PacketRead}
    {done : UInt16 → Receive → PacketRead} {p : PacketRead}
    (h : receiving r a again done = some p) :
    ∃ r', receiveInto r a = some r' ∧ (p = again r' ∨ ∃ n, r'.pos = .returned n ∧ p = done n r') := by
  obtain ⟨r', hr', hp⟩ := Option.map_eq_some_iff.mp h
  refine ⟨r', hr', ?_⟩
  split at hp
  · next n hn => exact .inr ⟨n, hn, hp.symm⟩
  · exact .inl hp.symm

/-- What is stored is not touched behind the `receive_into`. -/
theorem afterBody_cases (header : PacketHeader) (n : UInt16) (r : Receive) :
    afterBody header n r = .returned 0 r.stored ∨
      afterBody header n r = .sendBodyAck header r.stored := by
  unfold afterBody
  split
  · exact .inl rfl
  · split
    · exact .inl rfl
    · exact .inr rfl

theorem BodyStores.step {header : PacketHeader} {p p' : PacketRead} {a : UartAnswer}
    (h : BodyStores header p) (hstep : readPacketStep p a = some p') :
    BodyStores header p' ∧
      p'.stored.length = p.stored.length + if a.isRemoved then 1 else 0 := by
  cases p with
  | receiveBody header' r =>
    obtain ⟨rfl, hr⟩ := h
    obtain ⟨r', hr', hp'⟩ := receiving_eq_some hstep
    obtain ⟨hstores, hlength⟩ := hr.step hr'
    obtain rfl | ⟨n, _, rfl⟩ := hp'
    · exact ⟨⟨rfl, hstores⟩, hlength⟩
    · obtain heq | heq := afterBody_cases header' n r'
      · rw [heq]
        exact ⟨⟨hstores.offsets, hstores.count⟩, hlength⟩
      · rw [heq]
        exact ⟨⟨hstores.offsets, hstores.count⟩, hlength⟩
  | sendBodyAck header' stored =>
    simp only [readPacketStep] at hstep
    split at hstep
    · next hsent =>
      obtain rfl := Option.some.inj hstep
      rw [hsent]
      exact ⟨h, rfl⟩
    · cases hstep
  | returned length stored => cases hstep
  | _ => exact h.elim

theorem BodyStores.stored {header : PacketHeader} {p : PacketRead} (h : BodyStores header p) :
    p.stored.map Prod.fst = List.range p.stored.length ∧
      (header.length ≠ 0 → p.stored.length ≤ header.length.toNat) := by
  cases p with
  | receiveBody header' r => exact ⟨h.2.offsets, h.2.count⟩
  | sendBodyAck header' stored => exact h
  | returned length stored => exact h
  | _ => exact h.elim

/-- Once the header is there: the bytes lie in the buffer of `ping_command` exactly if the
length in the header does or no more bytes than that come. -/
theorem receiveBody_within {header : PacketHeader} {as : List UartAnswer} {p : PacketRead}
    (hrun : run readPacketStep (.receiveBody header (receivePacket header)) as = some p) :
    p.WithinPing ↔
      (0 < header.length.toNat ∧ header.length.toNat ≤ maxReceivedLen) ∨
        removedCount as ≤ maxReceivedLen := by
  have hentry : BodyStores header (.receiveBody header (receivePacket header)) :=
    ⟨rfl, .call _ _⟩
  obtain ⟨hp, hlength⟩ := @invariant_count _ _ readPacketStep (BodyStores header)
    (fun p => p.stored.length) _ (fun _ _ _ hs => hs.step) _ _ _ hrun hentry
  have hlength : p.stored.length = removedCount as := hlength.trans (Nat.zero_add _)
  obtain ⟨hoffsets, hcount⟩ := hp.stored
  rw [PacketRead.WithinPing, Receive.Stores.forall_lt_iff hoffsets, hlength, or_iff_right_of_imp]
  rintro ⟨hpos, hle⟩
  have hne : header.length ≠ 0 := by
    intro hzero
    rw [hzero] at hpos
    exact absurd hpos (by decide)
  rw [← hlength]
  exact Nat.le_trans (hcount hne) hle

/-- The stages before the body, and the returns from them. -/
def PacketRead.BeforeBody : PacketRead → Prop
  | .receiveBody _ _ | .sendBodyAck _ _ => False
  | .returned _ stored => stored = []
  | _ => True

theorem PacketRead.BeforeBody.stored_eq {p : PacketRead} (h : p.BeforeBody) : p.stored = [] := by
  cases p with
  | receiveBody header r => exact h.elim
  | sendBodyAck header stored => exact h.elim
  | returned length stored => exact h
  | _ => rfl

theorem beforeBody_afterSyn (count : UInt8) (n : UInt16) (b : UInt8) :
    (afterSyn count n b).BeforeBody := by
  unfold afterSyn
  split
  · exact rfl
  · dsimp only
    generalize (if b = synByte then count + 1 else count) = count'
    split
    · trivial
    · trivial

theorem beforeBody_afterHeaderStart (runCount : UInt8) (n : UInt16) (b : UInt8) :
    (afterHeaderStart runCount n b).BeforeBody := by
  unfold afterHeaderStart
  split
  · exact rfl
  · split
    · trivial
    · split
      · trivial
      · exact rfl

theorem beforeBody_afterHeader (n : UInt16) (r : Receive) : (afterHeader n r).BeforeBody := by
  unfold afterHeader
  split
  · exact rfl
  · trivial

/-- Before the body, a step comes to a stage before the body or to the entry of the last
`receive_into`. -/
theorem PacketRead.BeforeBody.step {p p' : PacketRead} {a : UartAnswer} (h : p.BeforeBody)
    (hstep : readPacketStep p a = some p') :
    p'.BeforeBody ∨ ∃ header, p' = .receiveBody header (receivePacket header) := by
  cases p with
  | receiveSyn count r =>
    obtain ⟨r', _, rfl | ⟨n, _, rfl⟩⟩ := receiving_eq_some hstep
    · exact .inl trivial
    · exact .inl (beforeBody_afterSyn _ _ _)
  | receiveHeaderStart runCount r =>
    obtain ⟨r', _, rfl | ⟨n, _, rfl⟩⟩ := receiving_eq_some hstep
    · exact .inl trivial
    · exact .inl (beforeBody_afterHeaderStart _ _ _)
  | receiveHeader r =>
    obtain ⟨r', _, rfl | ⟨n, _, rfl⟩⟩ := receiving_eq_some hstep
    · exact .inl trivial
    · exact .inl (beforeBody_afterHeader _ _)
  | sendSynAck =>
    simp only [readPacketStep] at hstep
    split at hstep
    · obtain rfl := Option.some.inj hstep
      exact .inl trivial
    · cases hstep
  | sendHeaderAck header =>
    simp only [readPacketStep] at hstep
    split at hstep
    · split at hstep
      · obtain rfl := Option.some.inj hstep
        exact .inl rfl
      · obtain rfl := Option.some.inj hstep
        exact .inr ⟨header, rfl⟩
    · cases hstep
  | receiveBody header r => exact h.elim
  | sendBodyAck header stored => exact h.elim
  | returned length stored => cases hstep

/-- A run from before the body stays there, or passes the entry of the last `receive_into`. -/
theorem PacketRead.BeforeBody.run {p p' : PacketRead} {as : List UartAnswer} (h : p.BeforeBody)
    (hrun : Run.run readPacketStep p as = some p') :
    p'.BeforeBody ∨ ∃ pre post header, as = pre ++ post ∧
      Run.run readPacketStep p pre = some (.receiveBody header (receivePacket header)) ∧
      Run.run readPacketStep (.receiveBody header (receivePacket header)) post = some p' := by
  induction as generalizing p with
  | nil =>
    obtain rfl : p = p' := Option.some.inj hrun
    exact .inl h
  | cons a as ih =>
    obtain ⟨p₁, hstep, hrest⟩ := run_cons_some _ hrun
    obtain hp₁ | ⟨header, rfl⟩ := h.step hstep
    · obtain hp' | ⟨pre, post, header, rfl, hpre, hpost⟩ := ih hp₁ hrest
      · exact .inl hp'
      · refine .inr ⟨a :: pre, post, header, rfl, ?_, hpost⟩
        rw [run_cons, hstep]
        exact hpre
    · refine .inr ⟨[a], as, header, rfl, ?_, hrest⟩
      rw [run_cons, hstep]
      rfl

/-- A call of `payload_uart_read_packet`: what it stores lies in the buffer of `ping_command`
exactly if the packet does. -/
theorem readPacket_within {as : List UartAnswer} {p : PacketRead}
    (hrun : run readPacketStep .entry as = some p) : p.WithinPing ↔ BodyFits as := by
  constructor
  · intro hwithin pre post header has hpre
    obtain ⟨p₁, hpre', hpost⟩ := run_append_some readPacketStep (has ▸ hrun)
    obtain rfl : .receiveBody header (receivePacket header) = p₁ :=
      Option.some.inj (hpre.symm.trans hpre')
    exact (receiveBody_within hpost).mp hwithin
  · intro hfits
    obtain hbefore | ⟨pre, post, header, rfl, hpre, hpost⟩ :=
      PacketRead.BeforeBody.run (p := .entry) trivial hrun
    · rw [PacketRead.WithinPing, hbefore.stored_eq]
      exact List.forall_mem_nil _
    · exact (receiveBody_within hpost).mpr (hfits pre post header rfl hpre)

/-- **Where the reads from the payload store.** For every stream of bytes, at whatever times
they come: `receive_into` stores and returns at most `num_bytes` exactly if that is not zero or
no byte comes, and `payload_uart_read_packet` keeps to the buffer of `ping_command` exactly if
the length in the header it receives is from 1 to the size of the buffer, or no more bytes than
that come behind the header. -/
theorem payload_uart_read_bounds (numBytes : UInt16) (timeoutMs : UInt32)
    (as : List UartAnswer) :
    (∀ r, run receiveInto { numBytes, timeoutMs } as = some r →
      (r.Within ↔ numBytes ≠ 0 ∨ removedCount as = 0)) ∧
    ∀ p, run readPacketStep .entry as = some p → (p.WithinPing ↔ BodyFits as) :=
  ⟨fun _ => receiveInto_within numBytes timeoutMs, fun _ => readPacket_within⟩
/-- A byte for a `receive_into` that waits for one. -/
def sampleByte (b : UInt8) : List UartAnswer := [.now 0, .now 0, .removed b]

/-- The answers up to the last `receive_into`, with a header of this length. -/
def sampleHeader (length : UInt16) : List UartAnswer :=
  sampleByte synByte ++ sampleByte synByte ++ sampleByte synByte ++ [.sent] ++
    sampleByte startByte ++ [.now 0, .now 0] ++
    (PacketHeader.toBytes ⟨length, 0, 0⟩).map .removed ++ [.sent]

/-- Both conditions hold: two bytes are asked for and come, and a packet of one byte does. -/
theorem payload_uart_read_bounds_sample :
    (∃ r, run receiveInto { numBytes := 2, timeoutMs := 50 }
        [.now 0, .now 0, .removed 1, .removed 2] = some r ∧
      (r.Within ↔ (2 : UInt16) ≠ 0 ∨
        removedCount [.now 0, .now 0, .removed 1, .removed 2] = 0)) ∧
    ∃ p, run readPacketStep .entry (sampleHeader 1 ++ sampleByte 7) = some p ∧
      (p.WithinPing ↔ BodyFits (sampleHeader 1 ++ sampleByte 7)) :=
  ⟨⟨_, rfl, (payload_uart_read_bounds 2 50 _).1 _ rfl⟩,
    ⟨_, rfl, (payload_uart_read_bounds 2 50 _).2 _ rfl⟩⟩

/-- As long as fewer bytes came than are asked for, one more is taken. -/
theorem run_receiveBody_removed {header : PacketHeader} {start k : Nat} {r : Receive} (b : UInt8)
    (hpos : r.pos = .inner start) (hlt : r.bytesReceived.toNat + k < r.numBytes.toNat) :
    ∃ r', run readPacketStep (.receiveBody header r) (List.replicate k (.removed b))
      = some (.receiveBody header r') := by
  induction k generalizing r with
  | zero => exact ⟨r, rfl⟩
  | succ k ih =>
    obtain ⟨n, timeoutMs, bytesReceived, stored, pos⟩ := r
    dsimp only at hpos hlt
    subst hpos
    have hsum : (bytesReceived + 1).toNat = (bytesReceived.toNat + 1) % 65536 :=
      UInt16.toNat_add bytesReceived 1
    have hn := n.toNat_lt
    have hnext : (bytesReceived + 1).toNat = bytesReceived.toNat + 1 := by omega
    have hne : bytesReceived + 1 ≠ n := by
      intro heq
      rw [heq] at hnext
      omega
    obtain ⟨r', hr'⟩ := ih (r := ⟨n, timeoutMs, bytesReceived + 1,
      stored ++ [(bytesReceived.toNat, b)], .inner start⟩) rfl (by dsimp only; omega)
    refine ⟨r', ?_⟩
    rw [List.replicate_succ, run_cons]
    simp only [readPacketStep, receiving, receiveInto, if_neg hne, Option.map_some,
      Option.bind_some]
    exact hr'

/-- Zero bytes are asked for and one is stored; a header says 1100 bytes, and the byte behind
the buffer of `ping_command` is stored. -/
theorem payload_uart_read_overflow :
    (¬∀ numBytes timeoutMs as r, run receiveInto { numBytes, timeoutMs } as = some r → r.Within) ∧
    ¬∀ as p, run readPacketStep .entry as = some p → p.WithinPing := by
  constructor
  · intro h
    have hwithin := h 0 50 [.now 0, .now 0, .removed 7, .empty, .now 50000] _ rfl
    exact absurd hwithin.count (by decide)
  · intro h
    have hheader : run readPacketStep .entry (sampleHeader 1100)
        = some (.receiveBody ⟨1100, 0, 0⟩ (receivePacket ⟨1100, 0, 0⟩)) := by decide
    have hbytes : ∃ r, run readPacketStep (.receiveBody ⟨1100, 0, 0⟩ (receivePacket ⟨1100, 0, 0⟩))
        ([.now 0, .now 0] ++ List.replicate 1025 (.removed 7))
          = some (.receiveBody ⟨1100, 0, 0⟩ r) := by
      have hinner : run readPacketStep
          (.receiveBody ⟨1100, 0, 0⟩ (receivePacket ⟨1100, 0, 0⟩)) [.now 0, .now 0]
          = some (.receiveBody ⟨1100, 0, 0⟩
            { receivePacket ⟨1100, 0, 0⟩ with pos := .inner 0 }) := by decide
      rw [run_append, hinner, Option.bind_some]
      exact run_receiveBody_removed 7 rfl (by decide)
    obtain ⟨r, hbody⟩ := hbytes
    have hrun := run_append readPacketStep .entry (sampleHeader 1100)
      ([.now 0, .now 0] ++ List.replicate 1025 (.removed 7))
    rw [hheader, Option.bind_some, hbody] at hrun
    obtain ⟨_, hlength⟩ | hcount := (receiveBody_within hbody).mp (h _ _ hrun)
    · exact absurd hlength (by decide)
    · rw [removedCount, List.countP_append, List.countP_replicate] at hcount
      exact absurd hcount (by decide)

end PayloadUart

end Samwise
