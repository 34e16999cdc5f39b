import Samwise.Lib.Run
import Samwise.Lib.RingMemory

/-!
# Samwise — sending bytes while the transmit interrupt drains the ring

The transmitting half of `src/drivers/communications/uart_communications.c`: `uart_comms_tx`
statement by statement, with the interrupt handler between any two statements. The call puts
bytes into the ring and hands the first one to the UART itself; the handler, where an earlier
call has enabled it, takes bytes out of the same ring.
-/

namespace Samwise

open Buffer

/-! ## The machine -/

/-- `UART_TX_BUFFER_SIZE`. -/
def uartTxBufferSize : Nat := 256

/-- `tx_buffer`, `tx_head` and `tx_tail` of a UART. -/
abbrev UartTxMemory := RingMemory UInt8 uartTxBufferSize

/-- `tx_count`. -/
def txCount (m : UartTxMemory) : UInt16 := m.count

/-- `tx_available`. The difference is an `int`. -/
def txAvailable (m : UartTxMemory) : UInt16 :=
  UInt16.ofInt ((uartTxBufferSize : Int) - 1 - (txCount m).toNat)

/-- The bytes of a caller of `uart_comms_tx`, at least `length` of them. -/
structure TxData where
  memory : List UInt8
  length : UInt16
  fits : length.toNat ≤ memory.length

/-- The statement of `uart_comms_tx` that comes next. -/
inductive UartSender where
  | idle
  /-- `if (length > avail) length = avail;` -/
  | clamp (data : TxData) (avail : UInt16)
  /-- `i < length`, and `tx_buffer[idx][tx_head[idx]] = data[i];` -/
  | store (data : TxData) (length i : Nat)
  /-- `tx_head[idx] = (tx_head[idx] + 1) % UART_TX_BUFFER_SIZE;` -/
  | moveHead (data : TxData) (length i : Nat)
  /-- `if (uart_is_writable(uart_instance) && tx_tail[idx] != tx_head[idx])` -/
  | check (length : Nat)
  /-- `uart_putc_raw(uart_instance, tx_buffer[idx][tx_tail[idx]]);` -/
  | putc (length : Nat)
  /-- `tx_tail[idx] = (tx_tail[idx] + 1) % UART_TX_BUFFER_SIZE;` -/
  | moveTail (length : Nat)
  /-- `uart_set_irq_enables(uart_instance, true, true);` -/
  | enable (length : Nat)
  /-- `return length;` -/
  | ret (length : Nat)

/-- The ring, the transmit interrupt, the call in progress, and what has happened so far: the
bytes handed to `uart_putc_raw`, the accepted prefixes of all calls one after the other, and the
numbers returned. -/
structure UartTransmitter where
  ring : UartTxMemory
  irqEnabled : Bool
  sender : UartSender
  sent : List UInt8
  accepted : List UInt8
  returned : List Nat

/-- A call; its next statement, with what `uart_is_writable` says; and the interrupt handler of
the UART, for a transmit interrupt or for a receive interrupt, with the number of times that
`uart_is_writable` says yes to it. -/
inductive UartTransmitterEvent where
  | uartCommsTx (data : TxData)
  | statement (writable : Bool)
  | txIrq (writable : Nat)
  | rxIrq (writable : Nat)

/-- The loop of `uart_tx_isr`: the ring and the bytes sent afterwards. -/
def uartTxIsrFor (m : UartTxMemory) (sent : List UInt8) : (writable : Nat) →
    Option (UartTxMemory × List UInt8)
  | 0 => some (m, sent)
  | writable + 1 =>
    if m.tail ≠ m.head then
      m.first.bind fun byte => uartTxIsrFor m.advance (sent ++ [byte]) writable
    else some (m, sent)

namespace UartTransmitter

def start : UartTransmitter := ⟨⟨List.replicate uartTxBufferSize 0, 0, 0⟩, false, .idle, [], [], []⟩

/-- `uart_tx_isr`. Nothing left: it disables the transmit interrupt. -/
def uartTxIsr (s : UartTransmitter) (writable : Nat) : Option UartTransmitter :=
  (uartTxIsrFor s.ring s.sent writable).map fun r =>
    { s with
      ring := r.1
      sent := r.2
      irqEnabled := if r.1.tail = r.1.head then false else s.irqEnabled }

/-- The next statement of the call in progress. -/
def statement (s : UartTransmitter) (writable : Bool) : Option UartTransmitter :=
  match s.sender with
  | .idle => none
  | .clamp data avail =>
    let length := if data.length > avail then avail else data.length
    some { s with sender := .store data length.toNat 0 }
  | .store data length i =>
    if i < length then
      (load data.memory i).bind fun byte =>
        (s.ring.put byte).map fun ring => { s with ring, sender := .moveHead data length i }
    else some { s with sender := .check length }
  | .moveHead data length i =>
    some { s with ring := s.ring.advanceHead, sender := .store data length (i + 1) }
  | .check length =>
    if writable ∧ s.ring.tail ≠ s.ring.head then some { s with sender := .putc length }
    else some { s with sender := .enable length }
  | .putc length =>
    s.ring.first.map fun byte => { s with sender := .moveTail length, sent := s.sent ++ [byte] }
  | .moveTail length => some { s with ring := s.ring.advance, sender := .enable length }
  | .enable length => some { s with irqEnabled := true, sender := .ret length }
  | .ret length => some { s with sender := .idle, returned := s.returned ++ [length] }

/-- The free space of the ring. -/
def free (s : UartTransmitter) : Nat := uartTxBufferSize - 1 - (txCount s.ring).toNat

def step (s : UartTransmitter) : UartTransmitterEvent → Option UartTransmitter
  | .uartCommsTx data =>
    match s.sender with
    | .idle => some
        { s with
          sender := .clamp data (txAvailable s.ring)
          accepted := s.accepted ++ data.memory.take (min data.length.toNat s.free) }
    | _ => none
  | .statement writable => s.statement writable
  | .txIrq writable => if s.irqEnabled then s.uartTxIsr writable else none
  | .rxIrq writable => s.uartTxIsr writable

/-- A handler that finds `writable` room leaves the call the byte it is about to send by hand:
at least one byte between the check and `uart_putc_raw`, and all of them until the tail has
been moved. -/
def KeptBy (ring : UartTxMemory) (writable : Nat) : UartSender → Prop
  | .putc _ => writable < (txCount ring).toNat
  | .moveTail _ => writable = 0
  | _ => True

/-- No handler takes the byte that the call sends by hand. -/
def Undisturbed (s : UartTransmitter) : UartTransmitterEvent → Prop
  | .txIrq writable => KeptBy s.ring writable s.sender
  | .rxIrq writable => KeptBy s.ring writable s.sender
  | _ => True

instance KeptBy.decidable (ring : UartTxMemory) (writable : Nat) :
    (sender : UartSender) → Decidable (KeptBy ring writable sender)
  | .idle | .clamp _ _ | .store _ _ _ | .moveHead _ _ _ | .check _ | .enable _ | .ret _ =>
    isTrue trivial
  | .putc _ => inferInstanceAs (Decidable (writable < (txCount ring).toNat))
  | .moveTail _ => inferInstanceAs (Decidable (writable = 0))

instance Undisturbed.decidable (s : UartTransmitter) :
    (e : UartTransmitterEvent) → Decidable (s.Undisturbed e)
  | .uartCommsTx _ | .statement _ => isTrue trivial
  | .txIrq writable => KeptBy.decidable s.ring writable s.sender
  | .rxIrq writable => KeptBy.decidable s.ring writable s.sender

/-! ## The interrupt -/

variable {m : UartTxMemory} {q : List UInt8}

theorem uartTxIsrFor_contains (h : m.Contains q) (sent : List UInt8) (writable : Nat) :
    ∃ m', uartTxIsrFor m sent writable = some (m', sent ++ q.take writable)
      ∧ m'.Contains (q.drop writable) ∧ m'.head = m.head ∧ m'.cells = m.cells := by
  induction writable generalizing m q sent with
  | zero => exact ⟨m, by simp [uartTxIsrFor], h, rfl, rfl⟩
  | succ writable ih =>
    rw [uartTxIsrFor]
    cases q with
    | nil =>
      rw [if_neg (not_not_intro (h.tail_eq_head_iff.mpr rfl))]
      exact ⟨m, by simp, by simpa using h, rfl, rfl⟩
    | cons b q =>
      have hmore : m.tail ≠ m.head := fun heq => List.cons_ne_nil b q (h.tail_eq_head_iff.mp heq)
      obtain ⟨m', hloop, hm', hhead, hcells⟩ := ih h.advance (sent ++ [b])
      rw [if_pos hmore, h.first, Option.bind_some, hloop, List.take_succ_cons, List.append_assoc,
        List.singleton_append]
      exact ⟨m', rfl, hm', hhead, hcells⟩

theorem toNat_txCount (h : m.Contains q) : (txCount m).toNat = q.length := h.count

theorem toNat_txAvailable (h : m.Contains q) : (txAvailable m).toNat = 255 - q.length := by
  have hlt : q.length < 256 := h.length_lt
  have hint : ((uartTxBufferSize : Int) - 1 - (txCount m).toNat) % 2 ^ 16
      = ((255 - q.length : Nat) : Int) := by
    rw [toNat_txCount h]
    show ((256 : Int) - 1 - q.length) % 2 ^ 16 = _
    omega
  have hsmall : 255 - q.length < 2 ^ 16 := by omega
  rw [txAvailable, UInt16.ofInt, hint]
  exact UInt16.toNat_ofNat_of_lt' hsmall

/-! ## What every statement keeps -/

/-- The bytes that the call in progress has accepted and not yet put into the ring. -/
def toStore : UartSender → List UInt8
  | .clamp data avail => data.memory.take (min data.length.toNat avail.toNat)
  | .store data length i => (data.memory.take length).drop i
  | .moveHead data length i => (data.memory.take length).drop i
  | _ => []

/-- How many bytes of the ring have been sent already. -/
def ahead : UartSender → Nat
  | .moveTail _ => 1
  | _ => 0

/-- What the next statement relies on. -/
def Ready (m : UartTxMemory) (q : List UInt8) (irqEnabled : Bool) : UartSender → Prop
  | .clamp _ avail => q.length + avail.toNat ≤ 255
  | .store data length i =>
    i ≤ length ∧ length ≤ data.memory.length ∧ q.length + (length - i) ≤ 255
  | .moveHead data length i =>
    i < length ∧ length ≤ data.memory.length ∧ q.length + (length - i) ≤ 255
      ∧ m.cells[m.head.toNat]? = data.memory[i]?
  | .putc _ => q ≠ []
  | .moveTail _ => q ≠ []
  | .check _ => True
  | .enable _ => True
  | .ret _ => q ≠ [] → irqEnabled = true
  | .idle => q ≠ [] → irqEnabled = true

/-- The ring holds `q`, and what was sent, what of `q` was not, and what is still to be put
behind it are the accepted bytes in order. -/
structure Sound (s : UartTransmitter) (q : List UInt8) : Prop where
  ring : s.ring.Contains q
  ordered : s.sent ++ q.drop (ahead s.sender) ++ toStore s.sender = s.accepted
  sender : Ready s.ring q s.irqEnabled s.sender

theorem Sound.start : start.Sound [] :=
  { ring := .empty (by decide) (by decide) List.length_replicate
    ordered := rfl
    sender := fun hne => absurd rfl hne }

variable {s s' : UartTransmitter}

/-- **The interrupt handler**, where it leaves the call the byte it sends by hand. -/
theorem Sound.uartTxIsr (h : s.Sound q) {writable : Nat} (hkept : KeptBy s.ring writable s.sender) :
    ∃ s', s.uartTxIsr writable = some s' ∧ s'.Sound (q.drop writable) := by
  obtain ⟨m', hloop, hm', hhead, hcells⟩ := uartTxIsrFor_contains h.ring s.sent writable
  have hisr : s.uartTxIsr writable = some
      { s with
        ring := m'
        sent := s.sent ++ q.take writable
        irqEnabled := if m'.tail = m'.head then false else s.irqEnabled } := by
    rw [UartTransmitter.uartTxIsr, hloop]
    rfl
  have hready := h.sender
  have hordered := h.ordered
  have hshorter : (q.drop writable).length ≤ q.length := by
    rw [List.length_drop]
    omega
  -- the flag is only cleared when nothing is left
  have hflag : (q ≠ [] → s.irqEnabled = true) → q.drop writable ≠ [] →
      (if m'.tail = m'.head then false else s.irqEnabled) = true := by
    intro henabled hleft
    have hne : q ≠ [] := fun hnil => hleft (by rw [hnil, List.drop_nil])
    rw [if_neg fun heq => hleft (hm'.tail_eq_head_iff.mp heq)]
    exact henabled hne
  have hsplit : s.sent ++ q.take writable ++ q.drop writable = s.sent ++ q := by
    rw [List.append_assoc, List.take_append_drop]
  refine ⟨_, hisr, hm', ?_, ?_⟩
  · show s.sent ++ q.take writable ++ (q.drop writable).drop (ahead s.sender) ++ _ = s.accepted
    generalize s.sender = sender at hkept hordered ⊢
    cases sender with
    | moveTail length =>
      have hnone : writable = 0 := hkept
      rw [hnone, List.take_zero, List.append_nil, List.drop_zero]
      exact hordered
    | _ =>
      show s.sent ++ q.take writable ++ q.drop writable ++ _ = s.accepted
      rw [hsplit]
      exact hordered
  · have hcount := toNat_txCount h.ring
    dsimp only
    generalize s.sender = sender at hkept hready ⊢
    cases sender with
    | clamp data avail => exact Nat.le_trans (Nat.add_le_add_right hshorter _) hready
    | store data length i =>
      obtain ⟨hi, hlength, hroom⟩ := hready
      exact ⟨hi, hlength, Nat.le_trans (Nat.add_le_add_right hshorter _) hroom⟩
    | moveHead data length i =>
      obtain ⟨hi, hlength, hroom, hcell⟩ := hready
      refine ⟨hi, hlength, Nat.le_trans (Nat.add_le_add_right hshorter _) hroom, ?_⟩
      rw [hhead, hcells]
      exact hcell
    | putc length =>
      have hleft : writable < (txCount s.ring).toNat := hkept
      exact List.ne_nil_of_length_pos (by rw [List.length_drop]; omega)
    | moveTail length =>
      have hnone : writable = 0 := hkept
      rw [hnone, List.drop_zero]
      exact hready
    | check length => trivial
    | enable length => trivial
    | ret length => exact hflag hready
    | idle => exact hflag hready

/-- **A call** accepts what fits into the free space. -/
theorem Sound.call (h : s.Sound q) (hidle : s.sender = .idle) (data : TxData) :
    Sound
      { s with
        sender := .clamp data (txAvailable s.ring)
        accepted := s.accepted ++ data.memory.take (min data.length.toNat s.free) } q := by
  have hlt : q.length < 256 := h.ring.length_lt
  have havail := toNat_txAvailable h.ring
  have hfree : s.free = 255 - q.length := by
    rw [free, toNat_txCount h.ring]
    rfl
  have hordered := h.ordered
  rw [hidle] at hordered
  refine ⟨h.ring, ?_, ?_⟩
  · show s.sent ++ q ++ data.memory.take (min data.length.toNat (txAvailable s.ring).toNat) = _
    have hsent : s.sent ++ q ++ [] = s.accepted := hordered
    rw [List.append_nil] at hsent
    rw [havail, ← hfree, hsent]
  · show q.length + (txAvailable s.ring).toNat ≤ 255
    omega

/-- **A statement of the call.** -/
theorem Sound.statement (h : s.Sound q) (hbusy : s.sender ≠ .idle) (writable : Bool) :
    ∃ s' q', s.statement writable = some s' ∧ s'.Sound q' := by
  have hlt : q.length < 256 := h.ring.length_lt
  have hready := h.sender
  have hordered := h.ordered
  unfold UartTransmitter.statement
  cases hsender : s.sender with
  | idle => exact absurd hsender hbusy
  | clamp data avail =>
    rw [hsender] at hready hordered
    have hroom : q.length + avail.toNat ≤ 255 := hready
    have hfits := data.fits
    have hlength : (if data.length > avail then avail else data.length).toNat
        = min data.length.toNat avail.toNat := by
      by_cases hlong : data.length > avail
      · have hnat : avail.toNat < data.length.toNat := UInt16.lt_iff_toNat_lt.mp hlong
        rw [if_pos hlong, Nat.min_eq_right (Nat.le_of_lt hnat)]
      · have hnat : data.length.toNat ≤ avail.toNat := by
          rw [gt_iff_lt, UInt16.lt_iff_toNat_lt] at hlong
          omega
        rw [if_neg hlong, Nat.min_eq_left hnat]
    refine ⟨_, q, rfl, h.ring, ?_, Nat.zero_le _, ?_, ?_⟩
    · dsimp only
      rw [hlength]
      exact hordered
    · rw [hlength]
      omega
    · rw [hlength]
      omega
  | store data length i =>
    rw [hsender] at hready hordered
    obtain ⟨hi, hlength, hroom⟩ := hready
    dsimp only
    by_cases hmore : i < length
    · have hin : i < data.memory.length := by omega
      obtain ⟨ring, hput, hhead, -, hring, hcell⟩ := h.ring.put data.memory[i]
      rw [if_pos hmore, load_eq_some hin, Option.bind_some, hput, Option.map_some]
      refine ⟨_, q, rfl, hring, hordered, hmore, hlength, hroom, ?_⟩
      dsimp only
      rw [hhead, hcell, List.getElem?_eq_getElem hin]
    · rw [if_neg hmore]
      have hall : (data.memory.take length).drop i = [] :=
        List.drop_eq_nil_of_le (by rw [List.length_take]; omega)
      refine ⟨_, q, rfl, h.ring, ?_, trivial⟩
      have hsent : s.sent ++ q ++ (data.memory.take length).drop i = s.accepted := hordered
      rwa [hall] at hsent
  | moveHead data length i =>
    rw [hsender] at hready hordered
    obtain ⟨hi, hlength, hroom, hcell⟩ := hready
    have hin : i < data.memory.length := by omega
    rw [List.getElem?_eq_getElem hin] at hcell
    have hring : s.ring.advanceHead.Contains (q ++ [data.memory[i]]) :=
      h.ring.advanceHead (by show q.length + 1 < 256; omega) hcell
    refine ⟨_, _, rfl, hring, ?_, hi, hlength, ?_⟩
    · have hnext : (data.memory.take length).drop i
          = data.memory[i] :: (data.memory.take length).drop (i + 1) := by
        rw [List.drop_eq_getElem_cons (by rw [List.length_take]; omega), List.getElem_take]
      have hsent : s.sent ++ q ++ (data.memory.take length).drop i = s.accepted := hordered
      rw [hnext] at hsent
      show s.sent ++ (q ++ [data.memory[i]]) ++ (data.memory.take length).drop (i + 1) = _
      rw [← hsent]
      simp only [List.append_assoc, List.cons_append, List.nil_append]
    · rw [List.length_append, List.length_singleton]
      omega
  | check length =>
    rw [hsender] at hordered
    dsimp only
    by_cases hkick : writable ∧ s.ring.tail ≠ s.ring.head
    · rw [if_pos hkick]
      exact ⟨_, q, rfl, h.ring, hordered, fun hnil => hkick.2 (h.ring.tail_eq_head_iff.mpr hnil)⟩
    · rw [if_neg hkick]
      exact ⟨_, q, rfl, h.ring, hordered, trivial⟩
  | putc length =>
    rw [hsender] at hready hordered
    obtain ⟨b, q', rfl⟩ := List.exists_cons_of_ne_nil hready
    dsimp only
    rw [h.ring.first, Option.map_some]
    refine ⟨_, b :: q', rfl, h.ring, ?_, List.cons_ne_nil b q'⟩
    have hsent : s.sent ++ b :: q' ++ [] = s.accepted := hordered
    show s.sent ++ [b] ++ q' ++ [] = s.accepted
    rw [← hsent, List.append_assoc s.sent, List.singleton_append]
  | moveTail length =>
    rw [hsender] at hready hordered
    obtain ⟨b, q', rfl⟩ := List.exists_cons_of_ne_nil hready
    exact ⟨_, q', rfl, h.ring.advance, hordered, trivial⟩
  | enable length =>
    rw [hsender] at hordered
    exact ⟨_, q, rfl, h.ring, hordered, fun _ => rfl⟩
  | ret length =>
    rw [hsender] at hready hordered
    exact ⟨_, q, rfl, h.ring, hordered, hready⟩

theorem Sound.step (h : s.Sound q) {e : UartTransmitterEvent} (hok : s.Undisturbed e)
    (hstep : s.step e = some s') : ∃ q', s'.Sound q' := by
  cases e with
  | uartCommsTx data =>
    simp only [UartTransmitter.step] at hstep
    split at hstep
    · next hidle =>
      obtain rfl := Option.some.inj hstep
      exact ⟨q, h.call hidle data⟩
    · cases hstep
  | statement writable =>
    have hbusy : s.sender ≠ .idle := fun hidle => by
      simp only [UartTransmitter.step, UartTransmitter.statement, hidle] at hstep
      cases hstep
    obtain ⟨t, q', ht, hsound⟩ := h.statement hbusy writable
    obtain rfl : t = s' := Option.some.inj (ht.symm.trans hstep)
    exact ⟨q', hsound⟩
  | txIrq writable =>
    simp only [UartTransmitter.step] at hstep
    split at hstep
    · obtain ⟨t, ht, hsound⟩ := h.uartTxIsr hok
      obtain rfl : t = s' := Option.some.inj (ht.symm.trans hstep)
      exact ⟨_, hsound⟩
    · cases hstep
  | rxIrq writable =>
    obtain ⟨t, ht, hsound⟩ := h.uartTxIsr hok
    obtain rfl : t = s' := Option.some.inj (ht.symm.trans hstep)
    exact ⟨_, hsound⟩

/-- **Every byte once and in order.** In every run in which no handler takes the byte that the
call sends by hand, the bytes handed to `uart_putc_raw` are the first of the accepted ones, and
the others are in the ring or still to be put into it. The tail never passes the head, no
statement accesses anything outside of an array, and when no call is in progress the interrupt is
enabled as long as there are unsent bytes. -/
theorem uart_tx_exactly_once {es : List UartTransmitterEvent}
    (hrun : Run.run step UartTransmitter.start es = some s)
    (hok : Run.AllSteps step Undisturbed UartTransmitter.start es) :
    ∃ unsent, s.ring.elements = some unsent
      ∧ s.sent ++ unsent.drop (ahead s.sender) ++ toStore s.sender = s.accepted
      ∧ (s.sender = .idle → s.sent ++ unsent = s.accepted ∧ (unsent ≠ [] → s.irqEnabled = true))
      ∧ (∀ length, s.sender = .moveTail length → s.ring.tail ≠ s.ring.head)
      ∧ (s.sender ≠ .idle → ∀ writable, ∃ s', s.step (.statement writable) = some s') := by
  have hsound : ∃ q, s.Sound q :=
    Run.invariant step (I := fun s => ∃ q, s.Sound q)
      (fun s e s' hundisturbed h hstep => by
        obtain ⟨q, hq⟩ := h
        exact hq.step hundisturbed hstep)
      hok hrun ⟨[], Sound.start⟩
  obtain ⟨q, hq⟩ := hsound
  refine ⟨q, hq.ring.elements, hq.ordered, fun hidle => ?_, fun length hmove heq => ?_,
    fun hbusy writable => ?_⟩
  · have hordered := hq.ordered
    have hready := hq.sender
    rw [hidle] at hordered hready
    have hsent : s.sent ++ q ++ [] = s.accepted := hordered
    rw [List.append_nil] at hsent
    exact ⟨hsent, hready⟩
  · have hready := hq.sender
    rw [hmove] at hready
    exact hready (hq.ring.tail_eq_head_iff.mp heq)
  · obtain ⟨s', _, hstatement, -⟩ := hq.statement hbusy writable
    exact ⟨s', hstatement⟩

theorem one_le_length (b : UInt8) : (1 : UInt16).toNat ≤ [b].length := Nat.le_refl 1

/-- One byte to send. -/
def txByte (b : UInt8) : TxData := ⟨[b], 1, one_le_length b⟩

/-- The statements of a call for one byte up to the check that the UART is writable. -/
def callForByte (b : UInt8) : List UartTransmitterEvent :=
  [.uartCommsTx (txByte b), .statement false, .statement false, .statement false, .statement false]

/-- A call that leaves its byte to the interrupt, and a second one that sends it by hand, with
the handler before and behind that. -/
def twoCalls : List UartTransmitterEvent :=
  callForByte 1 ++ [.statement false, .statement false, .statement false] ++ callForByte 2
    ++ [.txIrq 0, .statement true, .txIrq 1, .statement true, .txIrq 0, .statement true,
      .statement true, .statement true, .txIrq 1]

theorem uart_tx_exactly_once_two_calls :
    ∃ s, Run.run step UartTransmitter.start twoCalls = some s
      ∧ ∃ unsent, s.ring.elements = some unsent
        ∧ s.sent ++ unsent.drop (ahead s.sender) ++ toStore s.sender = s.accepted := by
  have hsome : (Run.run step UartTransmitter.start twoCalls).isSome := by
    decide +kernel
  obtain ⟨s, hrun⟩ := Option.isSome_iff_exists.mp hsome
  obtain ⟨unsent, helements, hordered, -⟩ := uart_tx_exactly_once hrun (by decide +kernel)
  exact ⟨s, hrun, unsent, helements, hordered⟩

/-- The second call finds the UART writable, the handler sends both bytes, and the call sends
what lies behind them. -/
def drainedAfterCheck : List UartTransmitterEvent :=
  callForByte 1 ++ [.statement false, .statement false, .statement false] ++ callForByte 2
    ++ [.statement true, .txIrq 2, .statement true]

theorem stale_byte_sent :
    ¬∀ es s, Run.run step UartTransmitter.start es = some s → s.sent <+: s.accepted := by
  intro hclaim
  have hsent : (Run.run step UartTransmitter.start drainedAfterCheck).map
      (fun s => (s.sent, s.accepted)) = some ([1, 2, 0], [1, 2]) := by
    decide +kernel
  obtain ⟨s, hrun, hbytes⟩ := Option.map_eq_some_iff.mp hsent
  have hprefix := hclaim _ s hrun
  rw [(Prod.mk.inj hbytes).1, (Prod.mk.inj hbytes).2] at hprefix
  exact absurd hprefix.length_le (by decide)

end UartTransmitter

end Samwise
