import Samwise.Lib.RingMemory
import Samwise.Communications.UartCommunications

/-!
# Samwise — the receive ring of a UART, access by access

The receiving half of `src/drivers/communications/uart_communications.c` on its memory:
`rx_buffer`, `rx_head` and `rx_tail`, that is 256 bytes and two 16-bit indices, with every access
checked (`none` is an access outside of an array). What the ring holds is a queue of at most 255
bytes that loses its oldest byte to a new one where it is full, and each function of the file is
an operation of that queue.
-/

namespace Samwise

open Buffer

/-! ## The memory and the functions on it -/

/-- `rx_buffer`, `rx_head` and `rx_tail` of a UART. -/
abbrev UartRxMemory := RingMemory UInt8 uartRxBufferSize

/-- The static memory before anything ran. -/
def UartRxMemory.zero : UartRxMemory := ⟨List.replicate uartRxBufferSize 0, 0, 0⟩

/-- `rx_count`. -/
def rxCount (m : UartRxMemory) : UInt16 := m.count

/-- `rx_peek`. -/
def rxPeek (m : UartRxMemory) (offset : Nat) : Option UInt8 := m.peek offset

/-- The body of the loop of `uart_rx_isr`, for a byte from `uart_getc`. -/
def uartRxIsrByte (m : UartRxMemory) (byte : UInt8) : Option UartRxMemory :=
  (m.put byte).map fun m =>
    let m := m.advanceHead
    -- if we've lapped the tail, advance it to discard the oldest byte
    if m.head = m.tail then m.advance else m

namespace UartRxMemory

/-- `uart_rx_isr`, for the bytes that are readable. -/
def uartRxIsr (m : UartRxMemory) : List UInt8 → Option UartRxMemory
  | [] => some m
  | byte :: bytes => (uartRxIsrByte m byte).bind fun m => uartRxIsr m bytes

/-- The loop of `uart_comms_packet_ready` from `offset` on, `left` short of `count`. -/
def packetReadyFor (m : UartRxMemory) : (left offset : Nat) → Option Nat
  | 0, _ => some 0
  | left + 1, offset =>
    (rxPeek m offset).bind fun byte =>
      if byte = 0 then some (offset + 1) else packetReadyFor m left (offset + 1)

/-- `uart_comms_packet_ready`. -/
def uartCommsPacketReady (m : UartRxMemory) : Option Nat :=
  packetReadyFor m (rxCount m).toNat 0

/-- The loop of `uart_comms_get_packet` that discards a packet. -/
def discardFor (m : UartRxMemory) : (left : Nat) → UartRxMemory
  | 0 => m
  | left + 1 => discardFor m.advance left

/-- The body of the loop that copies one: `buffer[i] = rx_buffer[idx][rx_tail[idx]]`, and the
tail moves on. -/
def copyByte (m : UartRxMemory) (buffer : List UInt8) (i : Nat) :
    Option (List UInt8 × UartRxMemory) :=
  m.first.bind fun byte => (store buffer i byte).map fun buffer => (buffer, m.advance)

/-- The loop that copies a packet, from `i` on. -/
def copyFor (m : UartRxMemory) (buffer : List UInt8) : (left i : Nat) →
    Option (List UInt8 × UartRxMemory)
  | 0, _ => some (buffer, m)
  | left + 1, i => (copyByte m buffer i).bind fun r => copyFor r.2 r.1 left (i + 1)

/-- `uart_comms_get_packet`: the number it returns, the caller's buffer and the ring
afterwards. -/
def uartCommsGetPacket (m : UartRxMemory) (buffer : List UInt8) (maxLength : UInt16) :
    Option (Nat × List UInt8 × UartRxMemory) :=
  (uartCommsPacketReady m).bind fun packetLength =>
    if packetLength = 0 then some (0, buffer, m)
    else if packetLength > maxLength.toNat then some (0, buffer, discardFor m packetLength)
    else (copyFor m buffer packetLength 0).map fun r => (packetLength, r)

end UartRxMemory

/-! ## Single bytes -/

/-- `uart_rx_isr` on the queue: the byte is appended, and the oldest goes where there would be
more than 255. -/
def fifoReceive (q : List UInt8) (byte : UInt8) : List UInt8 :=
  if (q ++ [byte]).length > 255 then (q ++ [byte]).tail else q ++ [byte]

variable {m : UartRxMemory} {q : List UInt8}

theorem zero_contains : UartRxMemory.zero.Contains [] :=
  .empty (by decide) (by decide) List.length_replicate

theorem toNat_rxCount (h : m.Contains q) : (rxCount m).toNat = q.length := h.count

theorem rxPeek_eq (h : m.Contains q) {i : Nat} (hi : i < q.length) : rxPeek m i = some q[i] :=
  h.peek hi

theorem uartRxIsrByte_contains (h : m.Contains q) (byte : UInt8) :
    ∃ m', uartRxIsrByte m byte = some m' ∧ m'.Contains (fifoReceive q byte) := by
  obtain ⟨m₁, hput, hhead, htail, hm₁, hcell⟩ := h.put byte
  rw [← hhead] at hcell
  have hlt := h.length_lt
  have hlap : m₁.advanceHead.head = m₁.advanceHead.tail ↔ q.length + 1 = uartRxBufferSize :=
    hm₁.head_eq_tail_iff
  have hsize : uartRxBufferSize = 256 := rfl
  unfold uartRxIsrByte fifoReceive
  rw [hput, Option.map_some, List.length_append, List.length_singleton]
  refine ⟨_, rfl, ?_⟩
  dsimp only
  by_cases hfull : q.length + 1 = uartRxBufferSize
  · rw [if_pos (hlap.mpr hfull), if_pos (by omega)]
    exact hm₁.advanceHead_full hfull hcell
  · rw [if_neg (fun heq => hfull (hlap.mp heq)), if_neg (by omega)]
    exact hm₁.advanceHead (by omega) hcell

theorem uartRxIsr_contains (h : m.Contains q) (received : List UInt8) :
    ∃ m', UartRxMemory.uartRxIsr m received = some m'
      ∧ m'.Contains (received.foldl fifoReceive q) := by
  induction received generalizing m q with
  | nil => exact ⟨m, rfl, h⟩
  | cons byte received ih =>
    obtain ⟨m₁, hbyte, hm₁⟩ := uartRxIsrByte_contains h byte
    obtain ⟨m', hrest, hm'⟩ := ih hm₁
    refine ⟨m', ?_, hm'⟩
    rw [UartRxMemory.uartRxIsr, hbyte, Option.bind_some, hrest]

theorem copyByte_eq {b : UInt8} (h : m.Contains (b :: q)) (w old : List UInt8)
    (hroom : w.length < old.length) :
    UartRxMemory.copyByte m (overlay w old) w.length
      = some (overlay (w ++ [b]) old, m.advance) := by
  rw [UartRxMemory.copyByte, h.first, Option.bind_some, store_overlay b hroom]
  rfl

/-! ## Packets -/

/-- The number of bytes up to and including the first zero byte, `0` if there is none. -/
def frameLength (q : List UInt8) : Nat :=
  match q.findIdx? (· == 0) with
  | some i => i + 1
  | none => 0

@[simp] theorem frameLength_nil : frameLength [] = 0 := rfl

@[simp] theorem frameLength_zero_cons (q : List UInt8) : frameLength (0 :: q) = 1 := by
  rw [frameLength, List.findIdx?_cons]
  rfl

theorem frameLength_cons {b : UInt8} (hb : b ≠ 0) (q : List UInt8) :
    frameLength (b :: q) = if frameLength q = 0 then 0 else frameLength q + 1 := by
  have hne : (b == 0) = false := by simpa using hb
  rw [frameLength, frameLength, List.findIdx?_cons, hne]
  cases q.findIdx? (· == 0) with
  | none => rfl
  | some i => rfl

/-- A frame: bytes up to a zero byte, the only one and at the end. -/
def IsFrame (f : List UInt8) : Prop := ∃ g, 0 ∉ g ∧ f = g ++ [0]

/-- **What `frameLength` measures**: nothing if there is no zero byte, otherwise a frame. -/
theorem frameLength_cases (q : List UInt8) :
    (frameLength q = 0 ∧ 0 ∉ q) ∨
      (0 < frameLength q ∧ frameLength q ≤ q.length ∧ IsFrame (q.take (frameLength q))) := by
  induction q with
  | nil => exact Or.inl ⟨rfl, by simp⟩
  | cons b q ih =>
    by_cases hb : b = 0
    · rw [hb, frameLength_zero_cons]
      exact Or.inr ⟨Nat.one_pos, by simp, [], by simp, rfl⟩
    · rw [frameLength_cons hb]
      rcases ih with ⟨hnone, hmem⟩ | ⟨hpos, hle, g, hg, hframe⟩
      · rw [if_pos hnone]
        exact Or.inl ⟨rfl, by simp [hmem, Ne.symm hb]⟩
      · rw [if_neg (by omega)]
        refine Or.inr ⟨Nat.succ_pos _, Nat.succ_le_succ hle, b :: g, by simp [hg, Ne.symm hb], ?_⟩
        rw [List.take_succ_cons, hframe, List.cons_append]

theorem frameLength_le (q : List UInt8) : frameLength q ≤ q.length := by
  rcases frameLength_cases q with ⟨hnone, -⟩ | ⟨-, hle, -⟩
  · omega
  · exact hle

/-- The loop of `uart_comms_packet_ready`, behind `offset` bytes. Induction on the bytes still
to be looked at. -/
theorem packetReadyFor_eq (h : m.Contains q) {front rest : List UInt8} (hq : q = front ++ rest) :
    UartRxMemory.packetReadyFor m rest.length front.length
      = some (if frameLength rest = 0 then 0 else front.length + frameLength rest) := by
  induction rest generalizing front with
  | nil => rfl
  | cons b rest ih =>
    have hpeek : rxPeek m front.length = some b := by
      have hin : front.length < q.length := by
        rw [hq, List.length_append, List.length_cons]
        omega
      rw [rxPeek_eq h hin]
      simp [hq]
    rw [List.length_cons, UartRxMemory.packetReadyFor, hpeek, Option.bind_some]
    by_cases hb : b = 0
    · rw [if_pos hb, hb, frameLength_zero_cons, if_neg (by decide)]
    · have hnext := @ih (front ++ [b]) (by rw [hq, List.append_assoc]; rfl)
      rw [List.length_append, List.length_singleton] at hnext
      rw [if_neg hb, hnext, frameLength_cons hb]
      congr 1
      by_cases hnone : frameLength rest = 0
      · rw [if_pos hnone, if_pos hnone, if_pos rfl]
      · rw [if_neg hnone, if_neg hnone, if_neg (by omega)]
        omega

theorem uartCommsPacketReady_memory (h : m.Contains q) :
    UartRxMemory.uartCommsPacketReady m = some (frameLength q) := by
  have hloop := packetReadyFor_eq h (List.nil_append q).symm
  rw [List.length_nil, Nat.zero_add] at hloop
  rw [UartRxMemory.uartCommsPacketReady, toNat_rxCount h, hloop]
  congr 1
  split <;> omega

theorem discardFor_contains {front rest : List UInt8} (h : m.Contains (front ++ rest)) :
    (UartRxMemory.discardFor m front.length).Contains rest := by
  induction front generalizing m with
  | nil => exact h
  | cons b front ih => exact ih h.advance

/-- The copying loop, behind the bytes `w`. Induction on the bytes still to be copied. -/
theorem copyFor_contains (w old : List UInt8) {front rest : List UInt8}
    (h : m.Contains (front ++ rest)) (hroom : w.length + front.length ≤ old.length) :
    ∃ m', UartRxMemory.copyFor m (overlay w old) front.length w.length
        = some (overlay (w ++ front) old, m')
      ∧ m'.Contains rest := by
  induction front generalizing m w with
  | nil =>
    refine ⟨m, ?_, h⟩
    rw [List.append_nil]
    rfl
  | cons b front ih =>
    rw [List.length_cons] at hroom
    have hcopy := copyByte_eq h w old (by omega)
    obtain ⟨m', hloop, hm'⟩ := ih (w ++ [b]) h.advance
      (by rw [List.length_append, List.length_singleton]; omega)
    rw [List.length_append, List.length_singleton, List.append_assoc] at hloop
    refine ⟨m', ?_, hm'⟩
    rw [List.length_cons, UartRxMemory.copyFor, hcopy, Option.bind_some, hloop]
    rfl

theorem uartCommsGetPacket_contains (h : m.Contains q) {buffer : List UInt8} {maxLength : UInt16}
    (hbuffer : maxLength.toNat ≤ buffer.length) :
    ∃ m', UartRxMemory.uartCommsGetPacket m buffer maxLength
        = some (if frameLength q > maxLength.toNat then (0, buffer, m')
            else (frameLength q, overlay (q.take (frameLength q)) buffer, m'))
      ∧ m'.Contains (q.drop (frameLength q)) := by
  have hle := frameLength_le q
  have htake : (q.take (frameLength q)).length = frameLength q := by
    rw [List.length_take]
    omega
  have hsplit : m.Contains (q.take (frameLength q) ++ q.drop (frameLength q)) := by
    rwa [List.take_append_drop]
  rw [UartRxMemory.uartCommsGetPacket, uartCommsPacketReady_memory h, Option.bind_some]
  by_cases hnone : frameLength q = 0
  · have hfits : ¬frameLength q > maxLength.toNat := by omega
    refine ⟨m, ?_, ?_⟩
    · rw [if_pos hnone, if_neg hfits, hnone]
      rfl
    · rwa [hnone]
  · rw [if_neg hnone]
    by_cases hlong : frameLength q > maxLength.toNat
    · rw [if_pos hlong]
      have hdiscard := discardFor_contains hsplit
      rw [htake] at hdiscard
      exact ⟨_, by rw [if_pos hlong], hdiscard⟩
    · rw [if_neg hlong]
      obtain ⟨m', hcopy, hm'⟩ := copyFor_contains [] buffer hsplit
        (by rw [htake, List.length_nil]; omega)
      rw [htake, List.length_nil, overlay_nil, List.nil_append] at hcopy
      refine ⟨m', ?_, hm'⟩
      rw [hcopy, if_neg hlong]
      rfl

/-- `uart_comms_init` empties the ring. -/
theorem init_contains (h : m.Contains q) :
    (⟨m.cells, 0, 0⟩ : UartRxMemory).Contains [] := .empty h.fits (by decide) h.length_cells

/-! ## The driver as a queue -/

/-- A buffer of the caller, of at least `max_length` bytes. -/
structure CallerBuffer where
  memory : List UInt8
  maxLength : UInt16
  fits : maxLength.toNat ≤ memory.length

/-- What happens to a ring: a receive interrupt, or a call of the application. -/
inductive UartRxCall where
  | uartCommsInit
  | uartRxIsr (received : List UInt8)
  | uartCommsRxCount
  | uartCommsPacketReady
  | uartCommsGetPacket (buffer : CallerBuffer)

/-- What a call returns, with the caller's buffer afterwards. -/
inductive UartRxReply where
  | none
  | length (n : Nat)
  | packet (n : Nat) (memory : List UInt8)
deriving DecidableEq

/-- A call, executed atomically. -/
def UartRxMemory.call (m : UartRxMemory) : UartRxCall → Option (UartRxReply × UartRxMemory)
  | .uartCommsInit => some (.none, ⟨m.cells, 0, 0⟩)
  | .uartRxIsr received => (uartRxIsr m received).map fun m => (.none, m)
  | .uartCommsRxCount => some (.length (rxCount m).toNat, m)
  | .uartCommsPacketReady => (uartCommsPacketReady m).map fun n => (.length n, m)
  | .uartCommsGetPacket buffer =>
    (uartCommsGetPacket m buffer.memory buffer.maxLength).map fun r => (.packet r.1 r.2.1, r.2.2)

/-- What a call is for: an operation of the queue of received bytes. -/
def fifoCall (q : List UInt8) : UartRxCall → UartRxReply × List UInt8
  | .uartCommsInit => (.none, [])
  | .uartRxIsr received => (.none, received.foldl fifoReceive q)
  | .uartCommsRxCount => (.length q.length, q)
  | .uartCommsPacketReady => (.length (frameLength q), q)
  | .uartCommsGetPacket buffer =>
    let packet := q.take (frameLength q)
    let rest := q.drop (frameLength q)
    if frameLength q > buffer.maxLength.toNat then (.packet 0 buffer.memory, rest)
    else (.packet (frameLength q) (overlay packet buffer.memory), rest)

theorem call_contains (h : m.Contains q) (c : UartRxCall) :
    ∃ m', UartRxMemory.call m c = some ((fifoCall q c).1, m') ∧ m'.Contains (fifoCall q c).2 := by
  cases c with
  | uartCommsInit => exact ⟨_, rfl, init_contains h⟩
  | uartRxIsr received =>
    obtain ⟨m', hisr, hm'⟩ := uartRxIsr_contains h received
    refine ⟨m', ?_, hm'⟩
    rw [UartRxMemory.call, hisr]
    rfl
  | uartCommsRxCount =>
    refine ⟨m, ?_, h⟩
    rw [UartRxMemory.call, toNat_rxCount h]
    rfl
  | uartCommsPacketReady =>
    refine ⟨m, ?_, h⟩
    rw [UartRxMemory.call, uartCommsPacketReady_memory h]
    rfl
  | uartCommsGetPacket buffer =>
    obtain ⟨m', hget, hm'⟩ := uartCommsGetPacket_contains h buffer.fits
    rw [UartRxMemory.call, hget]
    dsimp only [fifoCall]
    by_cases hlong : frameLength q > buffer.maxLength.toNat
    · rw [if_pos hlong, if_pos hlong]
      exact ⟨m', rfl, hm'⟩
    · rw [if_neg hlong, if_neg hlong]
      exact ⟨m', rfl, hm'⟩

/-- Calls one after the other on the rings of both UARTs: what they return, and the rings
afterwards. -/
def uartRun (m : Fin 2 → UartRxMemory) :
    List (Fin 2 × UartRxCall) → Option (List UartRxReply × (Fin 2 → UartRxMemory))
  | [] => some ([], m)
  | (idx, c) :: calls =>
    (UartRxMemory.call (m idx) c).bind fun r =>
      (uartRun (Function.update m idx r.2) calls).map fun rest => (r.1 :: rest.1, rest.2)

/-- The same calls on two queues. -/
def fifoRun (q : Fin 2 → List UInt8) :
    List (Fin 2 × UartRxCall) → List UartRxReply × (Fin 2 → List UInt8)
  | [] => ([], q)
  | (idx, c) :: calls =>
    let r := fifoCall (q idx) c
    let rest := fifoRun (Function.update q idx r.2) calls
    (r.1 :: rest.1, rest.2)

theorem uartRun_refines {m : Fin 2 → UartRxMemory} {q : Fin 2 → List UInt8}
    (h : ∀ idx, (m idx).Contains (q idx)) (calls : List (Fin 2 × UartRxCall)) :
    ∃ m', uartRun m calls = some ((fifoRun q calls).1, m')
      ∧ ∀ idx, (m' idx).Contains ((fifoRun q calls).2 idx) := by
  induction calls generalizing m q with
  | nil => exact ⟨m, rfl, h⟩
  | cons call calls ih =>
    obtain ⟨idx, c⟩ := call
    obtain ⟨m₁, hcall, hm₁⟩ := call_contains (h idx) c
    have hnext : ∀ i, (Function.update m idx m₁ i).Contains
        (Function.update q idx (fifoCall (q idx) c).2 i) := by
      intro i
      by_cases hi : i = idx
      · rw [hi, Function.update_self, Function.update_self]
        exact hm₁
      · rw [Function.update_of_ne hi, Function.update_of_ne hi]
        exact h i
    obtain ⟨m', hrest, hm'⟩ := ih hnext
    refine ⟨m', ?_, hm'⟩
    rw [uartRun, hcall, Option.bind_some, hrest]
    rfl

/-- **The receive ring is a queue that drops its oldest bytes.** For every sequence of receive
interrupts and calls on either UART, the calls return what they return on the queues, each ring
holds the bytes of its queue from `rx_tail` up to `rx_head`, at most 255 of them, and the
indices stay in the array. -/
theorem uart_rx_refines_fifo (calls : List (Fin 2 × UartRxCall)) :
    ∃ m, uartRun (fun _ => .zero) calls = some ((fifoRun (fun _ => []) calls).1, m)
      ∧ ∀ idx, (m idx).elements = some ((fifoRun (fun _ => []) calls).2 idx)
        ∧ ((fifoRun (fun _ => []) calls).2 idx).length ≤ 255
        ∧ (m idx).head.toNat < 256 ∧ (m idx).tail.toNat < 256 := by
  obtain ⟨m, hrun, hm⟩ := uartRun_refines (q := fun _ => []) (fun _ => zero_contains) calls
  exact ⟨m, hrun, fun idx =>
    ⟨(hm idx).elements, Nat.le_of_lt_succ (hm idx).length_lt, (hm idx).indices_lt⟩⟩

end Samwise
