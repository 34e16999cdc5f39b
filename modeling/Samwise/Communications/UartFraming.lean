import Samwise.Lib.Run
import Samwise.Communications.UartRxRing

/-!
# Samwise — taking packets while bytes arrive

`uart_comms_packet_ready` and `uart_comms_get_packet` (`uart_communications.c`) iteration by
iteration, with the receive interrupt between any two iterations. The application measures the
first packet and then copies that many bytes, and in between the interrupt may take the oldest
bytes out of a full ring: what was measured is then no longer what is copied.
-/

namespace Samwise

open Buffer

/-! ## The machine -/

/-- Where the application is. `caller` is the buffer of `uart_comms_get_packet`, `none` in a call
of `uart_comms_packet_ready` on its own. -/
inductive UartReader where
  | idle
  | ready (caller : Option CallerBuffer) (count offset : Nat)
  | discard (packetLength i : Nat)
  | copy (buffer : List UInt8) (packetLength i : Nat)

/-- The ring and the application, every byte received, and the non-empty packets that
`uart_comms_get_packet` has returned. -/
structure UartReceiver where
  ring : UartRxMemory
  reader : UartReader
  received : List UInt8
  returned : List (List UInt8)

/-- The receive interrupt with the bytes that are readable, the two calls, and an evaluation of
the loop condition with the iteration behind it. -/
inductive UartReceiverEvent where
  | uartRxIsr (bytes : List UInt8)
  | uartCommsPacketReady
  | uartCommsGetPacket (buffer : CallerBuffer)
  | iterate

namespace UartReceiver

def start : UartReceiver := ⟨.zero, .idle, [], []⟩

/-- `uart_comms_packet_ready` returns `packetLength`. -/
def measured (s : UartReceiver) (caller : Option CallerBuffer) (packetLength : Nat) :
    UartReceiver :=
  match caller with
  | none => { s with reader := .idle }
  | some buffer =>
    if packetLength = 0 then { s with reader := .idle }
    else if packetLength > buffer.maxLength.toNat then
      { s with reader := .discard packetLength 0 }
    else { s with reader := .copy buffer.memory packetLength 0 }

/-- One iteration of the loop the application is in, or its end. -/
def iterate (s : UartReceiver) : Option UartReceiver :=
  match s.reader with
  | .idle => none
  | .ready caller count offset =>
    if offset < count then
      (rxPeek s.ring offset).map fun byte =>
        if byte = 0 then s.measured caller (offset + 1)
        else { s with reader := .ready caller count (offset + 1) }
    else some (s.measured caller 0)
  | .discard packetLength i =>
    if i < packetLength then
      some { s with ring := s.ring.advance, reader := .discard packetLength (i + 1) }
    else some { s with reader := .idle }
  | .copy buffer packetLength i =>
    if i < packetLength then
      (UartRxMemory.copyByte s.ring buffer i).map fun r =>
        { s with ring := r.2, reader := .copy r.1 packetLength (i + 1) }
    else
      some { s with reader := .idle, returned := s.returned ++ [buffer.take packetLength] }

def step (s : UartReceiver) : UartReceiverEvent → Option UartReceiver
  | .uartRxIsr bytes =>
    (UartRxMemory.uartRxIsr s.ring bytes).map fun ring =>
      { s with ring, received := s.received ++ bytes }
  | .uartCommsPacketReady =>
    match s.reader with
    | .idle => some { s with reader := .ready none (rxCount s.ring).toNat 0 }
    | _ => none
  | .uartCommsGetPacket buffer =>
    match s.reader with
    | .idle => some { s with reader := .ready (some buffer) (rxCount s.ring).toNat 0 }
    | _ => none
  | .iterate => s.iterate

/-- An interrupt for `bytes` leaves the call in progress what it relies on: to a scan that its
first bytes hold no zero, to a copy all the bytes of the ring. -/
def KeptBy (ring : UartRxMemory) (bytes : List UInt8) : UartReader → Prop
  | .ready (some _) _ offset =>
    ∀ ring' ∈ UartRxMemory.uartRxIsr ring bytes, ∀ i < offset, rxPeek ring' i ≠ some 0
  | .copy _ packetLength i => i < packetLength → (rxCount ring).toNat + bytes.length ≤ 255
  | _ => True

/-- No interrupt takes from the call in progress what it relies on. -/
def Undisturbed (s : UartReceiver) : UartReceiverEvent → Prop
  | .uartRxIsr bytes => KeptBy s.ring bytes s.reader
  | _ => True

instance KeptBy.decidable (ring : UartRxMemory) (bytes : List UInt8) :
    (reader : UartReader) → Decidable (KeptBy ring bytes reader)
  | .idle => isTrue trivial
  | .ready none _ _ => isTrue trivial
  | .ready (some _) _ offset =>
    inferInstanceAs (Decidable
      (∀ ring' ∈ UartRxMemory.uartRxIsr ring bytes, ∀ i < offset, rxPeek ring' i ≠ some 0))
  | .discard _ _ => isTrue trivial
  | .copy _ packetLength i =>
    inferInstanceAs (Decidable (i < packetLength → (rxCount ring).toNat + bytes.length ≤ 255))

instance Undisturbed.decidable (s : UartReceiver) :
    (e : UartReceiverEvent) → Decidable (s.Undisturbed e)
  | .uartRxIsr bytes => KeptBy.decidable s.ring bytes s.reader
  | .uartCommsPacketReady => isTrue trivial
  | .uartCommsGetPacket _ => isTrue trivial
  | .iterate => isTrue trivial

end UartReceiver

/-! ## What the interrupt does to the queue -/

theorem fifoReceive_suffix (q : List UInt8) (byte : UInt8) :
    fifoReceive q byte <:+ q ++ [byte] := by
  unfold fifoReceive
  split
  · exact List.tail_suffix _
  · exact List.suffix_rfl

theorem length_fifoReceive (q : List UInt8) (byte : UInt8) :
    q.length ≤ (fifoReceive q byte).length := by
  unfold fifoReceive
  split
  · simp
  · simp

theorem foldl_fifoReceive_suffix (q bytes : List UInt8) :
    bytes.foldl fifoReceive q <:+ q ++ bytes := by
  induction bytes generalizing q with
  | nil =>
    rw [List.append_nil]
    exact List.suffix_rfl
  | cons byte bytes ih =>
    obtain ⟨dropped, hdropped⟩ := fifoReceive_suffix q byte
    refine (ih (fifoReceive q byte)).trans ⟨dropped, ?_⟩
    rw [← List.append_assoc, hdropped, List.append_assoc, List.singleton_append]

theorem length_foldl_fifoReceive (q bytes : List UInt8) :
    q.length ≤ (bytes.foldl fifoReceive q).length := by
  induction bytes generalizing q with
  | nil => exact Nat.le_refl _
  | cons byte bytes ih => exact Nat.le_trans (length_fifoReceive q byte) (ih _)

/-- Where there is room for all of them, the bytes are appended. -/
theorem foldl_fifoReceive_of_le {q bytes : List UInt8} (h : q.length + bytes.length ≤ 255) :
    bytes.foldl fifoReceive q = q ++ bytes := by
  induction bytes generalizing q with
  | nil => exact (List.append_nil q).symm
  | cons byte bytes ih =>
    rw [List.length_cons] at h
    have hroom : fifoReceive q byte = q ++ [byte] := if_neg (by simp; omega)
    rw [List.foldl_cons, hroom, ih (by simp; omega), List.append_assoc, List.singleton_append]

namespace UartReceiver

/-! ## Without interrupts

Where no interrupt comes in between, the iterations of a call are those of the functions of
`UartRxRing`. -/

/-- Iterations, and nothing in between, take one state to the other. -/
def Iterates (s s' : UartReceiver) : Prop :=
  ∃ k, Run.run step s (List.replicate k .iterate) = some s'

theorem Iterates.refl (s : UartReceiver) : Iterates s s := ⟨0, rfl⟩

theorem Iterates.head {s t s' : UartReceiver} (h : s.iterate = some t) (hrest : Iterates t s') :
    Iterates s s' := by
  obtain ⟨k, hrun⟩ := hrest
  have hstep : s.step .iterate = some t := h
  exact ⟨k + 1, by rw [List.replicate_succ, Run.run_cons, hstep, Option.bind_some, hrun]⟩

theorem Iterates.trans {s t s' : UartReceiver} (h : Iterates s t) (hrest : Iterates t s') :
    Iterates s s' := by
  obtain ⟨k, hrun⟩ := h
  obtain ⟨k', hrun'⟩ := hrest
  exact ⟨k + k', by rw [List.replicate_add, Run.run_append, hrun, Option.bind_some, hrun']⟩

theorem iterates_packetReadyFor (s : UartReceiver) (caller : Option CallerBuffer)
    {left offset n : Nat} (h : UartRxMemory.packetReadyFor s.ring left offset = some n) :
    Iterates { s with reader := .ready caller (offset + left) offset } (s.measured caller n) := by
  induction left generalizing offset with
  | zero =>
    obtain rfl : 0 = n := Option.some.inj h
    exact .head (if_neg (by omega)) (.refl _)
  | succ left ih =>
    rw [UartRxMemory.packetReadyFor, Option.bind_eq_some_iff] at h
    obtain ⟨byte, hpeek, hrest⟩ := h
    have hiterate : iterate { s with reader := .ready caller (offset + (left + 1)) offset }
        = some (if byte = 0 then s.measured caller (offset + 1)
            else { s with reader := .ready caller (offset + (left + 1)) (offset + 1) }) := by
      rw [iterate]
      dsimp only
      rw [if_pos (by omega), hpeek]
      rfl
    refine .head hiterate ?_
    by_cases hzero : byte = 0
    · rw [if_pos hzero] at hrest ⊢
      rw [Option.some.inj hrest]
      exact .refl _
    · rw [if_neg hzero] at hrest ⊢
      have hcount : offset + (left + 1) = offset + 1 + left := by omega
      rw [hcount]
      exact ih hrest

theorem iterates_discardFor (s : UartReceiver) (left i : Nat) :
    Iterates { s with reader := .discard (i + left) i }
      { s with ring := UartRxMemory.discardFor s.ring left, reader := .idle } := by
  induction left generalizing s i with
  | zero => exact .head (if_neg (by omega)) (.refl _)
  | succ left ih =>
    refine .head (if_pos (by omega)) ?_
    have hcount : i + (left + 1) = i + 1 + left := by omega
    rw [hcount]
    exact ih { s with ring := s.ring.advance } (i + 1)

theorem iterates_copyFor (s : UartReceiver) {buffer buffer' : List UInt8} {left i : Nat}
    {ring : UartRxMemory} (h : UartRxMemory.copyFor s.ring buffer left i = some (buffer', ring)) :
    Iterates { s with reader := .copy buffer (i + left) i }
      { s with ring, reader := .idle, returned := s.returned ++ [buffer'.take (i + left)] } := by
  induction left generalizing s buffer i with
  | zero =>
    obtain ⟨rfl, rfl⟩ := Prod.mk.inj (Option.some.inj h)
    exact .head (if_neg (by omega)) (.refl _)
  | succ left ih =>
    rw [UartRxMemory.copyFor, Option.bind_eq_some_iff] at h
    obtain ⟨r, hcopy, hrest⟩ := h
    have hiterate : iterate { s with reader := .copy buffer (i + (left + 1)) i }
        = some { s with ring := r.2, reader := .copy r.1 (i + (left + 1)) (i + 1) } := by
      rw [iterate]
      dsimp only
      rw [if_pos (by omega), hcopy]
      rfl
    have hcount : i + (left + 1) = i + 1 + left := by omega
    refine .head hiterate ?_
    rw [hcount]
    exact ih { s with ring := r.2 } hrest

/-- **An uninterrupted call is an atomic one.** -/
theorem iterates_uartCommsGetPacket (s : UartReceiver) (buffer : CallerBuffer) {n : Nat}
    {memory : List UInt8} {ring : UartRxMemory}
    (h : UartRxMemory.uartCommsGetPacket s.ring buffer.memory buffer.maxLength
      = some (n, memory, ring)) :
    Iterates { s with reader := .ready (some buffer) (rxCount s.ring).toNat 0 }
      { s with
        ring
        reader := .idle
        returned := s.returned ++ if n = 0 then [] else [memory.take n] } := by
  rw [UartRxMemory.uartCommsGetPacket, Option.bind_eq_some_iff] at h
  obtain ⟨packetLength, hready, hrest⟩ := h
  have hscan := s.iterates_packetReadyFor (some buffer) hready
  rw [Nat.zero_add] at hscan
  refine hscan.trans ?_
  unfold measured
  dsimp only
  by_cases hnone : packetLength = 0
  · rw [if_pos hnone] at hrest ⊢
    obtain ⟨rfl, -, rfl⟩ : 0 = n ∧ buffer.memory = memory ∧ s.ring = ring := by simpa using hrest
    rw [if_pos rfl, List.append_nil]
    exact .refl _
  · rw [if_neg hnone] at hrest ⊢
    by_cases hlong : packetLength > buffer.maxLength.toNat
    · rw [if_pos hlong] at hrest ⊢
      obtain ⟨rfl, -, rfl⟩ : 0 = n ∧ buffer.memory = memory
          ∧ UartRxMemory.discardFor s.ring packetLength = ring := by simpa using hrest
      have hdiscard := s.iterates_discardFor packetLength 0
      rw [Nat.zero_add] at hdiscard
      rw [if_pos rfl, List.append_nil]
      exact hdiscard
    · rw [if_neg hlong] at hrest ⊢
      obtain ⟨⟨copied, left⟩, hcopy, hresult⟩ := Option.map_eq_some_iff.mp hrest
      obtain ⟨rfl, rfl, rfl⟩ : packetLength = n ∧ copied = memory ∧ left = ring := by
        simpa using hresult
      have hloop := s.iterates_copyFor hcopy
      rw [Nat.zero_add] at hloop
      rw [if_neg hnone]
      exact hloop

/-! ## Every run -/

/-- The loop that the application is in stays within the bytes of the ring and the caller's
buffer. -/
def InRange (q : List UInt8) : UartReader → Prop
  | .idle => True
  | .ready _ count offset => offset ≤ count ∧ count ≤ q.length
  | .discard packetLength i => packetLength ≤ i + q.length
  | .copy buffer packetLength i =>
    i ≤ packetLength ∧ packetLength ≤ i + q.length
      ∧ ∃ w old, buffer = overlay w old ∧ w.length = i ∧ packetLength ≤ old.length

/-- The ring holds `q`, which is the end of what was received. -/
structure Safe (s : UartReceiver) (q : List UInt8) : Prop where
  ring : s.ring.Contains q
  suffix : q <:+ s.received
  reader : InRange q s.reader

/-- What the call in progress has seen is still there: no zero byte where it has scanned, and
what it has copied is continued by the ring to a frame out of the stream. -/
def OnFrame (received q : List UInt8) : UartReader → Prop
  | .ready (some _) _ offset => 0 ∉ q.take offset
  | .copy buffer packetLength i =>
    IsFrame (buffer.take i ++ q.take (packetLength - i))
      ∧ buffer.take i ++ q.take (packetLength - i) <:+: received
  | _ => True

/-- Every packet returned is a frame and a piece of the stream. -/
structure Framed (s : UartReceiver) (q : List UInt8) : Prop where
  returned : ∀ p ∈ s.returned, IsFrame p ∧ p <:+: s.received
  reader : OnFrame s.received q s.reader

theorem InRange.mono {q q' : List UInt8} {reader : UartReader} (h : InRange q reader)
    (hle : q.length ≤ q'.length) : InRange q' reader := by
  cases reader with
  | idle => trivial
  | ready caller count offset => exact ⟨h.1, Nat.le_trans h.2 hle⟩
  | discard packetLength i => exact Nat.le_trans h (Nat.add_le_add_left hle i)
  | copy buffer packetLength i =>
    exact ⟨h.1, Nat.le_trans h.2.1 (Nat.add_le_add_left hle i), h.2.2⟩

theorem Safe.start : start.Safe [] :=
  { ring := zero_contains
    suffix := List.suffix_rfl
    reader := trivial }

theorem Framed.start : start.Framed [] :=
  { returned := fun _ hp => absurd hp List.not_mem_nil
    reader := trivial }

variable {s s' : UartReceiver} {q : List UInt8}

theorem isInfix_append_right {p l : List UInt8} (h : p <:+: l) (l' : List UInt8) :
    p <:+: l ++ l' := h.trans ⟨[], l', by simp⟩

/-- **The interrupt.** The ring only grows, and what is returned stays a piece of the stream. -/
theorem Safe.uartRxIsr (h : s.Safe q) (bytes : List UInt8) :
    ∃ s', s.step (.uartRxIsr bytes) = some s' ∧ s'.Safe (bytes.foldl fifoReceive q)
      ∧ (s.Framed q → s.Undisturbed (.uartRxIsr bytes) →
          s'.Framed (bytes.foldl fifoReceive q)) := by
  obtain ⟨ring, hisr, hring⟩ := uartRxIsr_contains h.ring bytes
  obtain ⟨front, hfront⟩ := h.suffix
  have hstep : s.step (.uartRxIsr bytes)
      = some { s with ring, received := s.received ++ bytes } := by
    rw [step, hisr]
    rfl
  refine ⟨_, hstep, ⟨hring, ?_, h.reader.mono (length_foldl_fifoReceive q bytes)⟩, ?_⟩
  · refine (foldl_fifoReceive_suffix q bytes).trans ⟨front, ?_⟩
    rw [← List.append_assoc, hfront]
  · intro hframed hundisturbed
    refine ⟨fun p hp => ?_, ?_⟩
    · obtain ⟨hframe, hpiece⟩ := hframed.returned p hp
      exact ⟨hframe, isInfix_append_right hpiece bytes⟩
    · have hreader := h.reader
      have honframe := hframed.reader
      change KeptBy s.ring bytes s.reader at hundisturbed
      show OnFrame (s.received ++ bytes) (bytes.foldl fifoReceive q) s.reader
      generalize s.reader = reader at hreader honframe hundisturbed ⊢
      cases reader with
      | idle => trivial
      | discard packetLength i => trivial
      | ready caller count offset =>
        cases caller with
        | none => trivial
        | some buffer =>
          -- the bytes moved to the front of the scan are not zero
          intro hzero
          obtain ⟨i, hi, hget⟩ := List.mem_iff_getElem.mp hzero
          rw [List.length_take] at hi
          rw [List.getElem_take] at hget
          have hpeek := rxPeek_eq hring (i := i) (by omega)
          rw [hget] at hpeek
          exact hundisturbed ring hisr i (by omega) hpeek
      | copy buffer packetLength i =>
        obtain ⟨hframe, hpiece⟩ := honframe
        obtain ⟨hle, hbytes, -⟩ := hreader
        have hsame : (bytes.foldl fifoReceive q).take (packetLength - i)
            = q.take (packetLength - i) := by
          by_cases hlast : i < packetLength
          · have hroom := hundisturbed hlast
            rw [toNat_rxCount h.ring] at hroom
            rw [foldl_fifoReceive_of_le hroom, List.take_append_of_le_length (by omega)]
          · have hnone : packetLength - i = 0 := by omega
            rw [hnone, List.take_zero, List.take_zero]
        show IsFrame (_ ++ _) ∧ _ ++ _ <:+: _
        rw [hsame]
        exact ⟨hframe, isInfix_append_right hpiece bytes⟩

/-- The call starts with all the bytes of the ring in range and none seen. -/
theorem Safe.call (h : s.Safe q) (caller : Option CallerBuffer) :
    Safe { s with reader := .ready caller (rxCount s.ring).toNat 0 } q
      ∧ (s.Framed q → Framed { s with reader := .ready caller (rxCount s.ring).toNat 0 } q) := by
  refine ⟨⟨h.ring, h.suffix, Nat.zero_le _, Nat.le_of_eq (toNat_rxCount h.ring)⟩, fun hframed => ?_⟩
  refine ⟨hframed.returned, ?_⟩
  cases caller with
  | none => trivial
  | some buffer => exact List.not_mem_nil

/-- `uart_comms_packet_ready` has measured nothing or a frame at the front of the ring. -/
theorem Safe.measured (h : s.Safe q) (caller : Option CallerBuffer) {n : Nat}
    (hn : n ≤ q.length) :
    (s.measured caller n).Safe q
      ∧ (s.Framed q → (caller ≠ none → n ≠ 0 → IsFrame (q.take n)) →
          (s.measured caller n).Framed q) := by
  unfold UartReceiver.measured
  cases caller with
  | none => exact ⟨⟨h.ring, h.suffix, trivial⟩, fun hframed _ => ⟨hframed.returned, trivial⟩⟩
  | some buffer =>
    have hfits := buffer.fits
    dsimp only
    by_cases hnone : n = 0
    · rw [if_pos hnone]
      exact ⟨⟨h.ring, h.suffix, trivial⟩, fun hframed _ => ⟨hframed.returned, trivial⟩⟩
    · rw [if_neg hnone]
      by_cases hlong : n > buffer.maxLength.toNat
      · rw [if_pos hlong]
        exact ⟨⟨h.ring, h.suffix, Nat.le_trans hn (Nat.le_add_left _ _)⟩,
          fun hframed _ => ⟨hframed.returned, trivial⟩⟩
      · rw [if_neg hlong]
        refine ⟨⟨h.ring, h.suffix, Nat.zero_le _, Nat.le_trans hn (Nat.le_add_left _ _),
          [], buffer.memory, rfl, rfl, by omega⟩, fun hframed hframe => ⟨hframed.returned, ?_⟩⟩
        show IsFrame (_ ++ q.take (n - 0)) ∧ _ ++ q.take (n - 0) <:+: _
        rw [Nat.sub_zero, List.take_zero, List.nil_append]
        exact ⟨hframe (by simp) hnone, (q.take_prefix n).isInfix.trans h.suffix.isInfix⟩

/-- An iteration of the scan. -/
theorem Safe.iterate_ready (h : s.Safe q) {caller : Option CallerBuffer} {count offset : Nat}
    (hreader : s.reader = .ready caller count offset) :
    ∃ s', s.iterate = some s' ∧ s'.Safe q ∧ (s.Framed q → s'.Framed q) := by
  obtain ⟨hoffset, hcount⟩ : offset ≤ count ∧ count ≤ q.length := by
    have hrange := h.reader
    rwa [hreader] at hrange
  unfold UartReceiver.iterate
  rw [hreader]
  dsimp only
  by_cases hmore : offset < count
  · rw [if_pos hmore, rxPeek_eq h.ring (by omega : offset < q.length), Option.map_some]
    refine ⟨_, rfl, ?_⟩
    have hpiece : q.take (offset + 1) = q.take offset ++ [q[offset]] :=
      (List.take_append_getElem (by omega)).symm
    by_cases hzero : q[offset] = 0
    · rw [if_pos hzero]
      obtain ⟨hsafe, hframed⟩ := h.measured caller (n := offset + 1) (by omega)
      refine ⟨hsafe, fun hs => hframed hs fun hcaller _ => ?_⟩
      have honframe := hs.reader
      rw [hreader] at honframe
      cases caller with
      | none => exact absurd rfl hcaller
      | some buffer => exact ⟨q.take offset, honframe, by rw [hpiece, hzero]⟩
    · rw [if_neg hzero]
      refine ⟨⟨h.ring, h.suffix, hmore, hcount⟩, fun hs => ⟨hs.returned, ?_⟩⟩
      have honframe := hs.reader
      rw [hreader] at honframe
      cases caller with
      | none => trivial
      | some buffer =>
        have hclean : 0 ∉ q.take offset := honframe
        show 0 ∉ q.take (offset + 1)
        rw [hpiece, List.mem_append, not_or]
        exact ⟨hclean, fun hmem => hzero (List.mem_singleton.mp hmem).symm⟩
  · rw [if_neg hmore]
    obtain ⟨hsafe, hframed⟩ := h.measured caller (Nat.zero_le _)
    exact ⟨_, rfl, hsafe, fun hs => hframed hs fun _ hne => absurd rfl hne⟩

/-- An iteration of the loop that discards a packet. -/
theorem Safe.iterate_discard (h : s.Safe q) {packetLength i : Nat}
    (hreader : s.reader = .discard packetLength i) :
    ∃ s' q', s.iterate = some s' ∧ s'.Safe q' ∧ (s.Framed q → s'.Framed q') := by
  have hbytes : packetLength ≤ i + q.length := by
    have hrange := h.reader
    rwa [hreader] at hrange
  unfold UartReceiver.iterate
  rw [hreader]
  dsimp only
  by_cases hmore : i < packetLength
  · rw [if_pos hmore]
    cases q with
    | nil => exact absurd hbytes (by simp; omega)
    | cons b q =>
      rw [List.length_cons] at hbytes
      refine ⟨_, q, rfl, ⟨h.ring.advance, (List.suffix_cons b q).trans h.suffix, ?_⟩,
        fun hs => ⟨hs.returned, trivial⟩⟩
      show packetLength ≤ i + 1 + q.length
      omega
  · rw [if_neg hmore]
    exact ⟨_, q, rfl, ⟨h.ring, h.suffix, trivial⟩, fun hs => ⟨hs.returned, trivial⟩⟩

/-- An iteration of the loop that copies a packet, or its return. -/
theorem Safe.iterate_copy (h : s.Safe q) {buffer : List UInt8} {packetLength i : Nat}
    (hreader : s.reader = .copy buffer packetLength i) :
    ∃ s' q', s.iterate = some s' ∧ s'.Safe q' ∧ (s.Framed q → s'.Framed q') := by
  obtain ⟨hle, hbytes, w, old, rfl, rfl, hold⟩ : i ≤ packetLength ∧ packetLength ≤ i + q.length
      ∧ ∃ w old, buffer = overlay w old ∧ w.length = i ∧ packetLength ≤ old.length := by
    have hrange := h.reader
    rwa [hreader] at hrange
  have honframe : s.Framed q →
      IsFrame (w ++ q.take (packetLength - w.length))
        ∧ w ++ q.take (packetLength - w.length) <:+: s.received := by
    intro hs
    have hcopy := hs.reader
    rw [hreader] at hcopy
    have htake : (overlay w old).take w.length = w := take_overlay w old
    change IsFrame ((overlay w old).take w.length ++ _)
      ∧ (overlay w old).take w.length ++ _ <:+: _ at hcopy
    rwa [htake] at hcopy
  unfold UartReceiver.iterate
  rw [hreader]
  dsimp only
  by_cases hmore : w.length < packetLength
  · rw [if_pos hmore]
    cases q with
    | nil => exact absurd hbytes (by simp; omega)
    | cons b q =>
      rw [List.length_cons] at hbytes
      rw [copyByte_eq h.ring w old (by omega), Option.map_some]
      have hgrown : (w ++ [b]).length = w.length + 1 := by simp
      refine ⟨_, q, rfl, ⟨h.ring.advance, (List.suffix_cons b q).trans h.suffix, hmore, ?_,
        w ++ [b], old, rfl, hgrown, hold⟩, fun hs => ⟨hs.returned, ?_⟩⟩
      · omega
      · have htake : (overlay (w ++ [b]) old).take (w.length + 1) = w ++ [b] := by
          rw [← hgrown, take_overlay]
        have hsame : w ++ [b] ++ q.take (packetLength - (w.length + 1))
            = w ++ (b :: q).take (packetLength - w.length) := by
          obtain ⟨k, hk⟩ : ∃ k, packetLength - w.length = k + 1 :=
            ⟨packetLength - w.length - 1, by omega⟩
          have hk' : packetLength - (w.length + 1) = k := by omega
          rw [hk, hk', List.take_succ_cons, List.append_assoc, List.singleton_append]
        show IsFrame (_ ++ _) ∧ _ ++ _ <:+: _
        rw [htake, hsame]
        exact honframe hs
  · rw [if_neg hmore]
    have hall : packetLength = w.length := by omega
    refine ⟨_, q, rfl, ⟨h.ring, h.suffix, trivial⟩, fun hs => ⟨fun p hp => ?_, trivial⟩⟩
    rcases List.mem_append.mp hp with hold' | hnew
    · exact hs.returned p hold'
    · have hpacket := honframe hs
      rw [hall, Nat.sub_self, List.take_zero, List.append_nil] at hpacket
      rw [List.mem_singleton.mp hnew, hall, take_overlay]
      exact hpacket

/-- One step of the machine. -/
theorem Safe.step (h : s.Safe q) {e : UartReceiverEvent} (hstep : s.step e = some s') :
    ∃ q', s'.Safe q' ∧ (s.Framed q → s.Undisturbed e → s'.Framed q') := by
  cases e with
  | uartRxIsr bytes =>
    obtain ⟨t, ht, hsafe, hframed⟩ := h.uartRxIsr bytes
    obtain rfl : t = s' := Option.some.inj (ht.symm.trans hstep)
    exact ⟨_, hsafe, hframed⟩
  | uartCommsPacketReady =>
    obtain ⟨hsafe, hframed⟩ := h.call none
    simp only [UartReceiver.step] at hstep
    split at hstep
    · obtain rfl := Option.some.inj hstep
      exact ⟨q, hsafe, fun hs _ => hframed hs⟩
    · cases hstep
  | uartCommsGetPacket buffer =>
    obtain ⟨hsafe, hframed⟩ := h.call (some buffer)
    simp only [UartReceiver.step] at hstep
    split at hstep
    · obtain rfl := Option.some.inj hstep
      exact ⟨q, hsafe, fun hs _ => hframed hs⟩
    · cases hstep
  | iterate =>
    have hiterate : s.iterate = some s' := hstep
    cases hreader : s.reader with
    | idle =>
      rw [UartReceiver.iterate, hreader] at hiterate
      cases hiterate
    | ready caller count offset =>
      obtain ⟨t, ht, hsafe, hframed⟩ := h.iterate_ready hreader
      obtain rfl : t = s' := Option.some.inj (ht.symm.trans hiterate)
      exact ⟨q, hsafe, fun hs _ => hframed hs⟩
    | discard packetLength i =>
      obtain ⟨t, q', ht, hsafe, hframed⟩ := h.iterate_discard hreader
      obtain rfl : t = s' := Option.some.inj (ht.symm.trans hiterate)
      exact ⟨q', hsafe, fun hs _ => hframed hs⟩
    | copy buffer packetLength i =>
      obtain ⟨t, q', ht, hsafe, hframed⟩ := h.iterate_copy hreader
      obtain rfl : t = s' := Option.some.inj (ht.symm.trans hiterate)
      exact ⟨q', hsafe, fun hs _ => hframed hs⟩

/-- No iteration accesses anything outside of an array. -/
theorem Safe.iterate_defined (h : s.Safe q) (hbusy : s.reader ≠ .idle) :
    ∃ s', s.iterate = some s' := by
  cases hreader : s.reader with
  | idle => exact absurd hreader hbusy
  | ready caller count offset =>
    obtain ⟨s', hiterate, -⟩ := h.iterate_ready hreader
    exact ⟨s', hiterate⟩
  | discard packetLength i =>
    obtain ⟨s', _, hiterate, -⟩ := h.iterate_discard hreader
    exact ⟨s', hiterate⟩
  | copy buffer packetLength i =>
    obtain ⟨s', _, hiterate, -⟩ := h.iterate_copy hreader
    exact ⟨s', hiterate⟩

/-- **Frames under interrupts.** In every run the indices stay in the ring, and no loop accesses
anything outside of an array. Where no interrupt takes from the call in progress what it has
measured, every packet returned has one zero byte, at its end, and is a piece of the stream of
received bytes. -/
theorem framing_under_interrupts {es : List UartReceiverEvent}
    (hrun : Run.run UartReceiver.step UartReceiver.start es = some s) :
    (s.ring.head.toNat < uartRxBufferSize ∧ s.ring.tail.toNat < uartRxBufferSize)
    ∧ (s.reader ≠ .idle → ∃ s', s.step .iterate = some s')
    ∧ (Run.AllSteps UartReceiver.step Undisturbed UartReceiver.start es →
        ∀ p ∈ s.returned, IsFrame p ∧ p <:+: s.received) := by
  have hsafe : ∃ q, s.Safe q :=
    Run.invariant' UartReceiver.step (I := fun s => ∃ q, s.Safe q)
      (fun s e s' h hstep => by
        obtain ⟨q, hq⟩ := h
        obtain ⟨q', hq', -⟩ := hq.step hstep
        exact ⟨q', hq'⟩)
      hrun ⟨[], Safe.start⟩
  obtain ⟨q, hq⟩ := hsafe
  refine ⟨hq.ring.indices_lt, hq.iterate_defined, fun hok => ?_⟩
  have hframed : ∃ q, s.Safe q ∧ s.Framed q :=
    Run.invariant UartReceiver.step (I := fun s => ∃ q, s.Safe q ∧ s.Framed q)
      (fun s e s' hundisturbed h hstep => by
        obtain ⟨q, hq, hframed⟩ := h
        obtain ⟨q', hq', hnext⟩ := hq.step hstep
        exact ⟨q', hq', hnext hframed hundisturbed⟩)
      hok hrun ⟨[], Safe.start, Framed.start⟩
  obtain ⟨_, -, hframed⟩ := hframed
  exact hframed.returned

/-- A caller's buffer of two bytes. -/
def callerBuffer2 : CallerBuffer := ⟨[0, 0], 2, by decide⟩

/-- A byte that arrives while a packet of two bytes is copied. -/
theorem framing_with_room :
    ∃ s, Run.run UartReceiver.step UartReceiver.start
        [.uartRxIsr [5, 0], .uartCommsGetPacket callerBuffer2, .iterate, .iterate, .iterate,
          .uartRxIsr [7], .iterate, .iterate] = some s
      ∧ ∀ p ∈ s.returned, IsFrame p ∧ p <:+: s.received := by
  have hsome : (Run.run UartReceiver.step UartReceiver.start
      [.uartRxIsr [5, 0], .uartCommsGetPacket callerBuffer2, .iterate, .iterate, .iterate,
        .uartRxIsr [7], .iterate, .iterate]).isSome := by
    decide +kernel
  obtain ⟨s, hrun⟩ := Option.isSome_iff_exists.mp hsome
  exact ⟨s, hrun, (framing_under_interrupts hrun).2.2 (by decide +kernel)⟩

/-- A packet of two bytes at the front of a full ring, and room for one byte after the first has
been copied: two more bytes take its zero byte out of the ring. -/
def overwrittenInCopy : List UartReceiverEvent :=
  [.uartRxIsr ([1, 0] ++ List.replicate 253 2), .uartCommsGetPacket callerBuffer2,
    .iterate, .iterate, .iterate, .uartRxIsr [3, 4], .iterate, .iterate]

theorem overwritten_packet_has_no_end :
    ¬∀ es s, Run.run UartReceiver.step UartReceiver.start es = some s →
      ∀ p ∈ s.returned, IsFrame p ∧ p <:+: s.received := by
  intro hclaim
  have hreturned : (Run.run UartReceiver.step UartReceiver.start overwrittenInCopy).map returned
      = some [[1, 2]] := by
    decide +kernel
  obtain ⟨s, hrun, hpackets⟩ := Option.map_eq_some_iff.mp hreturned
  have hmem : [1, 2] ∈ s.returned := by
    rw [hpackets]
    exact List.mem_singleton_self _
  obtain ⟨⟨f, -, hf⟩, -⟩ := hclaim _ s hrun [1, 2] hmem
  have hlast : ([1, 2] : List UInt8).getLast? = some 0 := by
    rw [hf]
    simp
  exact absurd hlast (by decide)

end UartReceiver

end Samwise
