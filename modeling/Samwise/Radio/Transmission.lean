import Samwise.Radio.RadioTask

/-!
# Samwise — packets on the air

What `tx_done` takes from the queue against what the chip transmits. A `Ledger` says that the
packets taken are those transmitted completely, in order, and the one in hand; a run keeps it
exactly as long as nothing comes between a packet and its transmission, and `radio_task_dispatch`
and the interrupt handler both can.
-/

namespace Samwise

open Run

/-! ## Reading the log -/

/-- The packets `tx_done` took and encoded. -/
def takenOf (log : List AirEvent) : List (List UInt8) :=
  log.filterMap fun e => match e with
    | .taken bytes => some bytes
    | _ => none

/-- The packets written to the FIFO. -/
def loadedOf (log : List AirEvent) : List (List UInt8) :=
  log.filterMap fun e => match e with
    | .loaded bytes => some bytes
    | _ => none

/-- The packets whose first transmission began. -/
def begunOf (log : List AirEvent) : List (List UInt8) :=
  log.filterMap fun e => match e with
    | .began ⟨content, true⟩ => content
    | _ => none

/-- The packets transmitted completely, for the first time or again. -/
def completedOf (log : List AirEvent) : List (List UInt8) :=
  log.filterMap fun e => match e with
    | .completed t => t.content
    | _ => none

/-- The mode was changed or the FIFO rewritten during the first transmission of a packet. -/
def AirEvent.Disturbs : AirEvent → Prop
  | .aborted t => t.first = true
  | .overwritten t => t.first = true
  | _ => False

/-- What the log owes the queue: the packets taken are the ones transmitted and then `hand`, the
packets written to the FIFO are the ones begun and then `unsent`, and none was disturbed. -/
structure Ledger (log : List AirEvent) (hand unsent : List (List UInt8)) : Prop where
  taken : takenOf log = completedOf log ++ hand
  loaded : loadedOf log = begunOf log ++ unsent
  undisturbed : ∀ e ∈ log, ¬ e.Disturbs

theorem takenOf_append (log log' : List AirEvent) :
    takenOf (log ++ log') = takenOf log ++ takenOf log' := List.filterMap_append

theorem loadedOf_append (log log' : List AirEvent) :
    loadedOf (log ++ log') = loadedOf log ++ loadedOf log' := List.filterMap_append

theorem begunOf_append (log log' : List AirEvent) :
    begunOf (log ++ log') = begunOf log ++ begunOf log' := List.filterMap_append

theorem completedOf_append (log log' : List AirEvent) :
    completedOf (log ++ log') = completedOf log ++ completedOf log' := List.filterMap_append

/-- One more event: what it takes and loads goes in hand, what it begins and completes leaves. -/
theorem Ledger.snoc {log : List AirEvent} {hand hand' unsent unsent' : List (List UInt8)}
    {e : AirEvent} (h : Ledger log hand unsent)
    (htaken : hand ++ takenOf [e] = completedOf [e] ++ hand')
    (hloaded : unsent ++ loadedOf [e] = begunOf [e] ++ unsent') (hdisturbs : ¬ e.Disturbs) :
    Ledger (log ++ [e]) hand' unsent' where
  taken := by
    rw [takenOf_append, completedOf_append, h.taken, List.append_assoc, htaken, List.append_assoc]
  loaded := by
    rw [loadedOf_append, begunOf_append, h.loaded, List.append_assoc, hloaded, List.append_assoc]
  undisturbed := by
    intro e' he'
    cases List.mem_append.mp he' with
    | inl hold => exact h.undisturbed e' hold
    | inr hnew => rwa [List.mem_singleton.mp hnew]

/-! ## Where the bad orders lie -/

/-- A packet is on the air for the first time. -/
def Radio.Transmitting (s : Radio) : Prop := ∃ t, s.chip.state = .sending t ∧ t.first = true

/-- The main thread is between its look at the queue and the end of `rfm9x_packet_to_fifo`. -/
def MainPc.Loading : MainPc → Prop
  | .transmitMode | .transmitDio | .take | .saveMode _ | .standby _ _ | .load _ _ | .restore _ =>
      True
  | _ => False

/-- There is a next packet, and it encodes. -/
def Radio.HasPacket (s : Radio) : Prop :=
  ∃ p rest, s.txQueue.elems = p :: rest ∧ (encodeForTx p).isSome

/-- Nothing comes between a packet and its transmission: a dispatch is called while no packet is
on the air and, where there is one to send, it encodes and no TxDone waits; the old content of the FIFO,
which a dispatch restarts, does not finish before the new one is there; and the interrupt
handler, called for TxDone, finds no packet to send. -/
def undisturbedStep (s : Radio) : RadioEvent → Prop
  | .dispatch =>
      ¬ s.Transmitting ∧ (s.txQueue.elems ≠ [] → s.HasPacket ∧ s.chip.txDone = false)
  | .txDone => ¬ s.main.Loading
  | .interrupt => s.chip.txDone = true → ¬ s.HasPacket
  | _ => True

/-! ## The invariant -/

/-- No packet is in hand, except for one on the air. -/
def AtRest (s : Radio) : Prop :=
  s.chip.unsent = false ∧ match s.chip.state with
    | .sending ⟨some bytes, true⟩ => s.chip.txDone = false ∧ Ledger s.log [bytes] []
    | .sending ⟨none, false⟩ => s.chip.txDone = false ∧ Ledger s.log [] []
    | .sending _ => False
    | _ => Ledger s.log [] []

/-- The chip sends what was in the FIFO before. -/
def Restarted (s : Radio) : Prop :=
  s.chip.unsent = false ∧ s.chip.txDone = false ∧ ∃ content, s.chip.state = .sending ⟨content, false⟩

/-- The invariant, by the place of the main thread. -/
def Orderly (s : Radio) : Prop :=
  match s.main with
  | .idle | .clear | .listenDio => AtRest s
  -- a dispatch that was called for a packet finds it
  | .listenClear => False
  | .listenMode => AtRest s ∧ ¬ s.Transmitting
  | .transmitMode =>
      s.chip.unsent = false ∧ s.chip.txDone = false ∧ ¬ s.Transmitting ∧ s.HasPacket
        ∧ Ledger s.log [] []
  | .transmitDio | .take => Restarted s ∧ s.HasPacket ∧ Ledger s.log [] []
  | .saveMode bytes => Restarted s ∧ Ledger s.log [bytes] []
  | .standby bytes old => old = .tx ∧ Restarted s ∧ Ledger s.log [bytes] []
  | .load bytes old =>
      old = .tx ∧ s.chip.txDone = false ∧ s.chip.state = .standby ∧ Ledger s.log [bytes] []
  | .restore old =>
      old = .tx ∧ s.chip.txDone = false ∧ s.chip.state = .standby ∧ s.chip.unsent = true
        ∧ ∃ bytes, s.chip.fifo = some bytes ∧ Ledger s.log [bytes] [bytes]

/-! ## Steps of a chip at rest -/

section AtRest

variable {s : Radio}

theorem AtRest.clearInterrupts (h : AtRest s) : AtRest (s.access Chip.clearInterrupts) := by
  obtain ⟨txQueue, ⟨state, fifo, unsent, flag, dioTx⟩, pending, main, log⟩ := s
  unfold AtRest Radio.access Chip.clearInterrupts at *
  simp only [List.append_nil] at *
  refine ⟨h.1, ?_⟩
  have hstate := h.2
  split at hstate
  · exact ⟨trivial, hstate.2⟩
  · exact ⟨trivial, hstate.2⟩
  · exact hstate
  · exact hstate

theorem AtRest.mapDio (h : AtRest s) (dioTx : Bool) : AtRest (s.access (Chip.mapDio dioTx)) := by
  unfold AtRest Radio.access Chip.mapDio at *
  simp only [List.append_nil] at *
  exact h

/-- Listening takes nothing off the air but what the FIFO held at the start. -/
theorem AtRest.setMode_rx (h : AtRest s) (hnot : ¬ s.Transmitting) :
    AtRest (s.access (Chip.setMode .rx)) ∧ (s.access (Chip.setMode .rx)).chip.state = .rx := by
  obtain ⟨txQueue, ⟨state, fifo, unsent, flag, dioTx⟩, pending, main, log⟩ := s
  unfold AtRest Radio.access at *
  cases state with
  | standby =>
      simp only [Chip.setMode, List.append_nil] at *
      exact ⟨h, trivial⟩
  | rx =>
      simp only [Chip.setMode, List.append_nil] at *
      exact ⟨h, trivial⟩
  | sending t =>
      obtain ⟨content, first⟩ := t
      cases first with
      | true => exact absurd ⟨_, rfl, rfl⟩ hnot
      | false =>
          cases content with
          | none =>
              simp only [Chip.setMode] at *
              exact ⟨⟨h.1, h.2.2.snoc rfl rfl Bool.false_ne_true⟩, trivial⟩
          | some bytes => exact absurd h.2 not_false

theorem AtRest.finish (h : AtRest s) {t : Transmission} (ht : s.chip.state = .sending t) :
    AtRest (s.access (Chip.finish t)) := by
  obtain ⟨txQueue, ⟨state, fifo, unsent, flag, dioTx⟩, pending, main, log⟩ := s
  obtain rfl : state = .sending t := ht
  obtain ⟨content, first⟩ := t
  unfold AtRest Radio.access Chip.finish at *
  simp only at *
  refine ⟨h.1, ?_⟩
  cases first with
  | true =>
      cases content with
      | none => exact absurd h.2 not_false
      | some bytes => exact h.2.2.snoc rfl rfl not_false
  | false =>
      cases content with
      | none => exact h.2.2.snoc rfl rfl not_false
      | some bytes => exact absurd h.2 not_false

/-- With TxDone raised and not cleared, nothing is on the air. -/
theorem AtRest.not_transmitting (h : AtRest s) (hflag : s.chip.txDone = true) :
    ¬ s.Transmitting := by
  rintro ⟨⟨content, first⟩, hstate, hfirst⟩
  have hrest := h.2
  rw [hstate] at hrest
  obtain rfl : first = true := hfirst
  cases content with
  | none => exact hrest
  | some bytes => exact absurd (hflag.symm.trans hrest.1) Bool.false_ne_true.symm

end AtRest

/-! ## Steps of a dispatch -/

section Dispatch

variable {s s' : Radio}

/-- Entering TX mode with nothing new in the FIFO restarts what is there. -/
theorem setMode_tx_restarts (hunsent : s.chip.unsent = false) (hflag : s.chip.txDone = false)
    (hnot : ¬ s.Transmitting) (hledger : Ledger s.log [] []) :
    Restarted (s.access (Chip.setMode .tx)) ∧ Ledger (s.access (Chip.setMode .tx)).log [] [] := by
  obtain ⟨txQueue, ⟨state, fifo, unsent, flag, dioTx⟩, pending, main, log⟩ := s
  obtain rfl : unsent = false := hunsent
  unfold Restarted Radio.access
  cases state with
  | standby =>
      exact ⟨⟨rfl, hflag, fifo, rfl⟩, hledger.snoc rfl rfl not_false⟩
  | rx =>
      exact ⟨⟨rfl, hflag, fifo, rfl⟩, hledger.snoc rfl rfl not_false⟩
  | sending t =>
      obtain ⟨content, first⟩ := t
      cases first with
      | true => exact absurd ⟨_, rfl, rfl⟩ hnot
      | false =>
          refine ⟨⟨rfl, hflag, content, rfl⟩, ?_⟩
          show Ledger (log ++ []) [] []
          rwa [List.append_nil]

/-- `tx_done` of a dispatch takes the packet that the dispatch was called for. -/
theorem mainStep_take (h : s.HasPacket) (hmain : s.main = .take) :
    ∃ bytes txQueue, mainStep s
      = some { s with txQueue, main := .saveMode bytes, log := s.log ++ [.taken bytes] } := by
  obtain ⟨p, rest, helems, hencodes⟩ := h
  obtain ⟨bytes, hbytes⟩ := Option.isSome_iff_exists.mp hencodes
  obtain ⟨⟨elems, bounded⟩, chip, pending, main, log⟩ := s
  obtain rfl : elems = p :: rest := helems
  obtain rfl : main = .take := hmain
  refine ⟨bytes, ⟨rest, by simp only [List.length_cons] at bounded; omega⟩, ?_⟩
  unfold mainStep
  simp only [BoundedQueue.tryRemove, hbytes]

theorem mainStep_orderly (h : Orderly s) (hstep : mainStep s = some s') : Orderly s' := by
  have hmoved := hstep
  unfold mainStep at hstep
  unfold Orderly at h
  cases hmain : s.main with
  | idle =>
      rw [hmain] at hstep
      cases hstep
  | transmitMode =>
      rw [hmain] at h hstep
      obtain rfl := Option.some.inj hstep
      obtain ⟨hunsent, hflag, hnot, hpacket, hledger⟩ := h
      have hrestarted := setMode_tx_restarts hunsent hflag hnot hledger
      exact ⟨hrestarted.1, hpacket, hrestarted.2⟩
  | transmitDio =>
      rw [hmain] at h hstep
      obtain rfl := Option.some.inj hstep
      obtain ⟨hrestarted, hpacket, hledger⟩ := h
      refine ⟨hrestarted, hpacket, ?_⟩
      show Ledger (s.log ++ []) [] []
      rwa [List.append_nil]
  | take =>
      rw [hmain] at h
      obtain ⟨hrestarted, hpacket, hledger⟩ := h
      obtain ⟨bytes, txQueue, htake⟩ := mainStep_take hpacket hmain
      obtain rfl := Option.some.inj (htake.symm.trans hmoved)
      exact ⟨hrestarted, hledger.snoc rfl rfl not_false⟩
  | saveMode bytes =>
      rw [hmain] at h hstep
      obtain rfl := Option.some.inj hstep
      obtain ⟨content, hstate⟩ := h.1.2.2
      refine ⟨?_, h⟩
      unfold Chip.getMode
      rw [hstate]
  | standby bytes old =>
      rw [hmain] at h hstep
      obtain rfl := Option.some.inj hstep
      obtain ⟨hold, ⟨hunsent, hflag, content, hstate⟩, hledger⟩ := h
      -- what is aborted here is the old content
      have hset : Chip.setMode .standby s.chip
          = ({ s.chip with state := .standby }, [.aborted ⟨content, false⟩]) := by
        unfold Chip.setMode
        rw [hstate]
      unfold Orderly Radio.access
      rw [hset]
      exact ⟨hold, hflag, rfl, hledger.snoc rfl rfl Bool.false_ne_true⟩
  | load bytes old =>
      rw [hmain] at h hstep
      obtain rfl := Option.some.inj hstep
      obtain ⟨hold, hflag, hstate, hledger⟩ := h
      have hload : Chip.loadFifo bytes s.chip
          = ({ s.chip with fifo := some bytes, unsent := true }, [.loaded bytes]) := by
        simp only [Chip.loadFifo, hstate, List.nil_append]
      unfold Orderly Radio.access
      rw [hload]
      exact ⟨hold, hflag, hstate, rfl, bytes, rfl, hledger.snoc rfl rfl not_false⟩
  | restore old =>
      rw [hmain] at h hstep
      obtain rfl := Option.some.inj hstep
      obtain ⟨rfl, hflag, hstate, hunsent, bytes, hfifo, hledger⟩ := h
      have hset : Chip.setMode .tx s.chip
          = ({ s.chip with state := .sending ⟨some bytes, true⟩, unsent := false },
            [.began ⟨some bytes, true⟩]) := by
        simp only [Chip.setMode, hstate, hfifo, hunsent]
      unfold Orderly AtRest Radio.access
      rw [hset]
      exact ⟨rfl, hflag, hledger.snoc rfl rfl not_false⟩
  | clear =>
      rw [hmain] at h hstep
      obtain rfl := Option.some.inj hstep
      exact AtRest.clearInterrupts h
  | listenClear =>
      rw [hmain] at h
      exact absurd h not_false
  | listenMode =>
      rw [hmain] at h hstep
      obtain rfl := Option.some.inj hstep
      exact (h.1.setMode_rx h.2).1
  | listenDio =>
      rw [hmain] at h hstep
      obtain rfl := Option.some.inj hstep
      exact AtRest.mapDio h false

theorem dispatch_orderly (h : Orderly s) (hok : undisturbedStep s .dispatch)
    (hstep : radioStep s .dispatch = some s') : Orderly s' := by
  unfold radioStep at hstep
  cases hmain : s.main with
  | idle =>
      unfold Orderly at h
      simp only [hmain] at h hstep
      obtain rfl := Option.some.inj hstep
      by_cases hempty : s.txQueue.elems = []
      · rw [if_pos hempty]
        exact ⟨h, hok.1⟩
      · rw [if_neg hempty]
        obtain ⟨hpacket, hflag⟩ := hok.2 hempty
        refine ⟨h.1, hflag, hok.1, hpacket, ?_⟩
        -- nothing is on the air, or only what the FIFO held at the start
        have hledger := h.2
        split at hledger
        · next bytes hstate => exact absurd ⟨_, hstate, rfl⟩ hok.1
        · exact hledger.2
        · exact absurd hledger not_false
        · exact hledger
  | _ =>
      simp only [hmain] at hstep
      cases hstep

/-- Outside the loading part of a dispatch the chip is at rest. -/
theorem Orderly.atRest (h : Orderly s) (hload : ¬ s.main.Loading) :
    AtRest s ∧ s.main ≠ .listenClear := by
  unfold Orderly at h
  split at h
  · next hmain => exact ⟨h, by rw [hmain]; intro heq; cases heq⟩
  · next hmain => exact ⟨h, by rw [hmain]; intro heq; cases heq⟩
  · next hmain => exact ⟨h, by rw [hmain]; intro heq; cases heq⟩
  · exact absurd h not_false
  · next hmain => exact ⟨h.1, by rw [hmain]; intro heq; cases heq⟩
  all_goals
    next hmain =>
      rw [hmain] at hload
      exact absurd trivial hload

theorem AtRest.orderly (h : AtRest s) (hload : ¬ s.main.Loading) (hclear : s.main ≠ .listenClear)
    (hnot : ¬ s.Transmitting) : Orderly s := by
  unfold Orderly
  split
  · exact h
  · exact h
  · exact h
  · next hmain => exact absurd hmain hclear
  · exact ⟨h, hnot⟩
  all_goals
    next hmain =>
      rw [hmain] at hload
      exact absurd trivial hload

/-- While a dispatch loads the chip, no TxDone waits. -/
theorem Orderly.txDone_eq_false (h : Orderly s) (hload : s.main.Loading) :
    s.chip.txDone = false := by
  unfold Orderly at h
  split at h
  · next hmain => rw [hmain] at hload; exact absurd hload not_false
  · next hmain => rw [hmain] at hload; exact absurd hload not_false
  · next hmain => rw [hmain] at hload; exact absurd hload not_false
  · exact absurd h not_false
  · next hmain => rw [hmain] at hload; exact absurd hload not_false
  · exact h.2.1
  · exact h.1.2.1
  · exact h.1.2.1
  · exact h.1.2.1
  · exact h.2.1.2.1
  · exact h.2.1
  · exact h.2.1

theorem txDone_orderly (h : Orderly s) (hok : undisturbedStep s .txDone)
    (hstep : radioStep s .txDone = some s') : Orderly s' := by
  unfold radioStep at hstep
  simp only at hstep
  split at hstep
  · next t ht =>
      obtain rfl := Option.some.inj hstep
      obtain ⟨hrest, hclear⟩ := h.atRest hok
      apply (hrest.finish ht).orderly hok hclear
      rintro ⟨t', hstate, -⟩
      cases hstate
  · cases hstep

/-- `tx_done` without a packet to send: it listens, or drops what does not encode. -/
theorem txDone_atRest (h : AtRest s) (hnot : ¬ s.Transmitting) (hnopacket : ¬ s.HasPacket) :
    AtRest (txDone s) ∧ ¬ (txDone s).Transmitting ∧ (txDone s).main = s.main := by
  obtain ⟨⟨elems, bounded⟩, chip, pending, main, log⟩ := s
  cases elems with
  | nil =>
      -- the queue is empty: the chip goes to listening
      have hdone : txDone ⟨⟨[], bounded⟩, chip, pending, main, log⟩
          = rfm9xListen (Radio.access Chip.clearInterrupts ⟨⟨[], bounded⟩, chip, pending, main, log⟩) :=
        rfl
      have hlisten := (AtRest.clearInterrupts h).setMode_rx hnot
      rw [hdone]
      refine ⟨hlisten.1.mapDio false, ?_, rfl⟩
      rintro ⟨t, hstate, -⟩
      have hrx : (rfm9xListen (Radio.access Chip.clearInterrupts
          ⟨⟨[], bounded⟩, chip, pending, main, log⟩)).chip.state = .rx := hlisten.2
      rw [hrx] at hstate
      cases hstate
  | cons p rest =>
      -- a packet that does not encode is dropped
      have hencode : encodeForTx p = none := by
        cases hp : encodeForTx p with
        | none => rfl
        | some bytes =>
            exact absurd ⟨p, rest, rfl, by rw [hp]; rfl⟩ hnopacket
      have hdone : ∃ txQueue, txDone ⟨⟨p :: rest, bounded⟩, chip, pending, main, log⟩
          = Radio.access Chip.clearInterrupts ⟨txQueue, chip, pending, main, log⟩ := by
        unfold txDone
        simp only [BoundedQueue.tryRemove, hencode]
        exact ⟨_, rfl⟩
      obtain ⟨txQueue, hdone⟩ := hdone
      rw [hdone]
      exact ⟨AtRest.clearInterrupts h, hnot, rfl⟩

theorem Radio.HasPacket.add (h : s.HasPacket) (p : Packet) :
    Radio.HasPacket { s with txQueue := (s.txQueue.tryAdd p).2 } := by
  obtain ⟨q, rest, helems, hencodes⟩ := h
  by_cases hroom : s.txQueue.elems.length < txQueueSize
  · have hadd := (BoundedQueue.tryAdd_of_lt p hroom).2
    refine ⟨q, rest ++ [p], ?_, hencodes⟩
    show (s.txQueue.tryAdd p).2.elems = _
    rw [hadd, helems, List.cons_append]
  · rw [BoundedQueue.tryAdd_of_full p hroom]
    exact ⟨q, rest, helems, hencodes⟩

theorem add_orderly (h : Orderly s) (p : Packet) :
    Orderly { s with txQueue := (s.txQueue.tryAdd p).2 } := by
  obtain ⟨txQueue, chip, pending, main, log⟩ := s
  cases main with
  | transmitMode => exact ⟨h.1, h.2.1, h.2.2.1, h.2.2.2.1.add p, h.2.2.2.2⟩
  | transmitDio => exact ⟨h.1, h.2.1.add p, h.2.2⟩
  | take => exact ⟨h.1, h.2.1.add p, h.2.2⟩
  | _ => exact h

/-- Serving the interrupt finds nothing to send, and listens. -/
theorem interrupt_orderly (h : Orderly s) (hok : undisturbedStep s .interrupt)
    (hstep : radioStep s .interrupt = some s') : Orderly s' := by
  unfold radioStep at hstep
  simp only at hstep
  split at hstep
  case isFalse => cases hstep
  case isTrue =>
  obtain rfl := Option.some.inj hstep
  unfold interruptReceived
  by_cases hflag : s.chip.txDone = true
  · rw [if_pos (show ({ s with pending := false } : Radio).chip.txDone = true from hflag)]
    have hload : ¬ s.main.Loading := by
      intro hload
      exact absurd (hflag.symm.trans (h.txDone_eq_false hload)) Bool.false_ne_true.symm
    obtain ⟨hrest, hclear⟩ := h.atRest hload
    have hnot := hrest.not_transmitting hflag
    obtain ⟨hrest', hnot', hmain⟩ :=
      txDone_atRest (s := { s with pending := false }) hrest hnot (hok hflag)
    exact hrest'.orderly (by rw [hmain]; exact hload) (by rw [hmain]; exact hclear) hnot'
  · rw [if_neg (show ¬ ({ s with pending := false } : Radio).chip.txDone = true from hflag)]
    exact h

end Dispatch

/-! ## Runs -/

/-- One step keeps the invariant, if nothing comes between a packet and its transmission. -/
theorem radioStep_orderly (s : Radio) (e : RadioEvent) (s' : Radio) (hok : undisturbedStep s e)
    (h : Orderly s) (hstep : radioStep s e = some s') : Orderly s' := by
  cases e with
  | add p =>
      obtain rfl := Option.some.inj hstep
      exact add_orderly h p
  | dispatch => exact dispatch_orderly h hok hstep
  | main => exact mainStep_orderly h hstep
  | txDone => exact txDone_orderly h hok hstep
  | interrupt => exact interrupt_orderly h hok hstep

theorem radioTaskInit_orderly : Orderly radioTaskInit := by
  refine ⟨rfl, rfl, ?_⟩
  have hnil : Ledger [] [] [] :=
    ⟨rfl, rfl, fun e he => absurd he List.not_mem_nil⟩
  exact hnil.snoc rfl rfl not_false

/-- The packet that was taken and is not transmitted yet. -/
def Radio.inHand (s : Radio) : List (List UInt8) :=
  match s.main with
  | .saveMode bytes | .standby bytes _ | .load bytes _ => [bytes]
  | .restore _ => s.chip.fifo.toList
  | _ => match s.chip.state with
    | .sending ⟨some bytes, true⟩ => [bytes]
    | _ => []

/-- The packet that is in the FIFO, about to be transmitted. -/
def Radio.inFifo (s : Radio) : List (List UInt8) :=
  match s.main with
  | .restore _ => s.chip.fifo.toList
  | _ => []

theorem inHand_of_not_transmitting {s : Radio} (hnot : ¬ s.Transmitting) :
    (match s.chip.state with
      | .sending ⟨some bytes, true⟩ => [bytes]
      | _ => []) = [] := by
  split
  · next bytes hstate => exact absurd ⟨_, hstate, rfl⟩ hnot
  · rfl

theorem Restarted.not_transmitting {s : Radio} (h : Restarted s) : ¬ s.Transmitting := by
  obtain ⟨-, -, content, hstate⟩ := h
  rintro ⟨t, ht, hfirst⟩
  obtain rfl := ChipState.sending.inj (ht.symm.trans hstate)
  exact Bool.false_ne_true hfirst

theorem AtRest.ledger {s : Radio} (h : AtRest s) :
    Ledger s.log (match s.chip.state with
      | .sending ⟨some bytes, true⟩ => [bytes]
      | _ => []) [] := by
  have hrest := h.2
  split at hrest
  · next hstate => rw [hstate]; exact hrest.2
  · next hstate => rw [hstate]; exact hrest.2
  · exact absurd hrest not_false
  · next hsome _ _ =>
      split
      · next hstate => exact absurd hstate (hsome _)
      · exact hrest

theorem Orderly.ledger {s : Radio} (h : Orderly s) : Ledger s.log s.inHand s.inFifo := by
  obtain ⟨txQueue, chip, pending, main, log⟩ := s
  cases main with
  | idle => exact AtRest.ledger h
  | clear => exact AtRest.ledger h
  | listenDio => exact AtRest.ledger h
  | listenClear => exact absurd h not_false
  | listenMode => exact AtRest.ledger h.1
  -- before the load nothing is in hand, and what was on the air is over
  | transmitMode =>
      obtain ⟨-, -, hnot, -, hledger⟩ := h
      show Ledger log (match chip.state with | .sending ⟨some bytes, true⟩ => [bytes] | _ => []) []
      rw [inHand_of_not_transmitting hnot]
      exact hledger
  | transmitDio =>
      show Ledger log (match chip.state with | .sending ⟨some bytes, true⟩ => [bytes] | _ => []) []
      rw [inHand_of_not_transmitting h.1.not_transmitting]
      exact h.2.2
  | take =>
      show Ledger log (match chip.state with | .sending ⟨some bytes, true⟩ => [bytes] | _ => []) []
      rw [inHand_of_not_transmitting h.1.not_transmitting]
      exact h.2.2
  | saveMode bytes => exact h.2
  | standby bytes old => exact h.2.2
  | load bytes old => exact h.2.2.2
  | restore old =>
      obtain ⟨-, -, -, -, bytes, hfifo, hledger⟩ := h
      show Ledger log chip.fifo.toList chip.fifo.toList
      rw [show chip.fifo = some bytes from hfifo]
      exact hledger

/-- A dispatch that finds a packet first restarts what is in the FIFO, and cuts it off. -/
theorem dispatch_cuts_restart {s : Radio} (hmain : s.main = .idle)
    (hidle : s.chip.state = .standby ∨ s.chip.state = .rx) (hpacket : s.HasPacket) :
    ∃ t, run radioStep s (.dispatch :: List.replicate 5 .main) = some t
      ∧ .aborted ⟨s.chip.fifo, s.chip.unsent⟩ ∈ t.log := by
  obtain ⟨p, rest, helems, hencodes⟩ := hpacket
  obtain ⟨bytes, hbytes⟩ := Option.isSome_iff_exists.mp hencodes
  obtain ⟨⟨elems, bounded⟩, ⟨state, fifo, unsent, flag, dioTx⟩, pending, main, log⟩ := s
  obtain rfl : elems = p :: rest := helems
  obtain rfl : main = .idle := hmain
  simp only at hidle
  rcases hidle with rfl | rfl
  all_goals
    simp [run, radioStep, mainStep, Radio.access, Chip.setMode, Chip.mapDio, Chip.getMode,
      BoundedQueue.tryRemove, hbytes]

/-- **Packets on the air.** In every run in which nothing comes between a packet and its
transmission: the packets taken from the queue are the ones transmitted completely, once and in
order, and the one in hand; what is written to the FIFO is transmitted next; and no transmission
of a packet is cut off or its FIFO rewritten. What is cut off, whenever a dispatch finds a
packet, is the restart of the old content. -/
theorem radio_lossless {es : List RadioEvent} {t : Radio}
    (hok : AllSteps radioStep undisturbedStep radioTaskInit es)
    (hrun : run radioStep radioTaskInit es = some t) :
    takenOf t.log = completedOf t.log ++ t.inHand
      ∧ loadedOf t.log = begunOf t.log ++ t.inFifo
      ∧ (∀ e ∈ t.log, ¬ e.Disturbs)
      ∧ (t.main = .idle → ¬ t.Transmitting →
          takenOf t.log = completedOf t.log ∧ loadedOf t.log = begunOf t.log)
      ∧ (t.main = .idle → (t.chip.state = .standby ∨ t.chip.state = .rx) → t.HasPacket →
          ∃ u, run radioStep t (.dispatch :: List.replicate 5 .main) = some u
            ∧ .aborted ⟨t.chip.fifo, t.chip.unsent⟩ ∈ u.log) := by
  have horderly : Orderly t :=
    invariant radioStep (I := Orderly) radioStep_orderly hok hrun radioTaskInit_orderly
  have hledger := horderly.ledger
  refine ⟨hledger.taken, hledger.loaded, hledger.undisturbed, fun hmain hnot => ?_,
    dispatch_cuts_restart⟩
  -- at rest and off the air, nothing is in hand
  have hhand : t.inHand = [] := by
    unfold Radio.inHand
    rw [hmain]
    exact inHand_of_not_transmitting hnot
  have hfifo : t.inFifo = [] := by
    unfold Radio.inFifo
    rw [hmain]
  have htaken := hledger.taken
  have hloaded := hledger.loaded
  rw [hhand, List.append_nil] at htaken
  rw [hfifo, List.append_nil] at hloaded
  exact ⟨htaken, hloaded⟩

instance (s : Radio) : Decidable s.Transmitting :=
  match h : s.chip.state with
  | .sending t => decidable_of_iff (t.first = true)
      ⟨fun ht => ⟨t, h, ht⟩, fun ⟨_, ht, hfirst⟩ => ChipState.sending.inj (h.symm.trans ht) ▸ hfirst⟩
  | .standby => isFalse fun ⟨_, ht, _⟩ => by rw [h] at ht; cases ht
  | .rx => isFalse fun ⟨_, ht, _⟩ => by rw [h] at ht; cases ht

instance (s : Radio) : Decidable s.HasPacket :=
  match h : s.txQueue.elems with
  | [] => isFalse fun ⟨_, _, hcons, _⟩ => by rw [h] at hcons; cases hcons
  | p :: rest => decidable_of_iff ((encodeForTx p).isSome = true)
      ⟨fun hp => ⟨p, rest, h, hp⟩,
        fun ⟨_, _, hcons, hp⟩ => (List.cons.inj (h.symm.trans hcons)).1 ▸ hp⟩

instance (main : MainPc) : Decidable main.Loading := by
  cases main <;> unfold MainPc.Loading <;> infer_instance

instance (s : Radio) (e : RadioEvent) : Decidable (undisturbedStep s e) := by
  cases e <;> unfold undisturbedStep <;> infer_instance

/-- A packet with one byte of payload. -/
def packetOf (payload : UInt8) : Packet :=
  { Packet.zero with len := 1, data := Memory.copyInto Packet.zero.data [payload] }

/-- One packet, sent before the next dispatch. -/
theorem radio_lossless_one_packet :
    ∃ t, run radioStep radioTaskInit
        ([.add (packetOf 7), .dispatch] ++ List.replicate 8 .main ++ [.txDone, .interrupt]) = some t
      ∧ completedOf t.log = [[0, 0, 0, 0, 1, 7]] ∧ takenOf t.log = completedOf t.log := by
  have hok : AllSteps radioStep undisturbedStep radioTaskInit
      ([.add (packetOf 7), .dispatch] ++ List.replicate 8 .main ++ [.txDone, .interrupt]) := by
    decide +kernel
  have hany : (run radioStep radioTaskInit
      ([.add (packetOf 7), .dispatch] ++ List.replicate 8 .main ++ [.txDone, .interrupt])).any
      (fun t => t.main = .idle ∧ ¬ t.Transmitting ∧ completedOf t.log = [[0, 0, 0, 0, 1, 7]])
      = true := by
    decide +kernel
  obtain ⟨t, hrun, ht⟩ := (Option.any_eq_true _ _).mp hany
  obtain ⟨hmain, hnot, hcompleted⟩ := of_decide_eq_true ht
  exact ⟨t, hrun, hcompleted, ((radio_lossless hok hrun).2.2.2.1 hmain hnot).1⟩

/-- Two packets before a dispatch: the interrupt handler takes the second one and leaves it in
the FIFO of a chip in STANDBY, and the next dispatch listens. -/
theorem chained_packet_lost :
    ∃ t, run radioStep radioTaskInit
        ([.add (packetOf 7), .add (packetOf 8), .dispatch] ++ List.replicate 8 .main
          ++ [.txDone, .interrupt, .dispatch, .main, .main]) = some t
      ∧ t.main = .idle ∧ t.chip.state = .rx ∧ t.txQueue.elems = []
      ∧ takenOf t.log = [[0, 0, 0, 0, 1, 7], [0, 0, 0, 0, 1, 8]]
      ∧ completedOf t.log = [[0, 0, 0, 0, 1, 7]] ∧ loadedOf t.log ≠ begunOf t.log := by
  have hany : (run radioStep radioTaskInit
      ([.add (packetOf 7), .add (packetOf 8), .dispatch] ++ List.replicate 8 .main
        ++ [.txDone, .interrupt, .dispatch, .main, .main])).any
      (fun t => t.main = .idle ∧ t.chip.state = .rx ∧ t.txQueue.elems = []
        ∧ takenOf t.log = [[0, 0, 0, 0, 1, 7], [0, 0, 0, 0, 1, 8]]
        ∧ completedOf t.log = [[0, 0, 0, 0, 1, 7]] ∧ loadedOf t.log ≠ begunOf t.log) = true := by
    decide +kernel
  obtain ⟨t, hrun, ht⟩ := (Option.any_eq_true _ _).mp hany
  exact ⟨t, hrun, of_decide_eq_true ht⟩

end Samwise
