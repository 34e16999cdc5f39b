import Samwise.Drivers.Rfm9xReception
import Samwise.Radio.RadioTask

/-!
# Samwise — transmissions over the radio's bus

`Radio` has a chip that knows no registers, and takes one access to it for one step. Here a dispatch
of the radio task and its handler for TxDone are programs over the bus, and what they do there is a
run of `Radio`: its chip is seen in the registers (`Chip.TxView`), and what it began to transmit is
what the other one did. In a dispatch, the end of a transmission may come between any two
transactions. The handler runs through in `Radio`, so nothing may end while it does.
-/

namespace Samwise

open Interaction Prog Run

/-! ## What is seen in the registers -/

/-- The mode in `OP_MODE`. -/
def RadioMode.bits : RadioMode → UInt8
  | .standby => Rfm9x.standbyMode
  | .tx => Rfm9x.txMode
  | .rx => Rfm9x.rxMode

theorem RadioMode.bits_lt (m : RadioMode) : m.bits < 8 := by cases m <;> decide

theorem RadioMode.bits_tx {m : RadioMode} : m.bits = 3 ↔ m = .tx := by cases m <;> decide

/-- The contents that began to be transmitted, for the first time or again. -/
def transmittedOf (log : List AirEvent) : List (Option (List UInt8)) :=
  log.filterMap fun e => match e with
    | .began t => some t.content
    | _ => none

theorem transmittedOf_append (log log' : List AirEvent) :
    transmittedOf (log ++ log') = transmittedOf log ++ transmittedOf log' := List.filterMap_append

theorem Chip.getMode_setMode (c : Chip) (m : RadioMode) : (c.setMode m).1.getMode = m := by
  cases m <;> cases h : c.state <;> simp [Chip.setMode, Chip.getMode, h]

theorem Chip.state_standby (c : Chip) : (c.setMode .standby).1.state = .standby := by
  cases h : c.state <;> simp [Chip.setMode, h]

theorem Chip.setMode_kept (c : Chip) (m : RadioMode) : (c.setMode m).1.fifo = c.fifo ∧
    (c.setMode m).1.txDone = c.txDone ∧ (c.setMode m).1.dioTx = c.dioTx := by
  cases m <;> cases h : c.state <;> simp [Chip.setMode, h]

theorem Chip.transmittedOf_setMode (c : Chip) (m : RadioMode) : transmittedOf (c.setMode m).2 =
    if m = .tx ∧ c.getMode ≠ .tx then [c.fifo] else [] := by
  cases m <;> cases h : c.state <;> simp [Chip.setMode, Chip.getMode, transmittedOf, h]

namespace Rfm9x

/-- The bytes are the content, where it is known. -/
def IsContent (bytes : List UInt8) (content : Option (List UInt8)) : Prop :=
  ∀ known, content = some known → bytes = known

/-- The registers of `r` have what the chip `c` has, and what it began to transmit is in `log`. -/
structure Chip.TxView (r : Chip) (c : Samwise.Chip) (log : List AirEvent) : Prop where
  inLora : r.inLora = true
  base : r.lora 0x0E = 0
  mode : r.mode = c.getMode.bits
  fifo : IsContent r.toTransmit c.fifo
  txDone : r.lora 0x12 &&& 0x08 ≠ 0 ↔ c.txDone = true
  dioTx : r.shared 0x40 >>> 6 = 1 ↔ c.dioTx = true
  begun : List.Forall₂ IsContent r.begun (transmittedOf log)

namespace Chip.TxView

variable {r r' : Chip} {c : Samwise.Chip} {log : List AirEvent}

theorem same (h : r.TxView c log) (hr : r.Same r') : r'.TxView c log where
  inLora := hr.inLora.trans h.inLora
  base := (hr.lora 0x0E (by decide)).trans h.base
  mode := hr.mode.trans h.mode
  fifo := hr.toTransmit.symm ▸ h.fifo
  txDone := by
    rw [hr.lora 0x12 (by decide)]
    exact h.txDone
  dioTx := by
    rw [hr.shared]
    exact h.dioTx
  begun := hr.begun.symm ▸ h.begun

/-- Nothing begins. -/
theorem begun_append (h : r.TxView c log) {events : List AirEvent}
    (hnone : transmittedOf events = []) :
    List.Forall₂ IsContent r.begun (transmittedOf (log ++ events)) := by
  rw [transmittedOf_append, hnone, List.append_nil]
  exact h.begun

theorem still (h : r.TxView c log) (hstandby : c.state = .standby) : r.Still := by
  refine ⟨h.inLora, h.mode.trans ?_⟩
  rw [Samwise.Chip.getMode, hstandby]
  rfl

/-- The mode is another one. -/
theorem setMode (h : r.TxView c log) (m : RadioMode) :
    (r.inMode m.bits).TxView (c.setMode m).1 (log ++ (c.setMode m).2) := by
  obtain ⟨hfifo, htxDone, hdioTx⟩ := c.setMode_kept m
  have htransmit : (r.inMode m.bits).toTransmit = r.toTransmit := by
    rw [Chip.toTransmit, Chip.lora_inMode, Chip.memory_inMode, Chip.toTransmit]
  have hshared : (r.inMode m.bits).shared 0x40 = r.shared 0x40 := by
    have hne : (0x40 : UInt8) ≠ 0x01 := by decide
    unfold Chip.inMode
    dsimp only
    split
    · simp only [Function.update_of_ne hne]
    · simp only [Function.update_of_ne hne]
  refine ⟨(r.inLora_inMode m.bits_lt).trans h.inLora, ?_, ?_, ?_, ?_, ?_, ?_⟩
  · rw [Chip.lora_inMode]
    exact h.base
  · rw [r.mode_inMode m.bits_lt, c.getMode_setMode]
  · rw [htransmit, hfifo]
    exact h.fifo
  · rw [Chip.lora_inMode, htxDone]
    exact h.txDone
  · rw [hshared, hdioTx]
    exact h.dioTx
  · rw [Chip.begun_inMode, transmittedOf_append, c.transmittedOf_setMode]
    have hmode : r.mode = 3 ↔ c.getMode = .tx := by rw [h.mode, RadioMode.bits_tx]
    by_cases hbegins : m = .tx ∧ c.getMode ≠ .tx
    · have hbits : r.inLora = true ∧ m.bits = 3 ∧ r.mode ≠ 3 :=
        ⟨h.inLora, RadioMode.bits_tx.mpr hbegins.1, mt hmode.mp hbegins.2⟩
      rw [if_pos hbits, if_pos hbegins]
      exact List.rel_append h.begun (.cons h.fifo .nil)
    · have hbits : ¬(r.inLora = true ∧ m.bits = 3 ∧ r.mode ≠ 3) := fun hand =>
        hbegins ⟨RadioMode.bits_tx.mp hand.2.1, mt hmode.mpr hand.2.2⟩
      rw [if_neg hbits, if_neg hbegins, List.append_nil]
      exact h.begun

/-- The mapping of DIO0 is another one. -/
theorem mapDio (h : r.TxView c log) {x : UInt8} {on : Bool} (hx : x >>> 6 = 1 ↔ on = true) :
    (r.put 0x40 x).TxView (c.mapDio on).1 (log ++ (c.mapDio on).2) := by
  rw [put_of_ne h.inLora (by decide) (by decide), if_neg (by decide)]
  have hmode : Function.update r.shared 0x40 x 0x01 = r.shared 0x01 :=
    Function.update_of_ne (by decide) _ _
  refine ⟨?_, h.base, ?_, h.fifo, h.txDone, ?_, ?_⟩
  · simp only [Chip.inLora, hmode]
    exact h.inLora
  · simp only [Chip.mode, hmode]
    exact h.mode
  · simp only [Function.update_self]
    exact hx
  · exact h.begun_append rfl

theorem flags_cleared : ∀ x : UInt8, (x &&& ~~~0xFF) &&& 0x08 = 0 := by decide +kernel

/-- All flags are cleared. -/
theorem clearInterrupts (h : r.TxView c log) :
    (r.put 0x12 0xFF).TxView c.clearInterrupts.1 (log ++ c.clearInterrupts.2) := by
  rw [Chip.put, if_neg (by decide), if_pos (by decide), if_pos h.inLora, if_pos rfl]
  refine ⟨h.inLora, h.base, h.mode, h.fifo, ?_, h.dioTx, ?_⟩
  · simp only [Function.update_self, flags_cleared]
    exact iff_of_false (fun hne => hne rfl) Bool.false_ne_true
  · exact h.begun_append rfl

/-- A packet is loaded in standby mode. -/
theorem loadFifo (h : r.TxView c log) (hstandby : c.state = .standby) {bytes : List UInt8}
    (hlength : bytes.length < 256) :
    (r.loaded bytes).TxView (c.loadFifo bytes).1 (log ++ (c.loadFifo bytes).2) := by
  refine ⟨h.inLora, h.base, h.mode, ?_, h.txDone, h.dioTx, ?_⟩
  · intro known hknown
    obtain rfl := Option.some.inj hknown
    exact r.toTransmit_loaded hlength h.base
  · rw [Samwise.Chip.loadFifo, hstandby]
    exact h.begun_append rfl

/-- A packet was taken. -/
theorem taken (h : r.TxView c log) (bytes : List UInt8) : r.TxView c (log ++ [.taken bytes]) :=
  { h with begun := h.begun_append rfl }

theorem flags_txDone_set : ∀ x : UInt8, (x ||| 0x08) &&& 0x08 ≠ 0 := by decide +kernel

theorem mode_txDone : ∀ x : UInt8, (x &&& ~~~7 ||| 1) &&& 7 = 1 := by decide +kernel

/-- A transmission ends. -/
theorem finish (h : r.TxView c log) {t : Transmission} (ht : c.state = .sending t) :
    (r.event .txDone).TxView (c.finish t).1 (log ++ (c.finish t).2) := by
  have hsending : r.inLora = true ∧ r.mode = 3 := by
    refine ⟨h.inLora, h.mode.trans ?_⟩
    rw [Samwise.Chip.getMode, ht]
    rfl
  have hlora : (r.event .txDone).inLora = true := (r.inLora_event .txDone).trans h.inLora
  rw [Chip.event, if_pos hsending] at hlora ⊢
  refine ⟨hlora, h.base, ?_, h.fifo, ?_, ?_, ?_⟩
  · simp only [Chip.mode, Function.update_self, mode_txDone]
    rfl
  · simp only [Function.update_self]
    exact iff_of_true (flags_txDone_set _) rfl
  · have hne : (0x40 : UInt8) ≠ 0x01 := by decide
    simp only [Function.update_of_ne hne]
    exact h.dioTx
  · exact h.begun_append rfl

end Chip.TxView

end Rfm9x

/-! ## What happens between two accesses -/

/-- Nothing, or, where `ends`, the end of a transmission. -/
inductive Radio.Meanwhile (ends : Bool) (s : Radio) : Radio → Prop where
  | nothing : Meanwhile ends s s
  | finished {t : Transmission} (hends : ends = true) (ht : s.chip.state = .sending t) :
      Meanwhile ends s (s.access (Chip.finish t))

namespace Radio.Meanwhile

variable {ends : Bool} {s s' s'' : Radio}

theorem txQueue (h : s.Meanwhile ends s') : s'.txQueue = s.txQueue := by cases h <;> rfl

/-- Where no transmission ends. -/
theorem eq_of_false (h : s.Meanwhile false s') : s' = s := by
  cases h with
  | nothing => rfl
  | finished hends => cases hends

/-- A transmission ends once. -/
theorem trans (h : s.Meanwhile ends s') (h' : s'.Meanwhile ends s'') : s.Meanwhile ends s'' := by
  cases h with
  | nothing => exact h'
  | finished hends ht =>
    cases h' with
    | nothing => exact .finished hends ht
    | finished _ ht' => cases ht'

end Radio.Meanwhile

/-- Steps of the main thread, with transmissions that end on the way. -/
def Radio.Goes (s s' : Radio) : Prop :=
  ∃ es : List RadioEvent, (∀ e ∈ es, e = .main ∨ e = .txDone) ∧ run radioStep s es = some s'

namespace Radio.Goes

variable {s s' s'' : Radio} {ends : Bool}

theorem refl (s : Radio) : s.Goes s := ⟨[], by simp, rfl⟩

theorem trans (h : s.Goes s') (h' : s'.Goes s'') : s.Goes s'' := by
  obtain ⟨es, hes, hrun⟩ := h
  obtain ⟨es', hes', hrun'⟩ := h'
  refine ⟨es ++ es', List.forall_mem_append.mpr ⟨hes, hes'⟩, ?_⟩
  rw [run_append, hrun]
  exact hrun'

theorem main (h : mainStep s = some s') : s.Goes s' := by
  refine ⟨[.main], by simp, ?_⟩
  have hstep : radioStep s .main = some s' := h
  rw [run_cons, hstep]
  rfl

theorem meanwhile (h : s.Meanwhile ends s') (pc : MainPc) :
    Goes { s with main := pc } { s' with main := pc } := by
  cases h with
  | nothing => exact .refl _
  | @finished t _ ht =>
    have hstep : radioStep { s with main := pc } .txDone
        = some { s.access (Chip.finish t) with main := pc } := by
      simp only [radioStep, ht]
      rfl
    refine ⟨[.txDone], by simp, ?_⟩
    rw [run_cons, hstep]
    rfl

/-- The next access of a dispatch. -/
theorem access {f : Chip → Chip × List AirEvent} {pc pc' : MainPc} (h : s.Meanwhile ends s')
    (hstep : ∀ s : Radio, mainStep { s with main := pc } = some { s.access f with main := pc' }) :
    Goes { s with main := pc } { s'.access f with main := pc' } :=
  (meanwhile h pc).trans (main (hstep s'))

end Radio.Goes

namespace Rfm9x

/-! ## Accesses -/

/-- No frame comes in, and no transmission ends but where `ends`. -/
def Chip.Event.Quiet (ends : Bool) : Chip.Event → Prop
  | .txDone => ends = true
  | .rxDone _ _ => False
  | .status _ _ => True

/-- What is to come is quiet. -/
def Bus.Quiet (ends : Bool) (b : Bus) : Prop := ∀ events ∈ b.coming, ∀ e ∈ events, e.Quiet ends

/-- The bus is where the radio is. -/
def Bus.Follows (ends : Bool) (b : Bus) (s : Radio) : Prop :=
  b.Quiet ends ∧ b.chip.TxView s.chip s.log

section Follows

variable {ends : Bool} {b : Bus} {s : Radio} {r : Chip} {v : Vars}

theorem Bus.Quiet.settle (h : b.Quiet ends) : b.settle.Quiet ends :=
  fun events hevents => h events (List.mem_of_mem_tail hevents)

/-- A program leaves what is to come. Induction on it. -/
theorem Bus.Quiet.exec {α : Type} (x : Driver α) (h : b.Quiet ends) :
    Gives Bus.serve v b x fun _ _ b' => b'.Quiet ends := by
  unfold Gives
  induction x generalizing b v with
  | done a => exact h
  | get k ih => exact ih v h
  | set w k ih => exact ih h
  | call c k ih => exact ih _ h.settle

/-- The chip does something by itself. -/
theorem Chip.TxView.event (h : r.TxView s.chip s.log) {e : Chip.Event} (he : e.Quiet ends) :
    ∃ s', s.Meanwhile ends s' ∧ (r.event e).TxView s'.chip s'.log := by
  cases e with
  | txDone =>
    by_cases hsending : ∃ t, s.chip.state = .sending t
    · obtain ⟨t, ht⟩ := hsending
      exact ⟨_, .finished he ht, h.finish ht⟩
    · have hmode : r.mode ≠ 3 := by
        rw [h.mode, ne_eq, RadioMode.bits_tx, Samwise.Chip.getMode]
        split
        · decide
        · decide
        · next t ht => exact absurd ⟨t, ht⟩ hsending
      rw [Chip.event, if_neg fun hdone => hmode hdone.2]
      exact ⟨s, .nothing, h⟩
  | rxDone start frame => exact he.elim
  | status a x =>
    refine ⟨s, .nothing, h.same ?_⟩
    rw [Chip.event]
    split
    · next ha =>
      refine ⟨rfl, fun r' hr => ?_, rfl, rfl, rfl⟩
      have hne : r' ≠ a := fun heq => hr (heq ▸ ha)
      exact Function.update_of_ne hne _ _
    · exact .refl _

/-- Induction on what happens. -/
theorem Chip.TxView.events (h : r.TxView s.chip s.log) {events : List Chip.Event}
    (hevents : ∀ e ∈ events, e.Quiet ends) :
    ∃ s', s.Meanwhile ends s' ∧ (events.foldl Chip.event r).TxView s'.chip s'.log := by
  induction events generalizing r s with
  | nil => exact ⟨s, .nothing, h⟩
  | cons e events ih =>
    obtain ⟨s₁, h₁, hview₁⟩ := h.event (hevents e List.mem_cons_self)
    obtain ⟨s₂, h₂, hview₂⟩ := ih hview₁ fun e he => hevents e (List.mem_cons_of_mem _ he)
    exact ⟨s₂, h₁.trans h₂, hview₂⟩

theorem Bus.Follows.settle (h : b.Follows ends s) :
    ∃ s', s.Meanwhile ends s' ∧ b.settle.Follows ends s' := by
  have hevents : ∀ e ∈ b.coming.headD [], e.Quiet ends := by
    have hquiet := h.1
    unfold Bus.Quiet at hquiet
    cases hcoming : b.coming with
    | nil => simp
    | cons events coming => exact hquiet events (hcoming ▸ List.mem_cons_self)
  obtain ⟨s', hs, hview⟩ := h.2.events hevents
  exact ⟨s', hs, h.1.settle, hview⟩

theorem gives_getMode_follows (h : b.Follows ends s) :
    Gives Bus.serve v b getMode fun m _ b' => ∃ s', s.Meanwhile ends s' ∧
      m = s'.chip.getMode.bits ∧ b'.Follows ends s' := by
  obtain ⟨s', hs, hb'⟩ := h.settle
  refine gives_getMode.mono ?_
  rintro m w b' ⟨rfl, -, rfl⟩
  exact ⟨s', hs, hb'.2.mode, hb'⟩

theorem gives_setMode_follows (h : b.Follows ends s) (m : RadioMode) :
    Gives Bus.serve v b (setMode m.bits) fun _ _ b' => ∃ s', s.Meanwhile ends s' ∧
      b'.Follows ends (s'.access (Samwise.Chip.setMode m)) := by
  obtain ⟨s₁, h₁, hb₁⟩ := h.settle
  obtain ⟨s₂, h₂, hb₂⟩ := hb₁.settle
  unfold Gives
  rw [exec_setMode m.bits_lt]
  exact ⟨s₂, h₁.trans h₂, hb₂.1, hb₂.2.setMode m⟩

theorem gives_mapDio_follows (h : b.Follows ends s) {field : UInt32} {on : Bool}
    (hfield : ∀ x : UInt8, (bitsSet x.toUInt32 6 7 field).toUInt8 >>> 6 = 1 ↔ on = true) :
    Gives Bus.serve v b (change8 reg40DioMapping1 (bitsSet · 6 7 field)) fun _ _ b' =>
      ∃ s', s.Meanwhile ends s' ∧ b'.Follows ends (s'.access (Samwise.Chip.mapDio on)) := by
  obtain ⟨s₁, h₁, hb₁⟩ := h.settle
  obtain ⟨s₂, h₂, hb₂⟩ := hb₁.settle
  unfold Gives
  rw [exec_change8 (by decide)]
  exact ⟨s₂, h₁.trans h₂, hb₂.1, hb₂.2.mapDio (hfield _)⟩

theorem gives_clearInterrupts_follows (h : b.Follows ends s) :
    Gives Bus.serve v b clearInterrupts fun _ _ b' => ∃ s', s.Meanwhile ends s' ∧
      b'.Follows ends (s'.access Samwise.Chip.clearInterrupts) := by
  obtain ⟨s', hs, hb'⟩ := h.settle
  unfold Gives
  rw [clearInterrupts, exec_put8 (by decide)]
  exact ⟨s', hs, hb'.1, hb'.2.clearInterrupts⟩

end Follows

/-! ## Functions of the driver -/

section Functions

variable {ends : Bool} {b : Bus} {s : Radio} {v : Vars}

theorem dio_transmit : ∀ x : UInt8,
    (bitsSet x.toUInt32 6 7 0b01).toUInt8 >>> 6 = 1 ↔ true = true := by
  decide +kernel

theorem dio_listen : ∀ x : UInt8,
    (bitsSet x.toUInt32 6 7 0b00).toUInt8 >>> 6 = 1 ↔ false = true := by
  decide +kernel

theorem gives_transmit_follows (h : b.Follows ends s) :
    Gives Bus.serve v b transmit fun _ _ b' => ∃ s₁ s₂, s.Meanwhile ends s₁ ∧
      (s₁.access (Samwise.Chip.setMode .tx)).Meanwhile ends s₂ ∧
      b'.Follows ends (s₂.access (Samwise.Chip.mapDio true)) := by
  refine Gives.bind (gives_setMode_follows h .tx) ?_
  rintro - w b₁ ⟨s₁, h₁, hb₁⟩
  refine (gives_mapDio_follows hb₁ dio_transmit).mono ?_
  rintro - w b₂ ⟨s₂, h₂, hb₂⟩
  exact ⟨s₁, s₂, h₁, h₂, hb₂⟩

theorem gives_listen_follows (h : b.Follows ends s) :
    Gives Bus.serve v b listen fun _ _ b' => ∃ s₁ s₂, s.Meanwhile ends s₁ ∧
      (s₁.access (Samwise.Chip.setMode .rx)).Meanwhile ends s₂ ∧
      b'.Follows ends (s₂.access (Samwise.Chip.mapDio false)) := by
  refine Gives.bind (gives_setMode_follows h .rx) ?_
  rintro - w b₁ ⟨s₁, h₁, hb₁⟩
  refine (gives_mapDio_follows hb₁ dio_listen).mono ?_
  rintro - w b₂ ⟨s₂, h₂, hb₂⟩
  exact ⟨s₁, s₂, h₁, h₂, hb₂⟩

theorem gives_packetToFifo_follows (h : b.Follows ends s) {bytes : List UInt8}
    (hlength : bytes.length < 256) :
    Gives Bus.serve v b (packetToFifo bytes) fun _ _ b' => ∃ s₁ s₂ s₃, s.Meanwhile ends s₁ ∧
      s₁.Meanwhile ends s₂ ∧ ((s₂.access (Samwise.Chip.setMode .standby)).access
        (Samwise.Chip.loadFifo bytes)).Meanwhile ends s₃ ∧
      b'.Follows ends (s₃.access (Samwise.Chip.setMode s₁.chip.getMode)) := by
  rw [packetToFifo_eq]
  refine Gives.bind (gives_getMode_follows h) ?_
  rintro oldMode w b₁ ⟨s₁, h₁, rfl, hb₁⟩
  refine Gives.bind (gives_setMode_follows hb₁ .standby) ?_
  rintro - w b₂ ⟨s₂, h₂, hb₂⟩
  have hstandby : (s₂.access (Samwise.Chip.setMode .standby)).chip.state = .standby :=
    Samwise.Chip.state_standby _
  refine Gives.bind ((gives_load (hb₂.2.still hstandby) (.refl _) hlength).and
    (hb₂.1.exec (load bytes))) ?_
  rintro - w b₃ ⟨⟨rfl, hsame⟩, hquiet⟩
  have hb₃ : b₃.Follows ends ((s₂.access (Samwise.Chip.setMode .standby)).access
      (Samwise.Chip.loadFifo bytes)) :=
    ⟨hquiet, (hb₂.2.loadFifo hstandby hlength).same hsame⟩
  refine (gives_setMode_follows hb₃ s₁.chip.getMode).mono ?_
  rintro - w b₄ ⟨s₃, h₃, hb₄⟩
  exact ⟨s₁, s₂, s₃, h₁, h₂, h₃, hb₄⟩

end Functions

/-! ## The radio task -/

theorem encodeForTx_length {p : Packet} {bytes : List UInt8} (h : encodeForTx p = some bytes) :
    bytes.length < 256 := by
  have hencoded : (encodePacket p (List.replicate packetSize 0) false).1 < 256 := by
    unfold encodePacket
    split
    · decide
    · next hlen =>
      have hdata : packetDataSize = 210 := rfl
      have hpayload := p.length_payload (Nat.not_lt.mp hlen)
      simp only [Bool.false_eq_true, if_false, List.append_nil]
      split
      · decide
      · simp only [List.length_append, p.length_header]
        omega
  unfold encodeForTx at h
  dsimp only at h
  split at h
  · cases h
  · obtain rfl := Option.some.inj h
    exact Nat.lt_of_le_of_lt (List.length_take_le _ _) hencoded

/-- What `tx_done` makes of the queue. -/
def takenFrom (txQueue : BoundedQueue Packet txQueueSize) : Taken :=
  match txQueue.tryRemove.1 with
  | none => .none
  | some p =>
    match encodeForTx p with
    | none => .bad
    | some bytes => .packet bytes

/-- What a dispatch calls. -/
def dispatchCall (txQueue : BoundedQueue Packet txQueueSize) : RadioCall :=
  if txQueue.elems = [] then .listen else .dispatch (takenFrom txQueue)

section Task

variable {ends : Bool} {b : Bus} {s : Radio} {v : Vars}

/-- `tx_done`, for the main thread as steps of it and, where nothing ends meanwhile, at once. -/
theorem gives_handler_follows (h : b.Follows ends s) :
    Gives Bus.serve v b (takenFrom s.txQueue).handler fun _ _ b' =>
      ∃ s', Radio.Goes { s with main := .take } { s' with main := .idle } ∧
        (ends = false → s' = Samwise.txDone s) ∧
        s'.txQueue = s.txQueue.tryRemove.2 ∧ b'.Follows ends s' := by
  obtain ⟨p, txQueue, hremove⟩ : ∃ p txQueue, s.txQueue.tryRemove = (p, txQueue) := ⟨_, _, rfl⟩
  rw [takenFrom, hremove]
  cases p with
  | none =>
    obtain rfl := BoundedQueue.tryRemove_of_none hremove
    refine Gives.bind (gives_clearInterrupts_follows h) ?_
    rintro - w b₁ ⟨s₁, h₁, hb₁⟩
    refine Gives.bind (gives_listen_follows hb₁) ?_
    rintro - w b₂ ⟨s₂, s₃, h₂, h₃, hb₂⟩
    have htake : mainStep { s with main := .take } = some { s with main := .listenClear } := by
      simp only [mainStep, hremove]
    refine Gives.pure ⟨s₃.access (Samwise.Chip.mapDio false), ?_, ?_, ?_, hb₂⟩
    · refine (Radio.Goes.main htake).trans ?_
      refine (Radio.Goes.access h₁ fun _ => rfl).trans ?_
      exact (Radio.Goes.access h₂ fun _ => rfl).trans (Radio.Goes.access h₃ fun _ => rfl)
    · rintro rfl
      obtain rfl := h₁.eq_of_false
      obtain rfl := h₂.eq_of_false
      obtain rfl := h₃.eq_of_false
      simp only [Samwise.txDone, hremove, rfm9xListen]
    · exact h₃.txQueue.trans (h₂.txQueue.trans h₁.txQueue)
  | some p =>
    cases hencode : encodeForTx p with
    | none =>
      dsimp only
      rw [hencode]
      have hq : b.Follows ends { s with txQueue } := h
      refine Gives.bind (gives_clearInterrupts_follows hq) ?_
      rintro - w b₁ ⟨s₁, h₁, hb₁⟩
      have htake : mainStep { s with main := .take }
          = some { s with txQueue, main := .clear } := by
        simp only [mainStep, hremove, hencode]
      refine Gives.pure ⟨s₁.access Samwise.Chip.clearInterrupts, ?_, ?_, h₁.txQueue, hb₁⟩
      · exact (Radio.Goes.main htake).trans (Radio.Goes.access h₁ fun _ => rfl)
      · rintro rfl
        obtain rfl := h₁.eq_of_false
        simp only [Samwise.txDone, hremove, hencode]
    | some bytes =>
      dsimp only
      rw [hencode]
      have hq : b.Follows ends { s with txQueue, log := s.log ++ [.taken bytes] } :=
        ⟨h.1, h.2.taken bytes⟩
      refine Gives.bind (gives_packetToFifo_follows hq (encodeForTx_length hencode)) ?_
      rintro - w b₁ ⟨s₁, s₂, s₃, h₁, h₂, h₃, hb₁⟩
      refine Gives.bind (gives_clearInterrupts_follows hb₁) ?_
      rintro - w b₂ ⟨s₄, h₄, hb₂⟩
      have htake : mainStep { s with main := .take } = some
          { s with txQueue, main := .saveMode bytes, log := s.log ++ [.taken bytes] } := by
        simp only [mainStep, hremove, hencode]
      have hsave : mainStep { s₁ with main := .saveMode bytes }
          = some { s₁ with main := .standby bytes s₁.chip.getMode } := rfl
      have hload (s : Radio) : mainStep { s with main := .load bytes s₁.chip.getMode }
          = some { s.access (Samwise.Chip.loadFifo bytes) with
              main := .restore s₁.chip.getMode } := rfl
      refine Gives.pure ⟨s₄.access Samwise.Chip.clearInterrupts, ?_, ?_, ?_, hb₂⟩
      · refine (Radio.Goes.main htake).trans ?_
        refine (Radio.Goes.meanwhile h₁ (.saveMode bytes)).trans ?_
        refine (Radio.Goes.main hsave).trans ?_
        refine (Radio.Goes.access h₂ fun _ => rfl).trans ?_
        refine (Radio.Goes.main (hload _)).trans ?_
        exact (Radio.Goes.access h₃ fun _ => rfl).trans (Radio.Goes.access h₄ fun _ => rfl)
      · rintro rfl
        obtain rfl := h₁.eq_of_false
        obtain rfl := h₂.eq_of_false
        obtain rfl := h₃.eq_of_false
        obtain rfl := h₄.eq_of_false
        simp only [Samwise.txDone, hremove, hencode, rfm9xPacketToFifo]
      · exact h₄.txQueue.trans (h₃.txQueue.trans (h₂.txQueue.trans h₁.txQueue))

/-- **A dispatch on the bus is one of the radio.** -/
theorem dispatch_follows (h : b.Follows ends s) (hidle : s.main = .idle) :
    Gives Bus.serve v b (dispatchCall s.txQueue).program fun _ _ b' =>
      ∃ s₁ s', radioStep s .dispatch = some s₁ ∧ s₁.Goes s' ∧ s'.main = .idle ∧
        s'.txQueue = s.txQueue.tryRemove.2 ∧ b'.Follows ends s' := by
  have hdispatch : radioStep s .dispatch = some
      { s with main := if s.txQueue.elems = [] then .listenMode else .transmitMode } := by
    simp only [radioStep, hidle]
  unfold dispatchCall
  by_cases hempty : s.txQueue.elems = []
  · rw [if_pos hempty] at hdispatch ⊢
    refine Gives.bind (gives_listen_follows h) ?_
    rintro - w b₁ ⟨s₁, s₂, h₁, h₂, hb₁⟩
    refine Gives.pure ⟨_, _, hdispatch, (Radio.Goes.access h₁ fun _ => rfl).trans
      (Radio.Goes.access h₂ fun _ => rfl), rfl, ?_, hb₁⟩
    have hqueue : s.txQueue.tryRemove.2 = s.txQueue := by
      refine BoundedQueue.ext ?_
      have helems := s.txQueue.elems_of_tryRemove
      rw [hempty] at helems
      rw [hempty]
      exact (List.append_eq_nil_iff.mp helems.symm).2
    rw [hqueue]
    exact h₂.txQueue.trans h₁.txQueue
  · rw [if_neg hempty] at hdispatch ⊢
    refine Gives.bind (gives_transmit_follows h) ?_
    rintro - w b₁ ⟨s₁, s₂, h₁, h₂, hb₁⟩
    have hqueue : (s₂.access (Samwise.Chip.mapDio true)).txQueue = s.txQueue :=
      h₂.txQueue.trans h₁.txQueue
    rw [← hqueue]
    refine (gives_handler_follows hb₁).mono ?_
    rintro - w b₂ ⟨s₃, hgoes, -, htxQueue, hb₂⟩
    refine ⟨_, { s₃ with main := .idle }, hdispatch, ?_, rfl, htxQueue, hb₂⟩
    refine (Radio.Goes.access h₁ fun _ => rfl).trans ?_
    exact (Radio.Goes.access h₂ fun _ => rfl).trans hgoes

theorem txDone_bit : ∀ x : UInt8, x &&& 0x08 ≠ 0 → (x &&& 0x08) >>> 3 ≠ 0 := by decide +kernel

/-- **The handler for TxDone on the bus is that of the radio**, where nothing ends meanwhile. -/
theorem interruptReceived_follows (h : b.Follows false s) (hdone : s.chip.txDone = true) :
    Gives Bus.serve v b (interruptReceived (some (takenFrom s.txQueue).handler) (some rxHandler))
      fun _ _ b' => b'.Follows false (Samwise.interruptReceived s) := by
  obtain ⟨s₁, h₁, hb₁⟩ := h.settle
  obtain rfl := h₁.eq_of_false
  have hflag : b.settle.chip.get reg12IrqFlags &&& 0x08 ≠ 0 := by
    rw [Chip.get, if_pos (by decide), if_pos hb₁.2.inLora]
    exact hb₁.2.txDone.mpr hdone
  refine Gives.bind (R := fun done _ b' => done ≠ 0 ∧ b' = b.settle) ?_ ?_
  · unfold Gives
    rw [txDone, exec_bind, exec_get8 (by decide)]
    exact ⟨txDone_bit _ hflag, rfl⟩
  rintro done w b' ⟨hne, rfl⟩
  refine Gives.ite (fun _ => ?_) fun hzero => absurd hne hzero
  refine (gives_handler_follows hb₁).mono ?_
  rintro - w b' ⟨s', -, heq, -, hb'⟩
  obtain rfl := heq rfl
  rw [Samwise.interruptReceived, if_pos hdone]
  exact hb'

/-- A packet is queued, or `radio_task_dispatch` is called. -/
inductive TaskStep where
  | add (p : Packet)
  | dispatch

/-- What one step behind the other does on the bus. -/
def runTask : BoundedQueue Packet txQueueSize → List TaskStep → Driver Unit
  | _, [] => pure ()
  | txQueue, .add p :: steps => runTask (txQueue.tryAdd p).2 steps
  | txQueue, .dispatch :: steps => do
    let _ ← (dispatchCall txQueue).program
    runTask txQueue.tryRemove.2 steps

/-- **Packets queued and dispatches on the bus are a run of the radio**: what the chip began to
transmit is what its log has. Induction on the steps. -/
theorem runTask_follows (steps : List TaskStep) (h : b.Follows ends s) (hidle : s.main = .idle) :
    Gives Bus.serve v b (runTask s.txQueue steps) fun _ _ b' =>
      ∃ es s', run radioStep s es = some s' ∧ s'.main = .idle ∧ b'.Follows ends s' ∧
        List.Forall₂ IsContent b'.chip.begun (transmittedOf s'.log) := by
  induction steps generalizing b s v with
  | nil => exact Gives.pure ⟨[], s, rfl, hidle, h, h.2.begun⟩
  | cons step steps ih =>
    cases step with
    | add p =>
      have hq : b.Follows ends { s with txQueue := (s.txQueue.tryAdd p).2 } := h
      refine (ih hq hidle).mono ?_
      rintro - w b' ⟨es, s', hrun, hrest⟩
      exact ⟨.add p :: es, s', hrun, hrest⟩
    | dispatch =>
      refine Gives.bind (dispatch_follows h hidle) ?_
      rintro - w b₁ ⟨s₁, s₂, hdispatch, ⟨es, -, hgoes⟩, hidle₂, hqueue, hb₁⟩
      rw [← hqueue]
      refine (ih hb₁ hidle₂).mono ?_
      rintro - w b' ⟨es', s', hrun, hrest⟩
      refine ⟨.dispatch :: (es ++ es'), s', ?_, hrest⟩
      rw [run_cons, hdispatch, Option.bind_some, run_append, hgoes]
      exact hrun

/-- Behind `rfm9x_init`, in standby mode, `radio_task_init` comes to where the radio begins. -/
theorem radioTaskInit_follows (hquiet : b.Quiet false)
    (hview : b.chip.TxView ⟨.standby, none, false, false, false⟩ []) :
    Gives Bus.serve v b (do listen; transmit) fun _ _ b' => b'.Follows false radioTaskInit := by
  have h : b.Follows false
      ⟨.empty, ⟨.standby, none, false, false, false⟩, false, .idle, []⟩ := ⟨hquiet, hview⟩
  refine Gives.bind (gives_listen_follows h) ?_
  rintro - w b₁ ⟨s₁, s₂, h₁, h₂, hb₁⟩
  obtain rfl := h₁.eq_of_false
  obtain rfl := h₂.eq_of_false
  refine (gives_transmit_follows hb₁).mono ?_
  rintro - w b₂ ⟨s₃, s₄, h₃, h₄, hb₂⟩
  obtain rfl := h₃.eq_of_false
  obtain rfl := h₄.eq_of_false
  exact hb₂

/-- Such a chip, with no flag and no mapping set. -/
example : Chip.TxView ⟨fun a => if a = reg01OpMode then 0x89 else 0, fun _ => 0, fun _ => 0,
    fun _ => 0, [], []⟩ ⟨.standby, none, false, false, false⟩ [] :=
  ⟨by decide, rfl, by decide, nofun, by decide, by decide, .nil⟩

end Task

end Rfm9x

end Samwise
