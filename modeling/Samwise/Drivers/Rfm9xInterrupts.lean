import Samwise.Drivers.Rfm9xConfiguration

/-!
# Samwise — the radio's configuration afterwards

What the program does with the radio behind `rfm9x_init`: the radio task listens, transmits and loads
packets, and the handlers that `rfm9x_interrupt_received` calls may come between any two transactions
of it, while the chip receives frames and ends transmissions. `OP_MODE` is read and written back with
another mode; what it has besides the mode, and every register with a setting, stays.

A transaction is taken whole here. The driver does not see to that: it leaves interrupts enabled in
`rfm9x_get_buf` and `rfm9x_put_buf`, and a handler that comes between their two bytes is outside of
what is said below.
-/

namespace Samwise.Rfm9x

open Interaction Prog

/-- A register that has a part of the configuration. -/
def IsSetting (a : UInt8) : Prop :=
  Chip.Steady a ∧ a ≠ reg22PayloadLength ∧ a ≠ reg40DioMapping1

instance (a : UInt8) : Decidable (IsSetting a) := by
  unfold IsSetting
  infer_instance

/-- What `tx_done` of the radio task does on the bus: nothing was queued, it did not encode, or it is
transmitted. -/
inductive Taken where
  | none
  | bad
  | packet (bytes : List UInt8)

/-- The handlers of the radio task, and what it and the rest of the program call. -/
inductive Operation where
  | listen
  | transmit
  | packetToFifo (bytes : List UInt8)
  | packetFromFifo
  | clearInterrupts
  | version
  | printParameters
  | interrupt (taken : Taken)

/-- `tx_done` of the radio task, which reads no frame. -/
def Taken.handler : Taken → Driver (List (List UInt8))
  | .none => do
    clearInterrupts
    listen
    return []
  | .bad => do
    clearInterrupts
    return []
  | .packet bytes => do
    packetToFifo bytes
    clearInterrupts
    return []

/-- `rx_done` of the radio task, and the frame that it has read. -/
def rxHandler : Driver (List (List UInt8)) := do
  let (n, buf) ← packetFromFifo
  clearInterrupts
  return if n = 0 then [] else [buf]

def Operation.program : Operation → Driver Unit
  | .listen => Rfm9x.listen
  | .transmit => Rfm9x.transmit
  | .packetToFifo bytes => Rfm9x.packetToFifo bytes
  | .packetFromFifo => do let _ ← Rfm9x.packetFromFifo
  | .clearInterrupts => Rfm9x.clearInterrupts
  | .version => do let _ ← Rfm9x.version
  | .printParameters => do let _ ← Rfm9x.printParameters
  | .interrupt taken => do let _ ← interruptReceived (some taken.handler) (some rxHandler)

/-- The settings and the bits of `OP_MODE` that are not the mode. -/
def Chip.Keeps (f : Registers) (upper : UInt8) (c : Chip) : Prop :=
  c.Has IsSetting f ∧ c.upper = upper

section Safe

variable {f : Registers} {upper : UInt8}

theorem Chip.Keeps.event {c : Chip} (hc : c.Keeps f upper) (e : Chip.Event) :
    (c.event e).Keeps f upper :=
  ⟨hc.1.event (fun _ ha => ha.1) e, (c.upper_event e).trans hc.2⟩

/-- A register that is no setting changes. -/
theorem Chip.Keeps.lora {c : Chip} (hc : c.Keeps f upper) {a : UInt8} (ha : ¬ IsSetting a)
    (x : UInt8) : Chip.Keeps f upper { c with lora := Function.update c.lora a x } := by
  refine ⟨⟨hc.1.1, fun r hr => ?_⟩, hc.2⟩
  rw [← hc.1.2 r hr]
  have hne : r ≠ a := fun heq => ha (heq ▸ hr)
  exact Chip.get_congr rfl rfl rfl (Function.update_of_ne hne _ _)

theorem Chip.Keeps.shared {c : Chip} (hc : c.Keeps f upper) {a : UInt8} (ha : ¬ IsSetting a)
    (h01 : a ≠ 0x01) (x : UInt8) :
    Chip.Keeps f upper { c with shared := Function.update c.shared a x } := by
  have hupper : Chip.upper { c with shared := Function.update c.shared a x } = c.upper := by
    simp only [Chip.upper, Function.update_of_ne h01.symm]
  have hinLora : Chip.inLora { c with shared := Function.update c.shared a x } = c.inLora := by
    rw [Chip.inLora_eq, Chip.inLora_eq, hupper]
  refine ⟨⟨hinLora.trans hc.1.1, fun r hr => ?_⟩, hupper.trans hc.2⟩
  rw [← hc.1.2 r hr]
  have hne : r ≠ a := fun heq => ha (heq ▸ hr)
  exact Chip.get_congr hinLora (Function.update_of_ne hne _ _) rfl rfl

theorem Chip.Keeps.put {c : Chip} (hc : c.Keeps f upper) {a : UInt8} (ha : ¬ IsSetting a)
    (h01 : a ≠ 0x01) (x : UInt8) : (c.put a x).Keeps f upper := by
  rw [Chip.put, if_neg h01, if_pos hc.1.1]
  split
  · split
    · next h12 => exact hc.lora (by rw [h12]; decide) _
    · exact hc.lora ha x
  · exact hc.shared ha h01 x

theorem Chip.Keeps.fifoNext {c : Chip} (hc : c.Keeps f upper) : c.fifoNext.Keeps f upper :=
  hc.lora (by decide) _

theorem Chip.Keeps.memory {c : Chip} (hc : c.Keeps f upper) (memory : UInt8 → UInt8) :
    Chip.Keeps f upper { c with memory } := hc

theorem Chip.Keeps.readBurst {c : Chip} (hc : c.Keeps f upper) (a : UInt8) (n : Nat) :
    (c.readBurst a n).2.Keeps f upper := by
  induction n generalizing a c with
  | zero => exact hc
  | succ n ih =>
    rw [Chip.readBurst]
    split
    · exact ih hc.fifoNext a
    · exact ih hc (a + 1)

theorem Chip.Keeps.writeFifo {c : Chip} (hc : c.Keeps f upper) (bytes : List UInt8) :
    (c.writeBurst 0x00 bytes).Keeps f upper := by
  induction bytes generalizing c with
  | nil => exact hc
  | cons b bytes ih =>
    rw [Chip.writeBurst, if_pos rfl]
    exact ih (hc.fifoNext.memory _)

theorem Chip.Keeps.inMode {c : Chip} (hc : c.Keeps f upper) {m : UInt8} (hm : m < 8) :
    (c.inMode m).Keeps f upper :=
  ⟨hc.1.inMode (fun _ ha => ha.1) hm, (c.upper_inMode hm).trans hc.2⟩

abbrev KeepsSafe (f : Registers) (upper : UInt8) {α : Type} (x : Driver α) : Prop :=
  Safe Chip.serve (Chip.Keeps f upper) x

theorem safe_getBuf (a : UInt8) (n : Nat) : KeepsSafe f upper (getBuf a n) :=
  Safe.perform fun c hc => by
    rw [Chip.serve_read]
    exact hc.readBurst _ n

theorem safe_get8 (a : UInt8) : KeepsSafe f upper (get8 a) :=
  (safe_getBuf a 1).bind fun _ => Safe.pure _

theorem safe_put8 {a : UInt8} (hregister : IsRegister a) (ha : ¬ IsSetting a) (h01 : a ≠ 0x01)
    (x : UInt8) : KeepsSafe f upper (put8 a x) :=
  Safe.perform fun c hc => by
    rw [Chip.serve_put8 c hregister]
    exact hc.put ha h01 x

theorem safe_putFifo (bytes : List UInt8) : KeepsSafe f upper (putBuf reg00Fifo bytes) :=
  Safe.perform fun c hc => by
    rw [Chip.serve_write]
    exact hc.writeFifo bytes

/-- The mode is changed as it was read, though it may be another by then: the rest of the register is
the same. -/
theorem safe_setMode {m : UInt8} (hm : m < 8) : KeepsSafe f upper (setMode m) := by
  refine Safe.perform_bind fun c hc => ?_
  rw [Chip.serve_get8 c (by decide)]
  refine ⟨hc, Safe.perform fun c' hc' => ?_⟩
  rw [Chip.serve_put8 c' (by decide)]
  show Chip.Keeps f upper (Chip.put 0x01 (bitsSet (c.get 0x01).toUInt32 0 2 m.toUInt32).toUInt8 c')
  have hupper : c.get 0x01 &&& 0xF8 = c'.upper := hc.2.trans hc'.2.symm
  rw [Chip.put_mode hm hupper]
  exact hc'.inMode hm

theorem getMode_lt : ∀ x : UInt8, (bitsGet x.toUInt32 0 2).toUInt8 < 8 := by decide +kernel

theorem safe_dio (field : UInt32) :
    KeepsSafe f upper (change8 reg40DioMapping1 (bitsSet · 6 7 field)) :=
  (safe_get8 _).bind fun _ => safe_put8 (by decide) (by decide) (by decide) _

theorem safe_listen : KeepsSafe f upper listen := (safe_setMode (by decide)).bind fun _ => safe_dio _

theorem safe_transmit : KeepsSafe f upper transmit :=
  (safe_setMode (by decide)).bind fun _ => safe_dio _

theorem safe_clearInterrupts : KeepsSafe f upper clearInterrupts :=
  safe_put8 (by decide) (by decide) (by decide) _

/-- A register that is read, and what is made of it. -/
theorem safe_reading {α : Type} (a : UInt8) (g : UInt8 → α) :
    KeepsSafe f upper (do let c ← get8 a; return g c) := (safe_get8 a).bind fun _ => Safe.pure _

theorem safe_getFrequency : KeepsSafe f upper getFrequency := by
  refine (safe_get8 _).bind fun msb => ?_
  refine (safe_get8 _).bind fun mid => ?_
  exact safe_reading _ _

theorem safe_getTxPower : KeepsSafe f upper getTxPower :=
  Safe.vars_bind fun _ => (safe_reading _ _).bind fun _ => Safe.pure _

theorem safe_printParameters : KeepsSafe f upper printParameters := by
  refine safe_getFrequency.bind fun frequency => ?_
  refine (safe_reading _ _).bind fun spreadingFactor => ?_
  refine (safe_reading _ _).bind fun bandwidth => ?_
  refine (safe_reading _ _).bind fun codingRate => ?_
  refine ((safe_get8 _).bind fun _ => safe_reading _ _).bind fun preambleLength => ?_
  refine safe_getTxPower.bind fun txPower => ?_
  refine (safe_reading _ _).bind fun lnaBoost => ?_
  refine (safe_reading _ _).bind fun crcEnabled => ?_
  refine (safe_reading _ _).bind fun paRamp => ?_
  refine (safe_get8 _).bind fun version => ?_
  exact (safe_reading _ _).bind fun lora => Safe.pure _

theorem safe_getMode_bind {α : Type} {k : UInt8 → Driver α}
    (hk : ∀ m < 8, KeepsSafe f upper (k m)) : KeepsSafe f upper (getMode >>= k) := by
  rw [getMode, bind_assoc]
  exact (safe_get8 _).bind fun reg => hk _ (getMode_lt reg)

theorem safe_packetToFifo (bytes : List UInt8) : KeepsSafe f upper (packetToFifo bytes) := by
  refine safe_getMode_bind fun oldMode hold => ?_
  refine (safe_setMode (by decide)).bind fun _ => ?_
  refine (safe_put8 (by decide) (by decide) (by decide) _).bind fun _ => ?_
  refine (safe_putFifo bytes).bind fun _ => ?_
  refine (safe_put8 (by decide) (by decide) (by decide) _).bind fun _ => ?_
  exact safe_setMode hold

theorem safe_crcFailed : KeepsSafe f upper crcFailed := by
  refine (safe_reading _ _).bind fun crcEnabled => ?_
  exact Safe.ite ((safe_reading _ _).bind fun _ => Safe.pure _) (Safe.pure _)

theorem safe_packetFromFifo : KeepsSafe f upper packetFromFifo := by
  refine safe_getMode_bind fun oldMode hold => ?_
  refine (safe_setMode (by decide)).bind fun _ => ?_
  refine safe_crcFailed.bind fun failed => ?_
  refine Safe.ite ?_ ?_
  · exact (safe_setMode hold).bind fun _ => Safe.pure _
  · refine (safe_get8 _).bind fun fifoLength => ?_
    refine Safe.ite ?_ ?_
    · refine (safe_get8 _).bind fun currentAddr => ?_
      refine (safe_put8 (by decide) (by decide) (by decide) _).bind fun _ => ?_
      refine (safe_getBuf _ _).bind fun buf => ?_
      exact (safe_setMode hold).bind fun _ => Safe.pure _
    · exact (safe_setMode hold).bind fun _ => Safe.pure _

theorem safe_handler (taken : Taken) : KeepsSafe f upper taken.handler := by
  cases taken with
  | none =>
    exact safe_clearInterrupts.bind fun _ => safe_listen.bind fun _ => Safe.pure _
  | bad => exact safe_clearInterrupts.bind fun _ => Safe.pure _
  | packet bytes =>
    exact (safe_packetToFifo bytes).bind fun _ => safe_clearInterrupts.bind fun _ => Safe.pure _

theorem safe_rxHandler : KeepsSafe f upper rxHandler :=
  safe_packetFromFifo.bind fun _ => safe_clearInterrupts.bind fun _ => Safe.pure _

theorem safe_interruptReceived (taken : Taken) :
    KeepsSafe f upper (interruptReceived (some taken.handler) (some rxHandler)) := by
  refine (safe_reading _ _).bind fun done => ?_
  refine Safe.ite (safe_handler taken) ?_
  refine (safe_reading _ _).bind fun done => ?_
  exact Safe.ite safe_rxHandler (Safe.pure _)

theorem Operation.safe (op : Operation) : KeepsSafe f upper op.program := by
  cases op with
  | listen => exact safe_listen
  | transmit => exact safe_transmit
  | packetToFifo bytes => exact safe_packetToFifo bytes
  | packetFromFifo => exact safe_packetFromFifo.bind fun _ => Safe.pure _
  | clearInterrupts => exact safe_clearInterrupts
  | version => exact (safe_get8 _).bind fun _ => Safe.pure _
  | printParameters => exact safe_printParameters.bind fun _ => Safe.pure _
  | interrupt taken => exact (safe_interruptReceived taken).bind fun _ => Safe.pure _

end Safe

/-! ## Whatever the order -/

/-- What can happen: the program on top goes on, an operation starts or interrupts the one under way,
or the chip does something by itself. -/
inductive RadioStep where
  | advance
  | start (op : Operation)
  | chip (e : Chip.Event)

def RadioStep.event : RadioStep → Interrupts.Event spi Vars Chip.Event
  | .advance => .advance
  | .start op => .start op.program
  | .chip e => .own e

/-- **The configuration stays.** Whatever operations the program calls, between whatever two
transactions they are interrupted by others, and these by others, and whatever the chip does in
between: it stays in LoRa mode with every setting that it had. That no interrupt comes within a
transaction is assumed. -/
theorem settings_kept {p p' : Interrupts.Processor spi Vars Chip}
    (hidle : p.stack = []) (hlora : p.component.inLora = true) {steps : List RadioStep}
    (hrun : Run.run (Interrupts.step Chip.serve Chip.event) p (steps.map RadioStep.event) =
      some p') :
    p'.component.inLora = true ∧ p'.component.upper = p.component.upper ∧
      ∀ a, IsSetting a → p'.component.get a = p.component.get a := by
  have hp : Interrupts.Guarded Chip.serve
      (Chip.Keeps (fun a => p.component.get a) p.component.upper) p :=
    ⟨⟨⟨hlora, fun _ _ => rfl⟩, rfl⟩, by simp [hidle]⟩
  have hok : Run.AllSteps (Interrupts.step Chip.serve Chip.event)
      (Interrupts.StartsSafe Chip.serve
        (Chip.Keeps (fun a => p.component.get a) p.component.upper)) p
      (steps.map RadioStep.event) := by
    refine Run.AllSteps.of_mem _ (fun e he s => ?_) p
    obtain ⟨step, -, rfl⟩ := List.mem_map.mp he
    cases step with
    | advance => trivial
    | start op => exact op.safe
    | chip e => trivial
  obtain ⟨⟨hlora', hget⟩, hupper⟩ :=
    (Interrupts.run_guarded (fun c e hc => Chip.Keeps.event hc e) hok hrun hp).holds
  exact ⟨hlora', hupper, hget⟩

/-- A chip that has sent something. -/
def chipIdle : Chip where
  shared a := if a = reg01OpMode then 0x89 else 0xA5
  fsk _ := 0
  lora a := if a = reg12IrqFlags then 0x08 else 0x5A
  memory _ := 0
  begun := []
  received := []

/-- The handler comes between the read and the write of `OP_MODE`. -/
def listenInterrupted : List RadioStep :=
  [.start .listen, .advance, .start (.interrupt .none), .advance, .advance, .chip (.status 0x1A 7),
    .advance, .advance]

theorem settings_kept_listen : ∃ p',
    Run.run (Interrupts.step Chip.serve Chip.event) ⟨[], mk, chipIdle⟩
      (listenInterrupted.map RadioStep.event) = some p' ∧
    p'.component.inLora = true ∧ p'.component.upper = chipIdle.upper ∧
      ∀ a, IsSetting a → p'.component.get a = chipIdle.get a := by
  obtain ⟨p', hrun⟩ : ∃ p', Run.run (Interrupts.step Chip.serve Chip.event) ⟨[], mk, chipIdle⟩
      (listenInterrupted.map RadioStep.event) = some p' := ⟨_, rfl⟩
  exact ⟨p', hrun, settings_kept rfl (by decide) hrun⟩

end Samwise.Rfm9x
