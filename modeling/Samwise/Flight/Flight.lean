import Samwise.Flash.Flash
import Samwise.Flight.Slate

/-!
# Samwise — flight code as a program over slate, environment and effects

The flight functions are programs `Flight α`: from the environment and the world they give a
result and the world afterwards. The environment answers everything the code samples, the
clock, the input pins, the contents of uninitialised stack memory and of a beacon, by the
number of the sample, so nothing is assumed about how two samples relate. What the code does to the outside
is appended to the world's trace, in order. Flash is read through the trace: a write of the
persistent record is an effect like the others, atomic and durable, so cutting a trace short
also cuts what reached flash.
-/

namespace Samwise

/-- The output pins the modelled functions drive. -/
inductive Pin where
  | samwiseBurnRelay
  | samwiseEnabBurnA
  | samwiseEnabBurnB
  | samwiseRpiEnab
  | samwiseWatchdogFeed
  | samwiseAdcsEn
deriving DecidableEq, Repr

/-- The tasks of the flight configuration. -/
inductive Task where
  | printTask
  | watchdogTask
  | beaconTask
  | telemetryTask
  | adcsTask
  | radioTask
  | commandTask
  | burnWireTask
deriving DecidableEq, Repr

/-- What flight code does to the world outside its RAM. Logging and the status LED are left
out. A write of the persistent record carries the function that makes it; a NULL pointer
dereference is an effect of its own, and the code does not go on behind it. -/
inductive Effect where
  | gpioPut (pin : Pin) (level : Bool)
  | sleepMs (ms : Nat)
  | watchdogUpdate
  | writePersistentData (u : Update) (d : PersistentData)
  | payloadUartWritePacket (packet : List UInt8) (seqNum : UInt16)
  | adcsSendCommand (command : UInt8)
  | nullDereference
deriving DecidableEq

/-- What the code samples, by the number of the sample. -/
structure Env where
  clock : Nat → UInt64
  panelA : Nat → Bool
  panelB : Nat → Bool
  rbf : Nat → Bool
  stackPacket : Nat → Packet
  stackString : Nat → Vector UInt8 209
  beaconPacket : Nat → Packet

/-- The record in flash after the effects `t`. -/
def flashAfter (d : PersistentData) (t : List Effect) : PersistentData :=
  t.foldl (fun d e => match e with
    | .writePersistentData _ d' => d'
    | _ => d) d

@[simp] theorem flashAfter_nil (d : PersistentData) : flashAfter d [] = d := rfl

@[simp] theorem flashAfter_append (d : PersistentData) (t u : List Effect) :
    flashAfter d (t ++ u) = flashAfter (flashAfter d t) u := List.foldl_append

/-- What flight code acts on: the slate, the tasks' `next_dispatch`, the static
`last_seen_msg_id`, the record that was in flash when the trace began, the effects since, and
how many samples were taken. -/
structure World where
  slate : Slate
  nextDispatch : Task → UInt64
  lastSeenMsgId : UInt32
  flash : PersistentData
  trace : List Effect
  samples : Nat

/-- The record in flash now. -/
def World.persistent (w : World) : PersistentData := flashAfter w.flash w.trace

/-- The world after a reset: RAM is cleared, flash keeps its record. -/
def World.atReset (d : PersistentData) : World where
  slate := clearAndInitSlate
  nextDispatch := fun _ => 0
  lastSeenMsgId := 0
  flash := d
  trace := []
  samples := 0

/-- An environment in which only time passes: every sample is a microsecond later, no panel
is deployed and no pin is set. -/
def Env.still : Env where
  clock := fun n => UInt64.ofNat n
  panelA := fun _ => false
  panelB := fun _ => false
  rbf := fun _ => false
  stackPacket := fun _ => Packet.zero
  stackString := fun _ => Vector.replicate 209 0
  beaconPacket := fun _ => Packet.zero

/-- A flight program. -/
structure Flight (α : Type) where
  run : Env → World → α × World

namespace Flight

variable {α β : Type}

instance : Monad Flight where
  pure a := ⟨fun _ w => (a, w)⟩
  bind x f := ⟨fun env w => (f (x.run env w).1).run env (x.run env w).2⟩

@[simp] theorem run_pure (a : α) (env : Env) (w : World) :
    (pure a : Flight α).run env w = (a, w) := rfl

@[simp] theorem run_bind (x : Flight α) (f : α → Flight β) (env : Env) (w : World) :
    (x >>= f).run env w = (f (x.run env w).1).run env (x.run env w).2 := rfl

@[simp] theorem run_map (x : Flight α) (f : α → β) (env : Env) (w : World) :
    (f <$> x).run env w = (f (x.run env w).1, (x.run env w).2) := rfl

@[simp] theorem run_ite (c : Prop) {_ : Decidable c} (x y : Flight α) (env : Env) (w : World) :
    (if c then x else y).run env w = if c then x.run env w else y.run env w := by
  split <;> rfl

/-- An `if` without an `else`. -/
def when (c : Prop) [Decidable c] (x : Flight Unit) : Flight Unit := if c then x else pure ()

@[simp] theorem run_when (c : Prop) [Decidable c] (x : Flight Unit) (env : Env) (w : World) :
    (when c x).run env w = if c then x.run env w else ((), w) := run_ite c x (pure ()) env w

/-- The slate now. -/
def slate : Flight Slate := ⟨fun _ w => (w.slate, w)⟩

/-- Assign to fields of the slate. -/
def modifySlate (f : Slate → Slate) : Flight Unit :=
  ⟨fun _ w => ((), { w with slate := f w.slate })⟩

/-- Act on the outside. -/
def emit (e : Effect) : Flight Unit := ⟨fun _ w => ((), { w with trace := w.trace ++ [e] })⟩

/-- Take a sample of the environment. -/
def sample (f : Env → Nat → α) : Flight α :=
  ⟨fun env w => (f env w.samples, { w with samples := w.samples + 1 })⟩

/-- `read_persistent_data`. -/
def readPersistentData : Flight PersistentData := ⟨fun _ w => (w.persistent, w)⟩

/-- Run an update of the persistent record: read it, and write what the update makes of it. -/
def update (u : Update) : Flight PersistentData :=
  ⟨fun _ w =>
    let d := u.record w.persistent
    (d, { w with trace := w.trace ++ [.writePersistentData u d] })⟩

/-- `task->next_dispatch`. -/
def nextDispatch (task : Task) : Flight UInt64 := ⟨fun _ w => (w.nextDispatch task, w)⟩

/-- Assign to `task->next_dispatch`. -/
def setNextDispatch (task : Task) (t : UInt64) : Flight Unit :=
  ⟨fun _ w => ((), { w with
    nextDispatch := fun task' => if task' = task then t else w.nextDispatch task' })⟩

/-- The static `last_seen_msg_id`. -/
def lastSeenMsgId : Flight UInt32 := ⟨fun _ w => (w.lastSeenMsgId, w)⟩

/-- Assign to `last_seen_msg_id`. -/
def setLastSeenMsgId (id : UInt32) : Flight Unit :=
  ⟨fun _ w => ((), { w with lastSeenMsgId := id })⟩

@[simp] theorem run_slate (env : Env) (w : World) : slate.run env w = (w.slate, w) := rfl

@[simp] theorem run_modifySlate (f : Slate → Slate) (env : Env) (w : World) :
    (modifySlate f).run env w = ((), { w with slate := f w.slate }) := rfl

@[simp] theorem run_emit (e : Effect) (env : Env) (w : World) :
    (emit e).run env w = ((), { w with trace := w.trace ++ [e] }) := rfl

@[simp] theorem run_sample (f : Env → Nat → α) (env : Env) (w : World) :
    (sample f).run env w = (f env w.samples, { w with samples := w.samples + 1 }) := rfl

@[simp] theorem run_readPersistentData (env : Env) (w : World) :
    readPersistentData.run env w = (w.persistent, w) := rfl

@[simp] theorem run_update (u : Update) (env : Env) (w : World) :
    (update u).run env w = (u.record w.persistent,
      { w with trace := w.trace ++ [.writePersistentData u (u.record w.persistent)] }) := rfl

@[simp] theorem run_nextDispatch (task : Task) (env : Env) (w : World) :
    (nextDispatch task).run env w = (w.nextDispatch task, w) := rfl

@[simp] theorem run_setNextDispatch (task : Task) (t : UInt64) (env : Env) (w : World) :
    (setNextDispatch task t).run env w = ((), { w with
      nextDispatch := fun task' => if task' = task then t else w.nextDispatch task' }) := rfl

@[simp] theorem run_lastSeenMsgId (env : Env) (w : World) :
    lastSeenMsgId.run env w = (w.lastSeenMsgId, w) := rfl

@[simp] theorem run_setLastSeenMsgId (id : UInt32) (env : Env) (w : World) :
    (setLastSeenMsgId id).run env w = ((), { w with lastSeenMsgId := id }) := rfl

end Flight

/-! ## What a program emits -/

/-- The program, whatever it starts from, appends only effects that satisfy `P`. -/
def Flight.Emits {α : Type} (P : Effect → Prop) (x : Flight α) : Prop :=
  ∀ env w, ∃ t, (x.run env w).2.trace = w.trace ++ t ∧ (x.run env w).2.flash = w.flash ∧
    ∀ e ∈ t, P e

namespace Flight.Emits

variable {α β : Type} {P Q : Effect → Prop}

/-- A program that leaves the trace alone. -/
theorem of_silent {x : Flight α}
    (h : ∀ env w, (x.run env w).2.trace = w.trace ∧ (x.run env w).2.flash = w.flash) :
    x.Emits P :=
  fun env w => ⟨[], by simp [(h env w).1], (h env w).2, by simp⟩

theorem pure (a : α) : (Pure.pure a : Flight α).Emits P := of_silent fun _ _ => ⟨rfl, rfl⟩

theorem emit {e : Effect} (h : P e) : (Flight.emit e).Emits P :=
  fun _ _ => ⟨[e], rfl, rfl, by simpa using h⟩

theorem bind {x : Flight α} {f : α → Flight β} (hx : x.Emits P) (hf : ∀ a, (f a).Emits P) :
    (x >>= f).Emits P := by
  intro env w
  obtain ⟨t, htrace, hflash, ht⟩ := hx env w
  obtain ⟨u, hutrace, huflash, hu⟩ := hf (x.run env w).1 env (x.run env w).2
  refine ⟨t ++ u, ?_, huflash.trans hflash, ?_⟩
  · rw [Flight.run_bind, hutrace, htrace, List.append_assoc]
  · intro e he
    rcases List.mem_append.mp he with he | he
    · exact ht e he
    · exact hu e he

theorem ite {c : Prop} [Decidable c] {x y : Flight α} (hx : c → x.Emits P) (hy : ¬c → y.Emits P) :
    (if c then x else y).Emits P := by
  split
  · next h => exact hx h
  · next h => exact hy h

theorem when {c : Prop} [Decidable c] {x : Flight Unit} (hx : c → x.Emits P) :
    (Flight.when c x).Emits P :=
  ite hx fun _ => pure _

theorem mono {x : Flight α} (hPQ : ∀ e, P e → Q e) (hx : x.Emits P) : x.Emits Q := by
  intro env w
  obtain ⟨t, htrace, hflash, ht⟩ := hx env w
  exact ⟨t, htrace, hflash, fun e he => hPQ e (ht e he)⟩

/-- A loop over a list emits what its body emits. -/
theorem forM {γ : Type} {l : List γ} {f : γ → Flight PUnit} (hf : ∀ a ∈ l, (f a).Emits P) :
    (l.forM f).Emits P := by
  induction l with
  | nil => exact pure _
  | cons a l ih =>
    show Emits P (f a >>= fun _ => l.forM f)
    exact bind (hf a List.mem_cons_self) fun _ => ih fun b hb => hf b (List.mem_cons_of_mem _ hb)

end Flight.Emits

/-- The program, whatever it starts from, appends some effect that satisfies `P`. -/
def Flight.EmitsSome {α : Type} (P : Effect → Prop) (x : Flight α) : Prop :=
  ∀ env w, ∃ t, (x.run env w).2.trace = w.trace ++ t ∧ ∃ e ∈ t, P e

namespace Flight.EmitsSome

variable {α β : Type} {P Q : Effect → Prop}

theorem emit {e : Effect} (h : P e) : (Flight.emit e).EmitsSome P :=
  fun _ _ => ⟨[e], rfl, e, List.mem_singleton_self e, h⟩

/-- It emits it before its continuation runs. -/
theorem bind_left {x : Flight α} {f : α → Flight β} (hx : x.EmitsSome P)
    (hf : ∀ a, (f a).Emits Q) : (x >>= f).EmitsSome P := by
  intro env w
  obtain ⟨t, htrace, e, he, hPe⟩ := hx env w
  obtain ⟨u, hutrace, _⟩ := hf (x.run env w).1 env (x.run env w).2
  refine ⟨t ++ u, ?_, e, List.mem_append_left u he, hPe⟩
  rw [Flight.run_bind, hutrace, htrace, List.append_assoc]

/-- Its continuation emits it. -/
theorem bind_right {x : Flight α} {f : α → Flight β} (hx : x.Emits Q)
    (hf : ∀ a, (f a).EmitsSome P) : (x >>= f).EmitsSome P := by
  intro env w
  obtain ⟨t, htrace, _⟩ := hx env w
  obtain ⟨u, hutrace, e, he, hPe⟩ := hf (x.run env w).1 env (x.run env w).2
  refine ⟨t ++ u, ?_, e, List.mem_append_right t he, hPe⟩
  rw [Flight.run_bind, hutrace, htrace, List.append_assoc]

theorem when {c : Prop} [Decidable c] {x : Flight Unit} (hc : c) (hx : x.EmitsSome P) :
    (Flight.when c x).EmitsSome P := by
  rw [Flight.when, if_pos hc]
  exact hx

end Flight.EmitsSome

/-- The effect writes the persistent record. -/
def Effect.isWrite : Effect → Bool
  | .writePersistentData _ _ => true
  | _ => false

/-- Effects that do not write leave the record as it is. -/
theorem flashAfter_of_no_write {d : PersistentData} {t : List Effect}
    (h : ∀ e ∈ t, e.isWrite = false) : flashAfter d t = d := by
  induction t generalizing d with
  | nil => rfl
  | cons e t ih =>
    have hrest := ih (d := d) fun e' he => h e' (List.mem_cons_of_mem _ he)
    have he := h e List.mem_cons_self
    cases e with
    | writePersistentData u d' => simp [Effect.isWrite] at he
    | _ => exact hrest

/-- After an update, the record is the one it writes. -/
theorem persistent_update (u : Update) (env : Env) (w : World) :
    ((Flight.update u).run env w).2.persistent = u.record w.persistent := by
  rw [Flight.run_update, World.persistent, flashAfter_append]
  rfl

/-! ## Samples and simple actions -/

/-- `get_absolute_time`. -/
def getAbsoluteTime : Flight UInt64 := Flight.sample Env.clock

/-- `is_flex_panel_A_deployed`. -/
def isFlexPanelADeployed : Flight Bool := Flight.sample Env.panelA

/-- `is_flex_panel_B_deployed`. -/
def isFlexPanelBDeployed : Flight Bool := Flight.sample Env.panelB

/-- `is_rbf_pin_detected`. -/
def isRbfPinDetected : Flight Bool := Flight.sample Env.rbf

/-- `gpio_put`. -/
def gpioPut (pin : Pin) (level : Bool) : Flight Unit := Flight.emit (.gpioPut pin level)

/-- `absolute_time_diff_us(start, stop)`: a signed difference. -/
def absoluteTimeDiffUs (start stop : UInt64) : Int64 := (stop - start).toInt64

/-- `delayed_by_ms` of the Pico SDK: a time is never past the largest signed value. -/
def delayedByMs (t : UInt64) (ms : UInt32) : UInt64 :=
  let delayed := t + ms.toUInt64 * 1000
  if delayed.toInt64 < 0 then 0x7FFFFFFFFFFFFFFF else delayed

/-- `make_timeout_time_ms`. -/
def makeTimeoutTimeMs (ms : UInt32) : Flight UInt64 := do
  let now ← getAbsoluteTime
  return delayedByMs now ms

end Samwise
