import Samwise.Flight.Steps
import Samwise.Scheduler.Scheduler

/-!
# Samwise — what a task leaves alone

The scheduler keeps its own state in the slate and in the tasks: the current state and the time
it was entered, a pending override, the deadlines. `World.Routine O P` says that a program left
all of it alone, a valid override apart, and appended only effects that satisfy `P`. Every task
is routine; all but the burn-wire task are so with effects that touch neither the burn wires
nor flash.
-/

namespace Samwise

/-- The state is registered: `state_registry_get` finds it. -/
def StateId.Registered (id : StateId) : Prop := ∃ info, stateRegistryGet id = some info

/-- What `manual_override_state_id` may hold: nothing, or a state there is. -/
def StateId.Overrides (id : StateId) : Prop := id = .stateNone ∨ id.Registered

/-- The pins `burn_wire_init` sets up. -/
def Pin.isBurnWire : Pin → Bool
  | .samwiseBurnRelay | .samwiseEnabBurnA | .samwiseEnabBurnB => true
  | _ => false

/-- The effect leaves the burn wires and flash alone, and is no dereference of NULL. -/
def Effect.isQuiet : Effect → Bool
  | .gpioPut pin _ => !pin.isBurnWire
  | .writePersistentData _ _ => false
  | .nullDereference => false
  | _ => true

/-- From `w` to `w'` the scheduler's own state was left alone, an override aside that satisfies
`O`; a watchdog that was set up still is; and the effects satisfy `P`. -/
structure World.Routine (O : StateId → Prop) (P : Effect → Prop) (w w' : World) : Prop where
  currentStateId : w'.slate.currentStateId = w.slate.currentStateId
  enteredCurrentStateTime : w'.slate.enteredCurrentStateTime = w.slate.enteredCurrentStateTime
  nextDispatch : w'.nextDispatch = w.nextDispatch
  override : w'.slate.manualOverrideStateId = w.slate.manualOverrideStateId ∨
    O w'.slate.manualOverrideStateId
  watchdog : w.slate.watchdog.isInitialized = true → w'.slate.watchdog.isInitialized = true
  flash : w'.flash = w.flash
  samples : w.samples ≤ w'.samples
  trace : ∃ t, w'.trace = w.trace ++ t ∧ ∀ e ∈ t, P e

namespace World.Routine

variable {O O' : StateId → Prop} {P P' : Effect → Prop} {w w' w'' : World}

theorem refl (w : World) : World.Routine O P w w where
  currentStateId := rfl
  enteredCurrentStateTime := rfl
  nextDispatch := rfl
  override := Or.inl rfl
  watchdog := id
  flash := rfl
  samples := Nat.le_refl _
  trace := ⟨[], by simp, by simp⟩

theorem trans (h : World.Routine O P w w') (h' : World.Routine O P w' w'') :
    World.Routine O P w w'' where
  currentStateId := h'.currentStateId.trans h.currentStateId
  enteredCurrentStateTime := h'.enteredCurrentStateTime.trans h.enteredCurrentStateTime
  nextDispatch := h'.nextDispatch.trans h.nextDispatch
  override := by
    rcases h'.override with hsame | hset
    · rw [hsame]
      exact h.override
    · exact Or.inr hset
  watchdog := h'.watchdog ∘ h.watchdog
  flash := h'.flash.trans h.flash
  samples := Nat.le_trans h.samples h'.samples
  trace := by
    obtain ⟨t, ht, hP⟩ := h.trace
    obtain ⟨t', ht', hP'⟩ := h'.trace
    refine ⟨t ++ t', ?_, fun e he => ?_⟩
    · rw [ht', ht, List.append_assoc]
    · rcases List.mem_append.mp he with he | he
      · exact hP e he
      · exact hP' e he

instance : IsPreorder World (World.Routine O P) where
  refl := refl
  trans _ _ _ := trans

theorem mono (hO : ∀ id, O id → O' id) (hP : ∀ e, P e → P' e) (h : World.Routine O P w w') :
    World.Routine O' P' w w' :=
  { h with
    override := h.override.imp_right (hO _)
    trace := by
      obtain ⟨t, ht, he⟩ := h.trace
      exact ⟨t, ht, fun e hmem => hP e (he e hmem)⟩ }

end World.Routine

/-! ## The primitive actions -/

namespace Flight.Steps

variable {O : StateId → Prop} {P : Effect → Prop}

theorem emit {e : Effect} (h : P e) : (Flight.emit e).Steps (World.Routine O P) :=
  fun _ w => { World.Routine.refl (O := O) (P := P) w with trace := ⟨[e], rfl, by simpa using h⟩ }

theorem sample {α : Type} (f : Env → Nat → α) : (Flight.sample f).Steps (World.Routine O P) :=
  fun _ w => { World.Routine.refl (O := O) (P := P) w with samples := Nat.le_succ _ }

/-- A program that only reads. -/
theorem read {α : Type} {x : Flight α} (h : ∀ env w, (x.run env w).2 = w) :
    x.Steps (World.Routine O P) := by
  intro env w
  rw [h env w]
  exact World.Routine.refl w

/-- Assigning to fields of the slate: the scheduler's are left, an override may be set. -/
theorem modifySlate {f : Slate → Slate}
    (h : ∀ s, (f s).currentStateId = s.currentStateId ∧
      (f s).enteredCurrentStateTime = s.enteredCurrentStateTime ∧
      ((f s).manualOverrideStateId = s.manualOverrideStateId ∨ O (f s).manualOverrideStateId) ∧
      (s.watchdog.isInitialized = true → (f s).watchdog.isInitialized = true)) :
    (Flight.modifySlate f).Steps (World.Routine O P) :=
  fun _ w => { World.Routine.refl (O := O) (P := P) w with
    currentStateId := (h w.slate).1
    enteredCurrentStateTime := (h w.slate).2.1
    override := (h w.slate).2.2.1
    watchdog := (h w.slate).2.2.2 }

/-- Assigning to other fields only. -/
theorem modifyOther {f : Slate → Slate}
    (h : ∀ s, (f s).currentStateId = s.currentStateId ∧
      (f s).enteredCurrentStateTime = s.enteredCurrentStateTime ∧
      (f s).manualOverrideStateId = s.manualOverrideStateId ∧
      (s.watchdog.isInitialized = true → (f s).watchdog.isInitialized = true)) :
    (Flight.modifySlate f).Steps (World.Routine O P) :=
  .modifySlate fun s => ⟨(h s).1, (h s).2.1, Or.inl (h s).2.2.1, (h s).2.2.2⟩

theorem setLastSeenMsgId (id : UInt32) :
    (Flight.setLastSeenMsgId id).Steps (World.Routine O P) :=
  fun _ w => { World.Routine.refl (O := O) (P := P) w with }

theorem update {u : Update} (h : ∀ d, P (.writePersistentData u d)) :
    (Flight.update u).Steps (World.Routine O P) :=
  fun _ w =>
    { World.Routine.refl (O := O) (P := P) w with trace := ⟨[_], rfl, by simpa using h _⟩ }

end Flight.Steps

/-! ## The tasks -/

theorem overrideState_overrides (payload : List UInt8) : (overrideState payload).Overrides := by
  unfold overrideState
  split_ifs
  -- the four names, and the rest
  · exact Or.inr ⟨runningState, rfl⟩
  · exact Or.inr ⟨initState, rfl⟩
  · exact Or.inr ⟨burnWireState, rfl⟩
  · exact Or.inr ⟨burnWireResetState, rfl⟩
  · exact Or.inl rfl

section Tasks

variable {O : StateId → Prop}

/-- Quiet effects dereference no NULL pointer. -/
theorem Flight.Steps.of_quiet {α : Type} {x : Flight α}
    (hx : x.Steps (World.Routine O fun e => e.isQuiet = true)) :
    x.Steps (World.Routine O (· ≠ .nullDereference)) := by
  refine hx.mono fun _ _ => World.Routine.mono (fun _ => id) ?_
  rintro e hquiet rfl
  cases hquiet

theorem watchdogInit_routine : watchdogInit.Steps (World.Routine O fun e => e.isQuiet = true) := by
  refine .bind (.emit rfl) fun _ => .bind (.sample _) fun now => ?_
  exact .modifyOther fun _ => ⟨rfl, rfl, rfl, fun _ => rfl⟩

theorem watchdogFeed_routine : watchdogFeed.Steps (World.Routine O fun e => e.isQuiet = true) := by
  refine .bind (.read fun _ _ => rfl) fun slate => .bind (.when fun _ => watchdogInit_routine) ?_
  refine fun _ => .bind (.read fun _ _ => rfl) fun slate => .bind (.sample _) fun now => ?_
  refine .ite (fun _ => ?_) fun _ => .ite (fun _ => ?_) fun _ => .pure _
  · refine .bind (.emit rfl) fun _ => .bind (.sample _) fun _ => ?_
    exact .modifyOther fun _ => ⟨rfl, rfl, rfl, id⟩
  · refine .bind (.emit rfl) fun _ => .bind (.sample _) fun _ => ?_
    exact .bind (.modifyOther fun _ => ⟨rfl, rfl, rfl, id⟩) fun _ => .emit rfl

theorem safeSleepMs_routine (ms : Nat) :
    (safeSleepMs ms).Steps (World.Routine O fun e => e.isQuiet = true) := by
  suffices hloop : ∀ rounds ms,
      (safeSleepLoop rounds ms).Steps (World.Routine O fun e => e.isQuiet = true) from hloop ms ms
  intro rounds
  induction rounds with
  | zero => exact fun ms => .emit rfl
  | succ rounds ih =>
    intro ms
    refine .ite (fun _ => ?_) fun _ => .emit rfl
    exact .bind watchdogFeed_routine fun _ => .bind (.emit rfl) fun _ => ih _

/-- A command leaves the scheduler's state alone; the override it may set is a valid one. -/
theorem dispatchCommand_routine (packet : Packet) :
    (dispatchCommand packet).Steps (World.Routine StateId.Overrides fun e => e.isQuiet = true) := by
  refine .bind (.modifyOther fun _ => ⟨rfl, rfl, rfl, id⟩) fun _ => ?_
  cases Command.ofByte packet.data[0] with
  | none => exact .pure _
  | some command =>
    cases command with
    | ping =>
      refine .bind (.sample _) fun stack => .bind (.read fun _ _ => rfl) fun slate => ?_
      exact .modifyOther fun _ => ⟨rfl, rfl, rfl, id⟩
    | payloadExec =>
      refine .bind (.sample _) fun stack => .bind (.read fun _ _ => rfl) fun slate => ?_
      exact .modifyOther fun _ => ⟨rfl, rfl, rfl, id⟩
    | payloadTurnOn =>
      refine .bind (.emit rfl) fun _ => .bind (.modifyOther fun _ => ⟨rfl, rfl, rfl, id⟩) fun _ => ?_
      exact .bind (.sample _) fun now => .modifyOther fun _ => ⟨rfl, rfl, rfl, id⟩
    | payloadTurnOff =>
      refine .bind (.read fun _ _ => rfl) fun slate => .ite (fun _ => .pure _) fun _ => ?_
      refine .bind (.emit rfl) fun _ => .bind (.emit rfl) fun _ => ?_
      exact .modifyOther fun _ => ⟨rfl, rfl, rfl, id⟩
    | manualStateOverride =>
      exact .modifySlate fun _ => ⟨rfl, rfl, Or.inr (overrideState_overrides _), id⟩
    | adcsExec => exact .emit rfl
    | adcsPacket => exact .pure _

theorem commandTaskDispatch_routine (hmac : Hmac) (psk : Option PacketHmacPsk) :
    (commandTaskDispatch hmac psk).Steps (World.Routine StateId.Overrides fun e => e.isQuiet = true) := by
  refine .bind (.read fun _ _ => rfl) fun slate => ?_
  rcases slate.rxQueue.tryRemove with ⟨_ | packet, rxQueue⟩
  · exact .pure _
  · refine .bind (.modifyOther fun _ => ⟨rfl, rfl, rfl, id⟩) fun _ => ?_
    refine .bind (.read fun _ _ => rfl) fun lastSeenMsgId => ?_
    refine .bind (.setLastSeenMsgId _) fun _ => .when fun _ => ?_
    exact dispatchCommand_routine packet

/-- Every task but the burn wire's leaves the burn wires and flash alone as well. -/
theorem taskDispatch_quiet {hmac : Hmac} {psk : Option PacketHmacPsk} {task : Task}
    (h : task ≠ .burnWireTask) :
    (task.taskDispatch hmac psk).Steps (World.Routine StateId.Overrides fun e => e.isQuiet = true) := by
  cases task with
  | printTask => exact .pure _
  | watchdogTask => exact watchdogFeed_routine
  | beaconTask => exact .bind (.sample _) fun _ => .modifyOther fun _ => ⟨rfl, rfl, rfl, id⟩
  | telemetryTask =>
    refine .bind (.sample _) fun _ => .bind (.sample _) fun _ => ?_
    exact .modifyOther fun _ => ⟨rfl, rfl, rfl, id⟩
  | adcsTask => exact .bind (.emit rfl) fun _ => .bind (.emit rfl) fun _ => .emit rfl
  | radioTask =>
    show radioTaskDispatch.Steps _
    unfold radioTaskDispatch
    exact .modifyOther fun _ => ⟨rfl, rfl, rfl, id⟩
  | commandTask => exact commandTaskDispatch_routine hmac psk
  | burnWireTask => exact absurd rfl h

theorem burnWireActivate_routine (burnMs : Nat) (a b : Bool) :
    (burnWireActivate burnMs a b).Steps (World.Routine O (· ≠ .nullDereference)) := by
  refine .bind (.emit (by simp)) fun _ => .bind (.when fun _ => .emit (by simp)) fun _ => ?_
  refine .bind (.when fun _ => .emit (by simp)) fun _ => ?_
  refine .bind (safeSleepMs_routine _).of_quiet fun _ => .bind (.emit (by simp)) fun _ => ?_
  refine .bind (.emit (by simp)) fun _ => .bind (.emit (by simp)) fun _ => ?_
  exact (safeSleepMs_routine _).of_quiet

theorem burnWireTaskDispatch_routine :
    burnWireTaskDispatch.Steps (World.Routine O (· ≠ .nullDereference)) := by
  refine .bind (.sample _) fun panelA => .bind (.sample _) fun panelB => ?_
  refine .ite (fun _ => .pure _) fun _ => .bind (.read fun _ _ => rfl) fun attempts => ?_
  refine .ite (fun _ => .pure _) fun _ => .bind ?_ fun _ => ?_
  · refine .bind (safeSleepMs_routine _).of_quiet fun _ => ?_
    refine .bind (.when fun _ => burnWireActivate_routine _ _ _) fun _ => ?_
    refine .bind (.when fun _ => burnWireActivate_routine _ _ _) fun _ => ?_
    exact (safeSleepMs_routine _).of_quiet
  · exact .bind (.update (by simp)) fun _ => .pure _

/-- **Every task is routine.** -/
theorem taskDispatch_routine (hmac : Hmac) (psk : Option PacketHmacPsk) (task : Task) :
    (task.taskDispatch hmac psk).Steps (World.Routine StateId.Overrides (· ≠ .nullDereference)) := by
  by_cases htask : task = .burnWireTask
  · subst htask
    exact burnWireTaskDispatch_routine
  · exact (taskDispatch_quiet htask).of_quiet

end Tasks

end Samwise
