import Mathlib.Order.Monotone.Basic
import Samwise.Scheduler.QueueUse
import Samwise.Scheduler.Routine

/-!
# Samwise — the scheduler over whole runs

Runs of `sched_init` and `sched_dispatch` with interrupts anywhere, under one environment whose
clock never goes back. The invariant `Scheduled` is about the scheduler's own state: between two
calls the current state is registered and no override is pending, in a call the state it began
with is still current and an override is a valid one, and every deadline is a time of the SDK.
Which task was dispatched when is put out step by step (`dispatches`), and ordered along the run.
-/

namespace Samwise

open Run

/-! ## Time -/

/-- The clock never goes back, and keeps to the signed range `absolute_time_t` has. -/
structure Env.ClockMonotone (env : Env) : Prop where
  monotone : ∀ n, (env.clock n).toNat ≤ (env.clock (n + 1)).toNat
  signed : ∀ n, (env.clock n).toNat < 2 ^ 63

/-- A time read as the signed number `absolute_time_diff_us` makes of it. -/
theorem toInt_toInt64 (t : UInt64) :
    t.toInt64.toInt = if t.toNat < 2 ^ 63 then (t.toNat : Int) else t.toNat - 2 ^ 64 := by
  show t.toBitVec.toInt = _
  rw [BitVec.toInt_eq_toNat_cond]
  have hnat : t.toBitVec.toNat = t.toNat := rfl
  rw [hnat]
  by_cases h : t.toNat < 2 ^ 63
  · rw [if_pos h, if_pos (by omega)]
  · rw [if_neg h, if_neg (by omega)]
    rfl

/-- Times in the signed range are compared as numbers. -/
theorem absoluteTimeDiffUs_pos_iff {start stop : UInt64} (hstart : start.toNat < 2 ^ 63)
    (hstop : stop.toNat < 2 ^ 63) :
    absoluteTimeDiffUs start stop > 0 ↔ start.toNat < stop.toNat := by
  have hdiff := UInt64.toNat_sub stop start
  rw [absoluteTimeDiffUs, gt_iff_lt, Int64.lt_iff_toInt_lt, toInt_toInt64, Int64.toInt_zero]
  by_cases h : start.toNat < stop.toNat
  · have hlt : (stop - start).toNat = stop.toNat - start.toNat := by omega
    rw [hlt, if_pos (by omega)]
    omega
  · by_cases heq : start.toNat = stop.toNat
    · have hzero : (stop - start).toNat = 0 := by omega
      rw [hzero]
      simp [heq]
    · have hwrap : (stop - start).toNat = 2 ^ 64 - start.toNat + stop.toNat := by omega
      rw [hwrap, if_neg (by omega)]
      omega

/-- A delayed time, in the signed range again. -/
theorem toNat_delayedByMs {t : UInt64} (ms : UInt32) (ht : t.toNat < 2 ^ 63) :
    (delayedByMs t ms).toNat = min (t.toNat + ms.toNat * 1000) (2 ^ 63 - 1) := by
  have hms : ms.toNat < 2 ^ 32 := ms.toNat_lt
  have hsum : (t + ms.toUInt64 * 1000).toNat = t.toNat + ms.toNat * 1000 := by
    rw [UInt64.toNat_add, UInt64.toNat_mul, UInt32.toNat_toUInt64]
    have hthousand : (1000 : UInt64).toNat = 1000 := rfl
    rw [hthousand]
    omega
  have hneg : (t + ms.toUInt64 * 1000).toInt64 < 0 ↔ 2 ^ 63 ≤ t.toNat + ms.toNat * 1000 := by
    rw [Int64.lt_iff_toInt_lt, toInt_toInt64, Int64.toInt_zero, hsum]
    split <;> omega
  unfold delayedByMs
  by_cases h : 2 ^ 63 ≤ t.toNat + ms.toNat * 1000
  · rw [if_pos (hneg.mpr h), Nat.min_eq_right (by omega)]
    rfl
  · rw [if_neg (fun h' => h (hneg.mp h')), hsum, Nat.min_eq_left (by omega)]

/-- A time past a deadline is more than the delay past what it was set from: a deadline at the
end of time is never past. -/
theorem lt_of_delayedByMs_lt {t u : UInt64} {ms : UInt32} (ht : t.toNat < 2 ^ 63)
    (hu : u.toNat < 2 ^ 63) (h : (delayedByMs t ms).toNat < u.toNat) :
    t.toNat + ms.toNat * 1000 < u.toNat := by
  rw [toNat_delayedByMs ms ht] at h
  omega

/-! ## What the pieces do -/

section Pieces

variable (env : Env) (w : World)

theorem isDue_run (task : Task) :
    (isDue task).run env w =
      if absoluteTimeDiffUs (w.nextDispatch task) (env.clock w.samples) > 0 then
        (true, { w with
          samples := w.samples + 2
          nextDispatch := fun task' =>
            if task' = task then delayedByMs (env.clock (w.samples + 1)) task.dispatchPeriodMs
            else w.nextDispatch task' })
      else (false, { w with samples := w.samples + 1 }) := by
  by_cases hdue : absoluteTimeDiffUs (w.nextDispatch task) (env.clock w.samples) > 0
  · simp [isDue, getAbsoluteTime, makeTimeoutTimeMs, hdue]
  · simp [isDue, getAbsoluteTime, hdue]

/-- The loop of `sched_init` over the deadlines. Induction on the list, a task that comes again
being set again. -/
theorem setDeadlines_run (tasks : List Task) (w : World) :
    let w' := ((tasks.forM fun task => do
      let next ← makeTimeoutTimeMs task.dispatchPeriodMs
      Flight.setNextDispatch task next : Flight Unit).run env w).2
    (∀ task ∈ tasks, ∃ n < w'.samples, w'.nextDispatch task
        = delayedByMs (env.clock n) task.dispatchPeriodMs) ∧
      (∀ task ∉ tasks, w'.nextDispatch task = w.nextDispatch task) ∧
      w'.samples = w.samples + tasks.length ∧ w'.trace = w.trace := by
  induction tasks generalizing w with
  | nil => exact ⟨by simp, fun _ _ => rfl, rfl, rfl⟩
  | cons task tasks ih =>
    obtain ⟨hset, hkeep, hsamples, htrace⟩ := ih { w with
      samples := w.samples + 1
      nextDispatch := fun task' =>
        if task' = task then delayedByMs (env.clock w.samples) task.dispatchPeriodMs
        else w.nextDispatch task' }
    refine ⟨fun task' htask' => ?_, fun task' htask' => ?_, ?_, htrace⟩
    · by_cases hmem : task' ∈ tasks
      · exact hset task' hmem
      · obtain rfl : task' = task := by simpa [hmem] using htask'
        refine ⟨w.samples, ?_, (hkeep task' hmem).trans (if_pos rfl)⟩
        exact hsamples.symm ▸ Nat.lt_of_lt_of_le (Nat.lt_succ_self _) (Nat.le_add_right _ _)
    · rw [List.mem_cons, not_or] at htask'
      exact (hkeep task' htask'.2).trans (if_neg htask'.1)
    · rw [List.length_cons, Nat.add_comm tasks.length 1, ← Nat.add_assoc]
      exact hsamples

/-- Behind `sched_init`: the init state, no override, and every deadline a period after some
reading. -/
theorem schedInitRest_run :
    let w' := (schedInitRest.run env w).2
    w'.slate.currentStateId = .stateInit ∧ w'.slate.manualOverrideStateId = .stateNone ∧
      (∀ task, ∃ n < w'.samples,
        w'.nextDispatch task = delayedByMs (env.clock n) task.dispatchPeriodMs) ∧
      (∃ n < w'.samples, w'.slate.enteredCurrentStateTime = env.clock n) ∧ w'.trace = w.trace := by
  obtain ⟨hset, _, _, htrace⟩ := setDeadlines_run env allTasks w
  unfold schedInitRest
  simp only [Flight.run_bind]
  refine ⟨rfl, rfl, fun task => ?_, ⟨_, Nat.lt_succ_self _, rfl⟩, htrace⟩
  obtain ⟨n, hn, hdeadline⟩ := hset task (by cases task <;> decide)
  exact ⟨n, Nat.lt_succ_of_lt hn, hdeadline⟩

/-- The transition functions decide for a registered state and set no override. -/
theorem getNextState_run {id : StateId} {info : SchedState}
    (h : stateRegistryGet id = some info) :
    (info.getNextState.run env w).1.Registered ∧
      World.Routine (fun _ => False) (· ≠ .nullDereference) w (info.getNextState.run env w).2 := by
  cases id with
  | stateInit =>
    obtain rfl := Option.some.inj h
    constructor
    · show StateId.Registered (if env.rbf w.samples = true then .stateInit else .stateBurnWire)
      split
      · exact ⟨_, rfl⟩
      · exact ⟨_, rfl⟩
    · have hsteps : initGetNextState.Steps
          (World.Routine (fun _ => False) (· ≠ .nullDereference)) :=
        .bind (.sample _) fun _ => .pure _
      exact hsteps env w
  | stateRunning =>
    obtain rfl := Option.some.inj h
    exact ⟨⟨_, rfl⟩, .refl w⟩
  | stateBurnWire =>
    obtain rfl := Option.some.inj h
    constructor
    · show StateId.Registered (burnWireGetNextState.run env w).1
      simp only [burnWireGetNextState, Flight.run_bind, Flight.run_ite]
      -- deployed, out of attempts, or another round
      split_ifs
      · exact ⟨_, rfl⟩
      · exact ⟨_, rfl⟩
      · exact ⟨_, rfl⟩
    · have hsteps : burnWireGetNextState.Steps
          (World.Routine (fun _ => False) (· ≠ .nullDereference)) := by
        refine .bind (.sample _) fun panelA => .bind (.sample _) fun panelB => ?_
        refine .bind (.modifyOther fun _ => ⟨rfl, rfl, rfl, id⟩) fun _ => .ite (fun _ => .pure _) ?_
        refine fun _ => .bind (.read fun _ _ => rfl) fun attempts => ?_
        exact .ite (fun _ => .pure _) fun _ => .pure _
      exact hsteps env w
  | stateBurnWireReset =>
    obtain rfl := Option.some.inj h
    refine ⟨⟨_, rfl⟩, ?_⟩
    have hsteps : burnWireResetGetNextState.Steps
        (World.Routine (fun _ => False) (· ≠ .nullDereference)) :=
      .bind (.update (by simp)) fun _ => .pure _
    exact hsteps env w
  | stateNone => cases h
  | stateBringup => cases h

/-- What the end of a call does to the scheduler's state. -/
structure World.Transition (w w' : World) : Prop where
  registered : w'.slate.currentStateId.Registered
  cleared : w'.slate.manualOverrideStateId = .stateNone
  applied : w.slate.manualOverrideStateId ≠ .stateNone →
    w'.slate.currentStateId = w.slate.manualOverrideStateId
  stays : w'.slate.currentStateId = w.slate.currentStateId →
    w'.slate.enteredCurrentStateTime = w.slate.enteredCurrentStateTime
  enters : w'.slate.currentStateId ≠ w.slate.currentStateId → ∃ n, w.samples ≤ n ∧
    w'.samples = n + 1 ∧ w'.slate.enteredCurrentStateTime = env.clock n
  nextDispatch : w'.nextDispatch = w.nextDispatch
  watchdog : w.slate.watchdog.isInitialized = true → w'.slate.watchdog.isInitialized = true
  samples : w.samples ≤ w'.samples
  trace : ∃ t, w'.trace = w.trace ++ t ∧ .nullDereference ∉ t

variable {w}

/-- The choice: a registered state, and no override is left. -/
theorem chooseNextState_run {info : SchedState}
    (hinfo : stateRegistryGet w.slate.currentStateId = some info)
    (hoverride : w.slate.manualOverrideStateId.Overrides) :
    let chosen := (chooseNextState info).run env w
    chosen.1.Registered ∧ chosen.2.slate.manualOverrideStateId = .stateNone ∧
      (w.slate.manualOverrideStateId ≠ .stateNone →
        chosen.1 = w.slate.manualOverrideStateId) ∧
      World.Routine (· = .stateNone) (· ≠ .nullDereference) w chosen.2 := by
  intro chosen
  have hchosen : chosen = (chooseNextState info).run env w := rfl
  rw [chooseNextState, Flight.run_bind, Flight.run_slate, Flight.run_ite] at hchosen
  by_cases hset : w.slate.manualOverrideStateId ≠ .stateNone
  · rw [if_pos hset] at hchosen
    have hregistered : w.slate.manualOverrideStateId.Registered := hoverride.resolve_left hset
    obtain ⟨info', hinfo'⟩ := hregistered
    -- the look-up for the name finds the state
    simp only [Flight.run_bind, Flight.run_when, hinfo', Option.isNone_some, Bool.false_eq_true,
      if_false, Flight.run_modifySlate, Flight.run_pure] at hchosen
    rw [hchosen]
    refine ⟨⟨info', hinfo'⟩, rfl, fun _ => rfl, ?_⟩
    exact { World.Routine.refl (O := fun id => id = .stateNone) w with override := Or.inr rfl }
  · rw [if_neg hset] at hchosen
    rw [hchosen]
    obtain ⟨hregistered, hroutine⟩ := getNextState_run env w hinfo
    refine ⟨hregistered, ?_, fun h => absurd h hset, hroutine.mono (fun _ => False.elim) fun _ => id⟩
    rw [hroutine.override.resolve_right id]
    exact not_not.mp hset

theorem enterState_run {next : StateId} (hnext : next.Registered) :
    ((enterState next).run env w).2 =
      if next ≠ w.slate.currentStateId then { w with
        samples := w.samples + 1
        slate := { w.slate with
          currentStateId := next
          enteredCurrentStateTime := env.clock w.samples
          timeInCurrentStateMs := 0 } }
      else w := by
  obtain ⟨info, hinfo⟩ := hnext
  rw [enterState, Flight.run_bind, Flight.run_slate, Flight.run_when]
  by_cases hne : next ≠ w.slate.currentStateId
  · rw [if_pos hne, if_pos hne]
    simp [hinfo, getAbsoluteTime]
  · rw [if_neg hne, if_neg hne]

/-- The end of a call, behind its rounds. -/
theorem schedDispatchRest_run {info : SchedState}
    (hinfo : stateRegistryGet w.slate.currentStateId = some info)
    (hoverride : w.slate.manualOverrideStateId.Overrides) :
    w.Transition env ((schedDispatchRest info).run env w).2 := by
  -- the time in the state is noted first
  set w₁ : World := { w with
    samples := w.samples + 1
    slate := { w.slate with timeInCurrentStateMs :=
      (absoluteTimeDiffUs w.slate.enteredCurrentStateTime (env.clock w.samples) / 1000).toUInt64 } }
    with hw₁
  obtain ⟨hregistered, hcleared, happlied, hroutine⟩ :=
    chooseNextState_run (w := w₁) env hinfo hoverride
  set chosen := (chooseNextState info).run env w₁ with hchosen
  have hrest : ((schedDispatchRest info).run env w).2 = ((enterState chosen.1).run env chosen.2).2 :=
    rfl
  rw [hrest, enterState_run env hregistered]
  obtain ⟨t, htrace, ht⟩ := hroutine.trace
  have hsamples : w.samples ≤ chosen.2.samples := Nat.le_of_succ_le hroutine.samples
  have hnull : Effect.nullDereference ∉ t := fun hmem => ht _ hmem rfl
  by_cases hne : chosen.1 ≠ chosen.2.slate.currentStateId
  · rw [if_pos hne]
    exact
      { registered := hregistered
        cleared := hcleared
        applied := happlied
        stays := fun hsame => absurd (hsame.trans hroutine.currentStateId.symm) hne
        enters := fun _ => ⟨_, hsamples, rfl, rfl⟩
        nextDispatch := hroutine.nextDispatch
        watchdog := hroutine.watchdog
        samples := Nat.le_succ_of_le hsamples
        trace := ⟨t, htrace, hnull⟩ }
  · rw [if_neg hne]
    have hsame : chosen.1 = chosen.2.slate.currentStateId := not_not.mp hne
    have hcurrent : chosen.2.slate.currentStateId = w.slate.currentStateId := hroutine.currentStateId
    exact
      { registered := hsame ▸ hregistered
        cleared := hcleared
        applied := fun hset => hsame.symm.trans (happlied hset)
        stays := fun _ => hroutine.enteredCurrentStateTime
        enters := fun hmoved => absurd hcurrent hmoved
        nextDispatch := hroutine.nextDispatch
        watchdog := hroutine.watchdog
        samples := hsamples
        trace := ⟨t, htrace, hnull⟩ }

/-- It looks at the clock first. -/
theorem schedDispatchRest_samples {info : SchedState}
    (hinfo : stateRegistryGet w.slate.currentStateId = some info)
    (hoverride : w.slate.manualOverrideStateId.Overrides) :
    w.samples < ((schedDispatchRest info).run env w).2.samples := by
  set w₁ : World := { w with
    samples := w.samples + 1
    slate := { w.slate with timeInCurrentStateMs :=
      (absoluteTimeDiffUs w.slate.enteredCurrentStateTime (env.clock w.samples) / 1000).toUInt64 } }
  obtain ⟨hregistered, _, _, hroutine⟩ := chooseNextState_run (w := w₁) env hinfo hoverride
  have hrest : ((schedDispatchRest info).run env w).2
      = ((enterState ((chooseNextState info).run env w₁).1).run env
        ((chooseNextState info).run env w₁).2).2 := rfl
  rw [hrest, enterState_run env hregistered]
  split
  · exact Nat.lt_succ_of_lt hroutine.samples
  · exact hroutine.samples

end Pieces

/-! ## The invariant -/

section Runs

variable (hmac : Hmac) (psk : Option PacketHmacPsk) (env : Env)

/-- Whatever `main` samples in the event it samples of `env`. -/
def RunEvent.Samples : RunEvent → Prop
  | .main env' _ => env' = env
  | _ => True

/-- The scheduler's own state, but for the two state ids: deadlines the SDK can hold, and the
time the state was entered at some reading. -/
structure World.Timed (w : World) : Prop where
  deadlines : ∀ task, (w.nextDispatch task).toNat < 2 ^ 63
  entered : ∃ n < w.samples, w.slate.enteredCurrentStateTime = env.clock n

/-- Between two calls. -/
structure World.Settled (w : World) : Prop extends w.Timed env where
  registered : w.slate.currentStateId.Registered
  cleared : w.slate.manualOverrideStateId = .stateNone

/-- In a call that began in the state `info`. -/
structure World.InCall (info : SchedState) (w : World) : Prop extends w.Timed env where
  current : stateRegistryGet w.slate.currentStateId = some info
  override : w.slate.manualOverrideStateId.Overrides

/-- What is kept where `main` stands. -/
def Phase.Fits (w : World) : Phase → Prop
  | .starting _ => True
  | .looping => w.Settled env
  | .dispatching info _ => w.InCall env info
  | .transmitting info _ => w.InCall env info

/-- The invariant of a run that began with the effects `before` done. -/
structure Running.Scheduled (before : List Effect) (s : Running) : Prop where
  trace : ∃ t, s.world.trace = before ++ t ∧ .nullDereference ∉ t
  fits : s.phase.Fits env s.world

variable {env} {before t : List Effect} {w w' : World} {info : SchedState} {O : StateId → Prop}

theorem Phase.Fits.timed_of_started {phase : Phase} (h : phase.Fits env w)
    (hstarted : ∀ rest, phase ≠ .starting rest) : w.Timed env := by
  cases phase with
  | starting rest => exact absurd rfl (hstarted rest)
  | looping => exact World.Settled.toTimed h
  | dispatching info rest => exact World.InCall.toTimed h
  | transmitting info rest => exact World.InCall.toTimed h

theorem Phase.Fits.registered_of_started {phase : Phase} (h : phase.Fits env w)
    (hstarted : ∀ rest, phase ≠ .starting rest) : w.slate.currentStateId.Registered := by
  cases phase with
  | starting rest => exact absurd rfl (hstarted rest)
  | looping => exact World.Settled.registered h
  | dispatching info rest => exact ⟨info, World.InCall.current h⟩
  | transmitting info rest => exact ⟨info, World.InCall.current h⟩

theorem World.Timed.of_routine (hw : w.Timed env)
    (h : World.Routine O (· ≠ .nullDereference) w w') : w'.Timed env where
  deadlines := by
    rw [h.nextDispatch]
    exact hw.deadlines
  entered := by
    obtain ⟨n, hn, hentered⟩ := hw.entered
    exact ⟨n, Nat.lt_of_lt_of_le hn h.samples, h.enteredCurrentStateTime.trans hentered⟩

theorem World.InCall.of_routine (hw : w.InCall env info) (hO : ∀ id, O id → id.Overrides)
    (h : World.Routine O (· ≠ .nullDereference) w w') : w'.InCall env info where
  toTimed := hw.toTimed.of_routine h
  current := by
    rw [h.currentStateId]
    exact hw.current
  override := by
    rcases h.override with hsame | hset
    · rw [hsame]
      exact hw.override
    · exact hO _ hset

theorem World.Settled.of_routine (hw : w.Settled env)
    (h : World.Routine (fun _ => False) (· ≠ .nullDereference) w w') : w'.Settled env where
  toTimed := hw.toTimed.of_routine h
  registered := by
    rw [h.currentStateId]
    exact hw.registered
  cleared := by
    rw [h.override.resolve_right id]
    exact hw.cleared

/-- The effects of a routine program join those before. -/
theorem trace_of_routine (hw : ∃ t, w.trace = before ++ t ∧ .nullDereference ∉ t)
    (h : World.Routine O (· ≠ .nullDereference) w w') :
    ∃ t, w'.trace = before ++ t ∧ .nullDereference ∉ t := by
  obtain ⟨t, ht, hnull⟩ := hw
  obtain ⟨u, hu, hP⟩ := h.trace
  refine ⟨t ++ u, by rw [hu, ht, List.append_assoc], fun hmem => ?_⟩
  rcases List.mem_append.mp hmem with hmem | hmem
  · exact hnull hmem
  · exact hP _ hmem rfl

/-- The look at a deadline, whatever it finds. -/
theorem World.InCall.isDue (hclock : env.ClockMonotone) (hw : w.InCall env info) (task : Task) :
    ((isDue task).run env w).2.InCall env info ∧
      ((Samwise.isDue task).run env w).2.trace = w.trace := by
  rw [isDue_run]
  obtain ⟨n, hn, hentered⟩ := hw.entered
  split
  · refine ⟨⟨⟨fun task' => ?_, ⟨n, Nat.lt_succ_of_lt (Nat.lt_succ_of_lt hn), hentered⟩⟩,
      hw.current, hw.override⟩, rfl⟩
    show (if task' = task then _ else _ : UInt64).toNat < _
    split
    · rw [toNat_delayedByMs _ (hclock.signed _)]
      omega
    · exact hw.deadlines task'
  · exact ⟨⟨⟨hw.deadlines, ⟨n, Nat.lt_succ_of_lt hn, hentered⟩⟩, hw.current, hw.override⟩, rfl⟩

/-- `sched_init` ends between two calls. -/
theorem schedInitRest_settled (hclock : env.ClockMonotone) (w : World) :
    (schedInitRest.run env w).2.Settled env ∧ (schedInitRest.run env w).2.trace = w.trace := by
  obtain ⟨hcurrent, hnone, hdeadlines, hentered, hsame⟩ := schedInitRest_run env w
  generalize (schedInitRest.run env w).2 = w' at *
  refine ⟨⟨⟨fun task => ?_, hentered⟩, ⟨initState, ?_⟩, hnone⟩, hsame⟩
  · obtain ⟨n, _, hn⟩ := hdeadlines task
    rw [hn, toNat_delayedByMs _ (hclock.signed _)]
    omega
  · rw [hcurrent]
    rfl

variable {hmac psk} {s s' : Running} {polls : Nat}

/-- A round, with or without its dispatch. -/
theorem taskRound_scheduled (hclock : env.ClockMonotone) {task : Task} {rest : List Task}
    (htrace : ∃ t, s.world.trace = before ++ t ∧ .nullDereference ∉ t)
    (hs : s.world.InCall env info) :
    (taskRound hmac psk env polls info task rest s).Scheduled env before := by
  obtain ⟨hdue, hsame⟩ := hs.isDue hclock task
  rw [← hsame] at htrace
  unfold taskRound
  dsimp only
  split
  · split
    · exact ⟨htrace, hdue⟩
    · have hroutine := taskDispatch_routine hmac psk task env ((isDue task).run env s.world).2
      exact ⟨trace_of_routine htrace hroutine, hdue.of_routine (fun _ => id) hroutine⟩
  · exact ⟨htrace, hdue⟩

/-- **A piece of `main` keeps the invariant.** -/
theorem mainPiece_scheduled (hclock : env.ClockMonotone) (hs : s.Scheduled env before) :
    (mainPiece hmac psk env polls s).Scheduled env before := by
  obtain ⟨htrace, hfits⟩ := hs
  unfold mainPiece
  cases hphase : s.phase with
  | starting rest =>
    cases rest with
    | nil =>
      obtain ⟨hsettled, hsame⟩ := schedInitRest_settled hclock s.world
      show Running.Scheduled env before
        { s with world := (schedInitRest.run env s.world).2, phase := .looping }
      generalize (schedInitRest.run env s.world).2 = w at hsettled hsame
      rw [← hsame] at htrace
      exact ⟨htrace, hsettled⟩
    | cons task rest =>
      have hsame : (task.taskInit.run env s.world).2.trace = s.world.trace := by
        cases task <;> rfl
      exact ⟨hsame ▸ htrace, trivial⟩
  | looping =>
    rw [hphase] at hfits
    obtain ⟨info, hinfo⟩ := hfits.registered
    simp only [hinfo]
    exact ⟨htrace, ⟨hfits.toTimed, hinfo, Or.inl hfits.cleared⟩⟩
  | dispatching info rest =>
    rw [hphase] at hfits
    cases rest with
    | nil =>
      -- the end of the call
      have hend := schedDispatchRest_run env hfits.current hfits.override
      obtain ⟨t, ht, hnull⟩ := htrace
      obtain ⟨u, hu, hnull'⟩ := hend.trace
      show Running.Scheduled env before
        { s with world := ((schedDispatchRest info).run env s.world).2, phase := .looping }
      refine ⟨⟨t ++ u, by rw [hu, ht, List.append_assoc], by simp [hnull, hnull']⟩, ?_⟩
      refine ⟨⟨by rw [hend.nextDispatch]; exact hfits.deadlines, ?_⟩, hend.registered, hend.cleared⟩
      obtain ⟨n, hn, hentered⟩ := hfits.entered
      by_cases hmoved : ((schedDispatchRest info).run env s.world).2.slate.currentStateId
          = s.world.slate.currentStateId
      · exact ⟨n, Nat.lt_of_lt_of_le hn hend.samples, (hend.stays hmoved).trans hentered⟩
      · obtain ⟨m, _, hsamples, hm⟩ := hend.enters hmoved
        exact ⟨m, hsamples ▸ Nat.lt_succ_self m, hm⟩
    | cons task rest => exact taskRound_scheduled hclock htrace hfits
  | transmitting info rest =>
    rw [hphase] at hfits
    have hroutine := taskDispatch_routine hmac psk .radioTask env s.world
    exact ⟨trace_of_routine htrace hroutine, hfits.of_routine (fun _ => id) hroutine⟩

/-- An interrupt that leaves the scheduler's own state alone. -/
theorem Running.Scheduled.of_interrupt (hs : s.Scheduled env before) (slate : Slate)
    (hslate : slate.currentStateId = s.world.slate.currentStateId ∧
      slate.enteredCurrentStateTime = s.world.slate.enteredCurrentStateTime ∧
      slate.manualOverrideStateId = s.world.slate.manualOverrideStateId ∧
      slate.watchdog = s.world.slate.watchdog) (ops : List QueueOp) :
    Running.Scheduled env before { s with world := { s.world with slate }, ops } := by
  have h : World.Routine (fun _ => False) (· ≠ .nullDereference) s.world { s.world with slate } :=
    { World.Routine.refl (O := fun _ => False) s.world with
      currentStateId := hslate.1
      enteredCurrentStateTime := hslate.2.1
      override := Or.inl hslate.2.2.1
      watchdog := fun h => (congrArg Watchdog.isInitialized hslate.2.2.2).trans h }
  refine ⟨hs.trace, ?_⟩
  have hfits := hs.fits
  show s.phase.Fits env { s.world with slate }
  cases hphase : s.phase with
  | starting rest => trivial
  | looping =>
    rw [hphase] at hfits
    exact World.Settled.of_routine hfits h
  | dispatching info rest =>
    rw [hphase] at hfits
    exact World.InCall.of_routine hfits (fun _ => False.elim) h
  | transmitting info rest =>
    rw [hphase] at hfits
    exact World.InCall.of_routine hfits (fun _ => False.elim) h

/-- An interrupt moves a queue, and nothing of the scheduler's. -/
theorem runStep_interrupt {e : RunEvent} (he : ∀ env polls, e ≠ .main env polls)
    (hstep : runStep hmac psk s e = some s') : ∃ slate ops,
      s' = { s with world := { s.world with slate }, ops } ∧
      slate.currentStateId = s.world.slate.currentStateId ∧
      slate.enteredCurrentStateTime = s.world.slate.enteredCurrentStateTime ∧
      slate.manualOverrideStateId = s.world.slate.manualOverrideStateId ∧
      slate.watchdog = s.world.slate.watchdog := by
  cases e with
  | main env polls => exact absurd rfl (he env polls)
  | rxDone packet =>
    rw [runStep] at hstep
    split at hstep
    · exact ⟨_, _, (Option.some.inj hstep).symm, rfl, rfl, rfl, rfl⟩
    · cases hstep
  | txDone =>
    rw [runStep] at hstep
    split at hstep
    · exact ⟨_, _, (Option.some.inj hstep).symm, rfl, rfl, rfl, rfl⟩
    · cases hstep
  | uartRxCallback =>
    rw [runStep] at hstep
    split at hstep
    · exact ⟨s.world.slate, _, (Option.some.inj hstep).symm, rfl, rfl, rfl, rfl⟩
    · cases hstep

/-- **One step**, of `main` or of an interrupt. -/
theorem runStep_scheduled (hclock : env.ClockMonotone) {e : RunEvent} (he : e.Samples env)
    (hs : s.Scheduled env before) (hstep : runStep hmac psk s e = some s') :
    s'.Scheduled env before := by
  cases e with
  | main env' polls =>
    obtain rfl : env' = env := he
    obtain rfl := Option.some.inj hstep
    exact mainPiece_scheduled hclock hs
  | _ =>
    obtain ⟨slate, ops, rfl, hslate⟩ := runStep_interrupt (by simp) hstep
    exact hs.of_interrupt slate hslate ops

/-- The time of entry moves with the state, and is then the last reading of the step. -/
def World.EntryFollows (env : Env) (w w' : World) : Prop :=
  (w'.slate.currentStateId = w.slate.currentStateId →
    w'.slate.enteredCurrentStateTime = w.slate.enteredCurrentStateTime) ∧
  (w'.slate.currentStateId ≠ w.slate.currentStateId → ∃ n, w.samples ≤ n ∧ w'.samples = n + 1 ∧
    w'.slate.enteredCurrentStateTime = env.clock n)

theorem World.EntryFollows.of_slate
    (hcurrent : w'.slate.currentStateId = w.slate.currentStateId)
    (hentered : w'.slate.enteredCurrentStateTime = w.slate.enteredCurrentStateTime) :
    w.EntryFollows env w' :=
  ⟨fun _ => hentered, fun hmoved => absurd hcurrent hmoved⟩

theorem taskRound_entry {task : Task} {rest : List Task} :
    s.world.EntryFollows env (taskRound hmac psk env polls info task rest s).world := by
  have hlook : ((isDue task).run env s.world).2.slate = s.world.slate := by
    rw [isDue_run]
    split <;> rfl
  unfold taskRound
  dsimp only
  split
  · split
    · exact .of_slate (congrArg _ hlook) (congrArg _ hlook)
    · have hroutine := taskDispatch_routine hmac psk task env ((isDue task).run env s.world).2
      exact .of_slate (hroutine.currentStateId.trans (congrArg _ hlook))
        (hroutine.enteredCurrentStateTime.trans (congrArg _ hlook))
  · exact .of_slate (congrArg _ hlook) (congrArg _ hlook)

/-- Behind `sched_init`, every step lets the time of entry follow the state. -/
theorem runStep_entry {e : RunEvent} (he : e.Samples env) (hs : s.Scheduled env before)
    (hstarted : ∀ rest, s.phase ≠ .starting rest) (hstep : runStep hmac psk s e = some s') :
    s.world.EntryFollows env s'.world := by
  cases e with
  | main env' polls =>
    obtain rfl : env' = env := he
    obtain rfl := Option.some.inj hstep
    have hfits := hs.fits
    unfold mainPiece
    cases hphase : s.phase with
    | starting rest => exact absurd hphase (hstarted rest)
    | looping =>
      rw [hphase] at hfits
      obtain ⟨info, hinfo⟩ := hfits.registered
      simp only [hinfo]
      exact .of_slate rfl rfl
    | dispatching info rest =>
      rw [hphase] at hfits
      cases rest with
      | nil =>
        have hend := schedDispatchRest_run env' hfits.current hfits.override
        exact ⟨hend.stays, hend.enters⟩
      | cons task rest => exact taskRound_entry
    | transmitting info rest => exact .of_slate rfl rfl
  | _ =>
    obtain ⟨slate, ops, rfl, hslate⟩ := runStep_interrupt (by simp) hstep
    exact .of_slate hslate.1 hslate.2.1

/-! ## When tasks are dispatched -/

/-- A dispatch: the task, the reading of the clock that found it due, and the one its next
deadline was set from, right before the call. -/
structure Dispatch where
  task : Task
  due : UInt64
  stamp : UInt64
deriving DecidableEq

/-- The dispatch an event makes, if it makes one. -/
def dispatches (s : Running) : RunEvent → List Dispatch
  | .main env _ =>
    match s.phase with
    | .dispatching _ (task :: _) =>
      if ((isDue task).run env s.world).1 = true then
        [⟨task, env.clock s.world.samples, env.clock (s.world.samples + 1)⟩]
      else []
    | _ => []
  | _ => []

/-- The dispatch could still come after the world `w`: its task's deadline is before it. -/
def World.Before (w : World) (d : Dispatch) : Prop :=
  d.due.toNat < 2 ^ 63 ∧ (w.nextDispatch d.task).toNat < d.due.toNat

/-- The second dispatch is not the same task's within its period. -/
def Dispatch.Spaced (d d' : Dispatch) : Prop :=
  d.task = d'.task → d.stamp.toNat + d.task.dispatchPeriodMs.toNat * 1000 < d'.due.toNat

/-- A task found due is past its deadline. -/
theorem isDue_before (hclock : env.ClockMonotone) (task : Task)
    (hw : ∀ task, (w.nextDispatch task).toNat < 2 ^ 63)
    (hdue : ((isDue task).run env w).1 = true) :
    w.Before ⟨task, env.clock w.samples, env.clock (w.samples + 1)⟩ := by
  rw [isDue_run] at hdue
  split at hdue
  · next hpast =>
    exact ⟨hclock.signed _, (absoluteTimeDiffUs_pos_iff (hw task) (hclock.signed _)).mp hpast⟩
  · cases hdue

/-- A round moves a deadline only by a dispatch that was due, to a period behind its stamp. -/
theorem isDue_spaced (hclock : env.ClockMonotone) (task : Task)
    (hw : ∀ task, (w.nextDispatch task).toNat < 2 ^ 63) {d : Dispatch}
    (hd : ((isDue task).run env w).2.Before d) :
    w.Before d ∧ (((isDue task).run env w).1 = true →
      Dispatch.Spaced ⟨task, env.clock w.samples, env.clock (w.samples + 1)⟩ d) := by
  have hbefore := isDue_before hclock task hw
  obtain ⟨hsigned, hlt⟩ := hd
  rw [isDue_run] at hlt hbefore ⊢
  by_cases hdue : absoluteTimeDiffUs (w.nextDispatch task) (env.clock w.samples) > 0
  · rw [if_pos hdue] at hlt hbefore ⊢
    obtain ⟨_, hpast⟩ := hbefore rfl
    by_cases htask : d.task = task
    · have hset : (delayedByMs (env.clock (w.samples + 1)) task.dispatchPeriodMs).toNat
          < d.due.toNat := by
        simpa [htask] using hlt
      have hspaced := lt_of_delayedByMs_lt (hclock.signed _) hsigned hset
      have hmonotone := hclock.monotone w.samples
      refine ⟨⟨hsigned, ?_⟩, fun _ _ => hspaced⟩
      rw [htask]
      dsimp only at hpast
      omega
    · have hkept : (w.nextDispatch d.task).toNat < d.due.toNat := by simpa [htask] using hlt
      exact ⟨⟨hsigned, hkept⟩, fun _ h => absurd h.symm htask⟩
  · rw [if_neg hdue] at hlt ⊢
    exact ⟨⟨hsigned, hlt⟩, fun h => by cases h⟩

/-- Behind `sched_init`, what could come after a step could come before it, and is spaced from
the dispatch the step makes. -/
def Running.Before (s : Running) (d : Dispatch) : Prop :=
  d.due.toNat < 2 ^ 63 ∧
    ((∃ rest, s.phase = .starting rest) ∨ (s.world.nextDispatch d.task).toNat < d.due.toNat)

theorem dispatches_before (hclock : env.ClockMonotone) (hs : s.Scheduled env before) {d : Dispatch}
    (hd : d ∈ dispatches s (.main env polls)) :
    dispatches s (.main env polls) = [d] ∧ s.Before d := by
  have hfits := hs.fits
  unfold dispatches at hd ⊢
  unfold Running.Before
  cases hphase : s.phase with
  | starting rest =>
    rw [hphase] at hd
    cases hd
  | looping =>
    rw [hphase] at hd
    cases hd
  | transmitting info rest =>
    rw [hphase] at hd
    cases hd
  | dispatching info rest =>
    rw [hphase] at hd hfits
    cases rest with
    | nil => cases hd
    | cons task rest =>
      dsimp only at hd ⊢
      split at hd
      · next hdue =>
        obtain rfl := List.mem_singleton.mp hd
        obtain ⟨hsigned, hpast⟩ := isDue_before hclock task hfits.deadlines hdue
        exact ⟨if_pos hdue, hsigned, Or.inr hpast⟩
      · cases hd

theorem taskRound_phase {task : Task} {rest : List Task} (hmac : Hmac)
    (psk : Option PacketHmacPsk) (rest' : List Task) :
    (taskRound hmac psk env polls info task rest s).phase ≠ .starting rest' := by
  unfold taskRound
  dsimp only
  split_ifs <;> simp

theorem mainPiece_before (hclock : env.ClockMonotone) (hs : s.Scheduled env before)
    {d : Dispatch} (hd : (mainPiece hmac psk env polls s).Before d) :
    s.Before d ∧ ∀ d' ∈ dispatches s (.main env polls), d'.Spaced d := by
  obtain ⟨hsigned, hd⟩ := hd
  have hfits := hs.fits
  unfold mainPiece at hd
  unfold Running.Before dispatches
  cases hphase : s.phase with
  | starting rest => exact ⟨⟨hsigned, Or.inl ⟨rest, rfl⟩⟩, by simp⟩
  | looping =>
    rw [hphase] at hfits hd
    obtain ⟨info, hinfo⟩ := hfits.registered
    simp only [hinfo] at hd
    exact ⟨⟨hsigned, Or.inr (hd.resolve_left (by simp))⟩, by simp⟩
  | transmitting info rest =>
    rw [hphase] at hd
    exact ⟨⟨hsigned, Or.inr (hd.resolve_left (by simp))⟩, by simp⟩
  | dispatching info rest =>
    rw [hphase] at hfits hd
    cases rest with
    | nil =>
      have hend := schedDispatchRest_run env hfits.current hfits.override
      have hlt := hd.resolve_left (by simp)
      have hkept : ((schedDispatchRest info).run env s.world).2.nextDispatch d.task
          = s.world.nextDispatch d.task := congrFun hend.nextDispatch d.task
      refine ⟨⟨hsigned, Or.inr ?_⟩, by simp⟩
      rw [← hkept]
      exact hlt
    | cons task rest =>
      -- what the task does leaves the deadlines of its round
      have hround : (taskRound hmac psk env polls info task rest s).world.nextDispatch
          = ((isDue task).run env s.world).2.nextDispatch := by
        unfold taskRound
        dsimp only
        split
        · split
          · rfl
          · exact (taskDispatch_routine hmac psk task env _).nextDispatch
        · rfl
      have hlt : (((isDue task).run env s.world).2.nextDispatch d.task).toNat < d.due.toNat := by
        rw [← hround]
        exact hd.resolve_left fun ⟨rest', hrest'⟩ => taskRound_phase hmac psk rest' hrest'
      obtain ⟨hkept, hmade⟩ := isDue_spaced hclock task hfits.deadlines ⟨hsigned, hlt⟩
      refine ⟨⟨hsigned, Or.inr hkept.2⟩, fun d' hd' => ?_⟩
      dsimp only at hd'
      split at hd'
      · next hdue =>
        obtain rfl := List.mem_singleton.mp hd'
        exact hmade hdue
      · cases hd'

/-- **Two dispatches of a task lie more than its period apart**, in a whole run. -/
theorem dispatches_spaced (hclock : env.ClockMonotone) {events : List RunEvent}
    (hevents : ∀ e ∈ events, e.Samples env) (w : World) :
    (outputs (runStep hmac psk) dispatches (.start w) events).Pairwise Dispatch.Spaced := by
  have hstart : (Running.start w).Scheduled env w.trace :=
    ⟨⟨[], (List.append_nil _).symm, List.not_mem_nil⟩, trivial⟩
  have hok : AllSteps (runStep hmac psk) (fun _ e => e.Samples env) (.start w) events :=
    .of_mem _ (fun e he _ => hevents e he) _
  refine (outputs_pairwise (runStep hmac psk) dispatches (B := Running.Before) (fun s e he hs => ?_)
    (fun s e s' he hs hstep => ?_) hok hstart).2
  · cases e with
    | main env' polls =>
      obtain rfl : env' = env := he
      refine ⟨fun d hd => (dispatches_before hclock hs hd).2, ?_⟩
      cases hlist : dispatches s (.main env' polls) with
      | nil => exact .nil
      | cons d rest =>
        have hd := (dispatches_before hclock hs (hlist ▸ List.mem_cons_self)).1
        rw [hlist] at hd
        rw [hd]
        exact List.pairwise_singleton _ _
    | _ => exact ⟨fun d hd => (List.not_mem_nil hd).elim, .nil⟩
  · refine ⟨runStep_scheduled hclock he hs hstep, fun d hd => ?_⟩
    cases e with
    | main env' polls =>
      obtain rfl : env' = env := he
      obtain rfl := Option.some.inj hstep
      exact mainPiece_before hclock hs hd
    | _ =>
      -- an interrupt moves no deadline and dispatches nothing
      obtain ⟨slate, ops, rfl, _⟩ := runStep_interrupt (by simp) hstep
      exact ⟨hd, fun d' hd' => (List.not_mem_nil hd').elim⟩

/-- **The scheduler over whole runs.** From `sched_init` on, with a clock that never goes back,
whatever else is sampled, with packets and interrupts between any two pieces of `main`:
`sched_dispatch` dereferences no NULL pointer; the current state is a registered one; between two
calls no override is pending, and the end of a call enters the one that is; the time of entry
moves exactly with the state, to the last reading of the step; and two dispatches of a task lie
more than its period apart. -/
theorem scheduler_safety (env : Env) (hclock : env.ClockMonotone) (w : World)
    (events : List RunEvent) (hevents : ∀ e ∈ events, e.Samples env) (s : Running)
    (hrun : run (runStep hmac psk) (.start w) events = some s) :
    (∃ t, s.world.trace = w.trace ++ t ∧ .nullDereference ∉ t) ∧
    ((∀ rest, s.phase ≠ .starting rest) → s.world.slate.currentStateId.Registered) ∧
    (s.phase = .looping → s.world.slate.manualOverrideStateId = .stateNone) ∧
    (∀ info polls, s.phase = .dispatching info [] →
      let s' := mainPiece hmac psk env polls s
      s'.phase = .looping ∧ s'.world.slate.manualOverrideStateId = .stateNone ∧
        (s.world.slate.manualOverrideStateId ≠ .stateNone →
          s'.world.slate.currentStateId = s.world.slate.manualOverrideStateId)) ∧
    ((∀ rest, s.phase ≠ .starting rest) → ∀ e s', e.Samples env →
      runStep hmac psk s e = some s' →
        s.world.EntryFollows env s'.world ∧
        ((∀ n, env.clock n < env.clock (n + 1)) →
          (s'.world.slate.enteredCurrentStateTime = s.world.slate.enteredCurrentStateTime ↔
            s'.world.slate.currentStateId = s.world.slate.currentStateId))) ∧
    (outputs (runStep hmac psk) dispatches (.start w) events).Pairwise Dispatch.Spaced := by
  have hs : s.Scheduled env w.trace := by
    refine invariant (runStep hmac psk) (P := fun _ e => e.Samples env)
      (fun _ _ _ he hs hstep => runStep_scheduled hclock he hs hstep)
      (.of_mem _ (fun e he _ => hevents e he) _) hrun ?_
    exact ⟨⟨[], (List.append_nil _).symm, List.not_mem_nil⟩, trivial⟩
  have hfits := hs.fits
  refine ⟨hs.trace, fun hstarted => ?_, fun hphase => ?_, fun info polls hphase => ?_,
    fun hstarted e s' he hstep => ?_, dispatches_spaced hclock hevents w⟩
  · exact hfits.registered_of_started hstarted
  · rw [hphase] at hfits
    exact hfits.cleared
  · rw [hphase] at hfits
    have hend := schedDispatchRest_run env hfits.current hfits.override
    simp only [mainPiece, hphase]
    exact ⟨trivial, hend.cleared, hend.applied⟩
  · have hentry := runStep_entry he hs hstarted hstep
    refine ⟨hentry, fun hstrict => ⟨fun hsame => ?_, hentry.1⟩⟩
    by_contra hmoved
    -- the old time is an earlier reading than the new one
    obtain ⟨n, hn, hold⟩ := (hfits.timed_of_started hstarted).entered
    obtain ⟨m, hm, _, hnew⟩ := hentry.2 hmoved
    have hmono : StrictMono fun n => (env.clock n).toNat :=
      strictMono_nat_of_lt_succ fun n => UInt64.lt_iff_toNat_lt.mp (hstrict n)
    have hlt : (env.clock n).toNat < (env.clock m).toNat := hmono (Nat.lt_of_lt_of_le hn hm)
    rw [← hold, ← hnew, hsame] at hlt
    exact Nat.lt_irrefl _ hlt

end Runs

/-! ## A run with an override -/

/-- Every sample is a second later, for a thousand samples; the panels are deployed. -/
def Env.ticking : Env :=
  { Env.still with
    clock := fun n => UInt64.ofNat (min n 1000 * 1000000)
    panelA := fun _ => true
    panelB := fun _ => true }

theorem toNat_clock_ticking (n : Nat) : (Env.ticking.clock n).toNat = min n 1000 * 1000000 := by
  show (UInt64.ofNat _).toNat = _
  rw [UInt64.toNat_ofNat']
  omega

theorem clockMonotone_ticking : Env.ticking.ClockMonotone where
  monotone n := by
    rw [toNat_clock_ticking, toNat_clock_ticking]
    omega
  signed n := by
    rw [toNat_clock_ticking]
    omega

/-- The command that sends the satellite back to the init state. -/
def overridePacket : Packet :=
  { commandPacket 4 1 with
    data := Memory.copyInto (Vector.replicate 210 0) (4 :: utf8 "init_state") }

/-- From `sched_init` through the burn-wire state to the running state, and a call there that
receives the override. -/
def overriding : List RunEvent :=
  List.replicate 15 (.main .ticking 0) ++ .rxDone overridePacket ::
    List.replicate 9 (.main .ticking 0)

/-- The promises on this run, which the override takes back to the init state. -/
theorem scheduler_safety_overriding :
    ∃ s, run (runStep zeroHmac (some (Vector.replicate 32 0)))
        (.start (.atReset ⟨initMarker, 0, 0⟩)) overriding = some s ∧
      s.world.slate.currentStateId = .stateInit ∧ .nullDereference ∉ s.world.trace ∧
      (outputs (runStep zeroHmac (some (Vector.replicate 32 0))) dispatches
        (.start (.atReset ⟨initMarker, 0, 0⟩)) overriding).Pairwise Dispatch.Spaced := by
  have hrun : (run (runStep zeroHmac (some (Vector.replicate 32 0)))
      (.start (.atReset ⟨initMarker, 0, 0⟩)) overriding).any
        (·.world.slate.currentStateId = .stateInit) = true := by
    decide +kernel
  obtain ⟨s, hs, hinit⟩ := (Option.any_eq_true _ _).mp hrun
  have hevents : ∀ e ∈ overriding, e.Samples .ticking := by
    intro e he
    rcases List.mem_append.mp he with he | he
    · obtain ⟨_, rfl⟩ := List.mem_replicate.mp he
      rfl
    · rcases List.mem_cons.mp he with rfl | he
      · trivial
      · obtain ⟨_, rfl⟩ := List.mem_replicate.mp he
        rfl
  obtain ⟨⟨t, ht, hnull⟩, _, _, _, _, hspaced⟩ :=
    scheduler_safety .ticking clockMonotone_ticking _ _ hevents s hs
  refine ⟨s, hs, of_decide_eq_true hinit, ?_, hspaced⟩
  rw [ht]
  exact hnull

end Samwise
