import Mathlib.Data.List.Range
import Samwise.BurnWire.Deployment

/-!
# Samwise — who feeds the watchdog, and how often

`watchdog_feed` is called by the watchdog task of the running state and, inside `safe_sleep_ms`,
by a burn. A call of `sched_dispatch` is told to feed by its effect on a watchdog that is not
set up yet: `watchdog_feed` is the only one to set it up there.

Any four calls 200 ms apart contain a feed as long as no call is spent in a state that waits
without feeding: the init state with its pin in, and the burn-wire state with the panels read as
deployed by the task and not by the transition check.
-/

namespace Samwise

open Run

/-! ## Calls of `watchdog_feed` -/

/-- The same world, with the watchdog not set up. -/
def World.unfed (w : World) : World :=
  { w with slate := { w.slate with watchdog := { w.slate.watchdog with isInitialized := false } } }

/-- The program, from `w`, calls `watchdog_feed`: it would set the watchdog up. -/
def Flight.callsWatchdogFeed (x : Flight Unit) (env : Env) (w : World) : Bool :=
  (x.run env w.unfed).2.slate.watchdog.isInitialized

/-- `watchdog_feed` leaves the watchdog set up. -/
theorem watchdogFeed_initialises (env : Env) (w : World) :
    (watchdogFeed.run env w).2.slate.watchdog.isInitialized = true := by
  -- first it is set up, where it was not
  have hset : ((Flight.when (w.slate.watchdog.isInitialized = false) watchdogInit).run env
      w).2.slate.watchdog.isInitialized = true := by
    rw [Flight.run_when]
    split
    · rfl
    · next h => simpa using h
  rw [watchdogFeed, Flight.run_bind, Flight.run_slate, Flight.run_bind]
  generalize ((Flight.when (w.slate.watchdog.isInitialized = false) watchdogInit).run env w).2 = w₁
    at hset
  -- then the pin may be driven, which leaves it set up
  rw [Flight.run_bind, Flight.run_slate, Flight.run_bind, Flight.run_ite]
  split
  · exact hset
  · rw [Flight.run_ite]
    split
    · exact hset
    · exact hset

section Feeds

variable {hmac : Hmac} {psk : Option PacketHmacPsk}

/-- A watchdog that is set up stays so. -/
def World.FedStays (w w' : World) : Prop :=
  w.slate.watchdog.isInitialized = true → w'.slate.watchdog.isInitialized = true

instance : IsPreorder World World.FedStays where
  refl _ := id
  trans _ _ _ h h' := h' ∘ h

theorem safeSleepMs_initialises {ms : Nat} (hms : minWatchdogIntervalMs < ms) (env : Env)
    (w : World) : ((safeSleepMs ms).run env w).2.slate.watchdog.isInitialized = true := by
  obtain ⟨rounds, rfl⟩ : ∃ rounds, ms = rounds + 1 := ⟨ms - 1, by omega⟩
  have hfewer : rounds + 1 - minWatchdogIntervalMs ≤ rounds := by
    rw [minWatchdogIntervalMs]
    omega
  have hloop : safeSleepMs (rounds + 1) = safeSleepLoop (rounds + 1) (rounds + 1) := rfl
  rw [hloop, safeSleepLoop_succ, if_pos hms, Flight.run_bind, Flight.run_bind,
    safeSleepLoop_rounds hfewer]
  -- the first round feeds
  have hroutine := safeSleepMs_routine (O := fun _ => False) (rounds + 1 - minWatchdogIntervalMs) env
    ((Flight.emit (.sleepMs minWatchdogIntervalMs)).run env (watchdogFeed.run env w).2).2
  exact hroutine.watchdog (watchdogFeed_initialises env w)

/-- A burn begins with a second of sleep. -/
theorem burnPanels_initialises (panelA panelB : Bool) (env : Env) (w : World) :
    ((burnPanels panelA panelB).run env w).2.slate.watchdog.isInitialized = true := by
  have hrest : (do
      Flight.when (panelA = false) (burnWireActivate burnDurationMs true false)
      Flight.when (panelB = false) (burnWireActivate burnDurationMs false true)
      safeSleepMs 4000 : Flight Unit).Steps
        (World.Routine (fun _ => False) (· ≠ .nullDereference)) := by
    refine .bind (.when fun _ => burnWireActivate_routine _ _ _) fun _ => ?_
    refine .bind (.when fun _ => burnWireActivate_routine _ _ _) fun _ => ?_
    exact (safeSleepMs_routine _).of_quiet
  have hsecond : minWatchdogIntervalMs < 1000 := by decide
  rw [burnPanels, Flight.run_bind]
  exact (hrest env _).watchdog (safeSleepMs_initialises hsecond env w)

/-- The task feeds when it burns. -/
theorem burnWireTaskDispatch_initialises (env : Env) {w : World}
    (hstowed : ¬(env.panelA w.samples = true ∧ env.panelB (w.samples + 1) = true))
    (hattempts : w.attempts < maxBurnWireAttempts) :
    (burnWireTaskDispatch.run env w).2.slate.watchdog.isInitialized = true := by
  have hA : (isFlexPanelADeployed.run env w).1 = env.panelA w.samples := rfl
  have hB : (isFlexPanelBDeployed.run env (isFlexPanelADeployed.run env w).2).1
      = env.panelB (w.samples + 1) := rfl
  rw [burnWireTaskDispatch, Flight.run_bind, Flight.run_bind, hA, hB, if_neg hstowed,
    Flight.run_bind]
  generalize hw₂ : (getBurnWireAttempts.run env (isFlexPanelBDeployed.run env
    (isFlexPanelADeployed.run env w).2).2) = read
  have hread : read.1 = w.persistent.burnWireAttempts := by
    rw [← hw₂]
    rfl
  have hleft : ¬read.1.toNat ≥ maxBurnWireAttempts := by
    rw [hread]
    exact Nat.not_le.mpr hattempts
  rw [if_neg hleft, Flight.run_bind]
  have hburn := burnPanels_initialises (env.panelA w.samples) (env.panelB (w.samples + 1)) env read.2
  generalize ((burnPanels (env.panelA w.samples) (env.panelB (w.samples + 1))).run env read.2).2
    = w₃ at hburn ⊢
  exact hburn

/-! ## What a call is about to do -/

@[simp] theorem World.unfed_slate_currentStateId (w : World) :
    w.unfed.slate.currentStateId = w.slate.currentStateId := rfl

@[simp] theorem World.unfed_persistent (w : World) : w.unfed.persistent = w.persistent := rfl

/-- The look at a deadline does not see the watchdog. -/
theorem isDue_unfed (task : Task) (env : Env) (w : World) :
    (isDue task).run env w.unfed
      = (((isDue task).run env w).1, ((isDue task).run env w).2.unfed) := by
  rw [isDue_run, isDue_run]
  show (if absoluteTimeDiffUs (w.nextDispatch task) (env.clock w.samples) > 0 then _ else _) = _
  split
  · rfl
  · rfl

theorem dispatchIfDue_fedStays (task : Task) :
    (dispatchIfDue hmac psk task).Steps World.FedStays := by
  intro env w hw
  rw [dispatchIfDue_run]
  have hlook : ((isDue task).run env w).2.slate.watchdog = w.slate.watchdog := by
    rw [isDue_run]
    split
    · rfl
    · rfl
  rw [← hlook] at hw
  split
  · exact (taskDispatch_routine hmac psk task env _).watchdog hw
  · exact hw

/-- A call feeds once one of its rounds has fed. -/
theorem calls_of_afterRounds {env : Env} {w : World} (hw : w.Resting) {info : SchedState}
    (hinfo : stateRegistryGet w.slate.currentStateId = some info)
    (h : (afterRounds hmac psk env info w.unfed).slate.watchdog.isInitialized = true) :
    (schedDispatch hmac psk).callsWatchdogFeed env w = true := by
  have hcleared : w.unfed.slate.manualOverrideStateId = .stateNone := hw.cleared
  have hend : (afterRounds hmac psk env info w.unfed).Transition env
      ((schedDispatch hmac psk).run env w.unfed).2 := schedDispatch_transition env hinfo hcleared
  exact hend.watchdog h

/-- The world in which a call in the running state comes to its watchdog task: behind the print
task. -/
def atWatchdogTask (env : Env) (w : World) : World := ((isDue .printTask).run env w).2

theorem atWatchdogTask_unfed (env : Env) (w : World) :
    atWatchdogTask env w.unfed = (atWatchdogTask env w).unfed := by
  rw [atWatchdogTask, isDue_unfed]
  rfl

/-- The rounds of the running state: the print task, the watchdog task, and the others. -/
theorem afterRounds_running (env : Env) (w : World) :
    afterRounds hmac psk env runningState w
      = (([.beaconTask, .telemetryTask, .adcsTask, .radioTask, .commandTask].forM
          (dispatchIfDue hmac psk)).run env
            ((dispatchIfDue hmac psk .watchdogTask).run env (atWatchdogTask env w)).2).2 := by
  have hprint : ((dispatchIfDue hmac psk .printTask).run env w).2 = atWatchdogTask env w := by
    rw [dispatchIfDue_run]
    split
    · rfl
    · rfl
  rw [← hprint, afterRounds, runningState]
  simp only [List.forM_eq_forM, List.forM_cons, Flight.run_bind]

/-- In the running state a call feeds when the watchdog task is due. -/
theorem running_calls {env : Env} {w : World} (hw : w.Resting)
    (hcurrent : w.slate.currentStateId = .stateRunning)
    (hdue : ((isDue .watchdogTask).run env (atWatchdogTask env w)).1 = true) :
    (schedDispatch hmac psk).callsWatchdogFeed env w = true := by
  have hinfo : stateRegistryGet w.slate.currentStateId = some runningState := by
    rw [hcurrent]
    rfl
  refine calls_of_afterRounds hw hinfo ?_
  have hothers : ([.beaconTask, .telemetryTask, .adcsTask, .radioTask, .commandTask].forM
      (dispatchIfDue hmac psk)).Steps World.FedStays :=
    .forM fun task _ => dispatchIfDue_fedStays task
  have hfed : ((dispatchIfDue hmac psk .watchdogTask).run env
      (atWatchdogTask env w).unfed).2.slate.watchdog.isInitialized = true := by
    rw [dispatchIfDue_run, isDue_unfed, if_pos hdue]
    exact watchdogFeed_initialises env _
  rw [afterRounds_running, atWatchdogTask_unfed]
  generalize ((dispatchIfDue hmac psk .watchdogTask).run env (atWatchdogTask env w).unfed).2 = w'
    at hfed ⊢
  exact hothers env w' hfed

/-- In the burn-wire state a call feeds when the task is due, a panel reads not deployed, and
attempts are left. -/
theorem burnWire_calls {env : Env} {w : World} (hw : w.Resting)
    (hcurrent : w.slate.currentStateId = .stateBurnWire)
    (hdue : ((isDue .burnWireTask).run env w).1 = true)
    (hstowed : ¬(env.panelA (w.samples + 2) = true ∧ env.panelB (w.samples + 3) = true))
    (hattempts : w.attempts < maxBurnWireAttempts) :
    (schedDispatch hmac psk).callsWatchdogFeed env w = true := by
  have hinfo : stateRegistryGet w.slate.currentStateId = some burnWireState := by
    rw [hcurrent]
    rfl
  refine calls_of_afterRounds hw hinfo ?_
  have hrounds : afterRounds hmac psk env burnWireState w.unfed
      = ((dispatchIfDue hmac psk .burnWireTask).run env w.unfed).2 := rfl
  rw [hrounds, dispatchIfDue_run, isDue_unfed, if_pos hdue]
  have htask : Task.burnWireTask.taskDispatch hmac psk = burnWireTaskDispatch := rfl
  rw [htask]
  -- the task starts two readings of the clock later
  have hlook : ((isDue .burnWireTask).run env w).2.samples = w.samples + 2 ∧
      ((isDue .burnWireTask).run env w).2.attempts = w.attempts := by
    rw [isDue_run] at hdue ⊢
    split at hdue
    · next h =>
      rw [if_pos h]
      exact ⟨rfl, rfl⟩
    · cases hdue
  generalize ((isDue .burnWireTask).run env w).2 = v at hlook
  obtain ⟨hsamples, hsame⟩ := hlook
  rw [← hsame] at hattempts
  have hstowed' : ¬(env.panelA v.unfed.samples = true ∧ env.panelB (v.unfed.samples + 1) = true) := by
    show ¬(env.panelA v.samples = true ∧ env.panelB (v.samples + 1) = true)
    rw [hsamples]
    exact hstowed
  dsimp only
  exact burnWireTaskDispatch_initialises env hstowed' hattempts

/-! ## Deadlines -/

/-- Every deadline was set a period after some reading. -/
def World.Deadlined (env : Env) (w : World) : Prop :=
  ∀ task, ∃ n < w.samples, w.nextDispatch task = delayedByMs (env.clock n) task.dispatchPeriodMs

/-- A round leaves the other deadlines, and its own where the task is not due. -/
theorem dispatchIfDue_nextDispatch (env : Env) (w : World) {task task' : Task}
    (h : task' = task → ((isDue task).run env w).1 = false) :
    ((dispatchIfDue hmac psk task).run env w).2.nextDispatch task' = w.nextDispatch task' := by
  have hlook : ((isDue task).run env w).2.nextDispatch task' = w.nextDispatch task' := by
    rw [isDue_run] at h ⊢
    split
    · next hdue =>
      rw [if_pos hdue] at h
      exact if_neg fun htask => by cases h htask
    · rfl
  rw [dispatchIfDue_run]
  split
  · rw [(taskDispatch_routine hmac psk task env _).nextDispatch]
    exact hlook
  · exact hlook

theorem dispatchIfDue_deadlined {env : Env} {w : World} (hw : w.Deadlined env) (task : Task) :
    ((dispatchIfDue hmac psk task).run env w).2.Deadlined env := by
  have hlook : ((isDue task).run env w).2.Deadlined env := by
    intro task'
    obtain ⟨n, hn, hset⟩ := hw task'
    rw [isDue_run]
    split
    · by_cases htask : task' = task
      · exact ⟨w.samples + 1, Nat.lt_succ_self _, by simp [htask]⟩
      · exact ⟨n, Nat.lt_succ_of_lt (Nat.lt_succ_of_lt hn), by simp [htask, hset]⟩
    · exact ⟨n, Nat.lt_succ_of_lt hn, hset⟩
  rw [dispatchIfDue_run]
  split
  · have hroutine := taskDispatch_routine hmac psk task env ((isDue task).run env w).2
    intro task'
    obtain ⟨n, hn, hset⟩ := hlook task'
    exact ⟨n, Nat.lt_of_lt_of_le hn hroutine.samples, by rw [hroutine.nextDispatch, hset]⟩
  · exact hlook

/-- A property every round keeps is kept by the rounds. -/
theorem rounds_induct {env : Env} {I : World → Prop} {tasks : List Task}
    (h : ∀ task ∈ tasks, ∀ w, I w → I ((dispatchIfDue hmac psk task).run env w).2) {w : World}
    (hw : I w) : I ((tasks.forM (dispatchIfDue hmac psk)).run env w).2 := by
  induction tasks generalizing w with
  | nil => exact hw
  | cons task tasks ih =>
    exact ih (fun task' htask' => h task' (List.mem_cons_of_mem _ htask'))
      (h task List.mem_cons_self w hw)

/-- A call leaves the deadline of a task that is not among its state's. -/
theorem schedDispatch_nextDispatch {env : Env} {w : World} (hw : w.Resting) {info : SchedState}
    (hinfo : stateRegistryGet w.slate.currentStateId = some info) {task : Task}
    (htask : task ∉ info.taskList) :
    ((schedDispatch hmac psk).run env w).2.nextDispatch task = w.nextDispatch task := by
  have hend : (afterRounds hmac psk env info w).Transition env
      ((schedDispatch hmac psk).run env w).2 := schedDispatch_transition env hinfo hw.cleared
  rw [hend.nextDispatch]
  refine rounds_induct (I := fun v => v.nextDispatch task = w.nextDispatch task) ?_ rfl
  intro task' htask' v hv
  have hother : task = task' → ((isDue task').run env v).1 = false := by
    rintro rfl
    exact absurd htask' htask
  rw [dispatchIfDue_nextDispatch env v hother, hv]

theorem schedDispatch_deadlined {env : Env} {w : World} (hw : w.Resting)
    (hdeadlined : w.Deadlined env) : ((schedDispatch hmac psk).run env w).2.Deadlined env := by
  obtain ⟨info, hinfo⟩ := hw.registered
  have hend : (afterRounds hmac psk env info w).Transition env
      ((schedDispatch hmac psk).run env w).2 := schedDispatch_transition env hinfo hw.cleared
  have hrounds : (afterRounds hmac psk env info w).Deadlined env :=
    rounds_induct (I := World.Deadlined env) (fun task _ v hv => dispatchIfDue_deadlined hv task)
      hdeadlined
  intro task
  obtain ⟨n, hn, hset⟩ := hrounds task
  exact ⟨n, Nat.lt_of_lt_of_le hn hend.samples, by rw [hend.nextDispatch, hset]⟩

/-- A boot sets every deadline. -/
theorem mainInit_deadlined (d : PersistentData) (env : Env) :
    (mainInit.run env (World.atReset d)).2.Deadlined env := by
  have hfinish : ∀ data w, ((mainFinish data).run env w).2.Deadlined env := by
    intro data w
    rw [mainFinish, Flight.run_bind, Flight.run_bind]
    -- the deadlines are those of `sched_init`
    have hinit : ∀ v, (schedInit.run env v).2.Deadlined env := fun v =>
      (schedInitRest_run env ((allTasks.forM Task.taskInit).run env v).2).2.2.1
    exact hinit _
  rw [mainInit, Flight.run_bind, Flight.run_bind, Flight.run_bind]
  exact hfinish _ _

/-- The clock shows the microseconds of a time that does not go back. -/
structure Env.Tells (env : Env) (time : Nat → Nat) : Prop where
  monotone : Monotone time
  clock : ∀ n, env.clock n = UInt64.ofNat (time n)

section Telling

variable {env : Env} {time : Nat → Nat}

theorem Env.Tells.toNat_clock (htime : env.Tells time) (hrange : ∀ n, time n < 2 ^ 63) (n : Nat) :
    (env.clock n).toNat = time n := by
  rw [htime.clock, UInt64.toNat_ofNat']
  exact Nat.mod_eq_of_lt (Nat.lt_trans (hrange n) (by decide))

theorem isDue_of_past (htime : env.Tells time) (hrange : ∀ n, time n < 2 ^ 63) {w : World}
    {task : Task} (h : (w.nextDispatch task).toNat < time w.samples) :
    ((isDue task).run env w).1 = true := by
  have hclock := htime.toNat_clock hrange w.samples
  have hsigned := hrange w.samples
  have hpast := (absoluteTimeDiffUs_pos_iff (by omega) (hclock ▸ hsigned)).mpr (hclock ▸ h)
  rw [isDue_run, if_pos hpast]

end Telling

/-! ## Call after call -/

variable (hmac psk) in
/-- The loop gets to `w'` by the call from `w`, and interrupts behind it. -/
def Follows (env : Env) (w w' : World) : Prop :=
  ∃ es, (∀ e ∈ es, ∀ env', e ≠ .dispatch env') ∧
    run (loopStep hmac psk) ((schedDispatch hmac psk).run env w).2 es = some w'

/-- A call from `w` may begin at `b`: behind the readings taken, not behind the next. -/
structure World.Begins (time : Nat → Nat) (b : Nat) (w : World) : Prop where
  past : ∀ n < w.samples, time n ≤ b
  next : b ≤ time w.samples

/-- Interrupts leave what the scheduler goes by. -/
theorem interrupts_keep {es : List LoopEvent} (hes : ∀ e ∈ es, ∀ env, e ≠ .dispatch env)
    {w w' : World} (h : run (loopStep hmac psk) w es = some w') :
    w'.nextDispatch = w.nextDispatch ∧ w'.samples = w.samples ∧
      w'.slate.currentStateId = w.slate.currentStateId := by
  refine invariant (loopStep hmac psk) (P := fun _ e => ∀ env, e ≠ .dispatch env)
    (I := fun v => v.nextDispatch = w.nextDispatch ∧ v.samples = w.samples ∧
      v.slate.currentStateId = w.slate.currentStateId)
    (fun v e v' he hv hstep => ?_) (.of_mem _ (fun e he _ => hes e he) _) h ⟨rfl, rfl, rfl⟩
  cases e with
  | dispatch env => exact absurd rfl (he env)
  | rxDone packet =>
    obtain rfl := Option.some.inj hstep
    exact hv
  | txDone =>
    obtain rfl := Option.some.inj hstep
    exact hv

/-- What the loop goes by between two calls. -/
structure World.Governed (env : Env) (w : World) : Prop where
  resting : w.Resting
  deadlined : w.Deadlined env

theorem Follows.governed {env : Env} {w w' : World} (h : Follows hmac psk env w w')
    (hw : w.Governed env) : w'.Governed env := by
  obtain ⟨es, hes, hrun⟩ := h
  obtain ⟨hdeadlines, hsamples, _⟩ := interrupts_keep hes hrun
  refine ⟨?_, fun task => ?_⟩
  · exact invariant' (loopStep hmac psk) (fun _ _ _ hs hstep => loopStep_resting hmac psk hs hstep)
      hrun (schedDispatch_resting hmac psk env hw.resting)
  · obtain ⟨n, hn, hset⟩ := (schedDispatch_deadlined hw.resting hw.deadlined) task
    exact ⟨n, hsamples ▸ hn, by rw [hdeadlines, hset]⟩

/-- A boot, and the calls and interrupts behind it. -/
def World.Reached (hmac : Hmac) (psk : Option PacketHmacPsk) (env : Env) (w : World) : Prop :=
  ∃ d events, (∀ e ∈ events, ∀ env', e = .dispatch env' → env' = env) ∧
    run (loopStep hmac psk) (mainInit.run env (World.atReset d)).2 events = some w

theorem World.Reached.governed {env : Env} {w : World} (h : w.Reached hmac psk env) :
    w.Governed env := by
  obtain ⟨d, events, hevents, hrun⟩ := h
  refine invariant (loopStep hmac psk) (P := fun _ e => ∀ env', e = .dispatch env' → env' = env)
    (I := World.Governed env) (fun v e v' he hv hstep => ?_)
    (.of_mem _ (fun e he _ => hevents e he) _) hrun
    ⟨mainInit_resting d env, mainInit_deadlined d env⟩
  refine ⟨loopStep_resting hmac psk hv.resting hstep, ?_⟩
  cases e with
  | dispatch env' =>
    obtain rfl := he env' rfl
    obtain rfl := Option.some.inj hstep
    exact schedDispatch_deadlined hv.resting hv.deadlined
  | rxDone packet =>
    obtain rfl := Option.some.inj hstep
    exact hv.deadlined
  | txDone =>
    obtain rfl := Option.some.inj hstep
    exact hv.deadlined

section Calls

variable {env : Env} {time : Nat → Nat} {w : World}

/-- A deadline is at most a period behind the begin of the next call. -/
theorem nextDispatch_le (htime : env.Tells time) (hrange : ∀ n, time n < 2 ^ 63) {b : Nat}
    (hw : w.Deadlined env) (hb : w.Begins time b) (task : Task) :
    (w.nextDispatch task).toNat ≤ b + task.dispatchPeriodMs.toNat * 1000 := by
  obtain ⟨n, hn, hset⟩ := hw task
  have hclock := htime.toNat_clock hrange n
  have hsigned := hrange n
  have hpast := hb.past n hn
  rw [hset, toNat_delayedByMs _ (by omega)]
  omega

/-- The print task's round comes first: it leaves the watchdog task's deadline, and time does
not go back. -/
theorem atWatchdogTask_spec (env : Env) (w : World) :
    (atWatchdogTask env w).nextDispatch .watchdogTask = w.nextDispatch .watchdogTask ∧
      w.samples ≤ (atWatchdogTask env w).samples := by
  rw [atWatchdogTask, isDue_run]
  split
  · exact ⟨by simp, Nat.le_add_right _ 2⟩
  · exact ⟨rfl, Nat.le_succ _⟩

/-- A call in the running state that begins behind the watchdog task's deadline feeds. -/
theorem running_calls_of_past (htime : env.Tells time) (hrange : ∀ n, time n < 2 ^ 63)
    (hw : w.Resting) (hcurrent : w.slate.currentStateId = .stateRunning) {b : Nat}
    (hb : w.Begins time b) (hpast : (w.nextDispatch .watchdogTask).toNat < b) :
    (schedDispatch hmac psk).callsWatchdogFeed env w = true := by
  obtain ⟨hsame, hsamples⟩ := atWatchdogTask_spec env w
  refine running_calls hw hcurrent (isDue_of_past htime hrange ?_)
  have hnext := hb.next
  have hlater := htime.monotone hsamples
  rw [hsame]
  omega

/-- Only the running state has the watchdog task, and only the burn-wire state its own. -/
theorem watchdogTask_notMem {id : StateId} {info : SchedState}
    (h : stateRegistryGet id = some info) (hid : id ≠ .stateRunning) :
    .watchdogTask ∉ info.taskList := by
  cases id with
  | stateInit =>
    obtain rfl := Option.some.inj h
    decide
  | stateRunning => exact absurd rfl hid
  | stateBurnWire =>
    obtain rfl := Option.some.inj h
    decide
  | stateBurnWireReset =>
    obtain rfl := Option.some.inj h
    decide
  | stateNone => cases h
  | stateBringup => cases h

theorem burnWireTask_notMem {id : StateId} {info : SchedState}
    (h : stateRegistryGet id = some info) (hid : id ≠ .stateBurnWire) :
    .burnWireTask ∉ info.taskList := by
  cases id with
  | stateInit =>
    obtain rfl := Option.some.inj h
    decide
  | stateRunning =>
    obtain rfl := Option.some.inj h
    decide
  | stateBurnWire => exact absurd rfl hid
  | stateBurnWireReset =>
    obtain rfl := Option.some.inj h
    decide
  | stateNone => cases h
  | stateBringup => cases h

/-- A call that does not feed leaves the watchdog task's deadline. -/
theorem watchdog_deadline_kept (hw : w.Resting)
    (hcalls : (schedDispatch hmac psk).callsWatchdogFeed env w = false) :
    ((schedDispatch hmac psk).run env w).2.nextDispatch .watchdogTask
      = w.nextDispatch .watchdogTask := by
  obtain ⟨info, hinfo⟩ := hw.registered
  cases hcurrent : w.slate.currentStateId with
  | stateRunning =>
    have hidle : ((isDue .watchdogTask).run env (atWatchdogTask env w)).1 = false := by
      by_contra hdue
      rw [Bool.not_eq_false] at hdue
      rw [running_calls hw hcurrent hdue] at hcalls
      cases hcalls
    obtain rfl : runningState = info := by
      rw [hcurrent] at hinfo
      exact Option.some.inj hinfo
    have hend : (afterRounds hmac psk env runningState w).Transition env
        ((schedDispatch hmac psk).run env w).2 := schedDispatch_transition env hinfo hw.cleared
    rw [hend.nextDispatch, afterRounds_running]
    -- the rounds behind it are other tasks'
    refine rounds_induct
      (I := fun v => v.nextDispatch .watchdogTask = w.nextDispatch .watchdogTask) ?_ ?_
    · intro task htask v hv
      have hother : Task.watchdogTask = task → ((isDue task).run env v).1 = false := by
        rintro rfl
        exact absurd htask (by decide)
      rw [dispatchIfDue_nextDispatch env v hother, hv]
    · rw [dispatchIfDue_nextDispatch env _ fun _ => hidle]
      exact (atWatchdogTask_spec env w).1
  | _ => exact schedDispatch_nextDispatch hw hinfo (watchdogTask_notMem hinfo (by simp [hcurrent]))

/-! ## Where a call leads -/

theorem schedDispatch_leaves_init (env : Env) (hw : w.Resting)
    (hcurrent : w.slate.currentStateId = .stateInit) :
    ((schedDispatch hmac psk).run env w).2.slate.currentStateId =
      if env.rbf (w.samples + 1) = true then .stateInit else .stateBurnWire := by
  have hinfo : stateRegistryGet w.slate.currentStateId = some initState := by
    rw [hcurrent]
    rfl
  rw [schedDispatch_run hmac psk hinfo]
  cases hpin : env.rbf (w.samples + 1) with
  | true =>
    simp [initState, schedDispatchRest, chooseNextState, initGetNextState, enterState,
      getAbsoluteTime, isRbfPinDetected, hcurrent, hw.cleared, hpin]
  | false =>
    simp [initState, schedDispatchRest, chooseNextState, initGetNextState, enterState,
      getAbsoluteTime, isRbfPinDetected, hcurrent, hw.cleared, hpin, stateRegistryGet]

theorem schedDispatch_leaves_reset (env : Env) (hw : w.Resting)
    (hcurrent : w.slate.currentStateId = .stateBurnWireReset) :
    ((schedDispatch hmac psk).run env w).2.slate.currentStateId = .stateRunning := by
  have hinfo : stateRegistryGet w.slate.currentStateId = some burnWireResetState := by
    rw [hcurrent]
    rfl
  rw [schedDispatch_run hmac psk hinfo]
  simp [burnWireResetState, schedDispatchRest, chooseNextState, burnWireResetGetNextState, enterState,
    getAbsoluteTime, hcurrent, hw.cleared, stateRegistryGet]

/-- What keeps a call from waiting without a feed: the init state's pin is out, and where the
burn-wire task reads both panels as deployed, with attempts left, so does the transition check
behind it. -/
structure World.KeepsFeeding (env : Env) (w : World) : Prop where
  pinOut : w.slate.currentStateId = .stateInit → env.rbf (w.samples + 1) = false
  panelsSteady : w.slate.currentStateId = .stateBurnWire →
    ((isDue .burnWireTask).run env w).1 = true → w.attempts < maxBurnWireAttempts →
    env.panelA (w.samples + 2) = true → env.panelB (w.samples + 3) = true →
      env.panelA (w.samples + 5) = true ∧ env.panelB (w.samples + 6) = true

/-- A burn-wire task that reads both panels as deployed takes two samples. -/
theorem burnWireTaskDispatch_deployed {env : Env} {w : World}
    (hA : env.panelA w.samples = true) (hB : env.panelB (w.samples + 1) = true) :
    (burnWireTaskDispatch.run env w).2 = { w with samples := w.samples + 2 } := by
  have hdeployed : ((isFlexPanelADeployed.run env w).1 = true ∧
      (isFlexPanelBDeployed.run env (isFlexPanelADeployed.run env w).2).1 = true) := ⟨hA, hB⟩
  rw [burnWireTaskDispatch, Flight.run_bind, Flight.run_bind, if_pos hdeployed]
  rfl

/-- **Out of the burn-wire state.** A call whose task is due feeds, or it goes to the running
state. -/
theorem burnWire_leaves (hw : w.Resting) (hcurrent : w.slate.currentStateId = .stateBurnWire)
    (hdue : ((isDue .burnWireTask).run env w).1 = true) (hkeeps : w.KeepsFeeding env)
    (hcalls : (schedDispatch hmac psk).callsWatchdogFeed env w = false) :
    ((schedDispatch hmac psk).run env w).2.slate.currentStateId = .stateRunning := by
  have hdeploys := schedDispatch_deploys hmac psk env hw hcurrent
  rw [hdeploys.leaves]
  by_cases hattempts : w.attempts < maxBurnWireAttempts
  · -- both panels read deployed, by the task and by the check
    have hboth : env.panelA (w.samples + 2) = true ∧ env.panelB (w.samples + 3) = true := by
      by_contra hstowed
      rw [burnWire_calls hw hcurrent hdue hstowed hattempts] at hcalls
      cases hcalls
    obtain ⟨hA, hB⟩ := hkeeps.panelsSteady hcurrent hdue hattempts hboth.1 hboth.2
    have hcheck : checkSample hmac psk env w = w.samples + 5 := by
      have hround : afterRounds hmac psk env burnWireState w
          = ((dispatchIfDue hmac psk .burnWireTask).run env w).2 := rfl
      have htask : Task.burnWireTask.taskDispatch hmac psk = burnWireTaskDispatch := rfl
      rw [checkSample, hround, dispatchIfDue_run, if_pos hdue, htask]
      rw [isDue_run] at hdue ⊢
      split at hdue
      · next h =>
        rw [if_pos h, burnWireTaskDispatch_deployed hboth.1 hboth.2]
      · cases hdue
    exact if_pos (Or.inl (by rw [hcheck]; exact ⟨hA, hB⟩))
  · refine if_pos (Or.inr ?_)
    have hcounted := hdeploys.counted
    omega

/-- Where the burn-wire task is not due, its deadline stays. -/
theorem burnWire_deadline_kept (hw : w.Resting)
    (h : w.slate.currentStateId = .stateBurnWire → ((isDue .burnWireTask).run env w).1 = false) :
    ((schedDispatch hmac psk).run env w).2.nextDispatch .burnWireTask
      = w.nextDispatch .burnWireTask := by
  obtain ⟨info, hinfo⟩ := hw.registered
  by_cases hcurrent : w.slate.currentStateId = .stateBurnWire
  · obtain rfl : burnWireState = info := by
      rw [hcurrent] at hinfo
      exact Option.some.inj hinfo
    have hend : (afterRounds hmac psk env burnWireState w).Transition env
        ((schedDispatch hmac psk).run env w).2 := schedDispatch_transition env hinfo hw.cleared
    have hround : afterRounds hmac psk env burnWireState w
        = ((dispatchIfDue hmac psk .burnWireTask).run env w).2 := rfl
    rw [hend.nextDispatch, hround, dispatchIfDue_nextDispatch env w fun _ => h hcurrent]
  · exact schedDispatch_nextDispatch hw hinfo (burnWireTask_notMem hinfo hcurrent)

/-! ## Windows of calls -/

variable {v v' v'' : World} {b b' b'' : Nat}

theorem Follows.nextDispatch (h : Follows hmac psk env v v') :
    v'.nextDispatch = ((schedDispatch hmac psk).run env v).2.nextDispatch := by
  obtain ⟨es, hes, hrun⟩ := h
  exact (interrupts_keep hes hrun).1

theorem Follows.currentStateId (h : Follows hmac psk env v v') :
    v'.slate.currentStateId = ((schedDispatch hmac psk).run env v).2.slate.currentStateId := by
  obtain ⟨es, hes, hrun⟩ := h
  exact (interrupts_keep hes hrun).2.2

/-- The call in the middle of three: if it is in the burn-wire state, behind the task's deadline,
and does not feed, it is the last one there. -/
theorem Follows.leaves_burnWire (htime : env.Tells time) (hrange : ∀ n, time n < 2 ^ 63)
    (hv : v.Governed env) (hb : v.Begins time b) (hpast : (v.nextDispatch .burnWireTask).toNat < b)
    (hcurrent : v.slate.currentStateId = .stateBurnWire) (hkeeps : v.KeepsFeeding env)
    (hcalls : (schedDispatch hmac psk).callsWatchdogFeed env v = false)
    (h : Follows hmac psk env v v') : v'.slate.currentStateId = .stateRunning := by
  have hdue : ((isDue .burnWireTask).run env v).1 = true :=
    isDue_of_past htime hrange (Nat.lt_of_lt_of_le hpast hb.next)
  rw [h.currentStateId]
  exact burnWire_leaves hv.resting hcurrent hdue hkeeps hcalls

/-- Behind two calls that do not feed and keep feeding possible, the running state has been
entered. -/
theorem Follows.reaches_running (htime : env.Tells time) (hrange : ∀ n, time n < 2 ^ 63)
    (hv : v.Governed env) (hb : v.Begins time b) (hkeeps : v.KeepsFeeding env)
    (hcalls : (schedDispatch hmac psk).callsWatchdogFeed env v = false)
    (hnot : v.slate.currentStateId ≠ .stateRunning) (h : Follows hmac psk env v v')
    (hb' : v'.Begins time b') (hapart : b < b') (hkeeps' : v'.KeepsFeeding env)
    (hcalls' : (schedDispatch hmac psk).callsWatchdogFeed env v' = false)
    (h' : Follows hmac psk env v' v'') :
    v'.slate.currentStateId = .stateRunning ∨ v''.slate.currentStateId = .stateRunning := by
  have hv' : v'.Governed env := h.governed hv
  have hdeadline : (v.nextDispatch .burnWireTask).toNat ≤ b :=
    nextDispatch_le htime hrange hv.deadlined hb .burnWireTask
  -- one call further the burn-wire task is due, if it was not dispatched before
  have hlast : (v.slate.currentStateId = .stateBurnWire →
        ((isDue .burnWireTask).run env v).1 = false) →
      v'.slate.currentStateId = .stateBurnWire → v''.slate.currentStateId = .stateRunning := by
    intro hidle hcurrent'
    refine h'.leaves_burnWire htime hrange hv' hb' ?_ hcurrent' hkeeps' hcalls'
    rw [h.nextDispatch, burnWire_deadline_kept hv.resting hidle]
    omega
  cases hcurrent : v.slate.currentStateId with
  | stateInit =>
    refine Or.inr (hlast (fun hburn => by simp [hcurrent] at hburn) ?_)
    rw [h.currentStateId, schedDispatch_leaves_init env hv.resting hcurrent, hkeeps.pinOut hcurrent]
    rfl
  | stateRunning => exact absurd hcurrent hnot
  | stateBurnWire =>
    cases hdue : ((isDue .burnWireTask).run env v).1 with
    | true =>
      left
      rw [h.currentStateId]
      exact burnWire_leaves hv.resting hcurrent hdue hkeeps hcalls
    | false =>
      have hnext := (schedDispatch_deploys hmac psk env hv.resting hcurrent).leaves
      rw [← h.currentStateId] at hnext
      split at hnext
      · exact Or.inl hnext
      · exact Or.inr (hlast (fun _ => hdue) hnext)
  | stateBurnWireReset =>
    left
    rw [h.currentStateId]
    exact schedDispatch_leaves_reset env hv.resting hcurrent
  | stateNone =>
    obtain ⟨info, hinfo⟩ := hv.resting.registered
    rw [hcurrent] at hinfo
    cases hinfo
  | stateBringup =>
    obtain ⟨info, hinfo⟩ := hv.resting.registered
    rw [hcurrent] at hinfo
    cases hinfo

end Calls

variable (hmac psk) in
/-- Consecutive calls of a run, each with the time it begins at, 200 ms apart. -/
structure Window (env : Env) (time : Nat → Nat) (calls : List (Nat × World)) : Prop where
  reached : ∀ c ∈ calls.head?, c.2.Reached hmac psk env
  begins : ∀ c ∈ calls, c.2.Begins time c.1
  apart : calls.IsChain fun c c' => Follows hmac psk env c.2 c'.2 ∧ c.1 + 200000 ≤ c'.1

variable (hmac psk) in
/-- Any `n` consecutive calls of a run that begin 200 ms apart contain a feed. -/
def FeedsWithin (n : Nat) : Prop :=
  ∀ env time, env.Tells time → ∀ calls, calls.length = n → Window hmac psk env time calls →
    ∃ c ∈ calls, (schedDispatch hmac psk).callsWatchdogFeed env c.2 = true

/-- A call that does not feed leaves the watchdog task's deadline to the next. -/
theorem Follows.watchdog_deadline {env : Env} {v v' : World} (hv : v.Governed env)
    (hcalls : (schedDispatch hmac psk).callsWatchdogFeed env v = false)
    (h : Follows hmac psk env v v') :
    v'.nextDispatch .watchdogTask = v.nextDispatch .watchdogTask := by
  rw [h.nextDispatch]
  exact watchdog_deadline_kept hv.resting hcalls

/-- **Four calls suffice where none waits.** In every run from a boot, with a clock in the signed
range, four consecutive calls that begin 200 ms apart, and of which none waits in the init state
for its pin or in the burn-wire state for panels that read differently within the call, contain
a feed. -/
theorem watchdog_coverage (env : Env) (time : Nat → Nat) (htime : env.Tells time)
    (hrange : ∀ n, time n < 2 ^ 63) (calls : List (Nat × World)) (hlength : calls.length = 4)
    (hwindow : Window hmac psk env time calls) (hkeeps : ∀ c ∈ calls, c.2.KeepsFeeding env) :
    ∃ c ∈ calls, (schedDispatch hmac psk).callsWatchdogFeed env c.2 = true := by
  by_contra hnone
  obtain ⟨⟨b₁, w₁⟩, ⟨b₂, w₂⟩, ⟨b₃, w₃⟩, ⟨b₄, w₄⟩, rfl⟩ := List.length_eq_four.mp hlength
  have hcalls : ∀ c ∈ [(b₁, w₁), (b₂, w₂), (b₃, w₃), (b₄, w₄)],
      (schedDispatch hmac psk).callsWatchdogFeed env c.2 = false := by
    intro c hc
    by_contra hfeeds
    rw [Bool.not_eq_false] at hfeeds
    exact hnone ⟨c, hc, hfeeds⟩
  obtain ⟨hreached, hbegins, hapart⟩ := hwindow
  have hw₁ : w₁.Governed env := World.Reached.governed (hreached (b₁, w₁) rfl)
  simp only [List.mem_cons, List.not_mem_nil, or_false, forall_eq_or_imp, forall_eq]
    at hbegins hcalls hkeeps
  simp only [List.isChain_cons_cons, List.IsChain.singleton, and_true] at hapart
  obtain ⟨hb₁, hb₂, hb₃, hb₄⟩ := hbegins
  obtain ⟨hcalls₁, hcalls₂, hcalls₃, hcalls₄⟩ := hcalls
  obtain ⟨⟨h₁₂, hapart₁₂⟩, ⟨h₂₃, hapart₂₃⟩, h₃₄, hapart₃₄⟩ := hapart
  have hw₂ : w₂.Governed env := h₁₂.governed hw₁
  have hw₃ : w₃.Governed env := h₂₃.governed hw₂
  have hw₄ : w₄.Governed env := h₃₄.governed hw₃
  -- the watchdog task's deadline lies before the second call, and stays there
  have hdeadline : (w₁.nextDispatch .watchdogTask).toNat ≤ b₁ + 100000 :=
    nextDispatch_le htime hrange hw₁.deadlined hb₁ .watchdogTask
  have hkept₂ := h₁₂.watchdog_deadline hw₁ hcalls₁
  have hkept₃ := h₂₃.watchdog_deadline hw₂ hcalls₂
  have hkept₄ := h₃₄.watchdog_deadline hw₃ hcalls₃
  -- so none of the last three is in the running state
  have hnot : ∀ {v : World} {b : Nat}, v.Governed env → v.Begins time b →
      (schedDispatch hmac psk).callsWatchdogFeed env v = false →
      (v.nextDispatch .watchdogTask).toNat < b → v.slate.currentStateId ≠ .stateRunning := by
    intro v b hv hb hquiet hpast hcurrent
    rw [running_calls_of_past htime hrange hv.resting hcurrent hb hpast] at hquiet
    cases hquiet
  have hnot₂ := hnot hw₂ hb₂ hcalls₂ (by rw [hkept₂]; omega)
  have hnot₃ := hnot hw₃ hb₃ hcalls₃ (by rw [hkept₃, hkept₂]; omega)
  have hnot₄ := hnot hw₄ hb₄ hcalls₄ (by rw [hkept₄, hkept₃, hkept₂]; omega)
  -- but the last two cannot both be elsewhere
  have hruns := h₂₃.reaches_running htime hrange hw₂ hb₂ hkeeps.2.1 hcalls₂ hnot₂ hb₃ (by omega)
    hkeeps.2.2.1 hcalls₃ h₃₄
  exact hruns.elim hnot₃ hnot₄

end Feeds

/-! ## How many samples a call takes -/

section Samples

theorem watchdogInit_takes : watchdogInit.Takes 1 :=
  .bind (.emit _) fun _ => .bind (.sample _) fun _ => .modifySlate _

theorem watchdogFeed_takes : watchdogFeed.Takes 3 := by
  refine .bind (c := 0) (d := 3) .slate fun slate => ?_
  refine .bind (c := 1) (d := 2) (.when watchdogInit_takes) fun _ => ?_
  refine .bind (c := 0) (d := 2) .slate fun slate => ?_
  refine .bind (c := 1) (d := 1) (.sample _) fun now => ?_
  refine .ite (c := 1) (d := 1) ?_ (.ite (c := 1) (d := 0) ?_ (.pure _))
  · exact .bind (.emit _) fun _ => .bind (.sample _) fun _ => .modifySlate _
  · exact .bind (.emit _) fun _ => .bind (.sample _) fun _ => .bind (.modifySlate _) fun _ => .emit _

theorem safeSleepMs_takes (ms : Nat) : (safeSleepMs ms).Takes (3 * ms) := by
  suffices hloop : ∀ rounds ms, (safeSleepLoop rounds ms).Takes (3 * rounds) from hloop ms ms
  intro rounds
  induction rounds with
  | zero => exact fun ms => .emit _
  | succ rounds ih =>
    intro ms
    have hround : (do
        watchdogFeed
        Flight.emit (.sleepMs minWatchdogIntervalMs)
        safeSleepLoop rounds (ms - minWatchdogIntervalMs) : Flight Unit).Takes
          (3 + (0 + 3 * rounds)) :=
      .bind watchdogFeed_takes fun _ => .bind (.emit _) fun _ => ih _
    refine .mono ?_ (.ite hround (.emit _))
    omega

theorem burnWireTaskDispatch_takes : burnWireTaskDispatch.Takes 20000 := by
  have hactivate : ∀ a b, (burnWireActivate burnDurationMs a b).Takes 2403 := fun a b =>
    .bind (.emit _) fun _ => .bind (.when (.emit _)) fun _ => .bind (.when (.emit _)) fun _ =>
      .bind (safeSleepMs_takes burnDurationMs) fun _ => .bind (.emit _) fun _ =>
        .bind (.emit _) fun _ => .bind (.emit _) fun _ => safeSleepMs_takes 1
  have hburn : ∀ a b, (burnPanels a b).Takes 19806 := fun a b =>
    .bind (safeSleepMs_takes 1000) fun _ => .bind (.when (hactivate _ _)) fun _ =>
      .bind (.when (hactivate _ _)) fun _ => safeSleepMs_takes 4000
  have hread : getBurnWireAttempts.Takes 0 := .none fun _ _ => rfl
  have hrest : ∀ a b, (do
      let burnWireAttempts ← getBurnWireAttempts
      if burnWireAttempts.toNat ≥ maxBurnWireAttempts then
        return
      else
        burnPanels a b
        let _ ← Flight.update .incrementBurnWireAttempts : Flight Unit).Takes 19806 := fun a b =>
    .bind hread fun _ => .ite (.pure _)
      (.bind (hburn _ _) fun _ => .bind (.update _) fun _ => .pure _)
  have htask : burnWireTaskDispatch.Takes (1 + (1 + max 0 19806)) :=
    .bind (.sample _) fun a => .bind (.sample _) fun b => .ite (.pure _) (hrest a b)
  exact htask.mono (by decide)

theorem dispatchCommand_takes (packet : Packet) : (dispatchCommand packet).Takes 1 := by
  refine .bind (c := 0) (d := 1) (.modifySlate _) fun _ => ?_
  cases Command.ofByte packet.data[0] with
  | none => exact .mono (Nat.zero_le 1) (.pure _)
  | some command =>
    cases command with
    | ping => exact .bind (.sample _) fun _ => .bind .slate fun _ => .modifySlate _
    | payloadExec => exact .bind (.sample _) fun _ => .bind .slate fun _ => .modifySlate _
    | payloadTurnOn =>
      have hon : payloadTurnOn.Takes 1 :=
        .bind (.emit _) fun _ => .bind (.modifySlate _) fun _ => .bind (.sample _) fun _ =>
          .modifySlate _
      exact hon
    | payloadTurnOff =>
      have hoff : payloadTurnOff.Takes 0 :=
        .bind .slate fun _ => .ite (.pure _)
          (.bind (.emit _) fun _ => .bind (.emit _) fun _ => .modifySlate _)
      exact hoff.mono (Nat.zero_le 1)
    | manualStateOverride => exact .mono (Nat.zero_le 1) (.modifySlate _)
    | adcsExec => exact .mono (Nat.zero_le 1) (.emit _)
    | adcsPacket => exact .mono (Nat.zero_le 1) (.pure _)

variable (hmac : Hmac) (psk : Option PacketHmacPsk)

theorem commandTaskDispatch_takes : (commandTaskDispatch hmac psk).Takes 1 := by
  refine .bind (c := 0) (d := 1) .slate fun slate => ?_
  rcases slate.rxQueue.tryRemove with ⟨_ | packet, rxQueue⟩
  · exact .mono (Nat.zero_le 1) (.pure _)
  · have hread : Flight.lastSeenMsgId.Takes 0 := .none fun _ _ => rfl
    have hset : ∀ id, (Flight.setLastSeenMsgId id).Takes 0 := fun _ => .none fun _ _ => rfl
    refine .bind (c := 0) (d := 1) (.modifySlate _) fun _ => ?_
    refine .bind (c := 0) (d := 1) hread fun _ => .bind (c := 0) (d := 1) (hset _) fun _ => ?_
    exact .when (dispatchCommand_takes packet)

theorem taskDispatch_takes (task : Task) : (task.taskDispatch hmac psk).Takes 20000 := by
  cases task with
  | printTask => exact .mono (by decide) (.pure _)
  | watchdogTask => exact .mono (by decide) watchdogFeed_takes
  | beaconTask =>
    have hbeacon : beaconTaskDispatch.Takes 1 := .bind (.sample _) fun _ => .modifySlate _
    exact hbeacon.mono (by decide)
  | telemetryTask =>
    have htelemetry : telemetryTaskDispatch.Takes 2 :=
      .bind (.sample _) fun _ => .bind (.sample _) fun _ => .modifySlate _
    exact htelemetry.mono (by decide)
  | adcsTask =>
    have hadcs : adcsTaskDispatch.Takes 0 :=
      .bind (.emit _) fun _ => .bind (.emit _) fun _ => .emit _
    exact hadcs.mono (by decide)
  | radioTask =>
    have hradio : radioTaskDispatch.Takes 0 := .modifySlate _
    exact hradio.mono (by decide)
  | commandTask => exact (commandTaskDispatch_takes hmac psk).mono (by decide)
  | burnWireTask => exact burnWireTaskDispatch_takes

theorem dispatchIfDue_takes (task : Task) : (dispatchIfDue hmac psk task).Takes 20002 := by
  have hread : (Flight.nextDispatch task).Takes 0 := .none fun _ _ => rfl
  have hset : ∀ t, (Flight.setNextDispatch task t).Takes 0 := fun _ => .none fun _ _ => rfl
  refine .bind (c := 0) (d := 20002) hread fun _ => ?_
  refine .bind (c := 1) (d := 20001) (.sample _) fun _ => .when ?_
  refine .bind (c := 1) (d := 20000) (.bind (d := 0) (.sample _) fun _ => .pure _) fun _ => ?_
  exact .bind (c := 0) (d := 20000) (hset _) fun _ => taskDispatch_takes hmac psk task

/-- A state has seven tasks at most, and its check takes two samples at most. -/
theorem schedState_takes {id : StateId} {info : SchedState} (h : stateRegistryGet id = some info) :
    info.taskList.length ≤ 7 ∧ info.getNextState.Takes 2 := by
  cases id with
  | stateInit =>
    obtain rfl := Option.some.inj h
    have hnext : initGetNextState.Takes 1 := .bind (.sample _) fun _ => .pure _
    exact ⟨by decide, hnext.mono (by decide)⟩
  | stateRunning =>
    obtain rfl := Option.some.inj h
    exact ⟨by decide, .mono (by decide) (.pure _)⟩
  | stateBurnWire =>
    obtain rfl := Option.some.inj h
    have hread : getBurnWireAttempts.Takes 0 := .none fun _ _ => rfl
    have hnext : burnWireGetNextState.Takes 2 := by
      refine .bind (c := 1) (d := 1) (.sample _) fun _ => ?_
      refine .bind (c := 1) (d := 0) (.sample _) fun _ => ?_
      refine .bind (c := 0) (d := 0) (.modifySlate _) fun _ => .ite (c := 0) (d := 0) (.pure _) ?_
      exact .bind hread fun _ => .ite (.pure _) (.pure _)
    exact ⟨by decide, hnext⟩
  | stateBurnWireReset =>
    obtain rfl := Option.some.inj h
    have hnext : burnWireResetGetNextState.Takes 0 := .bind (.update _) fun _ => .pure _
    exact ⟨by decide, hnext.mono (by decide)⟩
  | stateNone => cases h
  | stateBringup => cases h

theorem schedDispatch_takes : (schedDispatch hmac psk).Takes 200000 := by
  intro env w
  cases hinfo : stateRegistryGet w.slate.currentStateId with
  | none =>
    rw [schedDispatch, Flight.run_bind, Flight.run_slate]
    simp [hinfo]
  | some info =>
    obtain ⟨hfew, hnext⟩ := schedState_takes hinfo
    have hchoose : (chooseNextState info).Takes 2 := by
      refine .bind (c := 0) (d := 2) .slate fun _ => .ite (c := 0) (d := 2) ?_ hnext
      exact .bind (.when (.emit _)) fun _ => .bind (.modifySlate _) fun _ => .pure _
    have henter : ∀ next, (enterState next).Takes 1 := by
      refine fun next => .bind (c := 0) (d := 1) .slate fun _ => .when ?_
      refine .bind (c := 0) (d := 1) (.when (.emit _)) fun _ => ?_
      refine .bind (c := 0) (d := 1) (.modifySlate _) fun _ => ?_
      exact .bind (.sample _) fun _ => .modifySlate _
    have hfinish : (schedDispatchRest info).Takes 4 :=
      .bind (c := 1) (d := 3) (.sample _) fun _ => .bind (c := 0) (d := 3) (.modifySlate _) fun _ =>
        .bind hchoose henter
    have hrounds := Nat.mul_le_mul_right 20002 hfew
    have hcall : (info.taskList.forM (dispatchIfDue hmac psk) >>= fun _ => schedDispatchRest info).Takes
        (info.taskList.length * 20002 + 4) :=
      .bind (.forM fun task _ => dispatchIfDue_takes hmac psk task) fun _ => hfinish
    have htakes := hcall env w
    rw [schedDispatch_run hmac psk hinfo]
    omega

/-- A call looks at the clock behind its rounds. -/
theorem schedDispatch_samples (env : Env) {w : World} (hw : w.Resting) :
    w.samples < ((schedDispatch hmac psk).run env w).2.samples := by
  obtain ⟨info, hinfo⟩ := hw.registered
  have hsame : World.SameState w (afterRounds hmac psk env info w) := afterRounds_sameState env info w
  have hrounds : (info.taskList.forM (dispatchIfDue hmac psk)).Steps
      fun w w' => w.samples ≤ w'.samples := by
    have hpreorder : IsPreorder World fun w w' => w.samples ≤ w'.samples :=
      { refl := fun _ => Nat.le_refl _, trans := fun _ _ _ => Nat.le_trans }
    refine .forM fun task _ env v => ?_
    rw [dispatchIfDue_run]
    have hlook : v.samples ≤ ((isDue task).run env v).2.samples := by
      rw [isDue_run]
      split
      · exact Nat.le_add_right _ 2
      · exact Nat.le_add_right _ 1
    split
    · exact Nat.le_trans hlook (taskDispatch_routine hmac psk task env _).samples
    · exact hlook
  rw [schedDispatch_afterRounds env hinfo]
  refine Nat.lt_of_le_of_lt (hrounds env w) (schedDispatchRest_samples env ?_ ?_)
  · exact hsame.currentStateId ▸ hinfo
  · rcases hsame.override with hkept | hset
    · exact Or.inl (hkept.trans hw.cleared)
    · exact hset

theorem mainInit_takes : mainInit.Takes 3000000 := by
  have hstart : mainStart.Takes 2700001 :=
    .bind (c := 0) (d := 2700001) (.emit _) fun _ =>
      .bind (c := 0) (d := 2700001) (.modifySlate _) fun _ =>
        .bind (c := 1) (d := 2700000) watchdogInit_takes fun _ => safeSleepMs_takes 900000
  have hinit : schedInit.Takes 9 := by
    have htask : ∀ task : Task, task.taskInit.Takes 0 := by
      intro task
      cases task with
      | radioTask => exact .none fun _ _ => rfl
      | commandTask => exact .none fun _ _ => rfl
      | _ => exact .pure _
    have hset : ∀ task t, (Flight.setNextDispatch task t).Takes 0 := fun _ _ =>
      .none fun _ _ => rfl
    refine .bind (c := 8 * 0) (d := 9) (.forM fun task _ => htask task) fun _ => ?_
    refine .bind (c := 8 * 1) (d := 1) (.forM fun task _ => ?_) fun _ => ?_
    · exact .bind (c := 1) (d := 0) (.bind (d := 0) (.sample _) fun _ => .pure _) fun _ => hset _ _
    · exact .bind (.modifySlate _) fun _ => .bind (.sample _) fun _ => .modifySlate _
  have hwires : burnWireInit.Takes 0 :=
    .bind (.emit _) fun _ => .bind (.emit _) fun _ => .emit _
  have hfinish : ∀ data, (mainFinish data).Takes 9 := fun data =>
    .bind (c := 0) (d := 9) hwires fun _ =>
      .bind (c := 9) (d := 0) hinit fun _ => .modifySlate _
  have hmain : mainInit.Takes (2700001 + (0 + (0 + 9))) :=
    .bind hstart fun _ => .bind (.update _) fun _ => .bind (.update _) fun _ => hfinish _
  exact hmain.mono (by decide)

end Samples

/-! ## Waiting for the pin -/

/-- A call in the init state with its pin in: it looks at the clock and at the pin. -/
theorem schedDispatch_waits (hmac : Hmac) (psk : Option PacketHmacPsk) (env : Env) {w : World}
    (hcurrent : w.slate.currentStateId = .stateInit)
    (hcleared : w.slate.manualOverrideStateId = .stateNone) (hpin : ∀ n, env.rbf n = true) :
    let w' := ((schedDispatch hmac psk).run env w).2
    w'.slate.currentStateId = .stateInit ∧ w'.slate.manualOverrideStateId = .stateNone ∧
      w'.slate.watchdog = w.slate.watchdog ∧ w'.samples = w.samples + 2 := by
  have hinfo : stateRegistryGet w.slate.currentStateId = some initState := by
    rw [hcurrent]
    rfl
  rw [schedDispatch_run hmac psk hinfo]
  simp [initState, schedDispatchRest, chooseNextState, initGetNextState, enterState, getAbsoluteTime,
    isRbfPinDetected, hcurrent, hcleared, hpin]

/-- The world behind a boot and `n` calls. -/
def afterCalls (env : Env) : Nat → World
  | 0 => (mainInit.run env (World.atReset ⟨initMarker, 0, 0⟩)).2
  | n + 1 => ((schedDispatch zeroHmac none).run env (afterCalls env n)).2

theorem afterCalls_zero (env : Env) :
    afterCalls env 0 = (mainInit.run env (World.atReset ⟨initMarker, 0, 0⟩)).2 := rfl

theorem afterCalls_succ (env : Env) (n : Nat) :
    afterCalls env (n + 1) = ((schedDispatch zeroHmac none).run env (afterCalls env n)).2 := rfl

/-- The calls behind a boot are a window, where they are 200 ms apart. -/
theorem afterCalls_window (env : Env) {time : Nat → Nat} (htime : Monotone time) (n : Nat)
    (hapart : ∀ k < n - 1,
      time (afterCalls env k).samples + 200000 ≤ time (afterCalls env (k + 1)).samples) :
    Window zeroHmac none env time
      ((List.range n).map fun k => (time (afterCalls env k).samples, afterCalls env k)) where
  reached := by
    cases n with
    | zero => simp
    | succ n =>
      rw [List.range_succ_eq_map]
      intro c hc
      obtain rfl := Option.some.inj hc
      exact ⟨⟨initMarker, 0, 0⟩, [], by simp, rfl⟩
  begins := by
    intro c hc
    obtain ⟨k, _, rfl⟩ := List.mem_map.mp hc
    exact ⟨fun m hm => htime (Nat.le_of_lt hm), Nat.le_refl _⟩
  apart := by
    rw [List.isChain_map, List.isChain_range]
    exact fun k hk => ⟨⟨[], by simp, rfl⟩, hapart k hk⟩

/-- Every sample is 200 ms later, for a while; the panels are deployed, and the pin is out. -/
def Env.pacing : Env :=
  { Env.still with
    clock := fun n => UInt64.ofNat (200000 * min n (2 ^ 40))
    panelA := fun _ => true
    panelB := fun _ => true }

/-- The four calls behind a boot: none waits, and one feeds. -/
theorem watchdog_coverage_first_calls :
    ∃ k < 4, (schedDispatch zeroHmac none).callsWatchdogFeed .pacing (afterCalls .pacing k)
      = true := by
  have hmonotone : Monotone fun n => 200000 * min n (2 ^ 40) :=
    fun m n h => Nat.mul_le_mul_left _ (min_le_min_right _ h)
  have htime : Env.pacing.Tells fun n => 200000 * min n (2 ^ 40) := ⟨hmonotone, fun _ => rfl⟩
  have hrange : ∀ n, 200000 * min n (2 ^ 40) < 2 ^ 63 := by
    intro n
    omega
  -- the calls take few samples, and each takes one
  have hsamples : ∀ k, (afterCalls .pacing k).samples < (afterCalls .pacing (k + 1)).samples ∧
      (afterCalls .pacing k).samples ≤ 3000000 + k * 200000 ∧ (afterCalls .pacing k).Resting := by
    intro k
    induction k with
    | zero =>
      have hrests := mainInit_resting ⟨initMarker, 0, 0⟩ .pacing
      have htakes := mainInit_takes .pacing (World.atReset ⟨initMarker, 0, 0⟩)
      have hzero : (World.atReset ⟨initMarker, 0, 0⟩).samples = 0 := rfl
      rw [afterCalls_succ, afterCalls_zero]
      exact ⟨schedDispatch_samples zeroHmac none .pacing hrests, by omega, hrests⟩
    | succ k ih =>
      have hrests := schedDispatch_resting zeroHmac none .pacing ih.2.2
      have htakes := schedDispatch_takes zeroHmac none .pacing (afterCalls .pacing k)
      rw [← afterCalls_succ] at hrests htakes
      refine ⟨?_, by omega, hrests⟩
      rw [afterCalls_succ .pacing (k + 1)]
      exact schedDispatch_samples zeroHmac none .pacing hrests
  have hwindow := afterCalls_window .pacing hmonotone 4 fun k hk => by
    have hless := (hsamples k).1
    have hfew := (hsamples (k + 1)).2.1
    omega
  obtain ⟨c, hc, hcalls⟩ := watchdog_coverage .pacing _ htime hrange _ (by simp) hwindow
    fun c _ => ⟨fun _ => rfl, fun _ _ _ _ _ => ⟨rfl, rfl⟩⟩
  obtain ⟨k, hk, rfl⟩ := List.mem_map.mp hc
  exact ⟨k, List.mem_range.mp hk, hcalls⟩

/-- The pin is in at every sample, and every sample is 200 ms later. -/
def Env.pinned : Env :=
  { Env.still with
    clock := fun n => UInt64.ofNat (200000 * n)
    rbf := fun _ => true }

theorem afterCalls_pinned (n : Nat) : (afterCalls .pinned n).slate.currentStateId = .stateInit ∧
    (afterCalls .pinned n).slate.manualOverrideStateId = .stateNone := by
  induction n with
  | zero => exact mainInit_state _ _
  | succ n ih =>
    obtain ⟨hcurrent, hcleared, _⟩ := schedDispatch_waits zeroHmac none .pinned ih.1 ih.2
      fun _ => rfl
    exact ⟨hcurrent, hcleared⟩

/-- **No number of calls suffices**: with the pin in, the init state waits as long as it likes. -/
theorem watchdog_coverage_no_bound : ¬∃ n, FeedsWithin zeroHmac none n := by
  rintro ⟨n, hfeeds⟩
  have hmonotone : Monotone (200000 * · : Nat → Nat) := fun _ _ h => Nat.mul_le_mul_left _ h
  have hwindow := afterCalls_window .pinned hmonotone n fun k _ => by
    obtain ⟨hcurrent, hcleared⟩ := afterCalls_pinned k
    have hwaits := schedDispatch_waits zeroHmac none .pinned hcurrent hcleared fun _ => rfl
    have hnext : (afterCalls .pinned (k + 1)).samples = (afterCalls .pinned k).samples + 2 :=
      hwaits.2.2.2
    rw [hnext]
    omega
  obtain ⟨c, hc, hcalls⟩ := hfeeds .pinned _ ⟨hmonotone, fun _ => rfl⟩ _ (by simp) hwindow
  obtain ⟨k, _, rfl⟩ := List.mem_map.mp hc
  obtain ⟨hcurrent, hcleared⟩ := afterCalls_pinned k
  -- a call tells by setting the watchdog up, which waiting does not
  have hwaits := schedDispatch_waits zeroHmac none .pinned (w := (afterCalls .pinned k).unfed)
    hcurrent hcleared fun _ => rfl
  rw [Flight.callsWatchdogFeed, hwaits.2.2.1] at hcalls
  cases hcalls

end Samwise
