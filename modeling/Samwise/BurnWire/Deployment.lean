import Samwise.Scheduler.MainLoop

/-!
# Samwise — the deployment sequence

A stay in the burn-wire state, call by call, for every reading of the deploy pins at the three
places they are sampled: the start of the task, the transition check, and the next task. What
one call does is `Deploys`; a whole stay adds the calls up (`deployment_sequence`).
-/

namespace Samwise

open Run

section Deployment

variable (hmac : Hmac) (psk : Option PacketHmacPsk)

/-! ## The pieces of a call -/

/-- The attempts in flash. -/
def World.attempts (w : World) : Nat := w.persistent.burnWireAttempts.toNat

/-- **The task**, in effects and attempts: it energises where a panel reads stowed and attempts are
left, and then counts one. -/
theorem burnWireTaskDispatch_counts (env : Env) (w : World) :
    let w' := (burnWireTaskDispatch.run env w).2
    ∃ t, w'.trace = w.trace ++ t ∧ w'.flash = w.flash ∧ BurnPins.off.afterAll t = .off ∧
      (∀ p, p <+: t → BurnPins.Allowed (env.panelA w.samples) (env.panelB (w.samples + 1))
        (BurnPins.off.afterAll p)) ∧
      w'.attempts = w.attempts + (if energises t = true then 1 else 0) ∧
      (energises t = true ↔ ¬(env.panelA w.samples = true ∧ env.panelB (w.samples + 1) = true) ∧
        w.attempts < maxBurnWireAttempts) := by
  intro w'
  obtain ⟨t, ht, hoff, hallowed⟩ := burnWireTaskDispatch_drives env w
  obtain ⟨hflash, htrace⟩ := burnWireTaskDispatch_trace env w
  have hattempts : w'.attempts = (flashAfter w.persistent t).burnWireAttempts.toNat := by
    rw [World.attempts, World.persistent, hflash, ht, flashAfter_append]
    rfl
  refine ⟨t, ht, hflash, hoff, hallowed, ?_⟩
  rw [hattempts]
  split at htrace
  · next hnothing =>
    obtain rfl : t = [] := by
      rw [ht, List.append_right_eq_self] at htrace
      exact htrace
    refine ⟨by simp [energises, World.attempts], iff_of_false Bool.false_ne_true ?_⟩
    rintro ⟨hstowed, hleft⟩
    exact hnothing.elim hstowed (Nat.not_le.mpr hleft)
  · next hburns =>
    obtain ⟨burn, ⟨e, he, hdrive⟩, hburn, htrace⟩ := htrace
    obtain rfl := List.append_cancel_left (ht.symm.trans (htrace.trans (List.append_assoc ..)))
    obtain ⟨hstowed, hused⟩ := not_or.mp hburns
    have hleft : w.attempts < maxBurnWireAttempts := Nat.not_le.mp hused
    have henergises : ∀ rest, energises (burn ++ rest) = true := fun rest =>
      List.any_eq_true.mpr ⟨e, List.mem_append_left _ he, hdrive⟩
    rw [flashAfter_append, flashAfter_of_no_write hburn, henergises]
    refine ⟨?_, iff_of_true rfl ⟨hstowed, hleft⟩⟩
    show (incrementBurnWireAttempts w.persistent).burnWireAttempts.toNat = w.attempts + 1
    rw [World.attempts, maxBurnWireAttempts_eq] at hleft
    simp only [incrementBurnWireAttempts, UInt32.toNat_add, UInt32.reduceToNat, World.attempts]
    omega

/-- The rounds of a call in the burn-wire state: the task's, due or not. -/
theorem afterRounds_burnWire (env : Env) (w : World) :
    let u := afterRounds hmac psk env burnWireState w
    ∃ t, u.trace = w.trace ++ t ∧ u.flash = w.flash ∧ BurnPins.off.afterAll t = .off ∧
      (∀ p, p <+: t → BurnPins.Allowed (env.panelA (w.samples + 2)) (env.panelB (w.samples + 3))
        (BurnPins.off.afterAll p)) ∧
      u.attempts = w.attempts + (if energises t = true then 1 else 0) ∧
      (energises t = true ↔
        absoluteTimeDiffUs (w.nextDispatch .burnWireTask) (env.clock w.samples) > 0 ∧
          ¬(env.panelA (w.samples + 2) = true ∧ env.panelB (w.samples + 3) = true) ∧
          w.attempts < maxBurnWireAttempts) ∧
      u.slate.manualOverrideStateId = w.slate.manualOverrideStateId := by
  have hround : afterRounds hmac psk env burnWireState w
      = ((dispatchIfDue hmac psk .burnWireTask).run env w).2 := rfl
  intro u
  have hu : u = ((dispatchIfDue hmac psk .burnWireTask).run env w).2 := hround
  rw [dispatchIfDue_run, isDue_run] at hu
  split at hu
  · next hdue =>
    -- the task samples the pins behind the two readings of the clock
    have htask : Task.burnWireTask.taskDispatch hmac psk = burnWireTaskDispatch := rfl
    rw [if_pos rfl, htask] at hu
    dsimp only at hu
    rw [hu]
    set w₁ : World := { w with
      samples := w.samples + 2
      nextDispatch := fun task' => if task' = .burnWireTask then
        delayedByMs (env.clock (w.samples + 1)) Task.burnWireTask.dispatchPeriodMs
        else w.nextDispatch task' }
    obtain ⟨t, ht, hflash, hoff, hallowed, hcounted, henergised⟩ :=
      burnWireTaskDispatch_counts env w₁
    have hroutine := burnWireTaskDispatch_routine (O := fun _ => False) env w₁
    exact ⟨t, ht, hflash, hoff, hallowed, hcounted,
      henergised.trans (and_iff_right (b := _ ∧ _) hdue).symm, hroutine.override.resolve_right id⟩
  · next hdue =>
    rw [if_neg (by simp)] at hu
    rw [hu]
    refine ⟨[], (List.append_nil _).symm, rfl, rfl, fun p hp => ?_, rfl, ?_, rfl⟩
    · obtain rfl := List.prefix_nil.mp hp
      exact .of_off _ _ _
    · exact iff_of_false Bool.false_ne_true fun h => hdue h.1

/-- The end of a call in the burn-wire state: the pins are sampled again, and the state is left
when both read deployed or the attempts are used up. -/
theorem schedDispatchRest_burnWire (env : Env) {w : World}
    (hcurrent : w.slate.currentStateId = .stateBurnWire)
    (hcleared : w.slate.manualOverrideStateId = .stateNone) :
    let w' := ((schedDispatchRest burnWireState).run env w).2
    w'.trace = w.trace ∧ w'.flash = w.flash ∧ w'.slate.currentStateId =
      if (env.panelA (w.samples + 1) = true ∧ env.panelB (w.samples + 2) = true) ∨
          maxBurnWireAttempts ≤ w.persistent.burnWireAttempts.toNat then .stateRunning
      else .stateBurnWire := by
  have hpersistent : ∀ slate samples,
      ({ w with slate, samples } : World).persistent = w.persistent := fun _ _ => rfl
  by_cases hboth : env.panelA (w.samples + 1) = true ∧ env.panelB (w.samples + 2) = true
  · simp [schedDispatchRest, chooseNextState, burnWireState, burnWireGetNextState, enterState,
      getAbsoluteTime, isFlexPanelADeployed, isFlexPanelBDeployed, hcurrent, hcleared, hboth,
      stateRegistryGet]
  · by_cases hused : maxBurnWireAttempts ≤ w.persistent.burnWireAttempts.toNat
    · rw [maxBurnWireAttempts_eq] at hused
      simp [schedDispatchRest, chooseNextState, burnWireState, burnWireGetNextState, enterState,
        getAbsoluteTime, isFlexPanelADeployed, isFlexPanelBDeployed, hcurrent, hcleared, hboth,
        stateRegistryGet, getBurnWireAttempts, hpersistent, hused]
    · rw [maxBurnWireAttempts_eq] at hused
      simp [schedDispatchRest, chooseNextState, burnWireState, burnWireGetNextState, enterState,
        getAbsoluteTime, isFlexPanelADeployed, isFlexPanelBDeployed, hcurrent, hcleared, hboth,
        stateRegistryGet, getBurnWireAttempts, hpersistent, hused]

/-! ## A call -/

/-- The effects of a call. -/
def dispatchEffects (env : Env) (w : World) : List Effect :=
  ((schedDispatch hmac psk).run env w).2.trace.drop w.trace.length

/-- The number of the first sample of the transition check. -/
def checkSample (env : Env) (w : World) : Nat :=
  (afterRounds hmac psk env burnWireState w).samples + 1

/-- What a call in the burn-wire state does. Its task, where it is due, samples the pins right
behind two readings of the clock, and energises wires where a panel reads stowed and attempts are
left; the transition check samples the pins again. -/
structure Deploys (env : Env) (w : World) : Prop where
  allowed : ∀ p, p <+: dispatchEffects hmac psk env w →
    BurnPins.Allowed (env.panelA (w.samples + 2)) (env.panelB (w.samples + 3))
      (w.burnPins.afterAll p)
  off : ((schedDispatch hmac psk).run env w).2.burnPins = .off
  counted : ((schedDispatch hmac psk).run env w).2.attempts = w.attempts +
    if energises (dispatchEffects hmac psk env w) = true then 1 else 0
  energised : energises (dispatchEffects hmac psk env w) = true ↔
    absoluteTimeDiffUs (w.nextDispatch .burnWireTask) (env.clock w.samples) > 0 ∧
      ¬(env.panelA (w.samples + 2) = true ∧ env.panelB (w.samples + 3) = true) ∧
      w.attempts < maxBurnWireAttempts
  leaves : ((schedDispatch hmac psk).run env w).2.slate.currentStateId =
    if (env.panelA (checkSample hmac psk env w) = true ∧
        env.panelB (checkSample hmac psk env w + 1) = true) ∨
      maxBurnWireAttempts ≤ ((schedDispatch hmac psk).run env w).2.attempts then .stateRunning
    else .stateBurnWire

theorem Deploys.bounded {env : Env} {w : World} (h : Deploys hmac psk env w)
    (henergises : energises (dispatchEffects hmac psk env w) = true) :
    w.attempts < maxBurnWireAttempts := (h.energised.mp henergises).2.2

/-- **A call in the burn-wire state.** -/
theorem schedDispatch_deploys (env : Env) {w : World} (hw : w.Resting)
    (hcurrent : w.slate.currentStateId = .stateBurnWire) : Deploys hmac psk env w := by
  obtain ⟨t, ht, hflash, hoff, hallowed, hcounted, henergised, hoverride⟩ :=
    afterRounds_burnWire hmac psk env w
  have hinfo : stateRegistryGet w.slate.currentStateId = some burnWireState := by
    rw [hcurrent]
    rfl
  have hsame : World.SameState w (afterRounds hmac psk env burnWireState w) :=
    afterRounds_sameState env burnWireState w
  obtain ⟨htrace, hflash', hnext⟩ := schedDispatchRest_burnWire env
    (hsame.currentStateId.trans hcurrent) (hoverride.trans hw.cleared)
  rw [← schedDispatch_afterRounds env hinfo] at htrace hflash' hnext
  have hattempts : ((schedDispatch hmac psk).run env w).2.attempts
      = (afterRounds hmac psk env burnWireState w).attempts := by
    rw [World.attempts, World.persistent, htrace, hflash', ← World.persistent, ← World.attempts]
  have heffects : dispatchEffects hmac psk env w = t := by
    rw [dispatchEffects, htrace, ht, List.drop_left]
  exact
    { allowed := by
        rw [heffects, hw.burnPins]
        exact hallowed
      off := by
        rw [World.burnPins, htrace, ht, BurnPins.afterAll_append, ← World.burnPins, hw.burnPins]
        exact hoff
      counted := by
        rw [hattempts, heffects]
        exact hcounted
      energised := by
        rw [heffects]
        exact henergised
      leaves := by
        rw [hattempts]
        exact hnext }

/-! ## Every call leaves the wires off -/

theorem getNextState_not_raises {id : StateId} {info : SchedState}
    (h : stateRegistryGet id = some info) :
    info.getNextState.Emits fun e => e.raisesBurnPin = false := by
  cases id with
  | stateInit =>
    obtain rfl := Option.some.inj h
    exact .of_silent fun _ _ => ⟨rfl, rfl⟩
  | stateRunning =>
    obtain rfl := Option.some.inj h
    exact .pure _
  | stateBurnWire =>
    obtain rfl := Option.some.inj h
    refine .bind (.of_silent fun _ _ => ⟨rfl, rfl⟩) fun panelA => ?_
    refine .bind (.of_silent fun _ _ => ⟨rfl, rfl⟩) fun panelB => ?_
    refine .bind (.of_silent fun _ _ => ⟨rfl, rfl⟩) fun _ => .ite (fun _ => .pure _) fun _ => ?_
    refine .bind (.of_silent fun _ _ => ⟨rfl, rfl⟩) fun attempts => ?_
    exact .ite (fun _ => .pure _) fun _ => .pure _
  | stateBurnWireReset =>
    obtain rfl := Option.some.inj h
    exact .bind (fun _ w => ⟨[_], rfl, rfl, by simp [Effect.raisesBurnPin]⟩) fun _ => .pure _
  | stateNone => cases h
  | stateBringup => cases h

/-- The end of a call switches nothing on. -/
theorem schedDispatchRest_not_raises {id : StateId} {info : SchedState}
    (h : stateRegistryGet id = some info) :
    (schedDispatchRest info).Emits fun e => e.raisesBurnPin = false := by
  refine .bind (.of_silent fun _ _ => ⟨rfl, rfl⟩) fun now => ?_
  refine .bind (.of_silent fun _ _ => ⟨rfl, rfl⟩) fun _ => .bind ?_ fun next => ?_
  · refine .bind (.of_silent fun _ _ => ⟨rfl, rfl⟩) fun slate => .ite (fun _ => ?_) fun _ => ?_
    · refine .bind (.when fun _ => .emit rfl) fun _ => ?_
      exact .of_silent fun _ _ => ⟨rfl, rfl⟩
    · exact getNextState_not_raises h
  · refine .bind (.of_silent fun _ _ => ⟨rfl, rfl⟩) fun slate => .when fun _ => ?_
    refine .bind (.when fun _ => .emit rfl) fun _ => ?_
    exact .of_silent fun _ _ => ⟨rfl, rfl⟩

/-- The round of any task leaves the wires off: the burn-wire task switches them off again, the
others do not touch them. -/
theorem dispatchIfDue_burnPins (task : Task) :
    (dispatchIfDue hmac psk task).Steps fun w w' => w.burnPins = .off → w'.burnPins = .off := by
  intro env w hw
  rw [dispatchIfDue_run, isDue_run]
  split
  · rw [if_pos rfl]
    dsimp only
    by_cases htask : task = .burnWireTask
    · subst htask
      obtain ⟨t, ht, hoff, _⟩ := burnWireTaskDispatch_drives env { w with
        samples := w.samples + 2
        nextDispatch := fun task' => if task' = .burnWireTask then
          delayedByMs (env.clock (w.samples + 1)) Task.burnWireTask.dispatchPeriodMs
          else w.nextDispatch task' }
      have htask : Task.burnWireTask.taskDispatch hmac psk = burnWireTaskDispatch := rfl
      rw [htask, World.burnPins, ht, BurnPins.afterAll_append]
      show (w.burnPins.afterAll t) = .off
      rw [hw]
      exact hoff
    · refine burnPins_of_emits ?_ env hw
      exact (taskDispatch_quiet htask).emits.mono fun _ => raisesBurnPin_of_quiet
  · rw [if_neg (by simp)]
    exact hw

/-- **A call between two calls.** -/
theorem schedDispatch_resting (env : Env) {w : World} (hw : w.Resting) :
    ((schedDispatch hmac psk).run env w).2.Resting := by
  obtain ⟨info, hinfo⟩ := hw.registered
  have hend : (afterRounds hmac psk env info w).Transition env
      ((schedDispatch hmac psk).run env w).2 := schedDispatch_transition env hinfo hw.cleared
  refine ⟨hend.registered, hend.cleared, ?_⟩
  have hpreorder : IsPreorder World fun w w' => w.burnPins = .off → w'.burnPins = .off :=
    { refl := fun _ => id, trans := fun _ _ _ h h' => h' ∘ h }
  have hrounds : (info.taskList.forM (dispatchIfDue hmac psk)).Steps
      fun w w' => w.burnPins = .off → w'.burnPins = .off :=
    .forM fun task _ => dispatchIfDue_burnPins hmac psk task
  rw [schedDispatch_afterRounds env hinfo]
  exact burnPins_of_emits (schedDispatchRest_not_raises hinfo) env (hrounds env w hw.burnPins)

theorem loopStep_resting {w w' : World} {e : LoopEvent} (hw : w.Resting)
    (h : loopStep hmac psk w e = some w') : w'.Resting := by
  cases e with
  | dispatch env =>
    obtain rfl := Option.some.inj h
    exact schedDispatch_resting hmac psk env hw
  | rxDone packet =>
    obtain rfl := Option.some.inj h
    exact ⟨hw.registered, hw.cleared, hw.burnPins⟩
  | txDone =>
    obtain rfl := Option.some.inj h
    exact ⟨hw.registered, hw.cleared, hw.burnPins⟩

/-! ## A stay -/

/-- The effects of a call, where it energises the wires. -/
def energisingDispatch (w : World) : LoopEvent → List (List Effect)
  | .dispatch env =>
    if energises (dispatchEffects hmac psk env w) = true then [dispatchEffects hmac psk env w]
    else []
  | _ => []

/-- What `Deploys` adds up to. Induction on the stay, whose calls all begin in the burn-wire
state. -/
theorem stay_counts {stay : List LoopEvent} {w w' : World} (hw : w.Resting)
    (hrun : run (loopStep hmac psk) w stay = some w')
    (hin : AllSteps (loopStep hmac psk)
      (fun v _ => v.slate.currentStateId = .stateBurnWire) w stay) :
    let n := (outputs (loopStep hmac psk) (energisingDispatch hmac psk) w stay).length
    w'.attempts = w.attempts + n ∧ n ≤ maxBurnWireAttempts - w.attempts := by
  induction stay generalizing w with
  | nil =>
    obtain rfl : w = w' := Option.some.inj hrun
    exact ⟨rfl, Nat.zero_le _⟩
  | cons e stay ih =>
    obtain ⟨v, hstep, hrest⟩ := run_cons_some (loopStep hmac psk) hrun
    obtain ⟨hattempts, hbound⟩ := ih (loopStep_resting hmac psk hw hstep) hrest (hin.2 v hstep)
    rw [outputs_cons_some _ _ hstep, List.length_append]
    cases e with
    | dispatch env =>
      have hdeploys := schedDispatch_deploys hmac psk env hw hin.1
      obtain rfl := Option.some.inj hstep
      have hcounted := hdeploys.counted
      by_cases henergises : energises (dispatchEffects hmac psk env w) = true
      · have hleft := hdeploys.bounded hmac psk henergises
        rw [if_pos henergises] at hcounted
        simp only [energisingDispatch, henergises, if_true, List.length_singleton]
        omega
      · rw [if_neg henergises] at hcounted
        simp only [energisingDispatch, henergises, Bool.false_eq_true, if_false, List.length_nil]
        omega
    | rxDone packet =>
      obtain rfl := Option.some.inj hstep
      simp only [energisingDispatch, List.length_nil, Nat.zero_add]
      exact ⟨hattempts, hbound⟩
    | txDone =>
      obtain rfl := Option.some.inj hstep
      simp only [energisingDispatch, List.length_nil, Nat.zero_add]
      exact ⟨hattempts, hbound⟩

/-- **The deployment sequence.** After any boot and any run of calls and interrupts, from a world
`w` in the burn-wire state on, and for every reading of the deploy pins: each call of the stay is
as `Deploys` says, and so energises wires exactly when its task is due with a panel stowed and
attempts left; the attempts grow by one per energising call, of which there are at most
`MAX_BURN_WIRE_ATTEMPTS` less the attempts at the start; and when they are used up, the call
that used them leaves for the running state. -/
theorem deployment_sequence (d : PersistentData) (boot : Env) (events : List LoopEvent)
    (w : World)
    (hboot : run (loopStep hmac psk) (mainInit.run boot (World.atReset d)).2 events = some w)
    (stay : List LoopEvent) (w' : World) (hrun : run (loopStep hmac psk) w stay = some w')
    (hin : AllSteps (loopStep hmac psk)
      (fun v _ => v.slate.currentStateId = .stateBurnWire) w stay) :
    let n := (outputs (loopStep hmac psk) (energisingDispatch hmac psk) w stay).length
    AllSteps (loopStep hmac psk) (fun v e => ∀ env, e = .dispatch env → Deploys hmac psk env v)
      w stay ∧
    w'.attempts = w.attempts + n ∧ n ≤ maxBurnWireAttempts - w.attempts ∧
    (∀ before env, stay = before ++ [.dispatch env] → maxBurnWireAttempts ≤ w.attempts + n →
      w'.slate.currentStateId = .stateRunning) := by
  have hresting : ∀ {es : List LoopEvent} {v v' : World}, v.Resting →
      run (loopStep hmac psk) v es = some v' → v'.Resting := fun hv h =>
    invariant' (loopStep hmac psk) (fun _ _ _ hs hstep => loopStep_resting hmac psk hs hstep) h hv
  have hw : w.Resting := hresting (mainInit_resting d boot) hboot
  obtain ⟨hattempts, hbound⟩ := stay_counts hmac psk hw hrun hin
  have hcalls : AllSteps (loopStep hmac psk)
      (fun v e => ∀ env, e = .dispatch env → Deploys hmac psk env v) w stay := by
    clear hattempts hbound hboot
    induction stay generalizing w with
    | nil => trivial
    | cons e stay ih =>
      obtain ⟨v, hstep, hrest⟩ := run_cons_some (loopStep hmac psk) hrun
      refine ⟨?_, fun v' hstep' => ?_⟩
      · rintro env rfl
        exact schedDispatch_deploys hmac psk env hw hin.1
      · obtain rfl : v = v' := Option.some.inj (hstep.symm.trans hstep')
        exact ih v hrest (hin.2 v hstep) (loopStep_resting hmac psk hw hstep)
  refine ⟨hcalls, hattempts, hbound, ?_⟩
  rintro before env rfl hused
  -- the last call finds the attempts used up at its transition check
  obtain ⟨v, hbefore, hlast⟩ := run_append_some (loopStep hmac psk) hrun
  have hv : Deploys hmac psk env v := (hcalls.append_right _ hbefore).1 env rfl
  obtain ⟨v', hstep, hend⟩ := run_cons_some (loopStep hmac psk) hlast
  obtain rfl : v' = w' := Option.some.inj hend
  obtain rfl := Option.some.inj hstep
  rw [← hattempts] at hused
  rw [hv.leaves, if_pos (Or.inr hused)]

end Deployment

/-- The sequence on one call, right behind the init state, with the task due: the call energises the
wires of the stowed panels, and is the first attempt. -/
theorem deployment_sequence_first_call :
    let w := ((schedDispatch zeroHmac none).run .still
      (mainInit.run .still (World.atReset ⟨initMarker, 0, 0⟩)).2).2
    let env := Env.burnDue w
    w.slate.currentStateId = .stateBurnWire ∧ Deploys zeroHmac none env w ∧
      (outputs (loopStep zeroHmac none) (energisingDispatch zeroHmac none) w
        [.dispatch env]).length = 1 ∧
      ((schedDispatch zeroHmac none).run env w).2.attempts = 1 := by
  intro w env
  obtain ⟨hinit, hcleared⟩ := mainInit_state ⟨initMarker, 0, 0⟩ .still
  obtain ⟨hcurrent, htrace, hflash⟩ : w.slate.currentStateId = .stateBurnWire ∧ _ :=
    schedDispatch_init zeroHmac none .still hinit hcleared fun _ => rfl
  have hnone : w.attempts = 0 := by
    rw [World.attempts, World.persistent, htrace, hflash,
      (mainInit_trace ⟨initMarker, 0, 0⟩ .still).1]
    exact congrArg (fun d => d.burnWireAttempts.toNat)
      (flashAfter_mainInit_uncut ⟨initMarker, 0, 0⟩ .still)
  obtain ⟨hcalls, hattempts, _, _⟩ := deployment_sequence zeroHmac none ⟨initMarker, 0, 0⟩ .still
    [.dispatch .still] w rfl [.dispatch env] _ rfl ⟨hcurrent, fun _ _ => trivial⟩
  have hdeploys := hcalls.1 env rfl
  have hstowed : ¬(env.panelA (w.samples + 2) = true ∧ env.panelB (w.samples + 3) = true) :=
    fun h => Bool.false_ne_true h.1
  have hleft : w.attempts < maxBurnWireAttempts := by
    rw [hnone]
    decide
  have hcounted := hdeploys.counted
  rw [if_pos (hdeploys.energised.mpr ⟨burnDue_due w _, hstowed, hleft⟩), hnone]
    at hcounted
  rw [hnone] at hattempts
  exact ⟨hcurrent, hdeploys, Nat.add_left_cancel (hattempts.symm.trans hcounted), hcounted⟩

end Samwise
