import Samwise.Flight.Watchdog

/-!
# Samwise — the burn wire

The driver (`burn_wire_activate`), the task (`burn_wire_task_dispatch`) and the transitions
out of the two burn-wire states. What one dispatch of the task can do is said once, in
`burnWireTaskDispatch_trace`: nothing that matters, or a burn followed by one increment of
the attempt counter.
-/

namespace Samwise

/-- `MAX_BURN_WIRE_ATTEMPTS`. -/
def maxBurnWireAttempts : Nat := 5

/-- `BURN_DURATION_MS`. -/
def burnDurationMs : Nat := 800

@[simp] theorem maxBurnWireAttempts_eq : maxBurnWireAttempts = 5 := rfl

/-- `get_burn_wire_attempts`. -/
def getBurnWireAttempts : Flight UInt32 :=
  PersistentData.burnWireAttempts <$> Flight.readPersistentData

/-- `burn_wire_init`: all three outputs low. -/
def burnWireInit : Flight Unit := do
  gpioPut .samwiseEnabBurnA false
  gpioPut .samwiseEnabBurnB false
  gpioPut .samwiseBurnRelay false

/-- `burn_wire_activate`. -/
def burnWireActivate (burnMs : Nat) (activateA activateB : Bool) : Flight Unit := do
  gpioPut .samwiseBurnRelay true
  Flight.when (activateA = true) (gpioPut .samwiseEnabBurnA true)
  Flight.when (activateB = true) (gpioPut .samwiseEnabBurnB true)
  safeSleepMs burnMs
  gpioPut .samwiseBurnRelay false
  gpioPut .samwiseEnabBurnA false
  gpioPut .samwiseEnabBurnB false
  safeSleepMs 1

/-- The part of `burn_wire_task_dispatch` between its checks and its count. -/
def burnPanels (panelADeployed panelBDeployed : Bool) : Flight Unit := do
  safeSleepMs 1000
  Flight.when (panelADeployed = false) (burnWireActivate burnDurationMs true false)
  Flight.when (panelBDeployed = false) (burnWireActivate burnDurationMs false true)
  safeSleepMs 4000

/-- `burn_wire_task_dispatch`. -/
def burnWireTaskDispatch : Flight Unit := do
  let panelADeployed ← isFlexPanelADeployed
  let panelBDeployed ← isFlexPanelBDeployed
  if panelADeployed = true ∧ panelBDeployed = true then
    return
  else
    let burnWireAttempts ← getBurnWireAttempts
    if burnWireAttempts.toNat ≥ maxBurnWireAttempts then
      return
    else
      burnPanels panelADeployed panelBDeployed
      let _ ← Flight.update .incrementBurnWireAttempts

/-- `burn_wire_get_next_state`. -/
def burnWireGetNextState : Flight StateId := do
  let panelADeployed ← isFlexPanelADeployed
  let panelBDeployed ← isFlexPanelBDeployed
  Flight.modifySlate fun s => { s with panelADeployed, panelBDeployed }
  if panelADeployed = true ∧ panelBDeployed = true then
    return .stateRunning
  else
    let burnWireAttempts ← getBurnWireAttempts
    if burnWireAttempts.toNat ≥ maxBurnWireAttempts then
      return .stateRunning
    else
      return .stateBurnWire

/-- `burn_wire_reset_get_next_state`. -/
def burnWireResetGetNextState : Flight StateId := do
  let _ ← Flight.update .resetBurnWireAttempts
  return .stateRunning

/-! ## What a burn emits -/

theorem burnWireActivate_no_write (burnMs : Nat) (activateA activateB : Bool) :
    (burnWireActivate burnMs activateA activateB).Emits fun e => e.isWrite = false := by
  have hsleep : ∀ ms, (safeSleepMs ms).Emits fun e => e.isWrite = false :=
    fun ms => (safeSleepMs_harmless ms).mono fun _ h => h.2
  refine .bind (.emit rfl) fun _ => ?_
  refine .bind (.when fun _ => .emit rfl) fun _ => ?_
  refine .bind (.when fun _ => .emit rfl) fun _ => ?_
  refine .bind (hsleep burnMs) fun _ => ?_
  exact .bind (.emit rfl) fun _ => .bind (.emit rfl) fun _ => .bind (.emit rfl) fun _ => hsleep 1

theorem burnPanels_no_write (panelADeployed panelBDeployed : Bool) :
    (burnPanels panelADeployed panelBDeployed).Emits fun e => e.isWrite = false := by
  have hsleep : ∀ ms, (safeSleepMs ms).Emits fun e => e.isWrite = false :=
    fun ms => (safeSleepMs_harmless ms).mono fun _ h => h.2
  refine .bind (hsleep 1000) fun _ => ?_
  refine .bind (.when fun _ => burnWireActivate_no_write _ _ _) fun _ => ?_
  exact .bind (.when fun _ => burnWireActivate_no_write _ _ _) fun _ => hsleep 4000

/-- Activating a channel drives it. -/
theorem burnWireActivate_burns {burnMs : Nat} {activateA activateB : Bool}
    (h : activateA = true ∨ activateB = true) :
    (burnWireActivate burnMs activateA activateB).EmitsSome fun e => e.isBurn = true := by
  have hsleep : ∀ ms, (safeSleepMs ms).Emits fun _ => True :=
    fun ms => (safeSleepMs_harmless ms).mono fun _ _ => trivial
  have hoff : (do
      gpioPut .samwiseBurnRelay false
      gpioPut .samwiseEnabBurnA false
      gpioPut .samwiseEnabBurnB false
      safeSleepMs 1 : Flight Unit).Emits fun _ => True :=
    .bind (.emit trivial) fun _ => .bind (.emit trivial) fun _ => .bind (.emit trivial) fun _ =>
      hsleep 1
  refine .bind_right (Q := fun _ => True) (.emit trivial) fun _ => ?_
  rcases h with hA | hB
  · refine .bind_left (Q := fun _ => True) (.when hA (.emit rfl)) fun _ => ?_
    exact .bind (.when fun _ => .emit trivial) fun _ => .bind (hsleep burnMs) fun _ => hoff
  · refine .bind_right (Q := fun _ => True) (.when fun _ => .emit trivial) fun _ => ?_
    exact .bind_left (.when hB (.emit rfl)) fun _ => .bind (hsleep burnMs) fun _ => hoff

/-- A burn with a panel still stowed drives a channel. -/
theorem burnPanels_burns {panelADeployed panelBDeployed : Bool}
    (h : ¬(panelADeployed = true ∧ panelBDeployed = true)) :
    (burnPanels panelADeployed panelBDeployed).EmitsSome fun e => e.isBurn = true := by
  have hsleep : ∀ ms, (safeSleepMs ms).Emits fun e => e.isWrite = false :=
    fun ms => (safeSleepMs_harmless ms).mono fun _ h => h.2
  refine .bind_right (hsleep 1000) fun _ => ?_
  cases panelADeployed with
  | false =>
    refine .bind_left (Q := fun e => e.isWrite = false) (.when rfl (burnWireActivate_burns (Or.inl rfl))) fun _ => ?_
    exact .bind (.when fun _ => burnWireActivate_no_write _ _ _) fun _ => hsleep 4000
  | true =>
    have hB : panelBDeployed = false := by simpa using h
    refine .bind_right (.when fun _ => burnWireActivate_no_write _ _ _) fun _ => ?_
    exact .bind_left (.when hB (burnWireActivate_burns (Or.inr rfl))) fun _ => hsleep 4000

/-- **One dispatch of the burn-wire task.** Either it emits nothing, because both panels read
deployed or the attempts are used up, or it burns, and then counts the attempt. The burn
drives a channel and writes no record. -/
theorem burnWireTaskDispatch_trace (env : Env) (w : World) :
    let w' := (burnWireTaskDispatch.run env w).2
    w'.flash = w.flash ∧
    if (env.panelA w.samples = true ∧ env.panelB (w.samples + 1) = true) ∨
        maxBurnWireAttempts ≤ w.persistent.burnWireAttempts.toNat then
      w'.trace = w.trace
    else ∃ burn, (∃ e ∈ burn, e.isBurn = true) ∧ (∀ e ∈ burn, e.isWrite = false) ∧
      w'.trace = w.trace ++ burn ++ [.writePersistentData .incrementBurnWireAttempts
        (incrementBurnWireAttempts w.persistent)] := by
  simp only [burnWireTaskDispatch, Flight.run_bind]
  rw [Flight.run_ite]
  split
  · next hboth =>
    have hdeployed : env.panelA w.samples = true ∧ env.panelB (w.samples + 1) = true := hboth
    refine ⟨rfl, ?_⟩
    rw [if_pos (Or.inl hdeployed)]
    rfl
  · next hboth =>
    have hstowed : ¬(env.panelA w.samples = true ∧ env.panelB (w.samples + 1) = true) := hboth
    simp only [Flight.run_bind]
    rw [Flight.run_ite]
    split
    · next hattempts =>
      have hused : maxBurnWireAttempts ≤ w.persistent.burnWireAttempts.toNat := hattempts
      refine ⟨rfl, ?_⟩
      rw [if_pos (Or.inr hused)]
      rfl
    · next hattempts =>
      have hleft : ¬maxBurnWireAttempts ≤ w.persistent.burnWireAttempts.toNat := hattempts
      -- the samples and the read of the counter leave trace and flash alone
      set w₂ := (getBurnWireAttempts.run env
        (isFlexPanelBDeployed.run env (isFlexPanelADeployed.run env w).2).2).2
      have hflash₂ : w₂.flash = w.flash := rfl
      have htrace₂ : w₂.trace = w.trace := rfl
      obtain ⟨burn, htrace, hflash, hburn⟩ := burnPanels_no_write
        (isFlexPanelADeployed.run env w).1
        (isFlexPanelBDeployed.run env (isFlexPanelADeployed.run env w).2).1 env w₂
      obtain ⟨burn', htrace', hdrives⟩ := burnPanels_burns hboth env w₂
      obtain rfl : burn = burn' := List.append_cancel_left (htrace.symm.trans htrace')
      set w₃ := ((burnPanels (isFlexPanelADeployed.run env w).1
        (isFlexPanelBDeployed.run env (isFlexPanelADeployed.run env w).2).1).run env w₂).2
      have hpersistent : w₃.persistent = w.persistent := by
        rw [World.persistent, hflash, htrace, flashAfter_append, flashAfter_of_no_write hburn,
          hflash₂, htrace₂, World.persistent]
      simp only [Flight.run_bind, Flight.run_update, Flight.run_pure]
      rw [if_neg (not_or.mpr ⟨hstowed, hleft⟩)]
      refine ⟨hflash.trans hflash₂, burn, hdrives, hburn, ?_⟩
      rw [htrace, htrace₂, hpersistent]
      rfl

end Samwise
