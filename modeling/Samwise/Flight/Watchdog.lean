import Samwise.Flight.Flight

/-!
# Samwise — the watchdog and sleeping

`src/drivers/watchdog/watchdog.c` and `safe_sleep_ms`, which feeds the watchdog while it
sleeps. Neither drives a burn channel nor touches the persistent record, whatever the clock
says: they are `Harmless`.
-/

namespace Samwise

/-- `MIN_WATCHDOG_INTERVAL_MS`. -/
def minWatchdogIntervalMs : Nat := 200

/-- `watchdog_mk`. -/
def watchdogMk : Watchdog where
  lastTransition := 0
  set := false
  usLow := 5000 * 1000
  usHigh := 200 * 1000
  isInitialized := false

/-- `watchdog_init`. -/
def watchdogInit : Flight Unit := do
  gpioPut .samwiseWatchdogFeed false
  let now ← getAbsoluteTime
  Flight.modifySlate fun s =>
    { s with watchdog :=
      { s.watchdog with lastTransition := now, set := false, isInitialized := true } }

/-- `watchdog_feed`. -/
def watchdogFeed : Flight Unit := do
  let slate ← Flight.slate
  Flight.when (slate.watchdog.isInitialized = false) watchdogInit
  let slate ← Flight.slate
  let wd := slate.watchdog
  let now ← getAbsoluteTime
  let delta := now - wd.lastTransition
  if wd.set = true ∧ delta > wd.usHigh then
    gpioPut .samwiseWatchdogFeed false
    let now ← getAbsoluteTime
    Flight.modifySlate fun s =>
      { s with watchdog := { s.watchdog with set := false, lastTransition := now } }
  else if wd.set = false ∧ delta > wd.usLow then
    gpioPut .samwiseWatchdogFeed true
    let now ← getAbsoluteTime
    Flight.modifySlate fun s =>
      { s with watchdog := { s.watchdog with set := true, lastTransition := now } }
    Flight.emit .watchdogUpdate

/-- The loop of `safe_sleep_ms`. Every round takes 200 off `remainingTime`, so as many rounds
as there are milliseconds are more than enough. -/
def safeSleepLoop (rounds remainingTime : Nat) : Flight Unit :=
  match rounds with
  | 0 => Flight.emit (.sleepMs remainingTime)
  | rounds + 1 =>
    if remainingTime > minWatchdogIntervalMs then do
      watchdogFeed
      Flight.emit (.sleepMs minWatchdogIntervalMs)
      safeSleepLoop rounds (remainingTime - minWatchdogIntervalMs)
    else Flight.emit (.sleepMs remainingTime)

/-- `safe_sleep_ms`. -/
def safeSleepMs (ms : Nat) : Flight Unit := safeSleepLoop ms ms

theorem safeSleepLoop_succ (rounds ms : Nat) :
    safeSleepLoop (rounds + 1) ms = if ms > minWatchdogIntervalMs then do
        watchdogFeed
        Flight.emit (.sleepMs minWatchdogIntervalMs)
        safeSleepLoop rounds (ms - minWatchdogIntervalMs)
      else Flight.emit (.sleepMs ms) := rfl

/-- The loop never runs out of rounds: more of them change nothing. -/
theorem safeSleepLoop_rounds {rounds ms : Nat} (h : ms ≤ rounds) :
    safeSleepLoop rounds ms = safeSleepMs ms := by
  have hmore : ∀ {rounds ms}, ms ≤ rounds →
      safeSleepLoop (rounds + 1) ms = safeSleepLoop rounds ms := by
    intro rounds
    induction rounds with
    | zero =>
      intro ms h
      obtain rfl : ms = 0 := Nat.le_zero.mp h
      rfl
    | succ rounds ih =>
      intro ms h
      rw [safeSleepLoop_succ (rounds + 1) ms, safeSleepLoop_succ rounds ms]
      split
      · next hlong =>
        have hfewer : ms - minWatchdogIntervalMs ≤ rounds := by
          rw [minWatchdogIntervalMs] at hlong ⊢
          omega
        rw [ih hfewer]
      · rfl
  induction rounds with
  | zero =>
    obtain rfl : ms = 0 := Nat.le_zero.mp h
    rfl
  | succ rounds ih =>
    by_cases hle : ms ≤ rounds
    · rw [hmore hle, ih hle]
    · obtain rfl : ms = rounds + 1 := by omega
      rfl

/-! ## Harmless programs -/

/-- The effect drives a burn channel. -/
def Effect.isBurn : Effect → Bool
  | .gpioPut .samwiseEnabBurnA true => true
  | .gpioPut .samwiseEnabBurnB true => true
  | _ => false

/-- The effect neither drives a burn channel nor writes the persistent record. -/
def Effect.Harmless (e : Effect) : Prop := e.isBurn = false ∧ e.isWrite = false

theorem watchdogInit_harmless : watchdogInit.Emits Effect.Harmless :=
  .bind (.emit ⟨rfl, rfl⟩) fun _ => .of_silent fun _ _ => ⟨rfl, rfl⟩

theorem watchdogFeed_harmless : watchdogFeed.Emits Effect.Harmless := by
  refine .bind (.of_silent fun _ _ => ⟨rfl, rfl⟩) fun slate => ?_
  refine .bind (.when fun _ => watchdogInit_harmless) fun _ => ?_
  refine .bind (.of_silent fun _ _ => ⟨rfl, rfl⟩) fun slate => ?_
  refine .bind (.of_silent fun _ _ => ⟨rfl, rfl⟩) fun now => ?_
  refine .ite (fun _ => ?_) fun _ => .ite (fun _ => ?_) fun _ => .pure _
  · exact .bind (.emit ⟨rfl, rfl⟩) fun _ => .of_silent fun _ _ => ⟨rfl, rfl⟩
  · refine .bind (.emit ⟨rfl, rfl⟩) fun _ => ?_
    refine .bind (.of_silent fun _ _ => ⟨rfl, rfl⟩) fun _ => ?_
    exact .bind (.of_silent fun _ _ => ⟨rfl, rfl⟩) fun _ => .emit ⟨rfl, rfl⟩

theorem safeSleepMs_harmless (ms : Nat) : (safeSleepMs ms).Emits Effect.Harmless := by
  suffices hloop : ∀ rounds ms, (safeSleepLoop rounds ms).Emits Effect.Harmless from hloop ms ms
  intro rounds
  induction rounds with
  | zero => exact fun ms => .emit ⟨rfl, rfl⟩
  | succ rounds ih =>
    intro ms
    refine .ite (fun _ => ?_) fun _ => .emit ⟨rfl, rfl⟩
    exact .bind watchdogFeed_harmless fun _ => .bind (.emit ⟨rfl, rfl⟩) fun _ => ih _

end Samwise
