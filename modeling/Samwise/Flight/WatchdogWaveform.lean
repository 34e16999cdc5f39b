import Samwise.Flight.Watchdog
import Samwise.Lib.Run

/-!
# Samwise — the waveform of the watchdog pin

What `watchdog_feed` makes of the feed pin, call after call. A call reads the clock, may drive the
pin, and then reads the clock again for `last_transition`; the moment at which the pin changes is
between the two readings. Each phase of the pin is measured between two such moments.
-/

namespace Samwise

open Run

/-! ## The pin -/

/-- The level of the feed pin behind the effects `t`, from `level` on. -/
def feedPinAfter (level : Bool) (t : List Effect) : Bool :=
  t.foldl (fun level e => match e with
    | .gpioPut .samwiseWatchdogFeed level => level
    | _ => level) level

/-- The level of the feed pin; low out of reset. -/
def World.feedPin (w : World) : Bool := feedPinAfter false w.trace

theorem feedPin_append (t u : List Effect) :
    feedPinAfter false (t ++ u) = feedPinAfter (feedPinAfter false t) u := List.foldl_append

/-! ## A call -/

/-- A call of `watchdog_feed`, in microseconds: what the clock reads, the moment at which the pin is
driven, if it is, and what the clock reads behind that. -/
structure FeedCall where
  now : UInt64
  put : Nat
  after : UInt64
  now_le_put : now.toNat ≤ put
  put_le_after : put ≤ after.toNat

/-- The clock during the call. -/
def FeedCall.env (c : FeedCall) (w : World) : Env :=
  { Env.still with clock := fun n => if n = w.samples then c.now else c.after }

/-- The threshold of a level. -/
def Watchdog.threshold (wd : Watchdog) (level : Bool) : UInt64 :=
  if level = true then wd.usHigh else wd.usLow

/-- The call changes the level of the pin. -/
def Watchdog.Turns (wd : Watchdog) (now : UInt64) : Prop :=
  now - wd.lastTransition > wd.threshold wd.set

instance (wd : Watchdog) (now : UInt64) : Decidable (wd.Turns now) := by
  unfold Watchdog.Turns
  infer_instance

section Call

variable {w : World} (env : Env)

/-- Up to its threshold a level stays. -/
theorem watchdogFeed_of_stays (hinit : w.slate.watchdog.isInitialized = true)
    (h : ¬w.slate.watchdog.Turns (env.clock w.samples)) :
    let w' := (watchdogFeed.run env w).2
    w'.slate.watchdog = w.slate.watchdog ∧ w'.feedPin = w.feedPin := by
  unfold Watchdog.Turns Watchdog.threshold at h
  cases hset : w.slate.watchdog.set with
  | false =>
    rw [hset, if_neg (by decide)] at h
    simp [watchdogFeed, getAbsoluteTime, hinit, hset, h, World.feedPin]
  | true =>
    rw [hset, if_pos rfl] at h
    simp [watchdogFeed, getAbsoluteTime, hinit, hset, h, World.feedPin]

/-- Above it the pin is driven to the other level, and that is noted. -/
theorem watchdogFeed_of_turns (hinit : w.slate.watchdog.isInitialized = true)
    (h : w.slate.watchdog.Turns (env.clock w.samples)) :
    let w' := (watchdogFeed.run env w).2
    w'.slate.watchdog = { w.slate.watchdog with
      set := !w.slate.watchdog.set
      lastTransition := env.clock (w.samples + 1) } ∧
    w'.feedPin = !w.slate.watchdog.set := by
  unfold Watchdog.Turns Watchdog.threshold at h
  cases hset : w.slate.watchdog.set with
  | false =>
    rw [hset, if_neg (by decide)] at h
    simp [watchdogFeed, getAbsoluteTime, gpioPut, hinit, hset, h, World.feedPin, feedPin_append]
    rfl
  | true =>
    rw [hset, if_pos rfl] at h
    simp [watchdogFeed, getAbsoluteTime, gpioPut, hinit, hset, h, World.feedPin, feedPin_append]
    rfl

end Call

/-! ## Runs -/

/-- A phase of the pin, from the moment it was driven to the moment it was driven back. -/
structure PinPhase where
  level : Bool
  start : Nat
  finish : Nat

/-- The world since `watchdog_init`, with the moment of the last change of the pin, the last reading
at which the watchdog was fed, the last reading of all, and the phases that are over. -/
structure Waveform where
  world : World
  changed : Nat
  fed : Nat
  read : Nat
  phases : List PinPhase

/-- A call of `watchdog_feed`, or anything that leaves the watchdog and its pin alone. -/
inductive FeedEvent where
  | feed (c : FeedCall)
  | other (f : World → World)

/-- One step. The clock does not go back. -/
def feedStep (s : Waveform) : FeedEvent → Option Waveform
  | .feed c =>
    if s.read ≤ c.now.toNat then
      let world := (watchdogFeed.run (c.env s.world) s.world).2
      if world.feedPin = s.world.feedPin then
        some { s with
          world
          fed := c.now.toNat
          read := c.now.toNat }
      else
        some {
          world
          changed := c.put
          fed := c.now.toNat
          read := c.after.toNat
          phases := s.phases ++ [⟨s.world.feedPin, s.changed, c.put⟩] }
    else none
  | .other f =>
    if (f s.world).slate.watchdog = s.world.slate.watchdog ∧
        (f s.world).feedPin = s.world.feedPin then
      some { s with world := f s.world }
    else none

/-- Behind a `watchdog_init` that drives the pin low at the moment `put` and reads `now` then. -/
def afterWatchdogInit (w : World) (put : Nat) (now : UInt64) : Waveform where
  world := (watchdogInit.run { Env.still with clock := fun _ => now } w).2
  changed := put
  fed := now.toNat
  read := now.toNat
  phases := []

/-- The readings at which the watchdog is fed are at most `gap` apart, and a call takes at most
`toPut` from its reading to the pin and `toReading` from there to its second reading. -/
def Timely (gap toPut toReading : Nat) (s : Waveform) : FeedEvent → Prop
  | .feed c => c.now.toNat ≤ s.fed + gap ∧ c.put ≤ c.now.toNat + toPut ∧
      c.after.toNat ≤ c.put + toReading
  | .other _ => True

instance (gap toPut toReading : Nat) (s : Waveform) (e : FeedEvent) :
    Decidable (Timely gap toPut toReading s e) :=
  match e with
  | .feed c => inferInstanceAs (Decidable (c.now.toNat ≤ s.fed + gap ∧
      c.put ≤ c.now.toNat + toPut ∧ c.after.toNat ≤ c.put + toReading))
  | .other _ => isTrue trivial

/-- The phase lasted longer than its threshold, and at most the slack longer. -/
def PinPhase.Within (p : PinPhase) (wd : Watchdog) (slack : Nat) : Prop :=
  (wd.threshold p.level).toNat < p.finish - p.start ∧
    p.finish - p.start ≤ (wd.threshold p.level).toNat + slack

/-- What holds between two calls: the watchdog knows the pin's level and since when, and the last
call came too early to change it. -/
structure Waveform.Tracks (wd : Watchdog) (slack toReading : Nat) (s : Waveform) : Prop where
  initialised : s.world.slate.watchdog.isInitialized = true
  threshold : s.world.slate.watchdog.threshold = wd.threshold
  pin : s.world.slate.watchdog.set = s.world.feedPin
  changed : s.changed ≤ s.world.slate.watchdog.lastTransition.toNat
  noted : s.world.slate.watchdog.lastTransition.toNat ≤ s.changed + toReading
  early : s.fed ≤ s.world.slate.watchdog.lastTransition.toNat
    + (wd.threshold s.world.feedPin).toNat
  read : s.world.slate.watchdog.lastTransition.toNat ≤ s.read
  phases : ∀ p ∈ s.phases, p.Within wd slack

theorem afterWatchdogInit_tracks (w : World) {put : Nat} {now : UInt64} (hput : put ≤ now.toNat)
    {slack toReading : Nat} (hreading : now.toNat ≤ put + toReading) :
    (afterWatchdogInit w put now).Tracks w.slate.watchdog slack toReading := by
  have hpin : (afterWatchdogInit w put now).world.feedPin = false := by
    show feedPinAfter false (w.trace ++ [.gpioPut .samwiseWatchdogFeed false]) = false
    rw [feedPin_append]
    rfl
  refine ⟨rfl, rfl, ?_, hput, hreading, ?_, ?_, ?_⟩
  · rw [hpin]
    rfl
  · exact Nat.le_add_right _ _
  · exact Nat.le_refl _
  · intro p hp
    cases hp

/-- The difference that `watchdog_feed` compares is the time since the last transition. -/
theorem Watchdog.turns_iff {wd : Watchdog} {now : UInt64}
    (h : wd.lastTransition.toNat ≤ now.toNat) :
    wd.Turns now ↔ wd.lastTransition.toNat + (wd.threshold wd.set).toNat < now.toNat := by
  unfold Watchdog.Turns
  rw [gt_iff_lt, UInt64.lt_iff_toNat_lt, UInt64.toNat_sub_of_le _ _ (UInt64.le_iff_toNat_le.mpr h)]
  omega

section Step

variable {wd : Watchdog} {gap toPut toReading : Nat} {s s' : Waveform}

/-- Where the watchdog and the pin are the same, only the readings matter. -/
theorem Waveform.Tracks.of_same {slack fed read : Nat} {world : World}
    (hs : s.Tracks wd slack toReading) (hwatchdog : world.slate.watchdog = s.world.slate.watchdog)
    (hpin : world.feedPin = s.world.feedPin)
    (hearly : fed ≤ s.world.slate.watchdog.lastTransition.toNat
      + (wd.threshold s.world.feedPin).toNat)
    (hread : s.world.slate.watchdog.lastTransition.toNat ≤ read) :
    Waveform.Tracks wd slack toReading { s with
      world
      fed
      read } := by
  refine ⟨?_, ?_, ?_, ?_, ?_, ?_, ?_, hs.phases⟩
  · rw [hwatchdog]
    exact hs.initialised
  · rw [hwatchdog]
    exact hs.threshold
  · rw [hwatchdog, hpin]
    exact hs.pin
  · rw [hwatchdog]
    exact hs.changed
  · rw [hwatchdog]
    exact hs.noted
  · rw [hwatchdog, hpin]
    exact hearly
  · rw [hwatchdog]
    exact hread

/-- A call in time keeps track. -/
theorem feedStep_feed_tracks (hs : s.Tracks wd (gap + (toPut + toReading)) toReading)
    {c : FeedCall} (hc : Timely gap toPut toReading s (.feed c))
    (h : feedStep s (.feed c) = some s') :
    s'.Tracks wd (gap + (toPut + toReading)) toReading := by
  obtain ⟨hgap, hput, hreading⟩ := hc
  have hclock : (c.env s.world).clock s.world.samples = c.now := if_pos rfl
  have hafter : (c.env s.world).clock (s.world.samples + 1) = c.after :=
    if_neg (Nat.succ_ne_self _)
  rw [feedStep] at h
  split at h
  · next hread =>
    have hlast : s.world.slate.watchdog.lastTransition.toNat ≤ c.now.toNat :=
      Nat.le_trans hs.read hread
    have hthreshold : s.world.slate.watchdog.threshold s.world.slate.watchdog.set
        = wd.threshold s.world.feedPin := by rw [hs.threshold, hs.pin]
    have hiff := Watchdog.turns_iff hlast
    rw [hthreshold] at hiff
    dsimp only at h
    by_cases hturns : s.world.slate.watchdog.Turns c.now
    · -- the pin turns: a phase is over
      obtain ⟨hwatchdog, hpin⟩ := watchdogFeed_of_turns (c.env s.world) hs.initialised
        (hclock.symm ▸ hturns)
      have hother : ¬(watchdogFeed.run (c.env s.world) s.world).2.feedPin = s.world.feedPin := by
        rw [hpin, hs.pin]
        exact Bool.not_ne_self _
      rw [if_neg hother] at h
      cases h
      have hlong := hiff.mp hturns
      refine ⟨?_, ?_, ?_, ?_, ?_, ?_, ?_, ?_⟩
      · rw [hwatchdog]
        exact hs.initialised
      · rw [hwatchdog]
        exact hs.threshold
      · rw [hwatchdog, hpin]
      · rw [hwatchdog, hafter]
        exact c.put_le_after
      · rw [hwatchdog, hafter]
        exact hreading
      · rw [hwatchdog, hafter]
        exact Nat.le_add_right_of_le (Nat.le_trans c.now_le_put c.put_le_after)
      · rw [hwatchdog, hafter]
      · intro p hp
        rcases List.mem_append.mp hp with hold | hnew
        · exact hs.phases p hold
        · rw [List.mem_singleton.mp hnew]
          have hstart := hs.changed
          have hnoted := hs.noted
          have hearly := hs.early
          have hnow := c.now_le_put
          show _ < c.put - s.changed ∧ c.put - s.changed ≤ _
          dsimp only
          omega
    · -- too early: nothing changes
      obtain ⟨hwatchdog, hpin⟩ := watchdogFeed_of_stays (c.env s.world) hs.initialised
        (hclock.symm ▸ hturns)
      rw [if_pos hpin] at h
      cases h
      apply hs.of_same hwatchdog hpin _ hlast
      exact Nat.not_lt.mp fun hlt => hturns (hiff.mpr hlt)
  · cases h

/-- The step lemma. -/
theorem feedStep_tracks (s : Waveform) (e : FeedEvent) (s' : Waveform)
    (he : Timely gap toPut toReading s e)
    (hs : s.Tracks wd (gap + (toPut + toReading)) toReading) (h : feedStep s e = some s') :
    s'.Tracks wd (gap + (toPut + toReading)) toReading := by
  cases e with
  | feed c => exact feedStep_feed_tracks hs he h
  | other f =>
    rw [feedStep] at h
    split at h
    · next hsame =>
      obtain ⟨hwatchdog, hpin⟩ := hsame
      cases h
      exact hs.of_same hwatchdog hpin hs.early hs.read
    · cases h

end Step

/-! ## Sleeping -/

/-- `safe_sleep_ms` on its `uint32_t`, whose subtraction wraps. -/
def safeSleepUInt32 (remainingTime : UInt32) : Flight Unit :=
  if h : remainingTime > 200 then do
    watchdogFeed
    Flight.emit (.sleepMs 200)
    safeSleepUInt32 (remainingTime - 200)
  else Flight.emit (.sleepMs remainingTime.toNat)
termination_by remainingTime.toNat
decreasing_by
  have hle : 200 ≤ remainingTime := UInt32.le_of_lt h
  rw [UInt32.toNat_sub_of_le _ _ hle]
  exact Nat.sub_lt (Nat.lt_of_lt_of_le (by decide) (UInt32.le_iff_toNat_le.mp hle)) (by decide)

/-- A round takes 200 off, and does not wrap. -/
theorem toNat_sub_round {ms : UInt32} (h : ms > 200) :
    (ms - 200).toNat = ms.toNat - minWatchdogIntervalMs :=
  UInt32.toNat_sub_of_le _ _ (UInt32.le_of_lt h)

/-- It is `safe_sleep_ms` on natural numbers. -/
theorem safeSleepUInt32_eq (ms : UInt32) : safeSleepUInt32 ms = safeSleepMs ms.toNat := by
  fun_induction safeSleepUInt32 ms with
  | case1 ms h ih =>
    have hmore : ms.toNat > minWatchdogIntervalMs := UInt32.lt_iff_toNat_lt.mp h
    cases hrounds : ms.toNat with
    | zero =>
      rw [hrounds] at hmore
      exact absurd hmore (Nat.not_lt_zero _)
    | succ rounds =>
      have hfewer : rounds + 1 - minWatchdogIntervalMs ≤ rounds := by
        rw [minWatchdogIntervalMs]
        omega
      rw [hrounds] at hmore
      rw [ih, toNat_sub_round h, hrounds]
      show _ = safeSleepLoop (rounds + 1) (rounds + 1)
      rw [safeSleepLoop_succ, if_pos hmore, safeSleepLoop_rounds hfewer,
        minWatchdogIntervalMs]
  | case2 ms h =>
    have hless : ¬ms.toNat > minWatchdogIntervalMs := fun hmore =>
      h (UInt32.lt_iff_toNat_lt.mpr hmore)
    cases hrounds : ms.toNat with
    | zero => rfl
    | succ rounds =>
      rw [hrounds] at hless
      show _ = safeSleepLoop (rounds + 1) (rounds + 1)
      rw [safeSleepLoop_succ, if_neg hless]

/-- `safe_sleep_ms` is a number of fed rounds of 200 ms, and a rest that is not fed. -/
def sleepInChunks (chunks : List Nat) (last : Nat) : Flight Unit := do
  chunks.forM fun ms => do
    watchdogFeed
    Flight.emit (.sleepMs ms)
  Flight.emit (.sleepMs last)

theorem safeSleepUInt32_chunks (ms : UInt32) :
    ∃ chunks last, safeSleepUInt32 ms = sleepInChunks chunks last ∧
      chunks.sum + last = ms.toNat ∧ (∀ chunk ∈ chunks, chunk = minWatchdogIntervalMs) ∧
      last ≤ minWatchdogIntervalMs := by
  fun_induction safeSleepUInt32 ms with
  | case1 ms h ih =>
    obtain ⟨chunks, last, heq, hsum, hchunks, hlast⟩ := ih
    refine ⟨200 :: chunks, last, ?_, ?_, ?_, hlast⟩
    · rw [heq]
      rfl
    · have hround := toNat_sub_round h
      have hmore := UInt32.lt_iff_toNat_lt.mp h
      have h200 : (200 : UInt32).toNat = 200 := rfl
      rw [minWatchdogIntervalMs] at hround
      rw [List.sum_cons]
      omega
    · intro chunk hchunk
      rcases List.mem_cons.mp hchunk with rfl | hrest
      · rfl
      · exact hchunks chunk hrest
  | case2 ms h =>
    refine ⟨[], ms.toNat, rfl, ?_, ?_, ?_⟩
    · exact Nat.zero_add _
    · intro chunk hchunk
      cases hchunk
    · exact UInt32.le_iff_toNat_le.mp (UInt32.not_lt.mp h)

/-! ## The waveform -/

/-- **The waveform of the watchdog pin.** In every run since `watchdog_init` with a clock that does
not go back, readings at most `gap` apart and calls that take at most `toPut + toReading`: the
watchdog's `set` is the level of the pin; every phase that is over lasted longer than its threshold
and at most `gap` and the time of one call longer; and so far the phase that goes on, up to any
moment before the next call has to drive the pin, is no longer either. `safe_sleep_ms` sleeps for
as long as it is told, in chunks of at most 200 ms, and feeds before each but the last. -/
theorem watchdog_waveform (w : World) {put : Nat} {now : UInt64} (hput : put ≤ now.toNat)
    {gap toPut toReading : Nat} (hreading : now.toNat ≤ put + toReading) {events : List FeedEvent}
    {s : Waveform}
    (hok : AllSteps feedStep (Timely gap toPut toReading) (afterWatchdogInit w put now) events)
    (hrun : run feedStep (afterWatchdogInit w put now) events = some s) (ms : UInt32) :
    s.world.slate.watchdog.set = s.world.feedPin ∧
    (∀ p ∈ s.phases, p.Within w.slate.watchdog (gap + (toPut + toReading))) ∧
    (∀ moment ≤ s.fed + gap + toPut, moment - s.changed
      ≤ (w.slate.watchdog.threshold s.world.feedPin).toNat + (gap + (toPut + toReading))) ∧
    ∃ chunks last, safeSleepUInt32 ms = sleepInChunks chunks last ∧
      chunks.sum + last = ms.toNat ∧ (∀ chunk ∈ chunks, chunk = minWatchdogIntervalMs) ∧
      last ≤ minWatchdogIntervalMs := by
  have hs := invariant feedStep (P := Timely gap toPut toReading) feedStep_tracks hok hrun
    (afterWatchdogInit_tracks w hput hreading)
  refine ⟨hs.pin, hs.phases, ?_, safeSleepUInt32_chunks ms⟩
  intro moment hmoment
  have hearly := hs.early
  have hnoted := hs.noted
  omega

/-- The slate of a flight that has run `watchdog_mk`. -/
def worldWithWatchdog : World :=
  let w := World.atReset ⟨0, 0, 0⟩
  { w with slate := { w.slate with watchdog := watchdogMk } }

/-- Fed after three seconds, after three more, and 300 ms later. -/
def threeFeeds : List FeedEvent :=
  [.feed ⟨3000012, 3000012, 3000012, by decide, by decide⟩,
    .feed ⟨6000012, 6000013, 6000014, by decide, by decide⟩,
    .feed ⟨6300014, 6300015, 6300016, by decide, by decide⟩]

/-- The pin is low for six seconds and high for 300 ms. -/
theorem watchdog_waveform_three_feeds :
    ∃ s, run feedStep (afterWatchdogInit worldWithWatchdog 10 12) threeFeeds = some s ∧
      s.phases.map (fun p => (p.level, p.finish - p.start)) = [(false, 6000003), (true, 300002)] ∧
      ∀ p ∈ s.phases, p.Within watchdogMk (3000000 + (1 + 2)) := by
  have hok : AllSteps feedStep (Timely 3000000 1 2) (afterWatchdogInit worldWithWatchdog 10 12)
      threeFeeds := by
    decide +kernel
  have hran : (run feedStep (afterWatchdogInit worldWithWatchdog 10 12) threeFeeds).map (fun s =>
      s.phases.map fun p => (p.level, p.finish - p.start))
        = some [(false, 6000003), (true, 300002)] := by
    decide +kernel
  obtain ⟨s, hrun, hphases⟩ := Option.map_eq_some_iff.mp hran
  have hput : (10 : Nat) ≤ (12 : UInt64).toNat := by decide
  have hreading : (12 : UInt64).toNat ≤ 10 + 2 := by decide
  exact ⟨s, hrun, hphases,
    (watchdog_waveform worldWithWatchdog hput hreading hok hrun 1000).2.1⟩

end Samwise
