import Samwise.Flash.Flash
import Samwise.Lib.Run

/-!
# Samwise — power loss during a flash update

Runs of boots, counter updates and resets, where a reset may cut an update after any number
of its flash operations. What a boot loads is `recordAtBoot`, and everything here is about
how one event moves it: not at all, to the updated record, or, for an update cut between
erase and program, to zero.
-/

namespace Samwise

open Run

/-! ## The machine -/

/-- The flash, and whether `init_persistent_data` has returned since the last reset. -/
structure FlashState where
  flash : Flash
  booted : Bool

/-- An event: an update runs, cut by a reset after so many of its flash operations or run to
its end (`cut = none`), or a reset falls between updates. -/
inductive FlashEvent where
  | update (u : Update) (behind : Behind) (cut : Option Nat)
  | reset

/-- One event. `main` calls `init_persistent_data` once, before any other update. -/
def flashStep (s : FlashState) : FlashEvent → Option FlashState
  | .update u behind cut =>
    if decide (u = .init) = s.booted then none
    else
      let ops := writePersistentData (u.record (readPersistentData s.flash)) behind
      some { flash := applyOps s.flash (upTo cut ops), booted := cut.isNone }
  | .reset => some { s with booted := false }

/-- What `init_persistent_data` returns when it is called with this flash. -/
def recordAtBoot (m : Flash) : PersistentData := initPersistentData (readPersistentData m)

/-- The record a completed boot returns. -/
def bootRecord (s : FlashState) : FlashEvent → List PersistentData
  | .update .init _ none => if s.booted then [] else [recordAtBoot s.flash]
  | _ => []

/-- The records the completed boots of a run return, in order. -/
def bootRecords (s : FlashState) (es : List FlashEvent) : List PersistentData :=
  outputs flashStep bootRecord s es

/-- Each counter of `d` has its value in `old` or its value in `new`. -/
def CounterKept (old new d : PersistentData) : Prop :=
  (d.rebootCounter = old.rebootCounter ∨ d.rebootCounter = new.rebootCounter) ∧
  (d.burnWireAttempts = old.burnWireAttempts ∨ d.burnWireAttempts = new.burnWireAttempts)

instance (old new d : PersistentData) : Decidable (CounterKept old new d) := by
  unfold CounterKept; infer_instance

/-- The update `u`, made in flash `m`, would lose nothing to a reset between erase and
program: each counter is zero before it or zero after it. -/
def LosesNothing (u : Update) (m : Flash) : Prop :=
  let old := readPersistentData m
  let new := u.record old
  (old.rebootCounter = 0 ∨ new.rebootCounter = 0) ∧
  (old.burnWireAttempts = 0 ∨ new.burnWireAttempts = 0)

/-- The event does not cut an update between its erase and its program, unless nothing is
lost there. -/
def NotTorn (s : FlashState) : FlashEvent → Prop
  | .update u _ cut => cut = some 1 → LosesNothing u s.flash
  | .reset => True

/-- The event does not increment the reboot counter at its largest value. -/
def NoWrap (s : FlashState) : FlashEvent → Prop
  | .update u _ _ => u = .incrementRebootCounter →
      (readPersistentData s.flash).rebootCounter.toNat + 1 < 2 ^ 32
  | .reset => True

/-- A reset ends the event, or it is one. -/
def FlashEvent.interrupted : FlashEvent → Bool
  | .update _ _ cut => cut.isSome
  | .reset => true

/-- Once booted, the record in flash is initialised. -/
def Loaded (s : FlashState) : Prop :=
  s.booted = true → (readPersistentData s.flash).marker = initMarker

/-! ## One event -/

/-- No update but the loading itself touches the marker. -/
theorem Update.record_marker (u : Update) {d : PersistentData} (h : d.marker = initMarker) :
    (u.record d).marker = initMarker := by
  cases u with
  | init => exact initPersistentData_marker d
  | incrementRebootCounter => exact h
  | incrementBurnWireAttempts => exact h
  | resetBurnWireAttempts => exact h

theorem recordAtBoot_of_marker {m : Flash} (h : (readPersistentData m).marker = initMarker) :
    recordAtBoot m = readPersistentData m :=
  initPersistentData_of_marker h

theorem recordAtBoot_erased (m : Flash) :
    recordAtBoot (FlashOp.apply m (.erase flashTargetOffset flashSectorSize))
      = ⟨initMarker, 0, 0⟩ := by
  rw [recordAtBoot, readPersistentData_erased]
  decide

/-- Before the boot completes the only update is the loading, and after it there is none. -/
theorem flashStep_update {s s' : FlashState} {u : Update} {behind : Behind} {cut : Option Nat}
    (h : flashStep s (.update u behind cut) = some s') :
    (u = .init ↔ s.booted = false) ∧ s'.booted = cut.isNone ∧
      s'.flash = applyOps s.flash (upTo cut
        (writePersistentData (u.record (readPersistentData s.flash)) behind)) := by
  simp only [flashStep] at h
  split at h
  · simp at h
  · next hne =>
    obtain rfl := Option.some.inj h
    refine ⟨?_, rfl, rfl⟩
    cases hb : s.booted with
    | false => simpa [hb] using hne
    | true => simpa [hb] using hne

/-- The record an enabled update writes is initialised. -/
theorem record_marker_of_step {s s' : FlashState} {u : Update} {behind : Behind}
    {cut : Option Nat} (hs : Loaded s) (h : flashStep s (.update u behind cut) = some s') :
    (u.record (readPersistentData s.flash)).marker = initMarker := by
  obtain ⟨hinit, _, _⟩ := flashStep_update h
  by_cases hu : u = .init
  · rw [hu]
    exact initPersistentData_marker _
  · have hbooted : s.booted = true := by
      cases hb : s.booted
      · exact absurd (hinit.mpr hb) hu
      · rfl
    exact u.record_marker (hs hbooted)

/-- What the next boot returns when an update is cut: `before` and `after` are what it
returns without the update and after it. -/
def recordAfterCut (before after : PersistentData) : Option Nat → PersistentData
  | some 0 => before
  | some 1 => ⟨initMarker, 0, 0⟩
  | _ => after

/-- **What an update does to the next boot.** Run to its end, or cut behind its program, the
next boot returns the new record; cut before its erase, the next boot returns what it would
have returned before; cut in between, zeros. -/
theorem recordAtBoot_update {s s' : FlashState} {u : Update} {behind : Behind}
    {cut : Option Nat} (hs : Loaded s) (h : flashStep s (.update u behind cut) = some s') :
    recordAtBoot s'.flash =
      recordAfterCut (recordAtBoot s.flash) (u.record (readPersistentData s.flash)) cut := by
  have hmarker := record_marker_of_step hs h
  obtain ⟨_, _, hflash⟩ := flashStep_update h
  have hwhole : recordAtBoot (applyOps s.flash
      (writePersistentData (u.record (readPersistentData s.flash)) behind))
        = u.record (readPersistentData s.flash) := by
    rw [recordAtBoot, readPersistentData_write, initPersistentData_of_marker hmarker]
  rcases cut with _ | _ | _ | k
  · rw [hflash]
    exact hwhole
  · rw [hflash]
    rfl
  · rw [hflash]
    exact recordAtBoot_erased s.flash
  · rw [hflash, upTo, List.take_of_length_le (by simp [writePersistentData])]
    exact hwhole

/-- What the next boot returns before an update: the record in flash. Only the loading
itself starts from flash that may hold none. -/
theorem recordAtBoot_before {s s' : FlashState} {u : Update} {behind : Behind}
    {cut : Option Nat} (hs : Loaded s) (h : flashStep s (.update u behind cut) = some s') :
    u = .init ∨ recordAtBoot s.flash = readPersistentData s.flash := by
  obtain ⟨hinit, _, _⟩ := flashStep_update h
  cases hb : s.booted with
  | false => exact Or.inl (hinit.mpr hb)
  | true => exact Or.inr (recordAtBoot_of_marker (hs hb))

/-- **Exactly when an interrupted update keeps its counters.** The next boot finds each
counter before or after the update if and only if the reset did not fall between erase and
program, or nothing was lost there. -/
theorem counterKept_iff {s s' : FlashState} {u : Update} {behind : Behind} {k : Nat}
    (hs : Loaded s) (h : flashStep s (.update u behind (some k)) = some s') :
    CounterKept (readPersistentData s.flash) (u.record (readPersistentData s.flash))
      (recordAtBoot s'.flash) ↔ NotTorn s (.update u behind (some k)) := by
  rw [recordAtBoot_update hs h]
  rcases k with _ | _ | k
  · refine iff_of_true ?_ (by simp [NotTorn])
    rcases recordAtBoot_before hs h with rfl | hold
    · exact ⟨Or.inr rfl, Or.inr rfl⟩
    · exact ⟨Or.inl (by rw [recordAfterCut, hold]), Or.inl (by rw [recordAfterCut, hold])⟩
  · simp only [recordAfterCut, CounterKept, NotTorn, LosesNothing, eq_comm (a := (0 : UInt32)),
      forall_const]
  · exact iff_of_true ⟨Or.inr rfl, Or.inr rfl⟩ (by simp [NotTorn])

theorem Loaded.step {s s' : FlashState} {e : FlashEvent} (hs : Loaded s)
    (h : flashStep s e = some s') : Loaded s' := by
  cases e with
  | reset =>
    obtain rfl := Option.some.inj h
    exact fun hbooted => absurd hbooted (by simp)
  | update u behind cut =>
    intro hbooted
    have hmarker := record_marker_of_step hs h
    obtain ⟨_, hb, hflash⟩ := flashStep_update h
    cases cut with
    | some k => simp [hb] at hbooted
    | none =>
      rw [hflash, upTo, readPersistentData_write]
      exact hmarker

/-! ## Resets and cut boots -/

/-- A loading between whose erase and program nothing is lost starts from zeros, or from
uninitialised flash; it returns zeros either way. -/
theorem recordAtBoot_of_losesNothing {m : Flash} (h : LosesNothing .init m) :
    recordAtBoot m = ⟨initMarker, 0, 0⟩ := by
  by_cases hmarker : (readPersistentData m).marker = initMarker
  · have hrecord := recordAtBoot_of_marker hmarker
    have hsame : Update.init.record (readPersistentData m) = readPersistentData m := hrecord
    simp only [LosesNothing, hsame, or_self] at h
    rw [hrecord]
    calc readPersistentData m
        = ⟨(readPersistentData m).marker, (readPersistentData m).rebootCounter,
            (readPersistentData m).burnWireAttempts⟩ := rfl
      _ = ⟨initMarker, 0, 0⟩ := by rw [hmarker, h.1, h.2]
  · rw [recordAtBoot, initPersistentData, if_pos hmarker]

/-- Between a reset and the next completed boot, an untorn event moves nothing: what the
next boot returns stays the same. -/
theorem recordAtBoot_interrupted {s s' : FlashState} {e : FlashEvent}
    (hunbooted : s.booted = false) (hint : e.interrupted = true) (hok : NotTorn s e)
    (h : flashStep s e = some s') :
    s'.booted = false ∧ recordAtBoot s'.flash = recordAtBoot s.flash := by
  have hs : Loaded s := fun hb => absurd hb (by simp [hunbooted])
  cases e with
  | reset =>
    obtain rfl := Option.some.inj h
    exact ⟨rfl, rfl⟩
  | update u behind cut =>
    obtain ⟨hinit, hb, _⟩ := flashStep_update h
    obtain rfl := hinit.mpr hunbooted
    have hboot := recordAtBoot_update hs h
    rcases cut with _ | _ | _ | k
    · simp [FlashEvent.interrupted] at hint
    · exact ⟨hb, hboot⟩
    · exact ⟨hb, hboot.trans (recordAtBoot_of_losesNothing (hok rfl)).symm⟩
    · exact ⟨hb, hboot⟩

/-- The same, over any number of them. -/
theorem recordAtBoot_interrupted_run {s t : FlashState} {es : List FlashEvent}
    (hunbooted : s.booted = false) (hint : ∀ e ∈ es, e.interrupted = true)
    (hok : AllSteps flashStep NotTorn s es) (hrun : run flashStep s es = some t) :
    recordAtBoot t.flash = recordAtBoot s.flash := by
  induction es generalizing s with
  | nil =>
    obtain rfl := Option.some.inj hrun
    rfl
  | cons e es ih =>
    obtain ⟨s', hstep, hrest⟩ := run_cons_some flashStep hrun
    obtain ⟨hunbooted', hsame⟩ := recordAtBoot_interrupted hunbooted
      (hint e List.mem_cons_self) hok.1 hstep
    rw [ih hunbooted' (fun e he => hint e (List.mem_cons_of_mem _ he)) (hok.2 s' hstep) hrest,
      hsame]

/-! ## The reboot counter over whole runs -/

/-- An update of an initialised record does not lower the reboot counter, unless it wraps. -/
theorem Update.rebootCounter_le (u : Update) {d : PersistentData} (hmarker : d.marker = initMarker)
    (hwrap : u = .incrementRebootCounter → d.rebootCounter.toNat + 1 < 2 ^ 32) :
    d.rebootCounter ≤ (u.record d).rebootCounter := by
  cases u with
  | init =>
    rw [Update.record, initPersistentData_of_marker hmarker]
    exact UInt32.le_refl _
  | incrementRebootCounter =>
    have hlt := hwrap rfl
    simp only [Update.record, Samwise.incrementRebootCounter]
    rw [UInt32.le_iff_toNat_le, UInt32.toNat_add]
    simp only [UInt32.reduceToNat]
    omega
  | incrementBurnWireAttempts => exact UInt32.le_refl _
  | resetBurnWireAttempts => exact UInt32.le_refl _

/-- The same, in terms of what the boot before the update and the boot after it return. -/
theorem recordAtBoot_le_record {s s' : FlashState} {u : Update} {behind : Behind}
    {cut : Option Nat} (hs : Loaded s) (hwrap : NoWrap s (.update u behind cut))
    (h : flashStep s (.update u behind cut) = some s') :
    (recordAtBoot s.flash).rebootCounter
      ≤ (u.record (readPersistentData s.flash)).rebootCounter := by
  rcases recordAtBoot_before hs h with rfl | hold
  · exact UInt32.le_refl _
  · have hmarker : (readPersistentData s.flash).marker = initMarker := by
      rw [← hold]
      exact initPersistentData_marker _
    rw [hold]
    exact u.rebootCounter_le hmarker hwrap

/-- An untorn event without a wrap never lowers the reboot counter the next boot returns. -/
theorem recordAtBoot_le {s s' : FlashState} {e : FlashEvent} (hs : Loaded s)
    (hok : NotTorn s e) (hwrap : NoWrap s e) (h : flashStep s e = some s') :
    (recordAtBoot s.flash).rebootCounter ≤ (recordAtBoot s'.flash).rebootCounter := by
  cases e with
  | reset =>
    obtain rfl := Option.some.inj h
    exact UInt32.le_refl _
  | update u behind cut =>
    have hrecord := recordAtBoot_le_record hs hwrap h
    rw [recordAtBoot_update hs h]
    rcases cut with _ | _ | _ | k
    · exact hrecord
    · exact UInt32.le_refl _
    · -- the counter was zero, or the update made it zero
      rcases recordAtBoot_before hs h with rfl | hold
      · rw [recordAtBoot_of_losesNothing (hok rfl)]
        exact UInt32.le_refl _
      · rcases (hok rfl).1 with hzero | hzero
        · rw [hold, hzero]
          exact UInt32.le_refl _
        · rw [hzero] at hrecord
          exact hrecord
    · exact hrecord

theorem eq_recordAtBoot_of_mem_bootRecord {s : FlashState} {e : FlashEvent} {d : PersistentData}
    (h : d ∈ bootRecord s e) : d = recordAtBoot s.flash := by
  unfold bootRecord at h
  split at h
  · split at h
    · simp at h
    · exact List.mem_singleton.mp h
  · simp at h

theorem bootRecord_pairwise (R : PersistentData → PersistentData → Prop) (s : FlashState)
    (e : FlashEvent) : (bootRecord s e).Pairwise R := by
  unfold bootRecord
  split
  · split <;> simp
  · simp

/-- Every boot of an untorn run without wraps returns at least the reboot counter of every
boot before it. -/
theorem bootRecords_pairwise {s : FlashState} {es : List FlashEvent} (hs : Loaded s)
    (hok : AllSteps flashStep (fun s e => NotTorn s e ∧ NoWrap s e) s es) :
    (bootRecords s es).Pairwise fun a b => a.rebootCounter ≤ b.rebootCounter := by
  refine (outputs_pairwise flashStep bootRecord (I := Loaded)
    (B := fun s d => (recordAtBoot s.flash).rebootCounter ≤ d.rebootCounter) ?_ ?_ hok hs).2
  · intro s e _ _
    refine ⟨fun d hd => ?_, bootRecord_pairwise _ s e⟩
    rw [eq_recordAtBoot_of_mem_bootRecord hd]
    exact UInt32.le_refl _
  · intro s e s' hok hs hse
    refine ⟨hs.step hse, fun d hd => ?_⟩
    have hle := UInt32.le_trans (recordAtBoot_le hs hok.1 hok.2 hse) hd
    exact ⟨hle, fun a ha => by rwa [eq_recordAtBoot_of_mem_bootRecord ha]⟩

/-! ## The counters survive -/

/-- **Persistent counters survive power loss, unless it tears an update.** Take any run from
power-on whose resets never fall between the erase and the program of an update that has a
counter to lose. Whenever an update of it is cut, then after any number of further resets and
cut boots the next boot returns each counter as it was before the update or as the update
leaves it; and where the reboot counter is not incremented past its largest value, it never
decreases from one boot to the next. The condition is exact: in every run, a cut that tears
an update with a counter to lose does lose it. -/
theorem counters_survive_power_loss (m : Flash) (es : List FlashEvent) :
    (AllSteps flashStep NotTorn ⟨m, false⟩ es →
      ∀ pre mid post u behind k before after,
        es = pre ++ .update u behind (some k) :: mid ++ post →
        (∀ e ∈ mid, FlashEvent.interrupted e = true) →
        run flashStep ⟨m, false⟩ pre = some before →
        run flashStep ⟨m, false⟩ (pre ++ .update u behind (some k) :: mid) = some after →
        CounterKept (readPersistentData before.flash)
          (u.record (readPersistentData before.flash)) (recordAtBoot after.flash)) ∧
    (AllSteps flashStep (fun s e => NotTorn s e ∧ NoWrap s e) ⟨m, false⟩ es →
      (bootRecords ⟨m, false⟩ es).Pairwise fun a b => a.rebootCounter ≤ b.rebootCounter) ∧
    (∀ u behind k before after, run flashStep ⟨m, false⟩ es = some before →
      flashStep before (.update u behind (some k)) = some after →
      (CounterKept (readPersistentData before.flash)
        (u.record (readPersistentData before.flash)) (recordAtBoot after.flash) ↔
          NotTorn before (.update u behind (some k)))) := by
  have hoff : Loaded ⟨m, false⟩ := fun hbooted => absurd hbooted (by simp)
  have hloaded : ∀ pre before, run flashStep ⟨m, false⟩ pre = some before → Loaded before :=
    fun pre before hrun => invariant' flashStep (fun _ _ _ hs hse => hs.step hse) hrun hoff
  refine ⟨?_, bootRecords_pairwise hoff, ?_⟩
  · intro hok pre mid post u behind k before after hes hint hpre hafter
    subst hes
    -- split the run at the update that is cut; the resets behind it do not look at the record
    have hok' := hok.of_append flashStep |>.append_right flashStep hpre
    obtain ⟨before', hpre', hcut⟩ := run_append_some flashStep hafter
    obtain rfl : before = before' := Option.some.inj (hpre.symm.trans hpre')
    obtain ⟨cut, hstep, hmid⟩ := run_cons_some flashStep hcut
    obtain ⟨_, hbooted, _⟩ := flashStep_update hstep
    rw [recordAtBoot_interrupted_run hbooted hint (hok'.2 cut hstep) hmid]
    exact (counterKept_iff (hloaded pre before hpre) hstep).mpr hok'.1
  · intro u behind k before after hpre hstep
    exact counterKept_iff (hloaded es before hpre) hstep

/-- A flash that holds the record of an ordinary satellite: reboot 41, two burns. -/
def sampleFlash : Flash :=
  applyOps (fun _ => 0xFF) (writePersistentData ⟨initMarker, 41, 2⟩ (Vector.replicate 244 0))

theorem readPersistentData_sampleFlash :
    readPersistentData sampleFlash = ⟨initMarker, 41, 2⟩ :=
  readPersistentData_write _ _ _

/-- The guarantee where a reset falls before the erase. -/
theorem counters_survive_power_loss_cut_early :
    let behind : Behind := Vector.replicate 244 0
    let cut : List FlashEvent :=
      [.update .init behind none, .update .incrementRebootCounter behind (some 0)]
    (∃ before after, run flashStep ⟨sampleFlash, false⟩ [.update .init behind none] = some before ∧
      run flashStep ⟨sampleFlash, false⟩ cut = some after ∧
      CounterKept (readPersistentData before.flash)
        (incrementRebootCounter (readPersistentData before.flash)) (recordAtBoot after.flash)) ∧
    (bootRecords ⟨sampleFlash, false⟩ (cut ++ [.update .init behind none])).Pairwise
      fun a b => a.rebootCounter ≤ b.rebootCounter := by
  intro behind cut
  have hread : ∀ m d, readPersistentData (applyOps m (writePersistentData d behind)) = d :=
    fun m d => readPersistentData_write m d behind
  have huntorn : ∀ s u (k : Option Nat), k ≠ some 1 → NotTorn s (.update u behind k) :=
    fun s u k hk h => absurd h hk
  refine ⟨⟨_, _, rfl, rfl, ?_⟩, ?_⟩
  · refine (counters_survive_power_loss sampleFlash cut).1 ?_ [.update .init behind none] [] []
      .incrementRebootCounter behind 0 _ _ rfl (by simp) rfl rfl
    refine ⟨huntorn _ _ _ (by simp), fun s' _ => ⟨huntorn _ _ _ (by simp), fun _ _ => trivial⟩⟩
  · refine (counters_survive_power_loss sampleFlash (cut ++ [.update .init behind none])).2.1 ?_
    refine ⟨⟨huntorn _ _ _ (by simp), by simp [NoWrap]⟩, ?_⟩
    rintro _ ⟨⟩
    refine ⟨⟨huntorn _ _ _ (by simp), fun _ => ?_⟩, fun _ _ =>
      ⟨⟨huntorn _ _ _ (by simp), by simp [NoWrap]⟩, fun _ _ => trivial⟩⟩
    show (readPersistentData (applyOps sampleFlash (writePersistentData
      (initPersistentData (readPersistentData sampleFlash)) behind))).rebootCounter.toNat + 1 < _
    rw [hread, readPersistentData_sampleFlash]
    decide

/-- **A torn update loses both counters.** Power fails between erase and program while the
reboot counter goes from 41 to 42: the next boot returns 0, and no burn attempts either. -/
theorem counters_lost_in_torn_update :
    let behind : Behind := Vector.replicate 244 0
    let cut : List FlashEvent :=
      [.update .init behind none, .update .incrementRebootCounter behind (some 1)]
    (∃ before after, run flashStep ⟨sampleFlash, false⟩ [.update .init behind none] = some before ∧
      run flashStep ⟨sampleFlash, false⟩ cut = some after ∧
      ¬CounterKept (readPersistentData before.flash)
        (incrementRebootCounter (readPersistentData before.flash)) (recordAtBoot after.flash)) ∧
    ¬(bootRecords ⟨sampleFlash, false⟩ (cut ++ [.update .init behind none])).Pairwise
      fun a b => a.rebootCounter ≤ b.rebootCounter := by
  intro behind cut
  have hbefore : readPersistentData (applyOps sampleFlash (writePersistentData
      (initPersistentData (readPersistentData sampleFlash)) behind)) = ⟨initMarker, 41, 2⟩ := by
    rw [readPersistentData_write, readPersistentData_sampleFlash]
    decide
  have hfirst : recordAtBoot sampleFlash = ⟨initMarker, 41, 2⟩ := by
    rw [recordAtBoot, readPersistentData_sampleFlash]
    decide
  set booted : Flash := applyOps sampleFlash (writePersistentData
    (initPersistentData (readPersistentData sampleFlash)) behind)
  -- the cut falls between the erase and the program
  have hafter := recordAtBoot_erased booted
  refine ⟨⟨_, _, rfl, rfl, ?_⟩, ?_⟩
  · show ¬CounterKept (readPersistentData booted)
      (incrementRebootCounter (readPersistentData booted))
      (recordAtBoot (FlashOp.apply booted (.erase flashTargetOffset flashSectorSize)))
    rw [hafter, hbefore]
    decide
  · show ¬[recordAtBoot sampleFlash,
      recordAtBoot (FlashOp.apply booted (.erase flashTargetOffset flashSectorSize))].Pairwise _
    rw [hafter, hfirst]
    decide

end Samwise
