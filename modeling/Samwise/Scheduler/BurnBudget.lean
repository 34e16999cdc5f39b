import Samwise.Lib.Run
import Samwise.Scheduler.DispatchTrace

/-!
# Samwise — the burn-wire budget

Runs of the flight software with power loss anywhere: a boot or a dispatch may be cut after
any number of its effects, and then only flash survives. The budget counts the dispatches
that drove a burn channel since the attempts were last reset. The attempt is counted in flash
only after the burn, so a dispatch cut between the two is missed by the counter; the budget is
kept up to the missed ones, and in runs without them it is kept.
-/

namespace Samwise

open Run

/-! ## The machine -/

/-- The satellite, switched off with a record in flash, or running. -/
inductive Power where
  | off (d : PersistentData)
  | on (w : World)

/-- The satellite, with two counts since the last reset of the attempts: the dispatches that
drove a burn channel, and those among them that flash does not know of. -/
structure BudgetState where
  power : Power
  burns : Nat
  missed : Nat

/-- An event. `cut` is where a reset falls into a boot or a dispatch, if one does; a reset
before a dispatch is one that cuts it after no effect. -/
inductive BudgetEvent where
  | boot (env : Env) (cut : Option Nat)
  | dispatch (env : Env) (cut : Option Nat)
  | receive (packet : Packet)
  | txDone

/-- A trace drives a burn channel. -/
def energises (t : List Effect) : Bool := t.any Effect.isBurn

/-- A trace writes the persistent record. -/
def writes (t : List Effect) : Bool := t.any Effect.isWrite

/-- A trace holds the write of `reset_burn_wire_attempts`. -/
def resetsAttempts (t : List Effect) : Bool :=
  t.any fun e => match e with
    | .writePersistentData .resetBurnWireAttempts _ => true
    | _ => false

/-- The counts of burns and missed ones after the effects `t` of a dispatch. -/
def countsAfter (t : List Effect) (burns missed : Nat) : Nat × Nat :=
  if resetsAttempts t then (0, 0)
  else (burns + if energises t then 1 else 0,
    missed + if energises t && !writes t then 1 else 0)

/-- Begin a new trace: what reached flash becomes the record. -/
def World.settle (w : World) : World := { w with flash := w.persistent, trace := [] }

/-- Run a program from a world with an empty trace, cut where the event says. -/
def powerAfter (x : Flight Unit) (env : Env) (w : World) (cut : Option Nat) : Power :=
  match cut with
  | none => .on (x.run env w).2
  | some k => .off (flashAfter w.flash ((x.run env w).2.trace.take k))

section Budget

variable (hmac : Hmac) (psk : Option PacketHmacPsk)

/-- The effects of a dispatch that are done. -/
def dispatchTrace (w : World) (env : Env) (cut : Option Nat) : List Effect :=
  upTo cut ((schedDispatch hmac psk).run env w.settle).2.trace

/-- One event. -/
def budgetStep (s : BudgetState) : BudgetEvent → Option BudgetState
  | .boot env cut =>
    match s.power with
    | .off d => some { s with power := powerAfter mainInit env (World.atReset d) cut }
    | .on _ => none
  | .dispatch env cut =>
    match s.power with
    | .off _ => none
    | .on w =>
      let counts := countsAfter (dispatchTrace hmac psk w env cut) s.burns s.missed
      some
        { power := powerAfter (schedDispatch hmac psk) env w.settle cut
          burns := counts.1
          missed := counts.2 }
  | .receive packet =>
    match s.power with
    | .off _ => none
    | .on w => some { s with power := .on { w with
        slate := { w.slate with rxQueue := (w.slate.rxQueue.tryAdd packet).2 } } }
  | .txDone =>
    match s.power with
    | .off _ => none
    | .on w => some { s with power := .on { w with
        slate := { w.slate with txQueue := w.slate.txQueue.tryRemove.2 } } }

/-- The event does not cut a dispatch between the first drive of a burn channel and the write
that counts the attempt. -/
def NotMissed (s : BudgetState) : BudgetEvent → Prop
  | .dispatch env cut => ∀ w, s.power = .on w →
      energises (dispatchTrace hmac psk w env cut) = true →
        writes (dispatchTrace hmac psk w env cut) = true
  | _ => True

/-! ## The invariant -/

/-- What the counts may be when `d` is in flash: within the attempts the next boot will find,
and within the limit, up to the missed ones. -/
def WithinBudget (d : PersistentData) (burns missed : Nat) : Prop :=
  burns ≤ (initPersistentData d).burnWireAttempts.toNat + missed ∧
  burns ≤ maxBurnWireAttempts + missed

/-- The invariant of every run. A running satellite has an initialised record. -/
def BudgetKept (s : BudgetState) : Prop :=
  match s.power with
  | .off d => WithinBudget d s.burns s.missed
  | .on w => w.persistent.marker = initMarker ∧ WithinBudget w.persistent s.burns s.missed

/-! ## Boots -/

/-- A record with the same attempts at the next boot keeps the budget. -/
theorem WithinBudget.congr {d d' : PersistentData} {burns missed : Nat}
    (h : (initPersistentData d').burnWireAttempts = (initPersistentData d).burnWireAttempts)
    (hd : WithinBudget d burns missed) : WithinBudget d' burns missed := by
  rw [WithinBudget, h]
  exact hd

theorem schedInit_harmless : schedInit.Emits Effect.Harmless := by
  refine .bind (.forM fun task _ => ?_) fun _ => ?_
  · cases task <;> exact .of_silent fun _ _ => ⟨rfl, rfl⟩
  · refine .bind (.forM fun task _ => .of_silent fun _ _ => ⟨rfl, rfl⟩) fun _ => ?_
    exact .of_silent fun _ _ => ⟨rfl, rfl⟩

theorem burnWireInit_harmless : burnWireInit.Emits Effect.Harmless :=
  .bind (.emit ⟨rfl, rfl⟩) fun _ => .bind (.emit ⟨rfl, rfl⟩) fun _ => .emit ⟨rfl, rfl⟩

theorem mainStart_harmless : mainStart.Emits Effect.Harmless := by
  refine .bind (.emit ⟨rfl, rfl⟩) fun _ => ?_
  refine .bind (.of_silent fun _ _ => ⟨rfl, rfl⟩) fun _ => ?_
  exact .bind watchdogInit_harmless fun _ => safeSleepMs_harmless _

theorem mainFinish_harmless (data : PersistentData) :
    (mainFinish data).Emits Effect.Harmless :=
  .bind burnWireInit_harmless fun _ => .bind schedInit_harmless fun _ =>
    .of_silent fun _ _ => ⟨rfl, rfl⟩

/-- Two updates between harmless programs. -/
theorem updates_trace {start : Flight Unit} {finish : PersistentData → Flight Unit}
    (hstart : start.Emits Effect.Harmless) (hfinish : ∀ data, (finish data).Emits Effect.Harmless)
    (u v : Update) (env : Env) (w : World) :
    let w' := ((do
      start
      let data ← Flight.update u
      let _ ← Flight.update v
      finish data : Flight Unit).run env w).2
    w'.flash = w.flash ∧ ∃ before rest, (∀ e ∈ before, e.Harmless) ∧ (∀ e ∈ rest, e.Harmless) ∧
      w'.trace = w.trace ++ (before ++ .writePersistentData u (u.record w.persistent) ::
        .writePersistentData v (v.record (u.record w.persistent)) :: rest) := by
  simp only [Flight.run_bind]
  obtain ⟨before, htrace₁, hflash₁, hbefore⟩ := hstart env w
  have hpersistent₁ := persistent_of_harmless hstart env w
  have hpersistent₂ := persistent_update u env (start.run env w).2
  rw [hpersistent₁] at hpersistent₂
  simp only [Flight.run_update] at hpersistent₂ ⊢
  obtain ⟨rest, htrace₄, hflash₄, hrest⟩ :=
    hfinish (u.record (start.run env w).2.persistent) env _
  refine ⟨hflash₄.trans hflash₁, before, rest, hbefore, hrest, ?_⟩
  rw [htrace₄, hpersistent₂, hpersistent₁, htrace₁]
  simp

/-- A boot writes the record twice, loaded and with the reboot counter incremented, between
harmless effects. -/
theorem mainInit_trace (d : PersistentData) (env : Env) :
    let w' := (mainInit.run env (World.atReset d)).2
    w'.flash = d ∧ ∃ before rest, (∀ e ∈ before, e.Harmless) ∧ (∀ e ∈ rest, e.Harmless) ∧
      w'.trace = before ++ .writePersistentData .init (initPersistentData d) ::
        .writePersistentData .incrementRebootCounter
          (incrementRebootCounter (initPersistentData d)) :: rest :=
  updates_trace mainStart_harmless mainFinish_harmless .init .incrementRebootCounter env
    (World.atReset d)

/-- The record a cut boot leaves has the attempts of the one it found. -/
theorem flashAfter_mainInit (d : PersistentData) (env : Env) (cut : Option Nat) :
    let d' := flashAfter d (upTo cut (mainInit.run env (World.atReset d)).2.trace)
    (initPersistentData d').burnWireAttempts = (initPersistentData d).burnWireAttempts := by
  intro d'
  obtain ⟨_, before, rest, hbefore, hrest, htrace⟩ := mainInit_trace d env
  have hno : ∀ {t : List Effect}, (∀ e ∈ t, e.Harmless) → ∀ {d}, flashAfter d t = d :=
    fun ht => flashAfter_of_no_write fun e he => (ht e he).2
  have hmarker := initPersistentData_marker d
  set loaded := initPersistentData d with hloaded
  have hcounted : initPersistentData (incrementRebootCounter loaded)
      = incrementRebootCounter loaded := initPersistentData_of_marker hmarker
  -- the boot is cut before the first write, between the two, or behind them
  have hcases : d' = d ∨ d' = loaded ∨ d' = incrementRebootCounter loaded := by
    simp only [d', htrace]
    rcases upTo_append_cons cut before _ (.writePersistentData .init loaded) with
      ⟨k, hk⟩ | ⟨cut', hcut⟩
    · rw [hk, hno fun e he => hbefore e (List.mem_of_mem_take he)]
      exact Or.inl rfl
    · rw [hcut, flashAfter_append, hno hbefore]
      rcases upTo_append_cons cut' [] rest
        (.writePersistentData .incrementRebootCounter (incrementRebootCounter loaded)) with
        ⟨k, hk⟩ | ⟨cut'', hcut'⟩
      · rw [List.nil_append] at hk
        rw [hk, List.take_nil]
        exact Or.inr (Or.inl rfl)
      · rw [List.nil_append] at hcut'
        rw [hcut']
        refine Or.inr (Or.inr ?_)
        exact hno fun e he => hrest e (mem_of_mem_upTo he)
  rcases hcases with h | h | h
  · rw [h]
  · rw [h, hloaded, initPersistentData_idem]
  · rw [h, hcounted]
    rfl

/-- A boot that is not cut leaves the loaded record with one more reboot. -/
theorem flashAfter_mainInit_uncut (d : PersistentData) (env : Env) :
    flashAfter d (mainInit.run env (World.atReset d)).2.trace
      = incrementRebootCounter (initPersistentData d) := by
  obtain ⟨_, before, rest, hbefore, hrest, htrace⟩ := mainInit_trace d env
  have hno : ∀ {t : List Effect}, (∀ e ∈ t, e.Harmless) → ∀ {d}, flashAfter d t = d :=
    fun ht => flashAfter_of_no_write fun e he => (ht e he).2
  rw [htrace, flashAfter_append, hno hbefore]
  have hwrites : flashAfter d (.writePersistentData .init (initPersistentData d) ::
      .writePersistentData .incrementRebootCounter
        (incrementRebootCounter (initPersistentData d)) :: rest)
      = flashAfter (incrementRebootCounter (initPersistentData d)) rest := rfl
  rw [hwrites, hno hrest]

/-! ## Dispatches -/

theorem energises_of_harmless {t : List Effect} (h : ∀ e ∈ t, e.Harmless) :
    energises t = false := by
  rw [energises, List.any_eq_false]
  exact fun e he => by simp [(h e he).1]

theorem writes_of_no_write {t : List Effect} (h : ∀ e ∈ t, e.isWrite = false) :
    writes t = false := by
  rw [writes, List.any_eq_false]
  exact fun e he => by simp [h e he]

theorem resetsAttempts_of_no_write {t : List Effect} (h : ∀ e ∈ t, e.isWrite = false) :
    resetsAttempts t = false := by
  rw [resetsAttempts, List.any_eq_false]
  intro e he
  have hwrite := h e he
  cases e with
  | writePersistentData u d => simp [Effect.isWrite] at hwrite
  | _ => simp

theorem writes_append_cons {s t : List Effect} {u : Update} {d : PersistentData} :
    writes (s ++ .writePersistentData u d :: t) = true := by
  simp [writes, Effect.isWrite]

/-- With an initialised record the budget is about the attempts in flash. -/
theorem withinBudget_iff {d : PersistentData} {burns missed : Nat} (h : d.marker = initMarker) :
    WithinBudget d burns missed ↔
      burns ≤ d.burnWireAttempts.toNat + missed ∧ burns ≤ maxBurnWireAttempts + missed := by
  rw [WithinBudget, initPersistentData_of_marker h]

/-- Effects without a write leave the record, and count as missed if they drive a channel. -/
theorem withinBudget_of_no_write {d : PersistentData} {t : List Effect} {burns missed : Nat}
    (hmarker : d.marker = initMarker) (hd : WithinBudget d burns missed)
    (ht : ∀ e ∈ t, e.isWrite = false) :
    (flashAfter d t).marker = initMarker ∧
      WithinBudget (flashAfter d t) (countsAfter t burns missed).1
        (countsAfter t burns missed).2 := by
  rw [flashAfter_of_no_write ht]
  refine ⟨hmarker, ?_⟩
  rw [withinBudget_iff hmarker] at hd ⊢
  simp only [countsAfter, resetsAttempts_of_no_write ht, writes_of_no_write ht]
  cases energises t
  · exact hd
  · simp only [Bool.false_eq_true, if_true, if_false, Bool.not_false, Bool.and_self]
    omega

/-- **One dispatch, cut anywhere, keeps the budget.** A burn is counted by its write, or
missed; a reset starts over. -/
theorem DispatchTrace.withinBudget {d : PersistentData} {t : List Effect} {burns missed : Nat}
    (hmarker : d.marker = initMarker) (ht : DispatchTrace d t)
    (hd : WithinBudget d burns missed) (cut : Option Nat) :
    let p := upTo cut t
    (flashAfter d p).marker = initMarker ∧
      WithinBudget (flashAfter d p) (countsAfter p burns missed).1
        (countsAfter p burns missed).2 := by
  intro p
  have hno : ∀ {t : List Effect}, (∀ e ∈ t, e.Harmless) → ∀ e ∈ t, e.isWrite = false :=
    fun ht e he => (ht e he).2
  cases ht with
  | harmless ht =>
    exact withinBudget_of_no_write hmarker hd fun e he => (ht e (mem_of_mem_upTo he)).2
  | @burn burn rest hattempts hburn hrest =>
    rcases upTo_append_cons cut burn rest (.writePersistentData .incrementBurnWireAttempts
      (incrementBurnWireAttempts d)) with ⟨k, hk⟩ | ⟨cut', hcut⟩
    · -- cut before the write: the wires may have been driven, and nothing is counted yet
      simp only [p, hk]
      exact withinBudget_of_no_write hmarker hd fun e he => hburn e (List.mem_of_mem_take he)
    · -- the write is done: the attempt is counted in flash
      have hrest' : ∀ e ∈ upTo cut' rest, e.Harmless := fun e he => hrest e (mem_of_mem_upTo he)
      have hflash : flashAfter d p = incrementBurnWireAttempts d := by
        simp only [p, hcut]
        rw [flashAfter_append, flashAfter_of_no_write hburn]
        exact flashAfter_of_no_write (hno hrest')
      have hcounts : countsAfter p burns missed
          = (burns + if energises p then 1 else 0, missed) := by
        have hreset : resetsAttempts p = false := by
          simp only [p, hcut, resetsAttempts, List.any_append, List.any_cons]
          have h₁ := resetsAttempts_of_no_write hburn
          have h₂ := resetsAttempts_of_no_write (hno hrest')
          simp only [resetsAttempts] at h₁ h₂
          simp [h₁, h₂]
        have hwrites : writes p = true := by
          simp only [p, hcut]
          exact writes_append_cons
        simp [countsAfter, hreset, hwrites]
      have hcounted : (incrementBurnWireAttempts d).burnWireAttempts.toNat
          = d.burnWireAttempts.toNat + 1 := by
        rw [maxBurnWireAttempts_eq] at hattempts
        simp only [incrementBurnWireAttempts, UInt32.toNat_add, UInt32.reduceToNat]
        omega
      rw [hflash, hcounts, withinBudget_iff (d := incrementBurnWireAttempts d) hmarker, hcounted]
      rw [withinBudget_iff hmarker] at hd
      refine ⟨hmarker, ?_⟩
      cases energises p <;> simp only [Bool.false_eq_true, if_true, if_false] <;> omega
  | @reset before rest hbefore hrest =>
    rcases upTo_append_cons cut before rest (.writePersistentData .resetBurnWireAttempts
      (resetBurnWireAttempts d)) with ⟨k, hk⟩ | ⟨cut', hcut⟩
    · simp only [p, hk]
      exact withinBudget_of_no_write hmarker hd fun e he =>
        (hbefore e (List.mem_of_mem_take he)).2
    · -- the reset is done: the budget starts afresh
      have hreset : resetsAttempts p = true := by
        simp [p, hcut, resetsAttempts]
      have hmarker' : (flashAfter d p).marker = initMarker := by
        simp only [p, hcut]
        rw [flashAfter_append, flashAfter_of_no_write (hno hbefore)]
        have hrest' : flashAfter (resetBurnWireAttempts d) (upTo cut' rest)
            = resetBurnWireAttempts d :=
          flashAfter_of_no_write fun e he => (hrest e (mem_of_mem_upTo he)).2
        exact (congrArg PersistentData.marker hrest').trans hmarker
      refine ⟨hmarker', ?_⟩
      simp [countsAfter, hreset, WithinBudget]

/-! ## Runs -/

theorem World.persistent_settle (w : World) : w.settle.persistent = w.persistent := rfl

/-- What a program leaves in flash, cut or not, decides about the budget. -/
theorem BudgetKept.of_powerAfter {x : Flight Unit} {env : Env} {w : World} {cut : Option Nat}
    {burns missed : Nat} (hflash : (x.run env w).2.flash = w.flash)
    (hmarker : cut = none →
      (flashAfter w.flash (x.run env w).2.trace).marker = initMarker)
    (hbudget : WithinBudget (flashAfter w.flash (upTo cut (x.run env w).2.trace)) burns missed) :
    BudgetKept ⟨powerAfter x env w cut, burns, missed⟩ := by
  cases cut with
  | none =>
    have hpersistent : (x.run env w).2.persistent = flashAfter w.flash (x.run env w).2.trace := by
      rw [World.persistent, hflash]
    simp only [BudgetKept, powerAfter]
    rw [hpersistent]
    exact ⟨hmarker rfl, hbudget⟩
  | some k => exact hbudget

/-- Every event keeps the budget. -/
theorem BudgetKept.step {s s' : BudgetState} {e : BudgetEvent} (hs : BudgetKept s)
    (h : budgetStep hmac psk s e = some s') : BudgetKept s' := by
  obtain ⟨power, burns, missed⟩ := s
  cases e with
  | boot env cut =>
    cases power with
    | on w => simp [budgetStep] at h
    | off d =>
      obtain rfl := Option.some.inj h
      refine .of_powerAfter (mainInit_trace d env).1 (fun _ => ?_) ?_
      · have huncut := flashAfter_mainInit_uncut d env
        exact (congrArg PersistentData.marker huncut).trans (initPersistentData_marker d)
      · exact hs.congr (flashAfter_mainInit d env cut)
  | dispatch env cut =>
    cases power with
    | off d => simp [budgetStep] at h
    | on w =>
      obtain rfl := Option.some.inj h
      obtain ⟨hmarker, hbudget⟩ := hs
      obtain ⟨t, htrace, hflash, hshape⟩ := schedDispatch_dispatches hmac psk env w.settle
      have ht : ((schedDispatch hmac psk).run env w.settle).2.trace = t := by
        rw [htrace]
        rfl
      rw [World.persistent_settle] at hshape
      -- the marker is read off the whole pass, the counts off what is done of it
      have hwhole := hshape.withinBudget hmarker hbudget none
      have hcut := hshape.withinBudget hmarker hbudget cut
      simp only [dispatchTrace, ht]
      refine .of_powerAfter hflash (fun _ => ?_) ?_
      · rw [ht]
        exact hwhole.1
      · rw [ht]
        exact hcut.2
  | receive packet =>
    cases power with
    | off d => simp [budgetStep] at h
    | on w =>
      obtain rfl := Option.some.inj h
      exact hs
  | txDone =>
    cases power with
    | off d => simp [budgetStep] at h
    | on w =>
      obtain rfl := Option.some.inj h
      exact hs

/-- A step that misses no burn leaves the missed ones at zero. -/
theorem missed_step {s s' : BudgetState} {e : BudgetEvent} (hs : s.missed = 0)
    (hok : NotMissed hmac psk s e) (h : budgetStep hmac psk s e = some s') : s'.missed = 0 := by
  obtain ⟨power, burns, missed⟩ := s
  cases e with
  | boot env cut =>
    cases power with
    | on w => simp [budgetStep] at h
    | off d =>
      obtain rfl := Option.some.inj h
      exact hs
  | dispatch env cut =>
    cases power with
    | off d => simp [budgetStep] at h
    | on w =>
      obtain rfl := Option.some.inj h
      -- a pass that drives the wires also writes the attempt, by the condition
      have hwrites := hok w rfl
      simp only at hs
      simp only [countsAfter, hs]
      split
      · rfl
      · cases henergises : energises (dispatchTrace hmac psk w env cut) with
        | false => rfl
        | true => simp [hwrites henergises]
  | receive packet =>
    cases power with
    | off d => simp [budgetStep] at h
    | on w =>
      obtain rfl := Option.some.inj h
      exact hs
  | txDone =>
    cases power with
    | off d => simp [budgetStep] at h
    | on w =>
      obtain rfl := Option.some.inj h
      exact hs

/-! ## Only a cut misses a burn -/

/-- A dispatch that runs to its end counts its burn. -/
theorem DispatchTrace.counted {d : PersistentData} {t : List Effect} (ht : DispatchTrace d t)
    (h : energises t = true) : writes t = true := by
  cases ht with
  | harmless ht => simp [energises_of_harmless ht] at h
  | burn _ _ _ => exact writes_append_cons
  | reset _ _ => exact writes_append_cons

theorem notMissed_uncut (s : BudgetState) (env : Env) :
    NotMissed hmac psk s (.dispatch env none) := by
  intro w _ henergises
  obtain ⟨t, htrace, _, hshape⟩ := schedDispatch_dispatches hmac psk env w.settle
  have ht : dispatchTrace hmac psk w env none = t := by
    rw [dispatchTrace, htrace]
    rfl
  rw [ht] at henergises ⊢
  exact hshape.counted henergises

/-! ## A burn that is missed -/

theorem mainInit_state (d : PersistentData) (env : Env) :
    let w := (mainInit.run env (World.atReset d)).2
    w.slate.currentStateId = .stateInit ∧ w.slate.manualOverrideStateId = .stateNone := by
  simp only [mainInit, Flight.run_bind]
  exact ⟨rfl, rfl⟩

/-- With the pin removed, the init state moves on to the burn-wire state, and does nothing
else. -/
theorem schedDispatch_init (env : Env) {w : World} (hstate : w.slate.currentStateId = .stateInit)
    (hoverride : w.slate.manualOverrideStateId = .stateNone) (hrbf : ∀ n, env.rbf n = false) :
    let w' := ((schedDispatch hmac psk).run env w).2
    w'.slate.currentStateId = .stateBurnWire ∧ w'.trace = w.trace ∧ w'.flash = w.flash := by
  have hinfo : stateRegistryGet w.slate.currentStateId = some initState := by rw [hstate]; rfl
  rw [schedDispatch_run hmac psk hinfo]
  simp [initState, schedDispatchRest, chooseNextState, initGetNextState, enterState, getAbsoluteTime,
    isRbfPinDetected, hstate, hoverride, hrbf, stateRegistryGet]

/-- A due burn-wire task with panels stowed and attempts left burns, and counts it behind the
burn. -/
theorem schedDispatch_burns (env : Env) {w : World}
    (hstate : w.slate.currentStateId = .stateBurnWire)
    (hdue : absoluteTimeDiffUs (w.nextDispatch .burnWireTask) (env.clock w.samples) > 0)
    (hpanelA : ∀ n, env.panelA n = false)
    (hattempts : w.persistent.burnWireAttempts.toNat < maxBurnWireAttempts) :
    ∃ burn rest, energises burn = true ∧ (∀ e ∈ burn, e.isWrite = false) ∧
      (∀ e ∈ rest, e.Harmless) ∧
      ((schedDispatch hmac psk).run env w).2.trace = w.trace ++ (burn ++
        .writePersistentData .incrementBurnWireAttempts
          (incrementBurnWireAttempts w.persistent) :: rest) := by
  have hinfo : stateRegistryGet w.slate.currentStateId = some burnWireState := by rw [hstate]; rfl
  rw [schedDispatch_run hmac psk hinfo]
  -- the task starts from `w`, but for its deadline and the samples taken
  obtain ⟨w₁, hpersistent, htrace₁, hrun⟩ : ∃ w₁ : World, w₁.persistent = w.persistent ∧
      w₁.trace = w.trace ∧ ((dispatchIfDue hmac psk .burnWireTask).run env w).2 =
        (burnWireTaskDispatch.run env w₁).2 := by
    have hdue' : absoluteTimeDiffUs ((Flight.nextDispatch .burnWireTask).run env w).1
        (getAbsoluteTime.run env ((Flight.nextDispatch .burnWireTask).run env w).2).1 > 0 := hdue
    simp only [dispatchIfDue, Flight.run_bind, Flight.run_when, if_pos hdue']
    refine ⟨_, ?_, ?_, rfl⟩ <;> rfl
  obtain ⟨_, htask⟩ := burnWireTaskDispatch_trace env w₁
  have hburns : ¬((env.panelA w₁.samples = true ∧ env.panelB (w₁.samples + 1) = true) ∨
      maxBurnWireAttempts ≤ w₁.persistent.burnWireAttempts.toNat) := by
    rw [hpanelA, hpersistent]
    simp only [Bool.false_eq_true, false_and, false_or, Nat.not_le]
    exact hattempts
  rw [if_neg hburns] at htask
  obtain ⟨burn, hdrives, hburn, htask⟩ := htask
  have hfinish : (schedDispatchRest burnWireState).Emits Effect.Harmless := by
    refine .bind (.of_silent fun _ _ => ⟨rfl, rfl⟩) fun now => ?_
    refine .bind (.of_silent fun _ _ => ⟨rfl, rfl⟩) fun _ => ?_
    exact .bind (chooseNextState_harmless (show stateRegistryGet .stateBurnWire = some _ from rfl) (by simp))
      fun next => enterState_harmless next
  obtain ⟨rest, hrest, _, hharmless⟩ := hfinish env (burnWireTaskDispatch.run env w₁).2
  refine ⟨burn, rest, ?_, hburn, hharmless, ?_⟩
  · obtain ⟨e, he, hdrive⟩ := hdrives
    exact List.any_eq_true.mpr ⟨e, he, hdrive⟩
  · have hwhole : ((burnWireState.taskList.forM (dispatchIfDue hmac psk) >>=
        fun _ => schedDispatchRest burnWireState).run env w).2
          = ((schedDispatchRest burnWireState).run env
            ((dispatchIfDue hmac psk .burnWireTask).run env w).2).2 := rfl
    rw [hwhole, hrun, hrest, htask, htrace₁, hpersistent]
    simp

/-- A time is past every deadline one microsecond before it. -/
theorem absoluteTimeDiffUs_succ (t : UInt64) : absoluteTimeDiffUs t (t + 1) > 0 := by
  have hdiff : t + 1 - t = 1 := by
    rw [UInt64.add_comm, UInt64.add_sub_cancel]
  rw [absoluteTimeDiffUs, hdiff]
  decide

/-- The panels are stowed, and the clock shows the burn-wire task as due. -/
def Env.burnDue (w : World) : Env :=
  { Env.still with clock := fun _ => w.nextDispatch .burnWireTask + 1 }

theorem burnDue_due (w : World) (n : Nat) :
    absoluteTimeDiffUs (w.nextDispatch .burnWireTask) ((Env.burnDue w).clock n) > 0 :=
  absoluteTimeDiffUs_succ _

theorem powerAfter_none (x : Flight Unit) (env : Env) (w : World) :
    powerAfter x env w none = .on (x.run env w).2 := rfl

/-- A boot that is not cut, in the counts' terms. -/
theorem budgetStep_boot (d : PersistentData) (env : Env) (burns missed : Nat) :
    ∃ w, budgetStep hmac psk ⟨.off d, burns, missed⟩ (.boot env none)
        = some ⟨.on w, burns, missed⟩ ∧
      w.slate.currentStateId = .stateInit ∧ w.slate.manualOverrideStateId = .stateNone ∧
      w.persistent = incrementRebootCounter (initPersistentData d) := by
  obtain ⟨hstate, hoverride⟩ := mainInit_state d env
  refine ⟨(mainInit.run env (World.atReset d)).2, ?_, hstate, hoverride, ?_⟩
  · simp only [budgetStep, powerAfter_none]
  · rw [World.persistent, (mainInit_trace d env).1]
    exact flashAfter_mainInit_uncut d env

/-- From a record without attempts, a boot and the transition into the burn-wire state lead to
a dispatch that burns and then counts it; nothing is missed on the way. -/
theorem reaches_burn (d : PersistentData)
    (hattempts : (initPersistentData d).burnWireAttempts = 0) (burns missed : Nat) :
    ∃ es env w burn rest, run (budgetStep hmac psk) ⟨.off d, burns, missed⟩ es
        = some ⟨.on w, burns, missed⟩ ∧
      AllSteps (budgetStep hmac psk) (NotMissed hmac psk) ⟨.off d, burns, missed⟩ es ∧
      w.persistent = incrementRebootCounter (initPersistentData d) ∧
      energises burn = true ∧ (∀ e ∈ burn, e.isWrite = false) ∧ (∀ e ∈ rest, e.Harmless) ∧
      ((schedDispatch hmac psk).run env w.settle).2.trace = burn ++
        .writePersistentData .incrementBurnWireAttempts (incrementBurnWireAttempts w.persistent)
          :: rest := by
  obtain ⟨w₁, hboot, hstate₁, hoverride₁, hpersistent₁⟩ :=
    budgetStep_boot hmac psk d Env.still burns missed
  obtain ⟨hstate₂, htrace₂, hflash₂⟩ := schedDispatch_init hmac psk Env.still
    (w := w₁.settle) hstate₁ hoverride₁ fun _ => rfl
  have henter : budgetStep hmac psk ⟨.on w₁, burns, missed⟩ (.dispatch Env.still none)
      = some ⟨.on ((schedDispatch hmac psk).run Env.still w₁.settle).2, burns, missed⟩ := by
    have hsilent : dispatchTrace hmac psk w₁ Env.still none = [] := htrace₂
    simp [budgetStep, hsilent, countsAfter, resetsAttempts, energises, powerAfter]
  have hkept₂ : ((schedDispatch hmac psk).run Env.still w₁.settle).2.persistent
      = w₁.persistent := by
    rw [World.persistent, htrace₂, hflash₂]
    rfl
  generalize ((schedDispatch hmac psk).run Env.still w₁.settle).2 = w₂ at hstate₂ henter hkept₂
  have hleft : w₂.settle.persistent.burnWireAttempts.toNat < maxBurnWireAttempts := by
    have hzero : (incrementRebootCounter (initPersistentData d)).burnWireAttempts = 0 := hattempts
    rw [World.persistent_settle, hkept₂, hpersistent₁, hzero]
    decide
  obtain ⟨burn, rest, hdrives, hburn, hrest, htrace₃⟩ := schedDispatch_burns hmac psk
    (.burnDue w₂) (w := w₂.settle) hstate₂ (burnDue_due w₂ _) (fun _ => rfl) hleft
  refine ⟨[.boot Env.still none, .dispatch Env.still none], .burnDue w₂, w₂, burn, rest, ?_, ?_,
    hkept₂.trans hpersistent₁, hdrives, hburn, hrest, htrace₃⟩
  · rw [run_cons, hboot, Option.bind_some, run_cons, henter]
    rfl
  · refine ⟨trivial, fun s' hs' => ?_⟩
    refine ⟨notMissed_uncut hmac psk s' Env.still, fun _ _ => trivial⟩

/-- **One missed burn.** A boot, the transition into the burn-wire state, and a reset right
behind the burn: the channels were driven, and flash has the attempts it had before. -/
theorem missed_burn (d : PersistentData)
    (hattempts : (initPersistentData d).burnWireAttempts = 0) (burns missed : Nat) :
    ∃ es d', run (budgetStep hmac psk) ⟨.off d, burns, missed⟩ es
      = some ⟨.off d', burns + 1, missed + 1⟩ ∧ (initPersistentData d').burnWireAttempts = 0 := by
  obtain ⟨es, env, w, burn, _, hrun, _, hpersistent, hdrives, hburn, _, htrace⟩ :=
    reaches_burn hmac psk d hattempts burns missed
  -- the power goes when the wires have been driven and the write has not begun
  have hcut : dispatchTrace hmac psk w env (some burn.length) = burn := by
    rw [dispatchTrace, htrace]
    exact List.take_left
  have hmiss : budgetStep hmac psk ⟨.on w, burns, missed⟩ (.dispatch env (some burn.length))
      = some ⟨.off w.persistent, burns + 1, missed + 1⟩ := by
    have hpower : powerAfter (schedDispatch hmac psk) env w.settle (some burn.length)
        = .off w.persistent := by
      have htake : ((schedDispatch hmac psk).run env w.settle).2.trace.take burn.length = burn :=
        hcut
      rw [powerAfter, htake, flashAfter_of_no_write hburn]
      rfl
    simp [budgetStep, hcut, hpower, countsAfter, resetsAttempts_of_no_write hburn,
      writes_of_no_write hburn, hdrives]
  refine ⟨es ++ [.dispatch env (some burn.length)], w.persistent, ?_, ?_⟩
  · rw [run_append, hrun, Option.bind_some, run_cons, hmiss]
    rfl
  · rw [hpersistent, initPersistentData_of_marker (d := incrementRebootCounter _)
      (initPersistentData_marker d)]
    exact hattempts

/-- One burn that is counted: the same run with the dispatch left to finish. -/
theorem counted_burn (d : PersistentData)
    (hattempts : (initPersistentData d).burnWireAttempts = 0) (burns missed : Nat) :
    ∃ es, (∃ w, run (budgetStep hmac psk) ⟨.off d, burns, missed⟩ es
        = some ⟨.on w, burns + 1, missed⟩) ∧
      AllSteps (budgetStep hmac psk) (NotMissed hmac psk) ⟨.off d, burns, missed⟩ es := by
  obtain ⟨es, env, w, burn, rest, hrun, hok, _, hdrives, hburn, hrest, htrace⟩ :=
    reaches_burn hmac psk d hattempts burns missed
  refine ⟨es ++ [.dispatch env none], ⟨((schedDispatch hmac psk).run env w.settle).2, ?_⟩, ?_⟩
  · have hreset : resetsAttempts (dispatchTrace hmac psk w env none) = false := by
      have h₁ := resetsAttempts_of_no_write hburn
      have h₂ := resetsAttempts_of_no_write fun e he => (hrest e he).2
      simp only [resetsAttempts] at h₁ h₂
      simp [dispatchTrace, upTo, htrace, resetsAttempts, h₁, h₂]
    have henergises : energises (dispatchTrace hmac psk w env none) = true := by
      rw [energises] at hdrives
      simp [dispatchTrace, upTo, htrace, energises, hdrives]
    have hwrites := notMissed_uncut hmac psk ⟨.on w, burns, missed⟩ env w rfl henergises
    rw [run_append, hrun, Option.bind_some, run_cons]
    simp [budgetStep, countsAfter, hreset, henergises, hwrites, powerAfter_none]
  · refine hok.append _ hrun ⟨notMissed_uncut hmac psk _ env, fun _ _ => trivial⟩

/-- `n` missed burns in a row. -/
theorem missed_burns (n : Nat) :
    ∀ d, (initPersistentData d).burnWireAttempts = 0 → ∀ burns missed,
      ∃ es d', run (budgetStep hmac psk) ⟨.off d, burns, missed⟩ es
        = some ⟨.off d', burns + n, missed + n⟩ := by
  induction n with
  | zero => exact fun d _ burns missed => ⟨[], d, rfl⟩
  | succ n ih =>
    intro d hattempts burns missed
    obtain ⟨es, d', hes, hattempts'⟩ := missed_burn hmac psk d hattempts burns missed
    obtain ⟨es', d'', hes'⟩ := ih d' hattempts' (burns + 1) (missed + 1)
    refine ⟨es ++ es', d'', ?_⟩
    rw [run_append, hes, Option.bind_some, hes', Nat.add_assoc, Nat.add_assoc, Nat.add_comm 1]

/-! ## The budget -/

/-- **The burn-wire budget.** In every run of boots, dispatches, received packets and resets
anywhere, from any record in flash: the dispatches that energised the burn wires since the
attempts were last reset are at most `MAX_BURN_WIRE_ATTEMPTS`, up to those cut between the
burn and its count; and at most that number in runs without such a cut. -/
theorem burn_wire_budget (d : PersistentData) (es : List BudgetEvent) (s : BudgetState)
    (hrun : run (budgetStep hmac psk) ⟨.off d, 0, 0⟩ es = some s) :
    s.burns ≤ maxBurnWireAttempts + s.missed ∧
    (AllSteps (budgetStep hmac psk) (NotMissed hmac psk) ⟨.off d, 0, 0⟩ es →
      s.burns ≤ maxBurnWireAttempts) := by
  have hstart : BudgetKept ⟨.off d, 0, 0⟩ := ⟨Nat.zero_le _, Nat.zero_le _⟩
  have hkept : BudgetKept s :=
    invariant' (budgetStep hmac psk) (fun _ _ _ hs h => hs.step hmac psk h) hrun hstart
  have hbound : s.burns ≤ maxBurnWireAttempts + s.missed := by
    obtain ⟨power, burns, missed⟩ := s
    cases power with
    | off d' => exact hkept.2
    | on w => exact hkept.2.2
  refine ⟨hbound, fun hok => ?_⟩
  have hmissed : s.missed = 0 := invariant (budgetStep hmac psk) (I := fun s => s.missed = 0)
    (fun _ _ _ hok hs h => missed_step hmac psk hs hok h) hok hrun rfl
  rw [hmissed] at hbound
  exact hbound

end Budget

/-- The budget, on a run that burns once and counts it. -/
theorem burn_wire_budget_one_burn :
    ∃ (es : List BudgetEvent) (s : BudgetState),
      run (budgetStep (fun _ _ => Vector.replicate 32 0) none) ⟨.off ⟨initMarker, 0, 0⟩, 0, 0⟩ es
        = some s ∧
      AllSteps (budgetStep (fun _ _ => Vector.replicate 32 0) none)
        (NotMissed (fun _ _ => Vector.replicate 32 0) none) ⟨.off ⟨initMarker, 0, 0⟩, 0, 0⟩ es ∧
      s.burns = 1 ∧ s.burns ≤ maxBurnWireAttempts := by
  obtain ⟨es, hrun, hok⟩ := counted_burn (fun _ _ => Vector.replicate 32 0) none
    ⟨initMarker, 0, 0⟩ rfl 0 0
  obtain ⟨w, hrun⟩ := hrun
  exact ⟨es, _, hrun, hok, rfl, (burn_wire_budget _ _ _ _ _ hrun).2 hok⟩

/-- **The budget is exceeded by resets right behind the burns**: from an initialised record
without attempts, six boots that each lose power between the burn and its count drive the
burn wires six times, with the counter still at zero. -/
theorem burn_wire_budget_exceeded :
    ¬ ∀ (hmac : Hmac) (psk : Option PacketHmacPsk) (d : PersistentData) (es : List BudgetEvent)
        (s : BudgetState), run (budgetStep hmac psk) ⟨.off d, 0, 0⟩ es = some s →
      s.burns ≤ maxBurnWireAttempts := by
  intro h
  obtain ⟨es, d', hes⟩ := missed_burns (fun _ _ => Vector.replicate 32 0) none 6
    ⟨initMarker, 0, 0⟩ rfl 0 0
  have hbound : 0 + 6 ≤ maxBurnWireAttempts := h _ _ _ _ _ hes
  rw [maxBurnWireAttempts_eq] at hbound
  omega

end Samwise
