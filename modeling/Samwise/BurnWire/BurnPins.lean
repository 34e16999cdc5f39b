import Samwise.Scheduler.Routine

/-!
# Samwise — the burn wires, effect by effect

The levels of the three outputs after a list of effects, and what a program drives them
through: `Flight.Drives P l l'` says that a program started at the levels `l` ends at `l'`, with
`P` true of the levels at every moment in between.
-/

namespace Samwise

/-! ## Levels -/

/-- The levels of the three outputs. -/
structure BurnPins where
  relay : Bool
  enabA : Bool
  enabB : Bool
deriving DecidableEq, Repr

def BurnPins.off : BurnPins := ⟨false, false, false⟩

/-- The levels after an effect. -/
def BurnPins.after (l : BurnPins) : Effect → BurnPins
  | .gpioPut .samwiseBurnRelay level => { l with relay := level }
  | .gpioPut .samwiseEnabBurnA level => { l with enabA := level }
  | .gpioPut .samwiseEnabBurnB level => { l with enabB := level }
  | _ => l

/-- The levels after the effects `t`. -/
def BurnPins.afterAll (l : BurnPins) (t : List Effect) : BurnPins := t.foldl BurnPins.after l

@[simp] theorem BurnPins.afterAll_nil (l : BurnPins) : l.afterAll [] = l := rfl

@[simp] theorem BurnPins.afterAll_append (l : BurnPins) (t u : List Effect) :
    l.afterAll (t ++ u) = (l.afterAll t).afterAll u := List.foldl_append

/-- The levels now; at the reset they are low. -/
def World.burnPins (w : World) : BurnPins := BurnPins.off.afterAll w.trace

/-- The effect switches one of the three on. -/
def Effect.raisesBurnPin : Effect → Bool
  | .gpioPut pin true => pin.isBurnWire
  | _ => false

theorem raisesBurnPin_of_quiet {e : Effect} (h : e.isQuiet = true) : e.raisesBurnPin = false := by
  cases e with
  | gpioPut pin level =>
    have hpin : pin.isBurnWire = false := by simpa [Effect.isQuiet] using h
    cases level with
    | false => rfl
    | true => exact hpin
  | _ => rfl

/-- What is off stays off while nothing switches it on. Induction on the effects. -/
theorem burnPins_off_of_not_raised {t : List Effect} (h : ∀ e ∈ t, e.raisesBurnPin = false) :
    BurnPins.off.afterAll t = BurnPins.off := by
  induction t with
  | nil => rfl
  | cons e t ih =>
    have he := h e List.mem_cons_self
    have hoff : BurnPins.off.after e = BurnPins.off := by
      cases e with
      | gpioPut pin level =>
        cases level with
        | false => cases pin <;> rfl
        | true => cases pin <;> first | rfl | cases he
      | _ => rfl
    show (BurnPins.off.after e).afterAll t = BurnPins.off
    rw [hoff]
    exact ih fun e' he' => h e' (List.mem_cons_of_mem _ he')

/-- A routine program emits what its relation allows. -/
theorem Flight.Steps.emits {α : Type} {x : Flight α} {O : StateId → Prop} {P : Effect → Prop}
    (hx : x.Steps (World.Routine O P)) : x.Emits P := by
  intro env w
  obtain ⟨t, ht, hP⟩ := (hx env w).trace
  exact ⟨t, ht, (hx env w).flash, hP⟩

/-- Effects that switch nothing on leave the wires off. -/
theorem burnPins_of_emits {α : Type} {x : Flight α} (hx : x.Emits fun e => e.raisesBurnPin = false)
    (env : Env) {w : World} (hw : w.burnPins = .off) : (x.run env w).2.burnPins = .off := by
  obtain ⟨t, ht, _, hraise⟩ := hx env w
  rw [World.burnPins, ht, BurnPins.afterAll_append, ← World.burnPins, hw]
  exact burnPins_off_of_not_raised hraise

/-! ## What a program drives them through -/

/-- From the levels `l` to `l'`, and `P` at every moment on the way. -/
def Flight.Drives {α : Type} (P : BurnPins → Prop) (l l' : BurnPins) (x : Flight α) : Prop :=
  ∀ env w, ∃ t, (x.run env w).2.trace = w.trace ++ t ∧ l.afterAll t = l' ∧
    ∀ p, p <+: t → P (l.afterAll p)

namespace Flight.Drives

variable {α β : Type} {P : BurnPins → Prop} {l l' l'' : BurnPins}

theorem afterAll_quiet {t : List Effect} (h : ∀ e ∈ t, e.isQuiet = true) : l.afterAll t = l := by
  induction t with
  | nil => rfl
  | cons e t ih =>
    have he := h e List.mem_cons_self
    have hsame : l.after e = l := by
      cases e with
      | gpioPut pin level => cases pin <;> first | rfl | cases he
      | _ => rfl
    show (l.after e).afterAll t = l
    rw [hsame]
    exact ih fun e' he' => h e' (List.mem_cons_of_mem _ he')

theorem of_quiet {x : Flight α} (hx : x.Emits fun e => e.isQuiet = true) (hl : P l) :
    x.Drives P l l := by
  intro env w
  obtain ⟨t, ht, _, hquiet⟩ := hx env w
  refine ⟨t, ht, afterAll_quiet hquiet, fun p hp => ?_⟩
  rw [afterAll_quiet fun e he => hquiet e (hp.subset he)]
  exact hl

theorem pure (a : α) (hl : P l) : (Pure.pure a : Flight α).Drives P l l :=
  of_quiet (.pure a) hl

theorem gpioPut (pin : Pin) (level : Bool) (hl : P l)
    (hafter : P (l.after (.gpioPut pin level))) :
    (Samwise.gpioPut pin level).Drives P l (l.after (.gpioPut pin level)) := by
  intro env w
  refine ⟨[.gpioPut pin level], rfl, rfl, fun p hp => ?_⟩
  -- before the effect, or behind it
  rcases List.prefix_cons_iff.mp hp with rfl | ⟨q, rfl, hq⟩
  · exact hl
  · obtain rfl := List.prefix_nil.mp hq
    exact hafter

theorem update (u : Update) (hl : P l) : (Flight.update u).Drives P l l := by
  intro env w
  refine ⟨[.writePersistentData u _], rfl, rfl, fun p hp => ?_⟩
  rcases List.prefix_cons_iff.mp hp with rfl | ⟨q, rfl, hq⟩
  · exact hl
  · obtain rfl := List.prefix_nil.mp hq
    exact hl

theorem bind {x : Flight α} {f : α → Flight β} (hx : x.Drives P l l')
    (hf : ∀ a, (f a).Drives P l' l'') : (x >>= f).Drives P l l'' := by
  intro env w
  obtain ⟨t, ht, hend, hP⟩ := hx env w
  obtain ⟨u, hu, hend', hP'⟩ := hf (x.run env w).1 env (x.run env w).2
  refine ⟨t ++ u, ?_, ?_, fun p hp => ?_⟩
  · rw [Flight.run_bind, hu, ht, List.append_assoc]
  · rw [BurnPins.afterAll_append, hend, hend']
  · -- a moment of `x`, or one of what follows it
    rcases List.prefix_or_prefix_of_prefix hp (List.prefix_append t u) with hpt | ⟨q, rfl⟩
    · exact hP p hpt
    · rw [BurnPins.afterAll_append, hend]
      exact hP' q ((List.prefix_append_right_inj t).mp hp)

theorem when {c : Prop} [Decidable c] {x : Flight Unit} (hx : c → x.Drives P l l')
    (hc : ¬c → l = l') (hl : P l) : (Flight.when c x).Drives P l l' := by
  unfold Flight.when
  split
  · next h => exact hx h
  · next h =>
    obtain rfl := hc h
    exact pure () hl

end Flight.Drives

/-! ## A burn -/

/-- At most one channel is on, and only one whose panel reads not deployed. -/
structure BurnPins.Allowed (panelA panelB : Bool) (l : BurnPins) : Prop where
  one : ¬(l.enabA = true ∧ l.enabB = true)
  stowedA : l.enabA = true → panelA = false
  stowedB : l.enabB = true → panelB = false

theorem BurnPins.Allowed.of_off (panelA panelB relay : Bool) :
    BurnPins.Allowed panelA panelB ⟨relay, false, false⟩ :=
  ⟨by simp, by simp, by simp⟩

section Burn

variable {panelA panelB : Bool}

theorem safeSleepMs_drives {P : BurnPins → Prop} {l : BurnPins} (ms : Nat) (hl : P l) :
    (safeSleepMs ms).Drives P l l :=
  .of_quiet (safeSleepMs_routine (O := fun _ => False) ms).emits hl

/-- One channel, switched on and off again. -/
theorem burnWireActivate_drives (burnMs : Nat) {a b : Bool}
    (h : BurnPins.Allowed panelA panelB ⟨true, a, b⟩) :
    (burnWireActivate burnMs a b).Drives (BurnPins.Allowed panelA panelB) .off .off := by
  have hoff : ∀ relay, BurnPins.Allowed panelA panelB ⟨relay, false, false⟩ :=
    BurnPins.Allowed.of_off panelA panelB
  have hA : ∀ relay, BurnPins.Allowed panelA panelB ⟨relay, a, false⟩ :=
    fun _ => ⟨by simp, h.stowedA, by simp⟩
  have hB : ∀ relay, BurnPins.Allowed panelA panelB ⟨relay, false, b⟩ :=
    fun _ => ⟨by simp, by simp, h.stowedB⟩
  have hAB : ∀ relay, BurnPins.Allowed panelA panelB ⟨relay, a, b⟩ :=
    fun _ => ⟨h.one, h.stowedA, h.stowedB⟩
  have honA : (Flight.when (a = true) (gpioPut .samwiseEnabBurnA true)).Drives
      (BurnPins.Allowed panelA panelB) ⟨true, false, false⟩ ⟨true, a, false⟩ := by
    refine .when (fun ha => ?_) (fun ha => ?_) (hoff _)
    · obtain rfl : a = true := ha
      exact .gpioPut _ _ (hoff _) (hA _)
    · obtain rfl : a = false := by simpa using ha
      rfl
  have honB : (Flight.when (b = true) (gpioPut .samwiseEnabBurnB true)).Drives
      (BurnPins.Allowed panelA panelB) ⟨true, a, false⟩ ⟨true, a, b⟩ := by
    refine .when (fun hb => ?_) (fun hb => ?_) (hA _)
    · obtain rfl : b = true := hb
      exact .gpioPut _ _ (hA _) (hAB _)
    · obtain rfl : b = false := by simpa using hb
      rfl
  refine .bind (.gpioPut _ _ (hoff _) (hoff _)) fun _ => .bind honA fun _ => .bind honB fun _ => ?_
  refine .bind (safeSleepMs_drives burnMs (hAB _)) fun _ => ?_
  refine .bind (.gpioPut .samwiseBurnRelay false (hAB _) (hAB _)) fun _ => ?_
  refine .bind (.gpioPut .samwiseEnabBurnA false (hAB _) (hB _)) fun _ => ?_
  refine .bind (.gpioPut .samwiseEnabBurnB false (hB _) (hoff _)) fun _ => ?_
  exact safeSleepMs_drives 1 (hoff _)

/-- The channels one after the other, each only where its panel is stowed. -/
theorem burnPanels_drives :
    (burnPanels panelA panelB).Drives (BurnPins.Allowed panelA panelB) .off .off := by
  have hoff : BurnPins.Allowed panelA panelB .off := .of_off panelA panelB false
  refine .bind (safeSleepMs_drives 1000 hoff) fun _ => ?_
  refine .bind (.when (fun hA => burnWireActivate_drives _ ?_) (fun _ => rfl) hoff) fun _ => ?_
  · exact ⟨by simp, fun _ => hA, by simp⟩
  refine .bind (.when (fun hB => burnWireActivate_drives _ ?_) (fun _ => rfl) hoff) fun _ => ?_
  · exact ⟨by simp, by simp, fun _ => hB⟩
  exact safeSleepMs_drives 4000 hoff

/-- **One dispatch of the burn-wire task**: at every moment at most one channel is on, and only
one whose panel read not deployed at the start; on return all three outputs are off. -/
theorem burnWireTaskDispatch_drives (env : Env) (w : World) :
    ∃ t, (burnWireTaskDispatch.run env w).2.trace = w.trace ++ t ∧
      BurnPins.off.afterAll t = .off ∧ ∀ p, p <+: t →
        BurnPins.Allowed (env.panelA w.samples) (env.panelB (w.samples + 1))
          (BurnPins.off.afterAll p) := by
  set panelA := env.panelA w.samples
  set panelB := env.panelB (w.samples + 1)
  have hoff : BurnPins.Allowed panelA panelB .off := .of_off panelA panelB false
  -- what follows the two readings, for whatever they are
  have hrest : (if panelA = true ∧ panelB = true then pure () else do
      let burnWireAttempts ← getBurnWireAttempts
      if burnWireAttempts.toNat ≥ maxBurnWireAttempts then
        pure ()
      else
        burnPanels panelA panelB
        let _ ← Flight.update .incrementBurnWireAttempts : Flight Unit).Drives
        (BurnPins.Allowed panelA panelB) .off .off := by
    split
    · exact .pure () hoff
    · refine .bind (.of_quiet (.of_silent fun _ _ => ⟨rfl, rfl⟩) hoff) fun attempts => ?_
      split
      · exact .pure () hoff
      · exact .bind burnPanels_drives fun _ => .bind (.update _ hoff) fun _ => .pure () hoff
  have hA : (isFlexPanelADeployed.run env w).1 = panelA := rfl
  have hB : (isFlexPanelBDeployed.run env (isFlexPanelADeployed.run env w).2).1 = panelB := rfl
  rw [burnWireTaskDispatch, Flight.run_bind, Flight.run_bind, hA, hB]
  exact hrest env (isFlexPanelBDeployed.run env (isFlexPanelADeployed.run env w).2).2

end Burn

end Samwise
