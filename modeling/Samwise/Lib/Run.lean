import Mathlib.Logic.Basic

/-!
# Runs of a machine

A machine is a partial step function `step : σ → ε → Option σ`: the state after an event,
or `none` where the event is not enabled. `run` iterates it over a list of events. The two
rules of this module are all that the invariant proofs use: `Run.invariant` carries a
property along a run whose steps each satisfy a side condition `ok` (take `ok` trivial for
"every run"), and `run_append` splits a run at a point of interest.
-/

namespace Run

variable {σ ε : Type*} (step : σ → ε → Option σ)

/-- The state after a list of events, `none` if one of them is not enabled in its turn. -/
def run (s : σ) : List ε → Option σ
  | [] => some s
  | e :: es => (step s e).bind fun s' => run s' es

@[simp] theorem run_nil (s : σ) : run step s [] = some s := rfl

theorem run_cons (s : σ) (e : ε) (es : List ε) :
    run step s (e :: es) = (step s e).bind fun s' => run step s' es := rfl

/-- A run of `e :: es` is a step and a run of the rest. -/
theorem run_cons_some {s t : σ} {e : ε} {es : List ε} (h : run step s (e :: es) = some t) :
    ∃ s', step s e = some s' ∧ run step s' es = some t := by
  rw [run_cons, Option.bind_eq_some_iff] at h
  exact h

/-- Runs compose. Induction on the first one. -/
theorem run_append (s : σ) (es fs : List ε) :
    run step s (es ++ fs) = (run step s es).bind fun s' => run step s' fs := by
  induction es generalizing s with
  | nil => rfl
  | cons e es ih =>
    rw [List.cons_append, run_cons, run_cons, Option.bind_assoc]
    congr 1
    funext s'
    exact ih s'

/-- A run of `es ++ fs` passes through a state after `es`. -/
theorem run_append_some {s t : σ} {es fs : List ε} (h : run step s (es ++ fs) = some t) :
    ∃ s', run step s es = some s' ∧ run step s' fs = some t := by
  rw [run_append, Option.bind_eq_some_iff] at h
  exact h

/-- The side condition `ok` holds at every step of the run of `es` from `s`, each read in
the state the step is taken from. -/
def AllSteps (ok : σ → ε → Prop) (s : σ) : List ε → Prop
  | [] => True
  | e :: es => ok s e ∧ ∀ s', step s e = some s' → AllSteps ok s' es

theorem AllSteps.of_mem {ok : σ → ε → Prop} {es : List ε} (h : ∀ e ∈ es, ∀ s, ok s e) (s : σ) :
    AllSteps step ok s es := by
  induction es generalizing s with
  | nil => trivial
  | cons e es ih =>
    exact ⟨h e List.mem_cons_self s,
      fun s' _ => ih (fun e' he' => h e' (List.mem_cons_of_mem _ he')) s'⟩

theorem AllSteps.of_forall {ok : σ → ε → Prop} (h : ∀ s e, ok s e) (s : σ) (es : List ε) :
    AllSteps step ok s es := .of_mem step (fun e _ s => h s e) s

/-- A weaker side condition holds along the same runs. -/
theorem AllSteps.mono {ok ok' : σ → ε → Prop} (himp : ∀ s e, ok s e → ok' s e) {s : σ}
    {es : List ε} (h : AllSteps step ok s es) : AllSteps step ok' s es := by
  induction es generalizing s with
  | nil => trivial
  | cons e es ih => exact ⟨himp s e h.1, fun s' hs => ih (h.2 s' hs)⟩

/-- Two side conditions that hold along a run hold together. -/
theorem AllSteps.and {ok ok' : σ → ε → Prop} {s : σ} {es : List ε} (h : AllSteps step ok s es)
    (h' : AllSteps step ok' s es) : AllSteps step (fun s e => ok s e ∧ ok' s e) s es := by
  induction es generalizing s with
  | nil => trivial
  | cons e es ih => exact ⟨⟨h.1, h'.1⟩, fun s' hs => ih (h.2 s' hs) (h'.2 s' hs)⟩

/-- The side condition, checked along the run. -/
instance AllSteps.decidable {ok : σ → ε → Prop} [∀ s e, Decidable (ok s e)] :
    (s : σ) → (es : List ε) → Decidable (AllSteps step ok s es)
  | _, [] => isTrue trivial
  | s, e :: es =>
    match h : step s e with
    | none => decidable_of_iff (ok s e)
        ⟨fun hok => ⟨hok, fun s' hs' => by rw [h] at hs'; cases hs'⟩, And.left⟩
    | some s' =>
      have : Decidable (AllSteps step ok s' es) := AllSteps.decidable s' es
      decidable_of_iff (ok s e ∧ AllSteps step ok s' es)
        ⟨fun hok => ⟨hok.1, fun t ht => by rw [h] at ht; exact Option.some.inj ht ▸ hok.2⟩,
          fun hok => ⟨hok.1, hok.2 s' h⟩⟩

/-- The side condition holds on every initial piece of the run. -/
theorem AllSteps.of_append {ok : σ → ε → Prop} {s : σ} {es fs : List ε}
    (h : AllSteps step ok s (es ++ fs)) : AllSteps step ok s es := by
  induction es generalizing s with
  | nil => trivial
  | cons e es ih => exact ⟨h.1, fun s' hs => ih (h.2 s' hs)⟩

/-- And on what is left of it. -/
theorem AllSteps.append_right {ok : σ → ε → Prop} {s t : σ} {es fs : List ε}
    (h : AllSteps step ok s (es ++ fs)) (hrun : run step s es = some t) :
    AllSteps step ok t fs := by
  induction es generalizing s with
  | nil =>
    obtain rfl : s = t := Option.some.inj hrun
    exact h
  | cons e es ih =>
    obtain ⟨s', hs, hrest⟩ := run_cons_some step hrun
    exact ih (h.2 s' hs) hrest

/-- A run made of two pieces with the side condition has it. -/
theorem AllSteps.append {ok : σ → ε → Prop} {s t : σ} {es fs : List ε}
    (hes : AllSteps step ok s es) (hrun : run step s es = some t) (hfs : AllSteps step ok t fs) :
    AllSteps step ok s (es ++ fs) := by
  induction es generalizing s with
  | nil =>
    obtain rfl : s = t := Option.some.inj hrun
    exact hfs
  | cons e es ih =>
    refine ⟨hes.1, fun s' hs => ?_⟩
    rw [run_cons, hs] at hrun
    exact ih (hes.2 s' hs) hrun

/-- **The invariant rule.** A property that every permitted step preserves holds at the end
of every run of permitted steps. -/
theorem invariant {P : σ → ε → Prop} {I : σ → Prop}
    (hstep : ∀ s e s', P s e → I s → step s e = some s' → I s')
    {s t : σ} {es : List ε} (hok : AllSteps step P s es) (hrun : run step s es = some t)
    (hs : I s) : I t := by
  induction es generalizing s with
  | nil =>
    obtain rfl : s = t := Option.some.inj hrun
    exact hs
  | cons e es ih =>
    obtain ⟨s', hse, hrest⟩ := run_cons_some step hrun
    exact ih (hok.2 s' hse) hrest (hstep s e s' hok.1 hs hse)

/-- The invariant rule without a side condition. -/
theorem invariant' {I : σ → Prop} (hstep : ∀ s e s', I s → step s e = some s' → I s')
    {s t : σ} {es : List ε} (hrun : run step s es = some t) (hs : I s) : I t :=
  invariant step (P := fun _ _ => True) (fun s e s' _ => hstep s e s')
    (AllSteps.of_forall step (fun _ _ => trivial) s es) hrun hs

/-- **The counting rule.** Where every step adds the weight of its event to a size, a run adds
the number of the events that weigh. -/
theorem invariant_count {I : σ → Prop} {size : σ → Nat} {weighs : ε → Bool}
    (hstep : ∀ s e s', I s → step s e = some s' →
      I s' ∧ size s' = size s + if weighs e then 1 else 0)
    {s t : σ} {es : List ε} (hrun : run step s es = some t) (hs : I s) :
    I t ∧ size t = size s + es.countP weighs := by
  induction es generalizing s with
  | nil =>
    obtain rfl : s = t := Option.some.inj hrun
    exact ⟨hs, rfl⟩
  | cons e es ih =>
    obtain ⟨s₁, h, hrest⟩ := run_cons_some step hrun
    obtain ⟨hs₁, hsize⟩ := hstep s e s₁ hs h
    obtain ⟨ht, hsum⟩ := ih hrest hs₁
    refine ⟨ht, ?_⟩
    rw [hsum, hsize, List.countP_cons]
    omega

/-- **The exact-condition rule.** Where every step from a state of the invariant `I` keeps
`I`, and keeps `good` exactly if the step satisfies `ok`, a run ends good exactly if it
starts good and all its steps satisfy `ok`. -/
theorem good_iff_allSteps {ok : σ → ε → Prop} {I : σ → Prop} (good : σ → Prop)
    (hstep : ∀ s e s', I s → step s e = some s' → I s' ∧ (good s' ↔ good s ∧ ok s e))
    {s t : σ} {es : List ε} (hrun : run step s es = some t) (hs : I s) :
    good t ↔ good s ∧ AllSteps step ok s es := by
  induction es generalizing s with
  | nil =>
    obtain rfl : s = t := Option.some.inj hrun
    exact ⟨fun h => ⟨h, trivial⟩, And.left⟩
  | cons e es ih =>
    obtain ⟨s', hse, hrest⟩ := run_cons_some step hrun
    obtain ⟨hs', hgood⟩ := hstep s e s' hs hse
    rw [ih hrest hs', hgood]
    constructor
    · rintro ⟨⟨hgs, hok⟩, hall⟩
      refine ⟨hgs, hok, fun t' ht' => ?_⟩
      obtain rfl : s' = t' := Option.some.inj (hse.symm.trans ht')
      exact hall
    · rintro ⟨hgs, hok, hall⟩
      exact ⟨⟨hgs, hok⟩, hall s' hse⟩

/-! ## Projections -/

section Projection

variable {τ : Type*} (stepτ : τ → ε → Option τ) (f : τ → σ) {I : τ → Prop}

/-- **The projection rule.** Where `f` takes the steps of a machine to those of another, it
takes runs to runs. -/
theorem run_map (hinv : ∀ t e t', I t → stepτ t e = some t' → I t')
    (hstep : ∀ t e, I t → (stepτ t e).map f = step (f t) e) {t : τ} (ht : I t) (es : List ε) :
    (run stepτ t es).map f = run step (f t) es := by
  induction es generalizing t with
  | nil => rfl
  | cons e es ih =>
    rw [run_cons, run_cons, ← hstep t e ht]
    cases hte : stepτ t e with
    | none => rfl
    | some t' => exact ih (hinv t e t' ht hte)

/-- A side condition on the projected states. -/
theorem AllSteps.map (hinv : ∀ t e t', I t → stepτ t e = some t' → I t')
    (hstep : ∀ t e, I t → (stepτ t e).map f = step (f t) e) {ok : σ → ε → Prop} {t : τ} (ht : I t)
    {es : List ε} :
    AllSteps stepτ (fun t e => ok (f t) e) t es ↔ AllSteps step ok (f t) es := by
  induction es generalizing t with
  | nil => exact Iff.rfl
  | cons e es ih =>
    refine and_congr_right fun _ => ?_
    rw [← hstep t e ht]
    constructor
    · intro h s' hs'
      obtain ⟨t', hte, rfl⟩ := Option.map_eq_some_iff.mp hs'
      exact (ih (hinv t e t' ht hte)).mp (h t' hte)
    · intro h t' hte
      refine (ih (hinv t e t' ht hte)).mpr (h (f t') ?_)
      rw [hte]
      rfl

end Projection

/-! ## Cutting short -/

/-- What is done of a list of actions when a reset falls after `cut` of them; all of them,
where none falls. -/
def upTo {α : Type*} (cut : Option Nat) (actions : List α) : List α :=
  match cut with
  | none => actions
  | some k => actions.take k

/-- A cut list of actions with one of them marked is cut before the marked one or behind
it. -/
theorem upTo_append_cons {α : Type*} (cut : Option Nat) (xs ys : List α) (a : α) :
    (∃ k, upTo cut (xs ++ a :: ys) = xs.take k) ∨
      ∃ cut', upTo cut (xs ++ a :: ys) = xs ++ a :: upTo cut' ys := by
  cases cut with
  | none => exact Or.inr ⟨none, rfl⟩
  | some k =>
    by_cases hk : k ≤ xs.length
    · exact Or.inl ⟨k, List.take_append_of_le_length hk⟩
    · obtain ⟨j, hj⟩ : ∃ j, k = xs.length + (j + 1) := ⟨k - xs.length - 1, by omega⟩
      refine Or.inr ⟨some j, ?_⟩
      simp only [upTo]
      rw [hj, List.take_length_add_append, List.take_succ_cons]

theorem mem_of_mem_upTo {α : Type*} {cut : Option Nat} {actions : List α} {a : α}
    (h : a ∈ upTo cut actions) : a ∈ actions := by
  cases cut with
  | none => exact h
  | some k => exact List.mem_of_mem_take h

/-! ## What a run puts out -/

variable {ω : Type*} (out : σ → ε → List ω)

/-- What a run puts out, in order: `out s e` is what the event `e` puts out in state `s`.
Nothing comes after an event that is not enabled. -/
def outputs (s : σ) : List ε → List ω
  | [] => []
  | e :: es => out s e ++ match step s e with
    | some s' => outputs s' es
    | none => []

@[simp] theorem outputs_nil (s : σ) : outputs step out s [] = [] := rfl

theorem outputs_cons_some {s s' : σ} {e : ε} (h : step s e = some s') (es : List ε) :
    outputs step out s (e :: es) = out s e ++ outputs step out s' es := by
  rw [outputs, h]

theorem outputs_cons_none {s : σ} {e : ε} (h : step s e = none) (es : List ε) :
    outputs step out s (e :: es) = out s e := by
  rw [outputs, h, List.append_nil]

/-- What every state of an invariant puts out is what a run puts out. -/
theorem outputs_forall {I : σ → Prop} {P : ω → Prop}
    (hstep : ∀ s e s', I s → step s e = some s' → I s') (hout : ∀ s e, I s → ∀ x ∈ out s e, P x)
    {s : σ} {es : List ε} (hs : I s) : ∀ x ∈ outputs step out s es, P x := by
  induction es generalizing s with
  | nil => simp
  | cons e es ih =>
    intro x hx
    cases hse : step s e with
    | none =>
      rw [outputs_cons_none _ _ hse] at hx
      exact hout s e hs x hx
    | some s' =>
      rw [outputs_cons_some _ _ hse] at hx
      rcases List.mem_append.mp hx with hx | hx
      · exact hout s e hs x hx
      · exact ih (hstep s e s' hs hse) x hx

/-- **The rule for ordered outputs.** `B s x` says that the state `s` is still before the
output `x`. If what a step puts out is ordered by `R` and not behind its state, and
everything before which the next state is comes after it, then the outputs of the whole run
are ordered by `R`, and the state the run starts from is before all of them. -/
theorem outputs_pairwise {P : σ → ε → Prop} {I : σ → Prop} {B : σ → ω → Prop}
    {R : ω → ω → Prop}
    (hout : ∀ s e, P s e → I s → (∀ x ∈ out s e, B s x) ∧ (out s e).Pairwise R)
    (hstep : ∀ s e s', P s e → I s → step s e = some s' →
      I s' ∧ ∀ y, B s' y → B s y ∧ ∀ x ∈ out s e, R x y)
    {s : σ} {es : List ε} (hok : AllSteps step P s es) (hs : I s) :
    (∀ x ∈ outputs step out s es, B s x) ∧ (outputs step out s es).Pairwise R := by
  induction es generalizing s with
  | nil => simp
  | cons e es ih =>
    obtain ⟨hbelow, hpair⟩ := hout s e hok.1 hs
    cases hse : step s e with
    | none =>
      rw [outputs_cons_none _ _ hse]
      exact ⟨hbelow, hpair⟩
    | some s' =>
      obtain ⟨hs', hnext⟩ := hstep s e s' hok.1 hs hse
      obtain ⟨hbelow', hpair'⟩ := ih (hok.2 s' hse) hs'
      rw [outputs_cons_some _ _ hse]
      refine ⟨?_, List.pairwise_append.mpr ⟨hpair, hpair', ?_⟩⟩
      · -- before this output, or before the state that follows it
        intro x hx
        rcases List.mem_append.mp hx with hx | hx
        · exact hbelow x hx
        · exact (hnext x (hbelow' x hx)).1
      · intro x hx y hy
        exact (hnext y (hbelow' y hy)).2 x hx

end Run
