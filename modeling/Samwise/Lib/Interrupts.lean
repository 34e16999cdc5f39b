import Samwise.Lib.Interaction
import Samwise.Lib.Run

/-!
# Programs and interrupts

Programs of `Interaction` against a component that responds to every call: a program runs to its
end, and `Gives` is its postcondition. `Safe` says of an invariant of the component that the program
keeps it, also where others that keep it come between any two of its calls.

On a processor, a program may be interrupted between two calls by a handler, which is a program of
the same kind and may be interrupted itself; the programs under way are a stack. A call is served
whole, so nothing is said of a handler that comes within one. The component may change by itself in
between. What every program is safe for and the component keeps by itself holds
throughout.
-/

namespace Interaction

namespace Prog

section Exec

variable {S : Signature} {τ α β : Type} {σ : Type*} (serve : σ → (c : S.Call) → S.Response c × σ)

/-- Run the program from the variables `v` against the component in state `s`. -/
def exec : Prog S τ α → τ → σ → α × τ × σ
  | .done a, v, s => (a, v, s)
  | .get k, v, s => (k v).exec v s
  | .set v k, _, s => k.exec v s
  | .call c k, v, s => (k (serve s c).1).exec v (serve s c).2

theorem exec_pure (a : α) (v : τ) (s : σ) :
    (pure a : Prog S τ α).exec serve v s = (a, v, s) := rfl

theorem exec_perform (c : S.Call) (v : τ) (s : σ) :
    (perform c : Prog S τ (S.Response c)).exec serve v s = ((serve s c).1, v, (serve s c).2) := rfl

theorem exec_perform_bind (c : S.Call) (f : S.Response c → Prog S τ α) (v : τ) (s : σ) :
    (perform c >>= f).exec serve v s = (f (serve s c).1).exec serve v (serve s c).2 := rfl

/-- Sequencing. Induction on the first program. -/
theorem exec_bind (x : Prog S τ β) (f : β → Prog S τ α) (v : τ) (s : σ) :
    (x >>= f).exec serve v s =
      (f (x.exec serve v s).1).exec serve (x.exec serve v s).2.1 (x.exec serve v s).2.2 := by
  show (x.bind f).exec serve v s = _
  induction x generalizing v s with
  | done b => rfl
  | get k ih => exact ih v v s
  | set w k ih => exact ih w s
  | call c k ih => exact ih _ v _

/-- The run ends with a result, variables and a state that satisfy `Q`. -/
def Gives (v : τ) (s : σ) (x : Prog S τ α) (Q : α → τ → σ → Prop) : Prop :=
  Q (x.exec serve v s).1 (x.exec serve v s).2.1 (x.exec serve v s).2.2

namespace Gives

variable {serve} {v : τ} {s : σ} {Q : α → τ → σ → Prop}

theorem pure {a : α} (h : Q a v s) : Gives serve v s (Pure.pure a) Q := h

theorem vars_bind {f : τ → Prog S τ α} (h : Gives serve v s (f v) Q) :
    Gives serve v s (vars >>= f) Q := h

theorem modify_bind {g : τ → τ} {f : Unit → Prog S τ α} (h : Gives serve (g v) s (f ()) Q) :
    Gives serve v s (modify g >>= f) Q := h

theorem perform_bind {c : S.Call} {f : S.Response c → Prog S τ α}
    (h : Gives serve v (serve s c).2 (f (serve s c).1) Q) :
    Gives serve v s (perform c >>= f) Q := h

theorem perform {c : S.Call} {Q : S.Response c → τ → σ → Prop}
    (h : Q (serve s c).1 v (serve s c).2) : Gives serve v s (perform c) Q := h

theorem bind {x : Prog S τ β} {f : β → Prog S τ α} {R : β → τ → σ → Prop}
    (hx : Gives serve v s x R) (hf : ∀ b w s', R b w s' → Gives serve w s' (f b) Q) :
    Gives serve v s (x >>= f) Q := by
  unfold Gives
  rw [exec_bind]
  exact hf _ _ _ hx

theorem ite {c : Prop} {_ : Decidable c} {x y : Prog S τ α}
    (hx : c → Gives serve v s x Q) (hy : ¬c → Gives serve v s y Q) :
    Gives serve v s (if c then x else y) Q := by
  split
  · next h => exact hx h
  · next h => exact hy h

theorem and {x : Prog S τ α} {R : α → τ → σ → Prop} (hx : Gives serve v s x Q)
    (hy : Gives serve v s x R) : Gives serve v s x fun a w s' => Q a w s' ∧ R a w s' := ⟨hx, hy⟩

theorem mono {x : Prog S τ α} {R : α → τ → σ → Prop} (hx : Gives serve v s x R)
    (h : ∀ a w s', R a w s' → Q a w s') : Gives serve v s x Q := h _ _ _ hx

end Gives

/-- Every call of the program keeps `I`, whatever has happened since its last one that kept `I`. -/
def Safe (I : σ → Prop) : Prog S τ α → Prop
  | .done _ => True
  | .get k => ∀ v, (k v).Safe I
  | .set _ k => k.Safe I
  | .call c k => ∀ s, I s → I (serve s c).2 ∧ (k (serve s c).1).Safe I

namespace Safe

variable {serve} {I : σ → Prop}

theorem pure (a : α) : Safe serve I (Pure.pure a : Prog S τ α) := trivial

theorem vars_bind {f : τ → Prog S τ α} (h : ∀ v, Safe serve I (f v)) :
    Safe serve I (vars >>= f) := h

theorem modify (g : τ → τ) : Safe serve I (modify g : Prog S τ Unit) := fun _ => trivial

theorem perform_bind {c : S.Call} {f : S.Response c → Prog S τ α}
    (h : ∀ s, I s → I (serve s c).2 ∧ Safe serve I (f (serve s c).1)) :
    Safe serve I (perform c >>= f) := h

theorem perform {c : S.Call} (h : ∀ s, I s → I (serve s c).2) :
    Safe serve I (perform c : Prog S τ (S.Response c)) := fun s hs => ⟨h s hs, trivial⟩

/-- Sequencing. Induction on the first program. -/
theorem bind {x : Prog S τ β} {f : β → Prog S τ α} (hx : Safe serve I x)
    (hf : ∀ b, Safe serve I (f b)) : Safe serve I (x >>= f) := by
  show Safe serve I (x.bind f)
  induction x with
  | done b => exact hf b
  | get k ih => exact fun v => ih v (hx v)
  | set w k ih => exact ih hx
  | call c k ih => exact fun s hs => ⟨(hx s hs).1, ih _ (hx s hs).2⟩

theorem ite {c : Prop} {_ : Decidable c} {x y : Prog S τ α} (hx : Safe serve I x)
    (hy : Safe serve I y) : Safe serve I (if c then x else y) := by
  split
  · exact hx
  · exact hy

end Safe

end Exec

end Prog

/-! ## Interrupts -/

namespace Interrupts

variable {S : Signature} {τ : Type} {σ ε : Type*}

/-- A processor with its component: the programs under way, the interrupting one first. -/
structure Processor (S : Signature) (τ : Type) (σ : Type*) where
  stack : List (Prog S τ Unit)
  vars : τ
  component : σ

/-- A step of the program on top, a program that starts or interrupts, or an event of the
component. -/
inductive Event (S : Signature) (τ : Type) (ε : Type*) where
  | advance
  | start (x : Prog S τ Unit)
  | own (e : ε)

variable (serve : σ → (c : S.Call) → S.Response c × σ) (change : σ → ε → σ)

def step (p : Processor S τ σ) : Event S τ ε → Option (Processor S τ σ)
  | .advance => match p.stack with
    | [] => none
    | .done () :: stack => some { p with stack }
    | .get k :: stack => some { p with stack := k p.vars :: stack }
    | .set v k :: stack => some { p with stack := k :: stack, vars := v }
    | .call c k :: stack => some { p with
        stack := k (serve p.component c).1 :: stack
        component := (serve p.component c).2 }
  | .start x => some { p with stack := x :: p.stack }
  | .own e => some { p with component := change p.component e }

/-- The invariant holds, and what is under way keeps it. -/
structure Guarded (I : σ → Prop) (p : Processor S τ σ) : Prop where
  holds : I p.component
  safe : ∀ x ∈ p.stack, x.Safe serve I

/-- Every program that starts keeps the invariant. -/
def StartsSafe (I : σ → Prop) (_ : Processor S τ σ) : Event S τ ε → Prop
  | .start x => x.Safe serve I
  | _ => True

variable {serve change} {I : σ → Prop}

theorem step_guarded (hchange : ∀ s e, I s → I (change s e)) (p : Processor S τ σ)
    (e : Event S τ ε) (p' : Processor S τ σ) (hok : StartsSafe serve I p e)
    (hp : Guarded serve I p) (hstep : step serve change p e = some p') : Guarded serve I p' := by
  cases e with
  | start x =>
    obtain rfl := Option.some.inj hstep
    refine ⟨hp.holds, fun y hy => ?_⟩
    rcases List.mem_cons.mp hy with rfl | hy
    · exact hok
    · exact hp.safe y hy
  | own e =>
    obtain rfl := Option.some.inj hstep
    exact ⟨hchange _ e hp.holds, hp.safe⟩
  | advance =>
    obtain ⟨stack, vars, s⟩ := p
    cases stack with
    | nil => cases hstep
    | cons x stack =>
      have hx : x.Safe serve I := hp.safe x List.mem_cons_self
      have hrest : ∀ y ∈ stack, y.Safe serve I := fun y hy => hp.safe y (List.mem_cons_of_mem _ hy)
      -- one case for each kind of program, by what its first step leaves on top
      cases x with
      | done u =>
        obtain rfl := Option.some.inj hstep
        exact ⟨hp.holds, hrest⟩
      | get k =>
        obtain rfl := Option.some.inj hstep
        exact ⟨hp.holds, List.forall_mem_cons.mpr ⟨hx vars, hrest⟩⟩
      | set v k =>
        obtain rfl := Option.some.inj hstep
        exact ⟨hp.holds, List.forall_mem_cons.mpr ⟨hx, hrest⟩⟩
      | call c k =>
        obtain rfl := Option.some.inj hstep
        obtain ⟨hs, hk⟩ := hx s hp.holds
        exact ⟨hs, List.forall_mem_cons.mpr ⟨hk, hrest⟩⟩

/-- **The interference rule.** An invariant that every program is safe for and the component keeps
by itself holds after any run. -/
theorem run_guarded (hchange : ∀ s e, I s → I (change s e)) {p p' : Processor S τ σ}
    {events : List (Event S τ ε)}
    (hok : Run.AllSteps (step serve change) (StartsSafe serve I) p events)
    (hrun : Run.run (step serve change) p events = some p') (hp : Guarded serve I p) :
    Guarded serve I p' :=
  Run.invariant (step serve change) (step_guarded hchange) hok hrun hp

end Interrupts

end Interaction
