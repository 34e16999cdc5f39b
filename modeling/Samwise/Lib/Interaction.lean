import Mathlib.Data.List.Basic
import Samwise.Lib.Run

/-!
# Programs over an external component

A component takes calls and returns to each a response of the call's own type. A program
`Prog S τ α` has variables of type `τ`, calls the component and ends with an `α`; it is a tree
that branches on every response, so it is defined for every pattern of responses. Its
behaviour is read through traces: `replay x v t` runs `x` from the variables `v` on the
responses recorded in `t`, and is `none` where `t` is not a trace of `x`. The `replay_…` lemmas
are inversions: one for each construct, to be applied from the outside in.

What the component does is another reading of the same traces: a machine over the events,
not enabled where the component does not respond that way. `Ensures` is a program's
postcondition against such a machine, with a rule for each construct.
-/

namespace Interaction

/-- The calls a component takes, each with the type of its responses. -/
structure Signature where
  Call : Type
  Response : Call → Type

/-- A call and its response. -/
structure Event (S : Signature) where
  call : S.Call
  response : S.Response call

/-- A program with variables `τ` and result `α` over a component. -/
inductive Prog (S : Signature) (τ α : Type) where
  | done (a : α)
  | get (k : τ → Prog S τ α)
  | set (v : τ) (k : Prog S τ α)
  | call (c : S.Call) (k : S.Response c → Prog S τ α)

namespace Prog

variable {S : Signature} {τ α β : Type}

/-- Sequencing: `f` goes on at every leaf. -/
def bind : Prog S τ α → (α → Prog S τ β) → Prog S τ β
  | .done a, f => f a
  | .get k, f => .get fun v => (k v).bind f
  | .set v k, f => .set v (k.bind f)
  | .call c k, f => .call c fun r => (k r).bind f

instance : Monad (Prog S τ) where
  pure := .done
  bind := bind

theorem bind_assoc {γ : Type} (x : Prog S τ α) (f : α → Prog S τ β) (g : β → Prog S τ γ) :
    x >>= f >>= g = x >>= fun a => f a >>= g := by
  show (x.bind f).bind g = x.bind fun a => (f a).bind g
  induction x with
  | done a => rfl
  | get k ih => exact congrArg Prog.get (funext ih)
  | set v k ih => exact congrArg (Prog.set v) ih
  | call c k ih => exact congrArg (Prog.call c) (funext ih)

/-- The variables now. -/
def vars : Prog S τ τ := .get .done

/-- Assign to the variables. -/
def modify (f : τ → τ) : Prog S τ Unit := .get fun v => .set (f v) (.done ())

/-- Call the component. -/
def perform (c : S.Call) : Prog S τ (S.Response c) := .call c .done

/-- An `if` without an `else`. -/
def when (c : Prop) [Decidable c] (x : Prog S τ Unit) : Prog S τ Unit := if c then x else pure ()

/-! ## Replaying a trace -/

/-- Run the program on the responses of a trace, all of which it has to use up. -/
def replay [DecidableEq S.Call] : Prog S τ α → τ → List (Event S) → Option (α × τ)
  | .done a, v, t => match t with
    | [] => some (a, v)
    | _ :: _ => none
  | .get k, v, t => (k v).replay v t
  | .set v k, _, t => k.replay v t
  | .call c k, v, t => match t with
    | [] => none
    | e :: t => if h : e.call = c then (k (h ▸ e.response)).replay v t else none

variable [DecidableEq S.Call]

theorem replay_pure {a : α} {v : τ} {t : List (Event S)} {y : α × τ} :
    (pure a : Prog S τ α).replay v t = some y ↔ t = [] ∧ y = (a, v) := by
  cases t with
  | nil => simp [pure, replay, eq_comm]
  | cons e t => simp [pure, replay]

theorem replay_call {c : S.Call} {k : S.Response c → Prog S τ α} {v : τ} {t : List (Event S)}
    {y : α × τ} : (call c k).replay v t = some y ↔
      ∃ r u, t = ⟨c, r⟩ :: u ∧ (k r).replay v u = some y := by
  cases t with
  | nil => simp [replay]
  | cons e t =>
    obtain ⟨c', r⟩ := e
    by_cases h : c' = c
    · subst h
      simp [replay]
    · simp [replay, h]

/-- A trace of a sequence is a trace of its first part and one of the second. Induction on
the first part. -/
theorem replay_bind {x : Prog S τ α} {f : α → Prog S τ β} {v : τ} {t : List (Event S)}
    {y : β × τ} : (x >>= f).replay v t = some y ↔
      ∃ t₁ t₂ a w, t = t₁ ++ t₂ ∧ x.replay v t₁ = some (a, w) ∧
        (f a).replay w t₂ = some y := by
  show (x.bind f).replay v t = some y ↔ _
  induction x generalizing v t with
  | done a =>
    constructor
    · exact fun h => ⟨[], t, a, v, rfl, rfl, h⟩
    · rintro ⟨t₁, t₂, a', w, rfl, h₁, h₂⟩
      obtain ⟨rfl, heq⟩ := replay_pure.mp h₁
      obtain ⟨rfl, rfl⟩ := Prod.mk.inj heq
      exact h₂
  | get k ih => exact ih v
  | set w k ih => exact ih
  | call c k ih =>
    constructor
    · intro h
      obtain ⟨r, u, rfl, hu⟩ := replay_call.mp h
      obtain ⟨t₁, t₂, a, w, rfl, h₁, h₂⟩ := (ih r).mp hu
      exact ⟨⟨c, r⟩ :: t₁, t₂, a, w, rfl, replay_call.mpr ⟨r, t₁, rfl, h₁⟩, h₂⟩
    · rintro ⟨t₁, t₂, a, w, rfl, h₁, h₂⟩
      obtain ⟨r, u, rfl, hu⟩ := replay_call.mp h₁
      exact replay_call.mpr ⟨r, u ++ t₂, rfl, (ih r).mpr ⟨u, t₂, a, w, rfl, hu, h₂⟩⟩

/-- Reading the variables, and going on. -/
theorem replay_vars_bind {f : τ → Prog S τ α} {v : τ} {t : List (Event S)} :
    (vars >>= f).replay v t = (f v).replay v t := rfl

/-- An assignment, and going on. -/
theorem replay_modify_bind {g : τ → τ} {f : Unit → Prog S τ α} {v : τ} {t : List (Event S)} :
    (modify g >>= f).replay v t = (f ()).replay (g v) t := rfl

/-- An assignment that may be skipped, and going on. -/
theorem replay_when_modify_bind {c : Prop} [Decidable c] {g : τ → τ} {f : Unit → Prog S τ α}
    {v : τ} {t : List (Event S)} :
    (when c (modify g) >>= f).replay v t = (f ()).replay (if c then g v else v) t := by
  by_cases h : c
  · simp only [when, if_pos h]
    rfl
  · simp only [when, if_neg h]
    rfl

/-- A call, and going on with its response. -/
theorem replay_perform_bind {c : S.Call} {f : S.Response c → Prog S τ α} {v : τ}
    {t : List (Event S)} {y : α × τ} : (perform c >>= f).replay v t = some y ↔
      ∃ r u, t = ⟨c, r⟩ :: u ∧ (f r).replay v u = some y := replay_call

/-! ## Programs that leave the variables alone -/

/-- The program never assigns to the variables, and makes only calls that satisfy `P`. -/
def ReadOnly (P : S.Call → Prop) (x : Prog S τ α) : Prop :=
  ∀ v t a w, x.replay v t = some (a, w) → w = v ∧ ∀ e ∈ t, P e.call

namespace ReadOnly

variable {P : S.Call → Prop}

theorem pure (a : α) : (Pure.pure a : Prog S τ α).ReadOnly P := by
  intro v t a' w h
  obtain ⟨rfl, heq⟩ := replay_pure.mp h
  exact ⟨(Prod.mk.inj heq).2, fun _ he => absurd he List.not_mem_nil⟩

theorem vars_bind {f : τ → Prog S τ α} (h : ∀ v, (f v).ReadOnly P) : (vars >>= f).ReadOnly P :=
  fun v t a w hrun => h v v t a w hrun

theorem perform_bind {c : S.Call} {f : S.Response c → Prog S τ α} (hc : P c)
    (h : ∀ r, (f r).ReadOnly P) : (perform c >>= f).ReadOnly P := by
  intro v t a w hrun
  obtain ⟨r, u, rfl, hu⟩ := replay_perform_bind.mp hrun
  obtain ⟨hw, hcalls⟩ := h r v u a w hu
  refine ⟨hw, fun e he => ?_⟩
  rcases List.mem_cons.mp he with rfl | he
  · exact hc
  · exact hcalls e he

theorem bind {x : Prog S τ α} {f : α → Prog S τ β} (hx : x.ReadOnly P)
    (hf : ∀ a, (f a).ReadOnly P) : (x >>= f).ReadOnly P := by
  intro v t b w hrun
  obtain ⟨t₁, t₂, a, w₁, rfl, h₁, h₂⟩ := replay_bind.mp hrun
  obtain ⟨rfl, hcalls₁⟩ := hx v t₁ a w₁ h₁
  obtain ⟨rfl, hcalls₂⟩ := hf a _ t₂ b w h₂
  refine ⟨rfl, fun e he => ?_⟩
  rcases List.mem_append.mp he with he | he
  · exact hcalls₁ e he
  · exact hcalls₂ e he

theorem ite {c : Prop} {_ : Decidable c} {x y : Prog S τ α} (hx : c → x.ReadOnly P)
    (hy : ¬c → y.ReadOnly P) : (if c then x else y).ReadOnly P := by
  split
  · next h => exact hx h
  · next h => exact hy h

end ReadOnly

/-! ## Postconditions -/

section Ensures

variable {σ : Type*} (respond : σ → Event S → Option σ)

/-- From the variables `v` and the component's state `s`, every trace of the program that the
component takes part in ends with a result, variables and a state that satisfy `Q`. -/
def Ensures (v : τ) (s : σ) (x : Prog S τ α) (Q : α → τ → σ → Prop) : Prop :=
  ∀ t a w s', x.replay v t = some (a, w) → Run.run respond s t = some s' → Q a w s'

namespace Ensures

variable {respond} {v : τ} {s : σ} {Q : α → τ → σ → Prop}

theorem pure {a : α} (h : Q a v s) : Ensures respond v s (Pure.pure a) Q := by
  intro t a' w s' hrun hconf
  obtain ⟨rfl, heq⟩ := replay_pure.mp hrun
  obtain ⟨rfl, rfl⟩ := Prod.mk.inj heq
  obtain rfl : s = s' := Option.some.inj hconf
  exact h

theorem vars_bind {f : τ → Prog S τ α} (h : Ensures respond v s (f v) Q) :
    Ensures respond v s (vars >>= f) Q := h

theorem perform_bind {c : S.Call} {f : S.Response c → Prog S τ α}
    (h : ∀ r s', respond s ⟨c, r⟩ = some s' → Ensures respond v s' (f r) Q) :
    Ensures respond v s (perform c >>= f) Q := by
  intro t a w s' hrun hconf
  obtain ⟨r, u, rfl, hu⟩ := replay_perform_bind.mp hrun
  obtain ⟨s₁, hr, hconf⟩ := Run.run_cons_some respond hconf
  exact h r s₁ hr u a w s' hu hconf

theorem bind {x : Prog S τ β} {f : β → Prog S τ α} {R : β → τ → σ → Prop}
    (hx : Ensures respond v s x R) (hf : ∀ b w s', R b w s' → Ensures respond w s' (f b) Q) :
    Ensures respond v s (x >>= f) Q := by
  intro t a w s' hrun hconf
  obtain ⟨t₁, t₂, b, w₁, rfl, h₁, h₂⟩ := replay_bind.mp hrun
  obtain ⟨s₁, hconf₁, hconf₂⟩ := Run.run_append_some respond hconf
  exact hf b w₁ s₁ (hx t₁ b w₁ s₁ h₁ hconf₁) t₂ a w s' h₂ hconf₂

theorem ite {c : Prop} {_ : Decidable c} {x y : Prog S τ α}
    (hx : c → Ensures respond v s x Q) (hy : ¬c → Ensures respond v s y Q) :
    Ensures respond v s (if c then x else y) Q := by
  split
  · next h => exact hx h
  · next h => exact hy h

theorem and {x : Prog S τ α} {R : α → τ → σ → Prop} (hQ : Ensures respond v s x Q)
    (hR : Ensures respond v s x R) : Ensures respond v s x fun a w s' => Q a w s' ∧ R a w s' :=
  fun t a w s' hrun hconf => ⟨hQ t a w s' hrun hconf, hR t a w s' hrun hconf⟩

theorem mono {x : Prog S τ α} {R : α → τ → σ → Prop} (hx : Ensures respond v s x R)
    (h : ∀ a w s', R a w s' → Q a w s') : Ensures respond v s x Q :=
  fun t a w s' hrun hconf => h a w s' (hx t a w s' hrun hconf)

end Ensures

end Ensures

end Prog

end Interaction
