import Mathlib.Data.List.Forall2

/-!
# Services

A service takes calls and replies to each; a call may fail, and then there is neither a reply nor a
next state. A `Spec` says of the states of an abstract service which calls are permitted, which
replies are right and what the state is behind a call. A service that `Implements` it serves every
permitted list of calls: none of them fails and each reply is right.
-/

namespace Service

variable {σ κ ρ ν : Type*}

/-- The replies to a list of calls, and the state behind them. -/
def serve (step : σ → κ → Option (ρ × σ)) (s : σ) : List κ → Option (List ρ × σ)
  | [] => some ([], s)
  | call :: calls => do
    let (reply, s) ← step s call
    let (replies, s) ← serve step s calls
    return (reply :: replies, s)

/-- An abstract service. -/
structure Spec (ν κ ρ : Type*) where
  Permits : ν → κ → Prop
  Answers : ν → κ → ρ → Prop
  after : ν → κ → ν

/-- Each of the calls is permitted when it is made. -/
def Spec.PermitsAll (S : Spec ν κ ρ) (v : ν) : List κ → Prop
  | [] => True
  | call :: calls => S.Permits v call ∧ S.PermitsAll (S.after v call) calls

/-- Each of the replies is right when it is given. -/
def Spec.AnswersAll (S : Spec ν κ ρ) (v : ν) : List κ → List ρ → Prop
  | [], [] => True
  | call :: calls, reply :: replies =>
    S.Answers v call reply ∧ S.AnswersAll (S.after v call) calls replies
  | _, _ => False

/-- A permission that does not depend on the state. -/
theorem Spec.PermitsAll.of_forall {S : Spec ν κ ρ} {calls : List κ}
    (h : ∀ call ∈ calls, ∀ v, S.Permits v call) (v : ν) : S.PermitsAll v calls := by
  induction calls generalizing v with
  | nil => trivial
  | cons call calls ih =>
    exact ⟨h call List.mem_cons_self v, ih (fun c hc => h c (List.mem_cons_of_mem _ hc)) _⟩

/-- The concrete service replies to a permitted call with a right reply, and the states stay
related. -/
def Implements (S : Spec ν κ ρ) (step : σ → κ → Option (ρ × σ)) (R : ν → σ → Prop) : Prop :=
  ∀ v s call, R v s → S.Permits v call →
    ∃ reply s', step s call = some (reply, s') ∧ S.Answers v call reply ∧ R (S.after v call) s'

/-- **The service rule.** Induction on the calls, the first one first. -/
theorem Implements.serve {S : Spec ν κ ρ} {step : σ → κ → Option (ρ × σ)} {R : ν → σ → Prop}
    (h : Implements S step R) {v : ν} {s : σ} (hs : R v s) {calls : List κ}
    (hcalls : S.PermitsAll v calls) :
    ∃ replies s', serve step s calls = some (replies, s') ∧ S.AnswersAll v calls replies ∧
      R (calls.foldl S.after v) s' := by
  induction calls generalizing v s with
  | nil => exact ⟨[], s, rfl, trivial, hs⟩
  | cons call calls ih =>
    obtain ⟨reply, s₁, hcall, hreply, hs₁⟩ := h v s call hs hcalls.1
    obtain ⟨replies, s', hrest, hreplies, hs'⟩ := ih hs₁ hcalls.2
    refine ⟨reply :: replies, s', ?_, ⟨hreply, hreplies⟩, hs'⟩
    simp [Service.serve, hcall, hrest]

/-- Where at most one reply is right, up to `obs`, two lists of right replies are the same. -/
theorem Spec.AnswersAll.filterMap_eq {ω : Type*} {S : Spec ν κ ρ} {obs : ρ → Option ω}
    (hunique : ∀ v call r r', S.Answers v call r → S.Answers v call r' → obs r = obs r')
    {v : ν} {calls : List κ} {rs rs' : List ρ} (h : S.AnswersAll v calls rs)
    (h' : S.AnswersAll v calls rs') : rs.filterMap obs = rs'.filterMap obs := by
  induction calls generalizing v rs rs' with
  | nil =>
    cases rs with
    | cons r rs => exact h.elim
    | nil =>
      cases rs' with
      | cons r' rs' => exact h'.elim
      | nil => rfl
  | cons call calls ih =>
    cases rs with
    | nil => exact h.elim
    | cons r rs =>
      cases rs' with
      | nil => exact h'.elim
      | cons r' rs' =>
        rw [List.filterMap_cons, List.filterMap_cons, hunique v call r r' h.1 h'.1,
          ih h.2 h'.2]

end Service
