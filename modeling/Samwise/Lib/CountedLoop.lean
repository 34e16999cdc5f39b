import Mathlib.Data.List.Basic

/-!
# Counted loops

`for (i = start; i < start + n; ++i)` with a body that may fail: the loop ends at the failure. The
rule carries an invariant that knows the counter.
-/

namespace CountedLoop

variable {σ : Type*}

/-- `n` rounds of the body, counted from `start`. -/
def loop (body : σ → Nat → Option σ) (start n : Nat) (s : σ) : Option σ :=
  (List.range' start n).foldlM body s

/-- **The loop rule.** A body that never fails under the invariant, and keeps it. Induction on the
number of rounds, the first one first. -/
theorem loop_invariant {body : σ → Nat → Option σ} {start n : Nat} (I : Nat → σ → Prop)
    (hbody : ∀ i s, start ≤ i → i < start + n → I i s → ∃ s', body s i = some s' ∧ I (i + 1) s')
    {s : σ} (hs : I start s) : ∃ s', loop body start n s = some s' ∧ I (start + n) s' := by
  induction n generalizing start s with
  | zero => exact ⟨s, rfl, hs⟩
  | succ n ih =>
    obtain ⟨s₁, hfirst, hs₁⟩ := hbody start s (Nat.le_refl start) (by omega) hs
    obtain ⟨s', hrest, hs'⟩ :=
      ih (fun i t hi hlt ht => hbody i t (by omega) (by omega) ht) hs₁
    refine ⟨s', ?_, ?_⟩
    · rw [loop, List.range'_succ, List.foldlM_cons, hfirst]
      exact hrest
    · have hcount : start + (n + 1) = start + 1 + n := by omega
      rw [hcount]
      exact hs'

end CountedLoop
