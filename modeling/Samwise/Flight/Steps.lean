import Mathlib.Order.Defs.Unbundled
import Samwise.Flight.Flight

/-!
# Samwise — what a program leaves related

`Flight.Steps R x`: wherever `x` starts, it ends in a world that `R` relates to the start. For a
preorder `R` the constructs of flight programs preserve it, so a program satisfies it when its
primitive actions do: "leaves the deadlines alone", "takes samples only forward" and the like
are each one `R`.
-/

namespace Samwise

/-- The program, from whatever world, ends in one that `R` relates to it. -/
def Flight.Steps {α : Type} (R : World → World → Prop) (x : Flight α) : Prop :=
  ∀ env w, R w (x.run env w).2

namespace Flight.Steps

variable {α β : Type} {R : World → World → Prop}

theorem mono {S : World → World → Prop} {x : Flight α} (hRS : ∀ w w', R w w' → S w w')
    (hx : x.Steps R) : x.Steps S :=
  fun env w => hRS _ _ (hx env w)

theorem ite {c : Prop} [Decidable c] {x y : Flight α} (hx : c → x.Steps R)
    (hy : ¬c → y.Steps R) : (if c then x else y).Steps R := by
  split
  · next h => exact hx h
  · next h => exact hy h

variable [IsPreorder World R]

theorem pure (a : α) : (Pure.pure a : Flight α).Steps R := fun _ w => refl_of R w

theorem bind {x : Flight α} {f : α → Flight β} (hx : x.Steps R) (hf : ∀ a, (f a).Steps R) :
    (x >>= f).Steps R := by
  intro env w
  rw [Flight.run_bind]
  exact trans_of R (hx env w) (hf _ env _)

theorem when {c : Prop} [Decidable c] {x : Flight Unit} (hx : c → x.Steps R) :
    (Flight.when c x).Steps R :=
  ite hx fun _ => pure _

/-- A loop over a list, round by round. -/
theorem forM {γ : Type} {l : List γ} {f : γ → Flight PUnit} (hf : ∀ a ∈ l, (f a).Steps R) :
    (l.forM f).Steps R := by
  induction l with
  | nil => exact pure _
  | cons a l ih =>
    show Steps R (f a >>= fun _ => l.forM f)
    exact bind (hf a List.mem_cons_self) fun _ => ih fun b hb => hf b (List.mem_cons_of_mem _ hb)

end Flight.Steps

/-! ## How many samples a program takes -/

/-- The program takes at most `c` samples. -/
def Flight.Takes {α : Type} (c : Nat) (x : Flight α) : Prop :=
  ∀ env w, (x.run env w).2.samples ≤ w.samples + c

namespace Flight.Takes

variable {α β : Type} {c d : Nat}

theorem mono {x : Flight α} (hcd : c ≤ d) (hx : x.Takes c) : x.Takes d :=
  fun env w => Nat.le_trans (hx env w) (Nat.add_le_add_left hcd _)

/-- A program that takes none. -/
theorem none {x : Flight α} (h : ∀ env w, (x.run env w).2.samples = w.samples) : x.Takes 0 :=
  fun env w => Nat.le_of_eq (h env w)

theorem pure (a : α) : (Pure.pure a : Flight α).Takes 0 := none fun _ _ => rfl

theorem emit (e : Effect) : (Flight.emit e).Takes 0 := none fun _ _ => rfl

theorem slate : Flight.slate.Takes 0 := none fun _ _ => rfl

theorem modifySlate (f : Slate → Slate) : (Flight.modifySlate f).Takes 0 := none fun _ _ => rfl

theorem update (u : Update) : (Flight.update u).Takes 0 := none fun _ _ => rfl

theorem sample (f : Env → Nat → α) : (Flight.sample f).Takes 1 := fun _ _ => Nat.le_refl _

theorem bind {x : Flight α} {f : α → Flight β} (hx : x.Takes c) (hf : ∀ a, (f a).Takes d) :
    (x >>= f).Takes (c + d) := by
  intro env w
  rw [Flight.run_bind]
  have hfirst := hx env w
  have hrest := hf (x.run env w).1 env (x.run env w).2
  omega

theorem ite {p : Prop} {_ : Decidable p} {x y : Flight α} (hx : x.Takes c) (hy : y.Takes d) :
    (if p then x else y).Takes (max c d) := by
  split
  · exact hx.mono (Nat.le_max_left _ _)
  · exact hy.mono (Nat.le_max_right _ _)

theorem when {p : Prop} {_ : Decidable p} {x : Flight Unit} (hx : x.Takes c) :
    (Flight.when p x).Takes c :=
  (ite hx (pure _)).mono (by simp)

/-- A loop over a list takes what its rounds take. -/
theorem forM {γ : Type} {l : List γ} {f : γ → Flight PUnit} (hf : ∀ a ∈ l, (f a).Takes c) :
    (l.forM f).Takes (l.length * c) := by
  induction l with
  | nil => exact (pure _).mono (Nat.zero_le _)
  | cons a l ih =>
    have hloop : (f a >>= fun _ => l.forM f).Takes (c + l.length * c) :=
      bind (hf a List.mem_cons_self) fun _ => ih fun b hb => hf b (List.mem_cons_of_mem _ hb)
    refine mono ?_ hloop
    rw [List.length_cons, Nat.succ_mul, Nat.add_comm]

end Flight.Takes

end Samwise
