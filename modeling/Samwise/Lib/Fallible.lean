/-!
# Fallible stateful programs

Programs that assign to a state and may fail, and then leave the state as it was at the
failure: `ExceptT ε (StateM σ)`. `Yields x s Q` is a postcondition of one execution, from the
state `s`, over the result or the error and the state behind it. There is a rule for each
construct, to be applied from the outside in.
-/

namespace Fallible

variable {ε σ α β : Type}

/-- Executed from `s`, the program ends with a result or an error and a state that satisfy
`Q`. -/
def Yields (x : ExceptT ε (StateM σ) α) (s : σ) (Q : Except ε α → σ → Prop) : Prop :=
  Q (x.run.run s).1 (x.run.run s).2

namespace Yields

variable {s : σ} {Q : Except ε α → σ → Prop}

theorem pure {a : α} (h : Q (.ok a) s) : Yields (Pure.pure a : ExceptT ε (StateM σ) α) s Q := h

/-- A program in sequence with another: what the first yields, the second goes on from, and an
error stays. -/
theorem bind {x : ExceptT ε (StateM σ) β} {f : β → ExceptT ε (StateM σ) α}
    {R : Except ε β → σ → Prop} (hx : Yields x s R)
    (hok : ∀ b s', R (.ok b) s' → Yields (f b) s' Q)
    (herror : ∀ e s', R (.error e) s' → Q (.error e) s') : Yields (x >>= f) s Q := by
  show Q (ExceptT.bindCont f (x.run.run s).1 (x.run.run s).2).1
    (ExceptT.bindCont f (x.run.run s).1 (x.run.run s).2).2
  unfold Yields at hx
  generalize x.run.run s = y at hx
  obtain ⟨r, s'⟩ := y
  cases r with
  | ok b => exact hok b s' hx
  | error e => exact herror e s' hx

/-- Reading the state, and going on. -/
theorem get_bind {f : σ → ExceptT ε (StateM σ) α} (h : Yields (f s) s Q) :
    Yields (get >>= f) s Q := h

/-- An assignment, and going on. -/
theorem modify_bind {g : σ → σ} {f : Unit → ExceptT ε (StateM σ) α}
    (h : Yields (f ()) (g s) Q) : Yields (modify g >>= f) s Q := h

theorem ite {c : Prop} {_ : Decidable c} {x y : ExceptT ε (StateM σ) α}
    (hx : c → Yields x s Q) (hy : ¬c → Yields y s Q) : Yields (if c then x else y) s Q := by
  split
  · next h => exact hx h
  · next h => exact hy h

theorem mono {x : ExceptT ε (StateM σ) α} {R : Except ε α → σ → Prop} (hx : Yields x s R)
    (h : ∀ r s', R r s' → Q r s') : Yields x s Q := h _ _ hx

theorem modify {g : σ → σ} {Q : Except ε Unit → σ → Prop} (h : Q (.ok ()) (g s)) :
    Yields (modify g : ExceptT ε (StateM σ) Unit) s Q := h

end Yields

end Fallible
