import Mathlib.Data.List.Basic

/-!
# Bounded queues

A first-in-first-out queue of at most `cap` elements, as a microcontroller's queue of fixed
size provides it: adding to a full queue and removing from an empty one fail and change
nothing. The bound is a field, so a queue over its capacity cannot be built.
-/

/-- A queue of at most `cap` elements, oldest first. -/
structure BoundedQueue (α : Type) (cap : Nat) where
  elems : List α
  bounded : elems.length ≤ cap
deriving DecidableEq

namespace BoundedQueue

variable {α : Type} {cap : Nat}

@[ext] theorem ext {q q' : BoundedQueue α cap} (h : q.elems = q'.elems) : q = q' := by
  cases q
  cases q'
  cases h
  rfl

/-- The queue after it was set up. -/
def empty : BoundedQueue α cap := ⟨[], Nat.zero_le cap⟩

/-- Add at the end. Returns whether there was room. -/
def tryAdd (q : BoundedQueue α cap) (a : α) : Bool × BoundedQueue α cap :=
  if h : q.elems.length < cap then
    (true, ⟨q.elems ++ [a], by rw [List.length_append, List.length_singleton]; exact h⟩)
  else (false, q)

/-- Remove from the front. -/
def tryRemove (q : BoundedQueue α cap) : Option α × BoundedQueue α cap :=
  match h : q.elems with
  | [] => (none, q)
  | a :: as => (some a, ⟨as, by have hb := q.bounded; rw [h, List.length_cons] at hb; omega⟩)

theorem tryAdd_of_lt {q : BoundedQueue α cap} (a : α) (h : q.elems.length < cap) :
    (q.tryAdd a).1 = true ∧ (q.tryAdd a).2.elems = q.elems ++ [a] := by
  simp [tryAdd, h]

theorem tryAdd_of_full {q : BoundedQueue α cap} (a : α) (h : ¬q.elems.length < cap) :
    q.tryAdd a = (false, q) := by
  simp [tryAdd, h]

/-- Nothing comes out of a queue that stays as it is. -/
theorem tryRemove_of_none {q q' : BoundedQueue α cap} (h : q.tryRemove = (none, q')) : q' = q := by
  unfold tryRemove at h
  split at h
  · exact (congrArg Prod.snd h).symm
  · cases h

/-- What comes out of a queue was at its front. -/
theorem elems_of_tryRemove (q : BoundedQueue α cap) :
    q.elems = q.tryRemove.1.toList ++ q.tryRemove.2.elems := by
  unfold tryRemove
  split
  · rfl
  · next h => exact h

/-- A queue that gained an element had room for it. -/
theorem lt_of_elems_eq_append {q q' : BoundedQueue α cap} {a : α}
    (h : q'.elems = q.elems ++ [a]) : q.elems.length < cap := by
  have hb := q'.bounded
  rw [h, List.length_append, List.length_singleton] at hb
  exact hb

end BoundedQueue
