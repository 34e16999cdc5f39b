import Mathlib.Data.List.DropRight
import Mathlib.Tactic.Common

/-!
# Ring buffers

A buffer of `size` cells between a write index `head` and a read index `tail`, both taken
modulo `size`. One cell stays free, so equal indices mean empty, and pushing onto a full
buffer discards the oldest element. What the buffer holds is the list `contents`; the lemmas
say what each operation does to that list.
-/

/-- Cells with a write and a read index in range. -/
structure RingBuffer (α : Type) (size : Nat) where
  cells : Nat → α
  head : Nat
  tail : Nat
  head_lt : head < size
  tail_lt : tail < size

namespace RingBuffer

variable {α : Type} {size : Nat}

theorem size_pos (r : RingBuffer α size) : 0 < size := Nat.zero_lt_of_lt r.head_lt

/-- The buffer before anything was pushed. -/
def empty (a : α) (h : 0 < size) : RingBuffer α size := ⟨fun _ => a, 0, 0, h, h⟩

/-- How many elements the buffer holds. -/
def count (r : RingBuffer α size) : Nat := (r.head + size - r.tail) % size

/-- The element `offset` behind the oldest. -/
def peek (r : RingBuffer α size) (offset : Nat) : α := r.cells ((r.tail + offset) % size)

/-- The elements, oldest first. -/
def contents (r : RingBuffer α size) : List α := (List.range r.count).map r.peek

/-- Let go of the oldest element. -/
def drop (r : RingBuffer α size) : RingBuffer α size :=
  { r with tail := (r.tail + 1) % size, tail_lt := Nat.mod_lt _ r.size_pos }

/-- Write at the head and move it on. -/
def write (r : RingBuffer α size) (a : α) : RingBuffer α size :=
  { r with
    cells := fun i => if i = r.head then a else r.cells i
    head := (r.head + 1) % size
    head_lt := Nat.mod_lt _ r.size_pos }

/-- Write at the head; where it has lapped the tail, the oldest element goes. -/
def push (r : RingBuffer α size) (a : α) : RingBuffer α size :=
  if (r.write a).head = r.tail then (r.write a).drop else r.write a

theorem count_lt (r : RingBuffer α size) : r.count < size := Nat.mod_lt _ r.size_pos

@[simp] theorem length_contents (r : RingBuffer α size) : r.contents.length = r.count := by
  rw [contents, List.length_map, List.length_range]

theorem count_cases (r : RingBuffer α size) :
    (r.tail ≤ r.head ∧ r.count = r.head - r.tail) ∨
      (r.head < r.tail ∧ r.count = r.head + size - r.tail) := by
  have hhead := r.head_lt
  have htail := r.tail_lt
  unfold count
  by_cases h : r.tail ≤ r.head
  · have hover : r.head + size - r.tail = (r.head - r.tail) + size := by omega
    rw [hover, Nat.add_mod_right]
    exact Or.inl ⟨h, Nat.mod_eq_of_lt (by omega)⟩
  · exact Or.inr ⟨by omega, Nat.mod_eq_of_lt (by omega)⟩

theorem next_cases {i : Nat} (h : i < size) :
    (i + 1 < size ∧ (i + 1) % size = i + 1) ∨ (i + 1 = size ∧ (i + 1) % size = 0) := by
  by_cases hlast : i + 1 = size
  · exact Or.inr ⟨hlast, by rw [hlast, Nat.mod_self]⟩
  · exact Or.inl ⟨by omega, Nat.mod_eq_of_lt (by omega)⟩

theorem peek_succ (r : RingBuffer α size) (i : Nat) : r.peek (i + 1) = r.drop.peek i := by
  show r.cells ((r.tail + (i + 1)) % size) = r.cells (((r.tail + 1) % size + i) % size)
  rw [Nat.mod_add_mod, Nat.add_assoc, Nat.add_comm 1 i]

/-- The elements of a stretch from the tail on: the first, and those behind it. -/
theorem map_peek_succ (r : RingBuffer α size) (n : Nat) :
    (List.range (n + 1)).map r.peek = r.peek 0 :: (List.range n).map r.drop.peek := by
  rw [List.range_succ_eq_map, List.map_cons, List.map_map]
  congr 1
  exact List.map_congr_left fun i _ => r.peek_succ i

theorem count_drop (r : RingBuffer α size) (h : r.count ≠ 0) : r.count = r.drop.count + 1 := by
  have hhead := r.head_lt
  have htail := r.tail_lt
  have hcases := r.count_cases
  have hcases' := r.drop.count_cases
  have hnext := next_cases r.tail_lt
  change (r.tail + 1) % size ≤ r.head ∧ _ = r.head - (r.tail + 1) % size ∨
    r.head < (r.tail + 1) % size ∧ _ = r.head + size - (r.tail + 1) % size at hcases'
  omega

theorem contents_eq_cons (r : RingBuffer α size) (h : r.count ≠ 0) :
    r.contents = r.peek 0 :: r.drop.contents := by
  rw [contents, r.count_drop h, map_peek_succ, contents]

/-- The old elements and the new one, on the buffer's cells after a write. -/
theorem map_peek_write (r : RingBuffer α size) (a : α) :
    (List.range (r.count + 1)).map (r.write a).peek = r.contents ++ [a] := by
  have hhead := r.head_lt
  have htail := r.tail_lt
  have hcases := r.count_cases
  have hold : ∀ i < r.count, (r.write a).peek i = r.peek i := by
    intro i hi
    show (if (r.tail + i) % size = r.head then a else r.peek i) = r.peek i
    rw [if_neg]
    -- the head is `count` cells behind the tail, and `i` is less than that
    by_cases hlt : r.tail + i < size
    · rw [Nat.mod_eq_of_lt hlt]
      omega
    · rw [Nat.mod_eq_sub_mod (by omega), Nat.mod_eq_of_lt (by omega)]
      omega
  have hnew : (r.write a).peek r.count = a := by
    show (if (r.tail + r.count) % size = r.head then a else r.peek r.count) = a
    rw [if_pos]
    by_cases hlt : r.tail + r.count < size
    · rw [Nat.mod_eq_of_lt hlt]
      omega
    · rw [Nat.mod_eq_sub_mod (by omega), Nat.mod_eq_of_lt (by omega)]
      omega
  rw [List.range_succ, List.map_append, List.map_singleton, hnew, contents]
  congr 1
  exact List.map_congr_left fun i hi => hold i (List.mem_range.mp hi)

theorem push_of_lt (r : RingBuffer α size) (a : α) (h : r.count + 1 < size) :
    r.push a = r.write a := by
  have hhead := r.head_lt
  have htail := r.tail_lt
  have hcases := r.count_cases
  have hnext := next_cases r.head_lt
  have hroom : (r.head + 1) % size ≠ r.tail := by omega
  exact if_neg hroom

theorem push_of_full (r : RingBuffer α size) (a : α) (h : r.count + 1 = size) :
    r.push a = (r.write a).drop := by
  have hhead := r.head_lt
  have htail := r.tail_lt
  have hcases := r.count_cases
  have hnext := next_cases r.head_lt
  have hlap : (r.head + 1) % size = r.tail := by omega
  exact if_pos hlap

/-- **Pushing appends** where there is room. -/
theorem contents_push_of_lt (r : RingBuffer α size) (a : α) (h : r.count + 1 < size) :
    (r.push a).contents = r.contents ++ [a] := by
  have hhead := r.head_lt
  have htail := r.tail_lt
  have hcases := r.count_cases
  have hnext := next_cases r.head_lt
  have hcount : (r.write a).count = r.count + 1 := by
    have hcases' := (r.write a).count_cases
    change r.tail ≤ (r.head + 1) % size ∧ _ = (r.head + 1) % size - r.tail ∨
      (r.head + 1) % size < r.tail ∧ _ = (r.head + 1) % size + size - r.tail at hcases'
    omega
  rw [r.push_of_lt a h, contents, hcount, map_peek_write]

/-- **Pushing onto a full buffer** lets go of the oldest element. -/
theorem contents_push_of_full (r : RingBuffer α size) (a : α) (h : r.count + 1 = size) :
    (r.push a).contents = (r.contents ++ [a]).tail := by
  have hhead := r.head_lt
  have htail := r.tail_lt
  have hcases := r.count_cases
  have hnext := next_cases r.head_lt
  have hcount : (r.write a).drop.count = r.count := by
    have hcases' := (r.write a).drop.count_cases
    have hnext' := next_cases r.tail_lt
    change (r.tail + 1) % size ≤ (r.head + 1) % size ∧
        _ = (r.head + 1) % size - (r.tail + 1) % size ∨
      (r.head + 1) % size < (r.tail + 1) % size ∧
        _ = (r.head + 1) % size + size - (r.tail + 1) % size at hcases'
    omega
  rw [r.push_of_full a h, contents, hcount, ← map_peek_write, map_peek_succ, List.tail_cons]

/-! ## Many elements -/

/-- Push one after another. -/
def pushAll (r : RingBuffer α size) (as : List α) : RingBuffer α size := as.foldl push r

/-- **The buffer holds the newest elements**, as many as fit. Induction on the pushed ones. -/
theorem contents_pushAll (r : RingBuffer α size) (as : List α) :
    (r.pushAll as).contents = (r.contents ++ as).rtake (size - 1) := by
  have hcount := r.count_lt
  induction as generalizing r with
  | nil =>
    have hfits : (r.contents ++ []).length - (size - 1) = 0 := by
      rw [List.append_nil, length_contents]
      omega
    rw [List.rtake, hfits, List.drop_zero, List.append_nil]
    rfl
  | cons a as ih =>
    show ((r.push a).pushAll as).contents = _
    rw [ih (r.push a) (r.push a).count_lt]
    by_cases hroom : r.count + 1 < size
    · rw [r.contents_push_of_lt a hroom, List.append_assoc, List.singleton_append]
    · -- the oldest element is among those that do not fit
      have hlong : (r.contents ++ a :: as).length - (size - 1)
          = (r.contents ++ a :: as).tail.length - (size - 1) + 1 := by
        simp only [List.length_append, List.length_cons, List.length_tail, length_contents]
        omega
      have htail : (r.contents ++ [a]).tail ++ as = (r.contents ++ a :: as).tail := by
        cases r.contents with
        | nil => rfl
        | cons b bs => simp
      rw [r.contents_push_of_full a (by omega), htail, List.rtake, List.rtake, hlong,
        ← List.drop_tail]

/-- Take `n` elements out, oldest first. -/
def popAll (r : RingBuffer α size) : Nat → List α × RingBuffer α size
  | 0 => ([], r)
  | n + 1 =>
    let rest := r.drop.popAll n
    (r.peek 0 :: rest.1, rest.2)

/-- They are the first ones, and the others stay. Induction on their number. -/
theorem popAll_spec (r : RingBuffer α size) {n : Nat} (h : n ≤ r.count) :
    (r.popAll n).1 = r.contents.take n ∧ (r.popAll n).2.contents = r.contents.drop n := by
  induction n generalizing r with
  | zero => exact ⟨rfl, rfl⟩
  | succ n ih =>
    have hcount := r.count_drop (by omega)
    obtain ⟨htaken, hleft⟩ := ih r.drop (by omega)
    rw [r.contents_eq_cons (by omega), List.take_succ_cons, List.drop_succ_cons]
    exact ⟨congrArg (List.cons _) htaken, hleft⟩

end RingBuffer
