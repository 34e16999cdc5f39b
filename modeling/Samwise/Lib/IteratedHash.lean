import Mathlib.Data.List.Basic

/-!
# Iterated hash functions

A hash function that takes in its message block by block: `absorb` is the state behind the whole
blocks of a message, and `rest` what is left behind them. A message can be taken in piece by piece,
down to single elements, by a machine that keeps the state and the rest (`absorb_append`,
`absorb_concat`); what a hash function puts behind its message to fill the last block is one more
piece.
-/

namespace IteratedHash

variable {σ α : Type*} (size : Nat) (compress : σ → List α → σ)

/-- The state behind the whole blocks of a message, from `s` on. -/
def absorb (s : σ) (xs : List α) : σ :=
  (List.range (xs.length / size)).foldl (fun s i => compress s ((xs.drop (size * i)).take size)) s

/-- What is left of a message behind its whole blocks. -/
def rest (xs : List α) : List α := xs.drop (size * (xs.length / size))

/-- The whole blocks of a message. -/
def whole (xs : List α) : List α := xs.take (size * (xs.length / size))

@[simp] theorem absorb_nil (s : σ) : absorb size compress s [] = s := by
  rw [absorb, List.length_nil, Nat.zero_div, List.range_zero, List.foldl_nil]

@[simp] theorem rest_nil : rest size ([] : List α) = [] := List.drop_nil

theorem whole_append_rest (xs : List α) : whole size xs ++ rest size xs = xs :=
  List.take_append_drop _ xs

theorem length_rest (xs : List α) : (rest size xs).length = xs.length % size := by
  have hdiv := Nat.div_add_mod xs.length size
  rw [rest, List.length_drop]
  omega

theorem length_whole (xs : List α) : (whole size xs).length = size * (xs.length / size) := by
  rw [whole, List.length_take]
  exact Nat.min_eq_left (Nat.mul_div_le xs.length size)

variable {size}

/-- Less than a block. -/
theorem absorb_of_lt (s : σ) {xs : List α} (h : xs.length < size) :
    absorb size compress s xs = s := by
  rw [absorb, Nat.div_eq_of_lt h, List.range_zero, List.foldl_nil]

theorem rest_of_lt {xs : List α} (h : xs.length < size) : rest size xs = xs := by
  rw [rest, Nat.div_eq_of_lt h, Nat.mul_zero, List.drop_zero]

/-- A block and what follows it. -/
theorem absorb_block_append (hsize : 0 < size) (s : σ) {block : List α}
    (h : block.length = size) (xs : List α) :
    absorb size compress s (block ++ xs) = absorb size compress (compress s block) xs := by
  have hblocks : (block ++ xs).length / size = xs.length / size + 1 := by
    rw [List.length_append, h, Nat.add_comm, Nat.add_div_right _ hsize]
  have hfirst : ((block ++ xs).drop (size * 0)).take size = block := by
    rw [Nat.mul_zero, List.drop_zero]
    exact List.take_left' h
  have hlater : ∀ i, (block ++ xs).drop (size * (i + 1)) = xs.drop (size * i) := by
    intro i
    rw [Nat.mul_succ, Nat.add_comm, ← List.drop_drop, List.drop_left' h]
  rw [absorb, absorb, hblocks, List.range_succ_eq_map, List.foldl_cons, List.foldl_map, hfirst]
  simp only [hlater]

/-- A block. -/
theorem absorb_block (hsize : 0 < size) (s : σ) {block : List α} (h : block.length = size) :
    absorb size compress s block = compress s block := by
  have happend := absorb_block_append compress hsize s h []
  rwa [List.append_nil, absorb_nil] at happend

/-- Some blocks and what follows them. Induction on their number. -/
theorem absorb_blocks_append (hsize : 0 < size) (s : σ) {k : Nat} {blocks : List α}
    (h : blocks.length = size * k) (xs : List α) :
    absorb size compress s (blocks ++ xs)
      = absorb size compress (absorb size compress s blocks) xs := by
  induction k generalizing s blocks with
  | zero =>
    obtain rfl : blocks = [] := List.length_eq_zero_iff.mp h
    rw [List.nil_append, absorb_nil]
  | succ k ih =>
    -- the first block, and the others
    have hle : size ≤ blocks.length := by
      rw [h]
      exact Nat.le_mul_of_pos_right size k.succ_pos
    have hfirst : (blocks.take size).length = size := List.length_take_of_le hle
    have hothers : (blocks.drop size).length = size * k := by
      rw [List.length_drop, h, Nat.mul_succ, Nat.add_sub_cancel]
    have hsplit : blocks = blocks.take size ++ blocks.drop size :=
      (List.take_append_drop size blocks).symm
    rw [hsplit, List.append_assoc, absorb_block_append compress hsize s hfirst,
      absorb_block_append compress hsize s hfirst, ih _ hothers]

/-- What is left over has no share in the state. -/
theorem absorb_whole (hsize : 0 < size) (s : σ) (xs : List α) :
    absorb size compress s (whole size xs) = absorb size compress s xs := by
  have hshort : (rest size xs).length < size := by
    rw [length_rest]
    exact Nat.mod_lt _ hsize
  have hsplit := absorb_blocks_append compress hsize s (length_whole size xs) (rest size xs)
  rw [whole_append_rest, absorb_of_lt compress _ hshort] at hsplit
  exact hsplit.symm

/-- **A message in two pieces.** The state goes on with what was left of the first. -/
theorem absorb_append (hsize : 0 < size) (s : σ) (xs ys : List α) :
    absorb size compress s (xs ++ ys)
      = absorb size compress (absorb size compress s xs) (rest size xs ++ ys) := by
  have hsplit := absorb_blocks_append compress hsize s (length_whole size xs) (rest size xs ++ ys)
  rw [← List.append_assoc, whole_append_rest, absorb_whole compress hsize] at hsplit
  exact hsplit

/-- What is left of a message in two pieces is left of the rest of the first and the second. -/
theorem rest_append (hsize : 0 < size) (xs ys : List α) :
    rest size (xs ++ ys) = rest size (rest size xs ++ ys) := by
  have hlength : (xs ++ ys).length = size * (xs.length / size) + (rest size xs ++ ys).length := by
    have hdiv := Nat.div_add_mod xs.length size
    simp only [List.length_append, length_rest]
    omega
  have hdrop : (xs ++ ys).drop (size * (xs.length / size)) = rest size xs ++ ys := by
    rw [List.drop_append_of_le_length (Nat.mul_div_le xs.length size), rest]
  rw [rest, hlength, Nat.mul_add_div hsize, Nat.mul_add, ← List.drop_drop, hdrop]
  rfl

/-- One more element, which does not fill the block. -/
theorem absorb_concat_of_lt (hsize : 0 < size) (s : σ) {xs : List α} (a : α)
    (h : (rest size xs).length + 1 < size) :
    absorb size compress s (xs ++ [a]) = absorb size compress s xs
      ∧ rest size (xs ++ [a]) = rest size xs ++ [a] := by
  have hshort : (rest size xs ++ [a]).length < size := by simpa using h
  rw [absorb_append compress hsize, rest_append hsize, absorb_of_lt compress _ hshort,
    rest_of_lt hshort]
  exact ⟨rfl, rfl⟩

/-- One more element, which fills it. -/
theorem absorb_concat_of_eq (hsize : 0 < size) (s : σ) {xs : List α} (a : α)
    (h : (rest size xs).length + 1 = size) :
    absorb size compress s (xs ++ [a])
        = compress (absorb size compress s xs) (rest size xs ++ [a])
      ∧ rest size (xs ++ [a]) = [] := by
  have hfull : (rest size xs ++ [a]).length = size := by simpa using h
  rw [absorb_append compress hsize, rest_append hsize, absorb_block compress hsize _ hfull]
  refine ⟨rfl, List.length_eq_zero_iff.mp ?_⟩
  rw [length_rest, hfull, Nat.mod_self]

end IteratedHash
