import Mathlib.Data.List.Nodup

/-!
# Collecting without repetition

A list that grows at its end by what is not in it yet, the way a loop fills an array after a
search. The rules say what is in it, that nothing is in it twice, and how long it gets.
-/

namespace Collect

variable {α : Type*} [DecidableEq α]

/-- Add at the end what is not there yet. -/
def add (all : List α) (a : α) : List α := if a ∈ all then all else all ++ [a]

/-- Add one after the other. -/
def addAll (all as : List α) : List α := as.foldl add all

theorem mem_add {all : List α} {a b : α} : b ∈ add all a ↔ b ∈ all ∨ b = a := by
  unfold add
  split
  · next ha =>
    constructor
    · exact Or.inl
    · rintro (hb | rfl)
      · exact hb
      · exact ha
  · rw [List.mem_append, List.mem_singleton]

theorem nodup_add {all : List α} (h : all.Nodup) (a : α) : (add all a).Nodup := by
  unfold add
  split
  · exact h
  · next ha =>
    rw [← List.concat_eq_append]
    exact h.concat ha

theorem length_add_le (all : List α) (a : α) : (add all a).length ≤ all.length + 1 := by
  unfold add
  split
  · exact Nat.le_succ _
  · exact Nat.le_of_eq List.length_append

/-- Nothing is lost. Induction on what is added. -/
theorem mem_addAll {all as : List α} {b : α} : b ∈ addAll all as ↔ b ∈ all ∨ b ∈ as := by
  induction as generalizing all with
  | nil => exact (or_iff_left List.not_mem_nil).symm
  | cons a as ih =>
    show b ∈ addAll (add all a) as ↔ _
    rw [ih, mem_add, List.mem_cons, or_assoc]

/-- Nothing is there twice. -/
theorem nodup_addAll {all as : List α} (h : all.Nodup) : (addAll all as).Nodup := by
  induction as generalizing all with
  | nil => exact h
  | cons a as ih => exact ih (nodup_add h a)

theorem length_addAll_le (all as : List α) : (addAll all as).length ≤ all.length + as.length := by
  induction as generalizing all with
  | nil => exact Nat.le_refl _
  | cons a as ih =>
    have hone := length_add_le all a
    have hrest := ih (add all a)
    show (addAll (add all a) as).length ≤ _
    rw [List.length_cons]
    omega

/-- Adding in two goes. -/
theorem addAll_append (all as bs : List α) : addAll all (as ++ bs) = addAll (addAll all as) bs :=
  List.foldl_append

omit [DecidableEq α] in
/-- Lists of at most `n` elements each, one behind the other. -/
theorem length_flatMap_le {β : Type*} {f : β → List α} {n : Nat} {bs : List β}
    (h : ∀ b ∈ bs, (f b).length ≤ n) : (bs.flatMap f).length ≤ bs.length * n := by
  induction bs with
  | nil => exact Nat.zero_le _
  | cons b bs ih =>
    have hb := h b List.mem_cons_self
    have hrest := ih fun b' hb' => h b' (List.mem_cons_of_mem _ hb')
    rw [List.flatMap_cons, List.length_append, List.length_cons, Nat.succ_mul]
    omega

end Collect
