import Samwise.Lib.Memory

/-!
# Bounds-checked buffers

A buffer of known size, accessed the way C code accesses one: by index, by a `memcpy` into or
out of it, or through a write position that moves on. Every access is checked against the size:
`none` is an access outside of the buffer. What is proved here is the sequential case, where
code fills a buffer from the front: `overlay w old` is the buffer `old` after its front has
been overwritten with `w`.
-/

namespace Buffer

variable {α : Type}

/-- `buf[i]`. -/
def load (buf : List α) (i : Nat) : Option α := buf[i]?

/-- `buf[i] = a`. -/
def store (buf : List α) (i : Nat) (a : α) : Option (List α) :=
  if i < buf.length then some (buf.set i a) else none

/-- The `n` elements from `buf + i` on, as a `memcpy` reads them. -/
def slice (buf : List α) (i n : Nat) : Option (List α) :=
  if i + n ≤ buf.length then some ((buf.drop i).take n) else none

/-- `memcpy(buf + i, l, |l|)`. -/
def storeAll (buf : List α) (i : Nat) (l : List α) : Option (List α) :=
  if i + l.length ≤ buf.length then some (buf.take i ++ (l ++ buf.drop (i + l.length))) else none

/-- `memcpy(dst, l, |l|)` into an array of `n` bytes. -/
def storeArray {n : Nat} (dst : Vector UInt8 n) (l : List UInt8) : Option (Vector UInt8 n) :=
  if l.length ≤ n then some (Memory.copyInto dst l) else none

/-! ## Reading -/

theorem load_eq_some {buf : List α} {i : Nat} (h : i < buf.length) : load buf i = some buf[i] :=
  List.getElem?_eq_getElem h

theorem load_append (front : List α) (a : α) (rest : List α) :
    load (front ++ a :: rest) front.length = some a := by
  rw [load, List.getElem?_append_right (Nat.le_refl _), Nat.sub_self]
  rfl

theorem slice_eq_some {buf : List α} {i n : Nat} (h : i + n ≤ buf.length) :
    slice buf i n = some ((buf.drop i).take n) := if_pos h

/-- A whole array. -/
theorem slice_all (buf : List α) : slice buf 0 buf.length = some buf := by
  rw [slice_eq_some (by omega), List.drop_zero, List.take_length]

theorem storeArray_eq_some {n : Nat} (dst : Vector UInt8 n) {l : List UInt8} (h : l.length ≤ n) :
    storeArray dst l = some (Memory.copyInto dst l) := if_pos h

/-! ## Filling from the front -/

/-- `old` with its front overwritten. -/
def overlay (w old : List α) : List α := w ++ old.drop w.length

@[simp] theorem overlay_nil (old : List α) : overlay [] old = old := rfl

theorem length_overlay {w old : List α} (h : w.length ≤ old.length) :
    (overlay w old).length = old.length := by
  rw [overlay, List.length_append, List.length_drop]
  omega

theorem take_overlay (w old : List α) : (overlay w old).take w.length = w := List.take_left

/-- Behind what was written, the buffer is as it was. -/
theorem drop_overlay {w old : List α} {n : Nat} (h : w.length ≤ n) :
    (overlay w old).drop n = old.drop n := by
  rw [overlay, List.drop_append, List.drop_eq_nil_of_le h, List.nil_append, List.drop_drop]
  congr 1
  omega

theorem drop_eq_cons {old : List α} {n : Nat} (h : n < old.length) :
    old.drop n = old[n] :: old.drop (n + 1) := List.drop_eq_getElem_cons h

theorem store_overlay {w old : List α} (a : α) (h : w.length < old.length) :
    store (overlay w old) w.length a = some (overlay (w ++ [a]) old) := by
  have hlength : (overlay w old).length = old.length := length_overlay (Nat.le_of_lt h)
  rw [store, if_pos (by omega), overlay, drop_eq_cons h, List.set_append_right _ _ (Nat.le_refl _),
    Nat.sub_self, List.set_cons_zero, overlay, List.append_assoc, List.length_append,
    List.length_singleton]
  rfl

theorem storeAll_overlay {w old l : List α} (h : w.length + l.length ≤ old.length) :
    storeAll (overlay w old) w.length l = some (overlay (w ++ l) old) := by
  have hlength : (overlay w old).length = old.length := length_overlay (by omega)
  rw [storeAll, if_pos (by omega), take_overlay, drop_overlay (by omega), overlay,
    List.length_append, List.append_assoc]

/-- A store inside the front leaves what is around it. -/
theorem store_append (front : List α) (a b : α) (rest : List α) :
    store (front ++ b :: rest) front.length a = some (front ++ a :: rest) := by
  have hlength : front.length < (front ++ b :: rest).length := by
    rw [List.length_append, List.length_cons]
    omega
  rw [store, if_pos hlength, List.set_append_right _ _ (Nat.le_refl _), Nat.sub_self,
    List.set_cons_zero]

/-! ## A write position -/

/-- A buffer and the offset of the next write to it. -/
structure Cursor (α : Type) where
  buf : List α
  offset : Nat

namespace Cursor

/-- `buf[offset++] = a`. -/
def put (c : Cursor α) (a : α) : Option (Cursor α) :=
  (store c.buf c.offset a).map fun buf => ⟨buf, c.offset + 1⟩

/-- `memcpy(buf + offset, l, |l|); offset += |l|`. -/
def putAll (c : Cursor α) (l : List α) : Option (Cursor α) :=
  (storeAll c.buf c.offset l).map fun buf => ⟨buf, c.offset + l.length⟩

/-- The cursor that has written `w` to the front of `old`. -/
def after (w old : List α) : Cursor α := ⟨overlay w old, w.length⟩

theorem start_eq_after (old : List α) : (⟨old, 0⟩ : Cursor α) = after [] old := rfl

theorem put_after {w old : List α} (a : α) (h : w.length < old.length) :
    (after w old).put a = some (after (w ++ [a]) old) := by
  rw [put, after, store_overlay a h, Option.map_some, after, List.length_append,
    List.length_singleton]

theorem putAll_after {w old l : List α} (h : w.length + l.length ≤ old.length) :
    (after w old).putAll l = some (after (w ++ l) old) := by
  rw [putAll, after, storeAll_overlay h, Option.map_some, after, List.length_append]

end Cursor

end Buffer
