import Samwise.Lib.Buffer
import Samwise.Lib.RingBuffer

/-!
# Ring buffers in memory

A ring buffer as a C program keeps it: an array of `size` cells and two 16-bit indices, with
index arithmetic in `int` and every access to the array checked. `m.Contains q` says that the
indices are in the array and that the cells from `tail` up to `head` are `q`, oldest first; each
operation is stated by what it does to `q`.
-/

open Buffer

/-- The array of a ring and its write and read index. -/
structure RingMemory (α : Type) (size : Nat) where
  cells : List α
  head : UInt16
  tail : UInt16

namespace RingMemory

variable {α : Type} {size : Nat}

/-- `(i + 1) % size`. -/
def next (size : Nat) (i : UInt16) : UInt16 := UInt16.ofNat ((i.toNat + 1) % size)

/-- `(head - tail + size) % size`, as `int`s: C's remainder truncates. -/
def count (m : RingMemory α size) : UInt16 :=
  UInt16.ofInt (((m.head.toNat : Int) - m.tail.toNat + size).tmod size)

/-- `cells[(tail + offset) % size]`. -/
def peek (m : RingMemory α size) (offset : Nat) : Option α :=
  load m.cells ((m.tail.toNat + offset) % size)

/-- `cells[tail]`. -/
def first (m : RingMemory α size) : Option α := load m.cells m.tail.toNat

/-- `tail = (tail + 1) % size`. -/
def advance (m : RingMemory α size) : RingMemory α size := { m with tail := next size m.tail }

/-- `cells[head] = a`. -/
def put (m : RingMemory α size) (a : α) : Option (RingMemory α size) :=
  (store m.cells m.head.toNat a).map fun cells => { m with cells }

/-- `head = (head + 1) % size`. -/
def advanceHead (m : RingMemory α size) : RingMemory α size :=
  { m with head := next size m.head }

/-- The elements from the tail up to the head. -/
def elements (m : RingMemory α size) : Option (List α) :=
  (List.range m.count.toNat).mapM m.peek

/-! ## The ring in the memory -/

/-- The memory is that of a ring buffer. -/
structure Holds (m : RingMemory α size) (r : RingBuffer α size) : Prop where
  fits : size ≤ 65536
  length : m.cells.length = size
  cells : ∀ i < size, m.cells[i]? = some (r.cells i)
  head : m.head.toNat = r.head
  tail : m.tail.toNat = r.tail

/-- The ring holds `q`, oldest first. -/
def Contains (m : RingMemory α size) (q : List α) : Prop := ∃ r, m.Holds r ∧ r.contents = q

variable {m : RingMemory α size} {r : RingBuffer α size} {q : List α}

theorem toNat_next (hfits : size ≤ 65536) (hpos : 0 < size) (i : UInt16) :
    (next size i).toNat = (i.toNat + 1) % size := by
  have hlt : (i.toNat + 1) % size < size := Nat.mod_lt _ hpos
  exact UInt16.toNat_ofNat_of_lt' (Nat.lt_of_lt_of_le hlt hfits)

namespace Holds

theorem count (h : m.Holds r) : m.count.toNat = r.count := by
  have htail := r.tail_lt
  have hint : (m.head.toNat : Int) - m.tail.toNat + size
      = ((r.head + size - r.tail : Nat) : Int) := by
    rw [h.head, h.tail]
    omega
  have hlt : r.count < 2 ^ 16 := Nat.lt_of_lt_of_le r.count_lt h.fits
  have hmod : ((r.count : Int) % 2 ^ 16).toNat = r.count := by omega
  rw [RingMemory.count, hint, ← Int.ofNat_tmod]
  show (UInt16.ofNat ((r.count : Int) % 2 ^ 16).toNat).toNat = r.count
  rw [hmod]
  exact UInt16.toNat_ofNat_of_lt' hlt

theorem peek (h : m.Holds r) (i : Nat) : m.peek i = some (r.peek i) := by
  rw [RingMemory.peek, h.tail]
  exact h.cells _ (Nat.mod_lt _ r.size_pos)

theorem first (h : m.Holds r) : m.first = some (r.peek 0) := by
  rw [RingMemory.first, h.tail, RingBuffer.peek, Nat.add_zero, Nat.mod_eq_of_lt r.tail_lt]
  exact h.cells _ r.tail_lt

theorem advance (h : m.Holds r) : m.advance.Holds r.drop :=
  { h with
    tail := by
      show (next size m.tail).toNat = _
      rw [toNat_next h.fits r.size_pos, h.tail]
      rfl }

/-- A write to the cell at the head. -/
theorem put (h : m.Holds r) (a : α) :
    ∃ m', m.put a = some m' ∧ m'.head = m.head ∧ m'.tail = m.tail
      ∧ m'.Holds { r with cells := (r.write a).cells } ∧ m'.cells[m.head.toNat]? = some a := by
  have hhead : m.head.toNat < m.cells.length := by
    rw [h.length, h.head]
    exact r.head_lt
  have hstore : store m.cells m.head.toNat a = some (m.cells.set m.head.toNat a) := if_pos hhead
  refine ⟨{ m with cells := m.cells.set m.head.toNat a }, ?_, rfl, rfl,
    { h with length := ?_, cells := ?_ }, ?_⟩
  · rw [RingMemory.put, hstore]
    rfl
  · rw [List.length_set]
    exact h.length
  · intro i hi
    show (m.cells.set m.head.toNat a)[i]? = some (if i = r.head then a else r.cells i)
    rw [List.getElem?_set, ← h.head]
    by_cases hat : m.head.toNat = i
    · rw [if_pos hat, if_pos hhead, if_pos hat.symm]
    · rw [if_neg hat, if_neg (Ne.symm hat)]
      exact h.cells i hi
  · exact List.getElem?_set_self hhead

theorem advanceHead {a : α} (h : m.Holds r) (hcell : m.cells[m.head.toNat]? = some a) :
    m.advanceHead.Holds (r.write a) := by
  refine { h with cells := fun i hi => ?_, head := ?_ }
  · show m.cells[i]? = some (if i = r.head then a else r.cells i)
    by_cases hat : i = r.head
    · rw [if_pos hat, hat, ← h.head, hcell]
    · rw [if_neg hat]
      exact h.cells i hi
  · show (next size m.head).toNat = _
    rw [toNat_next h.fits r.size_pos, h.head]
    rfl

end Holds

/-! ## The queue in the memory -/

namespace Contains

/-- An array with both indices at its front. -/
theorem empty (hfits : size ≤ 65536) (hpos : 0 < size) {cells : List α}
    (hlength : cells.length = size) : (⟨cells, 0, 0⟩ : RingMemory α size).Contains [] := by
  have hne : cells ≠ [] := fun hnil => by
    rw [hnil] at hlength
    exact absurd hlength.symm (Nat.ne_of_lt hpos).symm
  refine ⟨⟨fun i => cells.getD i (cells.head hne), 0, 0, hpos, hpos⟩, ⟨hfits, hlength, ?_, rfl,
    rfl⟩, ?_⟩
  · intro i hi
    have hget : cells[i]? = some cells[i] := List.getElem?_eq_getElem (hlength ▸ hi)
    show cells[i]? = some (cells.getD i _)
    rw [List.getD_eq_getElem?_getD, hget]
    rfl
  · rw [RingBuffer.contents, RingBuffer.count, Nat.zero_add, Nat.sub_zero, Nat.mod_self]
    rfl

theorem count (h : m.Contains q) : m.count.toNat = q.length := by
  obtain ⟨r, hm, rfl⟩ := h
  rw [hm.count, r.length_contents]

theorem length_lt (h : m.Contains q) : q.length < size := by
  obtain ⟨r, -, rfl⟩ := h
  rw [r.length_contents]
  exact r.count_lt

theorem fits (h : m.Contains q) : size ≤ 65536 := by
  obtain ⟨r, hm, -⟩ := h
  exact hm.fits

theorem length_cells (h : m.Contains q) : m.cells.length = size := by
  obtain ⟨r, hm, -⟩ := h
  exact hm.length

/-- The indices stay in the array. -/
theorem indices_lt (h : m.Contains q) : m.head.toNat < size ∧ m.tail.toNat < size := by
  obtain ⟨r, hm, -⟩ := h
  rw [hm.head, hm.tail]
  exact ⟨r.head_lt, r.tail_lt⟩

theorem peek (h : m.Contains q) {i : Nat} (hi : i < q.length) : m.peek i = some q[i] := by
  obtain ⟨r, hm, rfl⟩ := h
  rw [hm.peek]
  simp [RingBuffer.contents]

theorem elements (h : m.Contains q) : m.elements = some q := by
  obtain ⟨r, hm, rfl⟩ := h
  have hpeek : m.peek = fun i => some (r.peek i) := funext hm.peek
  rw [RingMemory.elements, hm.count, hpeek]
  exact List.mapM_pure

/-- Equal indices mean an empty ring. -/
theorem tail_eq_head_iff (h : m.Contains q) : m.tail = m.head ↔ q = [] := by
  obtain ⟨r, hm, rfl⟩ := h
  have hhead := r.head_lt
  have htail := r.tail_lt
  have hcases := r.count_cases
  rw [← List.length_eq_zero_iff, r.length_contents, ← UInt16.toNat_inj, hm.head, hm.tail]
  omega

theorem first {a : α} (h : m.Contains (a :: q)) : m.first = some a := by
  obtain ⟨r, hm, hq⟩ := h
  have hcount : r.count ≠ 0 := by
    rw [← r.length_contents, hq]
    exact Nat.succ_ne_zero _
  rw [r.contents_eq_cons hcount] at hq
  rw [hm.first, (List.cons.inj hq).1]

theorem advance {a : α} (h : m.Contains (a :: q)) : m.advance.Contains q := by
  obtain ⟨r, hm, hq⟩ := h
  have hcount : r.count ≠ 0 := by
    rw [← r.length_contents, hq]
    exact Nat.succ_ne_zero _
  rw [r.contents_eq_cons hcount] at hq
  exact ⟨r.drop, hm.advance, (List.cons.inj hq).2⟩

/-- The cell at the head is not part of the ring. -/
theorem put (h : m.Contains q) (a : α) :
    ∃ m', m.put a = some m' ∧ m'.head = m.head ∧ m'.tail = m.tail ∧ m'.Contains q
      ∧ m'.cells[m.head.toNat]? = some a := by
  obtain ⟨r, hm, rfl⟩ := h
  obtain ⟨m', hput, hhead, htail, hm', hcell⟩ := hm.put a
  refine ⟨m', hput, hhead, htail, ⟨_, hm', ?_⟩, hcell⟩
  have hwrite := congrArg (List.take r.count) (r.map_peek_write a)
  rw [← List.map_take, List.take_range, Nat.min_eq_left (Nat.le_succ _),
    ← r.length_contents, List.take_left, r.length_contents] at hwrite
  exact hwrite

/-- Moving the head over a cell appends what is in it. -/
theorem advanceHead {a : α} (h : m.Contains q) (hroom : q.length + 1 < size)
    (hcell : m.cells[m.head.toNat]? = some a) : m.advanceHead.Contains (q ++ [a]) := by
  obtain ⟨r, hm, rfl⟩ := h
  rw [r.length_contents] at hroom
  refine ⟨r.write a, hm.advanceHead hcell, ?_⟩
  rw [← r.contents_push_of_lt a hroom, r.push_of_lt a hroom]

/-- Moving it over the last free cell, and the tail with it, drops the oldest element. -/
theorem advanceHead_full {a : α} (h : m.Contains q) (hfull : q.length + 1 = size)
    (hcell : m.cells[m.head.toNat]? = some a) :
    m.advanceHead.advance.Contains (q ++ [a]).tail := by
  obtain ⟨r, hm, rfl⟩ := h
  rw [r.length_contents] at hfull
  refine ⟨(r.write a).drop, (hm.advanceHead hcell).advance, ?_⟩
  rw [← r.contents_push_of_full a hfull, r.push_of_full a hfull]

/-- The head has lapped the tail exactly if the ring was full. -/
theorem head_eq_tail_iff (h : m.Contains q) :
    m.advanceHead.head = m.tail ↔ q.length + 1 = size := by
  obtain ⟨r, hm, rfl⟩ := h
  have hhead := r.head_lt
  have htail := r.tail_lt
  have hcases := r.count_cases
  have hnext := RingBuffer.next_cases r.head_lt
  rw [r.length_contents, ← UInt16.toNat_inj, hm.tail]
  show (next size m.head).toNat = r.tail ↔ _
  rw [toNat_next hm.fits r.size_pos, hm.head]
  omega

end Contains

end RingMemory
