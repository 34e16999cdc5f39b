import Mathlib.Data.List.Basic

/-!
# Byte memories

A byte-addressed memory seen from a fixed base pointer, with the three operations C code
has on it: `memcpy` into it (`write`), `memset` or an erase of a range (`fill`), and
`memcpy` out of it (`read`). Offsets are unbounded: which of them belong to an object is
the business of the code that uses the memory, not of the memory. Fixed-size arrays and C
strings come last.
-/

namespace Memory

/-- A memory: the byte at each offset. -/
abbrev Mem := Nat → UInt8

/-- `memcpy(m + off, bs, |bs|)`. -/
def write (m : Mem) (off : Nat) (bs : List UInt8) : Mem :=
  fun i => if off ≤ i then bs[i - off]?.getD (m i) else m i

/-- `memset(m + off, b, n)`. -/
def fill (m : Mem) (off n : Nat) (b : UInt8) : Mem :=
  fun i => if off ≤ i ∧ i < off + n then b else m i

/-- The `n` bytes from offset `off` on. -/
def read (m : Mem) (off n : Nat) : List UInt8 :=
  (List.range n).map fun i => m (off + i)

@[simp] theorem length_read (m : Mem) (off n : Nat) : (read m off n).length = n := by
  simp [read]

theorem getElem?_read (m : Mem) (off n i : Nat) :
    (read m off n)[i]? = if i < n then some (m (off + i)) else none := by
  by_cases hi : i < n
  · simp [read, hi]
  · simp [read, hi]

/-- Ranges of two memories with the same bytes. -/
theorem read_eq_read {m m' : Mem} {off off' n : Nat} (h : ∀ i < n, m (off + i) = m' (off' + i)) :
    read m off n = read m' off' n :=
  List.map_congr_left fun i hi => h i (List.mem_range.mp hi)

@[simp] theorem read_zero (m : Mem) (off : Nat) : read m off 0 = [] := rfl

/-- A range in two pieces. -/
theorem read_add (m : Mem) (off a b : Nat) : read m off (a + b) = read m off a ++ read m (off + a) b := by
  rw [read, List.range_add, List.map_append, List.map_map, read, read]
  congr 1
  exact List.map_congr_left fun i _ => by rw [Function.comp_apply, Nat.add_assoc]

/-- Reads see only the range they cover. -/
theorem read_congr {m m' : Mem} {off n : Nat} (h : ∀ i, off ≤ i → i < off + n → m i = m' i) :
    read m off n = read m' off n := by
  apply List.map_congr_left
  intro i hi
  exact h (off + i) (by omega) (by have := List.mem_range.mp hi; omega)

theorem take_read_min (m : Mem) (off k n : Nat) :
    (read m off n).take k = read m off (min k n) := by
  rw [read, ← List.map_take, List.take_range, read]

/-- What is behind the front of a read. -/
theorem drop_read (m : Mem) (off k n : Nat) :
    (read m off n).drop k = read m (off + k) (n - k) := by
  apply List.ext_getElem?
  intro i
  rw [List.getElem?_drop, getElem?_read, getElem?_read, Nat.add_assoc]
  by_cases hi : i < n - k
  · rw [if_pos hi, if_pos (by omega)]
  · rw [if_neg hi, if_neg (by omega)]

/-! ## Writing -/

theorem write_of_lt {m : Mem} {off i : Nat} {bs : List UInt8} (h : i < off) :
    write m off bs i = m i := by
  simp [write, Nat.not_le.mpr h]

theorem write_of_ge {m : Mem} {off i : Nat} {bs : List UInt8} (h : off + bs.length ≤ i) :
    write m off bs i = m i := by
  have hnone : bs[i - off]? = none := List.getElem?_eq_none (by omega)
  simp [write, hnone]

theorem write_add {m : Mem} {off i : Nat} {bs : List UInt8} (h : i < bs.length) :
    write m off bs (off + i) = bs[i] := by
  simp [write, h]

/-- Writing the first byte, and then the others. -/
theorem write_cons (m : Mem) (off : Nat) (b : UInt8) (bs : List UInt8) :
    write m off (b :: bs) = write (write m off [b]) (off + 1) bs := by
  funext i
  by_cases hi : off + 1 ≤ i
  · have hindex : i - off = i - (off + 1) + 1 := by omega
    have hfirst : write m off [b] i = m i := write_of_ge (by simpa using hi)
    rw [write, write, if_pos (by omega), if_pos hi, hindex, List.getElem?_cons_succ, hfirst]
  · rw [write_of_lt (by omega : i < off + 1)]
    by_cases hoff : i = off
    · simp [write, hoff]
    · rw [write_of_lt (by omega), write_of_lt (by omega)]

/-- Writing the same bytes into memories that agree at an offset keeps them so. -/
theorem write_congr {m m' : Mem} {off i : Nat} {bs : List UInt8} (h : m i = m' i) :
    write m off bs i = write m' off bs i := by
  simp only [write, h]

/-- Reading the front of what was written. -/
theorem read_write (m : Mem) (off : Nat) {n : Nat} {bs : List UInt8} (h : n ≤ bs.length) :
    read (write m off bs) off n = bs.take n := by
  apply List.ext_getElem?
  intro i
  rw [getElem?_read, List.getElem?_take]
  by_cases hi : i < n
  · have hib : i < bs.length := by omega
    simp [hi, write_add hib, hib]
  · simp [hi]

/-- Copying a range of another memory to the front. -/
theorem write_zero_read (m m' : Mem) (off : Nat) {n i : Nat} (h : i < n) :
    write m 0 (read m' off n) i = m' (off + i) := by
  have hlength : i < (read m' off n).length := by rwa [length_read]
  have hat : write m 0 (read m' off n) (0 + i) = _ := write_add hlength
  rw [Nat.zero_add] at hat
  rw [hat]
  simp [read]

/-- A write behind a range extends it. -/
theorem read_zero_write (m : Mem) (off : Nat) (bs : List UInt8) :
    read (write m off bs) 0 (off + bs.length) = read m 0 off ++ bs := by
  have hfront : read (write m off bs) 0 off = read m 0 off :=
    read_congr fun i _ hi => write_of_lt (by omega)
  have hback : read (write m off bs) (0 + off) bs.length = bs := by
    rw [Nat.zero_add, read_write m off (Nat.le_refl _), List.take_length]
  rw [read_add, hfront, hback]

/-! ## Filling -/

theorem fill_of_mem {m : Mem} {off n i : Nat} {b : UInt8} (hlo : off ≤ i) (hhi : i < off + n) :
    fill m off n b i = b := by
  simp [fill, hlo, hhi]

theorem fill_of_notMem {m : Mem} {off n i : Nat} {b : UInt8} (h : i < off ∨ off + n ≤ i) :
    fill m off n b i = m i := by
  have : ¬(off ≤ i ∧ i < off + n) := by omega
  simp [fill, this]

theorem fill_congr {m m' : Mem} {off n i : Nat} {b : UInt8} (h : m i = m' i) :
    fill m off n b i = fill m' off n b i := by
  simp only [fill, h]

/-- Reading inside a filled range gives the fill byte. -/
theorem read_fill (m : Mem) (off : Nat) {k n : Nat} (b : UInt8) (h : k ≤ n) :
    read (fill m off n b) off k = List.replicate k b := by
  apply List.ext_getElem?
  intro i
  rw [getElem?_read]
  by_cases hi : i < k
  · simp [hi, fill_of_mem (m := m) (b := b) (Nat.le_add_right off i) (by omega : off + i < off + n)]
  · simp [hi]

/-- Equal bytes, written. -/
theorem write_replicate (m : Mem) (off n : Nat) (b : UInt8) :
    write m off (List.replicate n b) = fill m off n b := by
  funext i
  by_cases hin : off ≤ i ∧ i < off + n
  · have hlt : i - off < n := by omega
    simp [write, fill, hin, hlt]
  · rw [fill_of_notMem (by omega)]
    by_cases hle : off ≤ i
    · exact write_of_ge (by rw [List.length_replicate]; omega)
    · exact write_of_lt (by omega)

/-! ## Fixed-size arrays -/

/-- `memcpy(dst, bs, |bs|)` into a C array of `n` bytes; the bytes behind the copy keep
their value. -/
def copyInto {n : Nat} (dst : Vector UInt8 n) (bs : List UInt8) : Vector UInt8 n :=
  Vector.ofFn fun i => bs[i.val]?.getD dst[i]

@[simp] theorem copyInto_nil {n : Nat} (dst : Vector UInt8 n) : copyInto dst [] = dst := by
  ext i hi
  simp [copyInto]

theorem toList_copyInto {n : Nat} (dst : Vector UInt8 n) {bs : List UInt8} (h : bs.length ≤ n) :
    (copyInto dst bs).toList = bs ++ dst.toList.drop bs.length := by
  apply List.ext_getElem
  · simp
    omega
  · intro i hi _
    have hin : i < n := by simpa using hi
    by_cases hib : i < bs.length
    · simp [copyInto, List.getElem_append_left, hib]
    · have hnone : bs[i]? = none := List.getElem?_eq_none (by omega)
      have hidx : bs.length + (i - bs.length) = i := by omega
      simp [copyInto, hnone, List.getElem_append_right (Nat.not_lt.mp hib), hidx]

/-! ## Strings -/

/-- The C string at the front of a memory: the bytes before the first NUL. -/
def cString (mem : List UInt8) : List UInt8 := mem.takeWhile (· ≠ 0)

@[simp] theorem cString_nil : cString [] = [] := rfl

@[simp] theorem cString_zero_cons (rest : List UInt8) : cString (0 :: rest) = [] := rfl

theorem cString_cons_of_ne {b : UInt8} (h : b ≠ 0) (rest : List UInt8) :
    cString (b :: rest) = b :: cString rest :=
  List.takeWhile_cons_of_pos (by simpa using h)

/-- What lies behind the first NUL is not part of the string. -/
theorem cString_append_of_mem {mem : List UInt8} (h : 0 ∈ mem) (rest : List UInt8) :
    cString (mem ++ rest) = cString mem := by
  induction mem with
  | nil => simp at h
  | cons b mem ih =>
    by_cases hb : b = 0
    · simp [hb]
    · have hmem : 0 ∈ mem := (List.mem_cons.mp h).resolve_left (Ne.symm hb)
      rw [List.cons_append, cString_cons_of_ne hb, cString_cons_of_ne hb, ih hmem]

theorem cString_append_of_notMem {mem : List UInt8} (h : 0 ∉ mem) (rest : List UInt8) :
    cString (mem ++ rest) = mem ++ cString rest := by
  induction mem with
  | nil => rfl
  | cons b mem ih =>
    have hb : b ≠ 0 := fun h0 => h (h0 ▸ List.mem_cons_self)
    rw [List.cons_append, cString_cons_of_ne hb, ih (fun h0 => h (List.mem_cons_of_mem _ h0)),
      List.cons_append]

theorem cString_of_notMem {mem : List UInt8} (h : 0 ∉ mem) : cString mem = mem := by
  have happend := cString_append_of_notMem h []
  simpa using happend

/-- No string holds its terminator. -/
theorem zero_notMem_cString (mem : List UInt8) : 0 ∉ cString mem := by
  induction mem with
  | nil => simp
  | cons b mem ih =>
    by_cases hb : b = 0
    · simp [hb]
    · rw [cString_cons_of_ne hb]
      exact fun h => (List.mem_cons.mp h).elim (Ne.symm hb) ih

theorem length_cString_lt {mem : List UInt8} (h : 0 ∈ mem) : (cString mem).length < mem.length := by
  induction mem with
  | nil => simp at h
  | cons b mem ih =>
    by_cases hb : b = 0
    · simp [hb]
    · have hmem : 0 ∈ mem := (List.mem_cons.mp h).resolve_left (Ne.symm hb)
      rw [cString_cons_of_ne hb, List.length_cons, List.length_cons]
      exact Nat.succ_lt_succ (ih hmem)

end Memory
