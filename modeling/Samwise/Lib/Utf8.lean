import Mathlib.Data.List.Basic

/-!
# UTF-8 strings as bytes

The bytes of a string literal, and a decoder that drops what is not UTF-8, as Python's
`decode("utf-8", "ignore")` does. A decoder that drops the one byte it cannot go on from drops
the same bytes as one that drops the longest broken sequence: what is left of such a sequence
are continuation bytes, and no character starts with one.
-/

namespace Utf8

/-- The bytes of a string. -/
def encode (text : String) : List UInt8 := text.toList.flatMap String.utf8EncodeChar

/-- The characters at the front of a byte string, bytes that start none left out. -/
def decodeIgnore : List UInt8 → List Char
  | [] => []
  | b :: bs =>
      match (b :: bs).toByteArray.utf8DecodeChar? 0 with
      | some c => c :: decodeIgnore (bs.drop (c.utf8Size - 1))
      | none => decodeIgnore bs
termination_by bs => bs.length
decreasing_by
  · simp only [List.length_drop, List.length_cons]
    omega
  · exact Nat.lt_succ_self _

@[simp] theorem decodeIgnore_nil : decodeIgnore [] = [] := by
  rw [decodeIgnore]

/-- A character is decoded from its own bytes, whatever follows. -/
theorem decodeIgnore_char (c : Char) (rest : List UInt8) :
    decodeIgnore (String.utf8EncodeChar c ++ rest) = c :: decodeIgnore rest := by
  have hlength : (String.utf8EncodeChar c).length = c.utf8Size := String.length_utf8EncodeChar c
  have hpos : 0 < c.utf8Size := c.utf8Size_pos
  cases hbytes : String.utf8EncodeChar c with
  | nil =>
      rw [hbytes] at hlength
      simp only [List.length_nil] at hlength
      omega
  | cons b bs =>
      have hdecode : (b :: bs ++ rest).toByteArray.utf8DecodeChar? 0 = some c := by
        rw [← hbytes, List.toByteArray_append]
        exact ByteArray.utf8DecodeChar?_utf8EncodeChar_append
      have hrest : (bs ++ rest).drop (c.utf8Size - 1) = rest := by
        apply List.drop_left'
        rw [hbytes] at hlength
        simp only [List.length_cons] at hlength
        omega
      rw [List.cons_append] at hdecode ⊢
      rw [decodeIgnore, hdecode]
      simp only [hrest]

theorem decodeIgnore_encode (text : String) : decodeIgnore (encode text) = text.toList := by
  unfold encode
  induction text.toList with
  | nil => exact decodeIgnore_nil
  | cons c cs ih => rw [List.flatMap_cons, decodeIgnore_char, ih]

theorem encode_append (s t : String) : encode (s ++ t) = encode s ++ encode t := by
  unfold encode
  rw [String.toList_append, List.flatMap_append]

theorem zero_notMem_utf8EncodeChar {c : Char} (h : c ≠ Char.ofNat 0) :
    0 ∉ String.utf8EncodeChar c := by
  have hval : c.toNat ≠ 0 := fun h0 => h (Char.ext (UInt32.toNat_inj.mp h0))
  have heq : c.val.toNat = c.toNat := rfl
  intro hmem
  simp only [String.utf8EncodeChar, heq] at hmem
  -- one case for each length of the encoding; every byte of a longer one has its high bit set
  split at hmem
  · simp [← UInt8.toNat_inj] at hmem
    omega
  · split at hmem
    · simp [← UInt8.toNat_inj] at hmem
      omega
    · split at hmem
      · simp [← UInt8.toNat_inj] at hmem
        omega
      · simp [← UInt8.toNat_inj] at hmem
        omega

theorem zero_notMem_encode {text : String} (h : Char.ofNat 0 ∉ text.toList) : 0 ∉ encode text := by
  intro hmem
  obtain ⟨c, hc, hbyte⟩ := List.mem_flatMap.mp hmem
  exact zero_notMem_utf8EncodeChar (fun heq => h (heq ▸ hc)) hbyte

end Utf8
