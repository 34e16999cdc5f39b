import Mathlib.Algebra.Order.Floor.Div
import Samwise.Payload.LoraDownlink

/-!
# Samwise — what the 2.4 GHz downlink puts together again

For which files the receiver ends with the bytes of the file. The last packet has the remainder
of the size by 253, so a size that is a multiple has an empty one; the number of packets comes
from a `float`, which has no room for all sizes above `2 ^ 24`; the announced size is read by
`atoi`, and nothing ends the string that it reads.
-/

namespace Samwise.Lora

open BinaryFloat Run

/-! ## The number of packets -/

/-- The size is counted right: rounded to a `float`, it is more than half a step of the quotient
behind the full packets. -/
def SizeCounts (size : Nat) : Prop :=
  (packetSize : ℚ) * ((size / packetSize : Nat) + ulp 24 ((size / packetSize : Nat) : ℚ) / 2)
    < roundTo 24 (size : ℚ)

theorem representable_of_lt {n : Nat} (h : n < 16777216) : Representable 24 (n : ℚ) :=
  representable_natCast (Nat.lt_of_lt_of_le h (by decide))

/-- Half a step, as a fraction. -/
theorem half_ulp (n : Nat) : ulp 24 (n : ℚ) / 2 = 2 ^ Nat.log 2 n / 16777216 := by
  have hexp : (Nat.log 2 n : ℤ) + 1 - (24 : ℕ) = Nat.log 2 n - (23 : ℕ) := by omega
  rw [ulp, Int.log_natCast, hexp, zpow_sub₀ two_ne_zero, zpow_natCast, zpow_natCast, div_div]
  norm_num

/-- Half a step of a number with `j` bits. -/
theorem half_ulp_le {n j : Nat} (h : n < 2 ^ (j + 1)) :
    ulp 24 (n : ℚ) / 2 ≤ 2 ^ j / 16777216 := by
  rw [half_ulp]
  have hlog : Nat.log 2 n ≤ j := Nat.lt_succ_iff.mp (Nat.log_lt_of_lt_pow' (Nat.succ_ne_zero j) h)
  have hpow : (2 : ℚ) ^ Nat.log 2 n ≤ 2 ^ j := pow_le_pow_right₀ one_le_two hlog
  linarith

/-- A size as a `float` is a whole number. -/
theorem roundTo_size (size : Nat) : ∃ m : ℤ, roundTo 24 (size : ℚ) = m := by
  by_cases h : size < 16777216
  · exact ⟨size, by rw [(representable_of_lt h).roundTo_eq]; rfl⟩
  · have hlog : 24 ≤ Nat.log 2 size :=
      Nat.le_log_of_pow_le Nat.one_lt_two (Nat.le_trans (by decide) (Nat.not_lt.mp h))
    have hexp : (Nat.log 2 size : ℤ) + 1 - (24 : ℕ) = ((Nat.log 2 size - 23 : ℕ) : ℤ) := by omega
    have hulp : ulp 24 (size : ℚ) = (2 ^ (Nat.log 2 size - 23) : ℕ) := by
      rw [ulp, Int.log_natCast, hexp, zpow_natCast]
      push_cast
      rfl
    refine ⟨roundEven ((size : ℚ) / ulp 24 (size : ℚ)) * (2 ^ (Nat.log 2 size - 23) : ℕ), ?_⟩
    rw [Int.cast_mul, Int.cast_natCast, ← hulp]
    rfl

theorem roundTo_size_pos {size : Nat} (h : 0 < size) : 0 < roundTo 24 (size : ℚ) :=
  roundTo_pos (by decide) (Nat.cast_pos.mpr h)

/-- The quotient never goes above the next whole number. -/
theorem roundTo_quotient_le {size : Nat} (hpos : 0 < size) (hsize : size ≤ 2147483647) :
    roundTo 24 (roundTo 24 (size : ℚ) / packetSize) ≤ ((size / packetSize + 1 : Nat) : ℚ) := by
  have hlt : size < packetSize * (size / packetSize + 1) :=
    Nat.lt_mul_div_succ size (by decide)
  have hk : size / packetSize + 1 < 16777216 :=
    Nat.lt_of_le_of_lt (Nat.succ_le_succ (Nat.div_le_div_right hsize)) (by decide)
  generalize hdef : size / packetSize + 1 = k at hlt hk ⊢
  have hlt : size < 253 * k := hlt
  have hkpos : 0 < k := by omega
  have herror := (abs_le.mp (abs_roundTo_sub_le 24 (size : ℚ))).2
  have hltq : (size : ℚ) + 1 ≤ 253 * k := by exact_mod_cast hlt
  apply roundTo_le (div_pos (roundTo_size_pos hpos) (by norm_num [packetSize]))
    (Nat.cast_pos.mpr hkpos) (representable_of_lt hk)
  show roundTo 24 (size : ℚ) / 253 < k + ulp 24 (k : ℚ) / 2
  rw [div_lt_iff₀ (by norm_num), half_ulp k]
  -- a step of the size is at most 256 times one of the quotient
  have hlow : Nat.log 2 k ≤ 23 := Nat.lt_succ_iff.mp (Nat.log_lt_of_lt_pow hkpos.ne' hk)
  have hhigh : k < 2 ^ (Nat.log 2 k + 1) := Nat.lt_pow_succ_log_self Nat.one_lt_two k
  obtain htop | hlow := hlow.eq_or_lt
  · have hstep := half_ulp_le (n := size) (j := 30) (by omega)
    rw [htop]
    linarith
  · have hstep : ulp 24 (size : ℚ) / 2 ≤ 2 ^ (Nat.log 2 k + 8) / 16777216 := by
      apply half_ulp_le
      have hpow : 2 ^ (Nat.log 2 k + 8 + 1) = 256 * 2 ^ (Nat.log 2 k + 1) := by ring
      rw [hpow]
      omega
    have hpow : (2 : ℚ) ^ Nat.log 2 k ≤ 2 ^ 22 :=
      pow_le_pow_right₀ one_le_two (Nat.lt_succ_iff.mp hlow)
    rw [pow_add] at hstep
    linarith

/-- The middle behind the full packets is no whole number of bytes. -/
theorem roundTo_size_ne {size k : Nat} (hkpos : 0 < k) (hk : k < 16777216) :
    roundTo 24 (size : ℚ) ≠ packetSize * (k + ulp 24 (k : ℚ) / 2) := by
  intro heq
  obtain ⟨m, hm⟩ := roundTo_size size
  have hlow : Nat.log 2 k < 24 := Nat.log_lt_of_lt_pow hkpos.ne' hk
  obtain ⟨t, ht⟩ : ∃ t, 24 = Nat.log 2 k + (t + 1) :=
    ⟨24 - Nat.log 2 k - 1, by omega⟩
  have hpow : (16777216 : ℚ) = 2 ^ Nat.log 2 k * (2 * 2 ^ t) := by
    rw [← pow_succ', ← pow_add, ← ht]
    norm_num
  have hne : (2 : ℚ) ^ Nat.log 2 k ≠ 0 := pow_ne_zero _ two_ne_zero
  have hne' : (2 : ℚ) ^ t ≠ 0 := pow_ne_zero _ two_ne_zero
  -- twice the one side is even, twice the other is odd
  have hcast : (2 : ℚ) * (m * 2 ^ t) = 253 * (2 * (k * 2 ^ t) + 1) := by
    rw [hm, half_ulp, hpow, show (packetSize : ℚ) = 253 from rfl] at heq
    rw [heq]
    field_simp
  have hint : 2 * (m * 2 ^ t) = 253 * (2 * ((k : ℤ) * 2 ^ t) + 1) := by exact_mod_cast hcast
  generalize m * 2 ^ t = a, (k : ℤ) * 2 ^ t = b at hint
  omega

/-- It is above the full packets exactly if the size counts. -/
theorem lt_roundTo_quotient_iff {size : Nat} (hpos : 0 < size) (hsize : size ≤ 2147483647) :
    ((size / packetSize : Nat) : ℚ) < roundTo 24 (roundTo 24 (size : ℚ) / packetSize) ↔
      SizeCounts size := by
  have hpacket : (0 : ℚ) < packetSize := by norm_num [packetSize]
  have hk : size / packetSize < 16777216 :=
    Nat.lt_of_le_of_lt (Nat.div_le_div_right hsize) (by decide)
  have hround := roundTo_size_pos hpos
  rw [SizeCounts]
  generalize size / packetSize = k at hk ⊢
  obtain rfl | hkpos := Nat.eq_zero_or_pos k
  · have hcounts : (packetSize : ℚ) * ((0 : Nat) + ulp 24 ((0 : Nat) : ℚ) / 2)
        < roundTo 24 (size : ℚ) := by
      obtain ⟨m, hm⟩ := roundTo_size size
      rw [hm] at hround ⊢
      have hm : (1 : ℚ) ≤ m := by exact_mod_cast Int.cast_pos.mp hround
      rw [half_ulp, Nat.log_zero_right, show (packetSize : ℚ) = 253 from rfl]
      norm_num
      linarith
    rw [iff_true_right hcounts, Nat.cast_zero]
    exact roundTo_pos (by decide) (div_pos hround hpacket)
  · constructor
    · intro hlt
      by_contra hle
      have hbelow := lt_of_le_of_ne (not_lt.mp hle) (roundTo_size_ne hkpos hk)
      have hquot := roundTo_le (div_pos hround hpacket) (Nat.cast_pos.mpr hkpos)
        (representable_of_lt hk) ((div_lt_iff₀' hpacket).mpr hbelow)
      exact absurd hlt (not_lt.mpr hquot)
    · intro hcounts
      exact lt_roundTo (by decide) (Nat.cast_pos.mpr hkpos) (representable_of_lt hk)
        ((lt_div_iff₀' hpacket).mpr hcounts)

/-- **The number of packets** is right exactly if the size counts. -/
theorem numpackets_eq_iff {size : Nat} (hpos : 0 < size) (hsize : size ≤ 2147483647) :
    numpackets size = size / packetSize + 1 ↔ SizeCounts size := by
  rw [numpackets, Nat.ceil_eq_iff (Nat.succ_ne_zero _), Nat.succ_sub_one,
    lt_roundTo_quotient_iff hpos hsize]
  exact and_iff_left (roundTo_quotient_le hpos hsize)

/-- Below `2 ^ 24` only the multiples are counted wrong. -/
theorem SizeCounts.of_lt {size : Nat} (h : size < 16777216) (hmod : size % packetSize ≠ 0) :
    SizeCounts size := by
  have hdiv := Nat.div_add_mod size packetSize
  have hk : size / packetSize < 2 ^ (16 + 1) :=
    Nat.lt_of_le_of_lt (Nat.div_le_div_right h.le) (by decide)
  have hstep := half_ulp_le hk
  rw [SizeCounts, (representable_of_lt h).roundTo_eq, show (packetSize : ℚ) = 253 from rfl]
  generalize size / packetSize = k at hdiv hstep ⊢
  have hsize : (253 : ℚ) * k + 1 ≤ size := by
    have : 253 * k + 1 ≤ size := by
      have hdiv : 253 * k + size % packetSize = size := hdiv
      omega
    exact_mod_cast this
  linarith

-- 253 times 66316 bytes and one more, counted as 66316 packets
example : ¬SizeCounts 16777949 := by
  unfold SizeCounts
  decide +kernel

/-! ## The announced size -/

/-- A digit is one byte. -/
theorem toNat_of_isDigit {c : Char} (h : c.isDigit = true) :
    (UInt8.ofNat c.toNat).toNat = c.toNat := by
  have hle : c.toNat ≤ 57 := (Char.isDigit_iff_toNat.mp h).2
  exact UInt8.toNat_ofNat_of_lt' (by show c.toNat < 256; omega)

theorem isDigit_of_mem_sizeAnnouncement {size : Nat} {b : UInt8} (h : b ∈ sizeAnnouncement size) :
    isDigit b = true := by
  obtain ⟨c, hc, rfl⟩ := List.mem_map.mp h
  have hdigit := Nat.isDigit_of_mem_toDigits (by decide) (by decide) hc
  have hnat := toNat_of_isDigit hdigit
  obtain ⟨hlo, hhi⟩ := Char.isDigit_iff_toNat.mp hdigit
  rw [isDigit, Bool.and_eq_true, decide_eq_true_eq, decide_eq_true_eq, UInt8.le_iff_toNat_le,
    UInt8.le_iff_toNat_le, hnat]
  exact ⟨hlo, hhi⟩

theorem digitsValue_sizeAnnouncement (size : Nat) :
    digitsValue (sizeAnnouncement size) = size := by
  have hchars : ∀ cs : List Char, (∀ c ∈ cs, c.isDigit = true) → ∀ value,
      (cs.map fun c => UInt8.ofNat c.toNat).foldl
          (fun value d => 10 * value + (d.toNat - 0x30)) value
        = Nat.ofDigitChars 10 cs value := by
    intro cs
    induction cs with
    | nil => exact fun _ value => rfl
    | cons c cs ih =>
      intro h value
      rw [List.map_cons, List.foldl_cons, ih fun c hc => h c (List.mem_cons_of_mem _ hc),
        toNat_of_isDigit (h c List.mem_cons_self), Nat.ofDigitChars_cons]
      rfl
  calc digitsValue (sizeAnnouncement size) = Nat.ofDigitChars 10 (Nat.toDigits 10 size) 0 :=
        hchars _ (fun c hc => Nat.isDigit_of_mem_toDigits (by decide) (by decide) hc) 0
    _ = size := Nat.ofDigitChars_ten_toDigits

/-- More digits make a larger number. -/
theorem le_digitsValue_append (digits more : List UInt8) (d : UInt8) :
    10 * digitsValue digits ≤ digitsValue (digits ++ d :: more) := by
  have hgrow : ∀ (ds : List UInt8) (value : Nat),
      value ≤ ds.foldl (fun value d => 10 * value + (d.toNat - 0x30)) value := by
    intro ds
    induction ds with
    | nil => exact fun value => Nat.le_refl value
    | cons d ds ih =>
      intro value
      have := ih (10 * value + (d.toNat - 0x30))
      rw [List.foldl_cons]
      omega
  rw [digitsValue, digitsValue, List.foldl_append, List.foldl_cons]
  exact Nat.le_trans (Nat.le_add_right _ _) (hgrow more _)

theorem sizeAnnouncement_eq_cons (size : Nat) : ∃ d ds, sizeAnnouncement size = d :: ds := by
  apply List.exists_cons_of_ne_nil
  intro h
  exact Nat.toDigits_ne_nil (List.map_eq_nil_iff.mp h)

/-- A digit is neither a space nor a sign. -/
theorem plain_of_isDigit {d : UInt8} (h : isDigit d = true) :
    isSpace d = false ∧ (d == 0x2D) = false ∧ (d == 0x2B) = false := by
  rw [isDigit, Bool.and_eq_true, decide_eq_true_eq, decide_eq_true_eq, UInt8.le_iff_toNat_le,
    UInt8.le_iff_toNat_le] at h
  obtain ⟨hlo, hhi⟩ : 48 ≤ d.toNat ∧ d.toNat ≤ 57 := h
  have hne : ∀ b : UInt8, b.toNat < 48 → (d == b) = false := by
    intro b hb
    refine beq_eq_false_iff_ne.mpr fun heq => ?_
    rw [heq] at hlo
    omega
  refine ⟨?_, hne _ (by decide), hne _ (by decide)⟩
  rw [isSpace, hne _ (by decide), Bool.false_or, Bool.and_eq_false_iff]
  refine Or.inr (decide_eq_false ?_)
  rw [UInt8.le_iff_toNat_le]
  show ¬d.toNat ≤ 13
  omega

/-- The number starts at the front, and further digits behind the announcement are part of
it. -/
theorem atoi_sizeAnnouncement (size : Nat) (rest : List UInt8) :
    atoi (sizeAnnouncement size ++ rest)
      = if (rest.takeWhile isDigit).length < rest.length ∧
          digitsValue (sizeAnnouncement size ++ rest.takeWhile isDigit) ≤ 2147483647 then
        some (digitsValue (sizeAnnouncement size ++ rest.takeWhile isDigit) : Int)
      else none := by
  have hdigits : (sizeAnnouncement size ++ rest).takeWhile isDigit
      = sizeAnnouncement size ++ rest.takeWhile isDigit :=
    List.takeWhile_append_of_pos fun b hb => isDigit_of_mem_sizeAnnouncement hb
  obtain ⟨d, ds, hcons⟩ := sizeAnnouncement_eq_cons size
  obtain ⟨hspace, hminus, hplus⟩ := plain_of_isDigit (d := d)
    (isDigit_of_mem_sizeAnnouncement (hcons ▸ List.mem_cons_self))
  have hdrop : (sizeAnnouncement size ++ rest).dropWhile isSpace
      = sizeAnnouncement size ++ rest := by
    rw [hcons, List.cons_append, List.dropWhile_cons_of_neg (by simp [hspace])]
  have hhead : (sizeAnnouncement size ++ rest).head? = some d := by
    rw [hcons]
    rfl
  unfold atoi
  simp only [hdrop, hhead, Option.some_beq_some, hminus, hplus, Bool.or_self, hdigits,
    Bool.false_eq_true, if_false]
  rw [List.length_append, List.length_append]
  congr 1
  exact propext ⟨fun h => ⟨by omega, by omega⟩, fun h => ⟨by omega, by omega, by omega⟩⟩

/-- Behind the announcement there is no further digit. -/
def AnnouncementEnds (size : Nat) (announcement : Reception) : Prop :=
  ∃ b, announcement.recvBuf[(sizeAnnouncement size).length]? = some b ∧ isDigit b = false

/-- What the receiver takes for the size: the size, or ten times as much and more. -/
theorem atoi_announcement {size : Nat} {announcement : Reception}
    (h : Delivered (sizeAnnouncement size) announcement) {value : Int}
    (hvalue : atoi announcement.recvBuf = some value) :
    ∃ expected : Nat, value = expected ∧ expected ≤ 2147483647 ∧
      (expected = size ∧ AnnouncementEnds size announcement ∨ 10 * size ≤ expected) := by
  obtain ⟨rest, hrest⟩ := h.isPrefix
  rw [← hrest, atoi_sizeAnnouncement] at hvalue
  split at hvalue
  · next hok =>
    obtain ⟨hlength, hle⟩ := hok
    refine ⟨_, (Option.some.inj hvalue).symm, hle, ?_⟩
    cases rest with
    | nil => exact absurd hlength (Nat.lt_irrefl 0)
    | cons b more =>
      cases hb : isDigit b with
      | true =>
        have hmore := le_digitsValue_append (sizeAnnouncement size) (more.takeWhile isDigit) b
        rw [digitsValue_sizeAnnouncement] at hmore
        rw [List.takeWhile_cons_of_pos hb]
        exact Or.inr hmore
      | false =>
        rw [List.takeWhile_cons_of_neg (by simp [hb]), List.append_nil,
          digitsValue_sizeAnnouncement]
        refine Or.inl ⟨rfl, b, ?_, hb⟩
        rw [← hrest, List.getElem?_append_right (Nat.le_refl _), Nat.sub_self]
        rfl
  · cases hvalue

/-- The size is read as it was sent, where it is an `int` and ends. -/
theorem atoi_announcement_eq {size : Nat} {announcement : Reception}
    (h : Delivered (sizeAnnouncement size) announcement) (hsize : size ≤ 2147483647)
    (hends : AnnouncementEnds size announcement) :
    atoi announcement.recvBuf = some (size : Int) := by
  obtain ⟨rest, hrest⟩ := h.isPrefix
  obtain ⟨b, hb, hdigit⟩ := hends
  rw [← hrest, List.getElem?_append_right (Nat.le_refl _), Nat.sub_self] at hb
  cases rest with
  | nil => cases hb
  | cons b' more =>
    obtain rfl : b' = b := Option.some.inj hb
    have hdigits : (b' :: more).takeWhile isDigit = [] :=
      List.takeWhile_cons_of_neg (by simp [hdigit])
    rw [← hrest, atoi_sizeAnnouncement, hdigits, List.append_nil, digitsValue_sizeAnnouncement,
      if_pos ⟨Nat.succ_pos _, hsize⟩]

/-! ## The receiver -/

/-- Packets up to the number of full ones are written as they are. Induction on them. -/
theorem run_full {s : Receiver} {receptions : List Reception}
    (hfirst : s.receivedFirstPacket = true)
    (hfull : s.packetCount + receptions.length ≤ s.expectedFullPackets) :
    run rxDone s receptions = some { s with
      packetCount := s.packetCount + receptions.length
      file := s.file ++ (receptions.map fun r => r.recvBuf.take r.recvSize).flatten } := by
  induction receptions generalizing s with
  | nil => simp
  | cons r rs ih =>
    rw [List.length_cons] at hfull
    have hstep : rxDone s r = some { s with
        packetCount := s.packetCount + 1
        file := s.file ++ r.recvBuf.take r.recvSize } := by
      rw [rxDone, if_neg (by simp [hfirst]), if_neg (by omega)]
    have hrest := ih (s := { s with
        packetCount := s.packetCount + 1
        file := s.file ++ r.recvBuf.take r.recvSize }) hfirst
      (by show s.packetCount + 1 + rs.length ≤ s.expectedFullPackets; omega)
    rw [run_cons, hstep, Option.bind_some, hrest]
    simp only [List.length_cons, List.map_cons, List.flatten_cons, List.append_assoc]
    congr 2
    omega

/-- The packet behind the full ones ends the file. -/
theorem rxDone_last {s : Receiver} (hfirst : s.receivedFirstPacket = true)
    (hfull : s.packetCount = s.expectedFullPackets) (r : Reception) :
    rxDone s r = some { s with
      packetCount := s.packetCount + 1
      file := s.file ++ r.recvBuf.take s.partialPacketBytes
      done := true } := by
  rw [rxDone, if_neg (by simp [hfirst]), if_pos (by omega)]

/-- The state behind the announcement. -/
def Receiver.announced (expected : Nat) : Receiver where
  expectedBytes := expected
  expectedFullPackets := expected / packetSize
  partialPacketBytes := expected % packetSize
  receivedFirstPacket := true

theorem rxDone_announcement {announcement : Reception} {expected : Nat}
    (hvalue : atoi announcement.recvBuf = some (expected : Int)) (hle : expected ≤ 2147483647) :
    rxDone {} announcement = some (.announced expected) := by
  have hbytes : ((expected : Int) % 18446744073709551616).toNat = expected := by omega
  have hfull : (expected - expected % packetSize) / packetSize = expected / packetSize := by
    have := Nat.div_add_mod expected packetSize
    rw [show expected - expected % packetSize = packetSize * (expected / packetSize) by omega,
      Nat.mul_div_cancel_left _ (by decide)]
  rw [rxDone, if_pos rfl, hvalue]
  simp only [Option.map_some, Receiver.expecting, hbytes, hfull]
  rfl

/-- One packet behind the full ones, and the receiver is done. -/
theorem run_announced {expected : Nat} {rs : List Reception}
    (hfull : rs.length = expected / packetSize) (r : Reception) :
    ∃ s, run rxDone (.announced expected) (rs ++ [r]) = some s ∧
      s.file = (rs.map fun r => r.recvBuf.take r.recvSize).flatten
        ++ r.recvBuf.take (expected % packetSize) ∧ s.done = true := by
  have hrs := @run_full (.announced expected) rs rfl
    (by show 0 + rs.length ≤ expected / packetSize; omega)
  rw [run_append, hrs, Option.bind_some, run_cons, rxDone_last rfl
    (by show 0 + rs.length = expected / packetSize; omega)]
  exact ⟨_, rfl, rfl, rfl⟩

/-- With no more than the full ones it waits. -/
theorem run_announced_waits {expected : Nat} {rs : List Reception}
    (hfull : rs.length ≤ expected / packetSize) :
    ∃ s, run rxDone (.announced expected) rs = some s ∧ s.done = false := by
  rw [run_full (s := .announced expected) rfl
    (by show 0 + rs.length ≤ expected / packetSize; omega)]
  exact ⟨_, rfl, rfl⟩

/-! ## The file -/

/-- The packets make up the file, and the receiver that gets all of them writes it. -/
structure Reassembles (content : List UInt8) (announcement : Reception)
    (receptions : List Reception) : Prop where
  flatten : (sentPackets content).flatten = content
  length : ∀ packet ∈ sentPackets content, 1 ≤ packet.length ∧ packet.length ≤ packetSize
  count : (sentPackets content).length = content.length ⌈/⌉ packetSize
  received : ∃ s, run rxDone {} (announcement :: receptions) = some s ∧
    s.file = content ∧ s.done = true

theorem length_sentPackets (content : List UInt8) :
    (sentPackets content).length = numpackets content.length := by
  rw [sentPackets_eq, List.length_map, List.length_range]

/-- The number of packets, where the last one is not full. -/
theorem ceilDiv_packetSize {size : Nat} (hmod : size % packetSize ≠ 0) :
    size ⌈/⌉ packetSize = size / packetSize + 1 := by
  have hdiv := Nat.div_add_mod size packetSize
  have hlt : size % packetSize < packetSize := Nat.mod_lt _ (by decide)
  rw [Nat.ceilDiv_eq_add_pred_div]
  generalize size / packetSize = k, size % packetSize = r at hdiv hlt hmod ⊢
  subst hdiv
  have hlt : r < 253 := hlt
  show (253 * k + r + 253 - 1) / 253 = k + 1
  omega

/-- The last packet has the remainder. -/
theorem exists_last_packet {content : List UInt8} (h : 0 < (sentPackets content).length) :
    ∃ packet ∈ sentPackets content, packet.length = content.length % packetSize := by
  rw [length_sentPackets] at h
  obtain ⟨id, hid⟩ : ∃ id, numpackets content.length = id + 1 :=
    ⟨_, (Nat.succ_pred_eq_of_pos h).symm⟩
  have hlt : content.length % packetSize < packetSize := Nat.mod_lt _ (by decide)
  refine ⟨packetAt content (id + 1) id, ?_, ?_⟩
  · rw [sentPackets_eq, hid]
    exact List.mem_map_of_mem (List.mem_range.mpr (Nat.lt_succ_self id))
  · rw [packetAt, if_neg (by simp), List.length_take, List.length_append, List.length_replicate,
      List.length_take]
    omega

/-- **What is sent of a file that is counted right**: the full packets and what is left. -/
theorem sentPackets_of_numpackets {content : List UInt8} {k : Nat}
    (hk : k = content.length / packetSize) (hcount : numpackets content.length = k + 1) :
    sentPackets content
      = ((List.range k).map fun i => (content.drop (packetSize * i)).take packetSize)
        ++ [content.drop (packetSize * k)] := by
  rw [sentPackets_eq, hcount, List.range_succ, List.map_append, List.map_singleton,
    packetAt_last hk]
  congr 1
  apply List.map_congr_left
  intro i hi
  have hi := List.mem_range.mp hi
  apply packetAt_full (by omega)
  calc packetSize * (i + 1) ≤ packetSize * k := Nat.mul_le_mul_left _ hi
    _ ≤ content.length := hk ▸ Nat.mul_div_le _ _

/-- A packet with zeros behind it. -/
def Reception.padded (payload : List UInt8) : Reception where
  recvBuf := payload ++ List.replicate (packetSize - payload.length) 0
  recvSize := packetSize

theorem delivered_padded {payload : List UInt8} (h : payload.length ≤ packetSize) :
    Delivered payload (.padded payload) where
  length := by
    rw [Reception.padded, List.length_append, List.length_replicate, Nat.add_sub_cancel' h]
  isPrefix := List.prefix_append _ _
  recvSize := Or.inr rfl

/-- A full packet arrives as it is. -/
theorem Delivered.take_recvSize {payload : List UInt8} {r : Reception} (h : Delivered payload r)
    (hfull : payload.length = packetSize) : r.recvBuf.take r.recvSize = payload := by
  have heq : payload = r.recvBuf :=
    h.isPrefix.eq_of_length (hfull.trans h.length.symm)
  have hsize : r.recvSize = packetSize := by
    obtain hsize | hsize := h.recvSize
    · rw [hsize, hfull]
    · exact hsize
  rw [hsize, ← h.length, List.take_length, heq]

/-- As much as the last packet has is what it was. -/
theorem Delivered.take_length {payload : List UInt8} {r : Reception} (h : Delivered payload r) :
    r.recvBuf.take payload.length = payload :=
  (List.prefix_iff_eq_take.mp h.isPrefix).symm

theorem forall₂_concat {α β : Type*} {R : α → β → Prop} {xs : List α} {x : α} {l : List β}
    (h : List.Forall₂ R (xs ++ [x]) l) :
    ∃ ys y, l = ys ++ [y] ∧ List.Forall₂ R xs ys ∧ R x y := by
  induction xs generalizing l with
  | nil =>
    cases h with
    | cons hx hnil =>
      cases hnil
      exact ⟨[], _, rfl, .nil, hx⟩
  | cons x' xs ih =>
    cases h with
    | cons hx' hrest =>
      obtain ⟨ys, y, rfl, hxs, hx⟩ := ih hrest
      exact ⟨_ :: ys, y, rfl, .cons hx' hxs, hx⟩

/-- Full packets are written as they were sent. -/
theorem map_take_recvSize {packets : List (List UInt8)} {receptions : List Reception}
    (h : List.Forall₂ Delivered packets receptions)
    (hfull : ∀ packet ∈ packets, packet.length = packetSize) :
    (receptions.map fun r => r.recvBuf.take r.recvSize) = packets := by
  induction h with
  | nil => rfl
  | cons hr _ ih =>
    rw [List.map_cons, hr.take_recvSize (hfull _ List.mem_cons_self),
      ih fun packet hp => hfull packet (List.mem_cons_of_mem _ hp)]

theorem length_recvBuf {packets : List (List UInt8)} {receptions : List Reception}
    (h : List.Forall₂ Delivered packets receptions) :
    ∀ r ∈ receptions, r.recvBuf.length = packetSize := by
  induction h with
  | nil => exact List.forall_mem_nil _
  | cons hr _ ih => exact List.forall_mem_cons.mpr ⟨hr.length, ih⟩

section Transfer

variable {content : List UInt8} {announcement : Reception} {receptions : List Reception}

/-- A file that is counted right and announced comes back. -/
theorem reassembles_of_counts (hann : Delivered (sizeAnnouncement content.length) announcement)
    (hrec : List.Forall₂ Delivered (sentPackets content) receptions)
    (hmod : content.length % packetSize ≠ 0) (hsize : content.length ≤ 2147483647)
    (hcounts : SizeCounts content.length) (hends : AnnouncementEnds content.length announcement) :
    Reassembles content announcement receptions := by
  have hpos : 0 < content.length := by
    refine Nat.pos_of_ne_zero fun h => hmod ?_
    rw [h]
    rfl
  have hdiv := Nat.div_add_mod content.length packetSize
  have hlt : content.length % packetSize < packetSize := Nat.mod_lt _ (by decide)
  have hcount := (numpackets_eq_iff hpos hsize).mpr hcounts
  obtain ⟨k, hk⟩ : ∃ k, k = content.length / packetSize := ⟨_, rfl⟩
  rw [← hk] at hcount hdiv
  have hsent := sentPackets_of_numpackets hk hcount
  have hfull : ∀ packet ∈ (List.range k).map fun i => (content.drop (packetSize * i)).take packetSize,
      packet.length = packetSize := by
    intro packet hpacket
    obtain ⟨i, hi, rfl⟩ := List.mem_map.mp hpacket
    have hi : packetSize * (i + 1) ≤ packetSize * k :=
      Nat.mul_le_mul_left _ (List.mem_range.mp hi)
    rw [Nat.mul_succ] at hi
    rw [List.length_take, List.length_drop]
    omega
  have hlast : (content.drop (packetSize * k)).length = content.length % packetSize := by
    rw [List.length_drop]
    omega
  refine ⟨?_, ?_, ?_, ?_⟩
  · rw [hsent, List.flatten_append, flatten_pieces, List.flatten_singleton, List.take_append_drop]
  · intro packet hpacket
    rw [hsent] at hpacket
    obtain hpacket | hpacket := List.mem_append.mp hpacket
    · rw [hfull packet hpacket]
      decide
    · rw [List.mem_singleton.mp hpacket, hlast]
      omega
  · rw [length_sentPackets, hcount, ceilDiv_packetSize hmod, hk]
  · rw [hsent] at hrec
    obtain ⟨rs, r, rfl, hrs, hr⟩ := forall₂_concat hrec
    have hlength : rs.length = k := by rw [← hrs.length_eq, List.length_map, List.length_range]
    obtain ⟨s, hs, hfile, hdone⟩ := run_announced (hlength.trans hk) r
    refine ⟨s, ?_, ?_, hdone⟩
    · rw [run_cons, rxDone_announcement (atoi_announcement_eq hann hsize hends) hsize]
      exact hs
    · rw [hfile, map_take_recvSize hrs hfull, flatten_pieces, ← hlast, hr.take_length,
        List.take_append_drop]

/-- With ten times the size or more and no further packet, what is written is one packet, and
longer than the file. -/
theorem file_ne_of_large {expected : Nat} {s : Receiver} (hpos : 0 < content.length)
    (hlarge : 10 * content.length ≤ expected)
    (hcount : receptions.length = content.length / packetSize + 1)
    (hmany : expected / packetSize < receptions.length)
    (hlength : ∀ r ∈ receptions, r.recvBuf.length = packetSize)
    (hrun : run rxDone (.announced expected) receptions = some s) : s.file ≠ content := by
  rw [show packetSize = 253 from rfl] at hmany hcount
  obtain ⟨r, rfl⟩ := List.length_eq_one_iff.mp (show receptions.length = 1 by omega)
  have hexp : expected < 253 := by omega
  obtain ⟨s', hs', hfile, -⟩ := @run_announced expected []
    (by show 0 = expected / 253; omega) r
  obtain rfl : s' = s := Option.some.inj (hs'.symm.trans hrun)
  intro heq
  have hfileLength := congrArg List.length (hfile.symm.trans heq)
  rw [List.map_nil, List.flatten_nil, List.nil_append, List.length_take,
    hlength r List.mem_cons_self, Nat.mod_eq_of_lt (show expected < packetSize from hexp),
    Nat.min_eq_left (show expected ≤ packetSize from hexp.le)] at hfileLength
  omega

/-- A file that comes back was counted right and announced. -/
theorem Reassembles.counts (hann : Delivered (sizeAnnouncement content.length) announcement)
    (hrec : List.Forall₂ Delivered (sentPackets content) receptions)
    (h : Reassembles content announcement receptions) :
    content.length % packetSize ≠ 0 ∧ content.length ≤ 2147483647 ∧
      SizeCounts content.length ∧ AnnouncementEnds content.length announcement := by
  obtain ⟨s, hrun, hfile, hdone⟩ := h.received
  obtain ⟨s₁, hfirst, hrest⟩ := run_cons_some rxDone hrun
  have hfirst' : (atoi announcement.recvBuf).map ({} : Receiver).expecting = some s₁ := hfirst
  obtain ⟨value, hvalue, -⟩ := Option.map_eq_some_iff.mp hfirst'
  obtain ⟨expected, rfl, hexpected, hsize⟩ := atoi_announcement hann hvalue
  obtain rfl : .announced expected = s₁ :=
    Option.some.inj ((rxDone_announcement hvalue hexpected).symm.trans hfirst)
  have hcount : receptions.length = content.length ⌈/⌉ packetSize :=
    hrec.length_eq.symm.trans h.count
  have hmany : expected / packetSize < receptions.length := by
    refine Nat.not_le.mp fun hfull => ?_
    obtain ⟨s', hs', hwaits⟩ := run_announced_waits hfull
    obtain rfl : s' = s := Option.some.inj (hs'.symm.trans hrest)
    exact absurd hdone (by simp [hwaits])
  have hmod : content.length % packetSize ≠ 0 := by
    intro hzero
    have hsome : 0 < (sentPackets content).length :=
      hrec.length_eq ▸ Nat.lt_of_le_of_lt (Nat.zero_le _) hmany
    obtain ⟨packet, hpacket, hlength⟩ := exists_last_packet hsome
    have := (h.length packet hpacket).1
    omega
  rw [ceilDiv_packetSize hmod] at hcount
  have hpos : 0 < content.length := by
    refine Nat.pos_of_ne_zero fun hzero => hmod ?_
    rw [hzero]
    rfl
  obtain ⟨rfl, hends⟩ | hlarge := hsize
  · have hnumpackets : numpackets content.length = content.length / packetSize + 1 := by
      rw [← length_sentPackets, hrec.length_eq, hcount]
    exact ⟨hmod, hexpected, (numpackets_eq_iff hpos hexpected).mp hnumpackets, hends⟩
  · exact absurd hfile
      (file_ne_of_large hpos hlarge hcount hmany (length_recvBuf hrec) hrest)

/-- **The 2.4 GHz downlink**: a file comes back exactly if its size is no multiple of the packet
size, is an `int`, is counted right and has no further digit behind its announcement. -/
theorem lora_downlink_reassembles
    (hann : Delivered (sizeAnnouncement content.length) announcement)
    (hrec : List.Forall₂ Delivered (sentPackets content) receptions) :
    Reassembles content announcement receptions ↔
      content.length % packetSize ≠ 0 ∧ content.length ≤ 2147483647 ∧
        SizeCounts content.length ∧ AnnouncementEnds content.length announcement := by
  constructor
  · exact Reassembles.counts hann hrec
  · rintro ⟨hmod, hsize, hcounts, hends⟩
    exact reassembles_of_counts hann hrec hmod hsize hcounts hends

end Transfer

/-- A file with three bytes. -/
theorem lora_downlink_reassembles_abc :
    Reassembles [0x61, 0x62, 0x63] (.padded (sizeAnnouncement 3))
      [.padded [0x61, 0x62, 0x63]] := by
  have hcounts : SizeCounts 3 := .of_lt (by decide) (by decide)
  have hnum : numpackets 3 = 1 := (numpackets_eq_iff (by decide) (by decide)).mpr hcounts
  have hsent : sentPackets [0x61, 0x62, 0x63] = [[0x61, 0x62, 0x63]] := by
    rw [sentPackets_eq]
    show (List.range (numpackets 3)).map (packetAt _ (numpackets 3)) = _
    rw [hnum]
    decide
  refine (lora_downlink_reassembles (delivered_padded (by decide)) ?_).mpr
    ⟨by decide, by decide, hcounts, 0, by decide, by decide⟩
  rw [hsent]
  exact .cons (delivered_padded (by decide)) .nil

/-- **A full packet that is the last one is sent empty**: of 253 bytes none comes back. -/
theorem lora_downlink_last_packet_empty :
    sentPackets (List.replicate 253 0) = [[]] ∧
      ∀ announcement receptions,
        ¬Reassembles (List.replicate 253 0) announcement receptions := by
  have hnum : numpackets 253 = 1 := by decide +kernel
  have hsent : sentPackets (List.replicate 253 0) = [[]] := by
    rw [sentPackets_eq, List.length_replicate, hnum]
    show [packetAt (List.replicate 253 0) 1 0] = [[]]
    rw [packetAt, if_neg (by decide), List.length_replicate]
    rfl
  refine ⟨hsent, fun announcement receptions h => ?_⟩
  have := h.flatten
  rw [hsent] at this
  cases this

end Samwise.Lora
