import Mathlib.Data.Nat.Basic
import Mathlib.Data.Option.Basic

/-!
# Samwise — the solar charger's voltages

`safe_mult` of `src/common/utils.h`, and the three getters of `src/drivers/mppt/mppt.c` that
scale a register of the LT8491 with it. A register counts 10 mV.

The comment in `safe_mult` announces a comparison with the largest value that can be multiplied
by `m`. The code compares with `val / m` instead, so from `m = 2` on every value but 0 is taken to
overflow.
-/

namespace Samwise

/-! ## The product -/

/-- A product of two `int`s, `none` where it overflows. -/
def intMult (a b : Int) : Option Int :=
  if -2147483648 ≤ a * b ∧ a * b ≤ 2147483647 then some (a * b) else none

/-- `safe_mult`, `none` for a signed overflow. -/
def safeMult (val : UInt16) (m : Int32) : Option UInt16 :=
  if m < 0 then some 0
  else if m ≠ 0 ∧ val > UInt16.ofInt ((val.toNat : Int).tdiv m.toInt) then some 0xFFFF
  else (intMult val.toNat m.toInt).map UInt16.ofInt


/-- A natural number keeps its value in a `uint16_t` that has room for it. -/
theorem toNat_ofInt_natCast {n : Nat} (hn : n < 65536) : (UInt16.ofInt n).toNat = n := by
  have hmod : ((n : Int) % 65536).toNat = n := by omega
  show (UInt16.ofNat ((n : Int) % 65536).toNat).toNat = n
  rw [hmod, UInt16.toNat_ofNat']
  exact Nat.mod_eq_of_lt hn

/-- The comparison of `safe_mult`: dividing by 2 or more makes every value smaller but 0. -/
theorem gt_quotient_iff {val : UInt16} {m : Int32} (hm : 0 < m) :
    val > UInt16.ofInt ((val.toNat : Int).tdiv m.toInt) ↔ 2 ≤ m ∧ val ≠ 0 := by
  have hpos : 0 < m.toInt := Int32.lt_iff_toInt_lt.mp hm
  cases hk : m.toInt with
  | negSucc k =>
    rw [hk] at hpos
    exact absurd hpos (by omega)
  | ofNat k =>
    have htwo : 2 ≤ m ↔ 2 ≤ k := by
      rw [Int32.le_iff_toInt_le, hk]
      exact Int.ofNat_le
    have hzero : val ≠ 0 ↔ 0 < val.toNat := by
      rw [Nat.pos_iff_ne_zero, ne_eq, ne_eq, ← UInt16.toNat_inj]
      rfl
    have hk0 : 0 < k := by
      rw [hk] at hpos
      exact Int.ofNat_lt.mp hpos
    have hquot : (UInt16.ofInt ((val.toNat : Int).tdiv (Int.ofNat k))).toNat = val.toNat / k :=
      toNat_ofInt_natCast (Nat.lt_of_le_of_lt (Nat.div_le_self _ _) val.toNat_lt)
    rw [htwo, hzero, gt_iff_lt, UInt16.lt_iff_toNat_lt, hquot]
    constructor
    · intro hlt
      have hne : k ≠ 1 := by
        rintro rfl
        rw [Nat.div_one] at hlt
        exact Nat.lt_irrefl _ hlt
      exact ⟨by omega, Nat.pos_of_ne_zero fun h0 => by rw [h0] at hlt; exact Nat.not_lt_zero _ hlt⟩
    · rintro ⟨hk2, hval⟩
      exact Nat.div_lt_self hval hk2

/-- A product that is not taken to overflow does not. -/
theorem product_lt {val : UInt16} {m : Int32} (hfits : ¬(2 ≤ m ∧ val ≠ 0)) :
    val.toNat * m.toInt.toNat < 65536 := by
  by_cases hzero : val = 0
  · rw [hzero, UInt16.toNat_zero, Nat.zero_mul]
    decide
  · have hone : m.toInt.toNat ≤ 1 := by
      have hlt : ¬2 ≤ m := fun h2 => hfits ⟨h2, hzero⟩
      rw [Int32.le_iff_toInt_le] at hlt
      have htwo : (2 : Int32).toInt = 2 := rfl
      omega
    calc val.toNat * m.toInt.toNat ≤ val.toNat * 1 := Nat.mul_le_mul_left _ hone
      _ = val.toNat := Nat.mul_one _
      _ < 65536 := val.toNat_lt

/-- **What `safe_mult` computes** for a factor that is not negative: the largest `uint16_t`, but
for a factor of at most 1 and for the value 0, where the product fits. -/
theorem safeMult_eq (val : UInt16) {m : Int32} (hm : 0 ≤ m) :
    safeMult val m =
      if 2 ≤ m ∧ val ≠ 0 then some 0xFFFF else some (UInt16.ofNat (val.toNat * m.toInt.toNat)) := by
  have hneg : ¬m < 0 := Int32.not_lt.mpr hm
  have hif : (m ≠ 0 ∧ val > UInt16.ofInt ((val.toNat : Int).tdiv m.toInt)) ↔ 2 ≤ m ∧ val ≠ 0 := by
    constructor
    · rintro ⟨hne, hgt⟩
      exact (gt_quotient_iff (Int32.lt_of_le_of_ne hm (Ne.symm hne))).mp hgt
    · intro h
      have hpos : 0 < m := Int32.lt_of_lt_of_le (by decide) h.1
      exact ⟨(Int32.ne_of_lt hpos).symm, (gt_quotient_iff hpos).mpr h⟩
  rw [safeMult, if_neg hneg]
  simp only [hif]
  split
  · rfl
  · next hfits =>
    -- the product is 0 or the value itself
    have hprod : (val.toNat : Int) * m.toInt = ((val.toNat * m.toInt.toNat : Nat) : Int) := by
      have h0 : 0 ≤ m.toInt := Int32.le_iff_toInt_le.mp hm
      rw [Int.natCast_mul, Int.toNat_of_nonneg h0]
    have hsmall := product_lt hfits
    rw [intMult, hprod, if_pos (by omega)]
    apply congrArg some
    apply UInt16.toNat_inj.mp
    rw [toNat_ofInt_natCast hsmall, UInt16.toNat_ofNat']
    exact (Nat.mod_eq_of_lt hsmall).symm

/-- The product is right exactly where no factor above 1 meets a value above 0, or where the exact
product leaves a `uint16_t` anyway. -/
theorem safeMult_saturates_iff (val : UInt16) {m : Int32} (hm : 0 ≤ m) :
    (safeMult val m).map UInt16.toNat = some (min (val.toNat * m.toInt.toNat) 65535) ↔
      m ≤ 1 ∨ val = 0 ∨ 65535 ≤ val.toNat * m.toInt.toNat := by
  rw [safeMult_eq val hm]
  split
  · next hover =>
    have hm1 : ¬m ≤ 1 := by
      have h2 := Int32.le_iff_toInt_le.mp hover.1
      rw [Int32.le_iff_toInt_le]
      exact fun h1 => absurd (Int.le_trans h2 h1) (by decide)
    show some 65535 = some (min _ 65535) ↔ _
    rw [Option.some_inj]
    constructor
    · intro heq
      apply Or.inr
      apply Or.inr
      rw [heq]
      exact Nat.min_le_left _ _
    · rintro (h1 | h0 | hge)
      · exact absurd h1 hm1
      · exact absurd h0 hover.2
      · exact (Nat.min_eq_right hge).symm
  · next hfits =>
    have hsmall := product_lt hfits
    have heq : (UInt16.ofNat (val.toNat * m.toInt.toNat)).toNat
        = min (val.toNat * m.toInt.toNat) 65535 := by
      rw [UInt16.toNat_ofNat', Nat.mod_eq_of_lt hsmall]
      exact (Nat.min_eq_left (Nat.le_of_lt_succ hsmall)).symm
    rw [Option.map_some, heq]
    refine iff_of_true rfl ?_
    by_cases hzero : val = 0
    · exact Or.inr (Or.inl hzero)
    · have hlt : ¬2 ≤ m := fun h2 => hfits ⟨h2, hzero⟩
      apply Or.inl
      rw [Int32.le_iff_toInt_le] at hlt ⊢
      have htwo : (2 : Int32).toInt = 2 := rfl
      have hone : (1 : Int32).toInt = 1 := rfl
      omega

/-! ## The charger -/

/-- `mppt_t` as the voltage getters use it; `i2c` is false for the NULL of a mock. -/
structure Mppt where
  i2c : Bool
  address : UInt8
  vinMV : UInt16
  chargingMV : UInt16
  batteryMV : UInt16

/-- The bus: what a blocking write of bytes to an address returns, and what a blocking read behind
it returns and makes of the buffer. -/
structure I2cBus where
  writeBlocking : UInt8 → List UInt8 → Int32
  readBlocking : UInt8 → List UInt8 → Vector UInt8 2 → Int32 × Vector UInt8 2

/-- `LT8491_TELE_VBAT`. -/
def lt8491TeleVbat : UInt8 := 0x0C

/-- `LT8491_TELE_VIN`. -/
def lt8491TeleVin : UInt8 := 0x0E

/-- `LT8491_TELE_VINR`. -/
def lt8491TeleVinr : UInt8 := 0x10

section Getters

variable (bus : I2cBus) (stack : Vector UInt8 2) (device : Mppt)

/-- `i2c_write_then_read`: what it returns, and the buffer behind it. -/
def i2cWriteThenRead (deviceAddr : UInt8) (cmdBuf : List UInt8) (readBuf : Vector UInt8 2) :
    Int32 × Vector UInt8 2 :=
  let ret := bus.writeBlocking deviceAddr cmdBuf
  if ret < 0 then (ret, readBuf) else bus.readBlocking deviceAddr cmdBuf readBuf

/-- `mppt_send_instruction_and_read_2_byte`. The buffer starts as what the stack holds, and a
transfer that fails is not looked at. -/
def mpptSendInstructionAndRead2Byte (inst : UInt8) : UInt16 :=
  if device.i2c = false then 0xFFFF
  else
    let result2Bytes := (i2cWriteThenRead bus device.address [inst] stack).2
    result2Bytes[0].toUInt16 ||| result2Bytes[1].toUInt16 <<< 8

/-- What the voltage getters share, with the field they keep and their register: what they return,
and the device behind it. -/
def mpptGetMillivolts (kept : UInt16) (keep : UInt16 → Mppt) (inst : UInt8) :
    Option (UInt16 × Mppt) :=
  if device.i2c = false then some (kept, device)
  else
    let teleValue16 := mpptSendInstructionAndRead2Byte bus stack device inst
    (safeMult teleValue16 10).map fun voltageMV => (voltageMV, keep voltageMV)

/-- `mppt_get_battery_voltage`. -/
def mpptGetBatteryVoltage : Option (UInt16 × Mppt) :=
  mpptGetMillivolts bus stack device device.batteryMV
    (fun mV => { device with batteryMV := mV }) lt8491TeleVbat

/-- `mppt_get_voltage`. -/
def mpptGetVoltage : Option (UInt16 × Mppt) :=
  mpptGetMillivolts bus stack device device.chargingMV
    (fun mV => { device with chargingMV := mV }) lt8491TeleVinr

/-- `mppt_get_vin_voltage`. -/
def mpptGetVinVoltage : Option (UInt16 × Mppt) :=
  mpptGetMillivolts bus stack device device.vinMV
    (fun mV => { device with vinMV := mV }) lt8491TeleVin

/-- The reading is ten times the register of `inst`, cut to a `uint16_t`. -/
def IsScaled (reading : Option (UInt16 × Mppt)) (inst : UInt8) : Prop :=
  reading.map (·.1.toNat)
    = some (min (10 * (mpptSendInstructionAndRead2Byte bus stack device inst).toNat) 65535)

instance (reading : Option (UInt16 × Mppt)) (inst : UInt8) :
    Decidable (IsScaled bus stack device reading inst) := by
  unfold IsScaled
  infer_instance

/-- The register reads 0, or more than a `uint16_t` of millivolts can hold. -/
def RawSaturates (inst : UInt8) : Prop :=
  mpptSendInstructionAndRead2Byte bus stack device inst = 0 ∨
    6554 ≤ (mpptSendInstructionAndRead2Byte bus stack device inst).toNat

variable {device}

/-- One argument for the three getters: ten is a factor above 1. -/
theorem isScaled_mpptGetMillivolts_iff (hi2c : device.i2c = true) (kept : UInt16)
    (keep : UInt16 → Mppt) (inst : UInt8) :
    IsScaled bus stack device (mpptGetMillivolts bus stack device kept keep inst) inst ↔
      RawSaturates bus stack device inst := by
  have hon : ¬device.i2c = false := by simp [hi2c]
  have hten : ((10 : Int32).toInt.toNat) = 10 := rfl
  rw [IsScaled, RawSaturates, mpptGetMillivolts, if_neg hon]
  generalize mpptSendInstructionAndRead2Byte bus stack device inst = raw
  have hiff := safeMult_saturates_iff raw (m := 10) (by decide)
  rw [hten, Nat.mul_comm] at hiff
  show ((safeMult raw 10).map _).map _ = _ ↔ _
  rw [Option.map_map]
  show (safeMult raw 10).map UInt16.toNat = _ ↔ _
  rw [hiff]
  constructor
  · rintro (hle | hzero | hge)
    · exact absurd hle (by decide)
    · exact Or.inl hzero
    · exact Or.inr (by omega)
  · rintro (hzero | hge)
    · exact Or.inr (Or.inl hzero)
    · exact Or.inr (Or.inr (by omega))

end Getters

/-- **The scaled voltages are right** exactly for a factor of at most 1, for the value 0, and where
the exact product leaves a `uint16_t`: a getter, which scales by ten, is right for a register that
reads 0 or at least 6554, that is 65.54 V. -/
theorem scaled_voltages_iff (val : UInt16) {m : Int32} (hm : 0 ≤ m) (bus : I2cBus)
    (stack : Vector UInt8 2) {device : Mppt} (hi2c : device.i2c = true) :
    ((safeMult val m).map UInt16.toNat = some (min (val.toNat * m.toInt.toNat) 65535) ↔
      m ≤ 1 ∨ val = 0 ∨ 65535 ≤ val.toNat * m.toInt.toNat) ∧
    (IsScaled bus stack device (mpptGetBatteryVoltage bus stack device) lt8491TeleVbat ↔
      RawSaturates bus stack device lt8491TeleVbat) ∧
    (IsScaled bus stack device (mpptGetVoltage bus stack device) lt8491TeleVinr ↔
      RawSaturates bus stack device lt8491TeleVinr) ∧
    (IsScaled bus stack device (mpptGetVinVoltage bus stack device) lt8491TeleVin ↔
      RawSaturates bus stack device lt8491TeleVin) :=
  ⟨safeMult_saturates_iff val hm, isScaled_mpptGetMillivolts_iff bus stack hi2c _ _ _,
    isScaled_mpptGetMillivolts_iff bus stack hi2c _ _ _,
    isScaled_mpptGetMillivolts_iff bus stack hi2c _ _ _⟩

/-- A charger whose registers all read 1200, for 12 V. -/
def twelveVoltBus : I2cBus where
  writeBlocking := fun _ _ => 1
  readBlocking := fun _ _ _ => (2, #v[0xB0, 0x04])

/-- The charger of panel A. -/
def panelACharger : Mppt where
  i2c := true
  address := 0x10
  vinMV := 0
  chargingMV := 0
  batteryMV := 0

/-- The theorem at 12 V, where all its sides are false. -/
theorem scaled_voltages_iff_twelve_volts :
    ((safeMult 1200 10).map UInt16.toNat = some (min (1200 * 10) 65535) ↔
      (10 : Int32) ≤ 1 ∨ (1200 : UInt16) = 0 ∨ 65535 ≤ 1200 * 10) ∧
    (IsScaled twelveVoltBus #v[0, 0] panelACharger
        (mpptGetBatteryVoltage twelveVoltBus #v[0, 0] panelACharger) lt8491TeleVbat ↔
      RawSaturates twelveVoltBus #v[0, 0] panelACharger lt8491TeleVbat) :=
  have hi2c : panelACharger.i2c = true := rfl
  have h := scaled_voltages_iff 1200 (m := 10) (by decide) twelveVoltBus #v[0, 0] hi2c
  ⟨h.1, h.2.1⟩

/-- Twelve volts are reported as 65.535 V. -/
theorem twelve_volts_not_scaled :
    safeMult 1200 10 = some 65535 ∧
    ¬(safeMult 1200 10).map UInt16.toNat = some (min (1200 * 10) 65535) ∧
    ¬IsScaled twelveVoltBus #v[0, 0] panelACharger
      (mpptGetBatteryVoltage twelveVoltBus #v[0, 0] panelACharger) lt8491TeleVbat := by
  decide

end Samwise
