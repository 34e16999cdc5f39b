import Samwise.Drivers.Rfm9x

/-!
# Samwise — the radio's configuration

What `rfm9x_init` makes of the chip's registers, and that nothing changes it afterwards. `Has` is
what is known of the registers of a chip in LoRa mode, and `Sets` what a program of the driver reads
and makes of them, whatever the chip does by itself meanwhile.
-/

namespace Samwise.Rfm9x

open Interaction Prog

abbrev Registers := UInt8 → UInt8

/-- The chip is in LoRa mode and has these values in the registers of which `P` holds. -/
def Chip.Has (P : UInt8 → Prop) (f : Registers) (c : Chip) : Prop :=
  c.inLora = true ∧ ∀ a, P a → c.get a = f a

namespace Chip.Has

variable {P : UInt8 → Prop} {f : Registers} {c : Chip}

theorem event (hP : ∀ a, P a → Steady a) (hc : c.Has P f) (e : Event) : (c.event e).Has P f :=
  ⟨(inLora_event c e).trans hc.1, fun a ha => (get_event (hP a ha) c e).trans (hc.2 a ha)⟩

theorem inMode (hP : ∀ a, P a → Steady a) (hc : c.Has P f) {m : UInt8} (hm : m < 8) :
    (c.inMode m).Has P f :=
  ⟨(inLora_inMode c hm).trans hc.1,
    fun a ha => (get_inMode c hm (hP a ha).2.1).trans (hc.2 a ha)⟩

end Chip.Has

/-- A write that neither changes the mode nor clears flags. -/
theorem Chip.put_of_ne {c : Chip} {a : UInt8} (hlora : c.inLora = true) (h01 : a ≠ 0x01)
    (h12 : a ≠ 0x12) (x : UInt8) : c.put a x =
      if Paged a then { c with lora := Function.update c.lora a x }
      else { c with shared := Function.update c.shared a x } := by
  rw [put, if_neg h01, if_pos hlora, if_neg h12]

theorem Chip.get_put {c : Chip} {a : UInt8} (hlora : c.inLora = true) (h01 : a ≠ 0x01)
    (h12 : a ≠ 0x12) (x : UInt8) : (c.put a x).inLora = true ∧
      ∀ r, (c.put a x).get r = Function.update (fun r => c.get r) a x r := by
  rw [put_of_ne hlora h01 h12]
  have hinLora : (if Paged a then { c with lora := Function.update c.lora a x }
      else { c with shared := Function.update c.shared a x }).inLora = true := by
    split
    · exact hlora
    · simp only [inLora, Function.update_of_ne h01.symm]
      exact hlora
  refine ⟨hinLora, fun r => ?_⟩
  by_cases hr : r = a
  · subst hr
    rw [Function.update_self, get, hinLora, if_pos rfl]
    split
    · exact Function.update_self ..
    · exact Function.update_self ..
  · rw [Function.update_of_ne hr]
    refine get_congr (hinLora.trans hlora.symm) ?_ ?_ ?_
    · split
      · rfl
      · exact Function.update_of_ne hr _ _
    · split <;> rfl
    · split
      · exact Function.update_of_ne hr _ _
      · rfl

theorem Chip.Has.put {P : UInt8 → Prop} {f : Registers} {c : Chip} (hc : c.Has P f) {a : UInt8}
    (h01 : a ≠ 0x01) (h12 : a ≠ 0x12) (x : UInt8) : (c.put a x).Has P (Function.update f a x) := by
  obtain ⟨hinLora, hget⟩ := Chip.get_put hc.1 h01 h12 x
  refine ⟨hinLora, fun r hr => ?_⟩
  rw [hget]
  by_cases hra : r = a
  · rw [hra, Function.update_self, Function.update_self]
  · rw [Function.update_of_ne hra, Function.update_of_ne hra, hc.2 r hr]

/-! ## What a program reads and makes of the registers -/

/-- From registers `f`, the program gives `r` and leaves `f'`, whatever happens on the chip
meanwhile; the variables stay. -/
def Sets {α : Type} (v : Vars) (x : Driver α) (f : Registers) (r : α) (f' : Registers) : Prop :=
  ∀ b : Bus, b.chip.Has Chip.Steady f →
    Gives Bus.serve v b x fun r' w b' => r' = r ∧ w = v ∧ b'.chip.Has Chip.Steady f'

namespace Sets

variable {α β : Type} {v : Vars} {f f₁ f' : Registers} {a : UInt8}

theorem pure (r : α) : Sets v (Pure.pure r) f r f := fun _ hb => ⟨rfl, rfl, hb⟩

theorem bind {x : Driver β} {k : β → Driver α} {s : β} {r : α} (hx : Sets v x f s f₁)
    (hk : Sets v (k s) f₁ r f') : Sets v (x >>= k) f r f' := by
  intro b hb
  refine Gives.bind (hx b hb) ?_
  rintro s' w b' ⟨rfl, rfl, hb'⟩
  exact hk b' hb'

theorem settle {b : Bus} (hb : b.chip.Has Chip.Steady f) : b.settle.chip.Has Chip.Steady f :=
  Bus.settle_of (fun _ e hc => hc.event (fun _ h => h) e) hb

theorem get8 (ha : Chip.Steady a) : Sets v (get8 a) f (f a) f := by
  intro b hb
  unfold Gives
  rw [exec_get8 ha.1]
  exact ⟨(settle hb).2 a ha, rfl, settle hb⟩

theorem put8 (ha : Chip.Steady a) (x : UInt8) : Sets v (put8 a x) f () (Function.update f a x) := by
  intro b hb
  unfold Gives
  rw [exec_put8 ha.1]
  exact ⟨rfl, rfl, (settle hb).put ha.2.1 ha.2.2.2.2.1 x⟩

theorem change8 (ha : Chip.Steady a) (g : UInt32 → UInt32) :
    Sets v (change8 a g) f () (Function.update f a (g (f a).toUInt32).toUInt8) :=
  bind (get8 ha) (put8 ha _)

theorem setMode {m : UInt8} (hm : m < 8) : Sets v (setMode m) f () f := by
  intro b hb
  unfold Gives
  rw [exec_setMode hm]
  exact ⟨rfl, rfl, (settle (settle hb)).inMode (fun _ h => h) hm⟩

theorem vars_bind {k : Vars → Driver α} {r : α} (hk : Sets v (k v) f r f') :
    Sets v (vars >>= k) f r f' := fun b hb => hk b hb

/-- An assertion that holds. -/
theorem assert {condition : Prop} [Decidable condition] (h : condition) :
    Sets v (assert condition) f () f := by
  rw [Rfm9x.assert, if_pos h]
  exact pure ()

end Sets

/-- The program leaves registers that satisfy `Q`. -/
def SetsTo (v : Vars) (x : Driver Unit) (f : Registers) (Q : Registers → Prop) : Prop :=
  ∀ b : Bus, b.chip.Has Chip.Steady f →
    Gives Bus.serve v b x fun _ w b' => w = v ∧ ∃ f', b'.chip.Has Chip.Steady f' ∧ Q f'

theorem Sets.setsTo {v : Vars} {x : Driver Unit} {f f' : Registers} {Q : Registers → Prop}
    (hx : Sets v x f () f') (hQ : Q f') : SetsTo v x f Q :=
  fun b hb => (hx b hb).mono fun _ _ _ h => ⟨h.2.1, f', h.2.2, hQ⟩

/-- A program, and what goes on from the registers that it leaves. -/
theorem Sets.andThen {β : Type} {v : Vars} {x : Driver β} {k : β → Driver Unit} {f f₁ : Registers}
    {s : β} {Q : Registers → Prop} (hx : Sets v x f s f₁) (hk : SetsTo v (k s) f₁ Q) :
    SetsTo v (x >>= k) f Q := by
  intro b hb
  refine Gives.bind (hx b hb) ?_
  rintro s' w b' ⟨rfl, rfl, hb'⟩
  exact hk b' hb'

theorem SetsTo.vars_bind {v : Vars} {k : Vars → Driver Unit} {f : Registers}
    {Q : Registers → Prop} (hk : SetsTo v (k v) f Q) : SetsTo v (vars >>= k) f Q :=
  fun b hb => hk b hb

/-! ## The configuration -/

/-- What `rfm9x_init` sets: the bases of the FIFO, no frequency hopping, 438.1 MHz, a preamble of 8
bytes, 125 kHz with what the errata say of it, a coding rate of 4/5, a spreading factor of 7, checked
CRCs, automatic gain control, the ramp and the gain; and the power, by the board. -/
structure Configured (r : Vars) (f : Registers) : Prop where
  fifoTxBase : f reg0eFifoTxBaseAddr = 0
  fifoRxBase : f reg0fFifoRxBaseAddr = 0
  hopPeriod : f reg24HopPeriod = 0
  frequency : f reg06FrfMsb = 0x6d ∧ f reg07FrfMid = 0x86 ∧ f reg08FrfLsb = 0x66
  preamble : f reg20PreambleMsb = 0 ∧ f reg21PreambleLsb = 8
  bandwidth : bitsGet (f reg1dModemConfig1).toUInt32 4 7 = 7 ∧ f 0x2F = 0x40 ∧ f 0x30 = 0
  codingRate : bitsGet (f reg1dModemConfig1).toUInt32 1 3 = 1
  spreadingFactor : bitsGet (f reg1eModemConfig2).toUInt32 4 7 = 7
  crc : bitIsOn (f reg1eModemConfig2).toUInt32 2 = 1
  modemConfig3 : f reg26ModemConfig3 = 0x04
  paRamp : bitsGet (f reg0aPaRamp).toUInt32 0 3 = 0
  lnaBoost : bitsGet (f reg0cLna).toUInt32 0 1 = 3
  paOutputPin : bitIsOn (f reg09PaConfig).toUInt32 7 = 1
  power : if r.maxPower then f reg0bOcp = 0x3F ∧ f reg09PaConfig = 0xFF ∧
      bitsGet (f reg4dPaDac).toUInt32 0 4 = 7
    else bitsGet (f reg09PaConfig).toUInt32 0 3 = 0 ∧ bitsGet (f reg4dPaDac).toUInt32 0 4 = 4

section Init

variable {v : Vars} {f : Registers}

theorem sets_frequency (inFlight : Bool) : Sets v (setFrequency inFlight frequency) f ()
    (Function.update (Function.update (Function.update f reg06FrfMsb 0x6d) reg07FrfMid 0x86)
      reg08FrfLsb 0x66) := by
  have hput : Sets v (do
      put8 reg06FrfMsb 0x6d
      put8 reg07FrfMid 0x86
      put8 reg08FrfLsb 0x66) f () _ :=
    (Sets.put8 (by decide) _).bind ((Sets.put8 (by decide) _).bind (Sets.put8 (by decide) _))
  cases inFlight with
  | true => exact hput
  | false => exact hput

theorem sets_setPreambleLength : Sets v (setPreambleLength 8) f ()
    (Function.update (Function.update f reg20PreambleMsb 0) reg21PreambleLsb 8) :=
  (Sets.put8 (by decide) _).bind (Sets.put8 (by decide) _)

theorem sets_getPreambleLength : Sets v getPreambleLength f
    (((f reg20PreambleMsb).toUInt16 <<< 8) ||| (f reg21PreambleLsb).toUInt16) f :=
  (Sets.get8 (by decide)).bind ((Sets.get8 (by decide)).bind (Sets.pure _))

theorem sets_setBandwidth : Sets v (setBandwidth bandwidth) f ()
    (Function.update (Function.update (Function.update f reg1dModemConfig1
      (bitsSet (f reg1dModemConfig1).toUInt32 4 7 7).toUInt8) 0x2F 0x40) 0x30 0) :=
  (Sets.change8 (by decide) _).bind ((Sets.put8 (by decide) _).bind (Sets.put8 (by decide) _))

theorem sets_setCodingRate : Sets v (setCodingRate 5) f () (Function.update f reg1dModemConfig1
    (bitsSet (f reg1dModemConfig1).toUInt32 1 3 1).toUInt8) :=
  Sets.change8 (by decide) (bitsSet · 1 3 1)

theorem sets_setSpreadingFactor : Sets v (setSpreadingFactor 7) f ()
    (Function.update f reg1eModemConfig2 (bitsSet (f reg1eModemConfig2).toUInt32 4 7 7).toUInt8) :=
  Sets.change8 (by decide) (bitsSet · 4 7 7)

theorem sets_setCrc : Sets v (setCrc true) f () (Function.update f reg1eModemConfig2
    (bitSet (f reg1eModemConfig2).toUInt32 2).toUInt8) :=
  Sets.change8 (by decide) (bitSet · 2)

theorem sets_setPaRamp : Sets v (setPaRamp 0) f () (Function.update f reg0aPaRamp
    (bitsSet (f reg0aPaRamp).toUInt32 0 3 0).toUInt8) :=
  Sets.change8 (by decide) (bitsSet · 0 3 0)

theorem sets_setLnaBoost : Sets v (setLnaBoost 0b11) f () (Function.update f reg0cLna
    (bitsSet (f reg0cLna).toUInt32 0 1 3).toUInt8) :=
  Sets.change8 (by decide) (bitsSet · 0 1 3)

theorem sets_setAgc : Sets v (setAgc true) f () (Function.update f reg26ModemConfig3
    (bitSet (f reg26ModemConfig3).toUInt32 2).toUInt8) :=
  Sets.change8 (by decide) (bitSet · 2)

/-- A getter of a field. -/
theorem sets_field {α : Type} {a : UInt8} (ha : Chip.Steady a) (g : UInt8 → α) :
    Sets v (get8 a >>= fun c => pure (g c)) f (g (f a)) f :=
  (Sets.get8 ha).bind (Sets.pure _)

theorem sets_getBandwidth : Sets v getBandwidth f
    (bwBins.getD (bitsGet (f reg1dModemConfig1).toUInt32 4 7).toNat 500000) f :=
  sets_field (by decide) fun c => bwBins.getD (bitsGet c.toUInt32 4 7).toNat 500000

theorem sets_getCodingRate : Sets v getCodingRate f
    (bitsGet (f reg1dModemConfig1).toUInt32 1 3 + 4).toUInt8 f :=
  sets_field (by decide) fun c => (bitsGet c.toUInt32 1 3 + 4).toUInt8

theorem sets_getSpreadingFactor : Sets v getSpreadingFactor f
    (bitsGet (f reg1eModemConfig2).toUInt32 4 7).toUInt8 f :=
  sets_field (by decide) fun c => (bitsGet c.toUInt32 4 7).toUInt8

theorem sets_isCrcEnabled : Sets v isCrcEnabled f
    (bitIsOn (f reg1eModemConfig2).toUInt32 2).toUInt8 f :=
  sets_field (by decide) fun c => (bitIsOn c.toUInt32 2).toUInt8

theorem sets_getTxPower : Sets v getTxPower f
    (if v.highPower then ((bitsGet (f reg09PaConfig).toUInt32 0 3).toUInt8.toNat : Int) + 5
      else ((bitsGet (f reg09PaConfig).toUInt32 0 3).toUInt8.toNat : Int) - 1) f :=
  Sets.vars_bind ((sets_field (by decide) fun c => (bitsGet c.toUInt32 0 3).toUInt8).bind
    (Sets.pure _))

theorem sets_getPaRamp : Sets v getPaRamp f (bitsGet (f reg0aPaRamp).toUInt32 0 3).toUInt8 f :=
  sets_field (by decide) fun c => (bitsGet c.toUInt32 0 3).toUInt8

theorem sets_getLnaBoost : Sets v getLnaBoost f (bitsGet (f reg0cLna).toUInt32 0 1).toUInt8 f :=
  sets_field (by decide) fun c => (bitsGet c.toUInt32 0 1).toUInt8

theorem sets_isAgcOn : Sets v isAgcOn f (bitIsOn (f reg26ModemConfig3).toUInt32 2).toUInt8 f :=
  sets_field (by decide) fun c => (bitIsOn c.toUInt32 2).toUInt8

/-- The power, by the board. -/
def powered (r : Vars) (f : Registers) : Registers :=
  if r.maxPower then
    let f := Function.update f reg0bOcp 0x3F
    let f := Function.update f reg4dPaDac (bitsSet (f reg4dPaDac).toUInt32 0 4 7).toUInt8
    let f := Function.update f reg09PaConfig (bitSet (f reg09PaConfig).toUInt32 7).toUInt8
    let f := Function.update f reg09PaConfig (bitsSet (f reg09PaConfig).toUInt32 4 6 7).toUInt8
    Function.update f reg09PaConfig (bitsSet (f reg09PaConfig).toUInt32 0 3 0x0F).toUInt8
  else
    let f := Function.update f reg4dPaDac (bitsSet (f reg4dPaDac).toUInt32 0 4 4).toUInt8
    let f := Function.update f reg09PaConfig (bitSet (f reg09PaConfig).toUInt32 7).toUInt8
    Function.update f reg09PaConfig (bitsSet (f reg09PaConfig).toUInt32 0 3 0).toUInt8

theorem powered_of_ne {r : UInt8} (h09 : r ≠ reg09PaConfig) (h0b : r ≠ reg0bOcp)
    (h4d : r ≠ reg4dPaDac) : powered v f r = f r := by
  unfold powered
  split
  · dsimp only
    rw [Function.update_of_ne h09, Function.update_of_ne h09, Function.update_of_ne h09,
      Function.update_of_ne h4d, Function.update_of_ne h0b]
  · dsimp only
    rw [Function.update_of_ne h09, Function.update_of_ne h09, Function.update_of_ne h4d]

theorem maxPower_paConfig : ∀ c : UInt8,
    (bitsSet (bitsSet (bitSet c.toUInt32 7).toUInt8.toUInt32 4 6 7).toUInt8.toUInt32 0 3
      0x0F).toUInt8 = 0xFF := by
  decide +kernel

/-- What the power is set to. -/
theorem powered_power : bitIsOn (powered v f reg09PaConfig).toUInt32 7 = 1 ∧
    if v.maxPower then powered v f reg0bOcp = 0x3F ∧ powered v f reg09PaConfig = 0xFF ∧
      bitsGet (powered v f reg4dPaDac).toUInt32 0 4 = 7
    else bitsGet (powered v f reg09PaConfig).toUInt32 0 3 = 0 ∧
      bitsGet (powered v f reg4dPaDac).toUInt32 0 4 = 4 := by
  by_cases hmax : v.maxPower = true
  · have hconfig : powered v f reg09PaConfig = 0xFF := by
      rw [powered, if_pos hmax]
      exact maxPower_paConfig (f reg09PaConfig)
    rw [if_pos hmax, hconfig]
    refine ⟨by decide, ?_, rfl, ?_⟩
    · rw [powered, if_pos hmax]
      rfl
    · rw [powered, if_pos hmax]
      exact bitsGet_bitsSet (by decide) (by decide) _ (by decide)
  · have hconfig : powered v f reg09PaConfig = (bitsSet (bitSet (f reg09PaConfig).toUInt32 7
        ).toUInt8.toUInt32 0 3 0).toUInt8 := by
      rw [powered, if_neg hmax]
      rfl
    rw [if_neg hmax, hconfig]
    refine ⟨?_, bitsGet_bitsSet (by decide) (by decide) _ (by decide), ?_⟩
    · rw [bitIsOn_bitsSet (by decide) (by decide) (by decide) (by decide) (by decide),
        bitIsOn_bitSet (by decide)]
    · rw [powered, if_neg hmax]
      exact bitsGet_bitsSet (by decide) (by decide) _ (by decide)

/-- The registers that are written behind the preamble. -/
def laterRegisters : List UInt8 := [reg1dModemConfig1, 0x2F, 0x30, reg1eModemConfig2,
  reg26ModemConfig3, reg4dPaDac, reg09PaConfig, reg0bOcp, reg0aPaRamp, reg0cLna]

theorem sets_txPower (hpower : v.highPower = true) : Sets v (setTxPower 5) f () (powered v f) := by
  refine Sets.vars_bind ?_
  unfold powered
  split
  · refine Sets.bind (Sets.put8 (by decide) _) ?_
    refine Sets.bind (Sets.change8 (by decide) _) ?_
    refine Sets.bind (Sets.change8 (by decide) _) ?_
    exact Sets.bind (Sets.change8 (by decide) _) (Sets.change8 (by decide) _)
  · dsimp only
    refine Sets.bind (Sets.change8 (by decide) _) ?_
    exact Sets.bind (Sets.change8 (by decide) _) (Sets.change8 (by decide) _)

/-- The part of `rfm9x_init` in LoRa mode: its assertions hold. -/
theorem sets_configure (pico inFlight : Bool) (hv : v = ⟨true, !pico, 0⟩) :
    SetsTo v (configure inFlight) f (Configured v) := by
  refine (Sets.put8 (by decide) _).andThen ?_
  refine (Sets.put8 (by decide) _).andThen ?_
  refine (Sets.put8 (by decide) _).andThen ?_
  refine (Sets.setMode (by decide)).andThen ?_
  refine (sets_frequency inFlight).andThen ?_
  refine sets_setPreambleLength.andThen ?_
  generalize hf₁ : Function.update _ reg21PreambleLsb _ = f₁
  have hpreamble : f₁ reg20PreambleMsb = 0 ∧ f₁ reg21PreambleLsb = 8 := by
    subst hf₁
    exact ⟨rfl, rfl⟩
  refine sets_getPreambleLength.andThen ?_
  refine (Sets.assert (by rw [hpreamble.1, hpreamble.2]; decide)).andThen ?_
  refine sets_setBandwidth.andThen ?_
  generalize hf₂ : Function.update _ (0x30 : UInt8) _ = f₂
  have hbandwidth : bitsGet (f₂ reg1dModemConfig1).toUInt32 4 7 = 7 := by
    subst hf₂
    exact bitsGet_bitsSet (by decide) (by decide) _ (by decide)
  refine sets_getBandwidth.andThen ?_
  refine (Sets.assert (by rw [hbandwidth]; decide)).andThen ?_
  refine sets_setCodingRate.andThen ?_
  generalize hf₃ : Function.update _ reg1dModemConfig1 _ = f₃
  have hcodingRate : bitsGet (f₃ reg1dModemConfig1).toUInt32 1 3 = 1 := by
    subst hf₃
    exact bitsGet_bitsSet (by decide) (by decide) _ (by decide)
  refine sets_getCodingRate.andThen ?_
  refine (Sets.assert (by rw [hcodingRate]; decide)).andThen ?_
  refine sets_setSpreadingFactor.andThen ?_
  generalize hf₄ : Function.update _ reg1eModemConfig2 _ = f₄
  have hspreadingFactor : bitsGet (f₄ reg1eModemConfig2).toUInt32 4 7 = 7 := by
    subst hf₄
    exact bitsGet_bitsSet (by decide) (by decide) _ (by decide)
  refine sets_getSpreadingFactor.andThen ?_
  refine (Sets.assert (by rw [hspreadingFactor]; decide)).andThen ?_
  refine sets_setCrc.andThen ?_
  generalize hf₅ : Function.update _ reg1eModemConfig2 _ = f₅
  have hcrc : bitIsOn (f₅ reg1eModemConfig2).toUInt32 2 = 1 := by
    subst hf₅
    exact bitIsOn_bitSet (by decide) _
  refine sets_isCrcEnabled.andThen ?_
  refine (Sets.assert (by rw [hcrc]; decide)).andThen ?_
  refine (Sets.put8 (by decide) _).andThen ?_
  refine (sets_txPower (by rw [hv])).andThen ?_
  generalize hf₆ : powered v _ = f₆
  have htail : SetsTo v (do
      setPaRamp 0
      assert ((← getPaRamp) = 0)
      setLnaBoost 0b11
      assert ((← getLnaBoost) = 0b11)
      setAgc true
      assert ((← isAgcOn) = 1)) f₆ (Configured v) := by
    refine sets_setPaRamp.andThen ?_
    generalize hf₇ : Function.update _ reg0aPaRamp _ = f₇
    have hramp : bitsGet (f₇ reg0aPaRamp).toUInt32 0 3 = 0 := by
      subst hf₇
      exact bitsGet_bitsSet (by decide) (by decide) _ (by decide)
    refine sets_getPaRamp.andThen ?_
    refine (Sets.assert (by rw [hramp]; decide)).andThen ?_
    refine sets_setLnaBoost.andThen ?_
    generalize hf₈ : Function.update _ reg0cLna _ = f₈
    have hboost : bitsGet (f₈ reg0cLna).toUInt32 0 1 = 3 := by
      subst hf₈
      exact bitsGet_bitsSet (by decide) (by decide) _ (by decide)
    refine sets_getLnaBoost.andThen ?_
    refine (Sets.assert (by rw [hboost]; decide)).andThen ?_
    refine sets_setAgc.andThen ?_
    generalize hf₉ : Function.update _ reg26ModemConfig3 _ = f₉
    have hagc : bitIsOn (f₉ reg26ModemConfig3).toUInt32 2 = 1 := by
      subst hf₉
      exact bitIsOn_bitSet (by decide) _
    refine sets_isAgcOn.andThen ?_
    refine Sets.setsTo (Sets.assert (by rw [hagc]; decide)) ?_
    -- each register as it was when it was written last
    have h₁ (r : UInt8) (hr : r ∉ laterRegisters) : f₉ r = f₁ r := by
      simp only [laterRegisters, List.mem_cons, List.not_mem_nil, or_false, not_or] at hr
      obtain ⟨h1d, h2f, h30, h1e, h26, h4d, h09, h0b, h0a, h0c⟩ := hr
      subst hf₉ hf₈ hf₇ hf₆ hf₅ hf₄ hf₃ hf₂
      rw [Function.update_of_ne h26, Function.update_of_ne h0c, Function.update_of_ne h0a,
        powered_of_ne h09 h0b h4d, Function.update_of_ne h26, Function.update_of_ne h1e,
        Function.update_of_ne h1e, Function.update_of_ne h1d, Function.update_of_ne h30,
        Function.update_of_ne h2f, Function.update_of_ne h1d]
    have h₆ (r : UInt8) (hr : r ∉ [reg26ModemConfig3, reg0aPaRamp, reg0cLna]) :
        f₉ r = f₆ r := by
      simp only [List.mem_cons, List.not_mem_nil, or_false, not_or] at hr
      obtain ⟨h26, h0a, h0c⟩ := hr
      subst hf₉ hf₈ hf₇
      rw [Function.update_of_ne h26, Function.update_of_ne h0c, Function.update_of_ne h0a]
    have h1d : f₉ reg1dModemConfig1 = f₃ reg1dModemConfig1 := by
      subst hf₉ hf₈ hf₇ hf₆ hf₅ hf₄
      exact powered_of_ne (by decide) (by decide) (by decide)
    have h1e : f₉ reg1eModemConfig2 = f₅ reg1eModemConfig2 := by
      subst hf₉ hf₈ hf₇ hf₆
      exact powered_of_ne (by decide) (by decide) (by decide)
    obtain ⟨hpin, hpower⟩ := powered_power (v := v) (f := Function.update f₅ reg26ModemConfig3 0)
    rw [hf₆, ← h₆ reg09PaConfig (by decide), ← h₆ reg0bOcp (by decide),
      ← h₆ reg4dPaDac (by decide)] at hpower
    rw [hf₆, ← h₆ reg09PaConfig (by decide)] at hpin
    refine { fifoTxBase := ?_, fifoRxBase := ?_, hopPeriod := ?_, frequency := ?_,
             preamble := ?_, bandwidth := ?_, codingRate := ?_, spreadingFactor := ?_, crc := ?_,
             modemConfig3 := ?_, paRamp := ?_, lnaBoost := ?_, paOutputPin := hpin,
             power := hpower }
    · rw [h₁ _ (by decide), ← hf₁]
      rfl
    · rw [h₁ _ (by decide), ← hf₁]
      rfl
    · rw [h₁ _ (by decide), ← hf₁]
      rfl
    · rw [h₁ _ (by decide), h₁ _ (by decide), h₁ _ (by decide), ← hf₁]
      exact ⟨rfl, rfl, rfl⟩
    · rw [h₁ _ (by decide), h₁ _ (by decide)]
      exact hpreamble
    · refine ⟨?_, ?_, ?_⟩
      · rw [h1d, ← hf₃]
        exact (bitsGet_of_disjoint (by decide) (by decide) (by decide) (by decide) (by decide) _
          (by decide)).trans hbandwidth
      · subst hf₉ hf₈ hf₇ hf₆ hf₅ hf₄ hf₃ hf₂
        exact powered_of_ne (by decide) (by decide) (by decide)
      · subst hf₉ hf₈ hf₇ hf₆ hf₅ hf₄ hf₃ hf₂
        exact powered_of_ne (by decide) (by decide) (by decide)
    · rw [h1d]
      exact hcodingRate
    · rw [h1e, ← hf₅]
      exact (bitsGet_bitSet (by decide) (by decide) (by decide) (by decide) _).trans
        hspreadingFactor
    · rw [h1e]
      exact hcrc
    · have hzero : f₈ reg26ModemConfig3 = 0 := by
        subst hf₈ hf₇ hf₆
        exact powered_of_ne (by decide) (by decide) (by decide)
      rw [← hf₉, Function.update_self, hzero]
      decide
    · subst hf₉ hf₈
      exact hramp
    · subst hf₉
      exact hboost
  refine SetsTo.vars_bind ?_
  show SetsTo v (if ¬v.maxPower = true then getTxPower >>= fun p => assert (p = 5) >>= fun _ => _
    else getTxPower >>= fun _ => _) f₆ _
  split
  · refine sets_getTxPower.andThen ?_
    refine (Sets.assert ?_).andThen htail
    next hmax =>
    obtain ⟨-, hpower⟩ := powered_power (v := v) (f := Function.update f₅ reg26ModemConfig3 0)
    rw [if_neg hmax, hf₆] at hpower
    rw [hpower.1, if_pos (by rw [hv])]
    decide
  · exact sets_getTxPower.andThen htail

end Init

/-! ### Into LoRa mode -/

/-- A chip that does not transmit changes its mode by no event. -/
theorem Bus.shared_settle {b : Bus} (hmode : b.chip.mode ≠ 3) :
    b.settle.chip.shared = b.chip.shared := by
  refine Bus.settle_of (P := fun c => c.shared = b.chip.shared) (fun c e hc => ?_) rfl
  have hc3 : c.mode ≠ 3 := by
    rw [Chip.mode, hc]
    exact hmode
  cases e with
  | txDone =>
    rw [Chip.event, if_neg fun h => hc3 h.2]
    exact hc
  | rxDone start frame =>
    rw [Chip.event]
    split <;> exact hc
  | status a x =>
    rw [Chip.event]
    split <;> exact hc

theorem lora_bits : ∀ x : UInt8, x &&& 0x40 = 0 → (bitSet x.toUInt32 7).toUInt8 &&& 0xC0 = 0x80 := by
  decide +kernel

/-- In sleep mode the chip can be switched to LoRa. -/
theorem gives_setLora {v : Vars} {b : Bus} (hmode : b.chip.mode = 0)
    (hshared : b.chip.shared 0x01 &&& 0x40 = 0) :
    Gives Bus.serve v b (setLora true) fun _ w b' => w = v ∧ b'.chip.inLora = true := by
  have hfirst : b.settle.chip.shared = b.chip.shared := Bus.shared_settle (by rw [hmode]; decide)
  have hsecond : b.settle.settle.chip.shared = b.chip.shared := by
    rw [Bus.shared_settle, hfirst]
    rw [Chip.mode, hfirst]
    show b.chip.mode ≠ 3
    rw [hmode]
    decide
  have hasleep : b.settle.settle.chip.mode = 0 := by
    rw [Chip.mode, hsecond]
    exact hmode
  unfold Gives
  rw [setLora, exec_change8 (by decide)]
  refine ⟨rfl, ?_⟩
  have hread : b.settle.chip.get 0x01 = b.chip.shared 0x01 := congrFun hfirst 0x01
  have hput (x : UInt8) : (b.settle.settle.chip.put 0x01 x).shared 0x01 = x := by
    rw [Chip.put, if_pos rfl, Chip.putOpMode, if_pos hasleep]
    dsimp only
    split <;> simp only [Function.update_self]
  show (Chip.put 0x01 _ b.settle.settle.chip).inLora = true
  rw [hread, Chip.inLora, hput]
  exact decide_eq_true (lora_bits _ hshared)

theorem gives_setMode {v : Vars} {b : Bus} {m : UInt8} (hm : m < 8) :
    Gives Bus.serve v b (setMode m) fun _ w b' =>
      w = v ∧ b'.chip.mode = m ∧ b'.chip.upper = b.chip.upper := by
  unfold Gives
  rw [exec_setMode hm]
  refine ⟨rfl, Chip.mode_inMode _ hm, ?_⟩
  show (Chip.inMode m b.settle.settle.chip).upper = _
  rw [Chip.upper_inMode _ hm, Bus.upper_settle, Bus.upper_settle]

theorem gives_triggerOscCalibration {v : Vars} {b : Bus} :
    Gives Bus.serve v b triggerOscCalibration fun _ w b' => w = v ∧ b'.chip.upper = b.chip.upper := by
  unfold Gives
  rw [triggerOscCalibration, exec_change8 (by decide)]
  refine ⟨rfl, ?_⟩
  have hput (c : Chip) (x : UInt8) : (c.put reg24HopPeriod x).upper = c.upper := by
    rw [Chip.put, if_neg (by decide), if_pos (by decide)]
    split
    · rw [if_neg (by decide)]
      rfl
    · rfl
  show (Chip.put reg24HopPeriod _ b.settle.settle.chip).upper = _
  rw [hput, Bus.upper_settle, Bus.upper_settle]

theorem upper_bit : ∀ x : UInt8, (x &&& 0xF8) &&& 0x40 = x &&& 0x40 := by decide +kernel

/-- **`rfm9x_init` configures the radio**, from any registers, as long as they are not those in which
the pages are exchanged, and whatever the chip does by itself meanwhile: none of its assertions
fails, and it leaves the chip in LoRa mode with the configuration. -/
theorem init_configures {b : Bus} (hreset : b.chip.shared reg01OpMode &&& 0x40 = 0)
    (pico inFlight : Bool) :
    Gives Bus.serve mk b (init pico inFlight) fun _ w b' => w = ⟨true, !pico, 0⟩ ∧
      ∃ f, b'.chip.Has Chip.Steady f ∧ Configured w f := by
  have hvars : (if pico then mk else { mk with maxPower := true }) = ⟨true, !pico, 0⟩ := by
    cases pico <;> rfl
  refine Gives.modify_bind ?_
  rw [hvars]
  refine Gives.bind (gives_setMode (by decide)) ?_
  rintro - w b₁ ⟨rfl, -, hupper₁⟩
  refine Gives.bind gives_triggerOscCalibration ?_
  rintro - w b₂ ⟨rfl, hupper₂⟩
  refine Gives.bind (gives_setMode (by decide)) ?_
  rintro - w b₃ ⟨rfl, hmode₃, hupper₃⟩
  have hbit : b₃.chip.shared 0x01 &&& 0x40 = 0 := by
    rw [← upper_bit]
    show b₃.chip.upper &&& 0x40 = 0
    rw [hupper₃, hupper₂, hupper₁, Chip.upper, upper_bit]
    exact hreset
  refine Gives.bind (gives_setLora hmode₃ hbit) ?_
  rintro - w b₄ ⟨rfl, hlora⟩
  refine (sets_configure pico inFlight rfl b₄ ⟨hlora, fun _ _ => rfl⟩).mono ?_
  rintro - w b' ⟨rfl, hconfigured⟩
  exact ⟨rfl, hconfigured⟩

/-- The chip behind a reset, with frames on the air that it does not hear. -/
def busAtReset : Bus where
  chip := ⟨fun a => if a = reg01OpMode then 0x09 else 0xA5, fun _ => 0x5A, fun _ => 0xFF, fun _ => 0,
    [], []⟩
  coming := List.replicate 40 [.rxDone 0 ⟨[1, 2, 3], false⟩, .status 0x1A 7]

/-- The flight board. -/
theorem init_configures_at_reset :
    Gives Bus.serve mk busAtReset (init false true) fun _ w b' => w = ⟨true, !false, 0⟩ ∧
      ∃ f, b'.chip.Has Chip.Steady f ∧ Configured w f :=
  init_configures (by decide) false true

end Samwise.Rfm9x
