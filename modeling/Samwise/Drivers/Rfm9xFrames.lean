import Samwise.Drivers.Rfm9xInterrupts
import Samwise.Radio.ReceiveAccounting

/-!
# Samwise — frames over the radio's bus

What `rfm9x_packet_from_fifo` and `rfm9x_packet_to_fifo` move between the program and the chip, while
the chip goes on by itself. In standby mode it neither takes frames in nor ends a transmission: it is
the `Same` but for readings of the signal. What is read is what the receiver that counts frames
(`RxChip`) reads, and what is loaded is what the chip transmits.
-/

namespace Samwise

namespace RxChip

variable {c : RxChip}

theorem packetFromFifo_of_failed (h : c.isCrcEnabled ≠ 0 ∧ c.crcError ≠ 0) :
    c.packetFromFifo.2 = (0, []) ∧ c.packetFromFifo.1.fifoAddrPtr = c.fifoAddrPtr := by
  have hcond : (c.setMode standbyMode).isCrcEnabled ≠ 0 ∧ (c.setMode standbyMode).crcError ≠ 0 := h
  rw [packetFromFifo, if_pos hcond]
  exact ⟨rfl, rfl⟩

theorem packetFromFifo_of_empty (h : ¬(c.isCrcEnabled ≠ 0 ∧ c.crcError ≠ 0))
    (hempty : ¬ c.rxNbBytes > 0) : c.packetFromFifo.2 = (c.rxNbBytes, []) ∧
      c.packetFromFifo.1.fifoAddrPtr = c.fifoAddrPtr := by
  have hcond : ¬((c.setMode standbyMode).isCrcEnabled ≠ 0 ∧ (c.setMode standbyMode).crcError ≠ 0) :=
    h
  have hlength : ¬ (c.setMode standbyMode).rxNbBytes > 0 := hempty
  rw [packetFromFifo, if_neg hcond, if_neg hlength]
  exact ⟨rfl, rfl⟩

theorem packetFromFifo_of_frame (h : ¬(c.isCrcEnabled ≠ 0 ∧ c.crcError ≠ 0))
    (hframe : c.rxNbBytes > 0) : c.packetFromFifo.2 = (c.rxNbBytes,
      (List.range c.rxNbBytes.toNat).map fun i => c.memory (c.fifoRxCurrentAddr + UInt8.ofNat i)) ∧
      c.packetFromFifo.1.fifoAddrPtr = c.fifoRxCurrentAddr + c.rxNbBytes := by
  have hcond : ¬((c.setMode standbyMode).isCrcEnabled ≠ 0 ∧ (c.setMode standbyMode).crcError ≠ 0) :=
    h
  have hlength : (c.setMode standbyMode).rxNbBytes > 0 := hframe
  rw [packetFromFifo, if_neg hcond, if_pos hlength]
  exact ⟨rfl, rfl⟩

end RxChip

namespace Rfm9x

open Interaction Prog

/-! ## Standby -/

/-- The chip `c'` is `c` but for readings of the signal. -/
structure Chip.Same (c c' : Chip) : Prop where
  shared : c'.shared = c.shared
  lora : ∀ a, ¬ IsStatus a → c'.lora a = c.lora a
  memory : c'.memory = c.memory
  begun : c'.begun = c.begun
  received : c'.received = c.received

/-- In LoRa mode, and neither receiving nor transmitting. -/
structure Chip.Still (c : Chip) : Prop where
  inLora : c.inLora = true
  mode : c.mode = 1

namespace Chip.Same

variable {c c' : Chip}

theorem refl (c : Chip) : c.Same c := ⟨rfl, fun _ _ => rfl, rfl, rfl, rfl⟩

theorem inLora (h : c.Same c') : c'.inLora = c.inLora := by
  rw [Chip.inLora, h.shared, Chip.inLora]

theorem mode (h : c.Same c') : c'.mode = c.mode := by
  rw [Chip.mode, h.shared, Chip.mode]

theorem event (h : c.Same c') (hstill : c.Still) (e : Event) : c.Same (c'.event e) := by
  have hmode : c'.mode = 1 := h.mode.trans hstill.mode
  cases e with
  | txDone =>
    rw [Chip.event, if_neg fun hdone => absurd (hmode.symm.trans hdone.2) (by decide)]
    exact h
  | rxDone start frame =>
    rw [Chip.event, if_neg fun hdone => absurd (hmode.symm.trans hdone.2.1) (by decide)]
    exact h
  | status a x =>
    rw [Chip.event]
    split
    · next ha =>
      refine ⟨h.shared, fun r hr => ?_, h.memory, h.begun, h.received⟩
      have hne : r ≠ a := fun heq => hr (heq ▸ ha)
      exact (Function.update_of_ne hne _ _).trans (h.lora r hr)
    · exact h

theorem settle {b : Bus} (h : c.Same b.chip) (hstill : c.Still) : c.Same b.settle.chip :=
  Bus.settle_of (fun _ e hc => hc.event hstill e) h

/-- A LoRa register. -/
theorem get (h : c.Same c') (hstill : c.Still) {a : UInt8} (hpaged : Paged a) (ha : ¬ IsStatus a) :
    c'.get a = c.lora a := by
  rw [Chip.get, if_pos hpaged, if_pos (h.inLora.trans hstill.inLora), h.lora a ha]

theorem setLora (h : c.Same c') (a x : UInt8) :
    Chip.Same { c with lora := Function.update c.lora a x }
      { c' with lora := Function.update c'.lora a x } := by
  refine ⟨h.shared, fun r hr => ?_, h.memory, h.begun, h.received⟩
  show Function.update c'.lora a x r = Function.update c.lora a x r
  by_cases hra : r = a
  · rw [hra, Function.update_self, Function.update_self]
  · rw [Function.update_of_ne hra, Function.update_of_ne hra, h.lora r hr]

theorem setMemory (h : c.Same c') (memory : UInt8 → UInt8) :
    Chip.Same { c with memory } { c' with memory } :=
  ⟨h.shared, h.lora, rfl, h.begun, h.received⟩

theorem fifoNext (h : c.Same c') : c.fifoNext.Same c'.fifoNext := by
  unfold Chip.fifoNext
  rw [h.lora 0x0D (by decide)]
  exact h.setLora 0x0D _

theorem readFifo (h : c.Same c') (n : Nat) : (c'.readBurst 0x00 n).1 = (c.readBurst 0x00 n).1 ∧
    (c.readBurst 0x00 n).2.Same (c'.readBurst 0x00 n).2 := by
  induction n generalizing c c' with
  | zero => exact ⟨rfl, h⟩
  | succ n ih =>
    obtain ⟨hbytes, hsame⟩ := ih h.fifoNext
    rw [readBurst, if_pos rfl, readBurst, if_pos rfl]
    refine ⟨?_, hsame⟩
    rw [h.memory, h.lora 0x0D (by decide)]
    exact congrArg (List.cons _) hbytes

theorem writeFifo (h : c.Same c') (bytes : List UInt8) :
    (c.writeBurst 0x00 bytes).Same (c'.writeBurst 0x00 bytes) := by
  induction bytes generalizing c c' with
  | nil => exact h
  | cons b bytes ih =>
    rw [writeBurst, if_pos rfl, writeBurst, if_pos rfl, h.memory, h.lora 0x0D (by decide)]
    exact ih (h.fifoNext.setMemory _)

theorem put (h : c.Same c') (hstill : c.Still) {a : UInt8} (h01 : a ≠ 0x01) (h12 : a ≠ 0x12)
    (hpaged : Paged a) (x : UInt8) :
    Chip.Same { c with lora := Function.update c.lora a x } (c'.put a x) := by
  rw [put_of_ne (h.inLora.trans hstill.inLora) h01 h12, if_pos hpaged]
  exact h.setLora a x

theorem toTransmit (h : c.Same c') : c'.toTransmit = c.toTransmit := by
  rw [Chip.toTransmit, h.lora 0x22 (by decide), h.lora 0x0E (by decide), h.memory, Chip.toTransmit]

theorem inMode (h : c.Same c') (m : UInt8) : (c.inMode m).Same (c'.inMode m) := by
  have hshared : (c'.inMode m).shared = (c.inMode m).shared := by
    unfold Chip.inMode Chip.upper
    rw [h.shared]
    dsimp only
    split <;> split <;> rfl
  refine ⟨hshared, ?_, ?_, ?_, ?_⟩
  · rw [lora_inMode, lora_inMode]
    exact h.lora
  · rw [memory_inMode, memory_inMode]
    exact h.memory
  · rw [begun_inMode, begun_inMode, h.inLora, h.mode, h.begun, h.toTransmit]
  · rw [received_inMode, received_inMode]
    exact h.received

end Chip.Same

namespace Chip.Still

variable {c : Chip}

theorem setLora (h : c.Still) (a x : UInt8) :
    Chip.Still { c with lora := Function.update c.lora a x } := ⟨h.inLora, h.mode⟩

theorem inMode (hlora : c.inLora = true) : (c.inMode standbyMode).Still :=
  ⟨(inLora_inMode c (by decide)).trans hlora, mode_inMode c (by decide)⟩

end Chip.Still

/-! ### Transactions in standby -/

section Still

variable {c : Chip} {b : Bus} {v : Vars}

theorem gives_get8_still (hstill : c.Still) (hb : c.Same b.chip) {a : UInt8} (hregister : IsRegister a)
    (hpaged : Chip.Paged a) (ha : ¬ Chip.IsStatus a) :
    Gives Bus.serve v b (get8 a) fun x w b' => x = c.lora a ∧ w = v ∧ c.Same b'.chip := by
  unfold Gives
  rw [exec_get8 hregister]
  have hsettled := hb.settle hstill
  exact ⟨hsettled.get hstill hpaged ha, rfl, hsettled⟩

theorem gives_put8_still (hstill : c.Still) (hb : c.Same b.chip) {a : UInt8} (hregister : IsRegister a)
    (hpaged : Chip.Paged a) (h12 : a ≠ 0x12) (x : UInt8) :
    Gives Bus.serve v b (put8 a x) fun _ w b' =>
      w = v ∧ Chip.Same { c with lora := Function.update c.lora a x } b'.chip := by
  unfold Gives
  rw [exec_put8 hregister]
  have h01 : a ≠ 0x01 := by
    rintro rfl
    exact absurd hpaged (by decide)
  exact ⟨rfl, (hb.settle hstill).put hstill h01 h12 hpaged x⟩

theorem gives_getFifo (hstill : c.Still) (hb : c.Same b.chip) (n : Nat) :
    Gives Bus.serve v b (getBuf reg00Fifo n) fun bytes w b' =>
      bytes = (c.readBurst 0x00 n).1 ∧ w = v ∧ (c.readBurst 0x00 n).2.Same b'.chip := by
  obtain ⟨hbytes, hsame⟩ := (hb.settle hstill).readFifo n
  refine Gives.perform ?_
  unfold Bus.serve
  rw [Chip.serve_read]
  exact ⟨hbytes, rfl, hsame⟩

theorem gives_putFifo (hstill : c.Still) (hb : c.Same b.chip) (bytes : List UInt8) :
    Gives Bus.serve v b (putBuf reg00Fifo bytes) fun _ w b' =>
      w = v ∧ (c.writeBurst 0x00 bytes).Same b'.chip := by
  refine Gives.perform ?_
  unfold Bus.serve
  rw [Chip.serve_write]
  exact ⟨rfl, (hb.settle hstill).writeFifo bytes⟩

theorem gives_setMode_still (hstill : c.Still) (hb : c.Same b.chip) {m : UInt8} (hm : m < 8) :
    Gives Bus.serve v b (setMode m) fun _ w b' => w = v ∧ (c.inMode m).Same b'.chip := by
  unfold Gives
  rw [exec_setMode hm]
  have hfirst : c.Same b.settle.chip := hb.settle hstill
  exact ⟨rfl, (hfirst.settle hstill).inMode m⟩

end Still

/-! ### Behind the FIFO -/

namespace Chip

/-- The chip of `c` with the pointer of its FIFO elsewhere. -/
def fifoAt (c : Chip) (pointer : UInt8) : Chip :=
  { c with lora := Function.update c.lora 0x0D pointer }

theorem ofNat_zero : UInt8.ofNat 0 = 0 := rfl

theorem readFifo_eq (c : Chip) (n : Nat) : c.readBurst 0x00 n =
    ((List.range n).map fun i => c.memory (c.lora 0x0D + UInt8.ofNat i),
      { c with lora := Function.update c.lora 0x0D (c.lora 0x0D + UInt8.ofNat n) }) := by
  induction n generalizing c with
  | zero =>
    rw [readBurst, ofNat_zero, UInt8.add_zero, Function.update_eq_self]
    rfl
  | succ n ih =>
    have hnext (i : Nat) : c.lora 0x0D + 1 + UInt8.ofNat i = c.lora 0x0D + UInt8.ofNat (i + 1) := by
      rw [UInt8.ofNat_add, UInt8.add_assoc, UInt8.add_comm (UInt8.ofNat i)]
      rfl
    rw [readBurst, if_pos rfl, ih]
    simp only [fifoNext, Function.update_self, Function.update_idem, hnext, List.range_succ_eq_map,
      List.map_cons, List.map_map, ofNat_zero, UInt8.add_zero]
    rfl

/-- The bytes are in the memory, one behind the other, and the rest of it as it was. -/
theorem writeFifo_eq (c : Chip) {bytes : List UInt8} (hlength : bytes.length ≤ 256) :
    c.writeBurst 0x00 bytes =
      { c with
        memory := fun a => bytes[(a - c.lora 0x0D).toNat]?.getD (c.memory a)
        lora := Function.update c.lora 0x0D (c.lora 0x0D + UInt8.ofNat bytes.length) } := by
  induction bytes generalizing c with
  | nil =>
    rw [writeBurst, List.length_nil, ofNat_zero, UInt8.add_zero, Function.update_eq_self]
    rfl
  | cons b bytes ih =>
    rw [List.length_cons] at hlength
    have hpointer : c.lora 0x0D + 1 + UInt8.ofNat bytes.length =
        c.lora 0x0D + UInt8.ofNat (bytes.length + 1) := by
      rw [UInt8.ofNat_add, UInt8.add_assoc, UInt8.add_comm (UInt8.ofNat bytes.length)]
      rfl
    have hmemory : (fun a => bytes[(a - (c.lora 0x0D + 1)).toNat]?.getD
        (Function.update c.memory (c.lora 0x0D) b a)) =
        fun a => (b :: bytes)[(a - c.lora 0x0D).toNat]?.getD (c.memory a) := by
      funext a
      by_cases ha : a = c.lora 0x0D
      · subst ha
        have hlast : (c.lora 0x0D - (c.lora 0x0D + 1)).toNat = 255 := by
          rw [UInt8.toNat_sub, UInt8.toNat_add]
          have hlt := (c.lora 0x0D).toNat_lt
          have hone : (1 : UInt8).toNat = 1 := rfl
          omega
        rw [hlast, List.getElem?_eq_none (by omega), Function.update_self, UInt8.sub_self]
        rfl
      · have hindex : (a - c.lora 0x0D).toNat = (a - (c.lora 0x0D + 1)).toNat + 1 := by
          have hne : a.toNat ≠ (c.lora 0x0D).toNat := fun h => ha (UInt8.toNat_inj.mp h)
          have hlt := a.toNat_lt
          have hlt' := (c.lora 0x0D).toNat_lt
          have hone : (1 : UInt8).toNat = 1 := rfl
          rw [UInt8.toNat_sub, UInt8.toNat_sub, UInt8.toNat_add]
          omega
        rw [hindex, Function.update_of_ne ha, List.getElem?_cons_succ]
    rw [writeBurst, if_pos rfl, ih _ (by omega)]
    simp only [fifoNext, Function.update_self, Function.update_idem, hpointer, hmemory,
      List.length_cons]

/-- The chip of `c` with a packet in its memory, from the beginning on. -/
def loaded (c : Chip) (bytes : List UInt8) : Chip :=
  { c with
    memory := fun a => bytes[a.toNat]?.getD (c.memory a)
    lora := Function.update (Function.update c.lora 0x0D (UInt8.ofNat bytes.length)) 0x22
      (UInt8.ofNat bytes.length) }

/-- A packet of at most 255 bytes that is in the memory from the beginning on is what is
transmitted. -/
theorem toTransmit_loaded (c : Chip) {bytes : List UInt8} (hlength : bytes.length < 256)
    (hbase : c.lora 0x0E = 0) : (c.loaded bytes).toTransmit = bytes := by
  have hpayload : (c.loaded bytes).lora 0x22 = UInt8.ofNat bytes.length := by
    simp only [loaded, Function.update_self]
  have hfrom : (c.loaded bytes).lora 0x0E = 0 := hbase
  rw [toTransmit, hpayload, hfrom, UInt8.toNat_ofNat_of_lt' hlength]
  refine List.ext_getElem (by simp) fun i hi hi' => ?_
  have hindex : (UInt8.ofNat i).toNat = i := UInt8.toNat_ofNat_of_lt' (Nat.lt_trans hi' hlength)
  rw [List.getElem_map, List.getElem_range, UInt8.zero_add]
  simp only [loaded, hindex, List.getElem?_eq_getElem hi', Option.getD_some]

end Chip

/-! ## Packets -/

/-- What the receiver that counts frames has of the chip. -/
def Chip.rxView (c : Chip) : RxChip where
  opMode := c.shared 0x01
  fifoAddrPtr := c.lora 0x0D
  fifoRxCurrentAddr := c.lora 0x10
  irqFlags := c.lora 0x12
  rxNbBytes := c.lora 0x13
  modemConfig2 := c.lora 0x1E
  memory := c.memory

/-- The chip when the driver has read its mode and put it into standby mode. -/
def Bus.atStandby (b : Bus) : Chip := b.settle.settle.settle.chip.inMode standbyMode

section Packets

variable {b : Bus} {v : Vars}

theorem mode_field : ∀ x : UInt8, (bitsGet x.toUInt32 0 2).toUInt8 = x &&& 7 := by decide +kernel

theorem crc_bit : ∀ x : UInt8, (bitIsOn x.toUInt32 2).toUInt8 = x >>> 2 &&& 1 := by decide +kernel

theorem mode_lt : ∀ x : UInt8, x &&& 7 < 8 := by decide +kernel

theorem gives_getMode : Gives Bus.serve v b getMode fun m w b' =>
    m = b.settle.chip.mode ∧ w = v ∧ b' = b.settle := by
  unfold Gives
  rw [getMode, exec_bind, exec_get8 (by decide)]
  exact ⟨mode_field _, rfl, rfl⟩

/-- The mode is read, and standby mode is set. -/
theorem gives_standby_bind {α : Type} {k : UInt8 → Driver α} {Q : α → Vars → Bus → Prop}
    (hk : ∀ b', b.atStandby.Same b'.chip → Gives Bus.serve v b' (k b.settle.chip.mode) Q) :
    Gives Bus.serve v b (getMode >>= fun oldMode => setMode standbyMode >>= fun _ => k oldMode)
      Q := by
  refine Gives.bind gives_getMode ?_
  rintro m w b₁ ⟨rfl, rfl, rfl⟩
  unfold Gives
  rw [exec_bind, exec_setMode (by decide)]
  exact hk _ (Chip.Same.refl _)

theorem still_atStandby (hlora : b.chip.inLora = true) : b.atStandby.Still := by
  refine Chip.Still.inMode ?_
  rw [Bus.inLora_settle, Bus.inLora_settle, Bus.inLora_settle, hlora]

section Standby

variable {c : Chip}

theorem gives_isCrcEnabled (hstill : c.Still) (hb : c.Same b.chip) :
    Gives Bus.serve v b isCrcEnabled fun on w b' =>
      on = c.rxView.isCrcEnabled ∧ w = v ∧ c.Same b'.chip := by
  refine Gives.bind (gives_get8_still (a := reg1eModemConfig2) hstill hb (by decide) (by decide)
    (by decide)) ?_
  rintro x w b' ⟨rfl, rfl, hb'⟩
  exact Gives.pure ⟨crc_bit _, rfl, hb'⟩

theorem gives_crcError (hstill : c.Still) (hb : c.Same b.chip) :
    Gives Bus.serve v b crcError fun error w b' =>
      error = c.rxView.crcError ∧ w = v ∧ c.Same b'.chip := by
  refine Gives.bind (gives_get8_still (a := reg12IrqFlags) hstill hb (by decide) (by decide)
    (by decide)) ?_
  rintro x w b' ⟨rfl, rfl, hb'⟩
  exact Gives.pure ⟨rfl, rfl, hb'⟩

theorem gives_crcFailed (hstill : c.Still) (hb : c.Same b.chip) :
    Gives Bus.serve v b crcFailed fun failed w b' =>
      (failed = true ↔ c.rxView.isCrcEnabled ≠ 0 ∧ c.rxView.crcError ≠ 0) ∧ w = v ∧
        c.Same b'.chip := by
  refine Gives.bind (gives_isCrcEnabled hstill hb) ?_
  rintro on w b₁ ⟨rfl, rfl, hb₁⟩
  refine Gives.ite (fun hon => ?_) fun hoff => ?_
  · refine Gives.bind (gives_crcError hstill hb₁) ?_
    rintro error w b₂ ⟨rfl, rfl, hb₂⟩
    exact Gives.pure ⟨by simp [hon], rfl, hb₂⟩
  · exact Gives.pure ⟨by simp [hoff], rfl, hb₁⟩

/-- Behind standby mode, what the receiver that counts frames does. -/
theorem gives_read {c : Chip} (hstill : c.Still) (hb : c.Same b.chip) {oldMode : UInt8}
    (hold : oldMode < 8) :
    Gives Bus.serve v b (do
      if ← crcFailed then do
        setMode oldMode
        return (0, [])
      else do
        let fifoLength ← get8 reg13RxNbBytes
        if fifoLength > 0 then do
          let currentAddr ← get8 reg10FifoRxCurrentAddr
          put8 reg0dFifoAddrPtr currentAddr
          let buf ← getBuf reg00Fifo fifoLength.toNat
          setMode oldMode
          return (fifoLength, buf)
        else do
          setMode oldMode
          return (fifoLength, []))
      fun r w b' => r = c.rxView.packetFromFifo.2 ∧ w = v ∧
        ((c.fifoAt c.rxView.packetFromFifo.1.fifoAddrPtr).inMode oldMode).Same b'.chip := by
  have hkept : c.fifoAt (c.lora 0x0D) = c := by
    rw [Chip.fifoAt, Function.update_eq_self]
  refine Gives.bind (gives_crcFailed hstill hb) ?_
  rintro failed w b₁ ⟨hfailed, rfl, hb₁⟩
  refine Gives.ite (fun hbad => ?_) fun hgood => ?_
  · obtain ⟨hresult, hpointer⟩ := RxChip.packetFromFifo_of_failed (hfailed.mp hbad)
    rw [hresult, hpointer]
    refine Gives.bind (gives_setMode_still hstill hb₁ hold) ?_
    rintro - w b₂ ⟨rfl, hb₂⟩
    exact Gives.pure ⟨rfl, rfl, hkept.symm ▸ hb₂⟩
  · have hcrc := fun h => hgood (hfailed.mpr h)
    refine Gives.bind (gives_get8_still (a := reg13RxNbBytes) hstill hb₁ (by decide) (by decide)
      (by decide)) ?_
    rintro n w b₂ ⟨rfl, rfl, hb₂⟩
    refine Gives.ite (fun hframe => ?_) fun hempty => ?_
    · obtain ⟨hresult, hpointer⟩ := RxChip.packetFromFifo_of_frame hcrc hframe
      rw [hresult, hpointer]
      refine Gives.bind (gives_get8_still (a := reg10FifoRxCurrentAddr) hstill hb₂ (by decide)
        (by decide) (by decide)) ?_
      rintro address w b₃ ⟨rfl, rfl, hb₃⟩
      refine Gives.bind (gives_put8_still (a := reg0dFifoAddrPtr) hstill hb₃ (by decide)
        (by decide) (by decide) _) ?_
      rintro - w b₄ ⟨rfl, hb₄⟩
      refine Gives.bind (gives_getFifo (hstill.setLora _ _) hb₄ _) ?_
      rintro bytes w b₅ ⟨rfl, rfl, hb₅⟩
      rw [Chip.readFifo_eq] at hb₅ ⊢
      simp only [Function.update_self, Function.update_idem, UInt8.ofNat_toNat] at hb₅ ⊢
      refine Gives.bind (gives_setMode_still (hstill.setLora _ _) hb₅ hold) ?_
      rintro - w b₆ ⟨rfl, hb₆⟩
      exact Gives.pure ⟨rfl, rfl, hb₆⟩
    · obtain ⟨hresult, hpointer⟩ := RxChip.packetFromFifo_of_empty hcrc hempty
      rw [hresult, hpointer]
      refine Gives.bind (gives_setMode_still hstill hb₂ hold) ?_
      rintro - w b₃ ⟨rfl, hb₃⟩
      exact Gives.pure ⟨rfl, rfl, hkept.symm ▸ hb₃⟩

end Standby

/-- **`rfm9x_packet_from_fifo` reads what the receiver that counts frames reads** of the chip as it
is in standby mode, whatever it did before. -/
theorem gives_packetFromFifo (hlora : b.chip.inLora = true) :
    Gives Bus.serve v b packetFromFifo fun r w b' =>
      r = b.atStandby.rxView.packetFromFifo.2 ∧ w = v ∧
        ((b.atStandby.fifoAt b.atStandby.rxView.packetFromFifo.1.fifoAddrPtr).inMode
          b.settle.chip.mode).Same b'.chip :=
  gives_standby_bind fun _ hb' => gives_read (still_atStandby hlora) hb' (mode_lt _)

theorem Chip.begun_event (c : Chip) (e : Chip.Event) : (c.event e).begun = c.begun := by
  cases e <;>
    · unfold Chip.event
      dsimp only
      split <;> rfl

theorem begun_atStandby : b.atStandby.begun = b.chip.begun := by
  have hsettle (b : Bus) : b.settle.chip.begun = b.chip.begun :=
    Bus.settle_of (P := fun c => c.begun = b.chip.begun)
      (fun c e h => (c.begun_event e).trans h) rfl
  rw [Bus.atStandby, Chip.begun_inMode, if_neg fun h => absurd h.2.1 (by decide), hsettle, hsettle,
    hsettle]

/-- A steady LoRa register is not changed on the way into standby mode. -/
theorem lora_atStandby (hlora : b.chip.inLora = true) {a : UInt8} (ha : Chip.Steady a)
    (hpaged : Chip.Paged a) : b.atStandby.lora a = b.chip.lora a := by
  have hhas : b.atStandby.Has Chip.Steady fun r => b.chip.get r := by
    have hb : b.chip.Has Chip.Steady fun r => b.chip.get r := ⟨hlora, fun _ _ => rfl⟩
    exact (Sets.settle (Sets.settle (Sets.settle hb))).inMode (fun _ h => h) (by decide)
  have hget := hhas.2 a ha
  dsimp only at hget
  rwa [Chip.get, if_pos hpaged, if_pos hhas.1, Chip.get, if_pos hpaged, if_pos hlora] at hget

/-- What `rfm9x_packet_to_fifo` does in standby mode. -/
def load (bytes : List UInt8) : Driver Unit := do
  put8 reg0dFifoAddrPtr 0x00
  putBuf reg00Fifo bytes
  put8 reg22PayloadLength (UInt8.ofNat bytes.length)

theorem packetToFifo_eq (bytes : List UInt8) : packetToFifo bytes = getMode >>= fun oldMode =>
    setMode standbyMode >>= fun _ => load bytes >>= fun _ => setMode oldMode := by
  simp only [packetToFifo, load, bind_assoc]

/-- In standby mode nothing disturbs the loading of a packet. -/
theorem gives_load {c : Chip} (hstill : c.Still) (hb : c.Same b.chip) {bytes : List UInt8}
    (hlength : bytes.length < 256) :
    Gives Bus.serve v b (load bytes) fun _ w b' => w = v ∧ (c.loaded bytes).Same b'.chip := by
  refine Gives.bind (gives_put8_still (a := reg0dFifoAddrPtr) hstill hb (by decide) (by decide)
    (by decide) _) ?_
  rintro - w b₂ ⟨rfl, hb₂⟩
  refine Gives.bind (gives_putFifo (hstill.setLora _ _) hb₂ bytes) ?_
  rintro - w b₃ ⟨rfl, hb₃⟩
  have hwritten : Chip.Still ((c.fifoAt 0).writeBurst 0x00 bytes) := by
    rw [Chip.writeFifo_eq _ (Nat.le_of_lt hlength)]
    exact ⟨hstill.inLora, hstill.mode⟩
  refine (gives_put8_still (a := reg22PayloadLength) hwritten hb₃ (by decide) (by decide)
    (by decide) _).mono ?_
  rintro - w b₄ ⟨rfl, hb₄⟩
  rw [Chip.writeFifo_eq _ (Nat.le_of_lt hlength)] at hb₄
  simp only [Chip.fifoAt, Function.update_self, Function.update_idem, UInt8.sub_zero,
    UInt8.zero_add] at hb₄
  exact ⟨rfl, hb₄⟩

/-- **`rfm9x_packet_to_fifo` loads a packet whole**, whatever the chip does meanwhile: it is what the
chip transmits next, and where the chip was in TX mode it has begun to, once. -/
theorem packetToFifo_loads (hlora : b.chip.inLora = true)
    (hbase : b.chip.lora reg0eFifoTxBaseAddr = 0) {bytes : List UInt8} (hlength : bytes.length < 256) :
    Gives Bus.serve v b (packetToFifo bytes) fun _ w b' =>
      w = v ∧ b'.chip.toTransmit = bytes ∧ b'.chip.mode = b.settle.chip.mode ∧
        b'.chip.begun = b.chip.begun ++ if b.settle.chip.mode = txMode then [bytes] else [] := by
  have hstill : b.atStandby.Still := still_atStandby hlora
  rw [packetToFifo_eq]
  refine gives_standby_bind fun b₁ hb₁ => ?_
  refine Gives.bind (gives_load hstill hb₁ hlength) ?_
  rintro - w b₄ ⟨rfl, hloaded⟩
  have htransmit : (b.atStandby.loaded bytes).toTransmit = bytes :=
    Chip.toTransmit_loaded _ hlength ((lora_atStandby hlora (by decide) (by decide)).trans hbase)
  have hbegun : (b.atStandby.loaded bytes).begun = b.chip.begun := begun_atStandby
  have hmode : (b.atStandby.loaded bytes).mode = standbyMode := hstill.mode
  have hinLora : (b.atStandby.loaded bytes).inLora = true := hstill.inLora
  refine (gives_setMode_still ⟨hinLora, hmode⟩ hloaded (mode_lt _)).mono ?_
  rintro - w b₅ ⟨rfl, hb₅⟩
  refine ⟨rfl, ?_, ?_, ?_⟩
  · rw [hb₅.toTransmit, Chip.toTransmit, Chip.lora_inMode, Chip.memory_inMode]
    exact htransmit
  · exact hb₅.mode.trans (Chip.mode_inMode _ (mode_lt _))
  · rw [hb₅.begun, Chip.begun_inMode, hbegun, htransmit, hinLora, hmode]
    by_cases htx : b.settle.chip.mode = txMode
    · rw [if_pos htx, if_pos ⟨rfl, htx, by decide⟩]
    · rw [if_neg htx, if_neg fun h => htx h.2.1, List.append_nil]

end Packets

/-- A packet of three bytes, while the end of the last transmission is near. -/
theorem packetToFifo_loads_three :
    Gives Bus.serve mk ⟨⟨fun _ => 0x8B, fun _ => 0, fun _ => 0, fun _ => 0, [], []⟩, [[], [.txDone]]⟩
      (packetToFifo [1, 2, 3]) fun _ w b' =>
      w = mk ∧ b'.chip.toTransmit = [1, 2, 3] ∧ b'.chip.mode = txMode ∧
        b'.chip.begun = [] ++ [[1, 2, 3]] :=
  packetToFifo_loads (by decide) rfl (by decide)

end Rfm9x

end Samwise
