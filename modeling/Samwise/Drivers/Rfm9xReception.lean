import Samwise.Drivers.Rfm9xFrames

/-!
# Samwise — the frames that the radio task reads

What `rfm9x_interrupt_received` has the radio task read, over calls of it and dispatches of the task in
any order, while frames come in between any two transactions. A frame is read where the chip says that
one has come in, and the flags are cleared behind it: some frames are not read, but what is read is
what came, in its order, each frame once and whole.
-/

namespace Samwise.Rfm9x

open Interaction Prog

/-- The frames with the right CRC. -/
def good (frames : List Frame) : List (List UInt8) :=
  frames.filterMap fun frame => if frame.badCrc then none else some frame.bytes

theorem good_append (frames frames' : List Frame) :
    good (frames ++ frames') = good frames ++ good frames' := List.filterMap_append

/-- The frame is what the chip says that it has taken in. -/
structure Chip.Holding (c : Chip) (frame : Frame) : Prop where
  length : frame.bytes.length < 256
  rxNbBytes : c.lora 0x13 = UInt8.ofNat frame.bytes.length
  memory : ∀ i (hi : i < frame.bytes.length), c.memory (c.lora 0x10 + UInt8.ofNat i) = frame.bytes[i]
  badCrc : frame.badCrc = true → c.lora 0x12 &&& 0x20 ≠ 0

/-- Behind `base`, what was read, `got`, came, in this order. -/
def Chip.Came (base : List Frame) (got : List (List UInt8)) (c : Chip) : Prop :=
  ∃ since, c.received = base ++ since ∧ got.Sublist (good since)

/-- The frame that came last has not been read. -/
def Chip.Unread (base : List Frame) (got : List (List UInt8)) (c : Chip) : Prop :=
  ∃ before frame, c.received = base ++ (before ++ [frame]) ∧ c.Holding frame ∧
    got.Sublist (good before)

/-- A frame that the chip says has come in has not been read. -/
structure Chip.Ready (base : List Frame) (got : List (List UInt8)) (c : Chip) : Prop where
  came : c.Came base got
  unread : c.lora 0x12 &&& 0x40 ≠ 0 → c.Unread base got

section Chip

variable {base : List Frame} {got : List (List UInt8)} {c c' : Chip}

theorem Chip.Unread.came (h : c.Unread base got) : c.Came base got := by
  obtain ⟨before, frame, hreceived, -, hsublist⟩ := h
  refine ⟨before ++ [frame], hreceived, hsublist.trans ?_⟩
  rw [good_append]
  exact List.sublist_append_left ..

/-- Nothing that reception has to do with changes. -/
structure Chip.Untouched (c c' : Chip) : Prop where
  received : c'.received = c.received
  memory : c'.memory = c.memory
  lora : ∀ a, a = 0x10 ∨ a = 0x12 ∨ a = 0x13 → c'.lora a = c.lora a

theorem Chip.Holding.untouched {frame : Frame} (h : c.Holding frame) (hc : c.Untouched c') :
    c'.Holding frame where
  length := h.length
  rxNbBytes := (hc.lora 0x13 (by decide)).trans h.rxNbBytes
  memory i hi := by
    rw [hc.memory, hc.lora 0x10 (by decide)]
    exact h.memory i hi
  badCrc hbad := by
    rw [hc.lora 0x12 (by decide)]
    exact h.badCrc hbad

theorem Chip.Unread.untouched (h : c.Unread base got) (hc : c.Untouched c') :
    c'.Unread base got := by
  obtain ⟨before, frame, hreceived, hholding, hsublist⟩ := h
  exact ⟨before, frame, hc.received.trans hreceived, hholding.untouched hc, hsublist⟩

theorem Chip.Came.of_received (h : c.Came base got) (hc : c'.received = c.received) :
    c'.Came base got := by
  obtain ⟨since, hreceived, hsublist⟩ := h
  exact ⟨since, hc.trans hreceived, hsublist⟩

theorem Chip.Ready.untouched (h : c.Ready base got) (hc : c.Untouched c') : c'.Ready base got where
  came := h.came.of_received hc.received
  unread hflag := by
    rw [hc.lora 0x12 (by decide)] at hflag
    exact (h.unread hflag).untouched hc

/-! ### What the chip does by itself -/

theorem flags_txDone : ∀ x : UInt8, (x ||| 0x08) &&& 0x40 = x &&& 0x40 ∧
    (x ||| 0x08) &&& 0x20 = x &&& 0x20 := by decide +kernel

theorem flags_rxDone : ∀ x : UInt8, (x ||| 0x60) &&& 0x20 ≠ 0 := by decide +kernel

theorem Chip.Holding.txDone {frame : Frame} (h : c.Holding frame) :
    (c.event .txDone).Holding frame := by
  rw [Chip.event]
  split
  · refine ⟨h.length, h.rxNbBytes, h.memory, fun hbad => ?_⟩
    show Function.update c.lora 0x12 (c.lora 0x12 ||| 0x08) 0x12 &&& 0x20 ≠ 0
    rw [Function.update_self, (flags_txDone _).2]
    exact h.badCrc hbad
  · exact h

/-- A frame that comes in is held. -/
theorem Chip.holding_rxDone {start : UInt8} {frame : Frame}
    (h : c.inLora ∧ c.mode = 5 ∧ frame.bytes.length < 256) :
    (c.event (.rxDone start frame)).Holding frame := by
  rw [Chip.event, if_pos h]
  refine ⟨h.2.2, rfl, fun i hi => ?_, fun hbad => ?_⟩
  · have hindex : (start + UInt8.ofNat i - start).toNat = i := by
      rw [UInt8.add_comm, UInt8.add_sub_cancel]
      exact UInt8.toNat_ofNat_of_lt' (Nat.lt_trans hi h.2.2)
    show frame.bytes[(start + UInt8.ofNat i - start).toNat]?.getD _ = frame.bytes[i]
    rw [hindex, List.getElem?_eq_getElem hi, Option.getD_some]
  · show (c.lora 0x12 ||| if frame.badCrc = true then 0x60 else 0x40) &&& 0x20 ≠ 0
    rw [if_pos hbad]
    exact flags_rxDone _

theorem Chip.untouched_status (c : Chip) (a x : UInt8) : c.Untouched (c.event (.status a x)) := by
  rw [Chip.event]
  split
  · next ha =>
    refine ⟨rfl, rfl, fun r hr => Function.update_of_ne ?_ _ _⟩
    rintro rfl
    rcases hr with rfl | rfl | rfl <;> exact absurd ha (by decide)
  · exact ⟨rfl, rfl, fun _ _ => rfl⟩

theorem Chip.Came.event (h : c.Came base got) (e : Chip.Event) : (c.event e).Came base got := by
  cases e with
  | txDone =>
    refine h.of_received ?_
    rw [Chip.event]
    split <;> rfl
  | status a x => exact h.of_received (c.untouched_status a x).received
  | rxDone start frame =>
    obtain ⟨since, hreceived, hsublist⟩ := h
    rw [Chip.event]
    split
    · refine ⟨since ++ [frame], ?_, hsublist.trans ?_⟩
      · show c.received ++ [frame] = _
        rw [hreceived, List.append_assoc]
      · rw [good_append]
        exact List.sublist_append_left ..
    · exact ⟨since, hreceived, hsublist⟩

/-- A frame that comes in takes the place of the one before, which is then never read. -/
theorem Chip.Unread.event (h : c.Unread base got) (e : Chip.Event) :
    (c.event e).Unread base got := by
  cases e with
  | txDone =>
    obtain ⟨before, frame, hreceived, hholding, hsublist⟩ := h
    refine ⟨before, frame, ?_, hholding.txDone, hsublist⟩
    rw [← hreceived, Chip.event]
    split <;> rfl
  | status a x => exact h.untouched (c.untouched_status a x)
  | rxDone start frame =>
    by_cases hin : c.inLora ∧ c.mode = 5 ∧ frame.bytes.length < 256
    · obtain ⟨since, hreceived, hsublist⟩ := h.came
      refine ⟨since, frame, ?_, Chip.holding_rxDone hin, hsublist⟩
      rw [Chip.event, if_pos hin, ← List.append_assoc, ← hreceived]
    · rwa [Chip.event, if_neg hin]

theorem Chip.Ready.event (h : c.Ready base got) (e : Chip.Event) : (c.event e).Ready base got := by
  refine ⟨h.came.event e, fun hflag => ?_⟩
  cases e with
  | txDone =>
    refine Chip.Unread.event (h.unread ?_) .txDone
    intro hzero
    refine hflag ?_
    rw [Chip.event]
    split
    · show Function.update c.lora 0x12 (c.lora 0x12 ||| 0x08) 0x12 &&& 0x40 = 0
      rw [Function.update_self, (flags_txDone _).1, hzero]
    · exact hzero
  | status a x =>
    rw [(c.untouched_status a x).lora 0x12 (by decide)] at hflag
    exact (h.unread hflag).event _
  | rxDone start frame =>
    by_cases hin : c.inLora ∧ c.mode = 5 ∧ frame.bytes.length < 256
    · obtain ⟨since, hreceived, hsublist⟩ := h.came
      refine ⟨since, frame, ?_, Chip.holding_rxDone hin, hsublist⟩
      rw [Chip.event, if_pos hin, ← List.append_assoc, ← hreceived]
    · rw [Chip.event, if_neg hin] at hflag ⊢
      exact h.unread hflag

end Chip

/-! ### What the program does -/

theorem Chip.received_put (c : Chip) (a x : UInt8) : (c.put a x).received = c.received := by
  unfold Chip.put Chip.putOpMode
  dsimp only
  repeat' split
  all_goals rfl

theorem Chip.received_readBurst (c : Chip) (a : UInt8) (n : Nat) :
    (c.readBurst a n).2.received = c.received := by
  induction n generalizing a c with
  | zero => rfl
  | succ n ih =>
    rw [Chip.readBurst]
    split
    · exact ih c.fifoNext a
    · exact ih c (a + 1)

theorem Chip.received_writeBurst (c : Chip) (a : UInt8) (bytes : List UInt8) :
    (c.writeBurst a bytes).received = c.received := by
  induction bytes generalizing a c with
  | nil => rfl
  | cons x bytes ih =>
    rw [Chip.writeBurst]
    split
    · exact ih _ a
    · exact (ih _ (a + 1)).trans (c.received_put a x)

/-- No transaction makes a frame come. -/
theorem Chip.received_serve (c : Chip) (call : spi.Call) : (c.serve call).2.received = c.received := by
  cases call with
  | read header n =>
    rw [Chip.serve]
    split
    · exact c.received_readBurst _ _
    · exact c.received_writeBurst _ _
  | write header bytes =>
    rw [Chip.serve]
    split
    · exact c.received_readBurst _ _
    · exact c.received_writeBurst _ _

/-- What every call of a program keeps, and the chip by itself, holds behind it. Induction on the
program. -/
theorem gives_of_safe {I : Chip → Prop} (hevent : ∀ c e, I c → I (c.event e)) {α : Type}
    {x : Driver α} (hx : Safe Chip.serve I x) {v : Vars} {b : Bus} (hb : I b.chip) :
    Gives Bus.serve v b x fun _ _ b' => I b'.chip := by
  induction x generalizing v b with
  | done a => exact hb
  | get k ih => exact ih v (hx v) hb
  | set w k ih => exact ih hx hb
  | call c k ih =>
    obtain ⟨hserved, hk⟩ := hx b.settle.chip (Bus.settle_of hevent hb)
    exact ih _ hk (b := ⟨(b.settle.chip.serve c).2, b.settle.coming⟩) hserved

section Programs

variable {f : Registers} {upper : UInt8} {base : List Frame} {got : List (List UInt8)} {b : Bus}
  {v : Vars}

theorem gives_keeps {α : Type} {x : Driver α} (hx : KeepsSafe f upper x)
    (hb : b.chip.Keeps f upper) : Gives Bus.serve v b x fun _ _ b' => b'.chip.Keeps f upper :=
  gives_of_safe (fun _ e hc => hc.event e) hx hb

theorem gives_came {α : Type} (x : Driver α) (hb : b.chip.Came base got) :
    Gives Bus.serve v b x fun _ _ b' => b'.chip.Came base got := by
  refine gives_of_safe (fun _ e hc => hc.event e) ?_ hb
  induction x with
  | done a => trivial
  | get k ih => exact ih
  | set w k ih => exact ih
  | call call k ih => exact fun c hc => ⟨hc.of_received (c.received_serve call), ih _⟩

theorem Bus.ready_settle (hb : b.chip.Ready base got) : b.settle.chip.Ready base got :=
  Bus.settle_of (fun _ e hc => hc.event e) hb

theorem Chip.untouched_inMode (c : Chip) (m : UInt8) : c.Untouched (c.inMode m) :=
  ⟨c.received_inMode m, c.memory_inMode m, fun a _ => by rw [c.lora_inMode]⟩

theorem gives_setMode_ready {m : UInt8} (hm : m < 8) (hb : b.chip.Ready base got) :
    Gives Bus.serve v b (setMode m) fun _ _ b' => b'.chip.Ready base got := by
  unfold Gives
  rw [exec_setMode hm]
  exact (Bus.ready_settle (Bus.ready_settle hb)).untouched (Chip.untouched_inMode _ m)

theorem gives_dio_ready (field : UInt32) (hb : b.chip.Ready base got) :
    Gives Bus.serve v b (change8 reg40DioMapping1 (bitsSet · 6 7 field)) fun _ _ b' =>
      b'.chip.Ready base got := by
  unfold Gives
  rw [exec_change8 (by decide)]
  refine (Bus.ready_settle (Bus.ready_settle hb)).untouched ?_
  rw [Chip.put, if_neg (by decide), if_neg (by decide)]
  exact ⟨rfl, rfl, fun _ _ => rfl⟩

theorem gives_listen_ready (hb : b.chip.Ready base got) :
    Gives Bus.serve v b listen fun _ _ b' => b'.chip.Ready base got :=
  Gives.bind (gives_setMode_ready (by decide) hb) fun _ _ _ hb' => gives_dio_ready _ hb'

theorem gives_transmit_ready (hb : b.chip.Ready base got) :
    Gives Bus.serve v b transmit fun _ _ b' => b'.chip.Ready base got :=
  Gives.bind (gives_setMode_ready (by decide) hb) fun _ _ _ hb' => gives_dio_ready _ hb'

/-- When the flags are cleared, nothing is to be read. -/
theorem gives_clear_ready (hlora : b.chip.inLora = true) (hb : b.chip.Came base got) :
    Gives Bus.serve v b clearInterrupts fun _ _ b' => b'.chip.Ready base got := by
  have hcleared : ∀ x : UInt8, (x &&& ~~~0xFF) &&& 0x40 = 0 := by decide +kernel
  unfold Gives
  rw [clearInterrupts, exec_put8 (by decide)]
  have hsettled : b.settle.chip.Came base got := Bus.settle_of (fun _ e hc => hc.event e) hb
  refine ⟨hsettled.of_received (Chip.received_put _ _ _), fun hflag => absurd ?_ hflag⟩
  show (Chip.put 0x12 0xFF b.settle.chip).lora 0x12 &&& 0x40 = 0
  rw [Chip.put, if_neg (by decide), if_pos (by decide),
    if_pos (b.inLora_settle.trans hlora), if_pos rfl]
  simp only [Function.update_self]
  exact hcleared _

theorem gives_handler_ready (taken : Taken) (hkeeps : b.chip.Keeps f upper)
    (hb : b.chip.Ready base got) : Gives Bus.serve v b taken.handler fun read _ b' =>
      b'.chip.Ready base (got ++ read) := by
  have hclear {b : Bus} (hlora : b.chip.inLora = true) (hb : b.chip.Came base got) :
      Gives Bus.serve v b (do clearInterrupts; return []) fun read _ b' =>
        b'.chip.Ready base (got ++ read) := by
    refine Gives.bind (gives_clear_ready hlora hb) fun _ _ b' hb' => ?_
    refine Gives.pure ?_
    rwa [List.append_nil]
  cases taken with
  | none =>
    refine Gives.bind (gives_clear_ready hkeeps.1.1 hb.came) fun _ _ b₁ hb₁ => ?_
    refine Gives.bind (gives_listen_ready hb₁) fun _ _ b₂ hb₂ => ?_
    refine Gives.pure ?_
    rwa [List.append_nil]
  | bad => exact hclear hkeeps.1.1 hb.came
  | packet bytes =>
    refine Gives.bind ((gives_keeps (safe_packetToFifo bytes) hkeeps).and
      (gives_came (packetToFifo bytes) hb.came)) ?_
    rintro - w b₁ ⟨hkeeps₁, hb₁⟩
    refine Gives.bind (gives_clear_ready hkeeps₁.1.1 hb₁) fun _ _ b' hb' => ?_
    refine Gives.pure ?_
    rwa [List.append_nil]

/-- The frame that the chip holds is read whole, unless its CRC is wrong. -/
theorem Chip.Holding.packetFromFifo {c : Chip} {frame : Frame} (h : c.Holding frame)
    (hgood : ¬(c.rxView.isCrcEnabled ≠ 0 ∧ c.rxView.crcError ≠ 0)) :
    c.rxView.packetFromFifo.2 = (UInt8.ofNat frame.bytes.length, frame.bytes) := by
  have hlength : c.rxView.rxNbBytes.toNat = frame.bytes.length := by
    show (c.lora 0x13).toNat = _
    rw [h.rxNbBytes, UInt8.toNat_ofNat_of_lt' h.length]
  have hbytes : (List.range c.rxView.rxNbBytes.toNat).map
      (fun i => c.rxView.memory (c.rxView.fifoRxCurrentAddr + UInt8.ofNat i)) = frame.bytes := by
    rw [hlength]
    refine List.ext_getElem (by simp) fun i hi hi' => ?_
    rw [List.getElem_map, List.getElem_range]
    exact h.memory i hi'
  by_cases hframe : c.rxView.rxNbBytes > 0
  · rw [(RxChip.packetFromFifo_of_frame hgood hframe).1, hbytes]
    exact congrArg (·, frame.bytes) h.rxNbBytes
  · rw [(RxChip.packetFromFifo_of_empty hgood hframe).1]
    have hempty : frame.bytes.length = 0 := by
      rw [gt_iff_lt, UInt8.lt_iff_toNat_lt, hlength] at hframe
      exact Nat.eq_zero_of_not_pos hframe
    rw [List.length_eq_zero_iff.mp hempty]
    exact congrArg (·, []) (h.rxNbBytes.trans (congrArg UInt8.ofNat hempty))

theorem Chip.Holding.badCrc_eq_false {c : Chip} {frame : Frame} (h : c.Holding frame)
    (hcrc : c.rxView.isCrcEnabled ≠ 0)
    (hgood : ¬(c.rxView.isCrcEnabled ≠ 0 ∧ c.rxView.crcError ≠ 0)) : frame.badCrc = false := by
  have hflag : ∀ x : UInt8, x &&& 0x20 ≠ 0 → (x &&& 0x20) >>> 5 ≠ 0 := by decide +kernel
  by_contra hbad
  exact hgood ⟨hcrc, hflag _ (h.badCrc (Bool.eq_true_of_not_eq_false hbad))⟩

theorem Bus.unread_atStandby (hb : b.chip.Unread base got) : b.atStandby.Unread base got := by
  have hsettle (b : Bus) (hb : b.chip.Unread base got) : b.settle.chip.Unread base got :=
    Bus.settle_of (fun _ e hc => hc.event e) hb
  exact (hsettle _ (hsettle _ (hsettle b hb))).untouched (Chip.untouched_inMode _ _)

theorem Bus.keeps_atStandby (hb : b.chip.Keeps f upper) : b.atStandby.Keeps f upper := by
  have hsettle (b : Bus) (hb : b.chip.Keeps f upper) : b.settle.chip.Keeps f upper :=
    Bus.settle_of (fun _ e hc => hc.event e) hb
  exact (hsettle _ (hsettle _ (hsettle b hb))).inMode (by decide)

/-- `rx_done` reads the frame that has come, or none. -/
theorem gives_rxHandler_ready (hcrc : bitIsOn (f reg1eModemConfig2).toUInt32 2 = 1)
    (hkeeps : b.chip.Keeps f upper) (hb : b.chip.Unread base got) :
    Gives Bus.serve v b rxHandler fun read _ b' => b'.chip.Ready base (got ++ read) := by
  obtain ⟨before, frame, hreceived, hholding, hsublist⟩ := Bus.unread_atStandby hb
  have hstandby : b.atStandby.Keeps f upper := Bus.keeps_atStandby hkeeps
  have hcrcOn : b.atStandby.rxView.isCrcEnabled ≠ 0 := by
    have hconfig : b.atStandby.lora 0x1E = f 0x1E := by
      have hget := hstandby.1.2 0x1E (by decide)
      rwa [Chip.get, if_pos (by decide), if_pos hstandby.1.1] at hget
    show b.atStandby.lora 0x1E >>> 2 &&& 1 ≠ 0
    rw [hconfig, ← crc_bit, hcrc]
    decide
  refine Gives.bind ((gives_packetFromFifo hkeeps.1.1).and
    (gives_keeps safe_packetFromFifo hkeeps)) ?_
  rintro ⟨n, buf⟩ w b₁ ⟨⟨hresult, -, hsame⟩, hkeeps₁⟩
  have hreceived₁ : b₁.chip.received = base ++ (before ++ [frame]) := by
    rw [hsame.received, Chip.received_inMode]
    exact hreceived
  have hcame : b₁.chip.Came base (got ++ if n = 0 then [] else [buf]) := by
    refine ⟨before ++ [frame], hreceived₁, ?_⟩
    rw [good_append]
    by_cases hgood : b.atStandby.rxView.isCrcEnabled ≠ 0 ∧ b.atStandby.rxView.crcError ≠ 0
    · rw [(RxChip.packetFromFifo_of_failed hgood).1] at hresult
      obtain ⟨rfl, rfl⟩ := Prod.mk.inj hresult
      rw [if_pos rfl, List.append_nil]
      exact hsublist.trans (List.sublist_append_left ..)
    · rw [hholding.packetFromFifo hgood] at hresult
      obtain ⟨rfl, rfl⟩ := Prod.mk.inj hresult
      have hframe : good [frame] = [frame.bytes] := by
        rw [good, List.filterMap_cons, hholding.badCrc_eq_false hcrcOn hgood]
        rfl
      rw [hframe]
      refine hsublist.append ?_
      split
      · exact List.nil_sublist _
      · exact List.Sublist.refl _
  refine Gives.bind (gives_clear_ready hkeeps₁.1.1 hcame) fun _ _ b' hb' => ?_
  exact Gives.pure hb'

theorem gives_interruptReceived_ready (hcrc : bitIsOn (f reg1eModemConfig2).toUInt32 2 = 1)
    (taken : Taken) (hkeeps : b.chip.Keeps f upper) (hb : b.chip.Ready base got) :
    Gives Bus.serve v b (interruptReceived (some taken.handler) (some rxHandler)) fun read _ b' =>
      b'.chip.Ready base (got ++ read) := by
  have hflags {b : Bus} (hlora : b.chip.inLora = true) :
      b.settle.chip.get reg12IrqFlags = b.settle.chip.lora 0x12 := by
    rw [Chip.get, if_pos (by decide), if_pos (b.inLora_settle.trans hlora)]
  have hkeeps₁ : b.settle.chip.Keeps f upper := Bus.settle_of (fun _ e hc => hc.event e) hkeeps
  refine Gives.bind (R := fun _ _ b' => b' = b.settle) ?_ ?_
  · unfold Gives
    rw [txDone, exec_bind, exec_get8 (by decide)]
    rfl
  rintro done w b₁ rfl
  refine Gives.ite (fun _ => gives_handler_ready taken hkeeps₁ (Bus.ready_settle hb)) fun _ => ?_
  refine Gives.bind (R := fun done _ b' => b' = b.settle.settle ∧
    done = (b.settle.settle.chip.lora 0x12 &&& 0x40) >>> 6) ?_ ?_
  · unfold Gives
    rw [rxDone, exec_bind, exec_get8 (by decide), hflags hkeeps₁.1.1]
    exact ⟨rfl, rfl⟩
  rintro done w b₂ ⟨rfl, rfl⟩
  have hready := Bus.ready_settle (Bus.ready_settle hb)
  have hkeeps₂ : b.settle.settle.chip.Keeps f upper :=
    Bus.settle_of (fun _ e hc => hc.event e) hkeeps₁
  refine Gives.ite (fun hdone => ?_) fun _ => ?_
  · refine gives_rxHandler_ready hcrc hkeeps₂ (hready.unread fun hzero => hdone ?_)
    rw [hzero]
    rfl
  · refine Gives.pure ?_
    show b.settle.settle.chip.Ready base (got ++ [])
    rwa [List.append_nil]

end Programs

/-! ## Whatever is called -/

/-- What the radio task and its interrupt do: the task listens, where nothing is queued, or transmits
and calls `tx_done`. -/
inductive RadioCall where
  | listen
  | dispatch (taken : Taken)
  | interrupt (taken : Taken)

/-- The frames that it reads. -/
def RadioCall.program : RadioCall → Driver (List (List UInt8))
  | .listen => do
    Rfm9x.listen
    return []
  | .dispatch taken => do
    transmit
    taken.handler
  | .interrupt taken => interruptReceived (some taken.handler) (some rxHandler)

/-- One call behind the other. -/
def runCalls : List RadioCall → Driver (List (List UInt8))
  | [] => return []
  | first :: calls => do
    let read ← first.program
    let rest ← runCalls calls
    return read ++ rest

section Calls

variable {f : Registers} {upper : UInt8} {base : List Frame} {got : List (List UInt8)} {b : Bus}
  {v : Vars}

theorem RadioCall.safe (call : RadioCall) : KeepsSafe f upper call.program := by
  cases call with
  | listen => exact safe_listen.bind fun _ => Safe.pure _
  | dispatch taken => exact safe_transmit.bind fun _ => safe_handler taken
  | interrupt taken => exact safe_interruptReceived taken

theorem RadioCall.gives_ready (hcrc : bitIsOn (f reg1eModemConfig2).toUInt32 2 = 1)
    (call : RadioCall) (hkeeps : b.chip.Keeps f upper) (hb : b.chip.Ready base got) :
    Gives Bus.serve v b call.program fun read _ b' => b'.chip.Ready base (got ++ read) := by
  cases call with
  | listen =>
    refine Gives.bind (gives_listen_ready hb) fun _ _ b' hb' => ?_
    refine Gives.pure ?_
    rwa [List.append_nil]
  | dispatch taken =>
    refine Gives.bind ((gives_keeps safe_transmit hkeeps).and (gives_transmit_ready hb)) ?_
    rintro - w b' ⟨hkeeps', hb'⟩
    exact gives_handler_ready taken hkeeps' hb'
  | interrupt taken => exact gives_interruptReceived_ready hcrc taken hkeeps hb

/-- Induction on the calls. -/
theorem gives_runCalls_ready (hcrc : bitIsOn (f reg1eModemConfig2).toUInt32 2 = 1)
    (calls : List RadioCall) (hkeeps : b.chip.Keeps f upper) (hb : b.chip.Ready base got) :
    Gives Bus.serve v b (runCalls calls) fun read _ b' => b'.chip.Ready base (got ++ read) := by
  induction calls generalizing b got v with
  | nil =>
    refine Gives.pure ?_
    rwa [List.append_nil]
  | cons call calls ih =>
    refine Gives.bind ((gives_keeps call.safe hkeeps).and (call.gives_ready hcrc hkeeps hb)) ?_
    rintro read w b₁ ⟨hkeeps₁, hb₁⟩
    refine Gives.bind (ih hkeeps₁ hb₁) fun rest _ b' hb' => ?_
    refine Gives.pure ?_
    rwa [← List.append_assoc]

/-- **Each frame is read once, and whole.** From LoRa mode with the CRC enabled and no frame waiting,
whatever is called and whatever the chip does in between: what has been read are frames that have come
since with the right CRC, in their order and none twice. -/
theorem frames_read_once (hlora : b.chip.inLora = true)
    (hcrc : bitIsOn (b.chip.lora reg1eModemConfig2).toUInt32 2 = 1)
    (hflags : b.chip.lora reg12IrqFlags &&& 0x40 = 0) (calls : List RadioCall) :
    Gives Bus.serve v b (runCalls calls) fun read _ b' =>
      ∃ since, b'.chip.received = b.chip.received ++ since ∧ read.Sublist (good since) := by
  have hget : b.chip.get reg1eModemConfig2 = b.chip.lora reg1eModemConfig2 := by
    rw [Chip.get, if_pos (by decide), if_pos hlora]
  have hkeeps : b.chip.Keeps (fun a => b.chip.get a) b.chip.upper := ⟨⟨hlora, fun _ _ => rfl⟩, rfl⟩
  have hready : b.chip.Ready b.chip.received [] :=
    ⟨⟨[], (List.append_nil _).symm, List.nil_sublist _⟩, fun hflag => absurd hflags hflag⟩
  refine (gives_runCalls_ready (by rw [hget]; exact hcrc) calls hkeeps hready).mono ?_
  intro read w b' hb'
  exact hb'.came

/-- A chip that listens. A frame comes, and another one while the first is looked for. -/
def listening : Bus where
  chip := ⟨fun _ => 0x8D, fun _ => 0, fun a => if a = reg1eModemConfig2 then 0x74 else 0, fun _ => 0,
    [], []⟩
  coming := [[.rxDone 0 ⟨[1, 2, 3], false⟩], [], [], [.rxDone 3 ⟨[4, 5], false⟩]]

theorem frames_read_once_listening :
    Gives Bus.serve mk listening (runCalls [.interrupt .none, .listen, .interrupt (.packet [7])])
      fun read _ b' => ∃ since, b'.chip.received = listening.chip.received ++ since ∧
        read.Sublist (good since) :=
  frames_read_once (by decide) (by decide) (by decide) _

/-- The first of the two is not read. -/
example : ((runCalls [.interrupt .none, .listen]).exec Bus.serve mk listening).1 = [[4, 5]] := by
  decide

end Calls

end Samwise.Rfm9x
