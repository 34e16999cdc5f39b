import Samwise.Lib.Run
import Samwise.Link.PayloadCommands
import Samwise.Scheduler.QueueUse

/-!
# Samwise — what becomes of received frames

`rx_done` with its counters (`src/tasks/radio/radio_task.c`) over the registers of the radio that
reception uses (`src/drivers/rfm9x/rfm9x.c`), between calls of the command task, which empties
`rx_queue`. Every frame has one `FrameFate`; the counters count fates, and the packets of a run go
through the queue in the order in which they came.
-/

namespace Samwise

open Run

/-! ## The chip -/

/-- The registers of the RFM9X that reception reads or writes, and the memory behind its FIFO. -/
structure RxChip where
  opMode : UInt8
  fifoAddrPtr : UInt8
  fifoRxCurrentAddr : UInt8
  irqFlags : UInt8
  rxNbBytes : UInt8
  modemConfig2 : UInt8
  memory : UInt8 → UInt8

namespace RxChip

/-- `STANDBY_MODE`. -/
def standbyMode : UInt8 := 1

/-- `TX_MODE`. -/
def txMode : UInt8 := 3

/-- `RX_MODE`. -/
def rxMode : UInt8 := 5

/-- `rfm9x_get_mode`: bits 0 to 2. -/
def getMode (c : RxChip) : UInt8 := c.opMode &&& 7

/-- `rfm9x_set_mode`. -/
def setMode (mode : UInt8) (c : RxChip) : RxChip := { c with opMode := c.opMode &&& ~~~7 ||| mode }

/-- `rfm9x_is_crc_enabled`. -/
def isCrcEnabled (c : RxChip) : UInt8 := c.modemConfig2 >>> 2 &&& 1

/-- `rfm9x_crc_error`. -/
def crcError (c : RxChip) : UInt8 := (c.irqFlags &&& 0x20) >>> 5

/-- `rfm9x_get_buf` on the FIFO: the pointer moves on with every byte. -/
def getFifo (n : UInt8) (c : RxChip) : RxChip × List UInt8 :=
  ({ c with fifoAddrPtr := c.fifoAddrPtr + n },
    (List.range n.toNat).map fun i => c.memory (c.fifoAddrPtr + UInt8.ofNat i))

/-- `rfm9x_packet_from_fifo`: `n_read`, and the bytes that go into the buffer. -/
def packetFromFifo (c : RxChip) : RxChip × UInt8 × List UInt8 :=
  let oldMode := c.getMode
  let c := c.setMode standbyMode
  if c.isCrcEnabled ≠ 0 ∧ c.crcError ≠ 0 then (c.setMode oldMode, 0, [])
  else
    let fifoLength := c.rxNbBytes
    if fifoLength > 0 then
      let read := { c with fifoAddrPtr := c.fifoRxCurrentAddr }.getFifo fifoLength
      (read.1.setMode oldMode, fifoLength, read.2)
    else (c.setMode oldMode, fifoLength, [])

/-- `rfm9x_clear_interrupts`: a flag is cleared by writing a one to it. -/
def clearInterrupts (c : RxChip) : RxChip := { c with irqFlags := c.irqFlags &&& ~~~0xFF }

theorem irqFlags_clearInterrupts (c : RxChip) : c.clearInterrupts.irqFlags = 0 := by
  show c.irqFlags &&& ~~~0xFF = 0
  have hmask : (~~~0xFF : UInt8) = 0 := by decide
  rw [hmask, UInt8.and_zero]

/-- As many bytes are stored as are reported. -/
theorem length_packetFromFifo (c : RxChip) :
    c.packetFromFifo.2.2.length = c.packetFromFifo.2.1.toNat := by
  unfold packetFromFifo
  dsimp only
  split
  · rfl
  · split
    · simp [getFifo]
    · next hempty =>
      show 0 = (c.setMode standbyMode).rxNbBytes.toNat
      rw [gt_iff_lt, UInt8.lt_iff_toNat_lt] at hempty
      exact (Nat.eq_zero_of_not_pos hempty).symm

end RxChip

/-! ## The handler -/

/-- The world with the receive counters of the slate, `radio_node` and the chip. -/
structure RadioReceiver where
  world : World
  radioNode : UInt8
  rxBytes : UInt32
  rxPackets : UInt32
  rxBackpressureDrops : UInt32
  rxBadPacketDrops : UInt32
  chip : RxChip

namespace RadioReceiver

/-- `rx_queue`. -/
def rxQueue (s : RadioReceiver) : BoundedQueue Packet rxQueueSize := s.world.slate.rxQueue

/-- Assign to `rx_queue`. -/
def setRxQueue (q : BoundedQueue Packet rxQueueSize) (s : RadioReceiver) : RadioReceiver :=
  { s with world := { s.world with slate := { s.world.slate with rxQueue := q } } }

/-- The chip holds a frame, and has raised its interrupt. -/
def hold (chip : RxChip) (s : RadioReceiver) : RadioReceiver := { s with chip := chip }

/-- `rfm9x_clear_interrupts`. -/
def clearInterrupts (s : RadioReceiver) : RadioReceiver := { s with chip := s.chip.clearInterrupts }

/-- `radio_task_init`, as far as reception goes: the radio is left in TX mode. -/
def radioTaskInit (env : Env) (s : RadioReceiver) : RadioReceiver :=
  { s with
    world := (Task.radioTask.taskInit.run env s.world).2
    rxBytes := 0
    rxPackets := 0
    rxBackpressureDrops := 0
    rxBadPacketDrops := 0
    chip := (s.chip.setMode RxChip.rxMode).setMode RxChip.txMode }

/-- The tail of `rx_done`, for a packet that was parsed. -/
def rxParsed (p : Packet) (s : RadioReceiver) : RadioReceiver :=
  if p.dst = rhBroadcastAddress ∨ p.dst = s.radioNode then
    let s := { s with rxPackets := s.rxPackets + 1 }
    let added := s.rxQueue.tryAdd p
    let s := s.setRxQueue added.2
    if added.1 = false then { s with rxBackpressureDrops := s.rxBackpressureDrops + 1 } else s
  else s

/-- The head of `rx_done`: the frame is read, and its bytes are counted. -/
def rxRead (s : RadioReceiver) : RadioReceiver :=
  let fifo := s.chip.packetFromFifo
  { s with chip := fifo.1, rxBytes := s.rxBytes + fifo.2.1.toUInt32 }

/-- `parse_packet` on what was read. -/
def rxParse (s : RadioReceiver) : Bool × Packet :=
  let fifo := s.chip.packetFromFifo
  parsePacket (rxBuffer fifo.2.2) fifo.2.1.toNat Packet.zero

/-- `rx_done`. -/
def rxDone (s : RadioReceiver) : RadioReceiver :=
  if s.rxParse.1 = false then
    clearInterrupts { s.rxRead with rxBadPacketDrops := s.rxRead.rxBadPacketDrops + 1 }
  else clearInterrupts (s.rxRead.rxParsed s.rxParse.2)

end RadioReceiver

/-! ## The fate of a frame -/

/-- What becomes of a frame: it is no packet, it is for another node, or it is for this one. -/
inductive FrameFate where
  | bad
  | elsewhere
  | addressed (p : Packet)
deriving DecidableEq

/-- The fate of the frame that the chip holds. -/
def RadioReceiver.fate (s : RadioReceiver) : FrameFate :=
  if s.rxParse.1 = false then .bad
  else if s.rxParse.2.dst = rhBroadcastAddress ∨ s.rxParse.2.dst = s.radioNode then
    .addressed s.rxParse.2
  else .elsewhere

/-- The packet of a frame for this node. -/
def FrameFate.packet : FrameFate → Option Packet
  | .addressed p => some p
  | _ => none

/-- Between `s` and `s'` a frame was counted as its fate has it, and queued where it is addressed
to this node and there was room. -/
def FrameFate.Counted (s s' : RadioReceiver) : FrameFate → Prop
  | .bad =>
    s'.rxBadPacketDrops = s.rxBadPacketDrops + 1 ∧ s'.rxPackets = s.rxPackets ∧
      s'.rxBackpressureDrops = s.rxBackpressureDrops ∧ s'.rxQueue = s.rxQueue
  | .elsewhere =>
    s'.rxBadPacketDrops = s.rxBadPacketDrops ∧ s'.rxPackets = s.rxPackets ∧
      s'.rxBackpressureDrops = s.rxBackpressureDrops ∧ s'.rxQueue = s.rxQueue
  | .addressed p =>
    s'.rxBadPacketDrops = s.rxBadPacketDrops ∧ s'.rxPackets = s.rxPackets + 1 ∧
      (s.rxQueue.elems.length < rxQueueSize ∧ s'.rxBackpressureDrops = s.rxBackpressureDrops ∧
          s'.rxQueue.elems = s.rxQueue.elems ++ [p] ∨
        s.rxQueue.elems.length = rxQueueSize ∧
          s'.rxBackpressureDrops = s.rxBackpressureDrops + 1 ∧ s'.rxQueue = s.rxQueue)

/-- What a call of `rx_done` does, whatever frame the chip holds. -/
structure RadioReceiver.Receives (s s' : RadioReceiver) : Prop where
  radioNode : s'.radioNode = s.radioNode
  rxBytes : s'.rxBytes = s.rxBytes + s.chip.packetFromFifo.2.1.toUInt32
  counted : s.fate.Counted s s'
  cleared : s'.chip.irqFlags = 0

/-- A packet for this node is counted and queued. -/
theorem RadioReceiver.rxParsed_of_room {p : Packet} {s : RadioReceiver}
    (hdst : p.dst = rhBroadcastAddress ∨ p.dst = s.radioNode)
    (hroom : s.rxQueue.elems.length < rxQueueSize) :
    s.rxParsed p
      = setRxQueue (s.rxQueue.tryAdd p).2 { s with rxPackets := s.rxPackets + 1 } := by
  have hok := (BoundedQueue.tryAdd_of_lt p hroom).1
  rw [rxParsed, if_pos hdst]
  show (if (s.rxQueue.tryAdd p).1 = false then _ else _) = _
  rw [if_neg (by simp [hok])]
  rfl

/-- Or counted as received and as dropped. -/
theorem RadioReceiver.rxParsed_of_full {p : Packet} {s : RadioReceiver}
    (hdst : p.dst = rhBroadcastAddress ∨ p.dst = s.radioNode)
    (hfull : ¬s.rxQueue.elems.length < rxQueueSize) :
    s.rxParsed p = { s with
      rxPackets := s.rxPackets + 1
      rxBackpressureDrops := s.rxBackpressureDrops + 1 } := by
  have hsame : ({ s with rxPackets := s.rxPackets + 1 } : RadioReceiver).rxQueue.tryAdd p
      = (false, s.rxQueue) := BoundedQueue.tryAdd_of_full p hfull
  rw [rxParsed, if_pos hdst]
  dsimp only
  rw [hsame]
  rfl

/-- **The handler, path by path.** -/
theorem RadioReceiver.rxDone_receives (s : RadioReceiver) : s.Receives s.rxDone := by
  unfold RadioReceiver.rxDone
  by_cases hbad : s.rxParse.1 = false
  · have hfate : s.fate = .bad := if_pos hbad
    rw [if_pos hbad]
    refine ⟨rfl, rfl, ?_, RxChip.irqFlags_clearInterrupts _⟩
    rw [hfate]
    exact ⟨rfl, rfl, rfl, rfl⟩
  · rw [if_neg hbad]
    by_cases hdst : s.rxParse.2.dst = rhBroadcastAddress ∨ s.rxParse.2.dst = s.radioNode
    · have hfate : s.fate = .addressed s.rxParse.2 := (if_neg hbad).trans (if_pos hdst)
      by_cases hroom : s.rxQueue.elems.length < rxQueueSize
      · rw [rxParsed_of_room (s := s.rxRead) hdst hroom]
        refine ⟨rfl, rfl, ?_, RxChip.irqFlags_clearInterrupts _⟩
        rw [hfate]
        exact ⟨rfl, rfl, Or.inl ⟨hroom, rfl, (BoundedQueue.tryAdd_of_lt _ hroom).2⟩⟩
      · rw [rxParsed_of_full (s := s.rxRead) hdst hroom]
        refine ⟨rfl, rfl, ?_, RxChip.irqFlags_clearInterrupts _⟩
        rw [hfate]
        refine ⟨rfl, rfl, Or.inr ⟨?_, rfl, rfl⟩⟩
        exact Nat.le_antisymm s.rxQueue.bounded (Nat.not_lt.mp hroom)
    · have hfate : s.fate = .elsewhere := (if_neg hbad).trans (if_neg hdst)
      have hsame : s.rxRead.rxParsed s.rxParse.2 = s.rxRead := if_neg hdst
      rw [hsame]
      refine ⟨rfl, rfl, ?_, RxChip.irqFlags_clearInterrupts _⟩
      rw [hfate]
      exact ⟨rfl, rfl, rfl, rfl⟩

/-- What it does to the queue is `rx_done` of the uplink, with the bytes that the chip hands out. -/
theorem RadioReceiver.rxQueue_rxDone (s : RadioReceiver) :
    s.rxDone.rxQueue = Samwise.rxDone s.radioNode s.chip.packetFromFifo.2.2 s.rxQueue := by
  have hparse : parsePacket (rxBuffer s.chip.packetFromFifo.2.2)
      s.chip.packetFromFifo.2.2.length Packet.zero = s.rxParse := by
    rw [s.chip.length_packetFromFifo]
    rfl
  unfold RadioReceiver.rxDone Samwise.rxDone
  rw [hparse]
  dsimp only
  by_cases hbad : s.rxParse.1 = false
  · rw [if_pos hbad, if_pos hbad]
    rfl
  · rw [if_neg hbad, if_neg hbad]
    by_cases hdst : s.rxParse.2.dst = rhBroadcastAddress ∨ s.rxParse.2.dst = s.radioNode
    · rw [if_pos hdst]
      by_cases hroom : s.rxQueue.elems.length < rxQueueSize
      · rw [rxParsed_of_room (s := s.rxRead) hdst hroom]
        rfl
      · rw [rxParsed_of_full (s := s.rxRead) hdst hroom, BoundedQueue.tryAdd_of_full _ hroom]
        rfl
    · have hsame : s.rxRead.rxParsed s.rxParse.2 = s.rxRead := if_neg hdst
      rw [if_neg hdst, hsame]
      rfl

/-! ## Runs -/

/-- The receiver since `radio_task_init`, with the fates of the frames, the bytes they had, the
packets that were added to `rx_queue` and those that were taken out. -/
structure Accounting where
  receiver : RadioReceiver
  fates : List FrameFate
  bytes : Nat
  added : List Packet
  taken : List Packet

/-- A frame comes, with whatever the chip then holds; the command task is called; anything else
happens that leaves `rx_queue` alone. -/
inductive ReceiveEvent where
  | frame (chip : RxChip)
  | command (env : Env)
  | other (f : World → World)

section Accounting

variable (hmac : Hmac) (psk : Option PacketHmacPsk)

/-- One step. A frame's packet is added where the queue is longer behind `rx_done`; the command
task takes what `queue_try_remove` gives it. -/
def accountStep (s : Accounting) : ReceiveEvent → Option Accounting
  | .frame chip =>
    let before := s.receiver.hold chip
    let receiver := before.rxDone
    some { s with
      receiver
      fates := s.fates ++ [before.fate]
      bytes := s.bytes + chip.packetFromFifo.2.1.toNat
      added := s.added ++ receiver.rxQueue.elems.drop before.rxQueue.elems.length }
  | .command env =>
    let world := ((commandTaskDispatch hmac psk).run env s.receiver.world).2
    some { s with
      receiver := { s.receiver with world := world }
      taken := s.taken ++ s.receiver.rxQueue.tryRemove.1.toList }
  | .other f =>
    if (f s.receiver.world).slate.rxQueue = s.receiver.world.slate.rxQueue then
      some { s with receiver := { s.receiver with world := f s.receiver.world } }
    else none

/-- Behind `radio_task_init`. -/
def afterRadioTaskInit (env : Env) (s : RadioReceiver) : Accounting :=
  ⟨s.radioTaskInit env, [], 0, [], []⟩

/-- No command reaches into the queue it came from. -/
theorem rxQueue_dispatchCommand (p : Packet) (env : Env) (w : World) :
    ((dispatchCommand p).run env w).2.slate.rxQueue = w.slate.rxQueue := by
  have hunnamed : .rxQueue ∉ dispatchCommandQueues 0 p w.slate := by
    unfold dispatchCommandQueues
    split
    · decide
    · decide
    · split
      · exact List.not_mem_nil
      · exact List.not_mem_nil
    · exact List.not_mem_nil
  have hkeep := dispatchCommand_keepsQueue env hunnamed
  exact BoundedQueue.ext (congrArg Prod.fst hkeep)

/-- The command task does to `rx_queue` what `queue_try_remove` does. -/
theorem rxQueue_commandTaskDispatch (env : Env) (w : World) :
    ((commandTaskDispatch hmac psk).run env w).2.slate.rxQueue = w.slate.rxQueue.tryRemove.2 := by
  cases hremove : w.slate.rxQueue.tryRemove with
  | mk removed rxQueue =>
    cases removed with
    | none =>
      rw [commandTaskDispatch_of_empty hmac psk hremove]
      exact (BoundedQueue.tryRemove_of_none hremove).symm
    | some packet =>
      rw [commandTaskDispatch_of_packet hmac psk hremove]
      split
      · exact rxQueue_dispatchCommand packet env _
      · rfl

/-- The books are in order. All counters are modulo 2^32. -/
structure Accounting.Balanced (s : Accounting) : Prop where
  bytes : s.receiver.rxBytes = UInt32.ofNat s.bytes
  bad : s.receiver.rxBadPacketDrops = UInt32.ofNat (s.fates.count .bad)
  packets : s.receiver.rxPackets = UInt32.ofNat (s.fates.filterMap FrameFate.packet).length
  queued : s.receiver.rxPackets
    = s.receiver.rxBackpressureDrops + UInt32.ofNat s.added.length
  fifo : s.added = s.taken ++ s.receiver.rxQueue.elems
  arrival : s.added.Sublist (s.fates.filterMap FrameFate.packet)

variable {hmac psk}

theorem balanced_afterRadioTaskInit (env : Env) (r : RadioReceiver) :
    (afterRadioTaskInit env r).Balanced where
  bytes := rfl
  bad := rfl
  packets := rfl
  queued := rfl
  fifo := rfl
  arrival := List.nil_sublist _

/-- A frame that does not reach the queue adds nothing to it. -/
theorem Accounting.Balanced.of_unqueued {s : Accounting} (hs : s.Balanced) {fate : FrameFate}
    (hfate : fate.packet = none) {r : RadioReceiver} {n : Nat}
    (hbytes : r.rxBytes = s.receiver.rxBytes + UInt32.ofNat n)
    (hbad : r.rxBadPacketDrops = UInt32.ofNat ((s.fates ++ [fate]).count .bad))
    (hpackets : r.rxPackets = s.receiver.rxPackets)
    (hdrops : r.rxBackpressureDrops = s.receiver.rxBackpressureDrops)
    (hqueue : r.rxQueue = s.receiver.rxQueue) :
    Balanced { s with
      receiver := r
      fates := s.fates ++ [fate]
      bytes := s.bytes + n
      added := s.added ++ r.rxQueue.elems.drop s.receiver.rxQueue.elems.length } := by
  have hadded : s.added ++ r.rxQueue.elems.drop s.receiver.rxQueue.elems.length = s.added := by
    rw [hqueue, List.drop_length, List.append_nil]
  have hfates : (s.fates ++ [fate]).filterMap FrameFate.packet
      = s.fates.filterMap FrameFate.packet := by
    rw [List.filterMap_append, List.filterMap_cons_none hfate, List.filterMap_nil, List.append_nil]
  rw [hadded]
  refine ⟨?_, hbad, ?_, ?_, ?_, ?_⟩
  · show r.rxBytes = UInt32.ofNat (s.bytes + n)
    rw [hbytes, hs.bytes, UInt32.ofNat_add]
  · show r.rxPackets = UInt32.ofNat (List.filterMap _ (s.fates ++ [fate])).length
    rw [hpackets, hfates, hs.packets]
  · show r.rxPackets = r.rxBackpressureDrops + UInt32.ofNat s.added.length
    rw [hpackets, hdrops, hs.queued]
  · show s.added = s.taken ++ r.rxQueue.elems
    rw [hqueue, hs.fifo]
  · show s.added.Sublist (List.filterMap _ (s.fates ++ [fate]))
    rw [hfates]
    exact hs.arrival

/-- A frame keeps the books, whatever its fate. -/
theorem Accounting.Balanced.of_counted {s : Accounting} (hs : s.Balanced) {fate : FrameFate}
    {r : RadioReceiver} {n : Nat} (hbytes : r.rxBytes = s.receiver.rxBytes + UInt32.ofNat n)
    (hcounted : fate.Counted s.receiver r) :
    Balanced { s with
      receiver := r
      fates := s.fates ++ [fate]
      bytes := s.bytes + n
      added := s.added ++ r.rxQueue.elems.drop s.receiver.rxQueue.elems.length } := by
  cases fate with
  | bad =>
    obtain ⟨hbad, hpackets, hdrops, hqueue⟩ := hcounted
    apply hs.of_unqueued rfl hbytes _ hpackets hdrops hqueue
    rw [hbad, hs.bad, List.count_append, List.count_singleton_self, UInt32.ofNat_add]
    rfl
  | elsewhere =>
    obtain ⟨hbad, hpackets, hdrops, hqueue⟩ := hcounted
    apply hs.of_unqueued rfl hbytes _ hpackets hdrops hqueue
    rw [hbad, hs.bad, List.count_append, List.count_singleton]
    rfl
  | addressed p =>
    obtain ⟨hbad, hpackets, hqueued⟩ := hcounted
    have hfates : (s.fates ++ [FrameFate.addressed p]).filterMap FrameFate.packet
        = s.fates.filterMap FrameFate.packet ++ [p] := List.filterMap_append
    have hnobad : r.rxBadPacketDrops
        = UInt32.ofNat ((s.fates ++ [FrameFate.addressed p]).count .bad) := by
      rw [hbad, hs.bad, List.count_append, List.count_singleton]
      rfl
    have hone : r.rxPackets = UInt32.ofNat
        ((s.fates ++ [FrameFate.addressed p]).filterMap FrameFate.packet).length := by
      rw [hpackets, hs.packets, hfates, List.length_append, UInt32.ofNat_add]
      rfl
    have htotal : r.rxBytes = UInt32.ofNat (s.bytes + n) := by
      rw [hbytes, hs.bytes, UInt32.ofNat_add]
    rcases hqueued with ⟨_, hdrops, helems⟩ | ⟨_, hdrops, hqueue⟩
    · -- it found room: one more is added, the last one to come
      have hnew : r.rxQueue.elems.drop s.receiver.rxQueue.elems.length = [p] := by
        rw [helems, List.drop_left]
      rw [hnew]
      refine ⟨htotal, hnobad, hone, ?_, ?_, ?_⟩
      · show r.rxPackets = r.rxBackpressureDrops + UInt32.ofNat (s.added ++ [p]).length
        rw [hpackets, hdrops, hs.queued, List.length_append, UInt32.ofNat_add, UInt32.add_assoc]
        rfl
      · show s.added ++ [p] = s.taken ++ r.rxQueue.elems
        rw [helems, hs.fifo, List.append_assoc]
      · show (s.added ++ [p]).Sublist (List.filterMap _ (s.fates ++ [FrameFate.addressed p]))
        rw [hfates]
        exact hs.arrival.append (List.Sublist.refl _)
    · -- the queue was full: it is counted as received and as dropped
      have hnone : r.rxQueue.elems.drop s.receiver.rxQueue.elems.length = [] := by
        rw [hqueue, List.drop_length]
      rw [hnone, List.append_nil]
      refine ⟨htotal, hnobad, hone, ?_, ?_, ?_⟩
      · show r.rxPackets = r.rxBackpressureDrops + UInt32.ofNat s.added.length
        rw [hpackets, hdrops, hs.queued, UInt32.add_assoc, UInt32.add_comm _ 1, UInt32.add_assoc]
      · show s.added = s.taken ++ r.rxQueue.elems
        rw [hqueue, hs.fifo]
      · show s.added.Sublist (List.filterMap _ (s.fates ++ [FrameFate.addressed p]))
        rw [hfates]
        exact hs.arrival.trans (List.sublist_append_left _ _)

/-- The step lemma. -/
theorem accountStep_balanced (s : Accounting) (e : ReceiveEvent) (s' : Accounting)
    (hs : s.Balanced) (h : accountStep hmac psk s e = some s') : s'.Balanced := by
  cases e with
  | frame chip =>
    cases h
    have hreceives := (s.receiver.hold chip).rxDone_receives
    apply hs.of_counted _ hreceives.counted
    rw [UInt32.ofNat_uInt8ToNat]
    exact hreceives.rxBytes
  | command env =>
    cases h
    refine ⟨hs.bytes, hs.bad, hs.packets, hs.queued, ?_, hs.arrival⟩
    have hqueue : ((commandTaskDispatch hmac psk).run env s.receiver.world).2.slate.rxQueue
        = s.receiver.rxQueue.tryRemove.2 := rxQueue_commandTaskDispatch hmac psk env _
    show s.added = (s.taken ++ s.receiver.rxQueue.tryRemove.1.toList)
      ++ ((commandTaskDispatch hmac psk).run env s.receiver.world).2.slate.rxQueue.elems
    rw [hqueue, List.append_assoc, ← BoundedQueue.elems_of_tryRemove]
    exact hs.fifo
  | other f =>
    rw [accountStep] at h
    split at h
    · next hsame =>
      cases h
      refine ⟨hs.bytes, hs.bad, hs.packets, hs.queued, ?_, hs.arrival⟩
      show s.added = s.taken ++ (f s.receiver.world).slate.rxQueue.elems
      rw [hsame]
      exact hs.fifo
    · cases h

/-- **Receive accounting.** In every run since `radio_task_init`, of frames, calls of the command
task and anything else that leaves `rx_queue` alone, modulo 2^32: the packets counted as received,
less those dropped, are those that were ever added to the queue; the counters count the fates of
the frames; what was taken out of the queue and what is in it is what was added, in its order, and
that is what came, in its order; and wherever a frame comes in, it is counted once, by its fate,
and leaves no interrupt flag. -/
theorem receive_accounting (env : Env) (r : RadioReceiver) {events : List ReceiveEvent}
    {s : Accounting}
    (hrun : run (accountStep hmac psk) (afterRadioTaskInit env r) events = some s) :
    s.receiver.rxPackets - s.receiver.rxBackpressureDrops = UInt32.ofNat s.added.length ∧
    (s.receiver.rxBytes = UInt32.ofNat s.bytes ∧
      s.receiver.rxBadPacketDrops = UInt32.ofNat (s.fates.count .bad) ∧
      s.receiver.rxPackets = UInt32.ofNat (s.fates.filterMap FrameFate.packet).length) ∧
    s.added = s.taken ++ s.receiver.rxQueue.elems ∧
    s.added.Sublist (s.fates.filterMap FrameFate.packet) ∧
    ∀ chip, (s.receiver.hold chip).Receives (s.receiver.hold chip).rxDone := by
  have hs : s.Balanced := invariant' (accountStep hmac psk) accountStep_balanced hrun
    (balanced_afterRadioTaskInit env r)
  refine ⟨?_, ⟨hs.bytes, hs.bad, hs.packets⟩, hs.fifo, hs.arrival, ?_⟩
  · rw [hs.queued, UInt32.add_comm, UInt32.add_sub_cancel]
  · intro chip
    exact RadioReceiver.rxDone_receives _

end Accounting

/-- A chip that has received these bytes, with checked CRCs. -/
def RxChip.holding (bytes : List UInt8) : RxChip where
  opMode := rxMode
  fifoAddrPtr := 0
  fifoRxCurrentAddr := 0
  irqFlags := 0x40
  rxNbBytes := UInt8.ofNat bytes.length
  modemConfig2 := 4
  memory := fun i => bytes.getD i.toNat 0

/-- A receiver with the address 1 behind a reset. -/
def receiverAtReset : RadioReceiver where
  world := World.atReset ⟨0, 0, 0⟩
  radioNode := 1
  rxBytes := 0
  rxPackets := 0
  rxBackpressureDrops := 0
  rxBadPacketDrops := 0
  chip := RxChip.holding []

/-- Two packets without a payload, to all and to node 2, and a frame that is too short; the command
task is called in between. -/
def threeFrames : List ReceiveEvent :=
  [.frame (.holding (List.replicate 4 0xFF ++ List.replicate 41 0)), .command Env.still,
    .frame (.holding (2 :: List.replicate 44 0)), .frame (.holding [1])]

/-- Each of them is counted once. -/
theorem receive_accounting_three_frames :
    ∃ s, run (accountStep (fun _ _ => Vector.replicate 32 0) none)
        (afterRadioTaskInit Env.still receiverAtReset) threeFrames = some s ∧
      s.taken.length = 1 ∧ s.receiver.rxBadPacketDrops = 1 ∧ s.receiver.rxBytes = 91 ∧
      s.receiver.rxPackets - s.receiver.rxBackpressureDrops = UInt32.ofNat s.added.length := by
  have hran : (run (accountStep (fun _ _ => Vector.replicate 32 0) none)
      (afterRadioTaskInit Env.still receiverAtReset) threeFrames).map (fun s =>
        (s.taken.length, s.receiver.rxBadPacketDrops, s.receiver.rxBytes)) = some (1, 1, 91) := by
    decide +kernel
  obtain ⟨s, hrun, hcounts⟩ := Option.map_eq_some_iff.mp hran
  obtain ⟨htaken, hrest⟩ := Prod.mk.inj hcounts
  obtain ⟨hbad, hbytes⟩ := Prod.mk.inj hrest
  exact ⟨s, hrun, htaken, hbad, hbytes, (receive_accounting Env.still receiverAtReset hrun).1⟩

end Samwise
