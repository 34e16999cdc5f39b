import Samwise.Payload.PayloadUart
import Samwise.Payload.SerialPacketHandler

/-!
# Samwise — packets over an ideal line

One transfer over a line that loses nothing, in each direction, with the clock running. The
flight side's transmitter keeps `holding` bytes behind the one on the line: one, with its
FIFO turned off. What decides is the length of the packet: `uart_write_timeout` has 10 ms for
all of it, which is 115 bytes on the line and those the transmitter holds, and the flight
side's `receive_into` has 50 ms, which is 574 bytes and the ACK before them.
-/

namespace Samwise

open SerialLine

/-- `payload_uart_write_packet` to a `read_packet` that waits. -/
def CompletesToPi (holding piHolding : Nat) (packet : List UInt8) (seqNum : UInt16) : Prop :=
  Completes holding piHolding (PayloadUart.payloadUartWritePacket packet seqNum)
    SerialPacketHandler.readPacket
    (fun w r => w = .returned .successfulWrite ∧ r = .returned (some (packet, seqNum.toNat)))
    ⟨Port.init (PayloadUart.writePacketEntry packet), Port.init (.waitForSync 0 0)⟩

/-- `write_packet` to a `payload_uart_read_packet` that waits. -/
def CompletesFromPi (holding piHolding : Nat) (packet : List UInt8) (seqNum : UInt16) : Prop :=
  Completes piHolding holding (SerialPacketHandler.writePacket packet seqNum.toNat)
    PayloadUart.payloadUartReadPacket
    (fun w r => w = .returned true ∧ r = .returned packet.length packet)
    ⟨Port.init (SerialPacketHandler.writePacketEntry packet seqNum.toNat),
      Port.init (.receiveSyn 0 0)⟩

variable {holding piHolding : Nat} {packet : List UInt8} {seqNum : UInt16}

/-! ## The two headers are one -/

theorem calculateHeader_eq (hlen : packet.length < 2 ^ 16) :
    SerialPacketHandler.calculateHeader packet seqNum.toNat
      = (PayloadUart.computePacketHeader packet seqNum).toBytes := by
  have hlength : (UInt16.ofNat packet.length).toNat = packet.length := by
    rw [UInt16.toNat_ofNat']
    exact Nat.mod_eq_of_lt hlen
  simp [SerialPacketHandler.calculateHeader, PayloadUart.PacketHeader.toBytes,
    PayloadUart.computePacketHeader, LittleEndian.pack, -UInt16.toNat_ofNat', hlength]

theorem computePacketHeader_length (hlen : packet.length < 2 ^ 16) :
    (PayloadUart.computePacketHeader packet seqNum).length.toNat = packet.length := by
  rw [PayloadUart.computePacketHeader, UInt16.toNat_ofNat']
  exact Nat.mod_eq_of_lt hlen

/-- What the Pi makes of the flight side's header. -/
theorem checkHeader_toBytes (hlen : packet.length ≤ PayloadUart.maxPacketLen) :
    SerialPacketHandler.checkHeader (PayloadUart.computePacketHeader packet seqNum).toBytes
      = .sendHeaderAck ⟨packet.length, seqNum.toNat, LittleEndian.le32 (crc32 packet)⟩ := by
  unfold PayloadUart.maxPacketLen at hlen
  have hfits : ¬packet.length > SerialPacketHandler.maxPacketSize := by
    unfold SerialPacketHandler.maxPacketSize; omega
  rw [← calculateHeader_eq (by omega), SerialPacketHandler.checkHeader,
    SerialPacketHandler.decodeHeader_calculateHeader (by omega) seqNum.toNat_lt, if_neg hfits]

/-- What the flight side makes of the Pi's header. -/
theorem ofBytes_calculateHeader (hlen : packet.length < 2 ^ 16) :
    PayloadUart.PacketHeader.ofBytes (SerialPacketHandler.calculateHeader packet seqNum.toNat)
      = PayloadUart.computePacketHeader packet seqNum := by
  rw [calculateHeader_eq hlen, PayloadUart.ofBytes_toBytes]

theorem checkBody_toPi :
    SerialPacketHandler.checkBody
        ⟨packet.length, seqNum.toNat, LittleEndian.le32 (crc32 packet)⟩ packet
      = .sendBodyAck packet seqNum.toNat := by
  simp [SerialPacketHandler.checkBody]

theorem checkBody_fromPi (hlen : packet.length < 2 ^ 16) :
    PayloadUart.checkBody (PayloadUart.computePacketHeader packet seqNum) packet
      = .sendBodyAck packet := by
  have hlength : (UInt16.ofNat packet.length).toNat = packet.length := by
    rw [UInt16.toNat_ofNat']
    exact Nat.mod_eq_of_lt hlen
  simp [PayloadUart.checkBody, PayloadUart.computePacketHeader, -UInt16.toNat_ofNat', hlength]

/-! ## From the flight side to the Pi -/

section ToPi

open PayloadUart

variable (holding packet seqNum) in
theorem toPi_sync :
    ∃ c, c ≤ 30 ∧ Moves holding (payloadUartWritePacket packet seqNum) ⟨.sync 0 0, 0, 0, [], false⟩
      (frames 0 [synByte, synByte, synByte]) ⟨.awaitSyn 0 c, c, 30, [], false⟩ := by
  have hact (w : Nat) (hw : w < 3) : payloadUartWritePacket packet seqNum (.sync 0 w)
      = .put synByte fun _ => .sync 0 (w + 1) := if_pos hw
  obtain ⟨c, _, hc, _, hmoves⟩ := Moves.puts (h := holding) (c := 0) (u := 0) (i := []) (e := false)
    (n := 2) (puts_replicate (d := 30) hact) (by decide) (by decide) (by omega)
    (by unfold byteTime; omega)
  -- all three are out: on to the wait
  have hwait : Port.move holding (payloadUartWritePacket packet seqNum)
      ⟨.sync 0 3, c, 30, [], false⟩ = some (⟨.awaitSyn 0 c, c, 30, [], false⟩, []) :=
    move_skip rfl rfl
  exact ⟨c, hc, hmoves.silent hwait⟩

theorem toPi_readSync :
    Moves piHolding SerialPacketHandler.readPacket
      ⟨.waitForSync 0 0, 0, 0, frames 0 [synByte, synByte, synByte], false⟩ []
      ⟨.sendSyncAck, 30, 0, [], false⟩ := by
  have hread (count start arrival : Nat) (i : List (Nat × UInt8)) (hlo : start ≤ arrival)
      (hhi : arrival < start + SerialPacketHandler.timeout) :
      Port.move piHolding SerialPacketHandler.readPacket
          ⟨.waitForSync count start, start, 0, (arrival, synByte) :: i, false⟩
        = some (⟨SerialPacketHandler.countSync count arrival synByte, arrival, 0, i, false⟩, []) :=
    move_get rfl rfl hlo hhi
  exact .head (hread 0 0 10 (frames 10 [synByte, synByte]) (by decide) (by decide))
    (.head (hread 1 10 20 (frames 20 [synByte]) (by decide) (by decide))
      (.single (hread 2 20 30 [] (by decide) (by decide))))

variable (holding packet seqNum) in
theorem toPi_header :
    ∃ c, 40 ≤ c ∧ c ≤ 130 ∧ Moves holding (payloadUartWritePacket packet seqNum)
      ⟨.writeStart, 40, 30, [], false⟩
      (frames 40 (startByte :: (computePacketHeader packet seqNum).toBytes))
      ⟨.awaitHeader c, c, 130, [], false⟩ := by
  have hlen := length_toBytes (computePacketHeader packet seqNum)
  have hmax : writeMaxTimeout = 1152 := rfl
  have hputs : ∀ w b, (computePacketHeader packet seqNum).toBytes[w]? = some b →
      Puts (payloadUartWritePacket packet seqNum) (40 + writeMaxTimeout) (.writeHeader 40 w) b
        (.writeHeader 40 (w + 1)) := by
    intro w b hb
    refine .inr ⟨40 + writeMaxTimeout, fun _ => .returned .uartWriteTimedout, Nat.le_refl _, ?_⟩
    simp only [payloadUartWritePacket, hb]
  have hstart : Port.move holding (payloadUartWritePacket packet seqNum)
      ⟨.writeStart, 40, 30, [], false⟩
        = some (⟨.writeHeader 40 0, 40, 50, [], false⟩, [(50, startByte)]) :=
    move_put rfl rfl (by decide)
  obtain ⟨c, hc, _, hcu, hmoves⟩ := Moves.puts (h := holding) (c := 40) (u := 50) (i := [])
    (e := false) (n := 7) hputs (by rw [hlen]; decide) (by omega) (by omega)
    (by unfold byteTime; omega)
  -- the eighth byte is the last
  rw [List.take_of_length_le (by rw [hlen]; decide)] at hmoves
  have hnone : (computePacketHeader packet seqNum).toBytes[8]? = none :=
    List.getElem?_eq_none (by rw [hlen]; decide)
  have hskip : payloadUartWritePacket packet seqNum (.writeHeader 40 8)
      = .sleep 0 fun now => .awaitHeader now := by
    simp only [payloadUartWritePacket, hnone]
  have hwait : Port.move holding (payloadUartWritePacket packet seqNum)
      ⟨.writeHeader 40 8, c, 130, [], false⟩
        = some (⟨.awaitHeader c, c, 130, [], false⟩, []) := move_skip hskip rfl
  exact ⟨c, hc, hcu, .head hstart (hmoves.silent hwait)⟩

theorem toPi_readHeader (hlen : packet.length ≤ maxPacketLen) :
    Moves piHolding SerialPacketHandler.readPacket
      ⟨.waitForStart 0 30, 30, 40,
        frames 40 (startByte :: (computePacketHeader packet seqNum).toBytes), false⟩ []
      ⟨.sendHeaderAck ⟨packet.length, seqNum.toNat, LittleEndian.le32 (crc32 packet)⟩, 130, 40, [],
        false⟩ := by
  have hstart : Port.move piHolding SerialPacketHandler.readPacket
      ⟨.waitForStart 0 30, 30, 40,
        (50, startByte) :: frames 50 (computePacketHeader packet seqNum).toBytes, false⟩
      = some (⟨.readHeader 50 [], 50, 40, frames 50 (computePacketHeader packet seqNum).toBytes,
          false⟩, []) := move_get rfl rfl (by decide) (by decide)
  have hact (received : List UInt8) : SerialPacketHandler.readPacket (.readHeader 50 received)
      = .read SerialPacketHandler.headerLen (50 + SerialPacketHandler.timeout) received
          (.readHeader 50) (fun _ header => SerialPacketHandler.checkHeader header)
          (fun _ _ => .returned none) := rfl
  have hheader := Moves.read (h := piHolding) (c := 50) (u := 40) (a := 50) (e := false) [] hact
    (length_toBytes (computePacketHeader packet seqNum)) (by decide) (by decide) (by decide)
  rw [List.append_nil, checkHeader_toBytes hlen] at hheader
  exact .head hstart hheader

/-- **Up to the packet's body.** The sync and the header are acknowledged, with the flight
side's clock at 140. -/
theorem toPi_body (hpos : 0 < packet.length) (hlen : packet.length ≤ maxPacketLen) :
    Reaches holding piHolding (payloadUartWritePacket packet seqNum)
      SerialPacketHandler.readPacket
      ⟨Port.init (writePacketEntry packet), Port.init (.waitForSync 0 0)⟩
      ⟨⟨.writeBody 140 0, 140, 130, [], false⟩,
        ⟨.readBody ⟨packet.length, seqNum.toNat, LittleEndian.le32 (crc32 packet)⟩ 130 [], 130, 140,
          [], false⟩⟩ := by
  have hentry : writePacketEntry packet = .sync 0 0 := if_neg (by omega)
  have htimeout : byteTimeout = 115200 := rfl
  rw [hentry]
  -- the sync bytes, and the ACK to them
  obtain ⟨c, hc, hsync⟩ := toPi_sync holding packet seqNum
  have hwait : Port.move holding (payloadUartWritePacket packet seqNum)
      ⟨.awaitSyn 0 c, c, 30, [], false⟩ = none := move_get_nil rfl
  have hack : Port.move piHolding SerialPacketHandler.readPacket ⟨.sendSyncAck, 30, 0, [], false⟩
      = some (⟨.waitForStart 0 30, 30, 40, [], false⟩, [(40, ackByte)]) := move_put rfl rfl (by decide)
  have synced := Reaches.exchange (r := ⟨.waitForSync 0 0, 0, 0, [], false⟩) hsync hwait
    toPi_readSync hack
  have hacked : Port.move holding (payloadUartWritePacket packet seqNum)
      ⟨.awaitSyn 0 c, c, 30, [(40, ackByte)], false⟩
        = some (⟨.writeStart, 40, 30, [], false⟩, []) := move_get rfl rfl (by omega) (by omega)
  -- the header, and the ACK to it
  obtain ⟨d, hlo, hhi, hheader⟩ := toPi_header holding packet seqNum
  have hwait' : Port.move holding (payloadUartWritePacket packet seqNum)
      ⟨.awaitHeader d, d, 130, [], false⟩ = none := move_get_nil rfl
  have hack' : Port.move piHolding SerialPacketHandler.readPacket
      ⟨.sendHeaderAck ⟨packet.length, seqNum.toNat, LittleEndian.le32 (crc32 packet)⟩, 130, 40, [],
        false⟩
      = some (⟨.readBody ⟨packet.length, seqNum.toNat, LittleEndian.le32 (crc32 packet)⟩ 130 [],
          130, 140, [], false⟩, [(140, ackByte)]) := by
    have hbody : ¬packet.length = 0 := by omega
    exact move_put rfl (if_neg hbody) (by decide)
  have headed := Reaches.exchange (r := ⟨.waitForStart 0 30, 30, 40, [], false⟩)
    (Moves.trans (.single hacked) hheader) hwait' (toPi_readHeader hlen) hack'
  have hacked' : Port.move holding (payloadUartWritePacket packet seqNum)
      ⟨.awaitHeader d, d, 130, [(140, ackByte)], false⟩
        = some (⟨.writeBody 140 0, 140, 130, [], false⟩, []) :=
    move_get rfl rfl (by omega) (by omega)
  exact (synced.trans headed).trans (.left (.single hacked'))

/-- In the body's loop every byte is put with the same deadline. -/
theorem toPi_putBefore (seqNum : UInt16) (w : Nat) (b : UInt8) (hb : packet[w]? = some b) :
    payloadUartWritePacket packet seqNum (.writeBody 140 w)
      = .putBefore (140 + writeMaxTimeout) b (fun _ => .writeBody 140 (w + 1))
          (fun now => .awaitBody now) := by
  simp only [payloadUartWritePacket, hb]

theorem toPi_puts (packet : List UInt8) (seqNum : UInt16) (w : Nat) (b : UInt8) (hb : packet[w]? = some b) :
    Puts (payloadUartWritePacket packet seqNum) (140 + writeMaxTimeout) (.writeBody 140 w) b
      (.writeBody 140 (w + 1)) :=
  .inr ⟨_, _, Nat.le_refl _, toPi_putBefore seqNum w b hb⟩

/-- A packet that `uart_write_timeout` gets rid of in time completes. -/
theorem completesToPi (hpos : 0 < packet.length) (hlen : packet.length ≤ maxPacketLen)
    (hroom : packet.length ≤ holding + 116) :
    CompletesToPi holding piHolding packet seqNum := by
  have hmax : maxPacketLen = 4069 := rfl
  have hwrite : writeMaxTimeout = 1152 := rfl
  have htimeout : byteTimeout = 115200 := rfl
  have hpi : SerialPacketHandler.timeout = 1152000 := rfl
  -- all of the packet goes out
  obtain ⟨n, hn⟩ : ∃ n, packet.length = n + 1 := ⟨packet.length - 1, by omega⟩
  have hputs := toPi_puts packet seqNum
  obtain ⟨c, hlo, _, hhi, hmoves⟩ := Moves.puts (h := holding) (c := 140) (u := 130) (i := [])
    (e := false) (n := n) hputs (by omega) (by omega) (by omega) (by unfold byteTime; omega)
  rw [List.take_of_length_le (by omega), ← hn] at hmoves
  have hnone : packet[packet.length]? = none := List.getElem?_eq_none (Nat.le_refl _)
  have hskip : payloadUartWritePacket packet seqNum (.writeBody 140 packet.length)
      = .sleep 0 fun now => .awaitBody now := by
    simp only [payloadUartWritePacket, hnone]
  have hout : Port.move holding (payloadUartWritePacket packet seqNum)
      ⟨.writeBody 140 packet.length, c, 140 + byteTime * packet.length, [], false⟩
        = some (⟨.awaitBody c, c, 140 + byteTime * packet.length, [], false⟩, []) :=
    move_skip hskip rfl
  have hwait : Port.move holding (payloadUartWritePacket packet seqNum)
      ⟨.awaitBody c, c, 140 + byteTime * packet.length, [], false⟩ = none := move_get_nil rfl
  -- the Pi reads it and acknowledges it
  let header : SerialPacketHandler.DecodedHeader :=
    ⟨packet.length, seqNum.toNat, LittleEndian.le32 (crc32 packet)⟩
  have hact (received : List UInt8) : SerialPacketHandler.readPacket (.readBody header 130 received)
      = .read packet.length (130 + SerialPacketHandler.timeout) received (.readBody header 130)
          (fun _ packet => SerialPacketHandler.checkBody header packet)
          (fun _ packet => SerialPacketHandler.checkBody header packet) := rfl
  have hread := Moves.read (h := piHolding) (c := 130) (u := 140) (a := 140) (e := false) [] hact
    (rfl : packet.length = packet.length) hpos (by omega) (by unfold byteTime; omega)
  rw [List.append_nil, checkBody_toPi] at hread
  have hack : Port.move piHolding SerialPacketHandler.readPacket
      ⟨.sendBodyAck packet seqNum.toNat, 140 + byteTime * packet.length, 140, [], false⟩
        = some (⟨.returned (some (packet, seqNum.toNat)), 140 + byteTime * packet.length,
            140 + byteTime * packet.length + byteTime, [], false⟩,
          [(140 + byteTime * packet.length + byteTime, ackByte)]) :=
    move_put rfl rfl (by omega)
  have delivered := Reaches.exchange (r := ⟨.readBody header 130 [], 130, 140, [], false⟩)
    (hmoves.silent hout) hwait hread hack
  have hacked : Port.move holding (payloadUartWritePacket packet seqNum)
      ⟨.awaitBody c, c, 140 + byteTime * packet.length,
        [(140 + byteTime * packet.length + byteTime, ackByte)], false⟩
        = some (⟨.returned .successfulWrite, 140 + byteTime * packet.length + byteTime,
            140 + byteTime * packet.length, [], false⟩, []) :=
    move_get rfl rfl (by unfold byteTime at *; omega) (by unfold byteTime; omega)
  exact ⟨_, ((toPi_body hpos hlen).trans delivered).trans (.left (.single hacked)),
    step_eq_none rfl rfl, ⟨rfl, rfl⟩, rfl, rfl⟩

/-- A longer one does not: the time for the write is over with bytes left. -/
theorem not_completesToPi (hlen : packet.length ≤ maxPacketLen)
    (hroom : holding + 116 < packet.length) :
    ¬CompletesToPi holding piHolding packet seqNum := by
  have hwrite : writeMaxTimeout = 1152 := rfl
  have hputs := toPi_puts packet seqNum
  obtain ⟨c, _, hc, hhi, hmoves⟩ := Moves.puts (h := holding) (c := 140) (u := 130) (i := [])
    (e := false) (n := holding + 115) hputs (by omega) (by omega) (by omega)
    (by unfold byteTime; omega)
  have hb : packet[holding + 116]? = some packet[holding + 116] := List.getElem?_eq_getElem hroom
  -- the transmitter holds all it can, and has no room again by the deadline
  obtain ⟨q, hlate, hq⟩ := move_put_late (h := holding) (c := c)
    (u := 140 + byteTime * (holding + 116)) (i := []) (e := false)
    (toPi_putBefore seqNum _ _ hb) hc (by unfold byteTime; omega)
  exact not_completes ((toPi_body (by omega) hlen).trans
    (.left (hmoves.silent hlate))) (.inl hq)

end ToPi

/-! ## From the Pi to the flight side -/

section FromPi

open SerialPacketHandler

variable (piHolding packet seqNum) in
theorem fromPi_sync :
    ∃ c, c ≤ 30 ∧ Moves piHolding (writePacket packet seqNum.toNat) ⟨.sync 0 0, 0, 0, [], false⟩
      (frames 0 [synByte, synByte, synByte]) ⟨.awaitSync 0 c, c, 30, [], false⟩ := by
  have hact (w : Nat) (hw : w < 3) : writePacket packet seqNum.toNat (.sync 0 w)
      = .put synByte fun _ => .sync 0 (w + 1) := if_pos hw
  obtain ⟨c, _, hc, _, hmoves⟩ := Moves.puts (h := piHolding) (c := 0) (u := 0) (i := [])
    (e := false) (n := 2) (puts_replicate (d := 30) hact) (by decide) (by decide) (by omega)
    (by unfold byteTime; omega)
  have hwait : Port.move piHolding (writePacket packet seqNum.toNat)
      ⟨.sync 0 3, c, 30, [], false⟩ = some (⟨.awaitSync 0 c, c, 30, [], false⟩, []) :=
    move_skip rfl rfl
  exact ⟨c, hc, hmoves.silent hwait⟩

theorem fromPi_readSync :
    Moves holding PayloadUart.payloadUartReadPacket
      ⟨.receiveSyn 0 0, 0, 0, frames 0 [synByte, synByte, synByte], false⟩ []
      ⟨.sendSynAck, 30, 0, [], false⟩ := by
  have hread (count start arrival : Nat) (i : List (Nat × UInt8)) (hlo : start ≤ arrival)
      (hhi : arrival < start + PayloadUart.byteTimeout) :
      Port.move holding PayloadUart.payloadUartReadPacket
          ⟨.receiveSyn count start, start, 0, (arrival, synByte) :: i, false⟩
        = some (⟨PayloadUart.countSyn count arrival synByte, arrival, 0, i, false⟩, []) :=
    move_get rfl rfl hlo hhi
  exact .head (hread 0 0 10 (frames 10 [synByte, synByte]) (by decide) (by decide))
    (.head (hread 1 10 20 (frames 20 [synByte]) (by decide) (by decide))
      (.single (hread 2 20 30 [] (by decide) (by decide))))

variable (piHolding packet seqNum) in
theorem fromPi_header :
    ∃ c, 40 ≤ c ∧ c ≤ 130 ∧ Moves piHolding (writePacket packet seqNum.toNat)
      ⟨.writePrim, 40, 30, [], false⟩
      (frames 40 (primByte :: calculateHeader packet seqNum.toNat))
      ⟨.awaitHeader c, c, 130, [], false⟩ := by
  have hlen := length_calculateHeader packet seqNum.toNat
  have hputs : ∀ w b, (calculateHeader packet seqNum.toNat)[w]? = some b →
      Puts (writePacket packet seqNum.toNat) 130 (.writeHeader w) b (.writeHeader (w + 1)) := by
    intro w b hb
    refine .inl ?_
    simp only [writePacket, hb]
  have hstart : Port.move piHolding (writePacket packet seqNum.toNat)
      ⟨.writePrim, 40, 30, [], false⟩
        = some (⟨.writeHeader 0, 40, 50, [], false⟩, [(50, primByte)]) :=
    move_put rfl rfl (by decide)
  obtain ⟨c, hc, _, hcu, hmoves⟩ := Moves.puts (h := piHolding) (c := 40) (u := 50) (i := [])
    (e := false) (n := 7) hputs (by rw [hlen]; decide) (by omega) (by omega)
    (by unfold byteTime; omega)
  rw [List.take_of_length_le (by rw [hlen]; decide)] at hmoves
  have hnone : (calculateHeader packet seqNum.toNat)[8]? = none :=
    List.getElem?_eq_none (by rw [hlen]; decide)
  have hskip : writePacket packet seqNum.toNat (.writeHeader 8)
      = .sleep 0 fun now => .awaitHeader now := by
    simp only [writePacket, hnone]
  have hwait : Port.move piHolding (writePacket packet seqNum.toNat)
      ⟨.writeHeader 8, c, 130, [], false⟩
        = some (⟨.awaitHeader c, c, 130, [], false⟩, []) := move_skip hskip rfl
  exact ⟨c, hc, hcu, .head hstart (hmoves.silent hwait)⟩

theorem fromPi_readHeader (hlen : packet.length ≤ PayloadUart.maxPacketLen) :
    Moves holding PayloadUart.payloadUartReadPacket
      ⟨.receiveHeaderStart 0 30, 30, 40,
        frames 40 (primByte :: calculateHeader packet seqNum.toNat), false⟩ []
      ⟨.sendHeaderAck (PayloadUart.computePacketHeader packet seqNum), 130, 40, [], false⟩ := by
  have hmax : PayloadUart.maxPacketLen = 4069 := rfl
  have hstart : Port.move holding PayloadUart.payloadUartReadPacket
      ⟨.receiveHeaderStart 0 30, 30, 40,
        (50, primByte) :: frames 50 (calculateHeader packet seqNum.toNat), false⟩
      = some (⟨.receiveHeader 50 [], 50, 40, frames 50 (calculateHeader packet seqNum.toNat),
          false⟩, []) := move_get rfl rfl (by decide) (by decide)
  have hact (received : List UInt8) :
      PayloadUart.payloadUartReadPacket (.receiveHeader 50 received)
        = .read PayloadUart.headerLen (50 + PayloadUart.uartReadWriteBlocking) received
            (.receiveHeader 50) (fun _ received => .sendHeaderAck (.ofBytes received))
            (fun _ _ => .returned 0 []) := rfl
  have hheader := Moves.read (h := holding) (c := 50) (u := 40) (a := 50) (e := false) [] hact
    (length_calculateHeader packet seqNum.toNat) (by decide) (by decide) (by decide)
  rw [List.append_nil, ofBytes_calculateHeader (by omega)] at hheader
  exact .head hstart hheader

/-- **Up to the packet's body.** The sync and the header are acknowledged; the flight side's
50 ms run from 130 on, and the Pi's clock is at 140. -/
theorem fromPi_body (hlen : packet.length ≤ PayloadUart.maxPacketLen) :
    Reaches piHolding holding (writePacket packet seqNum.toNat) PayloadUart.payloadUartReadPacket
      ⟨Port.init (writePacketEntry packet seqNum.toNat), Port.init (.receiveSyn 0 0)⟩
      ⟨⟨.writeBody 0, 140, 130, [], false⟩,
        ⟨.receiveBody (PayloadUart.computePacketHeader packet seqNum) 130 [], 130, 140, [],
          false⟩⟩ := by
  have hmax : PayloadUart.maxPacketLen = 4069 := rfl
  have hpi : timeout = 1152000 := rfl
  -- a number of two bytes and a packet that is not too big
  have hentry : writePacketEntry packet seqNum.toNat = .sync 0 0 := by
    have hseq : ¬seqNum.toNat ≥ 2 ^ 16 := Nat.not_le.mpr seqNum.toNat_lt
    have hfits : ¬packet.length > maxPacketSize := by unfold maxPacketSize; omega
    rw [writePacketEntry, if_neg hfits, if_neg hseq]
  rw [hentry]
  -- the sync bytes, and the ACK to them
  obtain ⟨c, hc, hsync⟩ := fromPi_sync piHolding packet seqNum
  have hwait : Port.move piHolding (writePacket packet seqNum.toNat)
      ⟨.awaitSync 0 c, c, 30, [], false⟩ = none := move_get_nil rfl
  have hack : Port.move holding PayloadUart.payloadUartReadPacket ⟨.sendSynAck, 30, 0, [], false⟩
      = some (⟨.receiveHeaderStart 0 30, 30, 40, [], false⟩, [(40, ackByte)]) :=
    move_put rfl rfl (by decide)
  have synced := Reaches.exchange (r := ⟨.receiveSyn 0 0, 0, 0, [], false⟩) hsync hwait
    fromPi_readSync hack
  have hacked : Port.move piHolding (writePacket packet seqNum.toNat)
      ⟨.awaitSync 0 c, c, 30, [(40, ackByte)], false⟩
        = some (⟨.writePrim, 40, 30, [], false⟩, []) := move_get rfl rfl (by omega) (by omega)
  -- the header, and the ACK to it
  obtain ⟨d, hlo, hhi, hheader⟩ := fromPi_header piHolding packet seqNum
  have hwait' : Port.move piHolding (writePacket packet seqNum.toNat)
      ⟨.awaitHeader d, d, 130, [], false⟩ = none := move_get_nil rfl
  have hack' : Port.move holding PayloadUart.payloadUartReadPacket
      ⟨.sendHeaderAck (PayloadUart.computePacketHeader packet seqNum), 130, 40, [], false⟩
      = some (⟨.receiveBody (PayloadUart.computePacketHeader packet seqNum) 130 [], 130, 140, [],
          false⟩, [(140, ackByte)]) := by
    have hfits : ¬(PayloadUart.computePacketHeader packet seqNum).length.toNat
        > PayloadUart.maxPacketLen := by
      rw [computePacketHeader_length (by omega)]
      omega
    exact move_put rfl (if_neg hfits) (by decide)
  have headed := Reaches.exchange (r := ⟨.receiveHeaderStart 0 30, 30, 40, [], false⟩)
    (Moves.trans (.single hacked) hheader) hwait' (fromPi_readHeader hlen) hack'
  have hacked' : Port.move piHolding (writePacket packet seqNum.toNat)
      ⟨.awaitHeader d, d, 130, [(140, ackByte)], false⟩
        = some (⟨.writeBody 0, 140, 130, [], false⟩, []) := move_get rfl rfl (by omega) (by omega)
  exact (synced.trans headed).trans (.left (.single hacked'))

variable (piHolding packet seqNum) in
/-- The body goes out; then the Pi waits for the last ACK. -/
theorem fromPi_writeBody (hpos : 0 < packet.length) :
    ∃ c, 140 ≤ c ∧ c ≤ 140 + byteTime * packet.length ∧
      Moves piHolding (writePacket packet seqNum.toNat) ⟨.writeBody 0, 140, 130, [], false⟩
        (frames 140 packet) ⟨.awaitBody c, c, 140 + byteTime * packet.length, [], false⟩ := by
  obtain ⟨n, hn⟩ : ∃ n, packet.length = n + 1 := ⟨packet.length - 1, by omega⟩
  have hputs : ∀ w b, packet[w]? = some b →
      Puts (writePacket packet seqNum.toNat) (140 + byteTime * n) (.writeBody w) b
        (.writeBody (w + 1)) := by
    intro w b hb
    refine .inl ?_
    simp only [writePacket, hb]
  obtain ⟨c, hlo, _, hhi, hmoves⟩ := Moves.puts (h := piHolding) (c := 140) (u := 130) (i := [])
    (e := false) (n := n) hputs (by omega) (by omega) (by omega) (by omega)
  rw [List.take_of_length_le (by omega), ← hn] at hmoves
  have hnone : packet[packet.length]? = none := List.getElem?_eq_none (Nat.le_refl _)
  have hskip : writePacket packet seqNum.toNat (.writeBody packet.length)
      = .sleep 0 fun now => .awaitBody now := by
    simp only [writePacket, hnone]
  have hout : Port.move piHolding (writePacket packet seqNum.toNat)
      ⟨.writeBody packet.length, c, 140 + byteTime * packet.length, [], false⟩
        = some (⟨.awaitBody c, c, 140 + byteTime * packet.length, [], false⟩, []) :=
    move_skip hskip rfl
  exact ⟨c, hlo, hn ▸ hhi, hmoves.silent hout⟩

theorem receiveBody_eq (header : PayloadUart.PacketHeader) (start : Nat) (received : List UInt8) :
    PayloadUart.payloadUartReadPacket (.receiveBody header start received)
      = .read header.length.toNat (start + PayloadUart.uartReadWriteBlocking) received
          (.receiveBody header start) (fun _ received => PayloadUart.checkBody header received)
          (fun _ received => PayloadUart.checkBody header received) := rfl

/-- A packet whose last byte comes within the 50 ms completes. -/
theorem completesFromPi (hpos : 0 < packet.length) (hlen : packet.length ≤ PayloadUart.maxPacketLen)
    (htime : packet.length ≤ 574) : CompletesFromPi holding piHolding packet seqNum := by
  have hmax : PayloadUart.maxPacketLen = 4069 := rfl
  have hblocking : PayloadUart.uartReadWriteBlocking = 5760 := rfl
  have hpi : timeout = 1152000 := rfl
  obtain ⟨c, hlo, hhi, hmoves⟩ := fromPi_writeBody piHolding packet seqNum hpos
  have hwait : Port.move piHolding (writePacket packet seqNum.toNat)
      ⟨.awaitBody c, c, 140 + byteTime * packet.length, [], false⟩ = none := move_get_nil rfl
  have hread := Moves.read (h := holding) (c := 130) (u := 140) (a := 140) (e := false) []
    (receiveBody_eq (PayloadUart.computePacketHeader packet seqNum) 130)
    (computePacketHeader_length (by omega)).symm
    (by rw [computePacketHeader_length (by omega)]; exact hpos) (by omega)
    (by rw [computePacketHeader_length (by omega)]; unfold byteTime; omega)
  rw [List.append_nil, checkBody_fromPi (by omega), computePacketHeader_length (by omega)] at hread
  have hack : Port.move holding PayloadUart.payloadUartReadPacket
      ⟨.sendBodyAck packet, 140 + byteTime * packet.length, 140, [], false⟩
        = some (⟨.returned packet.length packet, 140 + byteTime * packet.length,
            140 + byteTime * packet.length + byteTime, [], false⟩,
          [(140 + byteTime * packet.length + byteTime, ackByte)]) :=
    move_put rfl rfl (by omega)
  have delivered := Reaches.exchange
    (r := ⟨.receiveBody (PayloadUart.computePacketHeader packet seqNum) 130 [], 130, 140, [], false⟩)
    hmoves hwait hread hack
  have hacked : Port.move piHolding (writePacket packet seqNum.toNat)
      ⟨.awaitBody c, c, 140 + byteTime * packet.length,
        [(140 + byteTime * packet.length + byteTime, ackByte)], false⟩
        = some (⟨.returned true, 140 + byteTime * packet.length + byteTime,
            140 + byteTime * packet.length, [], false⟩, []) :=
    move_get rfl rfl (by unfold byteTime at *; omega) (by unfold byteTime; omega)
  exact ⟨_, ((fromPi_body hlen).trans delivered).trans (.left (.single hacked)),
    step_eq_none rfl rfl, ⟨rfl, rfl⟩, rfl, rfl⟩

/-- A longer one does not: byte 575 comes when the 50 ms are over. -/
theorem not_completesFromPi (hlen : packet.length ≤ PayloadUart.maxPacketLen)
    (htime : 574 < packet.length) : ¬CompletesFromPi holding piHolding packet seqNum := by
  have hmax : PayloadUart.maxPacketLen = 4069 := rfl
  have hblocking : PayloadUart.uartReadWriteBlocking = 5760 := rfl
  obtain ⟨c, _, _, hmoves⟩ := fromPi_writeBody piHolding packet seqNum (by omega)
  have hwait : Port.move piHolding (writePacket packet seqNum.toNat)
      ⟨.awaitBody c, c, 140 + byteTime * packet.length, [], false⟩ = none := move_get_nil rfl
  have hact := receiveBody_eq (PayloadUart.computePacketHeader packet seqNum) 130
  have htake : (packet.take 574).length = 574 := by
    rw [List.length_take]
    omega
  -- the bytes that come in time, the one that does not, and the others
  have hsplit : frames 140 packet = frames 140 (packet.take 574)
      ++ ((140 + byteTime * 574 + byteTime, packet[574]) ::
        frames (140 + byteTime * 574 + byteTime) (packet.drop 575)) := by
    conv_lhs => rw [← List.take_append_drop 574 packet, List.drop_eq_getElem_cons htime]
    rw [frames_append, htake, frames]
  obtain ⟨c', hc', hreads⟩ := Moves.reads (h := holding) (c := 130) (u := 140) (a := 140)
    (e := false)
    ((140 + byteTime * 574 + byteTime, packet[574]) ::
      frames (140 + byteTime * 574 + byteTime) (packet.drop 575)) hact (packet.take 574) []
    (by rw [htake, computePacketHeader_length (by omega)]; simpa using htime) (by omega)
    (by rw [htake]; unfold byteTime; omega)
  rw [← hsplit] at hreads
  obtain ⟨q, hlate, hq⟩ := move_get_late (h := holding) (c := c') (u := 140) (e := false)
    (b := packet[574]) (i := frames (140 + byteTime * 574 + byteTime) (packet.drop 575))
    (hact ([] ++ packet.take 574)) (show _ ≤ 140 + byteTime * 574 + byteTime by
      unfold byteTime; omega)
  have hexchange := Reaches.exchange
    (r := ⟨.receiveBody (PayloadUart.computePacketHeader packet seqNum) 130 [], 130, 140, [], false⟩)
    hmoves hwait hreads hlate
  exact not_completes ((fromPi_body hlen).trans hexchange) (.inr hq)

end FromPi

/-! ## Both directions -/

/-- **When the two sides interoperate.** Over an ideal line, with the other side waiting, a
packet of 1 to 4069 bytes completes in both directions, with no deadline passed, exactly if
its bytes fit into the 10 ms of `uart_write_timeout` and into the 50 ms of the flight side's
`receive_into`. -/
theorem payload_link_interoperates (holding piHolding : Nat) (packet : List UInt8)
    (seqNum : UInt16) (hpos : 1 ≤ packet.length) (hlen : packet.length ≤ PayloadUart.maxPacketLen) :
    CompletesToPi holding piHolding packet seqNum ∧ CompletesFromPi holding piHolding packet seqNum
      ↔ packet.length ≤ holding + 116 ∧ packet.length ≤ 574 := by
  constructor
  · rintro ⟨hto, hfrom⟩
    constructor
    · by_contra hlong
      exact not_completesToPi hlen (by omega) hto
    · by_contra hlong
      exact not_completesFromPi hlen (by omega) hfrom
  · rintro ⟨hroom, htime⟩
    exact ⟨completesToPi hpos hlen hroom, completesFromPi hpos hlen htime⟩

theorem payload_link_interoperates_ping :
    CompletesToPi 1 16 [0x70, 0x69, 0x6e, 0x67] 999 ∧
      CompletesFromPi 1 16 [0x70, 0x69, 0x6e, 0x67] 999 :=
  (payload_link_interoperates 1 16 [0x70, 0x69, 0x6e, 0x67] 999 (by decide) (by decide)).mpr
    ⟨by decide, by decide⟩

/-- With the FIFO off, a packet of 118 bytes does not reach the Pi. -/
theorem packet_of_118_bytes_times_out :
    ¬∀ (packet : List UInt8) (seqNum : UInt16), 1 ≤ packet.length →
      packet.length ≤ PayloadUart.maxPacketLen →
      CompletesToPi 1 16 packet seqNum ∧ CompletesFromPi 1 16 packet seqNum := by
  intro hall
  have hlen : (List.replicate 118 (0 : UInt8)).length = 118 := List.length_replicate
  obtain ⟨hto, _⟩ := hall (List.replicate 118 0) 0 (by rw [hlen]; decide) (by rw [hlen]; decide)
  exact not_completesToPi (by rw [hlen]; decide) (by rw [hlen]; decide) hto

end Samwise
