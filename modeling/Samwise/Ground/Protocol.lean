import Samwise.Ground.State
import Samwise.Packet.Authentication

/-!
# Samwise — building command packets on the ground

`Packet.create` (`ground_station/protocol.py`) with the packet model it fills
(`ground_station/models.py`), and `LoraRadio.send_command`
(`ground_station/radio_commands.py`) down to the bytes on the air. Python arguments are
integers of any size, so `struct.pack` can fail; a failure is an `Except` of its exception.
The HMAC is the same arbitrary function the flight side uses.
-/

namespace Samwise.Ground

open LittleEndian

/-- The exceptions these functions raise. -/
inductive PyError where
  | valueError
  | structError
deriving DecidableEq, Repr

/-! ## `config.py` -/

/-- `PACKET_HEADER_SIZE`. -/
def configPacketHeaderSize : Nat := 5

/-- `PACKET_FOOTER_SIZE`. -/
def configPacketFooterSize : Nat := 8 + 32

/-- `PACKET_MAX_DATA_SIZE`. -/
def packetMaxDataSize : Nat := 255 - configPacketHeaderSize - configPacketFooterSize

@[simp] theorem packetMaxDataSize_eq : packetMaxDataSize = 210 := rfl

/-! ## `struct.pack` -/

/-- One `B` field. -/
def packB (x : Int) : Except PyError UInt8 :=
  if 0 ≤ x ∧ x < 256 then .ok (UInt8.ofNat x.toNat) else .error .structError

/-- One `I` field of a `<` format. -/
def packI (x : Int) : Except PyError (List UInt8) :=
  if 0 ≤ x ∧ x < 2 ^ 32 then .ok (encode 4 x.toNat) else .error .structError

@[simp] theorem packB_toNat (b : UInt8) : packB b.toNat = .ok b := by
  have hb : b.toNat < 256 := b.toNat_lt
  have hlt : (b.toNat : Int) < 256 := by omega
  simp [packB, hlt]

@[simp] theorem packI_toNat (x : UInt32) : packI x.toNat = .ok (le32 x) := by
  have hx : x.toNat < 2 ^ 32 := x.toNat_lt
  have hlt : (x.toNat : Int) < 4294967296 := by omega
  simp [packI, le32, hlt]

/-! ## The packet model -/

/-- `models.Packet`, before it is signed. -/
structure ModelPacket where
  dst : Int
  src : Int
  flags : Int
  seq : Int
  data : List UInt8
  bootCount : Option Int
  msgId : Option Int

/-- `Packet.header_bytes`. -/
def ModelPacket.headerBytes (pkt : ModelPacket) : Except PyError (List UInt8) := do
  let dst ← packB pkt.dst
  let src ← packB pkt.src
  let flags ← packB pkt.flags
  let seq ← packB pkt.seq
  let len ← packB pkt.data.length
  return [dst, src, flags, seq, len]

/-- `Packet.footer_bytes`. -/
def ModelPacket.footerBytes (pkt : ModelPacket) : Except PyError (List UInt8) :=
  match pkt.bootCount, pkt.msgId with
  | some bootCount, some msgId => do
    let boot ← packI bootCount
    let msg ← packI msgId
    return boot ++ msg
  | _, _ => return []

/-- `Packet.create`: the signed packet, and the state manager afterwards. The message id is
drawn after the size check and before the fields are packed. -/
def createPacket (hmac : Hmac) (key : PacketHmacPsk) (env : SaveEnv) (sm : StateManager)
    (dst src flags seq : Int) (data : List UInt8) :
    Except PyError (List UInt8) × StateManager :=
  if data.length > packetMaxDataSize then (.error .valueError, sm)
  else
    let next := sm.getNextMsgId env
    let pkt : ModelPacket :=
      { dst, src, flags, seq, data, bootCount := some sm.bootCount, msgId := some next.1 }
    let packet : Except PyError (List UInt8) := do
      let header ← pkt.headerBytes
      let footer ← pkt.footerBytes
      let payload := header ++ pkt.data ++ footer
      return payload ++ (hmac key payload).toList
    (packet, next.2)

/-- `radio.send` as `send_command` calls it: the first four bytes of the packet go out as
the RadioHead header, the rest as the payload behind it. -/
def radioSend (packet : List UInt8) : List UInt8 :=
  [byteAt packet 0, byteAt packet 1, byteAt packet 2, byteAt packet 3] ++ packet.drop 4

/-- The split into RadioHead header and payload is undone on the air. -/
theorem radioSend_eq {packet : List UInt8} (h : 4 ≤ packet.length) :
    radioSend packet = packet := by
  match packet, h with
  | _ :: _ :: _ :: _ :: _, _ => rfl

/-! ## What `Packet.create` builds -/

/-- The flight packet a successful `Packet.create` stands for: its fields, with the payload
at the front of an array that holds `data` behind it. -/
def signedPacket (hmac : Hmac) (key : PacketHmacPsk) (dst src flags seq : UInt8)
    (bootCount msgId : UInt32) (payload : List UInt8) (data : Vector UInt8 210) : Packet :=
  let len := UInt8.ofNat payload.length
  let message := [dst, src, flags, seq, len] ++ payload ++ le32 bootCount ++ le32 msgId
  { dst, src, flags, seq, len, bootCount, msgId,
    data := Memory.copyInto data payload
    hmac := hmac key message }

section SignedPacket

variable (hmac : Hmac) (key : PacketHmacPsk) (dst src flags seq : UInt8)
  (bootCount msgId : UInt32) {payload : List UInt8} (data : Vector UInt8 210)

theorem signedPacket_len (h : payload.length ≤ 210) :
    (signedPacket hmac key dst src flags seq bootCount msgId payload data).len.toNat
      = payload.length := by
  simp only [signedPacket, UInt8.toNat_ofNat']
  omega

theorem signedPacket_payload (h : payload.length ≤ 210) :
    (signedPacket hmac key dst src flags seq bootCount msgId payload data).payload = payload := by
  rw [Packet.payload, signedPacket_len hmac key dst src flags seq bootCount msgId data h]
  show (Memory.copyInto data payload).toList.take payload.length = payload
  rw [Memory.toList_copyInto data h, List.take_left]

/-- The tag of a signed packet is the HMAC over its own header, payload and counters. -/
theorem signedPacket_hmac (h : payload.length ≤ 210) :
    let p := signedPacket hmac key dst src flags seq bootCount msgId payload data
    p.hmac = hmac key (p.header ++ p.payload ++ p.counters) := by
  intro p
  rw [signedPacket_payload hmac key dst src flags seq bootCount msgId data h, Packet.counters,
    ← List.append_assoc]
  rfl

/-- **What `Packet.create` builds.** For a payload that fits, byte-sized header fields and
32-bit counters, it is the frame of the signed packet. -/
theorem createPacket_eq (env : SaveEnv) (sm : StateManager) (h : payload.length ≤ 210)
    (hboot : sm.bootCount = bootCount.toNat) (hmsg : sm.msgId + 1 = msgId.toNat) :
    (createPacket hmac key env sm dst.toNat src.toNat flags.toNat seq.toNat payload).1
      = .ok (signedPacket hmac key dst src flags seq bootCount msgId payload data).frame := by
  have hlen : packB payload.length = .ok (UInt8.ofNat payload.length) := by
    have hlt : (payload.length : Int) < 256 := by omega
    simp [packB, hlt]
  have hnext := (StateManager.getNextMsgId_eq env sm).1
  have hframe : (signedPacket hmac key dst src flags seq bootCount msgId payload data).frame
      = [dst, src, flags, seq, UInt8.ofNat payload.length] ++ payload
        ++ (le32 bootCount ++ le32 msgId)
        ++ (hmac key ([dst, src, flags, seq, UInt8.ofNat payload.length] ++ payload
          ++ (le32 bootCount ++ le32 msgId))).toList := by
    rw [Packet.frame, signedPacket_payload hmac key dst src flags seq bootCount msgId data h,
      ← List.append_assoc _ (le32 bootCount) (le32 msgId)]
    simp [signedPacket, Packet.header, Packet.counters, List.append_assoc]
  rw [createPacket, if_neg (by simpa using h)]
  simp only [ModelPacket.headerBytes, ModelPacket.footerBytes, packB_toNat, hlen, hnext, hboot,
    hmsg, packI_toNat, hframe]
  rfl

end SignedPacket

/-- A packed counter is a 32-bit word. -/
theorem packI_ok {x : Int} {bs : List UInt8} (h : packI x = .ok bs) :
    ∃ w : UInt32, x = w.toNat := by
  unfold packI at h
  split at h
  · next hrange =>
    refine ⟨UInt32.ofNat x.toNat, ?_⟩
    rw [UInt32.toNat_ofNat']
    omega
  · simp at h

/-- A packed header field is a byte. -/
theorem packB_ok {x : Int} {b : UInt8} (h : packB x = .ok b) : ∃ b : UInt8, x = b.toNat := by
  unfold packB at h
  split at h
  · next hrange =>
    refine ⟨UInt8.ofNat x.toNat, ?_⟩
    rw [UInt8.toNat_ofNat']
    omega
  · simp at h

/-- Packed header bytes come from byte-sized fields. -/
theorem ModelPacket.headerBytes_ok {pkt : ModelPacket} {header : List UInt8}
    (h : pkt.headerBytes = .ok header) :
    ∃ dst src flags seq : UInt8, pkt.dst = dst.toNat ∧ pkt.src = src.toNat
      ∧ pkt.flags = flags.toNat ∧ pkt.seq = seq.toNat := by
  unfold ModelPacket.headerBytes at h
  -- the fields are packed in turn, so each has a result of its own
  cases hdst : packB pkt.dst with
  | error e => simp [hdst, bind, Except.bind] at h
  | ok dst =>
    cases hsrc : packB pkt.src with
    | error e => simp [hdst, hsrc, bind, Except.bind] at h
    | ok src =>
      cases hflags : packB pkt.flags with
      | error e => simp [hdst, hsrc, hflags, bind, Except.bind] at h
      | ok flags =>
        cases hseq : packB pkt.seq with
        | error e => simp [hdst, hsrc, hflags, hseq, bind, Except.bind] at h
        | ok seq =>
          obtain ⟨dst, hdst⟩ := packB_ok hdst
          obtain ⟨src, hsrc⟩ := packB_ok hsrc
          obtain ⟨flags, hflags⟩ := packB_ok hflags
          obtain ⟨seq, hseq⟩ := packB_ok hseq
          exact ⟨dst, src, flags, seq, hdst, hsrc, hflags, hseq⟩

/-- A packet with a footer has two packed counters. -/
theorem ModelPacket.footerBytes_ok {pkt : ModelPacket} {bootCount msgId : Int} {bs : List UInt8}
    (hboot : pkt.bootCount = some bootCount) (hmsg : pkt.msgId = some msgId)
    (h : pkt.footerBytes = .ok bs) :
    (∃ w : UInt32, bootCount = w.toNat) ∧ ∃ w : UInt32, msgId = w.toNat := by
  simp only [ModelPacket.footerBytes, hboot, hmsg] at h
  cases hb : packI bootCount with
  | error e => simp [hb, bind, Except.bind] at h
  | ok boot =>
    cases hm : packI msgId with
    | error e => simp [hb, hm, bind, Except.bind] at h
    | ok msg => exact ⟨packI_ok hb, packI_ok hm⟩

/-- A packet that was created has data that fits and counters of 32 bits. -/
theorem createPacket_ok {hmac : Hmac} {key : PacketHmacPsk} {env : SaveEnv} {sm : StateManager}
    {dst src flags seq : Int} {payload packet : List UInt8}
    (h : (createPacket hmac key env sm dst src flags seq payload).1 = .ok packet) :
    payload.length ≤ 210 ∧ ∃ bootCount msgId : UInt32,
      sm.bootCount = bootCount.toNat ∧ sm.msgId + 1 = msgId.toNat := by
  unfold createPacket at h
  split at h
  · simp at h
  · next hlen =>
    have hnext := (StateManager.getNextMsgId_eq env sm).1
    simp only [hnext] at h
    set pkt : ModelPacket :=
      { dst, src, flags, seq, data := payload, bootCount := some sm.bootCount,
        msgId := some (sm.msgId + 1) }
    cases hheader : pkt.headerBytes with
    | error e => simp [hheader, bind, Except.bind] at h
    | ok header =>
      cases hfooter : pkt.footerBytes with
      | error e => simp [hheader, hfooter, bind, Except.bind] at h
      | ok footer =>
        obtain ⟨⟨bootCount, hboot⟩, msgId, hmsg⟩ := ModelPacket.footerBytes_ok rfl rfl hfooter
        exact ⟨by simpa using hlen, bootCount, msgId, hboot, hmsg⟩

/-- **What a created packet is.** Whatever `Packet.create` was called with, a packet it
returns is the frame of a signed packet with the counters of the state manager. -/
theorem createPacket_signed {hmac : Hmac} {key : PacketHmacPsk} {env : SaveEnv}
    {sm : StateManager} {dst src flags seq : Int} {payload packet : List UInt8}
    (data : Vector UInt8 210)
    (h : (createPacket hmac key env sm dst src flags seq payload).1 = .ok packet) :
    payload.length ≤ 210 ∧ ∃ (d s f q : UInt8) (bootCount msgId : UInt32),
      sm.bootCount = bootCount.toNat ∧ sm.msgId + 1 = msgId.toNat
        ∧ packet = (signedPacket hmac key d s f q bootCount msgId payload data).frame := by
  obtain ⟨hlen, bootCount, msgId, hboot, hmsg⟩ := createPacket_ok h
  have hfields : ∃ d s f q : UInt8,
      dst = d.toNat ∧ src = s.toNat ∧ flags = f.toNat ∧ seq = q.toNat := by
    unfold createPacket at h
    rw [if_neg (by simpa using hlen)] at h
    simp only at h
    set pkt : ModelPacket :=
      { dst, src, flags, seq, data := payload, bootCount := some sm.bootCount,
        msgId := some (sm.getNextMsgId env).1 }
    cases hheader : pkt.headerBytes with
    | error e => simp [hheader, bind, Except.bind] at h
    | ok header => exact ModelPacket.headerBytes_ok hheader
  obtain ⟨d, s, f, q, rfl, rfl, rfl, rfl⟩ := hfields
  rw [createPacket_eq hmac key d s f q bootCount msgId data env sm hlen hboot hmsg] at h
  exact ⟨hlen, d, s, f, q, bootCount, msgId, hboot, hmsg, (Except.ok.inj h).symm⟩

/-- The state manager behind `Packet.create` has drawn an id, or is as it was. -/
theorem createPacket_state (hmac : Hmac) (key : PacketHmacPsk) (env : SaveEnv)
    (sm : StateManager) (dst src flags seq : Int) (payload : List UInt8) :
    (createPacket hmac key env sm dst src flags seq payload).2
      = if payload.length > packetMaxDataSize then sm else (sm.getNextMsgId env).2 := by
  unfold createPacket
  split <;> rfl

theorem four_le_length_frame (p : Packet) : 4 ≤ p.frame.length := by
  simp only [Packet.frame, List.length_append, Packet.length_header]
  omega

end Samwise.Ground
