import Samwise.Ground.Protocol

/-!
# Samwise — the uplink, end to end

What the ground station builds is what the flight software parses and authenticates. The
argument is one detour: `Packet.create` lays out the frame of a flight packet
(`createPacket_eq`), the Adafruit library's split into header and payload is undone on the
air (`radioSend_eq`), and `parse_packet` reads a frame back (`parsePacket_frame`).
-/

namespace Samwise

open LittleEndian Ground

section Uplink

variable (hmac : Hmac) (key : PacketHmacPsk) (dst src flags seq : UInt8)
  (bootCount msgId : UInt32) {payload : List UInt8}

/-- The packet a signed frame parses to: `data` holds the payload and, behind it, what the
destination held before. -/
theorem parsePacket_signedPacket (old : Packet) (rest : List UInt8) (h : payload.length ≤ 210) :
    let p := signedPacket hmac key dst src flags seq bootCount msgId payload old.data
    parsePacket (p.frame ++ rest) p.frame.length old = (true, p) := by
  intro p
  have hlen : p.len.toNat = payload.length :=
    signedPacket_len hmac key dst src flags seq bootCount msgId old.data h
  have hle : p.len.toNat ≤ packetDataSize := by rw [hlen]; exact h
  have hpayload : p.payload = payload :=
    signedPacket_payload hmac key dst src flags seq bootCount msgId old.data h
  rw [p.length_frame hle, parsePacket_frame p old rest hle, hpayload]
  rfl

/-- A signed packet passes the check exactly when its counters do: its tag is never what
fails. -/
theorem isPacketAuthenticated_signedPacket (data : Vector UInt8 210) (last cur : UInt32)
    (h : payload.length ≤ 210) :
    (isPacketAuthenticated hmac (some key) last
      (signedPacket hmac key dst src flags seq bootCount msgId payload data) cur).1 = true ↔
      bootCount = cur ∧ last < msgId := by
  set p := signedPacket hmac key dst src flags seq bootCount msgId payload data with hp
  have hle : p.len.toNat ≤ packetDataSize := by
    rw [hp, signedPacket_len hmac key dst src flags seq bootCount msgId data h]
    exact h
  have htag : hmac key (hmacMessage p) = p.hmac := by
    rw [hmacMessage_eq p hle]
    exact (signedPacket_hmac hmac key dst src flags seq bootCount msgId data h).symm
  rw [isPacketAuthenticated_true_iff]
  constructor
  · rintro ⟨hboot, hmsg, _⟩
    exact ⟨hboot, hmsg⟩
  · rintro ⟨hboot, hmsg⟩
    exact ⟨hboot, hmsg, htag⟩

end Uplink

/-- **Uplink agreement.** Whatever bytes, counters and key the ground station signs with, and
whatever the receive buffer held before: the bytes on the air parse to a packet with exactly
those fields, and with the same key the check passes exactly when the boot count is the
current one and the id is larger than the last seen. -/
theorem uplink_agreement (hmac : Hmac) (key : PacketHmacPsk) (dst src flags seq : UInt8)
    (payload : List UInt8) (h : payload.length ≤ 210) (bootCount msgId : UInt32)
    (env : SaveEnv) (sm : StateManager) (old : Packet) (rest : List UInt8) :
    ∃ packet q,
      (createPacket hmac key env { sm with bootCount := bootCount.toNat, msgId := msgId.toNat - 1 }
        dst.toNat src.toNat flags.toNat seq.toNat payload).1 = .ok packet ∧
      parsePacket (radioSend packet ++ rest) (radioSend packet).length old = (true, q) ∧
      (q.dst = dst ∧ q.src = src ∧ q.flags = flags ∧ q.seq = seq ∧
        q.len.toNat = payload.length ∧ q.payload = payload ∧
        q.bootCount = bootCount ∧ q.msgId = msgId) ∧
      ∀ last cur, (isPacketAuthenticated hmac (some key) last q cur).1 = true ↔
        bootCount = cur ∧ last < msgId := by
  set p := signedPacket hmac key dst src flags seq bootCount msgId payload old.data with hp
  have hlen : p.len.toNat = payload.length :=
    signedPacket_len hmac key dst src flags seq bootCount msgId old.data h
  refine ⟨p.frame, p, ?_, ?_, ⟨rfl, rfl, rfl, rfl, hlen, ?_, rfl, rfl⟩, ?_⟩
  · exact createPacket_eq hmac key dst src flags seq bootCount msgId old.data env _ h rfl
      (Int.sub_add_cancel _ 1)
  · rw [radioSend_eq (four_le_length_frame p)]
    exact parsePacket_signedPacket hmac key dst src flags seq bootCount msgId old rest h
  · exact signedPacket_payload hmac key dst src flags seq bootCount msgId old.data h
  · intro last cur
    exact isPacketAuthenticated_signedPacket hmac key dst src flags seq bootCount msgId old.data
      last cur h

/-- The agreement for the ping, sent as message 42 of boot 7 after message 41 was seen. -/
theorem uplink_agreement_noOp :
    let hmac : Hmac := fun _ _ => Vector.replicate 32 7
    let key : PacketHmacPsk := Vector.replicate 32 1
    ∃ packet q,
      (createPacket hmac key ⟨0, true⟩ ⟨7, 41, 0, false, none⟩ 255 255 0 0 [0]).1 = .ok packet ∧
      parsePacket (radioSend packet) (radioSend packet).length Packet.zero = (true, q) ∧
      q.payload = [0] ∧ (isPacketAuthenticated hmac (some key) 41 q 7).1 = true := by
  intro hmac key
  obtain ⟨packet, q, hcreate, hparse, hfields, hauth⟩ :=
    uplink_agreement hmac key 255 255 0 0 [0] (by decide) 7 42 ⟨0, true⟩ ⟨0, 0, 0, false, none⟩
      Packet.zero []
  refine ⟨packet, q, hcreate, ?_, hfields.2.2.2.2.2.1, (hauth 41 7).mpr (by decide)⟩
  rwa [List.append_nil] at hparse

end Samwise
