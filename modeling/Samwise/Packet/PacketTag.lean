import Samwise.Packet.Authentication
import Samwise.Tinycrypt.Hmac

/-!
# Samwise — the tag of a packet, call by call

`is_packet_authenticated` of `src/packet/packet.c` with its calls of tinycrypt: the struct for the
keyed hash on the stack, three updates with pieces of the packet, a comparison. It is the check of
`Authentication` with HMAC-SHA256 in the place of the arbitrary function there.
-/

namespace Samwise

open Buffer Tinycrypt

/-- HMAC-SHA256, as a function of the key of the packets. -/
def hmacSha256 : Hmac := fun key msg =>
  ⟨(Sha256.hmac key.toList msg).toArray, by rw [List.size_toArray, Sha256.length_hmac]⟩

theorem toList_hmacSha256 (key : PacketHmacPsk) (msg : List UInt8) :
    (hmacSha256 key msg).toList = Sha256.hmac key.toList msg := rfl

/-- What the stack holds before it is written: the struct, tinycrypt's `dummy_key`, and
`out_hmac`. -/
structure TagStack where
  hmac : TcHmacState
  length_key : hmac.key.length = 128
  dummyKey : Vector UInt8 64
  outHmac : Vector UInt8 32

/-- The calls of tinycrypt: `out_hmac`. -/
def outHmacAt (stack : TagStack) (key : PacketHmacPsk) (packet : Packet) :
    Option (List UInt8) := do
  let (_, hmac) ← tcHmacSetKey stack.hmac key.toList stack.dummyKey
  let hmac ← tcHmacInit hmac
  let hmac ← tcHmacUpdate hmac (← slice packet.bytes 0 packetOffsetData)
  let hmac ← tcHmacUpdate hmac (← slice packet.data.toList 0 packet.len.toNat)
  let afterDataLen := packetOffsetHmac - packetOffsetAfterData
  let hmac ← tcHmacUpdate hmac (← slice packet.bytes packetOffsetAfterData afterDataLen)
  let (_, outHmac, _) ← tcHmacFinal stack.outHmac.toList 32 hmac
  return outHmac

/-- `is_packet_authenticated`: the verdict and `last_seen_msg_id` afterwards. -/
def isPacketAuthenticatedAt (stack : TagStack) (psk : Option PacketHmacPsk) (lastSeenMsgId : UInt32)
    (packet : Packet) (currentBootCount : UInt32) : Option (Bool × UInt32) :=
  match psk with
  | none => some (true, lastSeenMsgId)
  | some key =>
    if packet.bootCount ≠ currentBootCount then some (false, lastSeenMsgId)
    else if packet.msgId ≤ lastSeenMsgId then some (false, lastSeenMsgId)
    else do
      let outHmac ← outHmacAt stack key packet
      if tcCompare outHmac packet.hmac.toList ≠ 0 then return (false, lastSeenMsgId)
      else return (true, packet.msgId)

/-- The three pieces. -/
theorem slices_hmacMessage {packet : Packet} (h : packet.len.toNat ≤ packetDataSize) :
    ∃ header payload counters, slice packet.bytes 0 packetOffsetData = some header ∧
      slice packet.data.toList 0 packet.len.toNat = some payload ∧
      slice packet.bytes packetOffsetAfterData (packetOffsetHmac - packetOffsetAfterData)
        = some counters ∧
      [header, payload, counters].flatten = hmacMessage packet := by
  have hbytes : packet.bytes.length = 255 := packet.length_bytes
  have hdata : packet.data.toList.length = packetDataSize := Vector.length_toList
  refine ⟨_, _, _, slice_eq_some ?_, slice_eq_some ?_, slice_eq_some ?_, ?_⟩
  · rw [hbytes]
    decide
  · omega
  · rw [hbytes]
    decide
  · -- the data lies behind the header
    have hpayload : (packet.data.toList.drop 0).take packet.len.toNat
        = (packet.bytes.drop packetOffsetData).take packet.len.toNat := by
      have hdrop : packet.bytes.drop packetOffsetData
          = packet.data.toList ++ (packet.counters ++ packet.hmac.toList) := by
        simp [Packet.bytes, packetOffsetData, List.append_assoc, Packet.header]
      rw [hdrop, List.take_append_of_le_length (by omega), List.drop_zero]
    rw [hpayload, hmacMessage]
    simp only [List.flatten_cons, List.flatten_nil, List.append_nil, List.drop_zero,
      List.append_assoc]

/-- `out_hmac` is the tag. -/
theorem outHmacAt_eq (stack : TagStack) (key : PacketHmacPsk) {packet : Packet}
    (h : packet.len.toNat ≤ packetDataSize) :
    outHmacAt stack key packet = some (hmacSha256 key (hmacMessage packet)).toList := by
  obtain ⟨header, payload, counters, hheader, hpayload, hcounters, hmessage⟩ :=
    slices_hmacMessage h
  have hkey : key.toList ≠ [] := by
    intro hnil
    have hlength : key.toList.length = 32 := Vector.length_toList
    rw [hnil] at hlength
    cases hlength
  obtain ⟨ctx₁, hset, hinner, houter⟩ := tcHmacSetKey_eq stack.dummyKey stack.length_key hkey
  obtain ⟨ctx₂, hinit, hkeyed⟩ := tcHmacInit_keyed hinner houter
  obtain ⟨ctx₃, hupdates, hkeyed'⟩ := hkeyed.updates [header, payload, counters]
  rw [List.nil_append, hmessage] at hkeyed'
  simp only [List.foldlM_cons, List.foldlM_nil, Option.bind_eq_bind, Option.pure_def] at hupdates
  obtain ⟨ctx₄, hfirst, hupdates⟩ := Option.bind_eq_some_iff.mp hupdates
  obtain ⟨ctx₅, hsecond, hupdates⟩ := Option.bind_eq_some_iff.mp hupdates
  obtain ⟨ctx₆, hthird, hlast⟩ := Option.bind_eq_some_iff.mp hupdates
  obtain rfl := Option.some.inj hlast
  rw [toList_hmacSha256]
  unfold outHmacAt
  simp only [Option.bind_eq_bind, hset, Option.bind_some, hinit, hheader, hfirst, hpayload, hsecond,
    hcounters, hthird, hkeyed'.final (Vector.length_toList), Option.pure_def]

/-- The tag does not cover itself. -/
theorem hmacMessage_setHmac (packet : Packet) (tag : Digest)
    (h : packet.len.toNat ≤ packetDataSize) :
    hmacMessage { packet with hmac := tag } = hmacMessage packet :=
  (hmacMessage_eq { packet with hmac := tag } h).trans (hmacMessage_eq packet h).symm

/-- **The check rests on HMAC-SHA256.** For every packet whose data fits its array, whatever the
stack holds: no access of `is_packet_authenticated` or of tinycrypt fails, and the verdict and
`last_seen_msg_id` are those of the check with HMAC-SHA256. -/
theorem isPacketAuthenticatedAt_eq (stack : TagStack) (psk : Option PacketHmacPsk)
    (lastSeenMsgId : UInt32) (packet : Packet) (currentBootCount : UInt32)
    (h : packet.len.toNat ≤ packetDataSize) :
    isPacketAuthenticatedAt stack psk lastSeenMsgId packet currentBootCount
      = some (isPacketAuthenticated hmacSha256 psk lastSeenMsgId packet currentBootCount) := by
  unfold isPacketAuthenticatedAt isPacketAuthenticated
  cases psk with
  | none => rfl
  | some key =>
    dsimp only
    split
    · rfl
    · split
      · rfl
      · rw [outHmacAt_eq stack key h, Option.bind_eq_bind, Option.bind_some]
        split <;> rfl

/-- A packet with two bytes of data, the id 1 and the tag of its message, under a key of zeros. -/
theorem isPacketAuthenticatedAt_eq_genuine :
    let key : PacketHmacPsk := Vector.replicate 32 0
    let stack : TagStack :=
      ⟨.zero, List.length_replicate, Vector.replicate 64 0, Vector.replicate 32 0⟩
    let unsigned : Packet := { Packet.zero with
      len := 2
      data := (Packet.zero.data.setIfInBounds 0 0x68).setIfInBounds 1 0x69
      msgId := 1 }
    unsigned.payload = [0x68, 0x69] ∧
    isPacketAuthenticatedAt stack (some key) 0
      { unsigned with hmac := hmacSha256 key (hmacMessage unsigned) } 0 = some (true, 1) := by
  intro key stack unsigned
  refine ⟨by decide +kernel, ?_⟩
  have hlen : unsigned.len.toNat ≤ packetDataSize := by decide
  obtain ⟨tag, htag⟩ : ∃ tag, tag = hmacSha256 key (hmacMessage unsigned) := ⟨_, rfl⟩
  have haccepts : Accepts hmacSha256 key 0 0 { unsigned with hmac := tag } := by
    have hfresh : (0 : UInt32) < 1 := by decide
    refine ⟨rfl, hfresh, ?_⟩
    rw [hmacMessage_setHmac unsigned tag hlen]
    exact htag.symm
  rw [← htag, isPacketAuthenticatedAt_eq stack (some key) 0 { unsigned with hmac := tag } 0 hlen,
    isPacketAuthenticated_some, if_pos haccepts]

end Samwise
