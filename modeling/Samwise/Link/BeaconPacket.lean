import Mathlib.Data.Int.Interval
import Samwise.Link.Downlink

/-!
# Samwise — the beacon in its packet

`serialize_slate` gets no size: `pkt.data` has 210 bytes, and the static assertion checks the
parts without the call to action against 252. Here are the same statements as in
`serializeSlate`, as the bytes they store one after the other, each with its offset from
`pkt.data`.
-/

namespace Samwise

open LittleEndian Memory

/-! ## Stores -/

/-- `memcpy(data + dst, src, |src|)`. -/
def memcpyStores (dst : Nat) : List UInt8 → List (Int × UInt8)
  | [] => []
  | b :: bs => ((dst : Int), b) :: memcpyStores (dst + 1) bs

/-- `strcpy_trunc(data + dst, src, max_size)`. For a `max_size` of 0 the index `max_size - 1`
wraps, and so does the address: the byte before `dst` is stored. -/
def strcpyTruncStores (dst : Nat) (src : List UInt8) (maxSize : Nat) : List (Int × UInt8) :=
  let copied := (src ++ [0]).take maxSize
  if 0 ∈ copied then memcpyStores dst copied
  else memcpyStores dst copied ++ [((dst : Int) + maxSize - 1, 0)]

/-- `serialize_slate`: what it stores, and the length returned. -/
def serializeSlateStores (registry : StateId → Option StateName) (slate : BeaconSlate) :
    List (Int × UInt8) × Nat :=
  let stateName := Utf8.encode (beaconStateName registry slate)
  let nameLen := min stateName.length maxStrLength
  let name := strcpyTruncStores 0 stateName maxStrLength
  let call := strcpyTruncStores nameLen (Utf8.encode callToAction) (maxStrLength - nameLen)
  let statsOffset := nameLen + ((Utf8.encode callToAction).length + 1)
  let stats := pack (beaconStats slate).fields
  let adcsOffset := statsOffset + stats.length
  let adcs := pack slate.adcsTelemetry.fields
  let signOffset := adcsOffset + adcs.length
  let sign := Utf8.encode callsign ++ [0]
  (name ++ call ++ memcpyStores statsOffset stats ++ memcpyStores adcsOffset adcs
    ++ memcpyStores signOffset sign, signOffset + sign.length)

/-- What the stores leave in the memory. -/
def applyStores (m : Mem) (stores : List (Int × UInt8)) : Mem :=
  stores.foldl (fun m store i => if (i : Int) = store.1 then store.2 else m i) m

theorem applyStores_append (m : Mem) (ss ts : List (Int × UInt8)) :
    applyStores m (ss ++ ts) = applyStores (applyStores m ss) ts := List.foldl_append

theorem write_cons (m : Mem) (dst : Nat) (b : UInt8) (bs : List UInt8) :
    write m dst (b :: bs)
      = write (fun i => if (i : Int) = dst then b else m i) (dst + 1) bs := by
  funext i
  obtain hlt | rfl | hgt := Nat.lt_trichotomy i dst
  · rw [write_of_lt hlt, write_of_lt (Nat.lt_succ_of_lt hlt), if_neg (by omega)]
  · rw [write_of_lt (Nat.lt_succ_self i), if_pos rfl]
    simp [write]
  · have hsub : i - dst = (i - (dst + 1)) + 1 := by omega
    simp only [write]
    rw [if_pos (by omega), if_pos (by omega), if_neg (by omega), hsub, List.getElem?_cons_succ]

theorem applyStores_memcpyStores (m : Mem) (dst : Nat) (src : List UInt8) :
    applyStores m (memcpyStores dst src) = write m dst src := by
  induction src generalizing m dst with
  | nil =>
    funext i
    simp [memcpyStores, applyStores, write]
  | cons b bs ih =>
    rw [write_cons]
    exact ih _ (dst + 1)

theorem applyStores_strcpyTruncStores (m : Mem) {dst : Nat} (src : List UInt8) {maxSize : Nat}
    (h : 0 < dst + maxSize) :
    applyStores m (strcpyTruncStores dst src maxSize) = strcpyTruncAt m dst src maxSize := by
  have hlast : (dst : Int) + maxSize - 1 = ((dst + maxSize - 1 : Nat) : Int) := by omega
  simp only [strcpyTruncStores, strcpyTruncAt]
  split
  · exact applyStores_memcpyStores m dst _
  · rw [applyStores_append, applyStores_memcpyStores, hlast]
    exact applyStores_memcpyStores _ (dst + maxSize - 1) [0]

/-- **The stores are those of `serialize_slate`.** -/
theorem serializeSlate_eq_stores (registry : StateId → Option StateName) (slate : BeaconSlate)
    (data : Mem) :
    serializeSlate registry slate data
      = (applyStores data (serializeSlateStores registry slate).1,
        (serializeSlateStores registry slate).2) := by
  unfold serializeSlate serializeSlateStores
  simp only [applyStores_append, applyStores_memcpyStores]
  have hmax : maxStrLength = 64 := rfl
  rw [applyStores_strcpyTruncStores _ _ (by omega), applyStores_strcpyTruncStores _ _ (by omega)]

/-! ## Where they go -/

/-- The offsets of the stores. -/
def offsets (stores : List (Int × UInt8)) : List Int := stores.map Prod.fst

theorem mem_offsets_append {ss ts : List (Int × UInt8)} {i : Int} :
    i ∈ offsets (ss ++ ts) ↔ i ∈ offsets ss ∨ i ∈ offsets ts := by
  rw [offsets, List.map_append, List.mem_append]
  rfl

theorem mem_offsets_memcpyStores {dst : Nat} {src : List UInt8} {i : Int} :
    i ∈ offsets (memcpyStores dst src) ↔ dst ≤ i ∧ i < dst + src.length := by
  induction src generalizing dst with
  | nil =>
    have hnone : ¬(dst ≤ i ∧ i < dst + (([] : List UInt8).length : Int)) := by
      rw [List.length_nil]
      omega
    exact iff_of_false List.not_mem_nil hnone
  | cons b bs ih =>
    have hcons : i ∈ offsets (memcpyStores dst (b :: bs))
        ↔ i = dst ∨ i ∈ offsets (memcpyStores (dst + 1) bs) := List.mem_cons
    rw [hcons, ih, List.length_cons]
    omega

/-- A C string goes to the front of its room, cut and with the NUL at its end where it does not
fit, so before the room where there is none. -/
theorem mem_offsets_strcpyTruncStores {dst maxSize : Nat} {src : List UInt8} (h : 0 ∉ src)
    {i : Int} :
    i ∈ offsets (strcpyTruncStores dst src maxSize) ↔
      (dst ≤ i ∧ i < dst + (min maxSize (src.length + 1) : Nat)) ∨
        (maxSize ≤ src.length ∧ i = dst + maxSize - 1) := by
  have hlength : ((src ++ [0]).take maxSize).length = min maxSize (src.length + 1) := by
    rw [List.length_take, List.length_append, List.length_singleton]
  rw [strcpyTruncStores]
  obtain hfits | hcut := Nat.lt_or_ge src.length maxSize
  · have hcopied : (src ++ [0]).take maxSize = src ++ [0] :=
      List.take_of_length_le (by rw [List.length_append, List.length_singleton]; omega)
    rw [if_pos (by rw [hcopied]; exact List.mem_append_right _ List.mem_cons_self),
      mem_offsets_memcpyStores, hlength]
    exact (or_iff_left (by omega)).symm
  · have hcopied : (src ++ [0]).take maxSize = src.take maxSize :=
      List.take_append_of_le_length hcut
    have hno : 0 ∉ src.take maxSize := fun hmem => h (List.mem_of_mem_take hmem)
    rw [if_neg (by rw [hcopied]; exact hno), mem_offsets_append, mem_offsets_memcpyStores, hlength]
    apply or_congr_right
    rw [and_iff_right hcut]
    exact List.mem_singleton

section Beacon

variable (registry : StateId → Option StateName) (slate : BeaconSlate)

/-- The length of the name, as far as `strnlen` counts it. -/
def beaconNameLen : Nat := min (Utf8.encode (beaconStateName registry slate)).length maxStrLength

theorem serializeSlateStores_length :
    (serializeSlateStores registry slate).2 = beaconNameLen registry slate + 148 := by
  have hcall : (Utf8.encode callToAction).length = 10 := by decide
  have hsign : (Utf8.encode callsign ++ [0]).length = 7 := by decide
  simp only [serializeSlateStores, length_pack_stats, length_pack_adcs, hcall, hsign,
    beaconNameLen]

/-- The bytes that are stored are those before the length, without those behind the room of the
two strings that the whole call to action would take. -/
theorem mem_serializeSlateStores {i : Int} :
    i ∈ offsets (serializeSlateStores registry slate).1 ↔
      0 ≤ i ∧ i < beaconNameLen registry slate + 148 ∧
        (i < 64 ∨ beaconNameLen registry slate + 11 ≤ i) := by
  have hcall : (Utf8.encode callToAction).length = 10 := by decide
  have hsign : (Utf8.encode callsign ++ [0]).length = 7 := by decide
  have hmax : maxStrLength = 64 := rfl
  simp only [serializeSlateStores, mem_offsets_append, mem_offsets_memcpyStores,
    length_pack_stats, length_pack_adcs, hsign, hcall]
  rw [mem_offsets_strcpyTruncStores (Utf8.zero_notMem_encode
    (zero_notMem_beaconStateName registry slate)),
    mem_offsets_strcpyTruncStores (by decide), hcall, beaconNameLen, hmax]
  generalize (Utf8.encode (beaconStateName registry slate)).length = n
  omega

/-! ## The packet -/

/-- `beacon_task_dispatch`: the packet that it queues. `data` is what the stack holds from
`pkt.data` on; what is stored behind the array is in the fields behind it. -/
def beaconPacket (data : Mem) : Packet :=
  let out := serializeSlate registry slate data
  { dst := 255
    src := 0
    flags := 0
    seq := 0
    len := UInt8.ofNat out.2
    data := Vector.ofFn fun i => out.1 i
    bootCount := ofLe32 (read out.1 packetDataSize 4)
    msgId := ofLe32 (read out.1 (packetDataSize + 4) 4)
    hmac := Vector.ofFn fun i => out.1 (packetDataSize + 8 + i) }

/-- The stores stay in `pkt.data`, and the packet can be sent. -/
structure BeaconInside : Prop where
  inside : ∀ i ∈ offsets (serializeSlateStores registry slate).1, 0 ≤ i ∧ i < packetDataSize
  length : (serializeSlateStores registry slate).2 ≤ packetDataSize
  accepted : ∀ data buf, packetSize ≤ buf.length →
    (encodePacket (beaconPacket registry slate data) buf false).1 ≠ 0

/-- The length returned is also the number of the bytes that were stored. -/
structure BeaconFits : Prop extends BeaconInside registry slate where
  count : (serializeSlateStores registry slate).2
    = (offsets (serializeSlateStores registry slate).1).toFinset.card

theorem toNat_len_beaconPacket (data : Mem) :
    (beaconPacket registry slate data).len.toNat = beaconNameLen registry slate + 148 := by
  have hle : beaconNameLen registry slate ≤ 64 := Nat.min_le_right _ _
  have hlen : (serializeSlate registry slate data).2 = beaconNameLen registry slate + 148 := by
    rw [serializeSlate_eq_stores]
    exact serializeSlateStores_length registry slate
  show (UInt8.ofNat (serializeSlate registry slate data).2).toNat = _
  rw [hlen]
  exact UInt8.toNat_ofNat_of_lt' (by show _ < 256; omega)

/-- For a shorter name everything is inside. -/
theorem beaconInside_of_le (h : beaconNameLen registry slate ≤ 62) :
    BeaconInside registry slate where
  inside := by
    intro i hi
    rw [mem_serializeSlateStores] at hi
    rw [packetDataSize_eq]
    omega
  length := by
    rw [serializeSlateStores_length, packetDataSize_eq]
    omega
  accepted := by
    intro data buf hbuf
    have hlen := toNat_len_beaconPacket registry slate data
    rw [packetSize_eq] at hbuf
    rw [encodePacket, if_neg (by rw [hlen, packetDataSize_eq]; omega),
      if_neg (by
        rw [hlen, packetHeaderSize_eq, if_neg (by decide)]
        omega)]
    simp

theorem BeaconInside.nameLen_le (h : BeaconInside registry slate) :
    beaconNameLen registry slate ≤ 62 := by
  have hlength := h.length
  rw [serializeSlateStores_length, packetDataSize_eq] at hlength
  omega

/-- Every byte before the length is stored exactly if the whole call to action is. -/
theorem count_iff :
    (serializeSlateStores registry slate).2
        = (offsets (serializeSlateStores registry slate).1).toFinset.card ↔
      beaconNameLen registry slate ≤ 53 := by
  rw [serializeSlateStores_length]
  have hcard : (Finset.Ico (0 : Int) (beaconNameLen registry slate + 148)).card
      = beaconNameLen registry slate + 148 := by
    rw [Int.card_Ico]
    omega
  constructor
  · -- the byte behind the room of the two strings is not
    intro hcount
    by_contra hlong
    have hsub : (offsets (serializeSlateStores registry slate).1).toFinset
        ⊂ Finset.Ico (0 : Int) (beaconNameLen registry slate + 148) := by
      refine (Finset.ssubset_iff_of_subset fun i hi => ?_).mpr ⟨64, ?_, ?_⟩
      · rw [List.mem_toFinset, mem_serializeSlateStores] at hi
        exact Finset.mem_Ico.mpr ⟨hi.1, hi.2.1⟩
      · exact Finset.mem_Ico.mpr ⟨by omega, by omega⟩
      · rw [List.mem_toFinset, mem_serializeSlateStores]
        omega
    have := Finset.card_lt_card hsub
    omega
  · intro hshort
    have hall : (offsets (serializeSlateStores registry slate).1).toFinset
        = Finset.Ico (0 : Int) (beaconNameLen registry slate + 148) := by
      ext i
      rw [List.mem_toFinset, mem_serializeSlateStores, Finset.mem_Ico]
      omega
    rw [hall, hcard]

/-- **The beacon and its packet.** The stores stay in the packet and it is sent exactly if the
name has at most 62 bytes; and all bytes that are sent were stored exactly if it has at most
53. -/
theorem beacon_fits_packet :
    (BeaconFits registry slate ↔
      (Utf8.encode (beaconStateName registry slate)).length ≤ 53) ∧
    (BeaconInside registry slate ↔
      (Utf8.encode (beaconStateName registry slate)).length ≤ 62) := by
  have hmin {n : Nat} (hn : n < 64) : beaconNameLen registry slate ≤ n ↔
      (Utf8.encode (beaconStateName registry slate)).length ≤ n := by
    show min _ 64 ≤ n ↔ _
    omega
  have hinside : BeaconInside registry slate ↔ beaconNameLen registry slate ≤ 62 :=
    ⟨BeaconInside.nameLen_le registry slate, beaconInside_of_le registry slate⟩
  rw [hinside, hmin (by decide), ← hmin (by decide : 53 < 64), ← count_iff]
  refine ⟨⟨fun h => h.count, fun hcount => ⟨hinside.mpr ?_, hcount⟩⟩, Iff.rfl⟩
  have := (count_iff registry slate).mp hcount
  omega

end Beacon

/-- A state with a name of 64 letters. -/
def longRegistry : StateId → Option StateName := fun _ =>
  some ⟨String.ofList (List.replicate 64 'A'), by decide⟩

/-- Its beacon has 212 bytes: two are stored behind `pkt.data`, and `encode_packet` rejects the
packet. -/
theorem beacon_overruns_packet :
    (serializeSlateStores longRegistry runningSlate).2 = 212 ∧
      210 ∈ offsets (serializeSlateStores longRegistry runningSlate).1 ∧
      211 ∈ offsets (serializeSlateStores longRegistry runningSlate).1 ∧
      (∀ data buf, encodePacket (beaconPacket longRegistry runningSlate data) buf false
        = (0, buf)) ∧
      ¬BeaconFits longRegistry runningSlate := by
  have hlen : beaconNameLen longRegistry runningSlate = 64 := by decide
  have hlength := serializeSlateStores_length longRegistry runningSlate
  rw [hlen] at hlength
  refine ⟨hlength, ?_, ?_, fun data buf => ?_, fun h => ?_⟩
  · rw [mem_serializeSlateStores, hlen]
    omega
  · rw [mem_serializeSlateStores, hlen]
    omega
  · rw [encodePacket, if_pos]
    rw [toNat_len_beaconPacket, hlen]
    decide
  · have := h.length
    rw [hlength] at this
    exact absurd this (by decide)

end Samwise
