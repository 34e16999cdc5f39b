import Samwise.Flight.Slate
import Samwise.Lib.Utf8

/-!
# Samwise — the beacon

`src/tasks/beacon/beacon_task.c`: the slate laid out as a beacon, with `beacon_stats` and
`adcs_packet_t` as the packed structs they are and the C strings around them. Floats are their
32-bit patterns.
-/

namespace Samwise

open LittleEndian Memory

/-! ## The data -/

/-- `adcs_packet_t`. -/
structure AdcsPacket where
  w : UInt32
  q0 : UInt32
  q1 : UInt32
  q2 : UInt32
  q3 : UInt32
  mjd : UInt32
  utcTime : UInt32
  voltage : UInt32
  current : UInt32
  sunBodyX : UInt32
  sunBodyY : UInt32
  sunBodyZ : UInt32
  magBodyX : UInt32
  magBodyY : UInt32
  magBodyZ : UInt32
  lon : UInt32
  lat : UInt32
  alt : UInt32
  state : UInt8
  bootCount : UInt32
deriving DecidableEq, Repr

/-- `slate_t` with the fields that only the beacon reads. -/
structure BeaconSlate extends Slate where
  batteryVoltage : UInt16
  batteryCurrent : UInt16
  solarVoltage : UInt16
  solarCurrent : UInt16
  panelAVoltage : UInt16
  panelACurrent : UInt16
  panelBVoltage : UInt16
  panelBCurrent : UInt16
  fixedSolarCharge : Bool
  fixedSolarFault : Bool
  isRbfDetected : Bool
  rxBytes : UInt32
  rxPackets : UInt32
  rxBackpressureDrops : UInt32
  rxBadPacketDrops : UInt32
  txBytes : UInt32
  txPackets : UInt32
  isAdcsOn : Bool
  adcsTelemetry : AdcsPacket
  isAdcsTelemValid : Bool

/-- `beacon_stats`. -/
structure BeaconStats where
  rebootCounter : UInt32
  time : UInt64
  rxBytes : UInt32
  rxPackets : UInt32
  rxBackpressureDrops : UInt32
  rxBadPacketDrops : UInt32
  txBytes : UInt32
  txPackets : UInt32
  batteryVoltage : UInt16
  batteryCurrent : UInt16
  solarVoltage : UInt16
  solarCurrent : UInt16
  panelAVoltage : UInt16
  panelACurrent : UInt16
  panelBVoltage : UInt16
  panelBCurrent : UInt16
  deviceStatus : UInt8
deriving DecidableEq, Repr

/-- The members of a packed struct, in order, each with its size. -/
def BeaconStats.fields (s : BeaconStats) : List (Nat × Nat) :=
  [(4, s.rebootCounter.toNat), (8, s.time.toNat), (4, s.rxBytes.toNat), (4, s.rxPackets.toNat),
    (4, s.rxBackpressureDrops.toNat), (4, s.rxBadPacketDrops.toNat), (4, s.txBytes.toNat),
    (4, s.txPackets.toNat), (2, s.batteryVoltage.toNat), (2, s.batteryCurrent.toNat),
    (2, s.solarVoltage.toNat), (2, s.solarCurrent.toNat), (2, s.panelAVoltage.toNat),
    (2, s.panelACurrent.toNat), (2, s.panelBVoltage.toNat), (2, s.panelBCurrent.toNat),
    (1, s.deviceStatus.toNat)]

def AdcsPacket.fields (p : AdcsPacket) : List (Nat × Nat) :=
  [(4, p.w.toNat), (4, p.q0.toNat), (4, p.q1.toNat), (4, p.q2.toNat), (4, p.q3.toNat),
    (4, p.mjd.toNat), (4, p.utcTime.toNat), (4, p.voltage.toNat), (4, p.current.toNat),
    (4, p.sunBodyX.toNat), (4, p.sunBodyY.toNat), (4, p.sunBodyZ.toNat), (4, p.magBodyX.toNat),
    (4, p.magBodyY.toNat), (4, p.magBodyZ.toNat), (4, p.lon.toNat), (4, p.lat.toNat),
    (4, p.alt.toNat), (1, p.state.toNat), (4, p.bootCount.toNat)]

/-- The name of a state, a C string. -/
structure StateName where
  text : String
  noNul : Char.ofNat 0 ∉ text.toList

/-- `MAX_STR_LENGTH`. -/
def maxStrLength : Nat := 64

/-- `CALLSIGN`. -/
def callsign : String := "KC3WNY"

/-- `CALL_TO_ACTION`. -/
def callToAction : String := " beat cal!"

/-! ## Serialization -/

/-- `state_registry_get`, as far as the name. -/
def registeredName (registry : StateId → Option StateName) : StateId → Option StateName
  | .stateNone => none
  | id => registry id

/-- `strcpy_trunc(dst, src, max_size)`, where `dst` points into a larger buffer. -/
def strcpyTruncAt (m : Mem) (dst : Nat) (src : List UInt8) (maxSize : Nat) : Mem :=
  let copied := (src ++ [0]).take maxSize
  if 0 ∈ copied then write m dst copied
  else write (write m dst copied) (dst + maxSize - 1) [0]

/-- `get_device_status`. -/
def getDeviceStatus (slate : BeaconSlate) : UInt8 :=
  (slate.isRbfDetected.toUInt8 <<< 0) ||| (slate.fixedSolarCharge.toUInt8 <<< 1) |||
    (slate.fixedSolarFault.toUInt8 <<< 2) ||| (slate.panelADeployed.toUInt8 <<< 3) |||
    (slate.panelBDeployed.toUInt8 <<< 4) ||| (slate.isPayloadOn.toUInt8 <<< 5) |||
    (slate.isAdcsOn.toUInt8 <<< 6) ||| (slate.isAdcsTelemValid.toUInt8 <<< 7)

/-- The `beacon_stats` of a slate. -/
def beaconStats (slate : BeaconSlate) : BeaconStats where
  rebootCounter := slate.rebootCounter
  time := slate.timeInCurrentStateMs
  rxBytes := slate.rxBytes
  rxPackets := slate.rxPackets
  rxBackpressureDrops := slate.rxBackpressureDrops
  rxBadPacketDrops := slate.rxBadPacketDrops
  txBytes := slate.txBytes
  txPackets := slate.txPackets
  batteryVoltage := slate.batteryVoltage
  batteryCurrent := slate.batteryCurrent
  solarVoltage := slate.solarVoltage
  solarCurrent := slate.solarCurrent
  panelAVoltage := slate.panelAVoltage
  panelACurrent := slate.panelACurrent
  panelBVoltage := slate.panelBVoltage
  panelBCurrent := slate.panelBCurrent
  deviceStatus := getDeviceStatus slate

/-- The name `serialize_slate` puts first. -/
def beaconStateName (registry : StateId → Option StateName) (slate : BeaconSlate) : String :=
  match registeredName registry slate.currentStateId with
  | some name => name.text
  | none => "UNKNOWN"

/-- `serialize_slate`: the buffer, from what it held before, and the length returned. -/
def serializeSlate (registry : StateId → Option StateName) (slate : BeaconSlate) (data : Mem) :
    Mem × Nat :=
  let stateName := Utf8.encode (beaconStateName registry slate)
  let nameLen := min stateName.length maxStrLength
  let data := strcpyTruncAt data 0 stateName maxStrLength
  -- the call to action overwrites the NUL behind the name
  let data := strcpyTruncAt data nameLen (Utf8.encode callToAction) (maxStrLength - nameLen)
  let dataOffset := nameLen + ((Utf8.encode callToAction).length + 1)
  let stats := pack (beaconStats slate).fields
  let data := write data dataOffset stats
  let dataOffset := dataOffset + stats.length
  let adcs := pack slate.adcsTelemetry.fields
  let data := write data dataOffset adcs
  let dataOffset := dataOffset + adcs.length
  let data := write data dataOffset (Utf8.encode callsign ++ [0])
  (data, dataOffset + (Utf8.encode callsign ++ [0]).length)

/-! ## What is in the buffer -/

@[simp] theorem length_pack_stats (s : BeaconStats) : (pack s.fields).length = 53 := by
  rw [length_pack]
  simp [BeaconStats.fields]

@[simp] theorem length_pack_adcs (p : AdcsPacket) : (pack p.fields).length = 77 := by
  rw [length_pack]
  simp [AdcsPacket.fields]

theorem BeaconStats.fields_fit (s : BeaconStats) : ∀ f ∈ s.fields, f.2 < 256 ^ f.1 := by
  unfold BeaconStats.fields
  simp only [List.forall_mem_cons, List.not_mem_nil, false_implies, implies_true, and_true]
  exact ⟨toNat_lt_four _, toNat_lt_eight _, toNat_lt_four _, toNat_lt_four _,
    toNat_lt_four _, toNat_lt_four _, toNat_lt_four _, toNat_lt_four _,
    toNat_lt_two _, toNat_lt_two _, toNat_lt_two _, toNat_lt_two _,
    toNat_lt_two _, toNat_lt_two _, toNat_lt_two _, toNat_lt_two _, toNat_lt_one _⟩

theorem AdcsPacket.fields_fit (p : AdcsPacket) : ∀ f ∈ p.fields, f.2 < 256 ^ f.1 := by
  unfold AdcsPacket.fields
  simp only [List.forall_mem_cons, List.not_mem_nil, false_implies, implies_true, and_true]
  exact ⟨toNat_lt_four _, toNat_lt_four _, toNat_lt_four _, toNat_lt_four _,
    toNat_lt_four _, toNat_lt_four _, toNat_lt_four _, toNat_lt_four _,
    toNat_lt_four _, toNat_lt_four _, toNat_lt_four _, toNat_lt_four _,
    toNat_lt_four _, toNat_lt_four _, toNat_lt_four _, toNat_lt_four _,
    toNat_lt_four _, toNat_lt_four _, toNat_lt_one _, toNat_lt_four _⟩

theorem strcpyTruncAt_fits (m : Mem) (dst : Nat) {src : List UInt8} {maxSize : Nat}
    (h : src.length + 1 ≤ maxSize) : strcpyTruncAt m dst src maxSize = write m dst (src ++ [0]) := by
  have hcopied : (src ++ [0]).take maxSize = src ++ [0] :=
    List.take_of_length_le (by rw [List.length_append, List.length_singleton]; exact h)
  unfold strcpyTruncAt
  simp only [hcopied]
  rw [if_pos (List.mem_append_right _ List.mem_cons_self)]

/-- The beacon of a slate: the name with the call to action as one C string, the two structs,
and the callsign as another. -/
def beaconBytes (registry : StateId → Option StateName) (slate : BeaconSlate) : List UInt8 :=
  Utf8.encode (beaconStateName registry slate) ++ (Utf8.encode callToAction ++ [0])
    ++ pack (beaconStats slate).fields ++ pack slate.adcsTelemetry.fields
    ++ (Utf8.encode callsign ++ [0])

theorem length_beaconBytes (registry : StateId → Option StateName) (slate : BeaconSlate) :
    (beaconBytes registry slate).length
      = (Utf8.encode (beaconStateName registry slate)).length + 148 := by
  have hcall : (Utf8.encode callToAction).length = 10 := by decide
  have hsign : (Utf8.encode callsign).length = 6 := by decide
  unfold beaconBytes
  simp only [List.length_append, List.length_singleton, length_pack_stats, length_pack_adcs,
    hcall, hsign]

/-- For a name that leaves room for the call to action, `serialize_slate` writes these bytes,
returns how many they are, and writes nothing else. -/
theorem serializeSlate_spec (registry : StateId → Option StateName) (slate : BeaconSlate)
    (data : Mem) (h : (Utf8.encode (beaconStateName registry slate)).length + 11 ≤ 64) :
    (serializeSlate registry slate data).2 = (beaconBytes registry slate).length
      ∧ read (serializeSlate registry slate data).1 0 (serializeSlate registry slate data).2
          = beaconBytes registry slate
      ∧ ∀ i, (serializeSlate registry slate data).2 ≤ i →
          (serializeSlate registry slate data).1 i = data i := by
  have hlength := length_beaconBytes registry slate
  have hcall : (Utf8.encode callToAction).length = 10 := by decide
  have hsign : (Utf8.encode callsign).length = 6 := by decide
  unfold beaconBytes serializeSlate at *
  generalize Utf8.encode (beaconStateName registry slate) = name at *
  generalize hstats : pack (beaconStats slate).fields = stats at *
  generalize hadcs : pack slate.adcsTelemetry.fields = adcs at *
  have hstatsLength : stats.length = 53 := hstats ▸ length_pack_stats _
  have hadcsLength : adcs.length = 77 := hadcs ▸ length_pack_adcs _
  have hnameLen : min name.length maxStrLength = name.length :=
    Nat.min_eq_left (by unfold maxStrLength; omega)
  -- the bound on the name leaves both strings untruncated
  have hname : strcpyTruncAt data 0 name maxStrLength = write data 0 (name ++ [0]) :=
    strcpyTruncAt_fits data 0 (by unfold maxStrLength; omega)
  have hcallFits : strcpyTruncAt (write data 0 (name ++ [0])) name.length
      (Utf8.encode callToAction) (maxStrLength - name.length)
      = write (write data 0 (name ++ [0])) name.length (Utf8.encode callToAction ++ [0]) :=
    strcpyTruncAt_fits _ _ (by unfold maxStrLength; omega)
  simp only [hnameLen, hname, hcallFits]
  have hcall1 : (Utf8.encode callToAction ++ [0]).length = 11 := by
    rw [List.length_append, hcall, List.length_singleton]
  have hsign1 : (Utf8.encode callsign ++ [0]).length = 7 := by
    rw [List.length_append, hsign, List.length_singleton]
  refine ⟨?_, ?_, ?_⟩
  · simp only [List.length_append, List.length_singleton]
  · -- each write extends what is in the buffer; the second one begins on the NUL of the first
    have hfront : read (write data 0 (name ++ [0])) 0 name.length = name := by
      rw [read_write _ _ (by rw [List.length_append]; omega), List.take_left]
    have hoffset : name.length + ((Utf8.encode callToAction).length + 1)
        = name.length + (Utf8.encode callToAction ++ [0]).length := by
      rw [List.length_append, List.length_singleton]
    rw [read_zero_write, read_zero_write, read_zero_write, hoffset, read_zero_write, hfront]
  · -- every write ends before the count
    intro i hi
    rw [hsign1, hadcsLength, hstatsLength, hcall] at hi
    rw [write_of_ge (by omega), write_of_ge (by omega), write_of_ge (by omega),
      write_of_ge (by omega), write_of_ge (by rw [List.length_append, List.length_singleton]; omega)]

end Samwise
