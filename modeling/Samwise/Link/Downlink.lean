import Samwise.Flight.Beacon
import Samwise.Ground.Beacon

/-!
# Samwise — the beacon, end to end

What `serialize_slate` lays out is what `BeaconPacket.decode` takes apart. The two layouts meet
in the packed fields: the flight side packs a list of widths and values, the ground side unpacks
the same widths (`stats_format`, `adcs_format`).
-/

namespace Samwise

open LittleEndian Memory

/-! ## The two layouts -/

theorem stats_format (s : BeaconStats) : s.fields.map Prod.fst = Ground.statsFormat := rfl

theorem adcs_format (p : AdcsPacket) : p.fields.map Prod.fst = Ground.adcsPacketFormat := rfl

/-- The stats of a slate, as the ground reads them. -/
def groundStats (slate : BeaconSlate) : Ground.BeaconStats where
  rebootCounter := slate.rebootCounter.toNat
  timeInStateMs := slate.timeInCurrentStateMs.toNat
  rxBytes := slate.rxBytes.toNat
  rxPackets := slate.rxPackets.toNat
  rxBackpressureDrops := slate.rxBackpressureDrops.toNat
  rxBadPacketDrops := slate.rxBadPacketDrops.toNat
  txBytes := slate.txBytes.toNat
  txPackets := slate.txPackets.toNat
  batteryVoltage := slate.batteryVoltage.toNat
  batteryCurrent := slate.batteryCurrent.toNat
  solarVoltage := slate.solarVoltage.toNat
  solarCurrent := slate.solarCurrent.toNat
  panelAVoltage := slate.panelAVoltage.toNat
  panelACurrent := slate.panelACurrent.toNat
  panelBVoltage := slate.panelBVoltage.toNat
  panelBCurrent := slate.panelBCurrent.toNat
  deviceStatus := (getDeviceStatus slate).toNat

/-- The ADCS telemetry, as the ground reads it. -/
def groundAdcs (p : AdcsPacket) : Ground.ADCSData where
  angularVelocity := p.w.toNat
  quaternion := ⟨p.q0.toNat, p.q1.toNat, p.q2.toNat, p.q3.toNat⟩
  mjd := p.mjd.toNat
  utcTime := p.utcTime.toNat
  voltage := p.voltage.toNat
  current := p.current.toNat
  sunBody := ⟨p.sunBodyX.toNat, p.sunBodyY.toNat, p.sunBodyZ.toNat⟩
  magBody := ⟨p.magBodyX.toNat, p.magBodyY.toNat, p.magBodyZ.toNat⟩
  lon := p.lon.toNat
  lat := p.lat.toNat
  alt := p.alt.toNat
  state := p.state.toNat
  bootCount := p.bootCount.toNat

/-- The names of the slate's flags that are set. -/
def slateFlags (slate : BeaconSlate) : List String :=
  ([(slate.isRbfDetected, "RBF_detected"), (slate.fixedSolarCharge, "solar_charge"),
    (slate.fixedSolarFault, "solar_fault"), (slate.panelADeployed, "panel_A_deployed"),
    (slate.panelBDeployed, "panel_B_deployed"), (slate.isPayloadOn, "payload_on"),
    (slate.isAdcsOn, "adcs_on"), (slate.isAdcsTelemValid, "adcs_valid")].filter Prod.fst).map
    Prod.snd

theorem unpackStats_pack (slate : BeaconSlate) :
    Ground.unpackStats (pack (beaconStats slate).fields) = groundStats slate := by
  have hunpack : unpack Ground.statsFormat (pack (beaconStats slate).fields)
      = (beaconStats slate).fields.map Prod.snd := by
    rw [← stats_format (beaconStats slate)]
    exact unpack_pack (beaconStats slate).fields_fit
  unfold Ground.unpackStats
  rw [hunpack]
  rfl

theorem decodePayload_pack (p : AdcsPacket) :
    Ground.decodePayload (pack p.fields) = some (groundAdcs p) := by
  have hsize : (pack p.fields).length = Ground.adcsPacketSize := length_pack_adcs p
  have hunpack : unpack Ground.adcsPacketFormat (pack p.fields) = p.fields.map Prod.snd := by
    rw [← adcs_format p]
    exact unpack_pack p.fields_fit
  unfold Ground.decodePayload
  rw [if_neg (by omega), List.take_of_length_le hsize.le, hunpack]
  rfl

theorem flags_of_bits (rbf charge fault panelA panelB payload adcs valid : Bool) :
    (Ground.deviceStatusTable.filter fun flag =>
        ((rbf.toUInt8 <<< 0) ||| (charge.toUInt8 <<< 1) ||| (fault.toUInt8 <<< 2)
          ||| (panelA.toUInt8 <<< 3) ||| (panelB.toUInt8 <<< 4) ||| (payload.toUInt8 <<< 5)
          ||| (adcs.toUInt8 <<< 6) ||| (valid.toUInt8 <<< 7)).toNat &&& flag.1 ≠ 0).map Prod.snd
      = ([(rbf, "RBF_detected"), (charge, "solar_charge"), (fault, "solar_fault"),
          (panelA, "panel_A_deployed"), (panelB, "panel_B_deployed"), (payload, "payload_on"),
          (adcs, "adcs_on"), (valid, "adcs_valid")].filter Prod.fst).map Prod.snd := by
  revert rbf charge fault panelA panelB payload adcs valid
  decide +kernel

theorem deviceStatusFlags_groundStats (slate : BeaconSlate) :
    (groundStats slate).deviceStatusFlags = slateFlags slate :=
  flags_of_bits _ _ _ _ _ _ _ _

/-! ## The round trip -/

theorem zero_notMem_beaconStateName (registry : StateId → Option StateName)
    (slate : BeaconSlate) : Char.ofNat 0 ∉ (beaconStateName registry slate).toList := by
  unfold beaconStateName
  split
  · next name _ => exact name.noNul
  · decide

theorem findIdx?_nul {text : List UInt8} (h : 0 ∉ text) (rest : List UInt8) :
    (text ++ 0 :: rest).findIdx? (· = 0) = some text.length := by
  rw [List.findIdx?_eq_some_iff_getElem]
  refine ⟨by simp, by simp, fun j hj => ?_⟩
  rw [List.getElem_append_left hj]
  simp only [decide_eq_true_eq]
  exact fun hzero => h (hzero ▸ List.getElem_mem hj)

/-- The decoder takes a payload apart where the layout says. -/
theorem decodeBeacon_pieces {dataLen : UInt8} {text stats adcs sign : List UInt8}
    (hdataLen : dataLen.toNat = (text ++ 0 :: (stats ++ (adcs ++ sign))).length)
    (htext : 0 ∉ text) (hstats : stats.length = 53) (hadcs : adcs.length = 77)
    (hsign : 6 ≤ sign.length) :
    Ground.decodeBeacon (dataLen :: (text ++ 0 :: (stats ++ (adcs ++ sign)))) =
      { stateName := String.ofList (Utf8.decodeIgnore text)
        stats := some (Ground.unpackStats stats)
        adcs := Ground.decodePayload adcs
        callsign := some
          (String.ofList (Ground.stripNul (Utf8.decodeIgnore (sign.take 6))))
        rawHex := some (Ground.hex (dataLen :: (text ++ 0 :: (stats ++ (adcs ++ sign))))) } := by
  let payload := text ++ 0 :: (stats ++ (adcs ++ sign))
  have hpayload : payload.take dataLen.toNat = payload := List.take_of_length_le hdataLen.ge
  have hnul : payload.findIdx? (· = 0) = some text.length := findIdx?_nul htext _
  have hlength : payload.length = text.length + 1 + 53 + 77 + sign.length := by
    simp only [payload, List.length_append, List.length_cons, hstats, hadcs]
    omega
  -- the offsets the decoder adds up, one field after the other
  have hdropStats : payload.drop (text.length + 1) = stats ++ (adcs ++ sign) := by
    rw [← List.drop_drop, List.drop_left]
    rfl
  have hdropAdcs : payload.drop (text.length + 1 + 53) = adcs ++ sign := by
    rw [← List.drop_drop, hdropStats, List.drop_left' hstats]
  have hdropSign : payload.drop (text.length + 1 + 53 + 77) = sign := by
    rw [← List.drop_drop, hdropAdcs, List.drop_left' hadcs]
  have hsize : Ground.adcsPacketSize = 77 := rfl
  show Ground.decodeBeacon (dataLen :: payload) = _
  unfold Ground.decodeBeacon
  simp only [hpayload, hnul, hsize]
  rw [if_pos (by omega), if_pos (by omega), if_pos (by omega), hdropStats, hdropAdcs, hdropSign,
    List.take_left' hstats, List.take_left' hadcs]
  simp only [payload, List.take_left]

/-- **Beacon round trip.** For every slate, every registry and every buffer, as long as the
state's name leaves room for the call to action: the ground station decodes the length byte and
the serialized bytes to the name with the call to action, the slate's stats, each field of the
telemetry and the callsign; the flags of the device status are the slate's; and nothing is
written behind the length returned. -/
theorem beacon_round_trip (registry : StateId → Option StateName) (slate : BeaconSlate)
    (data : Mem) (h : (Utf8.encode (beaconStateName registry slate)).length + 11 ≤ 64) :
    let out := serializeSlate registry slate data
    let packet := UInt8.ofNat out.2 :: read out.1 0 out.2
    Ground.decodeBeacon packet =
        { stateName := beaconStateName registry slate ++ " beat cal!"
          stats := some (groundStats slate)
          adcs := some (groundAdcs slate.adcsTelemetry)
          callsign := some "KC3WNY"
          rawHex := some (Ground.hex packet) }
      ∧ (groundStats slate).deviceStatusFlags = slateFlags slate
      ∧ out.2 < 256
      ∧ ∀ i, out.2 ≤ i → out.1 i = data i := by
  intro out packet
  obtain ⟨hlen, hread, hframe⟩ := serializeSlate_spec registry slate data h
  have hlength := length_beaconBytes registry slate
  have hsmall : out.2 < 256 := by
    show (serializeSlate registry slate data).2 < 256
    omega
  refine ⟨?_, deviceStatusFlags_groundStats slate, hsmall, hframe⟩
  let text := Utf8.encode (beaconStateName registry slate ++ callToAction)
  -- the bytes in the pieces the decoder looks for
  have hpieces : beaconBytes registry slate = text ++ 0 :: (pack (beaconStats slate).fields
      ++ (pack slate.adcsTelemetry.fields ++ (Utf8.encode callsign ++ [0]))) := by
    show _ ++ (_ ++ [0]) ++ _ ++ _ ++ _ = Utf8.encode (_ ++ _) ++ _
    rw [Utf8.encode_append]
    simp only [List.append_assoc, List.cons_append, List.nil_append]
  -- the first NUL is the one behind the text
  have hnoNul : 0 ∉ text := by
    apply Utf8.zero_notMem_encode
    rw [String.toList_append, List.mem_append, not_or]
    exact ⟨zero_notMem_beaconStateName registry slate, by decide⟩
  have hdataLen : (UInt8.ofNat out.2).toNat = (beaconBytes registry slate).length := by
    rw [UInt8.toNat_ofNat', ← hlen]
    exact Nat.mod_eq_of_lt hsmall
  have hsign : (Utf8.encode callsign ++ [0]).take 6 = Utf8.encode callsign := by decide
  show Ground.decodeBeacon (UInt8.ofNat out.2 :: read out.1 0 out.2) = _
  have hbytes : read out.1 0 out.2 = beaconBytes registry slate := hread
  rw [hpieces] at hdataLen
  simp only [packet, hbytes, hpieces]
  rw [decodeBeacon_pieces hdataLen hnoNul (length_pack_stats _) (length_pack_adcs _) (by decide),
    unpackStats_pack, decodePayload_pack, hsign, Utf8.decodeIgnore_encode,
    Utf8.decodeIgnore_encode, String.ofList_toList]
  rfl

/-- The running state after 12.345 seconds of the 42nd boot, with the ADCS off. -/
def runningSlate : BeaconSlate where
  toSlate := { clearAndInitSlate with
    rebootCounter := 42
    currentStateId := .stateRunning
    timeInCurrentStateMs := 12345
    panelADeployed := true }
  batteryVoltage := 4000
  batteryCurrent := 120
  solarVoltage := 0
  solarCurrent := 0
  panelAVoltage := 0
  panelACurrent := 0
  panelBVoltage := 0
  panelBCurrent := 0
  fixedSolarCharge := true
  fixedSolarFault := false
  isRbfDetected := false
  rxBytes := 0
  rxPackets := 0
  rxBackpressureDrops := 0
  rxBadPacketDrops := 0
  txBytes := 0
  txPackets := 0
  isAdcsOn := false
  adcsTelemetry := ⟨0, 0, 0, 0, 0, 0, 0, 0, 0, 0, 0, 0, 0, 0, 0, 0, 0, 0, 0, 0⟩
  isAdcsTelemValid := false

theorem beacon_round_trip_running :
    let registry : StateId → Option StateName := fun _ => some ⟨"running", by decide⟩
    let out := serializeSlate registry runningSlate fun _ => 0xAA
    let beacon := Ground.decodeBeacon (UInt8.ofNat out.2 :: read out.1 0 out.2)
    beacon.stateName = "running beat cal!" ∧ beacon.callsign = some "KC3WNY"
      ∧ beacon.stats = some (groundStats runningSlate)
      ∧ (groundStats runningSlate).deviceStatusFlags = ["solar_charge", "panel_A_deployed"]
      ∧ out.1 out.2 = 0xAA := by
  intro registry out beacon
  obtain ⟨hbeacon, hflags, -, hframe⟩ :=
    beacon_round_trip registry runningSlate (fun _ => 0xAA) (by decide)
  refine ⟨?_, ?_, ?_, hflags, hframe _ le_rfl⟩
  · exact congrArg Ground.BeaconData.stateName hbeacon
  · exact congrArg Ground.BeaconData.callsign hbeacon
  · exact congrArg Ground.BeaconData.stats hbeacon

end Samwise
