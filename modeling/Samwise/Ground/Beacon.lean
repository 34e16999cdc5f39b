import Samwise.Lib.LittleEndian
import Samwise.Lib.Utf8

/-!
# Samwise — decoding beacons on the ground

`BeaconPacket.decode` and `AdcsTelemetryPacket.decode_payload` (`ground_station/protocol.py`)
with the models they fill (`ground_station/models.py`). An unpacked float is its 32-bit pattern.
-/

namespace Samwise.Ground

open LittleEndian

/-! ## The models -/

structure BeaconStats where
  rebootCounter : Nat
  timeInStateMs : Nat
  rxBytes : Nat
  rxPackets : Nat
  rxBackpressureDrops : Nat
  rxBadPacketDrops : Nat
  txBytes : Nat
  txPackets : Nat
  batteryVoltage : Nat
  batteryCurrent : Nat
  solarVoltage : Nat
  solarCurrent : Nat
  panelAVoltage : Nat
  panelACurrent : Nat
  panelBVoltage : Nat
  panelBCurrent : Nat
  deviceStatus : Nat
deriving DecidableEq, Repr

structure ADCSQuaternion where
  q0 : Nat
  q1 : Nat
  q2 : Nat
  q3 : Nat
deriving DecidableEq, Repr

structure ADCSVector3 where
  x : Nat
  y : Nat
  z : Nat
deriving DecidableEq, Repr

structure ADCSData where
  angularVelocity : Nat
  quaternion : ADCSQuaternion
  mjd : Nat
  utcTime : Nat
  voltage : Nat
  current : Nat
  sunBody : ADCSVector3
  magBody : ADCSVector3
  lon : Nat
  lat : Nat
  alt : Nat
  state : Nat
  bootCount : Nat
deriving DecidableEq, Repr

structure BeaconData where
  stateName : String
  stats : Option BeaconStats := none
  adcs : Option ADCSData := none
  callsign : Option String := none
  rawHex : Option String := none
deriving DecidableEq, Repr

/-- The flags of a device status: the mask and the name of each. -/
def deviceStatusTable : List (Nat × String) :=
  [(0x01, "RBF_detected"), (0x02, "solar_charge"), (0x04, "solar_fault"),
    (0x08, "panel_A_deployed"), (0x10, "panel_B_deployed"), (0x20, "payload_on"),
    (0x40, "adcs_on"), (0x80, "adcs_valid")]

/-- `device_status_flags`. -/
def BeaconStats.deviceStatusFlags (s : BeaconStats) : List String :=
  (deviceStatusTable.filter fun flag => s.deviceStatus &&& flag.1 ≠ 0).map Prod.snd

/-! ## Decoding -/

/-- `"<LQ6L8HB"`. -/
def statsFormat : List Nat := [4, 8] ++ List.replicate 6 4 ++ List.replicate 8 2 ++ [1]

/-- `ADCS_PACKET_FORMAT`, `"<18fBL"`. -/
def adcsPacketFormat : List Nat := List.replicate 18 4 ++ [1, 4]

/-- `ADCS_PACKET_SIZE`. -/
def adcsPacketSize : Nat := adcsPacketFormat.sum

/-- The stats of 53 bytes. -/
def unpackStats (statsData : List UInt8) : BeaconStats :=
  let unpacked (i : Nat) := (unpack statsFormat statsData).getD i 0
  { rebootCounter := unpacked 0
    timeInStateMs := unpacked 1
    rxBytes := unpacked 2
    rxPackets := unpacked 3
    rxBackpressureDrops := unpacked 4
    rxBadPacketDrops := unpacked 5
    txBytes := unpacked 6
    txPackets := unpacked 7
    batteryVoltage := unpacked 8
    batteryCurrent := unpacked 9
    solarVoltage := unpacked 10
    solarCurrent := unpacked 11
    panelAVoltage := unpacked 12
    panelACurrent := unpacked 13
    panelBVoltage := unpacked 14
    panelBCurrent := unpacked 15
    deviceStatus := unpacked 16 }

/-- `AdcsTelemetryPacket.decode_payload`. -/
def decodePayload (data : List UInt8) : Option ADCSData :=
  if data.length < adcsPacketSize then none
  else
    let unpacked (i : Nat) := (unpack adcsPacketFormat (data.take adcsPacketSize)).getD i 0
    some
      { angularVelocity := unpacked 0
        quaternion := ⟨unpacked 1, unpacked 2, unpacked 3, unpacked 4⟩
        mjd := unpacked 5
        utcTime := unpacked 6
        voltage := unpacked 7
        current := unpacked 8
        sunBody := ⟨unpacked 9, unpacked 10, unpacked 11⟩
        magBody := ⟨unpacked 12, unpacked 13, unpacked 14⟩
        lon := unpacked 15
        lat := unpacked 16
        alt := unpacked 17
        state := unpacked 18
        bootCount := unpacked 19 }

/-- `bytes.hex()`. -/
def hex (bs : List UInt8) : String :=
  let digit (n : Nat) : Char := "0123456789abcdef".toList.getD n '0'
  String.ofList (bs.flatMap fun b => [digit (b.toNat / 16), digit (b.toNat % 16)])

/-- `str.strip` of NUL characters. -/
def stripNul (text : List Char) : List Char :=
  let nul (c : Char) : Bool := c = Char.ofNat 0
  ((text.dropWhile nul).reverse.dropWhile nul).reverse

/-- `BeaconPacket.decode`. -/
def decodeBeacon : List UInt8 → BeaconData
  | [] => { stateName := "short_packet" }
  | dataLen :: bytes =>
      let payload := bytes.take dataLen.toNat
      let rawHex := some (hex (dataLen :: bytes))
      match payload.findIdx? (· = 0) with
      | none => { stateName := String.ofList (Utf8.decodeIgnore payload), rawHex }
      | some nullPos =>
          let stateName := String.ofList (Utf8.decodeIgnore (payload.take nullPos))
          let statsStart := nullPos + 1
          if payload.length ≥ statsStart + 53 then
            let adcsStart := statsStart + 53
            let callsignStart := adcsStart + adcsPacketSize
            { stateName
              rawHex
              stats := some (unpackStats ((payload.drop statsStart).take 53))
              adcs :=
                if payload.length ≥ callsignStart then
                  decodePayload ((payload.drop adcsStart).take adcsPacketSize)
                else none
              callsign :=
                if payload.length ≥ callsignStart + 6 then
                  some (String.ofList
                    (stripNul (Utf8.decodeIgnore ((payload.drop callsignStart).take 6))))
                else none }
          else { stateName, rawHex }

end Samwise.Ground
