import Dump978.RawMessage
import Dump978.Fec

namespace Dump978

/-!
# ADS-B payload decoding (`AdsbMessage`, `uat_message.cc`)

`AdsbMessage.ofRaw` is the constructor `AdsbMessage(const RawMessage &)`: it refuses a
message that is not a downlink frame (`std::logic_error`), reads the header (payload type,
address qualifier, address) and dispatches on the payload type (DO-282B Table 2-10) to the
element decoders `decodeSV`, `decodeMS`, `decodeTS` and `decodeAUXSV`. Every field is read
through `RawMessage.bit` and `RawMessage.bits`, so a read past the payload throws
`std::out_of_range` out of the constructor; the decoders run in `Except StdException` and
keep the source's order of reads.

Each conditional block of a decoder is a function of its own (`svAltitude`, `svAirborne`,
`msCallsign`, ...), called in sequence, so that a decoder is a straight line of reads and
calls. Floating-point fields are computed with `Float`; nothing below depends on their
values. The unsigned arithmetic of the altitude and velocity fields wraps back to the
mathematical value when it is stored in an `int`, so those fields are computed in `Int`.

The main result, `ofRaw_downlink_ok`, says which payloads decode without an exception: a
34-byte payload whatever its payload type, and an 18-byte payload of payload type 0. The
element decoders' lemmas (`decodeSV_ok` and the others) give the last byte each one reads.
Conversely (`ofRaw_short_throw`), an 18-byte payload of payload type 1 to 6 names an element
past its end, and the constructor throws.
-/

/-! ### Enumerations -/

/-- 2.2.4.5.1.2 "ADDRESS QUALIFIER". -/
inductive AddressQualifier
  | adsbIcao | adsbOther | tisbIcao | tisbTrackfile | vehicle | fixedBeacon | adsrOther
  | reserved | invalid
  deriving DecidableEq, Repr

/-- `static_cast<AddressQualifier>` of the 3-bit field. -/
def AddressQualifier.ofBits : Nat → AddressQualifier
  | 0 => .adsbIcao | 1 => .adsbOther | 2 => .tisbIcao | 3 => .tisbTrackfile | 4 => .vehicle
  | 5 => .fixedBeacon | 6 => .adsrOther | 7 => .reserved | _ => .invalid

/-- 2.2.4.5.2.5 "A/G STATE". -/
inductive AirGroundState
  | airborneSubsonic | airborneSupersonic | onGround | reserved | invalid
  deriving DecidableEq, Repr

def AirGroundState.ofBits : Nat → AirGroundState
  | 0 => .airborneSubsonic | 1 => .airborneSupersonic | 2 => .onGround | 3 => .reserved
  | _ => .invalid

/-- 2.2.4.5.2.7.1.1 "VV Src". -/
inductive VerticalVelocitySource
  | geometric | barometric | invalid
  deriving DecidableEq, Repr

def VerticalVelocitySource.ofBits : Nat → VerticalVelocitySource
  | 0 => .geometric | 1 => .barometric | _ => .invalid

/-- 2.2.4.5.4.4 "EMERGENCY/PRIORITY STATUS". -/
inductive EmergencyPriorityStatus
  | none | general | medical | minfuel | nordo | unlawful | downed | reserved | invalid
  deriving DecidableEq, Repr

def EmergencyPriorityStatus.ofBits : Nat → EmergencyPriorityStatus
  | 0 => .none | 1 => .general | 2 => .medical | 3 => .minfuel | 4 => .nordo | 5 => .unlawful
  | 6 => .downed | 7 => .reserved | _ => .invalid

/-- 2.2.4.5.4.16 SIL Supplement Flag. -/
inductive SILSupplement
  | perHour | perSample | invalid
  deriving DecidableEq, Repr

def SILSupplement.ofBits : Nat → SILSupplement
  | 0 => .perHour | 1 => .perSample | _ => .invalid

/-- 2.2.4.5.6.1 "Selected Altitude Type (SAT)". -/
inductive SelectedAltitudeType
  | mcpFcu | fms | invalid
  deriving DecidableEq, Repr

def SelectedAltitudeType.ofBits : Nat → SelectedAltitudeType
  | 0 => .mcpFcu | 1 => .fms | _ => .invalid

/-- 2.2.4.5.4.12 "CAPABILITY CODES". -/
structure CapabilityCodes where
  uatIn : Bool
  esIn : Bool
  tcasOperational : Bool
  deriving DecidableEq, Repr

/-- 2.2.4.5.4.13 "OPERATIONAL MODES". -/
structure OperationalModes where
  tcasRaActive : Bool
  identActive : Bool
  atcServices : Bool
  deriving DecidableEq, Repr

/-- 2.2.4.5.6.5 - 2.2.4.5.6.10 Mode Indicators. -/
structure ModeIndicators where
  autopilot : Bool
  vnav : Bool
  altitudeHold : Bool
  approach : Bool
  lnav : Bool
  deriving DecidableEq, Repr

/-! ### The decoded message -/

/-- `AdsbMessage`: the raw message's metadata, the header, and the optional fields of the
state vector, mode status, auxiliary state vector and target state elements. -/
structure AdsbMessage where
  receivedAt : UInt64
  rawTimestamp : UInt64
  errors : UInt32
  rssi : Float
  payloadType : Nat
  addressQualifier : AddressQualifier
  address : UInt32
  position : Option (Float × Float) := none
  pressureAltitude : Option Int := none
  geometricAltitude : Option Int := none
  nic : Option Nat := none
  airgroundState : Option AirGroundState := none
  northVelocity : Option Int := none
  eastVelocity : Option Int := none
  vvSrc : Option VerticalVelocitySource := none
  verticalVelocityBarometric : Option Int := none
  verticalVelocityGeometric : Option Int := none
  groundSpeed : Option Int := none
  magneticHeading : Option Float := none
  trueHeading : Option Float := none
  trueTrack : Option Float := none
  aircraftSize : Option (Float × Float) := none
  gpsLateralOffset : Option Float := none
  gpsLongitudinalOffset : Option Float := none
  gpsPositionOffsetApplied : Option Bool := none
  utcCoupled : Option Bool := none
  uplinkFeedback : Option Nat := none
  tisbSiteId : Option Nat := none
  emitterCategory : Option Nat := none
  callsign : Option String := none
  flightplanId : Option String := none
  emergency : Option EmergencyPriorityStatus := none
  mopsVersion : Option Nat := none
  sil : Option Nat := none
  transmitMso : Option Nat := none
  sda : Option Nat := none
  nacP : Option Nat := none
  nacV : Option Nat := none
  nicBaro : Option Nat := none
  capabilityCodes : Option CapabilityCodes := none
  operationalModes : Option OperationalModes := none
  silSupplement : Option SILSupplement := none
  gva : Option Nat := none
  singleAntenna : Option Bool := none
  nicSupplement : Option Bool := none
  selectedAltitudeType : Option SelectedAltitudeType := none
  selectedAltitudeMcp : Option Int := none
  selectedAltitudeFms : Option Int := none
  barometricPressureSetting : Option Float := none
  selectedHeading : Option Float := none
  modeIndicators : Option ModeIndicators := none

/-- `RoundN(value, dp)` of `common.h`. -/
def roundN (value : Float) (dp : Nat) : Float :=
  let scale := Float.pow 10 dp.toFloat
  (value * scale).round / scale

/-- `-1` when the sign bit is set, else `1`. -/
def signOf (negative : Bool) : Int := if negative then -1 else 1

/-! ### State vector (`DecodeSV`) -/

/-- The altitude block: a nonzero `raw_alt` gives `(raw_alt - 41) * 25` feet, geometric or
pressure altitude by `Bit(10, 8)`. -/
def AdsbMessage.svAltitude (m : AdsbMessage) (raw : RawMessage) (rawAlt : UInt32) :
    Except StdException AdsbMessage :=
  if rawAlt ≠ 0 then do
    let altitude : Int := ((rawAlt.toNat : Int) - 41) * 25
    if ← raw.bit 10 8 then pure { m with geometricAltitude := some altitude }
    else pure { m with pressureAltitude := some altitude }
  else pure m

/-- The position block: reported when latitude, longitude or NIC is nonzero; the north and
south poles encode identically and are reported as the north pole. -/
def AdsbMessage.svPosition (m : AdsbMessage) (rawLat rawLon nic : UInt32) : AdsbMessage :=
  if rawLat ≠ 0 ∨ rawLon ≠ 0 ∨ nic ≠ 0 then
    let lat := rawLat.toNat.toFloat * 360.0 / 16777216.0
    let lat := if lat > 90 then lat - 180 else lat
    let lon := rawLon.toNat.toFloat * 360.0 / 16777216.0
    let lon := if lon > 180 then lon - 360 else lon
    { m with position := some (roundN lat 5, roundN lon 5) }
  else m

/-- Ground speed and true track derived from both velocity components, when both exist. -/
def AdsbMessage.svDerived (m : AdsbMessage) : AdsbMessage :=
  match m.northVelocity, m.eastVelocity with
  | some nv, some ev =>
    let nvf := Float.ofInt nv
    let evf := Float.ofInt ev
    let speed := roundN (Float.sqrt (1.0 * nvf * nvf + 1.0 * evf * evf)) 1
    let angle := Float.atan2 evf nvf * 180.0 / 3.14159265358979323846
    let angle := if angle < 0 then angle + 360.0 else angle
    { m with groundSpeed := some (speed.toUInt64.toNat : Int), trueTrack := some (roundN angle 1) }
  | _, _ => m

/-- The vertical velocity, stored by its source. -/
def AdsbMessage.svVerticalVelocity (m : AdsbMessage) (source : VerticalVelocitySource)
    (verticalVelocity : Int) : AdsbMessage :=
  match source with
  | .barometric => { m with verticalVelocityBarometric := some verticalVelocity }
  | .geometric => { m with verticalVelocityGeometric := some verticalVelocity }
  | .invalid => m

/-- The airborne block (subsonic, or supersonic with velocities times four). -/
def AdsbMessage.svAirborne (m : AdsbMessage) (raw : RawMessage) (supersonic : Bool) :
    Except StdException AdsbMessage := do
  let factor : Int := if supersonic then 4 else 1
  let nsSign := signOf (← raw.bit 13 4)
  let rawNs ← raw.bits 13 5 14 6
  let m := if rawNs ≠ 0 then
    { m with northVelocity := some (factor * nsSign * ((rawNs.toNat : Int) - 1)) } else m
  let ewSign := signOf (← raw.bit 14 7)
  let rawEw ← raw.bits 14 8 16 1
  let m := if rawEw ≠ 0 then
    { m with eastVelocity := some (factor * ewSign * ((rawEw.toNat : Int) - 1)) } else m
  let m := m.svDerived
  let vvSrc := VerticalVelocitySource.ofBits (← raw.bits 16 2 16 2).toNat
  let m := { m with vvSrc := some vvSrc }
  let vvSign := signOf (← raw.bit 16 3)
  let rawVv ← raw.bits 16 4 17 4
  pure (if rawVv ≠ 0 then m.svVerticalVelocity vvSrc (vvSign * ((rawVv.toNat : Int) - 1) * 64)
    else m)

/-- DO-282B Table 2-35: aircraft length and width by size code. -/
def aircraftSizes : List (Float × Float) :=
  [(0, 0), (15, 23), (25, 28.5), (25, 34), (35, 33), (35, 38), (45, 39.5), (45, 45),
    (55, 45), (55, 52), (65, 59.5), (65, 67), (75, 72.5), (75, 80), (85, 80), (85, 90)]

/-- The GPS antenna offset block, longitudinal or lateral by `Bit(16, 7)`; lateral offsets
are `raw * -2` in `unsigned` arithmetic, stored as a `double`. -/
def AdsbMessage.svGpsOffset (m : AdsbMessage) (raw : RawMessage) :
    Except StdException AdsbMessage := do
  if ← raw.bit 16 7 then
    let rawGpsLong ← raw.bits 16 8 17 4
    pure <| if rawGpsLong = 0 then m
      else if rawGpsLong = 1 then { m with gpsPositionOffsetApplied := some true }
      else { m with gpsPositionOffsetApplied := some false,
                    gpsLongitudinalOffset := some ((rawGpsLong - 1) * 2).toNat.toFloat }
  else
    let rawGpsLat ← raw.bits 16 8 17 2
    pure <| if rawGpsLat = 0 then m
      else if rawGpsLat ≤ 3 then { m with gpsLateralOffset := some (rawGpsLat * (0 - 2)).toNat.toFloat }
      else { m with gpsLateralOffset := some ((rawGpsLat - 4) * 2).toNat.toFloat }

/-- The on-ground block. -/
def AdsbMessage.svOnGround (m : AdsbMessage) (raw : RawMessage) :
    Except StdException AdsbMessage := do
  let rawGs ← raw.bits 13 5 14 6
  let m := if rawGs ≠ 0 then { m with groundSpeed := some ((rawGs.toNat : Int) - 1) } else m
  let tahType ← raw.bits 14 7 14 8
  let angle := roundN ((← raw.bits 15 1 16 1).toNat.toFloat * 360.0 / 512.0) 1
  let m := match tahType.toNat with
    | 1 => { m with trueTrack := some angle }
    | 2 => { m with magneticHeading := some angle }
    | 3 => { m with trueHeading := some angle }
    | _ => m
  let rawAvSize ← raw.bits 16 2 16 5
  let m := if rawAvSize ≠ 0 then
    { m with aircraftSize := some (aircraftSizes.getD rawAvSize.toNat (0, 0)) } else m
  m.svGpsOffset raw

/-- The address-qualifier tail: UTC coupling and uplink feedback for ADS-B targets, the
site id for TIS-B and ADS-R ones. -/
def AdsbMessage.svAddressTail (m : AdsbMessage) (raw : RawMessage) :
    Except StdException AdsbMessage :=
  match m.addressQualifier with
  | .adsbIcao | .adsbOther | .vehicle | .fixedBeacon => do
    let utcCoupled ← raw.bit 17 5
    let uplinkFeedback ← raw.bits 17 6 17 8
    pure { m with utcCoupled := some utcCoupled, uplinkFeedback := some uplinkFeedback.toNat }
  | .tisbIcao | .tisbTrackfile | .adsrOther => do
    let tisbSiteId ← raw.bits 17 5 17 8
    pure { m with tisbSiteId := some tisbSiteId.toNat }
  | _ => pure m

/-- `DecodeSV`. -/
def AdsbMessage.decodeSV (m : AdsbMessage) (raw : RawMessage) : Except StdException AdsbMessage := do
  let rawLat ← raw.bits 5 1 7 7
  let rawLon ← raw.bits 7 8 10 7
  let rawAlt ← raw.bits 11 1 12 4
  let m ← m.svAltitude raw rawAlt
  let nic ← raw.bits 12 5 12 8
  let m := { m with nic := some nic.toNat }.svPosition rawLat rawLon nic
  let airgroundState := AirGroundState.ofBits (← raw.bits 13 1 13 2).toNat
  let m := { m with airgroundState := some airgroundState }
  let m ← match airgroundState with
    | .airborneSubsonic => m.svAirborne raw false
    | .airborneSupersonic => m.svAirborne raw true
    | .onGround => m.svOnGround raw
    | _ => pure m
  m.svAddressTail raw

/-! ### Mode status (`DecodeMS`) -/

/-- The base-40 alphabet of callsigns and flight plan ids. -/
def base40Alphabet : List Char := "0123456789ABCDEFGHIJKLMNOPQRSTUVWXYZ *??".toList

/-- The eight base-40 characters of the three 16-bit groups, trailing spaces and `*` trimmed. -/
def base40Callsign (raw1 raw2 raw3 : Nat) : List Char :=
  let c (x : Nat) : Char := base40Alphabet.getD (x % 40) ' '
  let cs := [c (raw1 / 40), c raw1, c (raw2 / 1600), c (raw2 / 40), c raw2, c (raw3 / 1600),
    c (raw3 / 40), c raw3]
  (cs.reverse.dropWhile fun ch => ch = ' ' ∨ ch = '*').reverse

/-- A nonempty callsign is a callsign or a flight plan id by `Bit(27, 7)` (CSID). -/
def AdsbMessage.msCallsign (m : AdsbMessage) (raw : RawMessage) (callsign : List Char) :
    Except StdException AdsbMessage :=
  if callsign ≠ [] then do
    if ← raw.bit 27 7 then pure { m with callsign := some (String.mk callsign) }
    else pure { m with flightplanId := some (String.mk callsign) }
  else pure m

/-- `DecodeMS`. -/
def AdsbMessage.decodeMS (m : AdsbMessage) (raw : RawMessage) : Except StdException AdsbMessage := do
  let raw1 ← raw.bits 18 1 19 8
  let raw2 ← raw.bits 20 1 21 8
  let raw3 ← raw.bits 22 1 23 8
  let m := { m with emitterCategory := some (raw1.toNat / 1600 % 40) }
  let m ← m.msCallsign raw (base40Callsign raw1.toNat raw2.toNat raw3.toNat)
  let emergency ← raw.bits 24 1 24 3
  let mopsVersion ← raw.bits 24 4 24 6
  let sil ← raw.bits 24 7 24 8
  let transmitMso ← raw.bits 25 1 25 6
  let sda ← raw.bits 25 7 25 8
  let nacP ← raw.bits 26 1 26 4
  let nacV ← raw.bits 26 5 26 7
  let nicBaro ← raw.bits 26 8 26 8
  let capabilityCodes : CapabilityCodes :=
    { uatIn := ← raw.bit 27 1, esIn := ← raw.bit 27 2, tcasOperational := ← raw.bit 27 3 }
  let operationalModes : OperationalModes :=
    { tcasRaActive := ← raw.bit 27 4, identActive := ← raw.bit 27 5, atcServices := ← raw.bit 27 6 }
  let silSupplement ← raw.bits 27 8 27 8
  let gva ← raw.bits 28 1 28 2
  let singleAntenna ← raw.bit 28 3
  let nicSupplement ← raw.bit 28 4
  pure { m with
    emergency := some (.ofBits emergency.toNat), mopsVersion := some mopsVersion.toNat,
    sil := some sil.toNat, transmitMso := some transmitMso.toNat, sda := some sda.toNat,
    nacP := some nacP.toNat, nacV := some nacV.toNat, nicBaro := some nicBaro.toNat,
    capabilityCodes := some capabilityCodes, operationalModes := some operationalModes,
    silSupplement := some (.ofBits silSupplement.toNat), gva := some gva.toNat,
    singleAntenna := some singleAntenna, nicSupplement := some nicSupplement }

/-! ### Target state (`DecodeTS`) -/

/-- The selected altitude, in steps of 32 feet, by its type (`Bits(sb, 1, sb, 1)`). -/
def AdsbMessage.tsSelectedAltitude (m : AdsbMessage) (raw : RawMessage) (startbyte : Nat)
    (rawAltitude : UInt32) : Except StdException AdsbMessage :=
  if rawAltitude ≠ 0 then do
    let selectedAltitudeType := SelectedAltitudeType.ofBits (← raw.bits startbyte 1 startbyte 1).toNat
    let altitude : Int := ((rawAltitude.toNat : Int) - 1) * 32
    let m := { m with selectedAltitudeType := some selectedAltitudeType }
    pure <| match selectedAltitudeType with
      | .mcpFcu => { m with selectedAltitudeMcp := some altitude }
      | .fms => { m with selectedAltitudeFms := some altitude }
      | .invalid => m
  else pure m

/-- The selected heading, when its status bit `Bit(sb + 2, 6)` is set. -/
def AdsbMessage.tsSelectedHeading (m : AdsbMessage) (raw : RawMessage) (startbyte : Nat) :
    Except StdException AdsbMessage := do
  if ← raw.bit (startbyte + 2) 6 then
    let headingSign := signOf (← raw.bit (startbyte + 2) 7)
    let heading := roundN ((← raw.bits (startbyte + 2) 8 (startbyte + 3) 7).toNat.toFloat *
      180.0 / 256.0) 1
    pure { m with selectedHeading := some (Float.ofInt headingSign * heading) }
  else pure m

/-- The mode indicators, when their validity bit `Bit(sb + 3, 8)` is set. -/
def AdsbMessage.tsModeIndicators (m : AdsbMessage) (raw : RawMessage) (startbyte : Nat) :
    Except StdException AdsbMessage := do
  if ← raw.bit (startbyte + 3) 8 then
    let modeIndicators : ModeIndicators :=
      { autopilot := ← raw.bit (startbyte + 4) 1, vnav := ← raw.bit (startbyte + 4) 2,
        altitudeHold := ← raw.bit (startbyte + 4) 3, approach := ← raw.bit (startbyte + 4) 4,
        lnav := ← raw.bit (startbyte + 4) 5 }
    pure { m with modeIndicators := some modeIndicators }
  else pure m

/-- `DecodeTS(raw, startbyte)`: byte 30 in payload types 3 and 4, byte 25 in type 6. -/
def AdsbMessage.decodeTS (m : AdsbMessage) (raw : RawMessage) (startbyte : Nat) :
    Except StdException AdsbMessage := do
  let rawAltitude ← raw.bits startbyte 2 (startbyte + 1) 4
  let m ← m.tsSelectedAltitude raw startbyte rawAltitude
  let rawBps ← raw.bits (startbyte + 1) 5 (startbyte + 2) 5
  let m := if rawBps ≠ 0 then
    { m with barometricPressureSetting := some (800 + (rawBps.toNat - 1).toFloat * 0.8) } else m
  let m ← m.tsSelectedHeading raw startbyte
  m.tsModeIndicators raw startbyte

/-! ### Auxiliary state vector (`DecodeAUXSV`) -/

/-- `DecodeAUXSV`: the altitude of the other type than the state vector's (`Bit(10, 8)`). -/
def AdsbMessage.decodeAUXSV (m : AdsbMessage) (raw : RawMessage) :
    Except StdException AdsbMessage := do
  let rawAlt ← raw.bits 30 1 31 4
  if rawAlt ≠ 0 then
    let altitude : Int := ((rawAlt.toNat : Int) - 41) * 25
    if ← raw.bit 10 8 then pure { m with pressureAltitude := some altitude }
    else pure { m with geometricAltitude := some altitude }
  else pure m

/-! ### The constructor -/

/-- The elements present in payload type `payloadType` (DO-282B Table 2-10), decoded in order. -/
def AdsbMessage.decodeElements (m : AdsbMessage) (raw : RawMessage) :
    Nat → Except StdException AdsbMessage
  | 0 => m.decodeSV raw
  | 1 => do (← (← m.decodeSV raw).decodeMS raw).decodeAUXSV raw
  | 2 => do (← m.decodeSV raw).decodeAUXSV raw
  | 3 => do (← (← m.decodeSV raw).decodeMS raw).decodeTS raw 30
  | 4 => do (← m.decodeSV raw).decodeTS raw 30
  | 5 => do (← m.decodeSV raw).decodeAUXSV raw
  | 6 => do (← (← m.decodeSV raw).decodeTS raw 25).decodeAUXSV raw
  | 7 | 8 | 9 | 10 => m.decodeSV raw
  | _ => pure m

/-- `AdsbMessage::AdsbMessage(const RawMessage &raw)`. -/
def AdsbMessage.ofRaw (raw : RawMessage) : Except StdException AdsbMessage := do
  if raw.type ≠ .downlinkShort ∧ raw.type ≠ .downlinkLong then
    throw (.logicError "can't parse this sort of message as a downlink ADS-B message")
  let payloadType ← raw.bits 1 1 1 5
  let addressQualifier ← raw.bits 1 6 1 8
  let address ← raw.bits 2 1 4 8
  let m : AdsbMessage :=
    { receivedAt := raw.receivedAt, rawTimestamp := raw.rawTimestamp, errors := raw.errors,
      rssi := raw.rssi, payloadType := payloadType.toNat,
      addressQualifier := .ofBits addressQualifier.toNat, address }
  m.decodeElements raw payloadType.toNat

/-! ### Decoding without an exception -/

theorem exists_bind_pure {ε α β : Type} {x : Except ε α} {f : α → Except ε β}
    (hx : ∃ a, x = pure a) (hf : ∀ a, ∃ b, f a = pure b) : ∃ b, x >>= f = pure b := by
  obtain ⟨a, rfl⟩ := hx
  exact hf a

section Reads

variable (raw : RawMessage)

/-- A `Bit` read inside the payload succeeds. -/
theorem bit_ok {byte bit : Nat} (h : 1 ≤ byte ∧ 1 ≤ bit ∧ bit ≤ 8 ∧ byte ≤ raw.payload.length) :
    ∃ b, raw.bit byte bit = pure b :=
  ⟨_, bit_eq_pure raw h.1 h.2.1 h.2.2.1 h.2.2.2⟩

/-- A `Bits` read inside the payload succeeds. -/
theorem bits_ok {firstByte firstBit lastByte lastBit : Nat}
    (h : 1 ≤ lastByte ∧ 1 ≤ lastBit ∧ lastBit ≤ 8 ∧
      (firstByte - 1) * 8 + firstBit - 1 ≤ (lastByte - 1) * 8 + lastBit - 1 ∧
      lastByte ≤ raw.payload.length) :
    ∃ v, raw.bits firstByte firstBit lastByte lastBit = pure v :=
  ⟨_, bits_eq_pure raw h.1 h.2.1 h.2.2.1 h.2.2.2.1 h.2.2.2.2⟩

theorem svAltitude_ok (h : 10 ≤ raw.payload.length) (m : AdsbMessage) (rawAlt : UInt32) :
    ∃ m', m.svAltitude raw rawAlt = pure m' := by
  unfold AdsbMessage.svAltitude
  split
  · refine exists_bind_pure (bit_ok raw (by omega)) fun _ => ?_
    split <;> exact ⟨_, rfl⟩
  · exact ⟨_, rfl⟩

theorem svAirborne_ok (h : 17 ≤ raw.payload.length) (m : AdsbMessage) (supersonic : Bool) :
    ∃ m', m.svAirborne raw supersonic = pure m' := by
  unfold AdsbMessage.svAirborne
  -- each `←` of the block reads inside byte 17
  repeat first
    | refine exists_bind_pure (bit_ok raw (by omega)) fun _ => ?_
    | refine exists_bind_pure (bits_ok raw (by omega)) fun _ => ?_
  exact ⟨_, rfl⟩

theorem svGpsOffset_ok (h : 17 ≤ raw.payload.length) (m : AdsbMessage) :
    ∃ m', m.svGpsOffset raw = pure m' := by
  unfold AdsbMessage.svGpsOffset
  refine exists_bind_pure (bit_ok raw (by omega)) fun _ => ?_
  split <;> exact exists_bind_pure (bits_ok raw (by omega)) fun _ => ⟨_, rfl⟩

theorem svOnGround_ok (h : 17 ≤ raw.payload.length) (m : AdsbMessage) :
    ∃ m', m.svOnGround raw = pure m' := by
  unfold AdsbMessage.svOnGround
  repeat refine exists_bind_pure (bits_ok raw (by omega)) fun _ => ?_
  exact svGpsOffset_ok raw h _

theorem svAddressTail_ok (h : 17 ≤ raw.payload.length) (m : AdsbMessage) :
    ∃ m', m.svAddressTail raw = pure m' := by
  unfold AdsbMessage.svAddressTail
  split <;>
    repeat first
      | refine exists_bind_pure (bit_ok raw (by omega)) fun _ => ?_
      | refine exists_bind_pure (bits_ok raw (by omega)) fun _ => ?_
  all_goals exact ⟨_, rfl⟩

/-- `DecodeSV` reads nothing past byte 17. -/
theorem decodeSV_ok (h : 17 ≤ raw.payload.length) (m : AdsbMessage) :
    ∃ m', m.decodeSV raw = pure m' := by
  unfold AdsbMessage.decodeSV
  repeat refine exists_bind_pure (bits_ok raw (by omega)) fun _ => ?_
  refine exists_bind_pure (svAltitude_ok raw (by omega) _ _) fun _ => ?_
  repeat refine exists_bind_pure (bits_ok raw (by omega)) fun _ => ?_
  have tail := svAddressTail_ok raw h
  dsimp only
  split
  · exact exists_bind_pure (svAirborne_ok raw h _ _) tail
  · exact exists_bind_pure (svAirborne_ok raw h _ _) tail
  · exact exists_bind_pure (svOnGround_ok raw h _) tail
  · exact tail _

theorem msCallsign_ok (h : 28 ≤ raw.payload.length) (m : AdsbMessage) (callsign : List Char) :
    ∃ m', m.msCallsign raw callsign = pure m' := by
  unfold AdsbMessage.msCallsign
  split
  · refine exists_bind_pure (bit_ok raw (by omega)) fun _ => ?_
    split <;> exact ⟨_, rfl⟩
  · exact ⟨_, rfl⟩

/-- `DecodeMS` reads nothing past byte 28. -/
theorem decodeMS_ok (h : 28 ≤ raw.payload.length) (m : AdsbMessage) :
    ∃ m', m.decodeMS raw = pure m' := by
  unfold AdsbMessage.decodeMS
  repeat first
    | refine exists_bind_pure (bit_ok raw (by omega)) fun _ => ?_
    | refine exists_bind_pure (bits_ok raw (by omega)) fun _ => ?_
    | refine exists_bind_pure (msCallsign_ok raw h _ _) fun _ => ?_
  exact ⟨_, rfl⟩

variable {startbyte : Nat}

theorem tsSelectedAltitude_ok (hsb : 1 ≤ startbyte) (h : startbyte + 4 ≤ raw.payload.length)
    (m : AdsbMessage) (rawAltitude : UInt32) :
    ∃ m', m.tsSelectedAltitude raw startbyte rawAltitude = pure m' := by
  unfold AdsbMessage.tsSelectedAltitude
  split
  · exact exists_bind_pure (bits_ok raw (by omega)) fun _ => ⟨_, rfl⟩
  · exact ⟨_, rfl⟩

theorem tsSelectedHeading_ok (hsb : 1 ≤ startbyte) (h : startbyte + 4 ≤ raw.payload.length)
    (m : AdsbMessage) : ∃ m', m.tsSelectedHeading raw startbyte = pure m' := by
  unfold AdsbMessage.tsSelectedHeading
  refine exists_bind_pure (bit_ok raw (by omega)) fun _ => ?_
  split
  · exact exists_bind_pure (bit_ok raw (by omega)) fun _ =>
      exists_bind_pure (bits_ok raw (by omega)) fun _ => ⟨_, rfl⟩
  · exact ⟨_, rfl⟩

theorem tsModeIndicators_ok (hsb : 1 ≤ startbyte) (h : startbyte + 4 ≤ raw.payload.length)
    (m : AdsbMessage) : ∃ m', m.tsModeIndicators raw startbyte = pure m' := by
  unfold AdsbMessage.tsModeIndicators
  refine exists_bind_pure (bit_ok raw (by omega)) fun _ => ?_
  split
  · repeat refine exists_bind_pure (bit_ok raw (by omega)) fun _ => ?_
    exact ⟨_, rfl⟩
  · exact ⟨_, rfl⟩

/-- `DecodeTS(startbyte)` reads nothing past byte `startbyte + 4`. -/
theorem decodeTS_ok (hsb : 1 ≤ startbyte) (h : startbyte + 4 ≤ raw.payload.length)
    (m : AdsbMessage) : ∃ m', m.decodeTS raw startbyte = pure m' := by
  unfold AdsbMessage.decodeTS
  refine exists_bind_pure (bits_ok raw (by omega)) fun _ => ?_
  refine exists_bind_pure (tsSelectedAltitude_ok raw hsb h _ _) fun _ => ?_
  refine exists_bind_pure (bits_ok raw (by omega)) fun _ => ?_
  exact exists_bind_pure (tsSelectedHeading_ok raw hsb h _) (tsModeIndicators_ok raw hsb h)

/-- `DecodeAUXSV` reads nothing past byte 31. -/
theorem decodeAUXSV_ok (h : 31 ≤ raw.payload.length) (m : AdsbMessage) :
    ∃ m', m.decodeAUXSV raw = pure m' := by
  unfold AdsbMessage.decodeAUXSV
  refine exists_bind_pure (bits_ok raw (by omega)) fun _ => ?_
  split
  · refine exists_bind_pure (bit_ok raw (by omega)) fun _ => ?_
    split <;> exact ⟨_, rfl⟩
  · exact ⟨_, rfl⟩

/-- Every element combination of Table 2-10 decodes from 34 bytes. -/
theorem decodeElements_ok (h : 34 ≤ raw.payload.length) (m : AdsbMessage) (payloadType : Nat) :
    ∃ m', m.decodeElements raw payloadType = pure m' := by
  have sv := decodeSV_ok raw (by omega)
  have ms := decodeMS_ok raw (by omega)
  have aux := decodeAUXSV_ok raw (by omega)
  have ts30 : ∀ m : AdsbMessage, ∃ m', m.decodeTS raw 30 = pure m' := decodeTS_ok raw (by omega) (by omega)
  have ts25 : ∀ m : AdsbMessage, ∃ m', m.decodeTS raw 25 = pure m' := decodeTS_ok raw (by omega) (by omega)
  unfold AdsbMessage.decodeElements
  split
  · exact sv m
  · exact exists_bind_pure (sv m) fun m => exists_bind_pure (ms m) aux
  · exact exists_bind_pure (sv m) aux
  · exact exists_bind_pure (sv m) fun m => exists_bind_pure (ms m) ts30
  · exact exists_bind_pure (sv m) ts30
  · exact exists_bind_pure (sv m) aux
  · exact exists_bind_pure (sv m) fun m => exists_bind_pure (ts25 m) aux
  all_goals first | exact sv m | exact ⟨_, rfl⟩

end Reads

/-- The constructor's type check and header reads, then `decode` on the header's payload
type. -/
theorem ofRaw_eq (raw : RawMessage) (hty : raw.type = .downlinkShort ∨ raw.type = .downlinkLong)
    (hlen : 4 ≤ raw.payload.length) :
    ∃ m : AdsbMessage, m.payloadType = (raw.bitsValue 1 1 1 5).toNat ∧
      AdsbMessage.ofRaw raw = m.decodeElements raw (raw.bitsValue 1 1 1 5).toNat := by
  have hcheck : ¬ (raw.type ≠ .downlinkShort ∧ raw.type ≠ .downlinkLong) := by tauto
  simp -zeta (disch := omega) only [AdsbMessage.ofRaw, hcheck, if_false, bits_eq_pure, pure_bind]
  exact ⟨_, rfl, rfl⟩

/-- **A downlink payload decodes without an exception**: 34 bytes whatever the payload type,
or 18 bytes of payload type 0. -/
theorem ofRaw_downlink_ok (raw : RawMessage)
    (h : (raw.type = .downlinkLong ∧ raw.payload.length = downlinkLongDataBytes) ∨
      (raw.type = .downlinkShort ∧ raw.payload.length = downlinkShortDataBytes ∧
        (raw.payload.getD 0 0).toNat >>> 3 = 0)) :
    ∃ msg, AdsbMessage.ofRaw raw = pure msg := by
  rcases h with ⟨hty, hlen⟩ | ⟨hty, hlen, hpt⟩
  · obtain ⟨m, -, hm⟩ := ofRaw_eq raw (.inr hty) (by simp [hlen])
    rw [hm]
    exact decodeElements_ok raw (by simp [hlen]) m _
  · obtain ⟨m, -, hm⟩ := ofRaw_eq raw (.inl hty) (by simp [hlen])
    rw [hm, bitsValue_payloadType, hpt, AdsbMessage.decodeElements]
    exact decodeSV_ok raw (by simp [hlen]) m

/-! ### From error correction to decoding -/

/-- **A frame `CorrectDownlink` accepts is a downlink message that decodes.** Whatever the
decoders do inside their blocks, `CorrectDownlink` fails with `(false, [], 0)` or returns a
long frame (34 bytes, payload type nonzero, at most 14 corrections) or a short one (18
bytes, payload type zero, at most 12); the `RawMessage` of the payload has the matching
type, and building an `AdsbMessage` from it raises no exception. -/
theorem correctDownlink_decodes (fec : FEC) (raw : Bytes) (erasures : List Nat) :
    fec.correctDownlink raw erasures = fecFailure ∨
    ∃ d n, fec.correctDownlink raw erasures = (true, d, n) ∧
      ((d.length = downlinkLongDataBytes ∧ headerPayloadType d ≠ 0 ∧
          n ≤ Fec.downlinkLongRoots ∧ messageTypeOfSize d.length = .downlinkLong) ∨
        (d.length = downlinkShortDataBytes ∧ headerPayloadType d = 0 ∧
          n ≤ Fec.downlinkShortRoots ∧ messageTypeOfSize d.length = .downlinkShort)) ∧
      ∀ receivedAt errors rssi rawTimestamp, ∃ msg,
        AdsbMessage.ofRaw (RawMessage.ofPayload d receivedAt errors rssi rawTimestamp) = pure msg := by
  obtain h | ⟨d, n, h, hd⟩ := fec.correctDownlink_cases raw erasures
  · exact .inl h
  refine .inr ⟨d, n, h, ?_, fun t e r ts => ofRaw_downlink_ok _ ?_⟩
  · rcases hd with ⟨hl, hp, hn⟩ | ⟨hl, hp, hn⟩
    · exact .inl ⟨hl, hp, hn, by rw [hl]; rfl⟩
    · exact .inr ⟨hl, hp, hn, by rw [hl]; rfl⟩
  · rcases hd with ⟨hl, -, -⟩ | ⟨hl, hp, -⟩
    · exact .inl ⟨by rw [ofPayload_type, hl]; rfl, hl⟩
    · exact .inr ⟨by rw [ofPayload_type, hl]; rfl, hl, hp⟩

/-! ### Decoding with an exception -/

section Short

variable (raw : RawMessage)

/-- A `Bits` read that ends past the payload throws. -/
theorem bits_eq_throw {firstByte firstBit lastByte lastBit : Nat}
    (h : raw.payload.length < (bitsSpan firstByte firstBit lastByte lastBit).1 +
      (bitsSpan firstByte firstBit lastByte lastBit).2) :
    raw.bits firstByte firstBit lastByte lastBit =
      throw (.outOfRange "bit range exceeds available data") :=
  if_pos h

/-- `DecodeMS` first reads bytes 18 and 19. -/
theorem decodeMS_throw (h : raw.payload.length < 19) (m : AdsbMessage) :
    m.decodeMS raw = throw (.outOfRange "bit range exceeds available data") := by
  unfold AdsbMessage.decodeMS
  rw [bits_eq_throw raw (by simp only [bitsSpan_eq, bitIndex]; omega)]
  rfl

/-- `DecodeTS(startbyte)` first reads bytes `startbyte` and `startbyte + 1`. -/
theorem decodeTS_throw {startbyte : Nat} (hsb : 1 ≤ startbyte)
    (h : raw.payload.length < startbyte + 1) (m : AdsbMessage) :
    m.decodeTS raw startbyte = throw (.outOfRange "bit range exceeds available data") := by
  unfold AdsbMessage.decodeTS
  rw [bits_eq_throw raw (by simp only [bitsSpan_eq, bitIndex]; omega)]
  rfl

/-- `DecodeAUXSV` first reads bytes 30 and 31. -/
theorem decodeAUXSV_throw (h : raw.payload.length < 31) (m : AdsbMessage) :
    m.decodeAUXSV raw = throw (.outOfRange "bit range exceeds available data") := by
  unfold AdsbMessage.decodeAUXSV
  rw [bits_eq_throw raw (by simp only [bitsSpan_eq, bitIndex]; omega)]
  rfl

/-- From 18 bytes, the state vector of payload types 1 to 6 decodes and the element after it
throws. -/
theorem decodeElements_short_throw (h : raw.payload.length = downlinkShortDataBytes)
    (m : AdsbMessage) {payloadType : Nat} (hpt : 1 ≤ payloadType ∧ payloadType ≤ 6) :
    m.decodeElements raw payloadType = throw (.outOfRange "bit range exceeds available data") := by
  have h18 : raw.payload.length = 18 := h
  obtain ⟨m', hsv⟩ := decodeSV_ok raw (by omega) m
  have ms := decodeMS_throw raw (by omega) m'
  have aux := decodeAUXSV_throw raw (by omega) m'
  have ts30 : m'.decodeTS raw 30 = _ := decodeTS_throw raw (by omega) (by omega) m'
  have ts25 : m'.decodeTS raw 25 = _ := decodeTS_throw raw (by omega) (by omega) m'
  rcases payloadType with _ | _ | _ | _ | _ | _ | _ | n
  all_goals first
    | omega
    | simp only [AdsbMessage.decodeElements, hsv, pure_bind, ms, aux, ts30, ts25]
  -- payload types 1, 3 and 6: the throw is bound to a further element
  all_goals rfl

/-- **A short frame of payload type 1 to 6 does not decode**: its payload type names an
element past the 18 bytes, so `AdsbMessage(raw)` throws `std::out_of_range`. -/
theorem ofRaw_short_throw (hty : raw.type = .downlinkShort)
    (hlen : raw.payload.length = downlinkShortDataBytes)
    (hpt : 1 ≤ (raw.payload.getD 0 0).toNat >>> 3 ∧ (raw.payload.getD 0 0).toNat >>> 3 ≤ 6) :
    AdsbMessage.ofRaw raw = throw (.outOfRange "bit range exceeds available data") := by
  obtain ⟨m, -, hm⟩ := ofRaw_eq raw (.inl hty) (by simp [hlen])
  rw [hm, bitsValue_payloadType]
  exact decodeElements_short_throw raw hlen m hpt

end Short

end Dump978
