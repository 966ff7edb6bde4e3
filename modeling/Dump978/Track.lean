import Mathlib.Algebra.BigOperators.Group.List
import Mathlib.Algebra.Order.Field.Rat
import Mathlib.Data.List.Rotate
import Dump978.Adsb

namespace Dump978

/-!
# Aircraft state — `AircraftState::UpdateFromMessage` (`track.cc`, `track.h`)

An `AircraftState` keeps, for one aircraft, the last value of every field an ADS-B message can
carry, each in an `AgedField` stamped with the time of its last update and of its last change.
`UpdateFromMessage` ignores a message older than `last_message_time`; otherwise it offers each
field the message carries to `MaybeUpdate` (which takes it only if it is newer than the field),
derives the horizontal containment radius from the NIC, stores the message's RSSI in a
16-entry ring and counts the message.

The forty `UPDATE(x)` lines are one definition, `AgedField.update`, applied to each field. An
`AgedField` carries `changed ≤ updated` as a field: its two times are set only by
`MaybeUpdate`, which keeps it.

Main results:

* `AircraftState.run_eq_run_accepted` — the messages older than the state's
  `last_message_time` can be dropped from any sequence: a run is the run of the accepted ones
  (`acceptedFrom`);
* `AircraftState.Inv.step` — every field was updated no later than `last_message_time`, and
  the containment radius was updated exactly when the NIC was;
* `AircraftState.containment_run` — a valid containment radius is the radius of the NIC for
  the supplement flag in force at the message that last updated it;
* `AircraftState.RingHolds.step` — read from the next write position, the RSSI ring holds zeros
  and then the last (at most 16) accepted values, oldest first;
* `updateFromMessage_invariants` — all of it over every sequence of messages applied to a new
  state.
-/

/-! ### Aged fields -/

/-- `AgedFieldBase`: the times of the last update and of the last change, `0` for never. -/
structure AgedFieldBase where
  updated : UInt64
  changed : UInt64
  changed_le_updated : changed ≤ updated

/-- `Valid()`. -/
def AgedFieldBase.valid (f : AgedFieldBase) : Bool := f.updated != 0

/-- `AgedField<T>`. -/
structure AgedField (T : Type) extends AgedFieldBase where
  value : T

/-- `AgedField()`: never updated, with the value-initialised `v`. -/
def AgedField.empty {T : Type} (v : T) : AgedField T := ⟨⟨0, 0, UInt64.le_refl 0⟩, v⟩

theorem uint64_lt_iff {a b : UInt64} : a < b ↔ a.toNat < b.toNat := Iff.rfl

theorem uint64_le_iff {a b : UInt64} : a ≤ b ↔ a.toNat ≤ b.toNat := Iff.rfl

/-- `MaybeUpdate(at, v)`; `UpdateFromMessage` discards its result. -/
def AgedField.maybeUpdate {T : Type} [BEq T] (f : AgedField T) (t : UInt64) (v : T) :
    AgedField T :=
  if h : t > f.updated then
    { updated := t
      changed := if v != f.value then t else f.changed
      changed_le_updated := by
        split
        · exact UInt64.le_refl t
        · exact UInt64.le_trans f.changed_le_updated (uint64_le_iff.mpr (Nat.le_of_lt h))
      value := v }
  else f

/-- `UPDATE(x)`: `if (message.x) x.MaybeUpdate(message.received_at, *message.x)`. -/
def AgedField.update {T : Type} [BEq T] (f : AgedField T) (t : UInt64) : Option T → AgedField T
  | some v => f.maybeUpdate t v
  | none => f

/-! ### The state -/

/-- `AircraftState`: the address, the message count and the RSSI ring, and the aged fields in
the order of `track.h`. -/
structure AircraftState where
  addressQualifier : AddressQualifier
  address : UInt32
  lastMessageTime : UInt64
  messages : UInt32
  /-- `std::array<double, 16> rssi`. -/
  rssi : List Float
  rssi_length : rssi.length = 16
  position : AgedField (Float × Float)
  pressureAltitude : AgedField Int
  geometricAltitude : AgedField Int
  nic : AgedField Nat
  airgroundState : AgedField AirGroundState
  northVelocity : AgedField Int
  eastVelocity : AgedField Int
  verticalVelocityBarometric : AgedField Int
  verticalVelocityGeometric : AgedField Int
  groundSpeed : AgedField Int
  magneticHeading : AgedField Float
  trueHeading : AgedField Float
  trueTrack : AgedField Float
  aircraftSize : AgedField (Float × Float)
  gpsLateralOffset : AgedField Float
  gpsLongitudinalOffset : AgedField Float
  gpsPositionOffsetApplied : AgedField Bool
  utcCoupled : AgedField Bool
  emitterCategory : AgedField Nat
  callsign : AgedField String
  flightplanId : AgedField String
  emergency : AgedField EmergencyPriorityStatus
  mopsVersion : AgedField Nat
  sil : AgedField Nat
  transmitMso : AgedField Nat
  sda : AgedField Nat
  nacP : AgedField Nat
  nacV : AgedField Nat
  nicBaro : AgedField Nat
  capabilityCodes : AgedField CapabilityCodes
  operationalModes : AgedField OperationalModes
  silSupplement : AgedField SILSupplement
  gva : AgedField Nat
  singleAntenna : AgedField Bool
  nicSupplement : AgedField Bool
  /-- Derived from `nic` and `nic_supplement`: an upper bound, in meters. -/
  horizontalContainment : AgedField Float
  selectedAltitudeMcp : AgedField Int
  selectedAltitudeFms : AgedField Int
  barometricPressureSetting : AgedField Float
  selectedHeading : AgedField Float
  modeIndicators : AgedField ModeIndicators

/-- `AircraftState(aq, ad)`: no message yet, `rssi.fill(0.0)`, every field never updated. -/
def AircraftState.init (aq : AddressQualifier) (ad : UInt32) : AircraftState where
  addressQualifier := aq
  address := ad
  lastMessageTime := 0
  messages := 0
  rssi := List.replicate 16 0.0
  rssi_length := List.length_replicate 16 0.0
  position := .empty (0, 0)
  pressureAltitude := .empty 0
  geometricAltitude := .empty 0
  nic := .empty 0
  airgroundState := .empty .airborneSubsonic
  northVelocity := .empty 0
  eastVelocity := .empty 0
  verticalVelocityBarometric := .empty 0
  verticalVelocityGeometric := .empty 0
  groundSpeed := .empty 0
  magneticHeading := .empty 0
  trueHeading := .empty 0
  trueTrack := .empty 0
  aircraftSize := .empty (0, 0)
  gpsLateralOffset := .empty 0
  gpsLongitudinalOffset := .empty 0
  gpsPositionOffsetApplied := .empty false
  utcCoupled := .empty false
  emitterCategory := .empty 0
  callsign := .empty ""
  flightplanId := .empty ""
  emergency := .empty .none
  mopsVersion := .empty 0
  sil := .empty 0
  transmitMso := .empty 0
  sda := .empty 0
  nacP := .empty 0
  nacV := .empty 0
  nicBaro := .empty 0
  capabilityCodes := .empty ⟨false, false, false⟩
  operationalModes := .empty ⟨false, false, false⟩
  silSupplement := .empty .perHour
  gva := .empty 0
  singleAntenna := .empty false
  nicSupplement := .empty false
  horizontalContainment := .empty 0
  selectedAltitudeMcp := .empty 0
  selectedAltitudeFms := .empty 0
  barometricPressureSetting := .empty 0
  selectedHeading := .empty 0
  modeIndicators := .empty ⟨false, false, false, false, false⟩

/-- Every aged field of the state, as its `AgedFieldBase`. -/
def AircraftState.agedFields (s : AircraftState) : List AgedFieldBase :=
  [s.position.1, s.pressureAltitude.1, s.geometricAltitude.1, s.nic.1, s.airgroundState.1,
    s.northVelocity.1, s.eastVelocity.1, s.verticalVelocityBarometric.1,
    s.verticalVelocityGeometric.1, s.groundSpeed.1, s.magneticHeading.1, s.trueHeading.1,
    s.trueTrack.1, s.aircraftSize.1, s.gpsLateralOffset.1, s.gpsLongitudinalOffset.1,
    s.gpsPositionOffsetApplied.1, s.utcCoupled.1, s.emitterCategory.1, s.callsign.1,
    s.flightplanId.1, s.emergency.1, s.mopsVersion.1, s.sil.1, s.transmitMso.1, s.sda.1,
    s.nacP.1, s.nacV.1, s.nicBaro.1, s.capabilityCodes.1, s.operationalModes.1,
    s.silSupplement.1, s.gva.1, s.singleAntenna.1, s.nicSupplement.1,
    s.horizontalContainment.1, s.selectedAltitudeMcp.1, s.selectedAltitudeFms.1,
    s.barometricPressureSetting.1, s.selectedHeading.1, s.modeIndicators.1]

/-! ### `UpdateFromMessage` -/

/-- The forty `UPDATE(x)` lines, with `at = message.received_at`. -/
def AircraftState.updateFields (s : AircraftState) (m : AdsbMessage) : AircraftState :=
  let t := m.receivedAt
  { s with
    position := s.position.update t m.position
    pressureAltitude := s.pressureAltitude.update t m.pressureAltitude
    geometricAltitude := s.geometricAltitude.update t m.geometricAltitude
    nic := s.nic.update t m.nic
    airgroundState := s.airgroundState.update t m.airgroundState
    northVelocity := s.northVelocity.update t m.northVelocity
    eastVelocity := s.eastVelocity.update t m.eastVelocity
    verticalVelocityBarometric := s.verticalVelocityBarometric.update t m.verticalVelocityBarometric
    verticalVelocityGeometric := s.verticalVelocityGeometric.update t m.verticalVelocityGeometric
    groundSpeed := s.groundSpeed.update t m.groundSpeed
    magneticHeading := s.magneticHeading.update t m.magneticHeading
    trueHeading := s.trueHeading.update t m.trueHeading
    trueTrack := s.trueTrack.update t m.trueTrack
    aircraftSize := s.aircraftSize.update t m.aircraftSize
    gpsLateralOffset := s.gpsLateralOffset.update t m.gpsLateralOffset
    gpsLongitudinalOffset := s.gpsLongitudinalOffset.update t m.gpsLongitudinalOffset
    gpsPositionOffsetApplied := s.gpsPositionOffsetApplied.update t m.gpsPositionOffsetApplied
    utcCoupled := s.utcCoupled.update t m.utcCoupled
    emitterCategory := s.emitterCategory.update t m.emitterCategory
    callsign := s.callsign.update t m.callsign
    flightplanId := s.flightplanId.update t m.flightplanId
    emergency := s.emergency.update t m.emergency
    mopsVersion := s.mopsVersion.update t m.mopsVersion
    sil := s.sil.update t m.sil
    transmitMso := s.transmitMso.update t m.transmitMso
    sda := s.sda.update t m.sda
    nacP := s.nacP.update t m.nacP
    nacV := s.nacV.update t m.nacV
    nicBaro := s.nicBaro.update t m.nicBaro
    capabilityCodes := s.capabilityCodes.update t m.capabilityCodes
    operationalModes := s.operationalModes.update t m.operationalModes
    silSupplement := s.silSupplement.update t m.silSupplement
    gva := s.gva.update t m.gva
    singleAntenna := s.singleAntenna.update t m.singleAntenna
    nicSupplement := s.nicSupplement.update t m.nicSupplement
    selectedAltitudeMcp := s.selectedAltitudeMcp.update t m.selectedAltitudeMcp
    selectedAltitudeFms := s.selectedAltitudeFms.update t m.selectedAltitudeFms
    barometricPressureSetting := s.barometricPressureSetting.update t m.barometricPressureSetting
    selectedHeading := s.selectedHeading.update t m.selectedHeading
    modeIndicators := s.modeIndicators.update t m.modeIndicators }

/-- The static `rc_lookup`: NIC to the containment radius in meters (6 is a special case,
0 and 12 to 15 are absent). -/
def rcLookup : List (Nat × Float) :=
  [(1, 37040), (2, 14816), (3, 7408), (4, 3704), (5, 1852), (7, 370.4), (8, 185.2), (9, 75),
    (10, 25), (11, 7.5)]

/-- The `rc` the derivation computes for a NIC, with the NIC supplement flag `supplement`. -/
def containmentRadius (nic : Nat) (supplement : Bool) : Float :=
  if nic = 6 then (if supplement then 555.6 else 1111.2)
  else (rcLookup.lookup nic).getD 0

/-- The NIC supplement flag in force: `nic_supplement.Valid() && nic_supplement.Value()`. -/
def AircraftState.supplementFlag (s : AircraftState) : Bool :=
  s.nicSupplement.valid && s.nicSupplement.value

/-- "derive horizontal containment radius": if the message has a NIC, offer its radius to
`horizontal_containment`. -/
def AircraftState.deriveContainment (s : AircraftState) (m : AdsbMessage) : AircraftState :=
  match m.nic with
  | some nic =>
    { s with
      horizontalContainment :=
        s.horizontalContainment.maybeUpdate m.receivedAt (containmentRadius nic s.supplementFlag) }
  | none => s

/-- `rssi[messages % rssi.size()] = message.rssi; last_message_time = message.received_at;
++messages;` -/
def AircraftState.recordMessage (s : AircraftState) (m : AdsbMessage) : AircraftState :=
  { s with
    rssi := s.rssi.set (s.messages.toNat % 16) m.rssi
    rssi_length := by rw [List.length_set]; exact s.rssi_length
    lastMessageTime := m.receivedAt
    messages := s.messages + 1 }

/-- `UpdateFromMessage(message)`. -/
def AircraftState.updateFromMessage (s : AircraftState) (m : AdsbMessage) : AircraftState :=
  if m.receivedAt < s.lastMessageTime then s
  else ((s.updateFields m).deriveContainment m).recordMessage m

/-- `UpdateFromMessage` applied to each message in turn. -/
def AircraftState.run (s : AircraftState) (msgs : List AdsbMessage) : AircraftState :=
  msgs.foldl AircraftState.updateFromMessage s

/-- `AverageRssi()`: the sum of the ring over `std::min<double>(messages, rssi.size())`. -/
def AircraftState.averageRssi (s : AircraftState) : Float :=
  if s.messages = 0 then 0.0
  else
    let n := s.messages.toNat.toFloat
    s.rssi.foldl (· + ·) 0.0 / (if (16 : Float) < n then 16 else n)

/-- `AverageRssi()` in exact arithmetic, each stored `double` read as the rational `val`
gives it. -/
def AircraftState.averageRssiExact (val : Float → ℚ) (s : AircraftState) : ℚ :=
  if s.messages = 0 then 0
  else (s.rssi.map val).sum / min (s.messages.toNat : ℚ) 16

/-- The messages of a sequence that `UpdateFromMessage` accepts from a state whose
`last_message_time` is `t`: each one not older than the last one accepted. -/
def acceptedFrom : UInt64 → List AdsbMessage → List AdsbMessage
  | _, [] => []
  | t, m :: ms => if m.receivedAt < t then acceptedFrom t ms else m :: acceptedFrom m.receivedAt ms

/-! ### One aged field -/

section Aged

variable {T : Type} [BEq T] (f : AgedField T) (t : UInt64)

theorem AgedField.maybeUpdate_of_lt {v : T} (h : f.updated < t) :
    (f.maybeUpdate t v).updated = t ∧ (f.maybeUpdate t v).value = v := by
  unfold AgedField.maybeUpdate
  rw [dif_pos h]
  exact ⟨rfl, rfl⟩

theorem AgedField.maybeUpdate_of_not_lt {v : T} (h : ¬ f.updated < t) : f.maybeUpdate t v = f :=
  dif_neg h

/-- `MaybeUpdate` moves the update time to `at` exactly when `at` is later. -/
theorem AgedField.maybeUpdate_updated (v : T) :
    (f.maybeUpdate t v).updated = if f.updated < t then t else f.updated := by
  by_cases h : f.updated < t
  · rw [if_pos h, (f.maybeUpdate_of_lt t h).1]
  · rw [if_neg h, f.maybeUpdate_of_not_lt t h]

@[simp] theorem AgedField.maybeUpdate_updated_le_iff (v : T) :
    (f.maybeUpdate t v).updated ≤ t ↔ f.updated ≤ t := by
  rw [maybeUpdate_updated]
  split
  · exact ⟨fun _ => uint64_le_iff.mpr (Nat.le_of_lt ‹_›), fun _ => UInt64.le_refl t⟩
  · exact Iff.rfl

@[simp] theorem AgedField.update_updated_le_iff (o : Option T) :
    (f.update t o).updated ≤ t ↔ f.updated ≤ t := by
  cases o with
  | none => exact Iff.rfl
  | some v => exact f.maybeUpdate_updated_le_iff t v

end Aged

/-! ### One message -/

section Step

variable {s : AircraftState} {m : AdsbMessage}

theorem AircraftState.updateFromMessage_of_lt (h : m.receivedAt < s.lastMessageTime) :
    s.updateFromMessage m = s := if_pos h

theorem AircraftState.updateFromMessage_of_le (h : s.lastMessageTime ≤ m.receivedAt) :
    s.updateFromMessage m = ((s.updateFields m).deriveContainment m).recordMessage m :=
  if_neg fun hlt => absurd (uint64_le_iff.mp h) (Nat.not_le.mpr (uint64_lt_iff.mp hlt))

@[simp] theorem AircraftState.updateFields_nic :
    (s.updateFields m).nic = s.nic.update m.receivedAt m.nic := rfl

@[simp] theorem AircraftState.updateFields_nicSupplement :
    (s.updateFields m).nicSupplement = s.nicSupplement.update m.receivedAt m.nicSupplement := rfl

@[simp] theorem AircraftState.updateFields_horizontalContainment :
    (s.updateFields m).horizontalContainment = s.horizontalContainment := rfl

@[simp] theorem AircraftState.updateFields_lastMessageTime :
    (s.updateFields m).lastMessageTime = s.lastMessageTime := rfl

@[simp] theorem AircraftState.updateFields_messages : (s.updateFields m).messages = s.messages :=
  rfl

@[simp] theorem AircraftState.updateFields_rssi : (s.updateFields m).rssi = s.rssi := rfl

theorem AircraftState.deriveContainment_of_none (h : m.nic = none) : s.deriveContainment m = s := by
  rw [AircraftState.deriveContainment, h]

theorem AircraftState.deriveContainment_of_some {nic : Nat} (h : m.nic = some nic) :
    s.deriveContainment m =
      { s with
        horizontalContainment :=
          s.horizontalContainment.maybeUpdate m.receivedAt (containmentRadius nic s.supplementFlag) } := by
  rw [AircraftState.deriveContainment, h]

/-- The derivation changes no field but the containment radius. -/
theorem AircraftState.deriveContainment_eq (s : AircraftState) (m : AdsbMessage) :
    ∃ hc, s.deriveContainment m = { s with horizontalContainment := hc } := by
  cases h : m.nic with
  | none => exact ⟨s.horizontalContainment, AircraftState.deriveContainment_of_none h⟩
  | some nic => exact ⟨_, AircraftState.deriveContainment_of_some h⟩

@[simp] theorem AircraftState.deriveContainment_nic : (s.deriveContainment m).nic = s.nic := by
  obtain ⟨hc, h⟩ := s.deriveContainment_eq m; rw [h]

@[simp] theorem AircraftState.deriveContainment_nicSupplement :
    (s.deriveContainment m).nicSupplement = s.nicSupplement := by
  obtain ⟨hc, h⟩ := s.deriveContainment_eq m; rw [h]

@[simp] theorem AircraftState.deriveContainment_lastMessageTime :
    (s.deriveContainment m).lastMessageTime = s.lastMessageTime := by
  obtain ⟨hc, h⟩ := s.deriveContainment_eq m; rw [h]

@[simp] theorem AircraftState.deriveContainment_messages :
    (s.deriveContainment m).messages = s.messages := by
  obtain ⟨hc, h⟩ := s.deriveContainment_eq m; rw [h]

@[simp] theorem AircraftState.deriveContainment_rssi : (s.deriveContainment m).rssi = s.rssi := by
  obtain ⟨hc, h⟩ := s.deriveContainment_eq m; rw [h]

@[simp] theorem AircraftState.recordMessage_agedFields :
    (s.recordMessage m).agedFields = s.agedFields := rfl

@[simp] theorem AircraftState.recordMessage_nic : (s.recordMessage m).nic = s.nic := rfl

@[simp] theorem AircraftState.recordMessage_nicSupplement :
    (s.recordMessage m).nicSupplement = s.nicSupplement := rfl

@[simp] theorem AircraftState.recordMessage_horizontalContainment :
    (s.recordMessage m).horizontalContainment = s.horizontalContainment := rfl

@[simp] theorem AircraftState.recordMessage_lastMessageTime :
    (s.recordMessage m).lastMessageTime = m.receivedAt := rfl

@[simp] theorem AircraftState.recordMessage_messages :
    (s.recordMessage m).messages = s.messages + 1 := rfl

@[simp] theorem AircraftState.recordMessage_rssi :
    (s.recordMessage m).rssi = s.rssi.set (s.messages.toNat % 16) m.rssi := rfl

/-- The `UPDATE(x)` lines stamp no field later than the message. -/
theorem AircraftState.updateFields_updated_le
    (h : ∀ f ∈ s.agedFields, f.updated ≤ m.receivedAt) :
    ∀ f ∈ (s.updateFields m).agedFields, f.updated ≤ m.receivedAt := by
  simp only [AircraftState.agedFields, AircraftState.updateFields, List.forall_mem_cons,
    AgedField.update_updated_le_iff, List.not_mem_nil, false_implies, implies_true,
    and_true] at h ⊢
  exact h

/-- Nor does the radius derivation. -/
theorem AircraftState.deriveContainment_updated_le
    (h : ∀ f ∈ s.agedFields, f.updated ≤ m.receivedAt) :
    ∀ f ∈ (s.deriveContainment m).agedFields, f.updated ≤ m.receivedAt := by
  cases hn : m.nic with
  | none => rwa [AircraftState.deriveContainment_of_none hn]
  | some nic =>
    rw [AircraftState.deriveContainment_of_some hn]
    simp only [AircraftState.agedFields, List.forall_mem_cons, AgedField.maybeUpdate_updated_le_iff,
      List.not_mem_nil, false_implies, implies_true, and_true] at h ⊢
    exact h

/-- What holds of every state `UpdateFromMessage` reaches: no field was updated after
`last_message_time`, and the containment radius was updated when the NIC was. -/
structure AircraftState.Inv (s : AircraftState) : Prop where
  updated_le : ∀ f ∈ s.agedFields, f.updated ≤ s.lastMessageTime
  containment_updated : s.horizontalContainment.updated = s.nic.updated

theorem AircraftState.Inv.init (aq : AddressQualifier) (ad : UInt32) :
    (AircraftState.init aq ad).Inv := by
  have hfields : (AircraftState.init aq ad).agedFields = List.replicate 41 ⟨0, 0, UInt64.le_refl 0⟩ :=
    rfl
  refine ⟨fun f hf => ?_, rfl⟩
  rw [hfields] at hf
  rw [List.eq_of_mem_replicate hf]
  exact UInt64.le_refl 0

/-- **Every message keeps the invariant.** -/
theorem AircraftState.Inv.step (h : s.Inv) (m : AdsbMessage) : (s.updateFromMessage m).Inv := by
  by_cases hlt : m.receivedAt < s.lastMessageTime
  · rwa [AircraftState.updateFromMessage_of_lt hlt]
  have hle : s.lastMessageTime ≤ m.receivedAt := uint64_le_iff.mpr (Nat.not_lt.mp hlt)
  rw [AircraftState.updateFromMessage_of_le hle]
  refine ⟨?_, ?_⟩
  · rw [AircraftState.recordMessage_agedFields, AircraftState.recordMessage_lastMessageTime]
    exact AircraftState.deriveContainment_updated_le (AircraftState.updateFields_updated_le
      fun f hf => UInt64.le_trans (h.updated_le f hf) hle)
  · rw [AircraftState.recordMessage_horizontalContainment, AircraftState.recordMessage_nic,
      AircraftState.deriveContainment_nic, AircraftState.updateFields_nic]
    cases hn : m.nic with
    | none =>
      rw [AircraftState.deriveContainment_of_none hn]
      exact h.containment_updated
    | some nic =>
      rw [AircraftState.deriveContainment_of_some hn]
      show (s.horizontalContainment.maybeUpdate _ _).updated = (s.nic.maybeUpdate _ _).updated
      rw [AgedField.maybeUpdate_updated, AgedField.maybeUpdate_updated, h.containment_updated]

end Step

/-! ### The RSSI ring -/

/-- Writing slot `p` and reading the ring from `p + 1`: the ring read from `p`, without its
first slot, then the new value. -/
theorem rotate_set_succ {α : Type} (l : List α) {p : Nat} (hp : p < l.length) (a : α) :
    (l.set p a).rotate (p + 1) = (l.rotate p).tail ++ [a] := by
  have htake : (l.take p).length = p := List.length_take_of_le (Nat.le_of_lt hp)
  have hsplit : l.set p a = (l.take p ++ [a]) ++ l.drop (p + 1) := by
    rw [List.set_eq_take_append_cons_drop, if_pos hp, List.append_assoc, List.singleton_append]
  have hrot : l.rotate p = l.drop p ++ l.take p := by
    have h := List.rotate_append_length_eq (l.take p) (l.drop p)
    rwa [List.take_append_drop, htake] at h
  have hnext := List.rotate_append_length_eq (l.take p ++ [a]) (l.drop (p + 1))
  rw [List.length_append, htake, List.length_singleton] at hnext
  rw [hsplit, hnext, hrot, List.drop_eq_getElem_cons hp, List.cons_append, List.tail_cons,
    List.append_assoc]

section Ring

variable {s : AircraftState}

/-- The ring after `n = rs.length` values `rs`: read from the next write position `n % 16`,
`16 - n` zeros (none once `n ≥ 16`), then the last `min n 16` values, oldest first. -/
def AircraftState.RingHolds (s : AircraftState) (rs : List Float) : Prop :=
  s.messages.toNat = rs.length ∧
    s.rssi.rotate (rs.length % 16) = List.replicate (16 - rs.length) 0.0 ++ rs.drop (rs.length - 16)

theorem AircraftState.ringHolds_init (aq : AddressQualifier) (ad : UInt32) :
    (AircraftState.init aq ad).RingHolds [] := ⟨rfl, rfl⟩

/-- **One accepted message moves the ring on**, while the count cannot wrap. -/
theorem AircraftState.RingHolds.step {rs : List Float} {m : AdsbMessage} (h : s.RingHolds rs)
    (hle : s.lastMessageTime ≤ m.receivedAt) (hn : rs.length + 1 < 2 ^ 32) :
    (s.updateFromMessage m).RingHolds (rs ++ [m.rssi]) := by
  obtain ⟨hcount, hring⟩ := h
  rw [AircraftState.updateFromMessage_of_le hle]
  simp only [AircraftState.RingHolds, AircraftState.recordMessage_messages,
    AircraftState.recordMessage_rssi, AircraftState.deriveContainment_messages,
    AircraftState.deriveContainment_rssi, AircraftState.updateFields_messages,
    AircraftState.updateFields_rssi, List.length_append, List.length_singleton]
  refine ⟨by rw [uint32_toNat_add_one (by omega), hcount], ?_⟩
  have hlen := s.rssi_length
  have hslot : rs.length % 16 < s.rssi.length := by omega
  have hnext : (s.rssi.set (rs.length % 16) m.rssi).rotate ((rs.length + 1) % 16) =
      (s.rssi.set (rs.length % 16) m.rssi).rotate (rs.length % 16 + 1) := by
    rw [← List.rotate_mod _ (rs.length % 16 + 1), List.length_set, hlen,
      show (rs.length % 16 + 1) % 16 = (rs.length + 1) % 16 by omega]
  rw [hcount, hnext, rotate_set_succ _ hslot, hring]
  rcases Nat.lt_or_ge rs.length 16 with hlt | hge
  · obtain ⟨k, hk⟩ : ∃ k, 16 - rs.length = k + 1 := ⟨15 - rs.length, by omega⟩
    rw [hk, List.replicate_succ, List.cons_append, List.tail_cons,
      show 16 - (rs.length + 1) = k by omega, Nat.sub_eq_zero_of_le (by omega : rs.length ≤ 16),
      Nat.sub_eq_zero_of_le (by omega : rs.length + 1 ≤ 16), List.drop_zero, List.drop_zero,
      List.append_assoc]
  · rw [Nat.sub_eq_zero_of_le hge, Nat.sub_eq_zero_of_le (by omega : 16 ≤ rs.length + 1),
      List.replicate_zero, List.nil_append, List.nil_append, List.tail_drop,
      List.drop_append_of_le_length (by omega), show rs.length + 1 - 16 = rs.length - 16 + 1 by omega]

/-- **`AverageRssi()` is the mean of the last values**, in exact arithmetic: the ring holds the
last `min n 16` values and zeros. -/
theorem AircraftState.RingHolds.averageRssiExact {rs : List Float} (h : s.RingHolds rs)
    (val : Float → ℚ) (hval : val 0.0 = 0) :
    s.averageRssiExact val =
      ((rs.drop (rs.length - 16)).map val).sum / (rs.drop (rs.length - 16)).length := by
  obtain ⟨hcount, hring⟩ := h
  unfold AircraftState.averageRssiExact
  split
  · rename_i hzero
    have hnil : rs = [] := List.eq_nil_of_length_eq_zero (by rw [← hcount, hzero]; rfl)
    simp [hnil]
  · have hsum : (s.rssi.map val).sum = ((rs.drop (rs.length - 16)).map val).sum := by
      rw [← ((List.rotate_perm s.rssi (rs.length % 16)).map val).sum_eq, hring, List.map_append,
        List.sum_append, List.map_replicate, hval, List.sum_replicate, nsmul_zero, zero_add]
    rw [hsum, hcount, List.length_drop]
    congr 1
    rw [show rs.length - (rs.length - 16) = min rs.length 16 by omega, Nat.cast_min]
    rfl

end Ring

/-! ### Runs -/

section Runs

variable {s : AircraftState}

@[simp] theorem AircraftState.run_cons (m : AdsbMessage) (msgs : List AdsbMessage) :
    s.run (m :: msgs) = (s.updateFromMessage m).run msgs := rfl

theorem AircraftState.run_append_singleton (msgs : List AdsbMessage) (m : AdsbMessage) :
    s.run (msgs ++ [m]) = (s.run msgs).updateFromMessage m := List.foldl_append _ _ _ _

theorem AircraftState.lastMessageTime_updateFromMessage_of_le {m : AdsbMessage}
    (h : s.lastMessageTime ≤ m.receivedAt) :
    (s.updateFromMessage m).lastMessageTime = m.receivedAt := by
  rw [AircraftState.updateFromMessage_of_le h, AircraftState.recordMessage_lastMessageTime]

/-- `last_message_time` never decreases. -/
theorem AircraftState.lastMessageTime_le_updateFromMessage (m : AdsbMessage) :
    s.lastMessageTime ≤ (s.updateFromMessage m).lastMessageTime := by
  by_cases hlt : m.receivedAt < s.lastMessageTime
  · rw [AircraftState.updateFromMessage_of_lt hlt]
    exact UInt64.le_refl _
  · have hle : s.lastMessageTime ≤ m.receivedAt := uint64_le_iff.mpr (Nat.not_lt.mp hlt)
    rwa [AircraftState.lastMessageTime_updateFromMessage_of_le hle]

theorem AircraftState.lastMessageTime_le_run (msgs : List AdsbMessage) :
    s.lastMessageTime ≤ (s.run msgs).lastMessageTime := by
  induction msgs generalizing s with
  | nil => exact UInt64.le_refl _
  | cons m ms ih => exact UInt64.le_trans (s.lastMessageTime_le_updateFromMessage m) ih

/-- **The messages older than `last_message_time` can be dropped**: a run is the run of the
messages it accepts. -/
theorem AircraftState.run_eq_run_accepted (s : AircraftState) (msgs : List AdsbMessage) :
    s.run msgs = s.run (acceptedFrom s.lastMessageTime msgs) := by
  induction msgs generalizing s with
  | nil => rfl
  | cons m ms ih =>
    by_cases hlt : m.receivedAt < s.lastMessageTime
    · rw [AircraftState.run_cons, AircraftState.updateFromMessage_of_lt hlt, ih, acceptedFrom,
        if_pos hlt]
    · have hle : s.lastMessageTime ≤ m.receivedAt := uint64_le_iff.mpr (Nat.not_lt.mp hlt)
      rw [AircraftState.run_cons, acceptedFrom, if_neg hlt, AircraftState.run_cons, ih,
        AircraftState.lastMessageTime_updateFromMessage_of_le hle]

/-- `last_message_time` is the latest time of the accepted messages (or where it started). -/
theorem AircraftState.lastMessageTime_run (s : AircraftState) (msgs : List AdsbMessage) :
    (∀ a ∈ acceptedFrom s.lastMessageTime msgs, a.receivedAt ≤ (s.run msgs).lastMessageTime) ∧
      ((s.run msgs).lastMessageTime = s.lastMessageTime ∨
        ∃ a ∈ acceptedFrom s.lastMessageTime msgs, a.receivedAt = (s.run msgs).lastMessageTime) := by
  induction msgs generalizing s with
  | nil => exact ⟨fun a ha => absurd ha (List.not_mem_nil a), .inl rfl⟩
  | cons m ms ih =>
    by_cases hlt : m.receivedAt < s.lastMessageTime
    · rw [AircraftState.run_cons, AircraftState.updateFromMessage_of_lt hlt, acceptedFrom,
        if_pos hlt]
      exact ih s
    · have hle : s.lastMessageTime ≤ m.receivedAt := uint64_le_iff.mpr (Nat.not_lt.mp hlt)
      have hs' := AircraftState.lastMessageTime_updateFromMessage_of_le hle
      obtain ⟨hall, hlast⟩ := ih (s.updateFromMessage m)
      rw [hs'] at hall hlast
      rw [AircraftState.run_cons, acceptedFrom, if_neg hlt]
      refine ⟨fun a ha => ?_, .inr ?_⟩
      · rcases List.mem_cons.mp ha with rfl | ha
        · exact hs' ▸ AircraftState.lastMessageTime_le_run ms
        · exact hall a ha
      · rcases hlast with hlast | ⟨a, ha, heq⟩
        · exact ⟨m, List.mem_cons_self _ _, hlast.symm⟩
        · exact ⟨a, List.mem_cons_of_mem _ ha, heq⟩

theorem AircraftState.Inv.run (h : s.Inv) (msgs : List AdsbMessage) : (s.run msgs).Inv := by
  induction msgs generalizing s with
  | nil => exact h
  | cons m ms ih => exact ih (h.step m)

/-- The ring over a run, while the count cannot wrap. -/
theorem AircraftState.RingHolds.run {rs : List Float} (h : s.RingHolds rs) (msgs : List AdsbMessage)
    (hn : rs.length + (acceptedFrom s.lastMessageTime msgs).length < 2 ^ 32) :
    (s.run msgs).RingHolds (rs ++ (acceptedFrom s.lastMessageTime msgs).map (·.rssi)) := by
  induction msgs generalizing s rs with
  | nil =>
    show s.RingHolds (rs ++ [])
    rwa [List.append_nil]
  | cons m ms ih =>
    by_cases hlt : m.receivedAt < s.lastMessageTime
    · rw [acceptedFrom, if_pos hlt] at hn ⊢
      rw [AircraftState.run_cons, AircraftState.updateFromMessage_of_lt hlt]
      exact ih h hn
    · have hle : s.lastMessageTime ≤ m.receivedAt := uint64_le_iff.mpr (Nat.not_lt.mp hlt)
      rw [acceptedFrom, if_neg hlt, List.length_cons] at hn
      rw [acceptedFrom, if_neg hlt, List.map_cons, List.append_cons, AircraftState.run_cons]
      have hstep := h.step hle (by omega)
      rw [← AircraftState.lastMessageTime_updateFromMessage_of_le hle] at hn ⊢
      exact ih hstep (by rw [List.length_append, List.length_singleton]; omega)

/-- What one message does to the containment radius: nothing, with the NIC unchanged, or a
later update to the radius of the new NIC for the supplement flag now in force. -/
theorem AircraftState.containment_step (h : s.Inv) (m : AdsbMessage) :
    ((s.updateFromMessage m).horizontalContainment = s.horizontalContainment ∧
        (s.updateFromMessage m).nic = s.nic) ∨
      (s.horizontalContainment.updated < (s.updateFromMessage m).horizontalContainment.updated ∧
        (s.updateFromMessage m).horizontalContainment.value =
          containmentRadius (s.updateFromMessage m).nic.value
            (s.updateFromMessage m).supplementFlag) := by
  by_cases hlt : m.receivedAt < s.lastMessageTime
  · rw [AircraftState.updateFromMessage_of_lt hlt]
    exact .inl ⟨rfl, rfl⟩
  have hle : s.lastMessageTime ≤ m.receivedAt := uint64_le_iff.mpr (Nat.not_lt.mp hlt)
  rw [AircraftState.updateFromMessage_of_le hle]
  simp only [AircraftState.supplementFlag, AircraftState.recordMessage_horizontalContainment,
    AircraftState.recordMessage_nic, AircraftState.recordMessage_nicSupplement,
    AircraftState.deriveContainment_nic, AircraftState.deriveContainment_nicSupplement,
    AircraftState.updateFields_nic]
  cases hn : m.nic with
  | none =>
    rw [AircraftState.deriveContainment_of_none hn]
    exact .inl ⟨rfl, rfl⟩
  | some nic =>
    rw [AircraftState.deriveContainment_of_some hn]
    show (_ ∧ s.nic.maybeUpdate _ nic = s.nic) ∨
      (_ < (s.horizontalContainment.maybeUpdate _ _).updated ∧
        (s.horizontalContainment.maybeUpdate _ _).value = containmentRadius (s.nic.maybeUpdate _ nic).value _)
    by_cases hu : s.horizontalContainment.updated < m.receivedAt
    · have hnic : s.nic.updated < m.receivedAt := h.containment_updated ▸ hu
      refine .inr ⟨?_, ?_⟩
      · rw [(s.horizontalContainment.maybeUpdate_of_lt _ hu).1]
        exact hu
      · rw [(s.horizontalContainment.maybeUpdate_of_lt _ hu).2, (s.nic.maybeUpdate_of_lt _ hnic).2]
        rfl
    · have hnic : ¬ s.nic.updated < m.receivedAt := h.containment_updated ▸ hu
      exact .inl ⟨s.horizontalContainment.maybeUpdate_of_not_lt _ hu,
        s.nic.maybeUpdate_of_not_lt _ hnic⟩

/-- **A valid containment radius is the radius of the NIC** for the supplement flag in force
at the message that last updated it: the radius and the NIC are as that message left them. -/
theorem AircraftState.containment_run (aq : AddressQualifier) (ad : UInt32)
    (msgs : List AdsbMessage)
    (hvalid : ((AircraftState.init aq ad).run msgs).horizontalContainment.valid = true) :
    ∃ pre a post, msgs = pre ++ a :: post ∧
      ((AircraftState.init aq ad).run pre).horizontalContainment.updated <
        ((AircraftState.init aq ad).run (pre ++ [a])).horizontalContainment.updated ∧
      ((AircraftState.init aq ad).run (pre ++ [a])).horizontalContainment =
        ((AircraftState.init aq ad).run msgs).horizontalContainment ∧
      ((AircraftState.init aq ad).run (pre ++ [a])).nic = ((AircraftState.init aq ad).run msgs).nic ∧
      ((AircraftState.init aq ad).run msgs).horizontalContainment.value =
        containmentRadius ((AircraftState.init aq ad).run msgs).nic.value
          ((AircraftState.init aq ad).run (pre ++ [a])).supplementFlag := by
  induction msgs using List.reverseRecOn with
  | nil => exact absurd hvalid Bool.false_ne_true
  | append_singleton msgs m ih =>
    have hinv := (AircraftState.Inv.init aq ad).run msgs
    have hrun := AircraftState.run_append_singleton (s := AircraftState.init aq ad) msgs m
    generalize (AircraftState.init aq ad).run (msgs ++ [m]) = s' at hvalid hrun ⊢
    subst hrun
    rcases AircraftState.containment_step hinv m with ⟨hhc, hnic⟩ | ⟨hlt, hval⟩
    · rw [hhc] at hvalid
      obtain ⟨pre, a, post, rfl, hup, hhc', hnic', hval'⟩ := ih hvalid
      refine ⟨pre, a, post ++ [m], by simp, hup, hhc'.trans hhc.symm, hnic'.trans hnic.symm, ?_⟩
      rw [hhc, hnic]
      exact hval'
    · refine ⟨msgs, m, [], by simp, ?_, ?_, ?_, ?_⟩ <;>
        rw [AircraftState.run_append_singleton]
      · exact hlt
      · exact hval

end Runs

/-- **The invariants of `UpdateFromMessage`**, over every sequence of messages applied to a new
`AircraftState`, in any order of `received_at`: `last_message_time` is the latest time
accepted and never decreases; an older message changes nothing; every field was changed no
later than it was updated, and updated no later than `last_message_time`; the containment
radius was updated with the NIC and, when valid, is the radius of the NIC for the supplement
flag in force at its update; and while fewer than `2^32` messages were accepted, `messages`
counts them and `AverageRssi()`, in exact arithmetic, is the mean RSSI of the last
`min(messages, 16)`. -/
theorem updateFromMessage_invariants (aq : AddressQualifier) (ad : UInt32)
    (msgs : List AdsbMessage) (m : AdsbMessage) :
    let s := (AircraftState.init aq ad).run msgs
    let accepted := acceptedFrom 0 msgs
    ((∀ a ∈ accepted, a.receivedAt ≤ s.lastMessageTime) ∧
      (s.lastMessageTime = 0 ∨ ∃ a ∈ accepted, a.receivedAt = s.lastMessageTime)) ∧
    s.lastMessageTime ≤ (s.updateFromMessage m).lastMessageTime ∧
    (m.receivedAt < s.lastMessageTime → s.updateFromMessage m = s) ∧
    (∀ f ∈ s.agedFields, f.changed ≤ f.updated ∧ f.updated ≤ s.lastMessageTime) ∧
    s.horizontalContainment.updated = s.nic.updated ∧
    (s.horizontalContainment.valid = true → ∃ pre a post, msgs = pre ++ a :: post ∧
      ((AircraftState.init aq ad).run pre).horizontalContainment.updated <
        ((AircraftState.init aq ad).run (pre ++ [a])).horizontalContainment.updated ∧
      ((AircraftState.init aq ad).run (pre ++ [a])).horizontalContainment = s.horizontalContainment ∧
      ((AircraftState.init aq ad).run (pre ++ [a])).nic = s.nic ∧
      s.horizontalContainment.value =
        containmentRadius s.nic.value ((AircraftState.init aq ad).run (pre ++ [a])).supplementFlag) ∧
    (accepted.length < 2 ^ 32 → s.messages.toNat = accepted.length ∧
      ∀ val : Float → ℚ, val 0.0 = 0 →
        s.averageRssiExact val =
          (((accepted.map (·.rssi)).drop (accepted.length - 16)).map val).sum /
            ((accepted.map (·.rssi)).drop (accepted.length - 16)).length) := by
  intro s accepted
  have hinv : s.Inv := (AircraftState.Inv.init aq ad).run msgs
  refine ⟨(AircraftState.init aq ad).lastMessageTime_run msgs,
    s.lastMessageTime_le_updateFromMessage m, AircraftState.updateFromMessage_of_lt,
    fun f hf => ⟨f.changed_le_updated, hinv.updated_le f hf⟩, hinv.containment_updated,
    AircraftState.containment_run aq ad msgs, fun hn => ?_⟩
  have hring := (AircraftState.ringHolds_init aq ad).run msgs (by rw [List.length_nil, Nat.zero_add]; exact hn)
  rw [List.nil_append] at hring
  refine ⟨by rw [hring.1, List.length_map]; rfl, fun val hval => ?_⟩
  rw [hring.averageRssiExact val hval, List.length_map]
  rfl

end Dump978
