import Dump978.Adsb
import Dump978.RawFormat

namespace Dump978

/-!
# Decoded messages as JSON — `AdsbMessage::ToJson` (`uat_message.cc`)

`ToJson` builds an `nlohmann::json` object, member by member. An object is a `std::map`, so
each `o[key] = value` is `mapAssign` and the members end up sorted by name; a number keeps the
kind of the C++ value stored: `int`, `unsigned` or `std::uint64_t`, `double`. `EMIT(x)` stores
`o["x"]` when the optional field `x` is set. `jsonMembers` lists the assignments of `ToJson` in
its order, each with the value it stores, or `none` where the field is not set; `jsonObject`
makes the object of such a list. The enumerations are written by name through the tables of
`NLOHMANN_JSON_SERIALIZE_ENUM` (`enumName`): a value missing from its table gets the name of
the table's first pair. The emergency table has no pair for `MINFUEL`, which is therefore
written `"invalid"` (`enumName_of_not_mem`).

The address is written by `os << std::hex << std::setfill('0') << std::setw(6) << address`,
and the emitter category as a letter and a digit.

Main results:

* `AdsbMessage.toJson_object` — the object is sorted by name and holds, under each name, the
  value `ToJson` assigned to it, or nothing for a field that is not set: the 47 names are
  distinct (`jsonMembers_names_nodup`), so no assignment overwrites another.
* `AdsbMessage.toJson_readBack` — the `address` member is lowercase hexadecimal digits whose
  value, read with the `hexvalue` of the raw format's parser, is the address, six of them for
  a 24-bit address; a category below 40 is written as a letter `A` to `E` and a digit `0` to
  `7` from which it is read back.
-/

/-! ### The JSON value -/

/-- The values `ToJson` builds: a boolean, a number of one of the three kinds, a string, or an
object, with its members as a `std::map` from their names. -/
inductive JsonValue
  | boolean (b : Bool)
  | numberInteger (i : Int)
  | numberUnsigned (n : Nat)
  | numberFloat (x : Float)
  | string (s : String)
  | object (members : List (String × JsonValue))

/-- `j[key]` of an object that has the member, `none` otherwise. -/
def JsonValue.member? (j : JsonValue) (key : String) : Option JsonValue :=
  match j with
  | .object members => members.lookup key
  | _ => none

/-- `o[key] = value`, in order, for each member that is set, into an empty object. -/
def jsonObject (members : List (String × Option JsonValue)) : List (String × JsonValue) :=
  (members.filterMap fun kv => kv.2.map (kv.1, ·)).foldl (fun o kv => mapAssign o kv.1 kv.2) []

/-- `to_json` of an enumeration declared with `NLOHMANN_JSON_SERIALIZE_ENUM(E, pairs)`: the name
of the first pair for the value, or of the first pair of the table when it has none. -/
def enumName {E : Type} [DecidableEq E] (pairs : List (E × String)) (e : E) : String :=
  match pairs.find? fun p => p.1 = e with
  | some p => p.2
  | none => (pairs.head?.map (·.2)).getD ""

/-- `NLOHMANN_JSON_SERIALIZE_ENUM(AddressQualifier, ...)`. -/
def addressQualifierNames : List (AddressQualifier × String) :=
  [(.invalid, "invalid"), (.adsbIcao, "adsb_icao"), (.adsbOther, "adsb_other"),
    (.tisbIcao, "tisb_icao"), (.tisbTrackfile, "tisb_trackfile"), (.vehicle, "vehicle"),
    (.fixedBeacon, "fixed_beacon"), (.adsrOther, "adsr_other"), (.reserved, "reserved")]

/-- `NLOHMANN_JSON_SERIALIZE_ENUM(AirGroundState, ...)`. -/
def airGroundStateNames : List (AirGroundState × String) :=
  [(.invalid, "invalid"), (.airborneSubsonic, "airborne"), (.airborneSupersonic, "supersonic"),
    (.onGround, "ground"), (.reserved, "reserved")]

/-- `NLOHMANN_JSON_SERIALIZE_ENUM(VerticalVelocitySource, ...)`. -/
def verticalVelocitySourceNames : List (VerticalVelocitySource × String) :=
  [(.invalid, "invalid"), (.geometric, "geometric"), (.barometric, "barometric")]

/-- `NLOHMANN_JSON_SERIALIZE_ENUM(EmergencyPriorityStatus, ...)`: no pair for `MINFUEL`. -/
def emergencyPriorityStatusNames : List (EmergencyPriorityStatus × String) :=
  [(.invalid, "invalid"), (.none, "none"), (.general, "general"), (.medical, "medical"),
    (.nordo, "nordo"), (.unlawful, "unlawful"), (.downed, "downed"), (.reserved, "reserved")]

/-- `NLOHMANN_JSON_SERIALIZE_ENUM(SILSupplement, ...)`. -/
def silSupplementNames : List (SILSupplement × String) :=
  [(.invalid, "invalid"), (.perHour, "per_hour"), (.perSample, "per_sample")]

/-- `NLOHMANN_JSON_SERIALIZE_ENUM(SelectedAltitudeType, ...)`. -/
def selectedAltitudeTypeNames : List (SelectedAltitudeType × String) :=
  [(.invalid, "invalid"), (.mcpFcu, "mcp_fcu"), (.fms, "fms")]

/-- A value with no pair in its table is written with the name of the table's first pair. -/
theorem enumName_of_not_mem {E : Type} [DecidableEq E] {pairs : List (E × String)} {e : E}
    (h : ∀ p ∈ pairs, p.1 ≠ e) : enumName pairs e = (pairs.head?.map (·.2)).getD "" := by
  rw [enumName, List.find?_eq_none.2 fun p hp => by simpa using h p hp]

example : enumName emergencyPriorityStatusNames .minfuel = "invalid" := by decide

/-! ### The members of `ToJson` -/

/-- The hexadecimal digits `std::hex` writes for `n`, lowercase. -/
def hexDigits (n : Nat) : List Char :=
  if n = 0 then ['0'] else (Nat.digits 16 n).reverse.map Nat.digitChar

/-- `os << std::hex << std::setfill('0') << std::setw(6) << address`. -/
def addressText (address : UInt32) : List Char := padLeft 6 (hexDigits address.toNat)

/-- `std::string{(char)('A' + (c >> 3)), (char)('0' + (c & 7))}`. -/
def emitterCategoryText (category : Nat) : List Char :=
  [Char.ofNat (('A'.toNat + (category >>> 3)) % 256),
    Char.ofNat (('0'.toNat + (category &&& 7)) % 256)]

/-- `{{"lat", position->first}, {"lon", position->second}}`. -/
def positionJson (position : Float × Float) : JsonValue :=
  .object (jsonObject [("lat", some (.numberFloat position.1)),
    ("lon", some (.numberFloat position.2))])

/-- `{{"length", aircraft_size->first}, {"width", aircraft_size->second}}`. -/
def aircraftSizeJson (size : Float × Float) : JsonValue :=
  .object (jsonObject [("length", some (.numberFloat size.1)), ("width", some (.numberFloat size.2))])

/-- The `capability_codes` object. -/
def CapabilityCodes.toJson (cc : CapabilityCodes) : JsonValue :=
  .object (jsonObject [("uat_in", some (.boolean cc.uatIn)), ("es_in", some (.boolean cc.esIn)),
    ("tcas_operational", some (.boolean cc.tcasOperational))])

/-- The `operational_modes` object. -/
def OperationalModes.toJson (om : OperationalModes) : JsonValue :=
  .object (jsonObject [("tcas_ra_active", some (.boolean om.tcasRaActive)),
    ("ident_active", some (.boolean om.identActive)),
    ("atc_services", some (.boolean om.atcServices))])

/-- The `mode_indicators` object. -/
def ModeIndicators.toJson (mi : ModeIndicators) : JsonValue :=
  .object (jsonObject [("autopilot", some (.boolean mi.autopilot)), ("vnav", some (.boolean mi.vnav)),
    ("altitude_hold", some (.boolean mi.altitudeHold)), ("approach", some (.boolean mi.approach)),
    ("lnav", some (.boolean mi.lnav))])

/-- The `metadata` object: `received_at` in seconds and `raw_timestamp` when they are not zero. -/
def AdsbMessage.metadataJson (m : AdsbMessage) : JsonValue :=
  .object (jsonObject [("rssi", some (.numberFloat (roundN m.rssi 1))),
    ("errors", some (.numberUnsigned m.errors.toNat)),
    ("received_at",
      if m.receivedAt ≠ 0 then some (.numberFloat (m.receivedAt.toFloat / 1000.0)) else none),
    ("raw_timestamp",
      if m.rawTimestamp ≠ 0 then some (.numberUnsigned m.rawTimestamp.toNat) else none)])

/-- An enumeration's member: its name in the table. -/
def enumJson {E : Type} [DecidableEq E] (pairs : List (E × String)) (e : E) : JsonValue :=
  .string (enumName pairs e)

/-- `EMIT(x)`: the value `o["x"]` is given when `x` is set. Kept out of line, as a call per member:
inlined, the tests of the optional fields make the compiled `jsonMembers` grow exponentially. -/
@[noinline] def emit {α : Type} (toJson : α → JsonValue) (value : Option α) : Option JsonValue :=
  value.map toJson

/-- The assignments of `ToJson`, in order: the member's name and the value stored, `none` when
the field is not set. -/
def AdsbMessage.jsonMembers (m : AdsbMessage) : List (String × Option JsonValue) :=
  [("address_qualifier", some (enumJson addressQualifierNames m.addressQualifier)),
    ("address", some (.string (String.mk (addressText m.address)))),
    ("position", emit positionJson m.position),
    ("pressure_altitude", emit .numberInteger m.pressureAltitude),
    ("geometric_altitude", emit .numberInteger m.geometricAltitude),
    ("nic", emit .numberUnsigned m.nic),
    ("airground_state", emit (enumJson airGroundStateNames) m.airgroundState),
    ("north_velocity", emit .numberInteger m.northVelocity),
    ("east_velocity", emit .numberInteger m.eastVelocity),
    ("vv_src", emit (enumJson verticalVelocitySourceNames) m.vvSrc),
    ("vertical_velocity_barometric", emit .numberInteger m.verticalVelocityBarometric),
    ("vertical_velocity_geometric", emit .numberInteger m.verticalVelocityGeometric),
    ("ground_speed", emit .numberInteger m.groundSpeed),
    ("magnetic_heading", emit .numberFloat m.magneticHeading),
    ("true_heading", emit .numberFloat m.trueHeading),
    ("true_track", emit .numberFloat m.trueTrack),
    ("aircraft_size", emit aircraftSizeJson m.aircraftSize),
    ("gps_lateral_offset", emit .numberFloat m.gpsLateralOffset),
    ("gps_longitudinal_offset", emit .numberFloat m.gpsLongitudinalOffset),
    ("gps_position_offset_applied", emit .boolean m.gpsPositionOffsetApplied),
    ("utc_coupled", emit .boolean m.utcCoupled),
    ("uplink_feedback", emit .numberUnsigned m.uplinkFeedback),
    ("tisb_site_id", emit .numberUnsigned m.tisbSiteId),
    ("emitter_category", emit (fun c => .string (String.mk (emitterCategoryText c))) m.emitterCategory),
    ("callsign", emit .string m.callsign),
    ("flightplan_id", emit .string m.flightplanId),
    ("emergency", emit (enumJson emergencyPriorityStatusNames) m.emergency),
    ("mops_version", emit .numberUnsigned m.mopsVersion),
    ("sil", emit .numberUnsigned m.sil),
    ("transmit_mso", emit .numberUnsigned m.transmitMso),
    ("sda", emit .numberUnsigned m.sda),
    ("nac_p", emit .numberUnsigned m.nacP),
    ("nac_v", emit .numberUnsigned m.nacV),
    ("nic_baro", emit .numberUnsigned m.nicBaro),
    ("capability_codes", emit CapabilityCodes.toJson m.capabilityCodes),
    ("operational_modes", emit OperationalModes.toJson m.operationalModes),
    ("sil_supplement", emit (enumJson silSupplementNames) m.silSupplement),
    ("gva", emit .numberUnsigned m.gva),
    ("single_antenna", emit .boolean m.singleAntenna),
    ("nic_supplement", emit .boolean m.nicSupplement),
    ("selected_altitude_type", emit (enumJson selectedAltitudeTypeNames) m.selectedAltitudeType),
    ("selected_altitude_mcp", emit .numberInteger m.selectedAltitudeMcp),
    ("selected_altitude_fms", emit .numberInteger m.selectedAltitudeFms),
    ("barometric_pressure_setting", emit .numberFloat m.barometricPressureSetting),
    ("selected_heading", emit .numberFloat m.selectedHeading),
    ("mode_indicators", emit ModeIndicators.toJson m.modeIndicators),
    ("metadata", some m.metadataJson)]

/-- `AdsbMessage::ToJson()`. -/
def AdsbMessage.toJson (m : AdsbMessage) : JsonValue := .object (jsonObject m.jsonMembers)

/-! ### The object -/

/-- Assigning the members of `members` that are set, names distinct, onto `dst`: a name gets
its value in `members` when it is set there, and keeps its value in `dst` otherwise. -/
theorem lookup_foldl_set (members : List (String × Option JsonValue))
    (hdistinct : (members.map Prod.fst).Nodup) (dst : List (String × JsonValue)) (k : String) :
    ((members.filterMap fun kv => kv.2.map (kv.1, ·)).foldl (fun o kv => mapAssign o kv.1 kv.2)
      dst).lookup k = (members.lookup k).join.or (dst.lookup k) := by
  induction members generalizing dst with
  | nil => rfl
  | cons e rest ih =>
    obtain ⟨k₀, value⟩ := e
    obtain ⟨hhead, hrest⟩ := List.nodup_cons.mp hdistinct
    have hnone : rest.lookup k₀ = none := List.lookup_eq_none_iff.mpr fun e he =>
      bne_iff_ne.mpr fun h => hhead (List.mem_map.mpr ⟨e, he, h.symm⟩)
    cases value <;>
      simp only [List.filterMap_cons, Option.map_none', Option.map_some', List.foldl_cons, ih hrest,
        lookup_mapAssign, lookup_cons_ite] <;>
      by_cases hk : k = k₀ <;> simp [hk, hnone]

/-- An object built from members with distinct names has each member that is set, with its
value, and nothing under any other name. -/
theorem jsonObject_lookup (members : List (String × Option JsonValue))
    (hdistinct : (members.map Prod.fst).Nodup) (k : String) :
    (jsonObject members).lookup k = (members.lookup k).join := by
  rw [jsonObject, lookup_foldl_set members hdistinct, List.lookup_nil, Option.or_none]

theorem keysSorted_jsonObject (members : List (String × Option JsonValue)) :
    KeysSorted (jsonObject members) :=
  keysSorted_foldl_mapAssign _ List.Pairwise.nil

/-- The 47 names `ToJson` assigns are distinct. -/
theorem jsonMembers_names_nodup (m : AdsbMessage) : (m.jsonMembers.map Prod.fst).Nodup := by
  simp only [AdsbMessage.jsonMembers, List.map_cons, List.map_nil]
  decide

theorem AdsbMessage.member?_toJson (m : AdsbMessage) (k : String) :
    m.toJson.member? k = (m.jsonMembers.lookup k).join :=
  jsonObject_lookup _ (jsonMembers_names_nodup m) k

/-- **The object `ToJson` returns.** Its members are sorted by name, as `nlohmann::json` keeps
them, and under each name is the value `ToJson` assigned to it, or nothing when the field is
not set: the names are distinct, so no assignment overwrites another. -/
theorem AdsbMessage.toJson_object (m : AdsbMessage) :
    ∃ members, m.toJson = .object members ∧ KeysSorted members ∧
      ∀ k, members.lookup k = (m.jsonMembers.lookup k).join :=
  ⟨_, rfl, keysSorted_jsonObject _, m.member?_toJson⟩

/-! ### Reading the address and the emitter category back -/

/-- The value of hexadecimal digits, each read with `hexvalue`. -/
def hexValue (digits : List Char) : Nat :=
  digits.foldl (fun acc c => acc * 16 + (hexvalue c).toNat) 0

/-- Leading zeros do not change the value. -/
theorem hexValue_replicate_append (k : Nat) (digits : List Char) :
    hexValue (List.replicate k '0' ++ digits) = hexValue digits := by
  have hzeros : (List.replicate k '0').foldl (fun acc c => acc * 16 + (hexvalue c).toNat) 0 = 0 := by
    induction k with
    | zero => rfl
    | succ k ih => rw [List.replicate_succ', List.foldl_append, ih]; rfl
  rw [hexValue, List.foldl_append, hzeros, hexValue]

theorem foldr_hexDigit {L : List Nat} (h : ∀ d ∈ L, d < 16) :
    L.foldr (fun d acc => acc * 16 + (hexvalue (Nat.digitChar d)).toNat) 0 = Nat.ofDigits 16 L := by
  induction L with
  | nil => rfl
  | cons d L ih =>
    rw [List.foldr_cons, ih fun x hx => h x (List.mem_cons_of_mem _ hx), Nat.ofDigits_cons,
      hexvalue_digitChar d (h d (List.mem_cons_self _ _)), Int.toNat_ofNat]
    omega

theorem hexValue_hexDigits (n : Nat) : hexValue (hexDigits n) = n := by
  unfold hexDigits
  split_ifs with h0
  · subst h0
    rfl
  · rw [hexValue, List.map_reverse, List.foldl_reverse, List.foldr_map,
      foldr_hexDigit fun d hd => Nat.digits_lt_base (by decide) hd, Nat.ofDigits_digits]

theorem mem_hexDigits {n : Nat} {c : Char} (h : c ∈ hexDigits n) : ∃ d < 16, c = Nat.digitChar d := by
  unfold hexDigits at h
  split_ifs at h
  · exact ⟨0, by decide, by simpa using h⟩
  · obtain ⟨d, hd, rfl⟩ := List.mem_map.mp h
    exact ⟨d, Nat.digits_lt_base (by decide) (List.mem_reverse.mp hd), rfl⟩

/-- A 24-bit number has at most six hexadecimal digits. -/
theorem length_hexDigits_le {n : Nat} (h : n < 2 ^ 24) : (hexDigits n).length ≤ 6 := by
  unfold hexDigits
  split_ifs with h0
  · simp
  · rw [List.length_map, List.length_reverse, Nat.digits_len 16 n (by decide) h0]
    exact Nat.log_lt_of_lt_pow h0 (by simpa using h)

/-- A category below 40 is a letter `A` to `E` and a digit `0` to `7`, which give it back. -/
theorem emitterCategoryText_lt : ∀ c < 40, ∃ l d, emitterCategoryText c = [l, d] ∧
    l ∈ "ABCDE".toList ∧ d ∈ "01234567".toList ∧
    c = 8 * (l.toNat - 'A'.toNat) + (d.toNat - '0'.toNat) := by
  intro c hc
  refine ⟨_, _, rfl, ?_⟩
  revert c
  decide

/-- **Reading back the address and the emitter category.** The `address` member is lowercase
hexadecimal digits which, read with `hexvalue`, give the address, six of them for a 24-bit
address; a category below 40 is written as a letter `A` to `E` and a digit `0` to `7`, eight
times the letter's rank plus the digit being the category. -/
theorem AdsbMessage.toJson_readBack (m : AdsbMessage) :
    (∃ s : String, m.toJson.member? "address" = some (.string s) ∧
      (∀ c ∈ s.toList, ∃ d < 16, c = Nat.digitChar d) ∧ hexValue s.toList = m.address.toNat ∧
      (m.address.toNat < 2 ^ 24 → s.length = 6)) ∧
    ∀ c < 40, m.emitterCategory = some c →
      ∃ l d, m.toJson.member? "emitter_category" = some (.string (String.mk [l, d])) ∧
        l ∈ "ABCDE".toList ∧ d ∈ "01234567".toList ∧
        c = 8 * (l.toNat - 'A'.toNat) + (d.toNat - '0'.toNat) := by
  refine ⟨⟨String.mk (addressText m.address), ?_, fun c hc => ?_, ?_, fun h => ?_⟩, fun c hc hm => ?_⟩
  · rw [m.member?_toJson]
    rfl
  · rcases List.mem_append.mp hc with hz | hd
    · exact ⟨0, by decide, (List.eq_of_mem_replicate hz).trans rfl⟩
    · exact mem_hexDigits hd
  · exact (hexValue_replicate_append _ _).trans (hexValue_hexDigits _)
  · show (padLeft 6 _).length = 6
    rw [padLeft, List.length_append, List.length_replicate]
    have := length_hexDigits_le h
    omega
  · obtain ⟨l, d, htext, hl, hd, hc⟩ := emitterCategoryText_lt c hc
    refine ⟨l, d, ?_, hl, hd, hc⟩
    rw [m.member?_toJson, show m.jsonMembers.lookup "emitter_category" =
      some (emit (fun c => .string (String.mk (emitterCategoryText c))) m.emitterCategory) from rfl,
      hm, ← htext]
    rfl

end Dump978
