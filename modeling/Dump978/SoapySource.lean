import Dump978.RawFormat
import Dump978.Receiver

namespace Dump978

/-!
# The SoapySDR source — `SoapySampleSource` (`soapy_source.cc`)

`--sdr-device-settings` and `--sdr-stream-settings` are `key=value` lists separated by
commas. With a SoapySDR older than 0.6, `soapy_source.cc` parses them with its own
`KwargsFromString`. It scans a key up to `=` or `,`, and then, after `=`, a value up to `,`. It
trims the white space at both ends of each, and sets `kwargs[key] = value`. A key without `=`
gets the empty value. A key that trims to nothing is skipped when it has a value, but is
stored as the empty key when it has none. The result is a `std::map`, built here with
`mapAssign` from an empty list. The characters of the markup are those of the `std::string`,
one byte each; `isSpace` is `std::isspace` in the "C" locale, as in `RawFormat`.

`Init` configures the device and sets up the stream; `Run`, on its own thread, reads blocks
from the stream into one reused buffer and dispatches them. The device is outside the program:
`Init` takes its answers as data (`SoapyDevice`) and returns the calls it makes, and `Run`
takes the reads the device completes before `Stop` sets `halt_` (`StreamRead`). A
`config_error` ends `Init`; the calls made before it are not kept, since `main` then exits.

Main results:

* `kwargsFromString_settingsText` — the round trip: the markup of any list of settings, none of
  whose keys holds `=` or `,` and none of whose values holds `,`, parses to the map made by
  assigning the settings in order (`Setting.assign`);
* `streamSettings_lookup` — for any markup, the stream is set up with `KwargsFromString`'s
  value for each key it sets, over `buffsize=262144` for an RTL-SDR;
* `SoapySampleSource.init_format` — a successful `Init` reports one of the four formats, and
  sets the stream up in it;
* `SoapySampleSource.run_dispatch` — what `Run` dispatches over any sequence of reads
  (`runSpec`): the bytes of each read in order, nothing for an overflow, the first other error
  once, and every block stamped one full block before the end of its read.
-/

/-- `trim(i1, i2)`: the characters of `[i1, i2)` without the white space at either end. -/
def trim (s : List Char) : List Char := ((s.dropWhile isSpace).reverse.dropWhile isSpace).reverse

/-- What ends a key: `*scan != '=' && *scan != ','`. -/
def inKey (c : Char) : Bool := c != '=' && c != ','

/-- What ends a value: `*scan != ','`. -/
def inValue (c : Char) : Bool := c != ','

/-- The `while (scan < markup.end())` loop of `KwargsFromString`, `rest` being the characters
from `scan` on. A key that reaches the end or a `,` is stored with the empty value; after `=`,
the value runs to the next `,`, and the pair is stored if the key is not blank. Each `++scan`
past the separator drops it; past the end it leaves nothing, and the loop stops. -/
def kwargsScan (kwargs : List (String × String)) (rest : List Char) : List (String × String) :=
  if rest = [] then kwargs
  else
    let key := trim (rest.takeWhile inKey)
    match _h : rest.dropWhile inKey with
    | [] => mapAssign kwargs (String.mk key) ""
    | ',' :: more => kwargsScan (mapAssign kwargs (String.mk key) "") more
    | _ :: more =>
      let value := trim (more.takeWhile inValue)
      kwargsScan (if key.isEmpty then kwargs else mapAssign kwargs (String.mk key) (String.mk value))
        ((more.dropWhile inValue).drop 1)
termination_by rest.length
decreasing_by
  all_goals
    have hsuffix := (List.dropWhile_suffix inKey (l := rest)).length_le
    rw [_h, List.length_cons] at hsuffix
  · omega
  · have := (List.dropWhile_suffix inValue (l := more)).length_le
    simp only [List.length_drop]
    omega

/-- `KwargsFromString(markup)`. -/
def kwargsFromString (markup : List Char) : List (String × String) := kwargsScan [] markup

/-! ### The round trip -/

/-- A setting as the markup writes it: a key, and a value after `=` or none. -/
abbrev Setting := List Char × Option (List Char)

/-- The text of a setting. -/
def Setting.text : Setting → List Char
  | (k, none) => k
  | (k, some v) => k ++ '=' :: v

/-- Settings separated by commas. -/
def settingsText : List Setting → List Char
  | [] => []
  | [s] => s.text
  | s :: ss => s.text ++ ',' :: settingsText ss

/-- What `KwargsFromString` does with a setting: `kwargs[key] = value` with both trimmed, the
empty value for a key without one, and nothing for a blank key with a value. -/
def Setting.assign (kwargs : List (String × String)) : Setting → List (String × String)
  | (k, none) => mapAssign kwargs (String.mk (trim k)) ""
  | (k, some v) =>
    if (trim k).isEmpty then kwargs else mapAssign kwargs (String.mk (trim k)) (String.mk (trim v))

/-- A setting the markup can carry: no `=` or `,` in its key, no `,` in its value, and some
text. -/
structure Setting.Plain (s : Setting) : Prop where
  key_inKey : ∀ c ∈ s.1, inKey c = true
  value_inValue : ∀ v, s.2 = some v → ∀ c ∈ v, inValue c = true
  text_ne_nil : s.text ≠ []

section RoundTrip

variable {s : Setting} {kwargs : List (String × String)} {rest more : List Char}

theorem kwargsScan_nil : kwargsScan kwargs [] = kwargs := by
  rw [kwargsScan, if_pos rfl]

/-- A key that runs to the end of the markup. -/
theorem kwargsScan_end (hne : rest ≠ []) (hend : rest.dropWhile inKey = []) :
    kwargsScan kwargs rest = mapAssign kwargs (String.mk (trim (rest.takeWhile inKey))) "" := by
  rw [kwargsScan, if_neg hne]
  split
  · rfl
  · next heq => rw [hend] at heq; cases heq
  · next heq => rw [hend] at heq; cases heq

/-- A key ended by a comma. -/
theorem kwargsScan_comma (hcomma : rest.dropWhile inKey = ',' :: more) :
    kwargsScan kwargs rest =
      kwargsScan (mapAssign kwargs (String.mk (trim (rest.takeWhile inKey))) "") more := by
  have hne : rest ≠ [] := by rintro rfl; cases hcomma
  rw [kwargsScan, if_neg hne]
  split
  · next heq => rw [hcomma] at heq; cases heq
  · next heq => rw [hcomma] at heq; cases heq; rfl
  · next hc heq => rw [hcomma] at heq; cases heq; exact absurd rfl hc

/-- A key ended by `=`, and its value. -/
theorem kwargsScan_value {c : Char} (hc : c ≠ ',') (hvalue : rest.dropWhile inKey = c :: more) :
    kwargsScan kwargs rest =
      kwargsScan (if (trim (rest.takeWhile inKey)).isEmpty then kwargs
        else mapAssign kwargs (String.mk (trim (rest.takeWhile inKey)))
          (String.mk (trim (more.takeWhile inValue))))
        ((more.dropWhile inValue).drop 1) := by
  have hne : rest ≠ [] := by rintro rfl; cases hvalue
  rw [kwargsScan, if_neg hne]
  split
  · next heq => rw [hvalue] at heq; cases heq
  · next heq => rw [hvalue] at heq; cases heq; exact absurd rfl hc
  · next heq => rw [hvalue] at heq; cases heq; rfl

/-- A setting followed by `after`, which is empty or starts with a comma: the loop stores it and
goes on past the comma. -/
theorem kwargsScan_setting (h : s.Plain) (after : List Char)
    (hafter : after = [] ∨ ∃ rest, after = ',' :: rest) :
    kwargsScan kwargs (s.text ++ after) = kwargsScan (s.assign kwargs) (after.drop 1) := by
  obtain ⟨k, o⟩ := s
  have hkey := h.key_inKey
  cases o with
  | none =>
    have htake : (k ++ after).takeWhile inKey = k := by
      rw [List.takeWhile_append_of_pos hkey]
      rcases hafter with rfl | ⟨rest, rfl⟩ <;> simp [inKey]
    have hdrop : (k ++ after).dropWhile inKey = after := by
      rw [List.dropWhile_append_of_pos hkey]
      rcases hafter with rfl | ⟨rest, rfl⟩ <;> simp [inKey]
    show kwargsScan kwargs (k ++ after) = _
    rcases hafter with rfl | ⟨rest, rfl⟩
    · have hne : k ++ [] ≠ [] := by rw [List.append_nil]; exact h.text_ne_nil
      rw [kwargsScan_end hne hdrop, htake, List.drop_nil, kwargsScan_nil]
      rfl
    · rw [kwargsScan_comma hdrop, htake]
      rfl
  | some v =>
    have hvalue := h.value_inValue v rfl
    have htake : (k ++ '=' :: v ++ after).takeWhile inKey = k := by
      rw [List.append_assoc, List.takeWhile_append_of_pos hkey]
      simp [inKey]
    have hdrop : (k ++ '=' :: v ++ after).dropWhile inKey = '=' :: (v ++ after) := by
      rw [List.append_assoc, List.dropWhile_append_of_pos hkey]
      simp [inKey]
    have hvtake : (v ++ after).takeWhile inValue = v := by
      rw [List.takeWhile_append_of_pos hvalue]
      rcases hafter with rfl | ⟨rest, rfl⟩ <;> simp [inValue]
    have hvdrop : (v ++ after).dropWhile inValue = after := by
      rw [List.dropWhile_append_of_pos hvalue]
      rcases hafter with rfl | ⟨rest, rfl⟩ <;> simp [inValue]
    show kwargsScan kwargs (k ++ '=' :: v ++ after) = _
    rw [kwargsScan_value (by decide) hdrop, htake, hvtake, hvdrop]
    rfl

/-- **The markup of any settings parses back to them.** For every list of settings with no `=`
or `,` in a key, no `,` in a value and some text in each, `KwargsFromString` of their markup is
the map made by assigning them in order: keys and values trimmed, a later setting of a key
replacing an earlier one, a key without `=` stored with the empty value, and a blank key with a
value skipped. -/
theorem kwargsFromString_settingsText (settings : List Setting)
    (h : ∀ s ∈ settings, s.Plain) :
    kwargsFromString (settingsText settings) = settings.foldl Setting.assign [] := by
  suffices hscan : ∀ kwargs, kwargsScan kwargs (settingsText settings) =
      settings.foldl Setting.assign kwargs from hscan []
  induction settings with
  | nil => exact fun _ => kwargsScan_nil
  | cons s ss ih =>
    intro kwargs
    have hs := h s (List.mem_cons_self _ _)
    cases ss with
    | nil =>
      rw [show settingsText [s] = s.text ++ [] from (List.append_nil _).symm,
        kwargsScan_setting hs [] (.inl rfl), List.drop_nil, kwargsScan_nil]
      rfl
    | cons s' ss' =>
      show kwargsScan kwargs (s.text ++ ',' :: settingsText (s' :: ss')) = _
      rw [kwargsScan_setting hs _ (.inr ⟨_, rfl⟩), List.foldl_cons]
      exact ih (fun t ht => h t (List.mem_cons_of_mem _ ht)) _

/-- `--sdr-device-settings "rfnotch_ctrl=false, rfnotch_ctrl = true "`: the later setting wins,
trimmed. -/
theorem kwargsFromString_repeated_key :
    kwargsFromString "rfnotch_ctrl=false, rfnotch_ctrl = true ".toList =
      [("rfnotch_ctrl", "true")] := by
  have hplain : ∀ s ∈ ([("rfnotch_ctrl".toList, some "false".toList),
      (" rfnotch_ctrl ".toList, some " true ".toList)] : List Setting), s.Plain := by
    simp only [List.mem_cons, List.mem_singleton, List.not_mem_nil, or_false]
    rintro s (rfl | rfl) <;> exact ⟨by decide, by rintro v ⟨⟩; decide, by decide⟩
  rw [show "rfnotch_ctrl=false, rfnotch_ctrl = true ".toList = settingsText
      [("rfnotch_ctrl".toList, some "false".toList), (" rfnotch_ctrl ".toList, some " true ".toList)]
      from rfl, kwargsFromString_settingsText _ hplain]
  decide

end RoundTrip

/-! ### The map `KwargsFromString` returns -/

theorem keysSorted_kwargsScan {kwargs : List (String × String)} (hs : KeysSorted kwargs)
    (rest : List Char) : KeysSorted (kwargsScan kwargs rest) := by
  induction kwargs, rest using kwargsScan.induct with
  | case1 kwargs => rwa [kwargsScan_nil]
  | case2 kwargs rest hne hend => rw [kwargsScan_end hne hend]; exact hs.mapAssign_string _ _
  | case3 kwargs rest hne key more hcomma ih =>
    rw [kwargsScan_comma hcomma]; exact ih (hs.mapAssign_string _ _)
  | case4 kwargs rest hne key c more hc hvalue value ih =>
    rw [kwargsScan_value hc hvalue]
    split_ifs at ih ⊢
    · exact ih hs
    · exact ih (hs.mapAssign_string _ _)

/-- Whatever the markup, `KwargsFromString` returns a map: no key twice. -/
theorem kwargsFromString_distinct (markup : List Char) :
    (kwargsFromString markup).Pairwise fun a b => a.1 ≠ b.1 :=
  (keysSorted_kwargsScan List.Pairwise.nil markup).imp ne_of_lt

/-! ### `SoapySampleSource::Init` -/

/-- `config_error` (`exception.h`): a bad configuration, which `main` reports with exit
status 2. -/
structure ConfigError where
  what : String
  deriving DecidableEq, Repr

/-- `FormatToSoapy(format)`: the `SOAPY_SDR_*` name of a sample format (`SoapySDR/Formats.h`),
`""` for any other. -/
def formatToSoapy : SampleFormat → String
  | .cu8 => "CU8" | .cs8 => "CS8" | .cs16h => "CS16" | .cf32h => "CF32" | .unknown => ""

/-- `SoapyToFormat(format)`: the format of a `SOAPY_SDR_*` name, `UNKNOWN` for any other. -/
def soapyToFormat (format : String) : SampleFormat :=
  if format = "CU8" then .cu8
  else if format = "CS8" then .cs8
  else if format = "CS16" then .cs16h
  else if format = "CF32" then .cf32h
  else .unknown

/-- The options `Init` reads: `false` or `none` for one not given. -/
structure SoapyOptions where
  sdrAutoGain : Bool
  sdrGain : Option Float
  sdrPpm : Option Float
  sdrAntenna : Option String
  sdrDeviceSettings : Option String
  sdrStreamSettings : Option String
  format : Option SampleFormat

/-- The SoapySDR device, outside the program: what `Init` asks of it. `setupStream` gives a
stream (`true`), a null one (`false`), or the `what()` of the `std::runtime_error` it throws. -/
structure SoapyDevice where
  hasGainMode : Bool
  gainRangeMaximum : Float
  hasFrequencyCorrection : Bool
  nativeStreamFormat : String
  driverKey : String
  setupStream : String → List (String × String) → Except String Bool

/-- The calls `Init` makes to configure the device, in order. -/
inductive DeviceCall
  | setSampleRate (rate : Float)
  | setFrequency (frequency : Float)
  | setBandwidth (bandwidth : Float)
  | setGainMode (automatic : Bool)
  | setGain (gain : Float)
  | setFrequencyCorrection (ppm : Float)
  | setAntenna (antenna : String)
  | writeSetting (key value : String)

/-- What a successful `Init` leaves: the device configured by `calls`, `format_`, and the
stream set up with `soapyFormat` and `settings`. -/
structure SoapyStream where
  calls : List DeviceCall
  format : SampleFormat
  soapyFormat : String
  settings : List (String × String)

/-- The gain of `Init`: automatic with `--sdr-auto-gain`, else the given or the maximum manual
gain. -/
def SoapySampleSource.gainCalls (options : SoapyOptions) (device : SoapyDevice) :
    Except ConfigError (List DeviceCall) :=
  if options.sdrAutoGain then
    if device.hasGainMode then pure [.setGainMode true]
    else throw ⟨"Device does not support automatic gain mode"⟩
  else
    match options.sdrGain with
    | some gain => pure [.setGainMode false, .setGain gain]
    | none => pure [.setGainMode false, .setGain device.gainRangeMaximum]

/-- `--sdr-ppm` of `Init`; `frequencyCorrectionApi` is whether SoapySDR defines
`SOAPY_SDR_API_HAS_FREQUENCY_CORRECTION_API`. -/
def SoapySampleSource.ppmCalls (frequencyCorrectionApi : Bool) (options : SoapyOptions)
    (device : SoapyDevice) : List DeviceCall :=
  match options.sdrPpm with
  | some ppm =>
    if ppm != 0 then
      if frequencyCorrectionApi && device.hasFrequencyCorrection && ppm != 0 then
        [.setFrequencyCorrection ppm]
      else []
    else []
  | none => []

/-- The format of `Init`: `--format`, else the device's native format, which must have a
`SampleFormat`; and its SoapySDR name. -/
def SoapySampleSource.streamFormat (options : SoapyOptions) (device : SoapyDevice) :
    Except ConfigError (SampleFormat × String) :=
  let format := options.format.getD .unknown
  if format = .unknown then
    let native := soapyToFormat device.nativeStreamFormat
    if native = .unknown then
      throw ⟨"Unsupported native SDR format: " ++ device.nativeStreamFormat ++
        "; try specifying --format"⟩
    else pure (native, device.nativeStreamFormat)
  else
    let soapyFormat := formatToSoapy format
    if soapyFormat.isEmpty then throw ⟨"Unsupported sample format"⟩
    else pure (format, soapyFormat)

/-- `stream_settings`: `buffsize=262144` for an RTL-SDR, then each setting of
`--sdr-stream-settings` over it. -/
def streamSettings (driverKey : String) (streamOption : Option String) :
    List (String × String) :=
  let defaults := if driverKey = "RTLSDR" then mapAssign [] "buffsize" "262144" else []
  match streamOption with
  | some markup =>
    (kwargsFromString markup.toList).foldl (fun m kv => mapAssign m kv.1 kv.2) defaults
  | none => defaults

/-- `SoapySampleSource::Init`, from `Device::make(device_name_)`: the device, a null pointer
(`none`), or the `what()` of the `std::runtime_error` it throws. A `config_error` ends it. -/
def SoapySampleSource.init (frequencyCorrectionApi : Bool) (options : SoapyOptions)
    (make : Except String (Option SoapyDevice)) : Except ConfigError SoapyStream :=
  match make with
  | .error cause => throw ⟨"No matching SoapySDR device found (cause: " ++ cause ++ ")"⟩
  | .ok none => throw ⟨"No matching SoapySDR device found"⟩
  | .ok (some device) => do
    let gain ← SoapySampleSource.gainCalls options device
    let (format, soapyFormat) ← SoapySampleSource.streamFormat options device
    let settings := streamSettings device.driverKey options.sdrStreamSettings
    match device.setupStream soapyFormat settings with
    | .error cause => throw ⟨"Failed to construct soapysdr stream (cause: " ++ cause ++ ")"⟩
    | .ok false => throw ⟨"Failed to construct soapysdr stream"⟩
    | .ok true => pure {
        calls := [.setSampleRate 2083333.0, .setFrequency 978000000, .setBandwidth 3.0e6] ++
          gain ++ SoapySampleSource.ppmCalls frequencyCorrectionApi options device ++
          options.sdrAntenna.toList.map .setAntenna ++
          match options.sdrDeviceSettings with
          | some markup => (kwargsFromString markup.toList).map fun kv => .writeSetting kv.1 kv.2
          | none => []
        format, soapyFormat, settings }

/-! ### The format of the stream -/

theorem soapyToFormat_formatToSoapy {format : SampleFormat} (h : format ≠ .unknown) :
    soapyToFormat (formatToSoapy format) = format := by
  cases format <;> first | exact absurd rfl h | decide

theorem except_bind_eq_ok {ε α β : Type} {x : Except ε α} {f : α → Except ε β} {b : β}
    (h : x >>= f = .ok b) : ∃ a, x = .ok a ∧ f a = .ok b := by
  cases x with
  | error e => cases h
  | ok a => exact ⟨a, rfl, h⟩

theorem SoapySampleSource.streamFormat_ok {options : SoapyOptions} {device : SoapyDevice}
    {format : SampleFormat} {soapyFormat : String}
    (h : SoapySampleSource.streamFormat options device = .ok (format, soapyFormat)) :
    format ≠ .unknown ∧ soapyToFormat soapyFormat = format := by
  unfold SoapySampleSource.streamFormat at h
  dsimp only at h
  split_ifs at h with hgiven hnative hempty <;> cases h
  · exact ⟨hnative, rfl⟩
  · exact ⟨hgiven, soapyToFormat_formatToSoapy hgiven⟩

/-- **`Init` sets the stream up in the format it reports.** Whatever the options and the
device, a successful `Init` leaves `format_` one of the four formats, not `UNKNOWN`, and the
stream it sets up has the SoapySDR name of that format: the receiver `main` builds from
`Format()` converts the samples the stream delivers, with a positive sample size. -/
theorem SoapySampleSource.init_format (frequencyCorrectionApi : Bool) (options : SoapyOptions)
    (make : Except String (Option SoapyDevice)) (stream : SoapyStream)
    (h : SoapySampleSource.init frequencyCorrectionApi options make = .ok stream) :
    stream.format ≠ .unknown ∧ 0 < stream.format.bytesPerSample ∧
      soapyToFormat stream.soapyFormat = stream.format := by
  unfold SoapySampleSource.init at h
  split at h
  · cases h
  · cases h
  obtain ⟨gain, -, h⟩ := except_bind_eq_ok h
  obtain ⟨⟨format, soapyFormat⟩, hformat, h⟩ := except_bind_eq_ok h
  obtain ⟨hknown, hname⟩ := SoapySampleSource.streamFormat_ok hformat
  dsimp only at h
  split at h
  · cases h
  · cases h
  · cases h
    exact ⟨hknown, SampleFormat.bytesPerSample_pos hknown, hname⟩

/-! ### The stream settings -/

theorem streamSettings_defaults_lookup (driverKey k : String) :
    (if driverKey = "RTLSDR" then mapAssign [] "buffsize" "262144" else []).lookup k =
      if driverKey = "RTLSDR" ∧ k = "buffsize" then some "262144" else none := by
  by_cases hdriver : driverKey = "RTLSDR"
  · rw [if_pos hdriver, lookup_mapAssign]
    simp [hdriver]
  · simp [hdriver]

/-- **The stream settings.** Whatever `--sdr-stream-settings` holds, each key of the settings
`Init` passes to `setupStream` has the value `KwargsFromString` gives it; a key the option does
not set has no value, but `buffsize` for an RTL-SDR, which is `262144`. -/
theorem streamSettings_lookup (driverKey : String) (streamOption : Option String) (k : String) :
    (streamSettings driverKey streamOption).lookup k =
      (((streamOption.map fun markup => kwargsFromString markup.toList).getD []).lookup k).or
        (if driverKey = "RTLSDR" ∧ k = "buffsize" then some "262144" else none) := by
  rw [← streamSettings_defaults_lookup]
  cases streamOption with
  | none => rfl
  | some markup => exact lookup_foldl_mapAssign _ (kwargsFromString_distinct _) _ k

/-! ### `SoapySampleSource::Run` -/

/-- One `readStream` call of `Run`, as the device completes it. -/
structure StreamRead where
  /-- What `readStream` returns: the number of elements read, or a negative error code. -/
  elementsRead : Int
  /-- The bytes the device wrote at the front of the block. -/
  written : Bytes
  /-- `system_clock::now()` after the call: the bits of its count of nanoseconds since the
  epoch. -/
  now : UInt64

/-- What `Run` hands on: `DispatchBuffer(timestamp, block)` or `DispatchError(ec)`. -/
inductive SourceEvent
  | buffer (timestamp : UInt64) (block : Bytes)
  | error (code : Int)

/-- The timestamp `Run` gives a block read by `now`, in milliseconds: the clock less the time
of `elements` samples at 2083333 a second. The `std::chrono` arithmetic is `unsigned long`
throughout: `milliseconds(1000) * elements / 2083333`, the nanoseconds it takes off `now`, and
the cast back to milliseconds. -/
def blockTimestamp (elements now : UInt64) : UInt64 :=
  (now - 1000 * elements / 2083333 * 1000000) / 1000000

/-- The `while (!halt_)` loop of `Run` over the reads the device completes before `Stop` sets
`halt_`, `block` being the buffer it reuses. A read returning `SOAPY_SDR_OVERFLOW` (`overflow`)
or nothing dispatches nothing; any other negative return is dispatched as an error and ends the
loop. `elements_read * bytes_per_element` is an `unsigned int`. -/
def SoapySampleSource.runLoop (bytesPerElement elements : Nat) (overflow : Int) (block : Bytes) :
    List StreamRead → List SourceEvent
  | [] => []
  | read :: reads =>
    let block := copyInto (vectorResize block (elements * bytesPerElement) 0) 0 read.written
    if read.elementsRead < 0 ∧ read.elementsRead ≠ overflow then [.error read.elementsRead]
    else if read.elementsRead ≤ 0 then runLoop bytesPerElement elements overflow block reads
    else
      let block := vectorResize block (read.elementsRead.toNat * bytesPerElement % 2 ^ 32) 0
      .buffer (blockTimestamp (UInt64.ofNat elements) read.now) block ::
        runLoop bytesPerElement elements overflow block reads

/-- `SoapySampleSource::Run`: blocks of `max(65536, getStreamMTU)` elements of the format. -/
def SoapySampleSource.run (format : SampleFormat) (mtu : Nat) (overflow : Int)
    (reads : List StreamRead) : List SourceEvent :=
  SoapySampleSource.runLoop format.bytesPerSample (max 65536 mtu) overflow [] reads

/-- A read that ends `Run`: an error other than `SOAPY_SDR_OVERFLOW`. -/
def StreamRead.fatal (overflow : Int) (read : StreamRead) : Bool :=
  decide (read.elementsRead < 0 ∧ read.elementsRead ≠ overflow)

/-- What `Run` is to dispatch, read by read: up to the first read that ends it, the bytes of
each read that returned elements, stamped with the clock at the end of the read, in
milliseconds, less the time of `elements` samples; then the error of the read that ends it. -/
def SoapySampleSource.runSpec (elements : Nat) (overflow : Int) (reads : List StreamRead) :
    List SourceEvent :=
  ((reads.takeWhile fun r => !r.fatal overflow).filter fun r => decide (0 < r.elementsRead)).map
      (fun r => .buffer (UInt64.ofNat (r.now.toNat / 1000000 - 1000 * elements / 2083333))
        r.written) ++
    ((reads.dropWhile fun r => !r.fatal overflow).head?.map fun r => .error r.elementsRead).toList

section Run

variable {bytesPerElement elements : Nat}

/-- The block after a read of `n` elements that wrote them all is exactly those bytes: nothing of
an earlier read is left in it. -/
theorem runLoop_block {block written : Bytes} {n : Nat}
    (hlen : written.length = n * bytesPerElement) (hn : n ≤ elements)
    (hsize : elements * bytesPerElement < 2 ^ 32) :
    vectorResize (copyInto (vectorResize block (elements * bytesPerElement) 0) 0 written)
      (n * bytesPerElement % 2 ^ 32) 0 = written := by
  have hfit : n * bytesPerElement < 2 ^ 32 :=
    lt_of_le_of_lt (Nat.mul_le_mul_right bytesPerElement hn) hsize
  rw [Nat.mod_eq_of_lt hfit, copyInto_zero, ← hlen, vectorResize, List.take_left]
  simp

theorem blockTimestamp_toNat {now : UInt64} (helements : 1000 * elements < 2 ^ 64)
    (hnow : 1000 * elements / 2083333 * 1000000 ≤ now.toNat) :
    (blockTimestamp (UInt64.ofNat elements) now).toNat =
      now.toNat / 1000000 - 1000 * elements / 2083333 := by
  have he : (UInt64.ofNat elements).toNat = elements :=
    UInt64.toNat_ofNat_of_lt (by unfold UInt64.size; omega)
  have hoff : (1000 * UInt64.ofNat elements / 2083333 * 1000000).toNat =
      1000 * elements / 2083333 * 1000000 := by
    rw [UInt64.toNat_mul, UInt64.toNat_div, UInt64.toNat_mul, he]
    show (1000 * elements % 2 ^ 64 / 2083333 * 1000000) % 2 ^ 64 = _
    rw [Nat.mod_eq_of_lt helements]
    exact Nat.mod_eq_of_lt (by omega)
  have hlt : now.toNat < 2 ^ 64 := now.toNat_lt_size
  have hwrap : (2 ^ 64 - 1000 * elements / 2083333 * 1000000 + now.toNat) % 2 ^ 64 =
      now.toNat - 1000000 * (1000 * elements / 2083333) := by
    rw [show 2 ^ 64 - 1000 * elements / 2083333 * 1000000 + now.toNat =
      now.toNat - 1000000 * (1000 * elements / 2083333) + 2 ^ 64 by omega,
      Nat.add_mod_right, Nat.mod_eq_of_lt (by omega)]
  rw [blockTimestamp, UInt64.toNat_div, uint64_toNat_sub, hoff]
  show (2 ^ 64 - 1000 * elements / 2083333 * 1000000 + now.toNat) % 2 ^ 64 / 1000000 = _
  rw [hwrap]
  exact Nat.sub_mul_div _ _ _ (by omega)

/-- The timestamp of a block: the clock at the end of the read, in milliseconds, less the time
of a full block, however many elements the read returned. -/
theorem blockTimestamp_eq {now : UInt64} (helements : 1000 * elements < 2 ^ 64)
    (hnow : 1000 * elements / 2083333 * 1000000 ≤ now.toNat) :
    blockTimestamp (UInt64.ofNat elements) now =
      UInt64.ofNat (now.toNat / 1000000 - 1000 * elements / 2083333) := by
  have hlt : now.toNat < 2 ^ 64 := now.toNat_lt_size
  apply UInt64.toNat.inj
  rw [blockTimestamp_toNat helements hnow, UInt64.toNat_ofNat_of_lt (by unfold UInt64.size; omega)]

theorem runLoop_eq (overflow : Int) (block : Bytes) (reads : List StreamRead)
    (hbytes : 0 < bytesPerElement) (hsize : elements * bytesPerElement < 2 ^ 32)
    (hdevice : ∀ read ∈ reads, 0 < read.elementsRead → read.elementsRead.toNat ≤ elements ∧
      read.written.length = read.elementsRead.toNat * bytesPerElement)
    (hclock : ∀ read ∈ reads, 1000 * elements / 2083333 * 1000000 ≤ read.now.toNat) :
    SoapySampleSource.runLoop bytesPerElement elements overflow block reads =
      SoapySampleSource.runSpec elements overflow reads := by
  have helements : 1000 * elements < 2 ^ 64 := by
    have := Nat.le_mul_of_pos_right elements hbytes
    omega
  induction reads generalizing block with
  | nil => rfl
  | cons read reads ih =>
    have ih := fun block => ih block (fun r hr => hdevice r (List.mem_cons_of_mem _ hr))
      (fun r hr => hclock r (List.mem_cons_of_mem _ hr))
    by_cases hfatal : read.elementsRead < 0 ∧ read.elementsRead ≠ overflow
    · have hf : read.fatal overflow = true := decide_eq_true hfatal
      rw [SoapySampleSource.runLoop, if_pos hfatal]
      simp [SoapySampleSource.runSpec, hf]
    · have hf : read.fatal overflow = false := decide_eq_false hfatal
      by_cases hempty : read.elementsRead ≤ 0
      · rw [SoapySampleSource.runLoop, if_neg hfatal, if_pos hempty, ih]
        simp [SoapySampleSource.runSpec, hf, not_lt.mpr hempty]
      · have hpos : 0 < read.elementsRead := not_le.mp hempty
        obtain ⟨hn, hlen⟩ := hdevice read (List.mem_cons_self _ _) hpos
        rw [SoapySampleSource.runLoop, if_neg hfatal, if_neg hempty]
        dsimp only
        rw [ih, runLoop_block hlen hn hsize,
          blockTimestamp_eq helements (hclock read (List.mem_cons_self _ _))]
        simp [SoapySampleSource.runSpec, hf, hpos]

end Run

/-- **What `Run` dispatches.** For a format `Init` can leave, a block under 4 GiB, a device that
returns at most the elements asked for and writes every element it reports, and a clock past
the time of one block: `Run` dispatches, in order, the bytes of each read that returned
elements, up to the first error other than `SOAPY_SDR_OVERFLOW`, which it dispatches once and
stops at. Overflows and empty reads dispatch nothing, and no byte of an earlier read reaches a
later block through the reused buffer. Each block is stamped with the clock at the end of its
read less the time of a full block of `max(65536, MTU)` elements, whatever number the read
returned. -/
theorem SoapySampleSource.run_dispatch (format : SampleFormat) (mtu : Nat) (overflow : Int)
    (reads : List StreamRead) (hformat : format ≠ .unknown)
    (hsize : max 65536 mtu * format.bytesPerSample < 2 ^ 32)
    (hdevice : ∀ read ∈ reads, 0 < read.elementsRead →
      read.elementsRead.toNat ≤ max 65536 mtu ∧
        read.written.length = read.elementsRead.toNat * format.bytesPerSample)
    (hclock : ∀ read ∈ reads, 1000 * max 65536 mtu / 2083333 * 1000000 ≤ read.now.toNat) :
    SoapySampleSource.run format mtu overflow reads =
      SoapySampleSource.runSpec (max 65536 mtu) overflow reads :=
  runLoop_eq overflow [] reads (SampleFormat.bytesPerSample_pos hformat) hsize hdevice hclock

/-- A CU8 stream: an overflow, a read of two samples, an empty read, a read of one sample, and
a timeout (`SOAPY_SDR_TIMEOUT`, `-1`) that ends the loop before the last read. The two blocks
are stamped 31 ms before their reads ended. -/
theorem SoapySampleSource.run_dispatch_timeout :
    let reads : List StreamRead :=
      [⟨-4, [], 1000000000000⟩, ⟨2, [1, 2, 3, 4], 1000002000000⟩, ⟨0, [], 1000004000000⟩,
        ⟨1, [5, 6], 1000006000000⟩, ⟨-1, [], 1000008000000⟩, ⟨1, [7, 8], 1000010000000⟩]
    (SampleFormat.cu8 ≠ .unknown ∧ max 65536 0 * SampleFormat.cu8.bytesPerSample < 2 ^ 32 ∧
      (∀ read ∈ reads, 0 < read.elementsRead →
        read.elementsRead.toNat ≤ max 65536 0 ∧
          read.written.length = read.elementsRead.toNat * SampleFormat.cu8.bytesPerSample) ∧
      ∀ read ∈ reads, 1000 * max 65536 0 / 2083333 * 1000000 ≤ read.now.toNat) ∧
    SoapySampleSource.run .cu8 0 (-4) reads =
      [.buffer 999971 [1, 2, 3, 4], .buffer 999975 [5, 6], .error (-1)] := by
  intro reads
  have hformat : SampleFormat.cu8 ≠ .unknown := by decide
  have hsize : max 65536 0 * SampleFormat.cu8.bytesPerSample < 2 ^ 32 := by decide
  have hdevice : ∀ read ∈ reads, 0 < read.elementsRead →
      read.elementsRead.toNat ≤ max 65536 0 ∧
        read.written.length = read.elementsRead.toNat * SampleFormat.cu8.bytesPerSample := by
    decide
  have hclock : ∀ read ∈ reads, 1000 * max 65536 0 / 2083333 * 1000000 ≤ read.now.toNat := by
    decide
  refine ⟨⟨hformat, hsize, hdevice, hclock⟩, ?_⟩
  rw [SoapySampleSource.run_dispatch .cu8 0 (-4) reads hformat hsize hdevice hclock]
  rfl

end Dump978
