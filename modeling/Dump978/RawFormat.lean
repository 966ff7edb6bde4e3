import Mathlib.Data.Nat.Digits
import Dump978.RawMessage

namespace Dump978

/-!
# The raw text format — `operator<<(std::ostream &, const RawMessage &)` and
`RawInput::ParseLine` (`uat_message.cc`, `socket_input.cc`)

A frame is written as one line: `-` (downlink) or `+` (uplink), the payload as two lowercase
hex digits per byte, `;`, then the optional fields `rs=<errors>;`, `rssi=<rssi>;`,
`t=<seconds>.<milliseconds>;` and `rt=<raw timestamp>;`, each present only when nonzero.
`ParseLine` reads such a line back; a line starting with `!` is metadata.

A line is a list of characters, one per byte of the `std::string`. The two loops over
`key=value;` pairs (`ParseLine` and `ParseMetadataLine`) are the same code, and are one
definition here, `keyValuePairs`, which lists the pairs in order; each caller folds its own
assignment over them.

The floating-point text conversions (`std::fixed` with one decimal, `std::stod`) cannot be
evaluated by the kernel, so they are a parameter, `FloatText`. The integer conversions
`std::stoi` and `std::stoll` are modelled as the standard defines them (`strtol` with base 10,
then the range of `int` or `long long`), since what they throw decides the fields.
-/

/-! ### Standard conversions -/

/-- `std::isspace` in the C locale. -/
def isSpace (c : Char) : Bool :=
  c = ' ' || c = '\t' || c = '\n' || c = Char.ofNat 11 || c = Char.ofNat 12 || c = '\r'

/-- The value of a run of decimal digits. -/
def digitsValue (digits : List Char) : Nat :=
  digits.foldl (fun acc c => acc * 10 + (c.toNat - '0'.toNat)) 0

/-- The optional sign of `strtol`: whether it is `-`, and the text after it. -/
def signPrefix : List Char → Bool × List Char
  | '-' :: rest => (true, rest)
  | '+' :: rest => (false, rest)
  | s => (false, s)

/-- `std::stoi` / `std::stoll` with base 10: leading white space, an optional sign, the
longest run of digits; `invalid_argument` without a digit, `out_of_range` outside
`[lo, hi]`. -/
def stoInteger (lo hi : Int) (name : String) (s : List Char) : Except StdException Int :=
  let (negative, s) := signPrefix (s.dropWhile isSpace)
  let digits := s.takeWhile Char.isDigit
  if digits.isEmpty then throw (.invalidArgument name)
  else
    let v : Int := if negative then -(digitsValue digits : Int) else digitsValue digits
    if v < lo ∨ hi < v then throw (.outOfRange name) else pure v

/-- `std::stoi(value, nullptr, 10)`. -/
def stoi : List Char → Except StdException Int := stoInteger (-2 ^ 31) (2 ^ 31 - 1) "stoi"

/-- `std::stoll(value, nullptr, 10)`. -/
def stoll : List Char → Except StdException Int := stoInteger (-2 ^ 63) (2 ^ 63 - 1) "stoll"

/-- `os << std::dec << n`. -/
def decimal (n : Nat) : List Char :=
  if n = 0 then ['0'] else (Nat.digits 10 n).reverse.map Nat.digitChar

/-- `std::setfill('0') << std::setw(width)`: pad on the left to `width`. -/
def padLeft (width : Nat) (digits : List Char) : List Char :=
  List.replicate (width - digits.length) '0' ++ digits

/-- `os << std::hex << std::setw(2) << (int)b` with fill `'0'`. -/
def hexByte (b : UInt8) : List Char :=
  [Nat.digitChar (b.toNat / 16), Nat.digitChar (b.toNat % 16)]

/-- The floating-point conversions of the format: `os << std::setprecision(1) << std::fixed
<< x` and `std::stod`. -/
structure FloatText where
  fixed1 : Float → List Char
  stod : List Char → Except StdException Float

/-! ### Writing -/

/-- The optional fields `operator<<` writes, as `(key, value)` pairs in order: each only
when nonzero. -/
def RawMessage.fields (ft : FloatText) (m : RawMessage) : List (List Char × List Char) :=
  (if m.errors > 0 then [("rs".toList, decimal m.errors.toNat)] else []) ++
    (if m.rssi != 0 then [("rssi".toList, ft.fixed1 m.rssi)] else []) ++
    (if m.receivedAt ≠ 0 then
      [("t".toList, decimal (m.receivedAt.toNat / 1000) ++
        '.' :: padLeft 3 (decimal (m.receivedAt.toNat % 1000)))]
    else []) ++
    (if m.rawTimestamp ≠ 0 then [("rt".toList, decimal m.rawTimestamp.toNat)] else [])

/-- One field as written, `key=value;`. -/
def fieldText (kv : List Char × List Char) : List Char := kv.1 ++ '=' :: kv.2 ++ [';']

/-- `operator<<(os, message)`: the text of the line, or the `logic_error` it throws for a
message that is not a frame. -/
def RawMessage.format (ft : FloatText) (m : RawMessage) : Except StdException (List Char) := do
  let sign ← match m.type with
    | .downlinkShort | .downlinkLong => pure '-'
    | .uplink => pure '+'
    | _ => throw (.logicError "unexpected message type")
  pure (sign :: m.payload.flatMap hexByte ++ ';' :: (m.fields ft).flatMap fieldText)

/-! ### Reading -/

/-- `hexvalue(c)`: the digit's value, `-1` for any other character. -/
def hexvalue (c : Char) : Int :=
  match c with
  | '0' => 0 | '1' => 1 | '2' => 2 | '3' => 3 | '4' => 4
  | '5' => 5 | '6' => 6 | '7' => 7 | '8' => 8 | '9' => 9
  | 'a' | 'A' => 10 | 'b' | 'B' => 11 | 'c' | 'C' => 12
  | 'd' | 'D' => 13 | 'e' | 'E' => 14 | 'f' | 'F' => 15
  | _ => -1

/-- The hex loop of `ParseLine` over the characters before `eod`, two at a time. -/
def parseHex : List Char → Option Bytes
  | c1 :: c2 :: rest =>
    let h1 := hexvalue c1
    let h2 := hexvalue c2
    if h1 < 0 ∨ h2 < 0 then none
    else (parseHex rest).map (UInt8.ofNat (h1.toNat * 16 + h2.toNat) :: ·)
  | _ => some []

/-- The `key=value;` loop shared by `ParseLine` and `ParseMetadataLine`, on the rest of the
line from `i`: stop unless an `=` comes before the first `;`, else take the pair and go on
after that `;`. -/
def keyValuePairs (rest : List Char) : List (List Char × List Char) :=
  match hEquals : rest.indexOf? '=', hSemicolon : rest.indexOf? ';' with
  | some equals, some semicolon =>
    if semicolon < equals then []
    else (rest.take equals, (rest.drop (equals + 1)).take (semicolon - equals - 1)) ::
      keyValuePairs (rest.drop (semicolon + 1))
  | _, _ => []
termination_by rest.length
decreasing_by
  obtain ⟨h, -⟩ := List.findIdx?_eq_some_iff_getElem.mp hSemicolon
  simp only [List.length_drop]
  omega

/-- `ParseMetadataLine(line)`: every pair after the `!`, later keys overwriting earlier
ones (`metadata[key] = value`). -/
def parseMetadataLine (line : List Char) : RawMessage :=
  RawMessage.ofMetadata <| (keyValuePairs (line.drop 1)).foldl
    (fun metadata kv => mapAssign metadata (String.mk kv.1) (String.mk kv.2)) []

/-- The locals `rs`, `rssi`, `t` and `rt` of `ParseLine`. -/
structure LineFields where
  rs : UInt32
  rssi : Float
  t : UInt64
  rt : UInt64

/-- Their initial values. -/
def LineFields.zero : LineFields := ⟨0, 0, 0, 0⟩

/-- One pass of the pair loop: the field the key names, from its value, or `0` when the
conversion throws; other keys are ignored. -/
def LineFields.set (ft : FloatText) (f : LineFields) (kv : List Char × List Char) : LineFields :=
  if kv.1 = "rs".toList then
    { f with rs := match stoi kv.2 with
      | .ok v => UInt32.ofNat (wrapUnsigned 32 v)
      | .error _ => 0 }
  else if kv.1 = "rssi".toList then
    { f with rssi := match ft.stod kv.2 with
      | .ok d => d
      | .error _ => 0 }
  else if kv.1 = "t".toList then
    { f with t := match ft.stod kv.2 with
      | .ok d => (d * 1000).toUInt64
      | .error _ => 0 }
  else if kv.1 = "rt".toList then
    { f with rt := match stoll kv.2 with
      | .ok v => UInt64.ofNat (wrapUnsigned 64 v)
      | .error _ => 0 }
  else f

/-- `RawInput::ParseLine(line)`. -/
def parseLine (ft : FloatText) (line : List Char) : Option RawMessage :=
  if line.length < 2 then none
  else match line with
    | '!' :: _ => some (parseMetadataLine line)
    | c :: rest =>
      if c ≠ '-' ∧ c ≠ '+' then none
      else match rest.indexOf? ';' with
        | none => none
        | some hexlength =>
          if hexlength % 2 ≠ 0 then none
          else match parseHex (rest.take hexlength) with
            | none => none
            | some payload =>
              let f := (keyValuePairs (rest.drop (hexlength + 1))).foldl (LineFields.set ft)
                LineFields.zero
              some (RawMessage.ofPayload payload f.t f.rs f.rssi f.rt)
    | [] => none

/-! ### Digits read back -/

theorem hexvalue_digitChar : ∀ d < 16, hexvalue (Nat.digitChar d) = d := by decide

theorem digitChar_ne_semicolon : ∀ d < 16, Nat.digitChar d ≠ ';' := by decide

theorem digitChar_decimal : ∀ d < 10,
    (Nat.digitChar d).isDigit ∧ (Nat.digitChar d).toNat - '0'.toNat = d := by decide

theorem parseHex_flatMap_hexByte (bytes : Bytes) : parseHex (bytes.flatMap hexByte) = some bytes := by
  induction bytes with
  | nil => rfl
  | cons b bs ih =>
    have hb : b.toNat < 256 := b.toNat_lt_size
    have hhigh := hexvalue_digitChar (b.toNat / 16) (by omega)
    have hlow := hexvalue_digitChar (b.toNat % 16) (by omega)
    have hbyte : UInt8.ofNat (b.toNat / 16 * 16 + b.toNat % 16) = b := by
      rw [show b.toNat / 16 * 16 + b.toNat % 16 = b.toNat by omega]
      exact UInt8.toNat.inj (UInt8.toNat_ofNat_of_lt b.toNat_lt_size)
    show parseHex (Nat.digitChar _ :: Nat.digitChar _ :: bs.flatMap hexByte) = _
    simp only [parseHex, hhigh, hlow, ih, Int.toNat_ofNat, hbyte]
    simp
    omega

theorem semicolon_not_mem_hex (bytes : Bytes) : ';' ∉ bytes.flatMap hexByte := by
  simp only [List.mem_flatMap, hexByte, List.mem_cons, List.not_mem_nil, or_false, not_exists,
    not_and]
  intro b _ h
  have hb : b.toNat < 256 := b.toNat_lt_size
  rcases h with h | h <;> exact digitChar_ne_semicolon _ (by omega) h.symm

theorem length_flatMap_hexByte (bytes : Bytes) :
    (bytes.flatMap hexByte).length = 2 * bytes.length := by
  induction bytes with
  | nil => rfl
  | cons b bs ih =>
    show (Nat.digitChar _ :: Nat.digitChar _ :: bs.flatMap hexByte).length = _
    simp only [List.length_cons, ih]
    omega

/-! ### Finding the separators -/

/-- The first `c` of `l ++ c :: rest` is at `l.length` when `l` has none. -/
theorem indexOf?_append_cons {c : Char} {l : List Char} (h : c ∉ l) (rest : List Char) :
    (l ++ c :: rest).indexOf? c = some l.length := by
  have hnone : l.findIdx? (· == c) = none :=
    List.findIdx?_eq_none_iff.mpr fun x hx => beq_eq_false_iff_ne.mpr fun hxc => h (hxc ▸ hx)
  simp [List.indexOf?, List.findIdx?_append, hnone]

theorem keyValuePairs_nil : keyValuePairs [] = [] := by
  rw [keyValuePairs]
  rfl

/-- A pair the loop reads back as written: no `=` or `;` in the key, no `;` in the value. -/
def Readable (kv : List Char × List Char) : Prop := '=' ∉ kv.1 ∧ ';' ∉ kv.1 ∧ ';' ∉ kv.2

/-- **One written field is one pair of the loop**, and the loop goes on after its `;`. -/
theorem keyValuePairs_fieldText {kv : List Char × List Char} (h : Readable kv) (rest : List Char) :
    keyValuePairs (fieldText kv ++ rest) = kv :: keyValuePairs rest := by
  obtain ⟨key, value⟩ := kv
  obtain ⟨hEq, hSemiKey, hSemiValue⟩ := h
  have hline : fieldText (key, value) ++ rest = key ++ '=' :: (value ++ ';' :: rest) := by
    simp [fieldText]
  have hequals : (fieldText (key, value) ++ rest).indexOf? '=' = some key.length := by
    rw [hline, indexOf?_append_cons hEq]
  have hsemicolon : (fieldText (key, value) ++ rest).indexOf? ';' =
      some (key.length + 1 + value.length) := by
    have : fieldText (key, value) ++ rest = (key ++ '=' :: value) ++ ';' :: rest := by
      simp [fieldText]
    rw [this, indexOf?_append_cons (by simp [hSemiKey, hSemiValue])]
    simp
    omega
  rw [keyValuePairs]
  split
  · next equals semicolon he hs =>
    rw [hequals, Option.some.injEq] at he
    rw [hsemicolon, Option.some.injEq] at hs
    subst he hs
    have hrest : List.drop (key.length + 1 + value.length + 1)
        (key ++ '=' :: (value ++ ';' :: rest)) = rest := by
      rw [show key.length + 1 + value.length + 1 = key.length + (value.length + 1 + 1) by omega,
        List.drop_append, List.drop_succ_cons, List.drop_append, List.drop_succ_cons, List.drop_zero]
    rw [if_neg (by omega), hline, hrest, show key.length + 1 + value.length - key.length - 1 =
      value.length by omega]
    simp [List.take_left, List.drop_append]
  · next hne => exact (hne _ _ hequals hsemicolon).elim

theorem keyValuePairs_flatMap {pairs : List (List Char × List Char)}
    (h : ∀ kv ∈ pairs, Readable kv) : keyValuePairs (pairs.flatMap fieldText) = pairs := by
  induction pairs with
  | nil => exact keyValuePairs_nil
  | cons kv pairs ih =>
    rw [List.flatMap_cons, keyValuePairs_fieldText (h kv (List.mem_cons_self _ _)),
      ih fun x hx => h x (List.mem_cons_of_mem _ hx)]

/-! ### Decimal numbers read back -/

theorem digitChar_plain : ∀ d < 10, (Nat.digitChar d).isDigit ∧ isSpace (Nat.digitChar d) = false ∧
    Nat.digitChar d ≠ '-' ∧ Nat.digitChar d ≠ '+' ∧ Nat.digitChar d ≠ ';' := by decide

theorem mem_decimal {n : Nat} {c : Char} (h : c ∈ decimal n) : ∃ d < 10, c = Nat.digitChar d := by
  unfold decimal at h
  split_ifs at h
  · exact ⟨0, by decide, by simpa using h⟩
  · obtain ⟨d, hd, rfl⟩ := List.mem_map.mp h
    exact ⟨d, Nat.digits_lt_base (by decide) (List.mem_reverse.mp hd), rfl⟩

theorem foldr_digitChar {L : List Nat} (h : ∀ d ∈ L, d < 10) :
    L.foldr (fun d acc => acc * 10 + ((Nat.digitChar d).toNat - '0'.toNat)) 0 =
      Nat.ofDigits 10 L := by
  induction L with
  | nil => rfl
  | cons d L ih =>
    rw [List.foldr_cons, ih fun x hx => h x (List.mem_cons_of_mem _ hx), Nat.ofDigits_cons,
      (digitChar_decimal d (h d (List.mem_cons_self _ _))).2]
    omega

theorem digitsValue_decimal (n : Nat) : digitsValue (decimal n) = n := by
  unfold decimal
  split_ifs with h0
  · subst h0
    rfl
  · rw [digitsValue, List.map_reverse, List.foldl_reverse, List.foldr_map,
      foldr_digitChar fun d hd => Nat.digits_lt_base (by decide) hd, Nat.ofDigits_digits]

theorem decimal_ne_nil (n : Nat) : decimal n ≠ [] := by
  unfold decimal
  split_ifs with h0
  · simp
  · simpa using Nat.digits_ne_nil_iff_ne_zero.mpr h0

/-- `std::stoi` and `std::stoll` read a number written by `operator<<` as its value, or throw
`out_of_range` when it does not fit. -/
theorem stoInteger_decimal (lo hi : Int) (name : String) (n : Nat) :
    stoInteger lo hi name (decimal n) =
      if (n : Int) < lo ∨ hi < n then throw (.outOfRange name) else pure (n : Int) := by
  have hplain : ∀ c ∈ decimal n, c.isDigit ∧ isSpace c = false ∧ c ≠ '-' ∧ c ≠ '+' := by
    intro c hc
    obtain ⟨d, hd, rfl⟩ := mem_decimal hc
    exact (digitChar_plain d hd).imp_right fun h => ⟨h.1, h.2.1, h.2.2.1⟩
  have hdigits : (decimal n).takeWhile Char.isDigit = decimal n :=
    List.takeWhile_eq_self_iff.mpr fun c hc => (hplain c hc).1
  obtain ⟨c, cs, hcs⟩ := List.exists_cons_of_ne_nil (decimal_ne_nil n)
  obtain ⟨-, hspace, hminus, hplus⟩ := hplain c (hcs ▸ List.mem_cons_self _ _)
  have hsign : signPrefix (c :: cs) = (false, c :: cs) := by
    unfold signPrefix
    split <;> simp_all
  have hne : (decimal n).isEmpty = false := by simp [decimal_ne_nil]
  rw [stoInteger, hcs, List.dropWhile_cons_of_neg (by simp [hspace]), hsign]
  dsimp only
  rw [← hcs, hdigits, hne, if_neg Bool.false_ne_true, if_neg Bool.false_ne_true, digitsValue_decimal]

/-! ### Reading a written line -/

/-- The fields `ParseLine` collects from the pairs after the payload. -/
def lineFields (ft : FloatText) (rest : List Char) : LineFields :=
  (keyValuePairs rest).foldl (LineFields.set ft) LineFields.zero

/-- **`ParseLine` on a frame line**: a sign, any whole number of hex bytes and `;` give a
message of that payload, whatever its size, with the fields read from the rest. -/
theorem parseLine_frame (ft : FloatText) {sign : Char} (hsign : sign = '-' ∨ sign = '+')
    (payload : Bytes) (rest : List Char) :
    parseLine ft (sign :: payload.flatMap hexByte ++ ';' :: rest) =
      some (RawMessage.ofPayload payload (lineFields ft rest).t (lineFields ft rest).rs
        (lineFields ft rest).rssi (lineFields ft rest).rt) := by
  have hsemi : (payload.flatMap hexByte ++ ';' :: rest).indexOf? ';' =
      some (2 * payload.length) := by
    rw [indexOf?_append_cons (semicolon_not_mem_hex payload), length_flatMap_hexByte]
  have htake : (payload.flatMap hexByte ++ ';' :: rest).take (2 * payload.length) =
      payload.flatMap hexByte := List.take_left' (length_flatMap_hexByte payload)
  have hdrop : (payload.flatMap hexByte ++ ';' :: rest).drop (2 * payload.length + 1) = rest := by
    rw [← length_flatMap_hexByte, List.drop_append_eq_append_drop]
    simp
  rw [parseLine.eq_def, if_neg (by simp; omega)]
  have hframe : ¬(sign ≠ '-' ∧ sign ≠ '+') := by rcases hsign with rfl | rfl <;> decide
  split
  · next h => exact absurd (List.cons.inj h).1 (by rcases hsign with rfl | rfl <;> decide)
  · next h =>
    obtain ⟨rfl, rfl⟩ := List.cons.inj h
    rw [if_neg hframe, List.append_eq, hsemi]
    dsimp only
    rw [if_neg (by omega), htake, parseHex_flatMap_hexByte, hdrop]
    rfl
  · next h => exact absurd h (List.cons_ne_nil _ _)

/-- `ParseLine` returns a message of any whole number of payload bytes; one whose size is
none of the three frame sizes is of type `INVALID`, and `operator<<` throws for it. -/
theorem parseLine_invalid_payload (ft : FloatText) {sign : Char} (hsign : sign = '-' ∨ sign = '+')
    (payload : Bytes) (hsize : messageTypeOfSize payload.length = .invalid) (rest : List Char) :
    ∃ m, parseLine ft (sign :: payload.flatMap hexByte ++ ';' :: rest) = some m ∧
      m.payload = payload ∧ m.type = .invalid ∧
      m.format ft = .error (.logicError "unexpected message type") := by
  refine ⟨_, parseLine_frame ft hsign payload rest, rfl, hsize, ?_⟩
  rw [RawMessage.format, ofPayload_type, hsize]
  rfl

/-- The line `-;`: an empty payload is read as an `INVALID` message. -/
theorem parseLine_invalid_payload_empty :
    ('-' = '-' ∨ '-' = '+') ∧ messageTypeOfSize ([] : Bytes).length = .invalid ∧
      ∃ m, parseLine ⟨fun _ => [], fun _ => .ok 0⟩ ('-' :: ([] : Bytes).flatMap hexByte ++ ';' :: []) = some m ∧
        m.payload = [] ∧ m.type = .invalid ∧
        m.format ⟨fun _ => [], fun _ => .ok 0⟩ = .error (.logicError "unexpected message type") :=
  ⟨Or.inl rfl, by decide, parseLine_invalid_payload _ (Or.inl rfl) [] (by decide) []⟩

/-! ### Which fields come back -/

section Fields

variable (ft : FloatText)

theorem set_rs_of_ne {kv : List Char × List Char} (h : kv.1 ≠ "rs".toList) (f : LineFields) :
    (f.set ft kv).rs = f.rs := by
  rw [LineFields.set, if_neg h]
  split_ifs <;> rfl

theorem set_rt_of_ne {kv : List Char × List Char} (h : kv.1 ≠ "rt".toList) (f : LineFields) :
    (f.set ft kv).rt = f.rt := by
  unfold LineFields.set
  split_ifs <;> rfl

theorem foldl_set_rs {pairs : List (List Char × List Char)} (h : ∀ kv ∈ pairs, kv.1 ≠ "rs".toList)
    (f : LineFields) : (pairs.foldl (LineFields.set ft) f).rs = f.rs := by
  induction pairs generalizing f with
  | nil => rfl
  | cons kv pairs ih =>
    rw [List.foldl_cons, ih fun x hx => h x (List.mem_cons_of_mem _ hx),
      set_rs_of_ne ft (h kv (List.mem_cons_self _ _))]

theorem foldl_set_rt {pairs : List (List Char × List Char)} (h : ∀ kv ∈ pairs, kv.1 ≠ "rt".toList)
    (f : LineFields) : (pairs.foldl (LineFields.set ft) f).rt = f.rt := by
  induction pairs generalizing f with
  | nil => rfl
  | cons kv pairs ih =>
    rw [List.foldl_cons, ih fun x hx => h x (List.mem_cons_of_mem _ hx),
      set_rt_of_ne ft (h kv (List.mem_cons_self _ _))]

theorem set_rs_decimal (f : LineFields) (n : Nat) :
    (f.set ft ("rs".toList, decimal n)).rs = if n < 2 ^ 31 then UInt32.ofNat n else 0 := by
  simp only [LineFields.set, if_pos, stoi, stoInteger_decimal]
  split_ifs with hrange hfits hfits
  · omega
  · rfl
  · show UInt32.ofNat (wrapUnsigned 32 n) = _
    rw [wrapUnsigned, Int.emod_eq_of_lt (by omega) (by omega), Int.toNat_ofNat]
  · omega

theorem set_rt_decimal (f : LineFields) (n : Nat) :
    (f.set ft ("rt".toList, decimal n)).rt = if n < 2 ^ 63 then UInt64.ofNat n else 0 := by
  have hkey : "rt".toList ≠ "rs".toList ∧ "rt".toList ≠ "rssi".toList ∧ "rt".toList ≠ "t".toList := by
    decide
  rw [LineFields.set, if_neg hkey.1, if_neg hkey.2.1, if_neg hkey.2.2, if_pos rfl]
  simp only [stoll, stoInteger_decimal]
  split_ifs with hrange hfits hfits
  · omega
  · rfl
  · show UInt64.ofNat (wrapUnsigned 64 n) = _
    rw [wrapUnsigned, Int.emod_eq_of_lt (by omega) (by omega), Int.toNat_ofNat]
  · omega

theorem not_mem_decimal {c : Char} (hc : ∀ d < 10, Nat.digitChar d ≠ c) (n : Nat) : c ∉ decimal n := by
  intro h
  obtain ⟨d, hd, rfl⟩ := mem_decimal h
  exact hc d hd rfl

variable {ft} (hft : ∀ x, ';' ∉ ft.fixed1 x)
include hft

theorem readable_fields (m : RawMessage) : ∀ kv ∈ m.fields ft, Readable kv := by
  have hdec := not_mem_decimal fun d hd => (digitChar_plain d hd).2.2.2.2
  intro kv hkv
  simp only [RawMessage.fields, List.mem_append] at hkv
  rcases hkv with ((h | h) | h) | h <;> split_ifs at h <;> simp at h <;> subst h <;>
    refine ⟨by simp, by simp, ?_⟩
  · exact hdec _
  · exact hft _
  · simp [padLeft, hdec]
  · exact hdec _

theorem lineFields_fields (m : RawMessage) :
    lineFields ft ((m.fields ft).flatMap fieldText) = (m.fields ft).foldl (LineFields.set ft) .zero := by
  rw [lineFields, keyValuePairs_flatMap (readable_fields hft m)]

/-- `rs` as `ParseLine` reads back what `operator<<` wrote: `stoi` keeps the count only
while it fits an `int`. -/
theorem lineFields_fields_rs (m : RawMessage) :
    (lineFields ft ((m.fields ft).flatMap fieldText)).rs =
      if m.errors.toNat < 2 ^ 31 then m.errors else 0 := by
  rw [lineFields_fields hft, RawMessage.fields, List.append_assoc, List.append_assoc,
    List.foldl_append, foldl_set_rs ft]
  · split_ifs with hpos hfits hfits
    · rw [List.foldl_cons, List.foldl_nil, set_rs_decimal, if_pos hfits]
      exact UInt32.toNat.inj (UInt32.toNat_ofNat_of_lt m.errors.toNat_lt_size)
    · rw [List.foldl_cons, List.foldl_nil, set_rs_decimal, if_neg hfits]
    · have : m.errors.toNat = (0 : UInt32).toNat := by simpa [UInt32.lt_def, BitVec.lt_def] using hpos
      exact (UInt32.toNat.inj this).symm
    · rfl
  · intro kv hkv
    simp only [List.mem_append] at hkv
    rcases hkv with h | h | h <;> split_ifs at h <;> simp at h <;> simp [h]

/-- `rt` as `ParseLine` reads back what `operator<<` wrote: `stoll` keeps the timestamp only
while it fits a `long long`. -/
theorem lineFields_fields_rt (m : RawMessage) :
    (lineFields ft ((m.fields ft).flatMap fieldText)).rt =
      if m.rawTimestamp.toNat < 2 ^ 63 then m.rawTimestamp else 0 := by
  rw [lineFields_fields hft, RawMessage.fields, List.foldl_append]
  by_cases h0 : m.rawTimestamp = 0
  · rw [if_neg (not_not_intro h0), List.foldl_nil, foldl_set_rt ft, h0]
    · rfl
    · intro kv hkv
      simp only [List.mem_append] at hkv
      rcases hkv with (h | h) | h <;> split_ifs at h <;> simp at h <;> simp [h]
  · rw [if_pos h0, List.foldl_cons, List.foldl_nil, set_rt_decimal]
    split_ifs
    · exact UInt64.toNat.inj (UInt64.toNat_ofNat_of_lt m.rawTimestamp.toNat_lt_size)
    · rfl

end Fields

/-! ### The round trip -/

/-- `operator<<` on a frame: its sign, the payload in hex, `;`, then the fields. -/
theorem format_frame (ft : FloatText) {m : RawMessage}
    (hframe : m.type = .downlinkShort ∨ m.type = .downlinkLong ∨ m.type = .uplink) :
    ∃ sign, (sign = '-' ∨ sign = '+') ∧
      m.format ft = .ok (sign :: m.payload.flatMap hexByte ++ ';' :: (m.fields ft).flatMap fieldText) := by
  rcases hframe with h | h | h <;> simp only [RawMessage.format, h]
  · exact ⟨_, Or.inl rfl, rfl⟩
  · exact ⟨_, Or.inl rfl, rfl⟩
  · exact ⟨_, Or.inr rfl, rfl⟩

theorem messageTypeOfSize_frame {n : Nat} (h : messageTypeOfSize n ≠ .invalid) :
    messageTypeOfSize n = .downlinkShort ∨ messageTypeOfSize n = .downlinkLong ∨
      messageTypeOfSize n = .uplink := by
  unfold messageTypeOfSize at h ⊢
  split_ifs at h ⊢ <;> simp_all

/-- **A frame written and read back**: `ParseLine` returns a message of the same type and
payload; `rs` and `rt` come back only while `stoi` and `stoll` can hold them. -/
theorem parseLine_format {ft : FloatText} (hft : ∀ x, ';' ∉ ft.fixed1 x) (payload : Bytes)
    (hsize : messageTypeOfSize payload.length ≠ .invalid) (receivedAt : UInt64) (errors : UInt32)
    (rssi : Float) (rawTimestamp : UInt64) :
    ∃ line m', (RawMessage.ofPayload payload receivedAt errors rssi rawTimestamp).format ft = .ok line ∧
      parseLine ft line = some m' ∧ m'.type = messageTypeOfSize payload.length ∧
      m'.payload = payload ∧ m'.errors = (if errors.toNat < 2 ^ 31 then errors else 0) ∧
      m'.rawTimestamp = (if rawTimestamp.toNat < 2 ^ 63 then rawTimestamp else 0) := by
  obtain ⟨sign, hsign, hformat⟩ := format_frame ft (m := .ofPayload payload receivedAt errors rssi
    rawTimestamp) (messageTypeOfSize_frame hsize)
  exact ⟨_, _, hformat, parseLine_frame ft hsign payload _, rfl, rfl,
    lineFields_fields_rs hft _, lineFields_fields_rt hft _⟩

/-- An error count of `2^31` or more is written in full but read back as `0`: `stoi` throws
`out_of_range` and `ParseLine` keeps its default. -/
theorem parseLine_format_errors_lost {ft : FloatText} (hft : ∀ x, ';' ∉ ft.fixed1 x)
    (payload : Bytes) (hsize : messageTypeOfSize payload.length ≠ .invalid) (receivedAt : UInt64)
    (errors : UInt32) (herrors : 2 ^ 31 ≤ errors.toNat) (rssi : Float) (rawTimestamp : UInt64) :
    ∃ line m', (RawMessage.ofPayload payload receivedAt errors rssi rawTimestamp).format ft = .ok line ∧
      parseLine ft line = some m' ∧ m'.errors = 0 ∧ m'.errors ≠ errors := by
  obtain ⟨line, m', hformat, hparse, -, -, herr, -⟩ :=
    parseLine_format hft payload hsize receivedAt errors rssi rawTimestamp
  rw [if_neg (by omega)] at herr
  refine ⟨line, m', hformat, hparse, herr, fun h => ?_⟩
  have : errors.toNat = 0 := by rw [← h, herr]; rfl
  omega

/-- A short downlink frame with `rs=2147483648;`. -/
theorem parseLine_format_errors_lost_at_2pow31 :
    (∀ x, ';' ∉ (⟨fun _ => [], fun _ => .ok 0⟩ : FloatText).fixed1 x) ∧
      messageTypeOfSize (List.replicate 18 (0 : UInt8)).length ≠ .invalid ∧
      2 ^ 31 ≤ (2147483648 : UInt32).toNat ∧
      ∃ line m', (RawMessage.ofPayload (List.replicate 18 0) 0 2147483648 0 0).format
          ⟨fun _ => [], fun _ => .ok 0⟩ = .ok line ∧
        parseLine ⟨fun _ => [], fun _ => .ok 0⟩ line = some m' ∧ m'.errors = 0 ∧
        m'.errors ≠ 2147483648 :=
  ⟨fun _ => List.not_mem_nil _, by decide, by decide,
    parseLine_format_errors_lost (fun _ => List.not_mem_nil _) _ (by decide) 0 2147483648
      (by decide) 0 0⟩

end Dump978
