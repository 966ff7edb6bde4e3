import Dump978.Receiver

namespace Dump978

/-!
# Convert — the sample converters (`convert.cc`, `convert.h`)

Each converter turns a buffer of interleaved I/Q samples into one phase (`ConvertPhase`) and
one magnitude squared (`ConvertMagSq`) per sample. The eight loops have one shape: with
`n = len / BytesPerSample`, `n / 8` passes of eight hand-written lines, then `n & 7` passes of
one line, each loop counted by an `int`. That shape is `convertLoop`; each converter is
`convertLoop` applied to its own line, which reads the elements of `in_iq` that the source's
line reads.

The buffer is read through `reinterpret_cast`, modelled on a little-endian host (`wordAt`).
Floating-point values (`scaled_atan2`, `magsq`, the tables built from them) are Lean `Float`s,
which no proof evaluates.

`CS16HConverter::TableAtan2` computes `atan2` from a 65536-entry `atan` table indexed by
`256 * y / x`. `TableAtan` saturates only past `lookup_atan_.size()`, so index `65536` itself
is read, one past the table; `tableAtan2` is `none` there.

* `convertLoop_converts` — the unrolled loop computes the per-sample map (`perSampleMap`) on
  every buffer of at most `INT_MAX` passes, and is undefined (its counter overflows) past them;
* `converters_per_sample` — so output `k` of every converter is its line on sample `k`, with
  the I/Q elements in order;
* `ConvertsPerSample.refines_convertPhase` — a converter doing so computes the receiver
  model's `SampleConverter.convertPhase`;
* `tableAtan2_reads_past_table` — `TableAtan2(y, x)` reads past `lookup_atan_` exactly when
  `x ≠ 0` and `|y| = 256 |x|`, and otherwise lands in the quarter-turn of `atan2(y, x)`.
-/

/-! ### The unrolled loop -/

/-- `INT_MAX`, the largest value of the loops' `int` counters (`auto i = 0`). -/
def intMax : Nat := 2 ^ 31 - 1

section Loops

variable {α : Type} (stride : Nat) (line : Nat → Option α)

/-- The eight hand-written lines of one unrolled pass, run in order, `in_iq` at element `e`: the
`j`-th line reads the sample at `in_iq + j * stride`. -/
def eightLines (e : Nat) : Option (List α) :=
  [line e, line (e + stride), line (e + 2 * stride), line (e + 3 * stride),
    line (e + 4 * stride), line (e + 5 * stride), line (e + 6 * stride),
    line (e + 7 * stride)].mapM id

/-- `for (auto i = 0; i < n8; ++i, in_iq += 8 * stride)` from counter `i`, with `passes`
passes left and `in_iq` at element `e`. `++i` past `INT_MAX` is undefined (`none`). -/
def unrolledLoop : (passes i e : Nat) → Option (List α)
  | 0, _, _ => some []
  | passes + 1, i, e => do
    let block ← eightLines stride line e
    if i < intMax then
      return block ++ (← unrolledLoop passes (i + 1) (e + 8 * stride))
    else none

/-- `for (auto i = 0; i < n7; ++i, in_iq += stride)`: one line a pass. -/
def remainderLoop : (passes e : Nat) → Option (List α)
  | 0, _ => some []
  | passes + 1, e => do
    let out ← line e
    return out :: (← remainderLoop passes (e + stride))

/-- The body of every `ConvertPhase` and `ConvertMagSq`: `n = len / bytesPerSample` samples,
`n / 8` unrolled passes, then `n & 7` single ones from where they stopped. -/
def convertLoop (bytesPerSample len : Nat) : Option (List α) := do
  let n := len / bytesPerSample
  let n8 := n / 8
  let n7 := n &&& 7
  let head ← unrolledLoop stride line n8 0 0
  let tail ← remainderLoop stride line n7 (8 * stride * n8)
  return head ++ tail

/-- The single-line loop is the map of `line` over the samples it passes. -/
theorem remainderLoop_eq_mapM (e passes s : Nat) :
    remainderLoop stride line passes (e + s * stride) =
      (List.range' s passes).mapM fun j => line (e + j * stride) := by
  induction passes generalizing s with
  | zero => rfl
  | succ passes ih =>
    have hnext : e + s * stride + stride = e + (s + 1) * stride := by
      rw [Nat.succ_mul, Nat.add_assoc]
    simp only [remainderLoop, List.range'_succ, List.mapM_cons, hnext, ih]

theorem eightLines_eq_mapM (e s : Nat) :
    eightLines stride line (e + s * stride) =
      (List.range' s 8).mapM fun j => line (e + j * stride) := by
  have hrange : List.range' s 8 = [s, s + 1, s + 2, s + 3, s + 4, s + 5, s + 6, s + 7] := rfl
  simp only [hrange, List.mapM_cons, List.mapM_nil, eightLines, id, Nat.add_mul, Nat.one_mul,
    Nat.add_assoc]

/-- While the counter stays in range, the unrolled passes are the map of `line` over their
`8 * passes` samples. -/
theorem unrolledLoop_eq_mapM (e : Nat) {passes i : Nat} (h : i + passes ≤ intMax) (s : Nat) :
    unrolledLoop stride line passes i (e + s * stride) =
      (List.range' s (8 * passes)).mapM fun j => line (e + j * stride) := by
  induction passes generalizing i s with
  | zero => rfl
  | succ passes ih =>
    have hnext : e + s * stride + 8 * stride = e + (s + 8) * stride := by
      rw [Nat.add_mul, Nat.add_assoc]
    rw [Nat.mul_succ, ← List.range'_append, Nat.one_mul, List.mapM_append, ← eightLines_eq_mapM,
      ← ih (i := i + 1) (by omega)]
    simp only [unrolledLoop, if_pos (show i < intMax by omega), hnext]

/-- Past `INT_MAX` passes the counter overflows. -/
theorem unrolledLoop_eq_none {passes i : Nat} (hi : i ≤ intMax) (h : intMax < i + passes)
    (e : Nat) :
    unrolledLoop stride line passes i e = none := by
  induction passes generalizing i e with
  | zero => omega
  | succ passes ih =>
    simp only [unrolledLoop]
    cases eightLines stride line e with
    | none => rfl
    | some block =>
      by_cases hlt : i < intMax
      · simp [hlt, ih (show i + 1 ≤ intMax by omega) (show intMax < i + 1 + passes by omega)]
      · simp [hlt]

/-- The plain per-sample loop that the unrolled ones stand for: output `k` is `perSample` of
the bytes `[k * bytesPerSample, (k + 1) * bytesPerSample)`, for every whole sample `k`. -/
def perSampleMap (bytesPerSample : Nat) (perSample : Bytes → Option α) (bytes : Bytes) :
    Option (List α) :=
  (List.range (bytes.length / bytesPerSample)).mapM fun k =>
    perSample ((bytes.drop (k * bytesPerSample)).take bytesPerSample)

/-- `convert` is the per-sample map on every buffer whose `n / 8` unrolled passes an `int`
counter can count, and undefined on every longer one. -/
def ConvertsPerSample (bytesPerSample : Nat) (convert : Bytes → Option (List α))
    (perSample : Bytes → Option α) : Prop :=
  ∀ bytes : Bytes,
    (bytes.length / bytesPerSample / 8 ≤ intMax →
      convert bytes = perSampleMap bytesPerSample perSample bytes) ∧
    (intMax < bytes.length / bytesPerSample / 8 → convert bytes = none)

/-- **The unrolled loop is the per-sample map**, as long as its counter stays in range:
whenever a line at element `k * stride` computes the output of sample `k`. -/
theorem convertLoop_converts {bytesPerSample : Nat} (line : Bytes → Nat → Option α)
    (perSample : Bytes → Option α)
    (hline : ∀ bytes k, line bytes (k * stride) =
      perSample ((bytes.drop (k * bytesPerSample)).take bytesPerSample)) :
    ConvertsPerSample bytesPerSample
      (fun bytes => convertLoop stride (line bytes) bytesPerSample bytes.length) perSample := by
  intro bytes
  have h7 : bytes.length / bytesPerSample &&& 7 = bytes.length / bytesPerSample % 8 :=
    Nat.and_pow_two_sub_one_eq_mod _ 3
  simp only [convertLoop, perSampleMap, h7]
  generalize bytes.length / bytesPerSample = n
  constructor
  · intro hle
    have hhead := @unrolledLoop_eq_mapM _ stride (line bytes) 0 (n / 8) 0 (by omega) 0
    have htail := remainderLoop_eq_mapM stride (line bytes) 0 (n % 8) (8 * (n / 8))
    have happend := List.range'_append 0 (8 * (n / 8)) (n % 8) 1
    simp only [Nat.zero_add, Nat.zero_mul, Nat.one_mul] at hhead htail happend
    rw [Nat.mul_right_comm, hhead, htail, ← List.mapM_append, happend, Nat.mod_add_div,
      ← List.range_eq_range']
    simp only [hline]
  · intro hgt
    rw [unrolledLoop_eq_none stride (line bytes) (Nat.zero_le _) (by omega)]
    rfl

end Loops

/-- A map in `Option` whose function never fails is the plain map. -/
theorem mapM_some {α β : Type} (f : α → β) (l : List α) :
    l.mapM (fun a => some (f a)) = some (l.map f) := by
  induction l with
  | nil => rfl
  | cons a l ih => rw [List.mapM_cons, ih]; rfl

/-- A map in `Option` fails as soon as one element fails. -/
theorem mapM_eq_none_of_mem {α β : Type} {f : α → Option β} {l : List α} {a : α} (ha : a ∈ l)
    (hf : f a = none) : l.mapM f = none := by
  induction l with
  | nil => cases ha
  | cons b l ih =>
    rw [List.mapM_cons]
    rcases List.mem_cons.mp ha with rfl | ha
    · rw [hf]; rfl
    · cases f b with
      | none => rfl
      | some c => rw [ih ha]; rfl

/-! ### Reading the buffer -/

/-- The `w`-byte word at element `j` of the buffer, as `reinterpret_cast` reads it on a
little-endian host. -/
def wordAt (bytes : Bytes) (w j : Nat) : Nat :=
  ((List.range w).map fun b => (bytes.getD (w * j + b) 0).toNat * 256 ^ b).sum

/-- `in_iq[j].iq16` of `cu8_alias` and `cs8_alias`: sample `j`'s two bytes as one `uint16_t`. -/
def iq16At (bytes : Bytes) (j : Nat) : UInt16 := UInt16.ofNat (wordAt bytes 2 j)

/-- `in_iq[j]` of an `int16_t` array. -/
def int16At (bytes : Bytes) (j : Nat) : BitVec 16 := BitVec.ofNat 16 (wordAt bytes 2 j)

/-- A `float` as the `double` it converts to: the IEEE 754 single-precision value of a 32-bit
word (sign bit, exponent biased by 127, 23-bit fraction). -/
def float32ToFloat (bits : Nat) : Float :=
  let sign : Float := if bits / 2 ^ 31 % 2 = 1 then -1 else 1
  let exponent : Nat := bits / 2 ^ 23 % 2 ^ 8
  let fraction : Nat := bits % 2 ^ 23
  if exponent = 255 then
    if fraction = 0 then sign / 0 else 0 / 0
  else if exponent = 0 then sign * Float.scaleB fraction.toFloat (-149)
  else sign * Float.scaleB (2 ^ 23 + fraction).toFloat ((exponent : Int) - 150)

/-- `in_iq[j]` of a `float` array. -/
def float32At (bytes : Bytes) (j : Nat) : Float := float32ToFloat (wordAt bytes 4 j)

theorem getD_drop_take (bytes : Bytes) {a n b : Nat} (hb : b < n) :
    ((bytes.drop a).take n).getD b 0 = bytes.getD (a + b) 0 := by
  simp [List.getD_eq_getElem?_getD, List.getElem?_take, hb, List.getElem?_drop]

/-- A word inside a sample is the word at the same place of the buffer. -/
theorem wordAt_sample (bytes : Bytes) {w m a n j : Nat} (ha : a = w * m) (hj : w * j + w ≤ n) :
    wordAt ((bytes.drop a).take n) w j = wordAt bytes w (m + j) := by
  unfold wordAt
  congr 1
  refine List.map_congr_left fun b hb => ?_
  rw [List.mem_range] at hb
  rw [getD_drop_take bytes (by omega), ha, Nat.mul_add, Nat.add_assoc]

theorem iq16At_sample (bytes : Bytes) (k : Nat) :
    iq16At ((bytes.drop (k * 2)).take 2) 0 = iq16At bytes k := by
  rw [iq16At, @wordAt_sample bytes 2 k (k * 2) 2 0 (by omega) (by omega), Nat.add_zero, iq16At]

theorem int16At_sample (bytes : Bytes) {k j : Nat} (hj : j < 2) :
    int16At ((bytes.drop (k * 4)).take 4) j = int16At bytes (k * 2 + j) := by
  rw [int16At, @wordAt_sample bytes 2 (k * 2) (k * 4) 4 j (by omega) (by omega), int16At]

theorem float32At_sample (bytes : Bytes) {k j : Nat} (hj : j < 2) :
    float32At ((bytes.drop (k * 8)).take 8) j = float32At bytes (k * 2 + j) := by
  rw [float32At, @wordAt_sample bytes 4 (k * 2) (k * 8) 8 j (by omega) (by omega), float32At]

/-! ### Floating-point helpers -/

/-- `M_PI`. -/
def mPi : Float := 3.14159265358979323846

/-- The common tail of `scaled_atan2` and `scaled_atan`: the angle moved into `[0, 2π]`
(`ang += 2 * M_PI` when negative), scaled by `32768 / M_PI`, rounded by `std::round`, and
clamped to `uint16_t`. -/
def scaleAngle (ang : Float) : UInt16 :=
  let ang := if ang < 0 then ang + 2 * mPi else ang
  let scaledAng := Float.round (32768 * ang / mPi)
  if scaledAng < 0 then 0 else if scaledAng > 65535 then 65535 else scaledAng.toUInt16

/-- `scaled_atan2(y, x)`. -/
def scaledAtan2 (y x : Float) : UInt16 := scaleAngle (Float.atan2 y x)

/-- `scaled_atan(x)`. -/
def scaledAtan (x : Float) : UInt16 := scaleAngle (Float.atan x)

/-- `magsq(i, q)`. -/
def magsq (i q : Float) : Float := i * i + q * q

/-! ### The lines of the loops -/

section Lines

variable {α β : Type}

/-- A line of the `CU8` and `CS8` loops, `in_iq` at sample `e`: `table[in_iq[0].iq16]`. -/
def aliasLine (table : UInt16 → α) (bytes : Bytes) (e : Nat) : Option α :=
  some (table (iq16At bytes e))

/-- A line of the `CS16H` and `CF32H` loops, `in_iq` at element `e`: `f(in_iq[1], in_iq[0])`,
the sample's Q element and then its I element. -/
def qiLine (elem : Bytes → Nat → β) (f : β → β → Option α) (bytes : Bytes) (e : Nat) :
    Option α :=
  f (elem bytes (e + 1)) (elem bytes e)

/-- A `CU8` or `CS8` loop computes its table at each sample's alias. -/
theorem aliasLine_converts (table : UInt16 → α) :
    ConvertsPerSample 2 (fun bytes => convertLoop 1 (aliasLine table bytes) 2 bytes.length)
      fun s => some (table (iq16At s 0)) :=
  convertLoop_converts 1 _ _ fun bytes k => by rw [iq16At_sample, Nat.mul_one]; rfl

/-- A `CS16H` loop computes `f(Q, I)` of each sample's two `int16_t`s. -/
theorem qiLine_int16_converts (f : BitVec 16 → BitVec 16 → Option α) :
    ConvertsPerSample 4 (fun bytes => convertLoop 2 (qiLine int16At f bytes) 4 bytes.length)
      fun s => f (int16At s 1) (int16At s 0) :=
  convertLoop_converts 2 _ _ fun bytes k => by
    rw [int16At_sample bytes (by omega), int16At_sample bytes (by omega), Nat.add_zero]; rfl

/-- A `CF32H` loop computes `f(Q, I)` of each sample's two `float`s. -/
theorem qiLine_float32_converts (f : Float → Float → Option α) :
    ConvertsPerSample 8 (fun bytes => convertLoop 2 (qiLine float32At f bytes) 8 bytes.length)
      fun s => f (float32At s 1) (float32At s 0) :=
  convertLoop_converts 2 _ _ fun bytes k => by
    rw [float32At_sample bytes (by omega), float32At_sample bytes (by omega), Nat.add_zero]; rfl

end Lines

/-! ### The converters -/

namespace CU8Converter

/-- A `CU8` level, `(v - 127.5) / 128.0`. -/
def level (v : Nat) : Float := (v.toFloat - 127.5) / 128.0

/-- `lookup_phase_` as the constructor fills it: at the alias of the bytes `(i, q)`,
`scaled_atan2(d_q, d_i)`. -/
def lookupPhase (iq16 : UInt16) : UInt16 :=
  scaledAtan2 (level (iq16.toNat / 256)) (level (iq16.toNat % 256))

/-- `lookup_magsq_`: `magsq(d_i, d_q)`. -/
def lookupMagsq (iq16 : UInt16) : Float :=
  magsq (level (iq16.toNat % 256)) (level (iq16.toNat / 256))

/-- `CU8Converter::ConvertPhase`. -/
def convertPhase (bytes : Bytes) : Option PhaseBuffer :=
  convertLoop 1 (aliasLine lookupPhase bytes) 2 bytes.length

/-- `CU8Converter::ConvertMagSq`. -/
def convertMagSq (bytes : Bytes) : Option (List Float) :=
  convertLoop 1 (aliasLine lookupMagsq bytes) 2 bytes.length

/-- The phase of one sample: `lookup_phase_` at the sample's 16-bit alias. -/
def phaseOf (sample : Bytes) : UInt16 := lookupPhase (iq16At sample 0)

/-- The magnitude squared of one sample: `lookup_magsq_` at its alias. -/
def magSqOf (sample : Bytes) : Float := lookupMagsq (iq16At sample 0)

end CU8Converter

namespace CS8Converter

/-- A `CS8` level: the byte as an `int8_t`, over `128.0`. -/
def level (v : Nat) : Float := Float.ofInt (if v < 128 then (v : Int) else v - 256) / 128.0

/-- `lookup_phase_` as the constructor fills it: at the alias of the bytes `(i, q)`,
`scaled_atan2(d_q, d_i)`. -/
def lookupPhase (iq16 : UInt16) : UInt16 :=
  scaledAtan2 (level (iq16.toNat / 256)) (level (iq16.toNat % 256))

/-- `lookup_magsq_`: `magsq(d_i, d_q)`. -/
def lookupMagsq (iq16 : UInt16) : Float :=
  magsq (level (iq16.toNat % 256)) (level (iq16.toNat / 256))

/-- `CS8Converter::ConvertPhase`. -/
def convertPhase (bytes : Bytes) : Option PhaseBuffer :=
  convertLoop 1 (aliasLine lookupPhase bytes) 2 bytes.length

/-- `CS8Converter::ConvertMagSq`. -/
def convertMagSq (bytes : Bytes) : Option (List Float) :=
  convertLoop 1 (aliasLine lookupMagsq bytes) 2 bytes.length

/-- The phase of one sample: `lookup_phase_` at the sample's 16-bit alias. -/
def phaseOf (sample : Bytes) : UInt16 := lookupPhase (iq16At sample 0)

/-- The magnitude squared of one sample: `lookup_magsq_` at its alias. -/
def magSqOf (sample : Bytes) : Float := lookupMagsq (iq16At sample 0)

end CS8Converter

namespace CS16HConverter

/-- `lookup_atan_` as the constructor fills it: entry `i` is `scaled_atan(i / 256.0)`. -/
def lookupAtan (i : Fin 65536) : UInt16 := scaledAtan (i.val.toFloat / 256.0)

/-- `TableAtan(r)`: `π/2` (`16384`) when `r > lookup_atan_.size()`, else `lookup_atan_[r]`;
reading past the table is undefined (`none`). -/
def tableAtan (table : Fin 65536 → UInt16) (r : UInt32) : Option UInt16 :=
  if r.toNat > 65536 then some 16384
  else if h : r.toNat < 65536 then some (table ⟨r.toNat, h⟩) else none

/-- `TableAtan2(y, x)`: `r = (256 * y) / x` truncated, `TableAtan` of `r` or `-r`, whichever
the signs make non-negative, moved into the quadrant of `(x, y)` in `uint16_t`. -/
def tableAtan2 (table : Fin 65536 → UInt16) (y x : BitVec 16) : Option UInt16 :=
  if x.toInt = 0 then
    if y.toInt ≥ 0 then some 16384 else some 49152
  else
    let r : Int := (256 * y.toInt).tdiv x.toInt
    if x.toInt < 0 then
      if y.toInt < 0 then (32768 + ·) <$> tableAtan table (UInt32.ofNat (wrapUnsigned 32 r))
      else (32768 - ·) <$> tableAtan table (UInt32.ofNat (wrapUnsigned 32 (-r)))
    else
      if y.toInt < 0 then (0 - ·) <$> tableAtan table (UInt32.ofNat (wrapUnsigned 32 (-r)))
      else tableAtan table (UInt32.ofNat (wrapUnsigned 32 r))

/-- `magsq(in_iq[1], in_iq[0]) / 32768.0 / 32768.0`. -/
def scaledMagsq (q i : BitVec 16) : Float :=
  magsq (Float.ofInt q.toInt) (Float.ofInt i.toInt) / 32768.0 / 32768.0

/-- `CS16HConverter::ConvertPhase`: `TableAtan2(in_iq[1], in_iq[0])`. -/
def convertPhase (bytes : Bytes) : Option PhaseBuffer :=
  convertLoop 2 (qiLine int16At (tableAtan2 lookupAtan) bytes) 4 bytes.length

/-- `CS16HConverter::ConvertMagSq`. -/
def convertMagSq (bytes : Bytes) : Option (List Float) :=
  convertLoop 2 (qiLine int16At (fun q i => some (scaledMagsq q i)) bytes) 4 bytes.length

/-- The phase of one sample: `TableAtan2(Q, I)`, its second `int16_t` and its first. -/
def phaseOf (sample : Bytes) : Option UInt16 :=
  tableAtan2 lookupAtan (int16At sample 1) (int16At sample 0)

/-- The magnitude squared of one sample. -/
def magSqOf (sample : Bytes) : Float := scaledMagsq (int16At sample 1) (int16At sample 0)

end CS16HConverter

namespace CF32HConverter

/-- `CF32HConverter::ConvertPhase`: `scaled_atan2(in_iq[1], in_iq[0])`. -/
def convertPhase (bytes : Bytes) : Option PhaseBuffer :=
  convertLoop 2 (qiLine float32At (fun q i => some (scaledAtan2 q i)) bytes) 8 bytes.length

/-- `CF32HConverter::ConvertMagSq`: `magsq(in_iq[1], in_iq[0])`. -/
def convertMagSq (bytes : Bytes) : Option (List Float) :=
  convertLoop 2 (qiLine float32At (fun q i => some (magsq q i)) bytes) 8 bytes.length

/-- The phase of one sample: `scaled_atan2(Q, I)`, its second `float` and its first. -/
def phaseOf (sample : Bytes) : UInt16 := scaledAtan2 (float32At sample 1) (float32At sample 0)

/-- The magnitude squared of one sample. -/
def magSqOf (sample : Bytes) : Float := magsq (float32At sample 1) (float32At sample 0)

end CF32HConverter

/-- **Every converter is the per-sample map.** For the four formats, `ConvertPhase` and
`ConvertMagSq` give output `k` from sample `k`'s bytes, with `Q` read before `I`, on every
buffer whose `int` counter does not overflow; past that they are undefined. -/
theorem converters_per_sample :
    ConvertsPerSample SampleFormat.cu8.bytesPerSample CU8Converter.convertPhase
        (fun s => some (CU8Converter.phaseOf s)) ∧
      ConvertsPerSample SampleFormat.cu8.bytesPerSample CU8Converter.convertMagSq
        (fun s => some (CU8Converter.magSqOf s)) ∧
      ConvertsPerSample SampleFormat.cs8.bytesPerSample CS8Converter.convertPhase
        (fun s => some (CS8Converter.phaseOf s)) ∧
      ConvertsPerSample SampleFormat.cs8.bytesPerSample CS8Converter.convertMagSq
        (fun s => some (CS8Converter.magSqOf s)) ∧
      ConvertsPerSample SampleFormat.cs16h.bytesPerSample CS16HConverter.convertPhase
        CS16HConverter.phaseOf ∧
      ConvertsPerSample SampleFormat.cs16h.bytesPerSample CS16HConverter.convertMagSq
        (fun s => some (CS16HConverter.magSqOf s)) ∧
      ConvertsPerSample SampleFormat.cf32h.bytesPerSample CF32HConverter.convertPhase
        (fun s => some (CF32HConverter.phaseOf s)) ∧
      ConvertsPerSample SampleFormat.cf32h.bytesPerSample CF32HConverter.convertMagSq
        (fun s => some (CF32HConverter.magSqOf s)) :=
  ⟨aliasLine_converts _, aliasLine_converts _, aliasLine_converts _, aliasLine_converts _,
    qiLine_int16_converts _, qiLine_int16_converts _, qiLine_float32_converts _,
    qiLine_float32_converts _⟩

/-! ### The receiver model -/

/-- **Refinement of the receiver model.** A converter that is the per-sample map of a
`SampleConverter`'s phase computes its `convertPhase` on every buffer its counter can count. -/
theorem ConvertsPerSample.refines_convertPhase {conv : SampleConverter}
    {convert : Bytes → Option PhaseBuffer}
    (h : ConvertsPerSample conv.bytesPerSample convert fun s => some (conv.phaseOf s))
    {bytes : Bytes} (hn : bytes.length / conv.bytesPerSample / 8 ≤ intMax) :
    convert bytes = some (conv.convertPhase bytes) := by
  rw [(h bytes).1 hn, perSampleMap, mapM_some]; rfl

/-- The same for the magnitudes squared. -/
theorem ConvertsPerSample.refines_convertMagSq {conv : SampleConverter}
    {convert : Bytes → Option (List Float)}
    (h : ConvertsPerSample conv.bytesPerSample convert fun s => some (conv.magSqOf s))
    {bytes : Bytes} (hn : bytes.length / conv.bytesPerSample / 8 ≤ intMax) :
    convert bytes = some (conv.convertMagSq bytes) := by
  rw [(h bytes).1 hn, perSampleMap, mapM_some]; rfl

/-! ### `TableAtan2` -/

/-- The closed quarter-turn holding `atan2(y, x)` on the phase scale (`65536` to a turn), as the
source's comments place each case. -/
def InQuarterTurn (y x : Int) (v : Nat) : Prop :=
  if x = 0 then v = 16384 ∨ v = 49152
  else if 0 < x then (if 0 ≤ y then v ≤ 16384 else 49152 ≤ v ∧ v ≤ 65535 ∨ v = 0)
  else if 0 ≤ y then 16384 ≤ v ∧ v ≤ 32768 else 32768 ≤ v ∧ v ≤ 49152

theorem toInt_int16_bounds (x : BitVec 16) : -32768 ≤ x.toInt ∧ x.toInt < 32768 := by
  rw [BitVec.toInt_eq_toNat_cond]; have := x.isLt; split <;> omega

theorem uint16_toNat_add (a b : UInt16) : (a + b).toNat = (a.toNat + b.toNat) % 65536 := by
  simp [UInt16.add_def, UInt16.toNat, BitVec.toNat_add]

theorem uint16_toNat_sub (a b : UInt16) : (a - b).toNat = (65536 - b.toNat + a.toNat) % 65536 := by
  simp [UInt16.sub_def, UInt16.toNat, BitVec.toNat_sub]

/-- `(std::uint32_t)v` of a non-negative `int`. -/
theorem toNat_uint32_of_nonneg {v : Int} (h0 : 0 ≤ v) (h1 : v < 2 ^ 32) :
    (UInt32.ofNat (wrapUnsigned 32 v)).toNat = v.toNat := by
  simp only [wrapUnsigned, Int.emod_eq_of_lt h0 h1, UInt32.ofNat, UInt32.toNat, BitVec.toNat_ofNat]
  omega

/-- A truncated quotient of two non-positive integers is non-negative. -/
theorem tdiv_nonneg_of_nonpos {a b : Int} (ha : a ≤ 0) (hb : b ≤ 0) : 0 ≤ a.tdiv b := by
  have := Int.tdiv_nonneg (Int.neg_nonneg_of_nonpos ha) (Int.neg_nonneg_of_nonpos hb)
  rwa [Int.neg_tdiv, Int.tdiv_neg, Int.neg_neg] at this

/-- `256 * a / b` lands on `65536` only at `a = 256 * b`, for `a` in the `int16_t` range. -/
theorem div_eq_65536_iff {a b : Nat} (ha : a ≤ 32768) (hb : 0 < b) :
    256 * a / b = 65536 ↔ a = 256 * b := by
  have h1 := @Nat.le_div_iff_mul_le b 65536 (256 * a) hb
  have h2 := @Nat.div_lt_iff_lt_mul b (256 * a) 65537 hb
  omega

namespace CS16HConverter

variable {table : Fin 65536 → UInt16}

theorem tableAtan_eq_none_iff (r : UInt32) : tableAtan table r = none ↔ r.toNat = 65536 := by
  unfold tableAtan
  split_ifs <;> simp <;> omega

theorem tableAtan_le (htable : ∀ i, (table i).toNat ≤ 16384) {r : UInt32} {w : UInt16}
    (h : tableAtan table r = some w) : w.toNat ≤ 16384 := by
  unfold tableAtan at h
  split_ifs at h
  · cases h; decide
  · cases h; exact htable _

/-- Off the `y` axis, `TableAtan2` looks up index `256 |y| / |x|` and moves the entry into the
quadrant of `(x, y)`; an entry at most `π/2` lands in the quarter-turn of `atan2(y, x)`. -/
theorem tableAtan2_of_ne_zero (table : Fin 65536 → UInt16) {y x : BitVec 16}
    (hx : x.toInt ≠ 0) :
    ∃ (post : UInt16 → UInt16) (idx : UInt32),
      tableAtan2 table y x = post <$> tableAtan table idx ∧
      idx.toNat = 256 * y.toInt.natAbs / x.toInt.natAbs ∧
      ∀ w : UInt16, w.toNat ≤ 16384 → InQuarterTurn y.toInt x.toInt (post w).toNat := by
  have hy := toInt_int16_bounds y
  have habs : ((256 * y.toInt).tdiv x.toInt).natAbs = 256 * y.toInt.natAbs / x.toInt.natAbs := by
    rw [Int.natAbs_tdiv, Int.natAbs_mul]; rfl
  have hq := Nat.div_le_self (256 * y.toInt.natAbs) x.toInt.natAbs
  have h32 : (32768 : UInt16).toNat = 32768 := rfl
  have h0 : (0 : UInt16).toNat = 0 := rfl
  unfold tableAtan2
  rw [if_neg hx]
  by_cases hxn : x.toInt < 0 <;> by_cases hyn : y.toInt < 0 <;>
    simp only [hxn, hyn, if_true, if_false]
  · have hr := tdiv_nonneg_of_nonpos (a := 256 * y.toInt) (b := x.toInt) (by omega) (by omega)
    refine ⟨(32768 + ·), UInt32.ofNat (wrapUnsigned 32 ((256 * y.toInt).tdiv x.toInt)), rfl,
      by rw [toNat_uint32_of_nonneg hr (by omega)]; omega, fun w hw => ?_⟩
    rw [InQuarterTurn, if_neg hx, if_neg (by omega), if_neg (by omega), uint16_toNat_add, h32]
    omega
  · have hr : (256 * y.toInt).tdiv x.toInt ≤ 0 := Int.tdiv_nonpos (by omega) (by omega)
    refine ⟨(32768 - ·), UInt32.ofNat (wrapUnsigned 32 (-(256 * y.toInt).tdiv x.toInt)), rfl,
      by rw [toNat_uint32_of_nonneg (by omega) (by omega)]; omega, fun w hw => ?_⟩
    rw [InQuarterTurn, if_neg hx, if_neg (by omega), if_pos (by omega), uint16_toNat_sub, h32]
    omega
  · have hr : 0 ≤ (-(256 * y.toInt)).tdiv x.toInt := Int.tdiv_nonneg (by omega) (by omega)
    rw [Int.neg_tdiv] at hr
    refine ⟨(0 - ·), UInt32.ofNat (wrapUnsigned 32 (-(256 * y.toInt).tdiv x.toInt)), rfl,
      by rw [toNat_uint32_of_nonneg hr (by omega)]; omega, fun w hw => ?_⟩
    rw [InQuarterTurn, if_neg hx, if_pos (by omega), if_neg (by omega), uint16_toNat_sub, h0]
    omega
  · have hr : 0 ≤ (256 * y.toInt).tdiv x.toInt := Int.tdiv_nonneg (by omega) (by omega)
    refine ⟨id, UInt32.ofNat (wrapUnsigned 32 ((256 * y.toInt).tdiv x.toInt)), (id_map _).symm,
      by rw [toNat_uint32_of_nonneg hr (by omega)]; omega, fun w hw => ?_⟩
    rw [InQuarterTurn, if_neg hx, if_pos (by omega), if_pos (by omega)]
    exact hw

end CS16HConverter

/-- **`TableAtan2` reads one past `lookup_atan_`.** For every table and every pair of
`int16_t`s, `TableAtan2(y, x)` reads past the table exactly when `x ≠ 0` and `|y| = 256 |x|`,
where `256 * y / x = ±65536` passes the check `r > lookup_atan_.size()`. Everywhere else, entries
at most `π/2` give a phase in the quarter-turn of `atan2(y, x)`. A sample of that kind makes
`ConvertPhase` undefined on every buffer that holds it. -/
theorem tableAtan2_reads_past_table (table : Fin 65536 → UInt16) (y x : BitVec 16) :
    (CS16HConverter.tableAtan2 table y x = none ↔
      x.toInt ≠ 0 ∧ y.toInt.natAbs = 256 * x.toInt.natAbs) ∧
    ((∀ i, (table i).toNat ≤ 16384) → ∀ v, CS16HConverter.tableAtan2 table y x = some v →
      InQuarterTurn y.toInt x.toInt v.toNat) ∧
    ∀ (bytes : Bytes) (k : Nat), k < bytes.length / 4 →
      CS16HConverter.phaseOf ((bytes.drop (k * 4)).take 4) = none →
      CS16HConverter.convertPhase bytes = none := by
  have hy := toInt_int16_bounds y
  refine ⟨?_, fun htable v hv => ?_, fun bytes k hk hnone => ?_⟩
  · by_cases hx : x.toInt = 0
    · simp only [CS16HConverter.tableAtan2, if_pos hx]
      split <;> simp [hx]
    · obtain ⟨post, idx, heq, hidx, -⟩ := CS16HConverter.tableAtan2_of_ne_zero table (y := y) hx
      rw [heq, Option.map_eq_map, Option.map_eq_none', CS16HConverter.tableAtan_eq_none_iff, hidx,
        div_eq_65536_iff (by omega) (by omega)]
      exact ⟨fun h => ⟨hx, h⟩, fun h => h.2⟩
  · by_cases hx : x.toInt = 0
    · simp only [CS16HConverter.tableAtan2, if_pos hx] at hv
      rw [InQuarterTurn, if_pos hx]
      split at hv <;> cases hv <;> decide
    · obtain ⟨post, idx, heq, -, hpost⟩ := CS16HConverter.tableAtan2_of_ne_zero table (y := y) hx
      rw [heq, Option.map_eq_map, Option.map_eq_some'] at hv
      obtain ⟨w, hw, rfl⟩ := hv
      exact hpost w (CS16HConverter.tableAtan_le htable hw)
  · rcases Nat.lt_or_ge intMax (bytes.length / 4 / 8) with hgt | hle
    · exact (qiLine_int16_converts _ bytes).2 hgt
    · exact ((qiLine_int16_converts _ bytes).1 hle).trans
        (mapM_eq_none_of_mem (List.mem_range.mpr hk) hnone)

/-- The sample `I = 1`, `Q = 256`: `ConvertPhase` reads `lookup_atan_[65536]`. -/
example : CS16HConverter.convertPhase [1, 0, 0, 1] = none := by decide

end Dump978
