import Dump978.Protocol

namespace Dump978

/-!
# Raw messages and their bit accessors (`uat_message.h`)

A `RawMessage` is one received frame (corrected payload, reception time, error count, RSSI,
hardware timestamp) or a metadata-only message. Its type is read from the payload size
when it is built (`RawMessage.ofPayload`): 18, 34 and 432 bytes are the three frame kinds,
any other size gives `invalid`.

The ADS-B decoder reads the payload through two accessors, 1-indexed by byte and by bit
(bit 1 the most significant):

* `RawMessage.bit byte bit` — one bit, through `payload_.at(by)`, which throws
  `std::out_of_range` past the payload;
* `RawMessage.bits firstByte firstBit lastByte lastBit` — up to 32 contiguous bits, which
  throws `std::out_of_range("bit range exceeds available data")` unless the payload holds
  every byte the range touches.

Both are split into the check and the pure read (`bitValue`, `bitsValue`), and the lemmas
`bit_eq_pure` and `bits_eq_pure` say that a read inside the payload returns its value: the
decoder's no-exception proofs are made of them. The `assert`s of the accessors constrain
only their constant arguments and are left out.

Main result:

* `bits_reads_range` — `Bits` returns the range read bit by bit (`bitsSum`, over the bits
  `Bit` reads, `bitValue_eq_payloadBit`) or throws when its last byte is past the payload;
  each of the five hand-written branches ORs exactly the range's bits into place
  (`bitsValue_toNat`).
-/

/-- `RawMessage`. `rssi` is the C++ `float`. -/
structure RawMessage where
  type : MessageType
  payload : Bytes
  receivedAt : UInt64
  errors : UInt32
  rssi : Float
  rawTimestamp : UInt64
  metadata : List (String × String)

/-- The type a payload of `n` bytes gives (the `switch` of the payload constructors). -/
def messageTypeOfSize (n : Nat) : MessageType :=
  if n = downlinkShortDataBytes then .downlinkShort
  else if n = downlinkLongDataBytes then .downlinkLong
  else if n = uplinkDataBytes then .uplink
  else .invalid

/-- `RawMessage(payload, received_at, errors, rssi, raw_timestamp)`. -/
def RawMessage.ofPayload (payload : Bytes) (receivedAt : UInt64) (errors : UInt32) (rssi : Float)
    (rawTimestamp : UInt64) : RawMessage :=
  { type := messageTypeOfSize payload.length, payload, receivedAt, errors, rssi, rawTimestamp,
    metadata := [] }

/-- `RawMessage(metadata)`. -/
def RawMessage.ofMetadata (metadata : List (String × String)) : RawMessage :=
  { type := .metadata, payload := [], receivedAt := 0, errors := 0, rssi := 0, rawTimestamp := 0,
    metadata }

/-- `BitLength()`: raw bits of the frame, sync excluded. -/
def RawMessage.bitLength (m : RawMessage) : Nat :=
  match m.type with
  | .downlinkShort => downlinkShortBits
  | .downlinkLong => downlinkLongBits
  | .uplink => uplinkBits
  | _ => 0

/-- `operator bool`. -/
def RawMessage.isValid (m : RawMessage) : Bool := m.type != .invalid

@[simp] theorem ofPayload_type (payload : Bytes) (t : UInt64) (e : UInt32) (r : Float) (ts : UInt64) :
    (RawMessage.ofPayload payload t e r ts).type = messageTypeOfSize payload.length := rfl

@[simp] theorem ofPayload_payload (payload : Bytes) (t : UInt64) (e : UInt32) (r : Float)
    (ts : UInt64) : (RawMessage.ofPayload payload t e r ts).payload = payload := rfl

/-! ### `Bit` -/

/-- The bit `Bit(byte, bit)` reads once its byte is known to exist. -/
def RawMessage.bitValue (m : RawMessage) (byte bit : Nat) : Bool :=
  let bi := (byte - 1) * 8 + bit - 1
  (m.payload.getD (bi >>> 3) 0).toNat &&& (1 <<< (7 - (bi &&& 7))) != 0

/-- `Bit(byte, bit)`. -/
def RawMessage.bit (m : RawMessage) (byte bit : Nat) : Except StdException Bool :=
  if ((byte - 1) * 8 + bit - 1) >>> 3 < m.payload.length then pure (m.bitValue byte bit)
  else throw (.outOfRange "vector::_M_range_check")

theorem bit_eq_pure (m : RawMessage) {byte bit : Nat} (hb : 1 ≤ byte) (h1 : 1 ≤ bit)
    (h8 : bit ≤ 8) (hlen : byte ≤ m.payload.length) :
    m.bit byte bit = pure (m.bitValue byte bit) := by
  have : ((byte - 1) * 8 + bit - 1) >>> 3 < m.payload.length := by
    simp only [Nat.shiftRight_eq_div_pow, Nat.reducePow]; omega
  simp only [RawMessage.bit, this, if_true]

/-! ### `Bits` -/

/-- First byte index and number of bytes the range `(firstByte, firstBit)..(lastByte, lastBit)`
touches (`fby`, `nby`). -/
def bitsSpan (firstByte firstBit lastByte lastBit : Nat) : Nat × Nat :=
  let fbi := (firstByte - 1) * 8 + firstBit - 1
  let lbi := (lastByte - 1) * 8 + lastBit - 1
  (fbi >>> 3, (lbi >>> 3) - (fbi >>> 3) + 1)

/-- The value `Bits` returns once its bytes are known to exist, computed as the C++ does
and reduced to `uint32_t`. -/
def RawMessage.bitsValue (m : RawMessage) (firstByte firstBit lastByte lastBit : Nat) : UInt32 :=
  let fbi := (firstByte - 1) * 8 + firstBit - 1
  let lbi := (lastByte - 1) * 8 + lastBit - 1
  let fby := fbi >>> 3
  let nby := (lbi >>> 3) - fby + 1
  let shift := 7 - (lbi &&& 7)
  let topmask := 0xFF >>> (fbi &&& 7)
  let p (i : Nat) : Nat := (m.payload.getD (fby + i) 0).toNat
  UInt32.ofNat <|
    if nby = 5 then
      ((p 0 &&& topmask) <<< (32 - shift)) ||| (p 1 <<< (24 - shift)) |||
        (p 2 <<< (16 - shift)) ||| (p 3 <<< (8 - shift)) ||| (p 4 >>> shift)
    else if nby = 4 then
      ((p 0 &&& topmask) <<< (24 - shift)) ||| (p 1 <<< (16 - shift)) |||
        (p 2 <<< (8 - shift)) ||| (p 3 >>> shift)
    else if nby = 3 then
      ((p 0 &&& topmask) <<< (16 - shift)) ||| (p 1 <<< (8 - shift)) ||| (p 2 >>> shift)
    else if nby = 2 then
      ((p 0 &&& topmask) <<< (8 - shift)) ||| (p 1 >>> shift)
    else if nby = 1 then
      (p 0 &&& topmask) >>> shift
    else 0

/-- `Bits(first_byte, first_bit, last_byte, last_bit)`. -/
def RawMessage.bits (m : RawMessage) (firstByte firstBit lastByte lastBit : Nat) :
    Except StdException UInt32 :=
  let span := bitsSpan firstByte firstBit lastByte lastBit
  if m.payload.length < span.1 + span.2 then
    throw (.outOfRange "bit range exceeds available data")
  else pure (m.bitsValue firstByte firstBit lastByte lastBit)

/-- A range that ends inside the payload is read without an exception. -/
theorem bits_eq_pure (m : RawMessage) {firstByte firstBit lastByte lastBit : Nat}
    (hb : 1 ≤ lastByte) (h1 : 1 ≤ lastBit) (h8 : lastBit ≤ 8)
    (hle : (firstByte - 1) * 8 + firstBit - 1 ≤ (lastByte - 1) * 8 + lastBit - 1)
    (hlen : lastByte ≤ m.payload.length) :
    m.bits firstByte firstBit lastByte lastBit = pure (m.bitsValue firstByte firstBit lastByte lastBit) := by
  have : ¬ m.payload.length < (bitsSpan firstByte firstBit lastByte lastBit).1 +
      (bitsSpan firstByte firstBit lastByte lastBit).2 := by
    simp only [bitsSpan, Nat.shiftRight_eq_div_pow, Nat.reducePow]; omega
  simp only [RawMessage.bits, this, if_false]

/-- The header's payload type, `Bits(1,1,1,5)`, is the first byte shifted right by three. -/
theorem bitsValue_payloadType (m : RawMessage) :
    (m.bitsValue 1 1 1 5).toNat = (m.payload.getD 0 0).toNat >>> 3 := by
  have hb : (m.payload.getD 0 0).toNat < 2 ^ 8 := (m.payload.getD 0 0).toNat_lt_size
  have hmask : (m.payload.getD 0 0).toNat &&& 255 = (m.payload.getD 0 0).toNat :=
    Nat.and_pow_two_sub_one_of_lt_two_pow hb
  show ((m.payload.getD 0 0).toNat &&& 255) >>> 3 % 2 ^ 32 = _
  rw [hmask, Nat.shiftRight_eq_div_pow]
  omega

/-! ### `Bits` bit by bit -/

/-- The bit index `(byte - 1) * 8 + bit - 1` of `Bit` and `Bits`: bits counted from the most
significant bit of byte 0. -/
def bitIndex (byte bit : Nat) : Nat := (byte - 1) * 8 + bit - 1

/-- The span `Bits` checks, in bit indices: the first byte and the number of bytes. -/
theorem bitsSpan_eq (firstByte firstBit lastByte lastBit : Nat) :
    bitsSpan firstByte firstBit lastByte lastBit = (bitIndex firstByte firstBit / 8,
      bitIndex lastByte lastBit / 8 - bitIndex firstByte firstBit / 8 + 1) := by
  simp only [bitsSpan, bitIndex, Nat.shiftRight_eq_div_pow, Nat.reducePow]

/-- Bit `k` of the payload, counted from the most significant bit of byte 0. -/
def RawMessage.payloadBit (m : RawMessage) (k : Nat) : Bool :=
  (m.payload.getD (k / 8) 0).toNat.testBit (7 - k % 8)

/-- The bits `fbi..lbi` of the payload read one by one: the sum of `b_k * 2 ^ (lbi - k)`
over `fbi ≤ k ≤ lbi`. -/
def RawMessage.bitsSum (m : RawMessage) (fbi lbi : Nat) : Nat :=
  ((List.range' fbi (lbi + 1 - fbi)).map fun k => (m.payloadBit k).toNat * 2 ^ (lbi - k)).sum

/-- `x & (1 << k)` is nonzero exactly when bit `k` of `x` is set. -/
theorem and_two_pow_ne_zero (x k : Nat) : (x &&& 2 ^ k != 0) = x.testBit k := by
  cases hk : x.testBit k
  · have hzero : x &&& 2 ^ k = 0 := Nat.eq_of_testBit_eq fun i => by
      rw [Nat.testBit_and, Nat.testBit_two_pow, Nat.zero_testBit]
      by_cases hi : k = i
      · subst hi; rw [hk, Bool.false_and]
      · rw [decide_eq_false hi, Bool.and_false]
    rw [hzero]; rfl
  · have hne : x &&& 2 ^ k ≠ 0 := fun h0 => by
      have := congrArg (Nat.testBit · k) h0
      simp only [Nat.testBit_and, Nat.testBit_two_pow_self, hk, Bool.and_self,
        Nat.zero_testBit] at this
      exact Bool.noConfusion this
    simpa using hne

/-- `Bit(byte, bit)` reads `payloadBit` at the bit's index. -/
theorem bitValue_eq_payloadBit (m : RawMessage) (byte bit : Nat) :
    m.bitValue byte bit = m.payloadBit (bitIndex byte bit) := by
  simp only [RawMessage.bitValue, RawMessage.payloadBit, bitIndex]
  generalize (byte - 1) * 8 + bit - 1 = bi
  rw [Nat.shiftRight_eq_div_pow, Nat.one_shiftLeft, and_two_pow_ne_zero,
    show bi &&& 7 = bi % 8 from Nat.and_pow_two_sub_one_eq_mod bi 3]

theorem testBit_byte_of_ge (x : UInt8) {j : Nat} (h : 8 ≤ j) : x.toNat.testBit j = false :=
  Nat.testBit_lt_two_pow (lt_of_lt_of_le (x.toNat_lt_size : x.toNat < 2 ^ 8)
    (Nat.pow_le_pow_right Nat.zero_lt_two h))

/-- The last `n` bits of the range end at `lbi`: a number below `2 ^ n` whose bit `i` is
`b (lbi - i)`. -/
theorem bitsSum_range' (m : RawMessage) (lbi : Nat) {f n : Nat} (hf : f + n = lbi + 1) :
    ((List.range' f n).map fun k => (m.payloadBit k).toNat * 2 ^ (lbi - k)).sum < 2 ^ n ∧
      ∀ i, (((List.range' f n).map fun k => (m.payloadBit k).toNat * 2 ^ (lbi - k)).sum).testBit i =
        (decide (i < n) && m.payloadBit (lbi - i)) := by
  induction n generalizing f with
  | zero => exact ⟨by simp, by simp⟩
  | succ n ih =>
    obtain ⟨hlt, hbits⟩ := ih (f := f + 1) (by omega)
    have hexp : lbi - f = n := by omega
    have hsum : ((List.range' f (n + 1)).map fun k => (m.payloadBit k).toNat * 2 ^ (lbi - k)).sum =
        2 ^ n * (m.payloadBit f).toNat +
          ((List.range' (f + 1) n).map fun k => (m.payloadBit k).toNat * 2 ^ (lbi - k)).sum := by
      rw [List.range'_succ, List.map_cons, List.sum_cons, hexp, Nat.mul_comm]
    have hbit : (m.payloadBit f).toNat ≤ 1 := Bool.toNat_le _
    rw [hsum]
    have htop : 2 ^ n * (m.payloadBit f).toNat ≤ 2 ^ n * 1 := Nat.mul_le_mul_left _ hbit
    refine ⟨by rw [Nat.pow_succ]; omega, fun i => ?_⟩
    rw [Nat.testBit_mul_pow_two_add _ hlt, hbits]
    by_cases hi : i < n
    · simp [hi, Nat.lt_succ_of_lt hi]
    · rw [if_neg hi]
      rcases Nat.lt_or_ge i (n + 1) with hn | hn
      · have : i = n := by omega
        subst this
        have hf' : lbi - i = f := by omega
        rw [hf']
        cases m.payloadBit f <;> simp
      · have htop : (m.payloadBit f).toNat.testBit (i - n) = false :=
          Nat.testBit_lt_two_pow (lt_of_le_of_lt hbit
            (Nat.one_lt_two_pow (by omega)))
        simp [htop, show ¬ i < n + 1 by omega]

theorem bitsSum_lt (m : RawMessage) {fbi lbi : Nat} (hle : fbi ≤ lbi) :
    m.bitsSum fbi lbi < 2 ^ (lbi + 1 - fbi) :=
  (bitsSum_range' m lbi (f := fbi) (n := lbi + 1 - fbi) (by omega)).1

theorem testBit_bitsSum (m : RawMessage) {fbi lbi : Nat} (hle : fbi ≤ lbi) (i : Nat) :
    (m.bitsSum fbi lbi).testBit i = (decide (i + fbi ≤ lbi) && m.payloadBit (lbi - i)) := by
  rw [RawMessage.bitsSum, (bitsSum_range' m lbi (f := fbi) (n := lbi + 1 - fbi) (by omega)).2 i,
    decide_eq_decide.mpr (show i < lbi + 1 - fbi ↔ i + fbi ≤ lbi by omega)]

section BitsWindow

/-! The terms `Bits` ORs together, one per byte of the range, with `shift = 7 - lbi % 8`:
byte `lbi / 8 - c` moved left by `8 * c - shift`, the last byte moved right by `shift`, and
the first byte masked by `0xFF >> (fbi & 7)`. -/

variable (m : RawMessage) (lbi : Nat)

theorem testBit_byte_shiftLeft {b K : Nat} (hb : b < lbi / 8)
    (hK : K + (7 - lbi % 8) = 8 * (lbi / 8 - b)) (i : Nat) :
    ((m.payload.getD b 0).toNat <<< K).testBit i =
      (decide ((i + (7 - lbi % 8)) / 8 = lbi / 8 - b) && m.payloadBit (lbi - i)) := by
  rw [Nat.testBit_shiftLeft]
  by_cases hin : (i + (7 - lbi % 8)) / 8 = lbi / 8 - b
  · have hbyte : (lbi - i) / 8 = b := by omega
    have hpos : 7 - (lbi - i) % 8 = i - K := by omega
    rw [decide_eq_true hin, decide_eq_true (show i ≥ K by omega), RawMessage.payloadBit, hbyte,
      hpos]
  · rw [decide_eq_false hin, Bool.false_and]
    by_cases hK' : i ≥ K
    · rw [testBit_byte_of_ge _ (by omega), Bool.and_false]
    · rw [decide_eq_false hK', Bool.false_and]

theorem testBit_byte_shiftRight {b : Nat} (hb : b = lbi / 8) (i : Nat) :
    ((m.payload.getD b 0).toNat >>> (7 - lbi % 8)).testBit i =
      (decide ((i + (7 - lbi % 8)) / 8 = lbi / 8 - b) && m.payloadBit (lbi - i)) := by
  rw [Nat.testBit_shiftRight]
  by_cases hin : i + (7 - lbi % 8) < 8
  · have hbyte : (lbi - i) / 8 = b := by omega
    have hpos : 7 - (lbi - i) % 8 = 7 - lbi % 8 + i := by omega
    rw [decide_eq_true (show (i + (7 - lbi % 8)) / 8 = lbi / 8 - b by omega), Bool.true_and,
      RawMessage.payloadBit, hbyte, hpos]
  · rw [decide_eq_false (show ¬ (i + (7 - lbi % 8)) / 8 = lbi / 8 - b by omega), Bool.false_and,
      testBit_byte_of_ge _ (by omega)]

theorem testBit_topmask_shiftLeft (v f K i : Nat) :
    ((v &&& (0xFF >>> f)) <<< K).testBit i = ((v <<< K).testBit i && decide (f + i < K + 8)) := by
  have h255 : (0xFF : Nat) = 2 ^ 8 - 1 := rfl
  simp only [Nat.testBit_shiftLeft, Nat.testBit_and, Nat.testBit_shiftRight, h255,
    Nat.testBit_two_pow_sub_one, Bool.and_assoc]
  by_cases hi : i ≥ K
  · rw [decide_eq_decide.mpr (show f + (i - K) < 8 ↔ f + i < K + 8 by omega)]
  · rw [decide_eq_false hi, Bool.false_and, Bool.false_and]

theorem testBit_topmask_shiftRight (v f s i : Nat) :
    ((v &&& (0xFF >>> f)) >>> s).testBit i = ((v >>> s).testBit i && decide (f + s + i < 8)) := by
  have h255 : (0xFF : Nat) = 2 ^ 8 - 1 := rfl
  simp only [Nat.testBit_shiftRight, Nat.testBit_and, h255, Nat.testBit_two_pow_sub_one,
    Nat.add_assoc]

/-- The OR of `term 0`, ..., `term n`, left to right, as the branches of `Bits` write it. -/
def orTerms (term : Nat → Nat) : Nat → Nat
  | 0 => term 0
  | n + 1 => orTerms term n ||| term (n + 1)

theorem testBit_orTerms (term : Nat → Nat) (n i : Nat) :
    (orTerms term n).testBit i = true ↔ ∃ j < n + 1, (term j).testBit i = true := by
  induction n with
  | zero => simp [orTerms]
  | succ n ih => rw [orTerms, Nat.testBit_or, Bool.or_eq_true, ih, Nat.exists_lt_succ (n := n + 1)]

/-- Term `j` of the branch of `Bits` for `c + 1` bytes: byte `fby + j`, the first one masked
by `topmask`, moved left by `8 * (c - j) - shift`, or right by `shift` for the last. -/
def bitsTerm (fbi lbi c j : Nat) : Nat :=
  let v := (m.payload.getD (fbi / 8 + j) 0).toNat
  let v := if j = 0 then v &&& (0xFF >>> (fbi % 8)) else v
  if j = c then v >>> (7 - lbi % 8) else v <<< (8 * (c - j) - (7 - lbi % 8))

/-- Term `j` holds bit `i` of the result iff bit `i` falls in byte slot `c - j` (and, for
the first byte, after the mask) and the payload has the matching bit. -/
theorem testBit_bitsTerm {fbi c j : Nat} (hc : lbi / 8 = fbi / 8 + c) (hj : j ≤ c) (i : Nat) :
    (bitsTerm m fbi lbi c j).testBit i = true ↔
      (i + (7 - lbi % 8)) / 8 = c - j ∧ (j = 0 → fbi % 8 + (i + (7 - lbi % 8)) < 8 * c + 8) ∧
        m.payloadBit (lbi - i) = true := by
  have hslot : lbi / 8 - (fbi / 8 + j) = c - j := by omega
  unfold bitsTerm
  dsimp only
  by_cases hjc : j = c <;> by_cases hj0 : j = 0
  · rw [if_pos hj0, if_pos hjc, testBit_topmask_shiftRight, testBit_byte_shiftRight m lbi (by omega),
      hslot]
    cases m.payloadBit (lbi - i) <;>
      simp only [Bool.and_eq_true, decide_eq_true_eq, Bool.false_eq_true, and_false, false_and,
        and_true]
    omega
  · rw [if_neg hj0, if_pos hjc, testBit_byte_shiftRight m lbi (by omega), hslot]
    cases m.payloadBit (lbi - i) <;>
      simp only [Bool.and_eq_true, decide_eq_true_eq, Bool.false_eq_true, and_false, false_and,
        and_true]
    omega
  · rw [if_pos hj0, if_neg hjc, testBit_topmask_shiftLeft, testBit_byte_shiftLeft m lbi (by omega)
      (by omega), hslot]
    cases m.payloadBit (lbi - i) <;>
      simp only [Bool.and_eq_true, decide_eq_true_eq, Bool.false_eq_true, and_false, false_and,
        and_true]
    omega
  · rw [if_neg hj0, if_neg hjc, testBit_byte_shiftLeft m lbi (by omega) (by omega), hslot]
    cases m.payloadBit (lbi - i) <;>
      simp only [Bool.and_eq_true, decide_eq_true_eq, Bool.false_eq_true, and_false, false_and,
        and_true]
    omega

end BitsWindow

/-- Bit `i` of the result lies in the slot of one of the range's bytes, after the first
byte's mask, exactly when it is one of the range's bits. -/
theorem bitSlot_iff {fbi lbi c i : Nat} (hc : lbi / 8 = fbi / 8 + c) :
    (∃ j < c + 1, (i + (7 - lbi % 8)) / 8 = c - j ∧
      (j = 0 → fbi % 8 + (i + (7 - lbi % 8)) < 8 * c + 8)) ↔ i + fbi ≤ lbi := by
  constructor
  · rintro ⟨j, hj, hslot, hmask⟩
    omega
  · intro hi
    exact ⟨c - (i + (7 - lbi % 8)) / 8, by omega, by omega, fun _ => by omega⟩

/-- **`Bits` reads exactly the range.** Whatever the payload, each of the five branches ORs
into place the bits `fbi..lbi` and nothing else, so the value is the range read bit by bit. -/
theorem bitsValue_toNat (m : RawMessage) {firstByte firstBit lastByte lastBit : Nat}
    (hle : bitIndex firstByte firstBit ≤ bitIndex lastByte lastBit)
    (h32 : bitIndex lastByte lastBit - bitIndex firstByte firstBit < 32) :
    (m.bitsValue firstByte firstBit lastByte lastBit).toNat =
      m.bitsSum (bitIndex firstByte firstBit) (bitIndex lastByte lastBit) := by
  unfold RawMessage.bitsValue
  simp only [bitIndex] at *
  generalize (firstByte - 1) * 8 + firstBit - 1 = fbi at *
  generalize (lastByte - 1) * 8 + lastBit - 1 = lbi at *
  have hsum : m.bitsSum fbi lbi < 2 ^ 32 :=
    lt_of_lt_of_le (bitsSum_lt m hle) (Nat.pow_le_pow_right Nat.zero_lt_two (by omega))
  have hword : ∀ x : Nat, (∀ i, x.testBit i = (m.bitsSum fbi lbi).testBit i) →
      (UInt32.ofNat x).toNat = m.bitsSum fbi lbi := fun x hx => by
    rw [Nat.eq_of_testBit_eq hx]
    exact UInt32.toNat_ofNat_of_lt hsum
  refine hword _ fun i => ?_
  rw [testBit_bitsSum m hle, show lbi >>> 3 = lbi / 8 from Nat.shiftRight_eq_div_pow lbi 3,
    show fbi >>> 3 = fbi / 8 from Nat.shiftRight_eq_div_pow fbi 3,
    show lbi &&& 7 = lbi % 8 from Nat.and_pow_two_sub_one_eq_mod lbi 3,
    show fbi &&& 7 = fbi % 8 from Nat.and_pow_two_sub_one_eq_mod fbi 3]
  obtain ⟨c, hc⟩ : ∃ c, lbi / 8 = fbi / 8 + c := ⟨lbi / 8 - fbi / 8, by omega⟩
  rw [hc, Nat.add_sub_cancel_left]
  refine (congrArg (Nat.testBit · i) (?_ : _ = orTerms (bitsTerm m fbi lbi c) c)).trans ?_
  · rcases (by omega : c = 0 ∨ c = 1 ∨ c = 2 ∨ c = 3 ∨ c = 4) with rfl | rfl | rfl | rfl | rfl <;> rfl
  · rw [Bool.eq_iff_iff, testBit_orTerms, Bool.and_eq_true, decide_eq_true_eq]
    constructor
    · rintro ⟨j, hj, hbit⟩
      obtain ⟨hslot, hmask, hb⟩ := (testBit_bitsTerm m lbi hc (by omega) i).mp hbit
      exact ⟨(bitSlot_iff hc).mp ⟨j, hj, hslot, hmask⟩, hb⟩
    · rintro ⟨hi, hb⟩
      obtain ⟨j, hj, hslot, hmask⟩ := (bitSlot_iff hc).mpr hi
      exact ⟨j, hj, (testBit_bitsTerm m lbi hc (by omega) i).mpr ⟨hslot, hmask, hb⟩⟩

/-- **`Bits` reads the range bit by bit, or throws.** For every range of at most 32 bits whose
last bit index is a valid `(byte, bit)` pair (the first pair needs no check), a range whose last
byte lies in the payload gives the sum of `b_k * 2 ^ (lbi - k)` over the range, and
any other range throws `out_of_range`; the range touches at most five bytes, and in the
five-byte branch the largest shift, `32 - shift`, stays below 32. -/
theorem bits_reads_range (m : RawMessage) (firstByte firstBit lastByte lastBit : Nat)
    (hlb : 1 ≤ lastByte) (hl1 : 1 ≤ lastBit) (hl8 : lastBit ≤ 8)
    (hle : bitIndex firstByte firstBit ≤ bitIndex lastByte lastBit)
    (h32 : bitIndex lastByte lastBit - bitIndex firstByte firstBit < 32) :
    (bitIndex lastByte lastBit / 8 < m.payload.length →
      ∃ r, m.bits firstByte firstBit lastByte lastBit = pure r ∧
        r.toNat = m.bitsSum (bitIndex firstByte firstBit) (bitIndex lastByte lastBit)) ∧
    (m.payload.length ≤ bitIndex lastByte lastBit / 8 →
      m.bits firstByte firstBit lastByte lastBit =
        throw (.outOfRange "bit range exceeds available data")) ∧
    (bitsSpan firstByte firstBit lastByte lastBit).2 ≤ 5 ∧
    ((bitsSpan firstByte firstBit lastByte lastBit).2 = 5 →
      32 - (7 - bitIndex lastByte lastBit % 8) < 32) := by
  refine ⟨fun hlen => ⟨_, bits_eq_pure m hlb hl1 hl8 hle (by unfold bitIndex at hlen; omega),
    bitsValue_toNat m hle h32⟩, fun hlen => ?_, ?_⟩
  · have hthrow : m.payload.length < (bitsSpan firstByte firstBit lastByte lastBit).1 +
        (bitsSpan firstByte firstBit lastByte lastBit).2 := by
      rw [bitsSpan_eq]; omega
    simp only [RawMessage.bits, hthrow, if_true]
  · rw [bitsSpan_eq]; omega

theorem bits_reads_range_payloadType :
    let m := RawMessage.ofPayload [0x0A] 0 0 0 0
    (bitIndex 1 5 / 8 < m.payload.length →
      ∃ r, m.bits 1 1 1 5 = pure r ∧ r.toNat = m.bitsSum (bitIndex 1 1) (bitIndex 1 5)) ∧
    (m.payload.length ≤ bitIndex 1 5 / 8 →
      m.bits 1 1 1 5 = throw (.outOfRange "bit range exceeds available data")) ∧
    (bitsSpan 1 1 1 5).2 ≤ 5 ∧ ((bitsSpan 1 1 1 5).2 = 5 → 32 - (7 - bitIndex 1 5 % 8) < 32) :=
  bits_reads_range _ 1 1 1 5 (by decide) (by decide) (by decide) (by decide) (by decide)

end Dump978
