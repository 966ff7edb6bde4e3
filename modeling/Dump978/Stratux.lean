import Dump978.Fec
import Dump978.RawMessage

namespace Dump978

/-!
# The Stratux serial framer — `StratuxSerial::ParseInput` and `ParseMessage`
(`stratux_serial.cc`)

The dongle sends each message as the preamble `0A B0 CD E0`, two length bytes `b0 b1`, then
`L + 5` bytes (`L = b0 + 256 * b1`): an RSSI byte, a four-byte timestamp and `L` payload bytes.
`ParseInput` is called on every buffer the serial port delivers and keeps its parser
(`parser_state_`, `preamble_index_`, `message_length_`, `message_`) from one call to the next.

* `StratuxParser.iteration` is one pass of the `for` loop: a `PREAMBLE` mismatch after a
  partial match resets the index without consuming the byte, and `MESSAGE` copies as many
  bytes as the message still lacks.
* `parseLoop` runs the loop to the end of the buffer; it is total, so every call returns.
  It lists the arguments of each `ParseMessage` call (the message and its system timestamp).
* `referenceFrames` is the framing the format describes, on a whole stream: find the next
  preamble, read `L`, take `L + 5` bytes, go on after them.

Main results:

* `parseLoop_frames` — what one call hands to `ParseMessage`, followed by the reference
  framing of the rest, is the reference framing of the parser's held bytes and the buffer;
* `parseInputs_frames` — over any split of a stream into buffers, the messages handed to
  `ParseMessage` are the reference framing of the whole stream, and the emitted messages
  are decoded from them, equal in every field but the wall-clock `received_at`.

The clock (`system_clock::now()`) is a parameter of each call, in milliseconds since the
epoch.
-/

/-- `preamble`. -/
def stratuxPreamble : List UInt8 := [0x0A, 0xB0, 0xCD, 0xE0]

/-- `StratuxSerial::ParserState`. -/
inductive ParserState
  | preamble
  | length1
  | length2
  | message
  deriving DecidableEq, Repr

/-- The parser fields of `StratuxSerial`. The three proof fields are what every call keeps
of them: the preamble index is inside the preamble while scanning, the length read so far
fits one and two length bytes, and a message being read is shorter than its length (so the
`MESSAGE` branch always consumes). -/
structure StratuxParser where
  parserState : ParserState
  preambleIndex : Nat
  messageLength : Nat
  message : Bytes
  messageStartTimestamp : UInt64
  preambleIndex_lt : parserState = .preamble → preambleIndex < 4
  length2_bounds : parserState = .length2 → 5 ≤ messageLength ∧ messageLength < 261
  message_bounds : parserState = .message →
    message.length < messageLength ∧ 5 ≤ messageLength ∧ messageLength < 65541

/-- The constructor's state: `parser_state_(PREAMBLE)`, `preamble_index_(0)`. -/
def StratuxParser.init : StratuxParser :=
  ⟨.preamble, 0, 0, [], 0, fun _ => by decide, nofun, nofun⟩

/-- `message_start_timestamp_ = start_of_read + (distance(buf.begin(), i) / 200)`. -/
def messageStart (startOfRead : Int) (pos : Nat) : UInt64 :=
  UInt64.ofNat (wrapUnsigned 64 (startOfRead + (pos / 200 : Nat)))

/-- One pass of the loop of `ParseInput` on the bytes `b :: rest` from the iterator on, `pos`
bytes into the buffer: the parser afterwards, the bytes left, and the message when one is
complete. -/
def StratuxParser.iteration (p : StratuxParser) (startOfRead : Int) (pos : Nat) (b : UInt8)
    (rest : List UInt8) : StratuxParser × List UInt8 × Option Bytes :=
  match hs : p.parserState with
  | .preamble =>
    if b = stratuxPreamble.getD p.preambleIndex 0 then
      let start := if p.preambleIndex = 0 then messageStart startOfRead pos
        else p.messageStartTimestamp
      if h4 : p.preambleIndex + 1 ≥ 4 then
        (⟨.length1, p.preambleIndex + 1, p.messageLength, p.message, start, nofun, nofun, nofun⟩,
          rest, none)
      else
        (⟨.preamble, p.preambleIndex + 1, p.messageLength, p.message, start,
          fun _ => by omega, nofun, nofun⟩, rest, none)
    else if p.preambleIndex > 0 then
      (⟨.preamble, 0, p.messageLength, p.message, p.messageStartTimestamp,
        fun _ => by decide, nofun, nofun⟩, b :: rest, none)
    else (p, rest, none)
  | .length1 =>
    (⟨.length2, p.preambleIndex, b.toNat + 5, p.message, p.messageStartTimestamp, nofun,
      fun _ => ⟨by omega, by have := b.toNat_lt_size; simp only [UInt8.size] at this; omega⟩,
      nofun⟩, rest, none)
  | .length2 =>
    have hlen := p.length2_bounds hs
    (⟨.message, p.preambleIndex, p.messageLength + b.toNat * 256, [], p.messageStartTimestamp,
      nofun, nofun, fun _ => by
        have := b.toNat_lt_size
        simp only [UInt8.size] at this
        exact ⟨by simp only [List.length_nil]; omega, by omega, by omega⟩⟩, rest, none)
  | .message =>
    let n := min (p.messageLength - p.message.length) (b :: rest).length
    let message := p.message ++ (b :: rest).take n
    if hc : message.length = p.messageLength then
      (⟨.preamble, 0, p.messageLength, [], p.messageStartTimestamp, fun _ => by decide, nofun,
        nofun⟩, (b :: rest).drop n, some message)
    else
      (⟨.message, p.preambleIndex, p.messageLength, message, p.messageStartTimestamp, nofun,
        nofun, fun _ => by
          have := p.message_bounds hs
          refine ⟨?_, this.2⟩
          simp only [message, List.length_append, List.length_take] at hc ⊢
          omega⟩, (b :: rest).drop n, none)

/-- What the loop still has to do: two per byte left, and one for a pending retry of a byte
after a partial preamble. -/
def loopMeasure (p : StratuxParser) (i : List UInt8) : Nat :=
  2 * i.length + if p.parserState = .preamble ∧ 0 < p.preambleIndex then 1 else 0

/-- **Every pass makes progress**: the loop of `ParseInput` ends on every buffer. -/
theorem iteration_measure (p : StratuxParser) (startOfRead : Int) (pos : Nat) (b : UInt8)
    (rest : List UInt8) :
    loopMeasure (p.iteration startOfRead pos b rest).1 (p.iteration startOfRead pos b rest).2.1 <
      loopMeasure p (b :: rest) := by
  unfold StratuxParser.iteration
  split
  · next hs =>
    split_ifs <;> simp only [loopMeasure, hs, List.length_cons, true_and] <;> split <;> omega
  · next hs =>
    simp only [loopMeasure, hs, reduceCtorEq, false_and, ↓reduceIte, List.length_cons]
    omega
  · next hs =>
    simp only [loopMeasure, hs, reduceCtorEq, false_and, ↓reduceIte, List.length_cons]
    omega
  · next hs =>
    have := p.message_bounds hs
    dsimp only
    split_ifs <;>
      simp only [loopMeasure, hs, reduceCtorEq, false_and, and_false, true_and, lt_self_iff_false,
        ↓reduceIte, List.length_cons, List.length_drop] <;> omega

/-- `raw_timestamp`: bytes 1..4 of the message, least significant first. -/
def rawTimestampOf (message : Bytes) : UInt32 :=
  UInt32.ofNat ((message.getD 1 0).toNat ||| ((message.getD 2 0).toNat <<< 8) |||
    ((message.getD 3 0).toNat <<< 16) ||| ((message.getD 4 0).toNat <<< 24))

/-- The loop of `ParseInput` from the iterator on: the parser at the end and the arguments
of every `ParseMessage` call, in order. `previousSys` and `previousRaw` are the locals
`previous_sys_timestamp` and `previous_raw_timestamp`; `size` is `buf.size()`. -/
def parseLoop (startOfRead : Int) (size : Nat) (p : StratuxParser) (previousSys : UInt64)
    (previousRaw : UInt32) (i : List UInt8) : StratuxParser × List (Bytes × UInt64) :=
  match i with
  | [] => (p, [])
  | b :: rest =>
    match _h : p.iteration startOfRead (size - (b :: rest).length) b rest with
    | (p', i', none) => parseLoop startOfRead size p' previousSys previousRaw i'
    | (p', i', some message) =>
      let raw := rawTimestampOf message
      let (sys, previousSys', previousRaw') :=
        if previousSys ≠ 0 ∧ raw > previousRaw then
          (previousSys + ((raw - previousRaw) / 4000).toUInt64, previousSys, previousRaw)
        else (p'.messageStartTimestamp, p'.messageStartTimestamp, raw)
      let r := parseLoop startOfRead size p' previousSys' previousRaw' i'
      (r.1, (message, sys) :: r.2)
termination_by loopMeasure p i
decreasing_by
  all_goals
    have := iteration_measure p startOfRead (size - (b :: rest).length) b rest
    rw [_h] at this
    exact this

/-- The `switch (payload.size())` of `ParseMessage`: an uplink or a long downlink frame is
corrected as one, any other size has no result. -/
def correctBySize (fec : FEC) (payload : Bytes) : Option (Bool × Bytes × Nat) :=
  if payload.length = uplinkBytes then some (fec.correctUplink payload [])
  else if payload.length = downlinkLongBytes then some (fec.correctDownlink payload [])
  else none

/-- `ParseMessage(message, sys_timestamp)`: the RSSI byte (signed), the raw timestamp and the
corrected payload; a payload of another size, or one the FEC rejects, is dropped. -/
def parseMessage (fec : FEC) (message : Bytes) (sysTimestamp : UInt64) : Option RawMessage :=
  let rawRssi : Int := if (message.getD 0 0).toNat < 128 then (message.getD 0 0).toNat
    else (message.getD 0 0).toNat - 256
  let rssi := Float.ofInt rawRssi
  let rawTimestamp := rawTimestampOf message
  match correctBySize fec (message.drop 5) with
  | none => none
  | some (success, corrected, errors) =>
    if !success then none
    else some (RawMessage.ofPayload corrected sysTimestamp (UInt32.ofNat errors) rssi
      rawTimestamp.toUInt64)

/-- `ParseInput(buf)` at wall-clock time `now`: the parser afterwards, the `ParseMessage`
calls it made, and the messages it dispatches (none when no call succeeded). -/
def StratuxParser.parseInput (fec : FEC) (now : Int) (p : StratuxParser) (buf : Bytes) :
    StratuxParser × List (Bytes × UInt64) × List RawMessage :=
  let r := parseLoop (now - (buf.length / 200 : Nat)) buf.length p 0 0 buf
  (r.1, r.2, r.2.filterMap fun call => parseMessage fec call.1 call.2)

/-- Successive `ParseInput` calls, one per buffer read, each with its clock reading. -/
def StratuxParser.parseInputs (fec : FEC) :
    StratuxParser → List (Int × Bytes) → StratuxParser × List (Bytes × UInt64) × List RawMessage
  | p, [] => (p, [], [])
  | p, (now, buf) :: reads =>
    let r := p.parseInput fec now buf
    let rs := r.1.parseInputs fec reads
    (rs.1, r.2.1 ++ rs.2.1, r.2.2 ++ rs.2.2)

/-! ### The reference framing -/

/-- The stream after the first preamble in it, if there is one. -/
def afterPreamble : List UInt8 → Option (List UInt8)
  | [] => none
  | b :: rest =>
    if stratuxPreamble.isPrefixOf (b :: rest) then some ((b :: rest).drop 4)
    else afterPreamble rest

theorem afterPreamble_length {s r : List UInt8} (h : afterPreamble s = some r) :
    r.length + 4 ≤ s.length := by
  induction s with
  | nil => cases h
  | cons b rest ih =>
    rw [afterPreamble] at h
    split_ifs at h with hpre
    · cases h
      have := ((List.isPrefixOf_iff_prefix).mp hpre).length_le
      simp only [List.length_drop, stratuxPreamble, List.length_cons] at this ⊢
      omega
    · have := ih h
      simp only [List.length_cons]
      omega

/-- The framing of a whole stream: after each preamble, `L = b0 + 256 * b1`, then `L + 5`
bytes as one message; an incomplete last message is not a frame. -/
def referenceFrames (stream : List UInt8) : List Bytes :=
  match h : afterPreamble stream with
  | some (b0 :: b1 :: body) =>
    let n := b0.toNat + 256 * b1.toNat + 5
    if n ≤ body.length then body.take n :: referenceFrames (body.drop n) else []
  | _ => []
termination_by stream.length
decreasing_by
  have := afterPreamble_length h
  simp only [List.length_cons, List.length_drop] at *
  omega

theorem referenceFrames_eq (stream : List UInt8) :
    referenceFrames stream =
      match afterPreamble stream with
      | some (b0 :: b1 :: body) =>
        if b0.toNat + 256 * b1.toNat + 5 ≤ body.length then
          body.take (b0.toNat + 256 * b1.toNat + 5) ::
            referenceFrames (body.drop (b0.toNat + 256 * b1.toNat + 5))
        else []
      | _ => [] := by
  rw [referenceFrames]
  split <;> simp_all

theorem referenceFrames_of_afterPreamble {s body : List UInt8} {b0 b1 : UInt8}
    (h : afterPreamble s = some (b0 :: b1 :: body)) :
    referenceFrames s =
      if b0.toNat + 256 * b1.toNat + 5 ≤ body.length then
        body.take (b0.toNat + 256 * b1.toNat + 5) ::
          referenceFrames (body.drop (b0.toNat + 256 * b1.toNat + 5))
      else [] := by
  rw [referenceFrames_eq, h]

theorem referenceFrames_congr {s s' : List UInt8} (h : afterPreamble s = afterPreamble s') :
    referenceFrames s = referenceFrames s' := by
  rw [referenceFrames_eq, referenceFrames_eq s', h]

/-! ### Where the next preamble is -/

theorem afterPreamble_preamble (rest : List UInt8) :
    afterPreamble (stratuxPreamble ++ rest) = some rest := by
  simp [afterPreamble, stratuxPreamble, List.isPrefixOf]

theorem afterPreamble_cons_of_ne {b : UInt8} (hb : b ≠ 0x0A) (rest : List UInt8) :
    afterPreamble (b :: rest) = afterPreamble rest := by
  rw [afterPreamble, if_neg]
  simp [stratuxPreamble, List.isPrefixOf, Ne.symm hb]

/-- A partial preamble followed by a byte that does not continue it holds no preamble
start: the search goes on from that byte. -/
theorem afterPreamble_mismatch {k : Nat} (hk0 : 0 < k) (hk : k < 4) {b : UInt8}
    (hb : b ≠ stratuxPreamble.getD k 0) (rest : List UInt8) :
    afterPreamble (stratuxPreamble.take k ++ b :: rest) = afterPreamble (b :: rest) := by
  obtain rfl | rfl | rfl : k = 1 ∨ k = 2 ∨ k = 3 := by omega
  all_goals simp only [stratuxPreamble, List.getD_cons_succ, List.getD_cons_zero] at hb
  · show afterPreamble (0x0A :: b :: rest) = _
    rw [afterPreamble, if_neg (by simp [stratuxPreamble, List.isPrefixOf, Ne.symm hb])]
  · show afterPreamble (0x0A :: 0xB0 :: b :: rest) = _
    rw [afterPreamble, if_neg (by simp [stratuxPreamble, List.isPrefixOf, Ne.symm hb]),
      afterPreamble_cons_of_ne (by decide)]
  · show afterPreamble (0x0A :: 0xB0 :: 0xCD :: b :: rest) = _
    rw [afterPreamble, if_neg (by simp [stratuxPreamble, List.isPrefixOf, Ne.symm hb]),
      afterPreamble_cons_of_ne (by decide), afterPreamble_cons_of_ne (by decide)]

/-! ### The parser against the reference framing -/

/-- The bytes of the stream the parser holds: the matched part of the preamble, or the
preamble, the length bytes and the message read so far. -/
def StratuxParser.pending (p : StratuxParser) : List UInt8 :=
  match p.parserState with
  | .preamble => stratuxPreamble.take p.preambleIndex
  | .length1 => stratuxPreamble
  | .length2 => stratuxPreamble ++ [UInt8.ofNat (p.messageLength - 5)]
  | .message => stratuxPreamble ++ UInt8.ofNat ((p.messageLength - 5) % 256) ::
      UInt8.ofNat ((p.messageLength - 5) / 256) :: p.message

theorem uint8_ofNat_toNat (b : UInt8) : UInt8.ofNat b.toNat = b :=
  UInt8.toNat.inj (UInt8.toNat_ofNat_of_lt b.toNat_lt_size)

theorem take_succ_preamble : ∀ k < 4,
    stratuxPreamble.take k ++ [stratuxPreamble.getD k 0] = stratuxPreamble.take (k + 1) := by
  decide

/-- **One pass against the reference**: the message a pass completes, followed by the
framing of what the parser then holds and the bytes left, is the framing before the pass —
whatever the stream goes on with. -/
theorem iteration_frames (p : StratuxParser) (startOfRead : Int) (pos : Nat) (b : UInt8)
    (rest j : List UInt8) :
    referenceFrames (p.pending ++ (b :: rest) ++ j) =
      (p.iteration startOfRead pos b rest).2.2.toList ++
        referenceFrames ((p.iteration startOfRead pos b rest).1.pending ++
          (p.iteration startOfRead pos b rest).2.1 ++ j) := by
  unfold StratuxParser.iteration
  split
  · next hs =>
    have hk := p.preambleIndex_lt hs
    have hpend : p.pending = stratuxPreamble.take p.preambleIndex := by
      simp [StratuxParser.pending, hs]
    rw [hpend]
    by_cases hb : b = stratuxPreamble.getD p.preambleIndex 0
    · have htake : stratuxPreamble.take p.preambleIndex ++ [b] =
          stratuxPreamble.take (p.preambleIndex + 1) := hb ▸ take_succ_preamble _ hk
      have hsplit : stratuxPreamble.take p.preambleIndex ++ (b :: rest) ++ j =
          stratuxPreamble.take p.preambleIndex ++ [b] ++ rest ++ j := by simp
      rw [if_pos hb]
      by_cases h4 : p.preambleIndex + 1 ≥ 4
      · have hfull : stratuxPreamble.take p.preambleIndex ++ [b] = stratuxPreamble := by
          rw [htake, show p.preambleIndex + 1 = 4 by omega]
          rfl
        rw [dif_pos h4]
        dsimp only [StratuxParser.pending, Option.toList]
        rw [List.nil_append, hsplit, hfull]
      · rw [dif_neg h4]
        dsimp only [StratuxParser.pending, Option.toList]
        rw [List.nil_append, hsplit, htake]
    · rw [if_neg hb]
      split
      · next hpos =>
        dsimp only [StratuxParser.pending, Option.toList]
        simp only [List.nil_append, List.take_zero, List.append_assoc, List.cons_append]
        exact referenceFrames_congr (afterPreamble_mismatch hpos hk hb _)
      · have h0 : p.preambleIndex = 0 := by omega
        rw [h0] at hb
        dsimp only [Option.toList]
        rw [hpend, h0]
        simp only [List.nil_append, List.take_zero, List.cons_append]
        exact referenceFrames_congr (afterPreamble_cons_of_ne hb _)
  · next hs =>
    simp [StratuxParser.pending, hs, uint8_ofNat_toNat]
  · next hs =>
    have hlen := p.length2_bounds hs
    have hb := b.toNat_lt_size
    have hlow : (p.messageLength + b.toNat * 256 - 5) % 256 = p.messageLength - 5 := by
      rw [show p.messageLength + b.toNat * 256 - 5 = p.messageLength - 5 + b.toNat * 256 by omega,
        Nat.add_mul_mod_self_right, Nat.mod_eq_of_lt (by omega)]
    have hhigh : (p.messageLength + b.toNat * 256 - 5) / 256 = b.toNat := by
      rw [show p.messageLength + b.toNat * 256 - 5 = p.messageLength - 5 + b.toNat * 256 by omega,
        Nat.add_mul_div_right _ _ (by decide), Nat.div_eq_of_lt (by omega), Nat.zero_add]
    simp [StratuxParser.pending, hs, hlow, hhigh, uint8_ofNat_toNat]
  · next hs =>
    have hmsg := p.message_bounds hs
    have hpend : p.pending = stratuxPreamble ++ UInt8.ofNat ((p.messageLength - 5) % 256) ::
        UInt8.ofNat ((p.messageLength - 5) / 256) :: p.message := by
      simp [StratuxParser.pending, hs]
    dsimp only
    split
    · next hc =>
      simp only [List.length_append, List.length_take] at hc
      have hn : p.message.length + min (p.messageLength - p.message.length) (b :: rest).length =
          p.messageLength := by omega
      have hsize : UInt8.size = 256 := rfl
      have hlength : (UInt8.ofNat ((p.messageLength - 5) % 256)).toNat +
          256 * (UInt8.ofNat ((p.messageLength - 5) / 256)).toNat + 5 = p.messageLength := by
        rw [UInt8.toNat_ofNat_of_lt (by rw [hsize]; omega),
          UInt8.toNat_ofNat_of_lt (by rw [hsize]; omega)]
        omega
      rw [hpend, List.append_assoc, List.append_assoc, List.cons_append, List.cons_append,
        referenceFrames_of_afterPreamble (afterPreamble_preamble _)]
      dsimp only [StratuxParser.pending, Option.toList]
      rw [hlength]
      generalize hi : b :: rest = i at hn ⊢
      have hni := min_le_right (p.messageLength - p.message.length) i.length
      generalize min (p.messageLength - p.message.length) i.length = n at hn hni ⊢
      have htake : (p.message ++ (i ++ j)).take p.messageLength = p.message ++ i.take n := by
        rw [List.take_append_eq_append_take, List.take_of_length_le (by omega),
          show p.messageLength - p.message.length = n by omega, List.take_append_of_le_length hni]
      have hdrop : (p.message ++ (i ++ j)).drop p.messageLength = i.drop n ++ j := by
        rw [List.drop_append_eq_append_drop, List.drop_of_length_le (by omega),
          show p.messageLength - p.message.length = n by omega, List.drop_append_of_le_length hni,
          List.nil_append]
      rw [if_pos (by simp only [List.length_append]; omega), htake, hdrop]
      rfl
    · next hc =>
      simp only [List.length_append, List.length_take] at hc
      have hall : min (p.messageLength - p.message.length) (b :: rest).length =
          (b :: rest).length := by omega
      rw [hpend]
      dsimp only [StratuxParser.pending, Option.toList]
      rw [hall, List.take_of_length_le (Nat.le_refl _),
        List.drop_of_length_le (Nat.le_refl _)]
      simp

section Loop

variable (startOfRead : Int) (size : Nat) {p p' : StratuxParser} {previousSys : UInt64}
  {previousRaw : UInt32} {b : UInt8} {rest i' : List UInt8}

theorem parseLoop_cons_none
    (h : p.iteration startOfRead (size - (b :: rest).length) b rest = (p', i', none)) :
    parseLoop startOfRead size p previousSys previousRaw (b :: rest) =
      parseLoop startOfRead size p' previousSys previousRaw i' := by
  rw [parseLoop.eq_2]
  split <;> simp_all

theorem parseLoop_cons_some {message : Bytes} {sys previousSys' : UInt64} {previousRaw' : UInt32}
    (h : p.iteration startOfRead (size - (b :: rest).length) b rest = (p', i', some message))
    (ht : (if previousSys ≠ 0 ∧ rawTimestampOf message > previousRaw then
        (previousSys + ((rawTimestampOf message - previousRaw) / 4000).toUInt64, previousSys,
          previousRaw)
      else (p'.messageStartTimestamp, p'.messageStartTimestamp, rawTimestampOf message)) =
        (sys, previousSys', previousRaw')) :
    parseLoop startOfRead size p previousSys previousRaw (b :: rest) =
      ((parseLoop startOfRead size p' previousSys' previousRaw' i').1,
        (message, sys) :: (parseLoop startOfRead size p' previousSys' previousRaw' i').2) := by
  rw [parseLoop.eq_2]
  split <;> simp_all

end Loop

/-- **One call against the reference**: the messages a call hands to `ParseMessage`,
followed by the framing of what the parser then holds, are the framing of what it held
before and the buffer — whatever the stream goes on with. -/
theorem parseLoop_frames (startOfRead : Int) (size : Nat) (p : StratuxParser)
    (previousSys : UInt64) (previousRaw : UInt32) (i j : List UInt8) :
    referenceFrames (p.pending ++ i ++ j) =
      (parseLoop startOfRead size p previousSys previousRaw i).2.map Prod.fst ++
        referenceFrames ((parseLoop startOfRead size p previousSys previousRaw i).1.pending ++ j) := by
  induction p, previousSys, previousRaw, i using parseLoop.induct startOfRead size with
  | case1 p => simp [parseLoop]
  | case2 p previousSys previousRaw b rest p' i' h ih =>
    have hpass := iteration_frames p startOfRead (size - (b :: rest).length) b rest j
    rw [h] at hpass
    rw [hpass, parseLoop_cons_none startOfRead size h, Option.toList, List.nil_append, ih]
  | case3 p previousSys previousRaw b rest p' i' message h raw sys previousSys' previousRaw' ht ih =>
    have hpass := iteration_frames p startOfRead (size - (b :: rest).length) b rest j
    rw [h] at hpass
    rw [dite_eq_ite] at ht
    rw [hpass, parseLoop_cons_some startOfRead size h ht, Option.toList, ih]
    rfl

theorem afterPreamble_take_preamble : ∀ k < 4, afterPreamble (stratuxPreamble.take k) = none := by
  decide

/-- What the parser holds is never a whole frame: it is the start of one. -/
theorem referenceFrames_pending (p : StratuxParser) : referenceFrames p.pending = [] := by
  unfold StratuxParser.pending
  split
  · next hs => rw [referenceFrames_eq, afterPreamble_take_preamble _ (p.preambleIndex_lt hs)]
  · show referenceFrames (stratuxPreamble ++ []) = []
    rw [referenceFrames_eq, afterPreamble_preamble]
  · rw [referenceFrames_eq, afterPreamble_preamble]
  · next hs =>
    have hmsg := p.message_bounds hs
    have hsize : UInt8.size = 256 := rfl
    rw [referenceFrames_of_afterPreamble (afterPreamble_preamble _), if_neg]
    rw [UInt8.toNat_ofNat_of_lt (by rw [hsize]; omega),
      UInt8.toNat_ofNat_of_lt (by rw [hsize]; omega)]
    omega

/-- Over successive calls, the framing of the held bytes and the buffers, followed by any
continuation, is what the calls handed on followed by the framing of what is held after. -/
theorem parseInputs_frames (fec : FEC) (p : StratuxParser) (reads : List (Int × Bytes))
    (j : List UInt8) :
    referenceFrames (p.pending ++ (reads.map Prod.snd).flatten ++ j) =
      (p.parseInputs fec reads).2.1.map Prod.fst ++
        referenceFrames ((p.parseInputs fec reads).1.pending ++ j) := by
  induction reads generalizing p with
  | nil => simp [StratuxParser.parseInputs]
  | cons read reads ih =>
    obtain ⟨now, buf⟩ := read
    rw [List.map_cons, List.flatten_cons, ← List.append_assoc, List.append_assoc (p.pending ++ buf),
      parseLoop_frames (now - (buf.length / 200 : Nat)) buf.length p 0 0 buf, ← List.append_assoc,
      ih]
    simp [StratuxParser.parseInputs, StratuxParser.parseInput]

/-- The messages successive calls dispatch are the successful `ParseMessage` calls. -/
theorem parseInputs_messages (fec : FEC) (p : StratuxParser) (reads : List (Int × Bytes)) :
    (p.parseInputs fec reads).2.2 =
      (p.parseInputs fec reads).2.1.filterMap fun call => parseMessage fec call.1 call.2 := by
  induction reads generalizing p with
  | nil => rfl
  | cons read reads ih =>
    simp only [StratuxParser.parseInputs, List.filterMap_append, ih]
    rfl

/-- `ParseMessage` uses the system timestamp only as the message's `received_at`. -/
theorem parseMessage_untimed (fec : FEC) (message : Bytes) (sysTimestamp : UInt64) :
    (parseMessage fec message sysTimestamp).map (fun m => { m with receivedAt := 0 }) =
      parseMessage fec message 0 := by
  unfold parseMessage
  rcases correctBySize fec (message.drop 5) with _ | ⟨success, corrected, errors⟩
  · rfl
  · cases success <;> rfl

/-- **The framer is the reference framing**: for every stream and every split of it into
buffers, the messages handed to `ParseMessage` are the reference framing of the whole stream,
and the dispatched messages are decoded from them, equal in every field but `received_at`. -/
theorem parseInputs_reference (fec : FEC) (reads : List (Int × Bytes)) :
    (StratuxParser.init.parseInputs fec reads).2.1.map Prod.fst =
        referenceFrames (reads.map Prod.snd).flatten ∧
      (StratuxParser.init.parseInputs fec reads).2.2.map (fun m => { m with receivedAt := 0 }) =
        (referenceFrames (reads.map Prod.snd).flatten).filterMap fun message =>
          parseMessage fec message 0 := by
  have hframes := parseInputs_frames fec StratuxParser.init reads []
  simp only [List.append_nil, referenceFrames_pending] at hframes
  rw [show StratuxParser.init.pending = [] from rfl, List.nil_append] at hframes
  refine ⟨hframes.symm, ?_⟩
  rw [parseInputs_messages, List.map_filterMap, hframes, List.filterMap_map]
  congr 1
  funext call
  exact parseMessage_untimed fec call.1 call.2

end Dump978
