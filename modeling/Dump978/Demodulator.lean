import Dump978.Fec

namespace Dump978

/-!
# Demodulator — sync search and bit slicing (`demodulator.cc`, `TwoMegDemodulator`)

`TwoMegDemodulator::Demodulate(begin, end)` scans a span of phase samples, two samples per
bit, for the 36-bit downlink and uplink sync words, and at each match slices the frame's
bits, error-corrects them (`FEC`) and returns the frames it found with the sample range each
occupies.

Positions are `Int`s relative to `begin`: the span is the list `phase`, and a read at `p`
is `readPhase phase p`, which is `none` when `p` lies outside `[begin, end)`. Every function
that reads the span returns `Option`, and `none` means "read outside the span", so a
result `some _` is a proof that no read left it. The loop runs on fuel; running out of fuel
also gives `none`.

The default build is modelled: `AUTO_CENTER` is not defined, so `DemodBits` slices at the
fixed thresholds `0, 0` and no sync word is rechecked.

Main results:

* `demodulate_frames` — `Demodulate` returns, for every span, frames in increasing,
  non-overlapping order, each inside the span, starting before `end - NumTrailingSamples()`,
  with one of the three payload sizes and the sample length that goes with it;
* `demodulate_spec` — more precisely, a frame is found only once the probe has passed its
  whole sync word, so it starts `SYNC_BITS * 2 - 4` samples further before that limit.
-/

/-- `PhaseDifference(from, to)`: `to - from` wrapped into `int16_t`. -/
def phaseDifference (fromPhase toPhase : UInt16) : Int :=
  let difference : Int := toPhase.toNat - fromPhase.toNat
  if difference ≥ 32768 then difference - 65536
  else if difference < -32768 then difference + 65536
  else difference

/-- `diff &= (diff - 1)`: clear the lowest set bit. -/
def clearLowestBit (diff : BitVec 64) : BitVec 64 := diff &&& (diff - 1)

/-- `SyncWordMatch(word, expected)`: at most four bits differ, counted by clearing the lowest
set bit of `word ^ expected` up to four times. -/
def syncWordMatch (word expected : BitVec 64) : Bool :=
  word == expected ||
    let diff := clearLowestBit (word ^^^ expected)
    diff == 0 ||
      let diff := clearLowestBit diff
      diff == 0 ||
        let diff := clearLowestBit diff
        diff == 0 || clearLowestBit diff == 0

/-! ### Reading the span -/

/-- `phase[p]` for a position relative to `begin`; `none` outside `[begin, end)`. -/
def readPhase (phase : PhaseBuffer) (p : Int) : Option UInt16 :=
  if 0 ≤ p then phase[p.toNat]? else none

/-- One bit of `DemodBits`: the phase difference of the sample pair at `p`, sliced into
(bit set, erasure). -/
def demodBit (phase : PhaseBuffer) (zeroSlice oneSlice : Int) (p : Int) : Option (Bool × Bool) := do
  let a ← readPhase phase p
  let b ← readPhase phase (p + 1)
  let d := phaseDifference a b
  pure (decide (d > oneSlice), decide (¬ d > oneSlice ∧ d > zeroSlice))

/-- The last `n` bits of a byte from the pair at `p`: their value (`b |= 0x80 >> k`) and
whether one is an erasure. -/
def demodByteBits (phase : PhaseBuffer) (zeroSlice oneSlice : Int) : Int → Nat → Option (Nat × Bool)
  | _, 0 => some (0, false)
  | p, n + 1 => do
    let (bit, erasure) ← demodBit phase zeroSlice oneSlice p
    let (rest, erasures) ← demodByteBits phase zeroSlice oneSlice (p + 2) n
    pure ((if bit then 2 ^ n else 0) + rest, erasure || erasures)

/-- One byte of `DemodBits`: the eight pairs from `p`, most significant bit first. -/
def demodByte (phase : PhaseBuffer) (zeroSlice oneSlice : Int) (p : Int) : Option (UInt8 × Bool) :=
  (demodByteBits phase zeroSlice oneSlice p 8).map fun r => (UInt8.ofNat r.1, r.2)

/-- The loop of `DemodBits` from byte `i`, `n` bytes left, the phase pointer at `p`: the
bytes and the indices of those with an erasure. -/
def demodBitsFrom (phase : PhaseBuffer) (zeroSlice oneSlice : Int) :
    Int → Nat → Nat → Option (Bytes × List Nat)
  | _, _, 0 => some ([], [])
  | p, i, n + 1 => do
    let (b, erasure) ← demodByte phase zeroSlice oneSlice p
    let (rest, erasures) ← demodBitsFrom phase zeroSlice oneSlice (p + 16) (i + 1) n
    pure (b :: rest, if erasure then i :: erasures else erasures)

/-- `DemodBits(phase, bytes, zero_slice, one_slice)`. -/
def demodBits (phase : PhaseBuffer) (p : Int) (bytes : Nat) (zeroSlice oneSlice : Int) :
    Option (Bytes × List Nat) :=
  demodBitsFrom phase zeroSlice oneSlice p 0 bytes

/-! ### Frames -/

/-- `Demodulator::Message`: `beginPos` and `endPos` are its `begin` and `end` iterators, as
positions relative to the span's `begin`. -/
structure Message where
  payload : Bytes
  correctedErrors : Nat
  beginPos : Int
  endPos : Int

/-- `DemodOneDownlink(start)`: `some none` when error correction fails. -/
def demodOneDownlink (fec : FEC) (phase : PhaseBuffer) (start : Int) : Option (Option Message) := do
  let (raw, erasures) ← demodBits phase (start + syncBits * 2) downlinkLongBytes 0 0
  let (success, corrected, errors) := fec.correctDownlink raw erasures
  if !success then pure none
  else
    let bits := if corrected.length = downlinkLongDataBytes then downlinkLongBits else downlinkShortBits
    pure (some ⟨corrected, errors, start, start + (syncBits + bits) * 2⟩)

/-- `DemodOneUplink(start)`. -/
def demodOneUplink (fec : FEC) (phase : PhaseBuffer) (start : Int) : Option (Option Message) := do
  let (raw, erasures) ← demodBits phase (start + syncBits * 2) uplinkBytes 0 0
  let (success, corrected, errors) := fec.correctUplink raw erasures
  if !success then pure none
  else pure (some ⟨corrected, errors, start, start + (syncBits + uplinkBits) * 2⟩)

/-- `DemodBest(start, downlink)`: demodulate at `start` and `start + 1`, keep the one with
fewer corrected errors (a failure counts 9999), the first on a tie. -/
def demodBest (fec : FEC) (phase : PhaseBuffer) (start : Int) (downlink : Bool) :
    Option (Option Message) := do
  let demodOne := if downlink then demodOneDownlink fec phase else demodOneUplink fec phase
  let message0 ← demodOne start
  let message1 ← demodOne (start + 1)
  if message0.isNone && message1.isNone then pure none
  else
    let errors0 : Nat := (message0.map (·.correctedErrors)).getD 9999
    let errors1 : Nat := (message1.map (·.correctedErrors)).getD 9999
    pure (if errors0 ≤ errors1 then message0 else message1)

/-! ### The scan -/

/-- `NumTrailingSamples()`, also the `trailing_samples` of `Demodulate`. -/
@[simp] def numTrailingSamples : Nat := (syncBits + uplinkBits) * 2

/-- `SYNC_MASK`: the low 36 bits. -/
def syncMask : BitVec 64 := (1 <<< syncBits) - 1

/-- `((sync << 1) | bit) & SYNC_MASK`. -/
def shiftSync (sync : BitVec 64) (bit : Bool) : BitVec 64 :=
  ((sync <<< 1) ||| (if bit then 1 else 0)) &&& syncMask

/-- The locals of the scan loop. -/
structure DemodState where
  probe : Int
  syncBits : UInt32
  sync0 : BitVec 64
  sync1 : BitVec 64
  messages : List Message

/-- The state before the first pass. -/
def DemodState.init : DemodState := ⟨0, 0, 0, 0, []⟩

/-- One of the four checks the loop makes at a full sync register: the register, the start
offset from `probe - SYNC_BITS * 2`, the sync word and whether it is a downlink frame. -/
structure SyncCheck where
  sync : BitVec 64
  offset : Int
  word : BitVec 64
  downlink : Bool

/-- The four checks, in the order of the loop's `if`s. -/
def syncChecks (sync0 sync1 : BitVec 64) : List SyncCheck :=
  [⟨sync0, 2, downlinkSyncWord, true⟩, ⟨sync1, 3, downlinkSyncWord, true⟩,
    ⟨sync0, 2, uplinkSyncWord, false⟩, ⟨sync1, 3, uplinkSyncWord, false⟩]

/-- The loop's `if (SyncWordMatch(...)) { ... DemodBest(start, ...); if (message) ... }`
blocks: the first matching check whose `DemodBest` finds a frame gives it. -/
def firstFrame (fec : FEC) (phase : PhaseBuffer) (probe : Int) : List SyncCheck → Option (Option Message)
  | [] => pure none
  | c :: rest =>
    if syncWordMatch c.sync c.word then do
      match ← demodBest fec phase (probe - syncBits * 2 + c.offset) c.downlink with
      | some message => pure (some message)
      | none => firstFrame fec phase probe rest
    else firstFrame fec phase probe rest

/-- The loop body's first lines: the phase differences at `probe` shifted into the sync
registers, and `++sync_bits`. -/
def DemodState.shift (s : DemodState) (p0 p1 p2 : UInt16) : DemodState :=
  { s with
    sync0 := shiftSync s.sync0 (phaseDifference p0 p1 > 0)
    sync1 := shiftSync s.sync1 (phaseDifference p1 p2 > 0)
    syncBits := s.syncBits + 1 }

/-- The loop body at `probe`, up to the `probe += 2` of the `for`. -/
def demodStep (fec : FEC) (phase : PhaseBuffer) (s : DemodState) : Option DemodState := do
  let p0 ← readPhase phase s.probe
  let p1 ← readPhase phase (s.probe + 1)
  let p2 ← readPhase phase (s.probe + 2)
  let s := s.shift p0 p1 p2
  if s.syncBits.toNat < syncBits then pure s
  else
    match ← firstFrame fec phase s.probe (syncChecks s.sync0 s.sync1) with
    | some message =>
      pure { s with probe := message.endPos - 2, syncBits := 0, messages := s.messages ++ [message] }
    | none => pure s

/-- The `for (probe = begin; probe < limit; probe += 2)` loop. -/
def demodLoop (fec : FEC) (phase : PhaseBuffer) (limit : Int) : Nat → DemodState → Option (List Message)
  | 0, _ => none
  | fuel + 1, s =>
    if s.probe < limit then do
      let s ← demodStep fec phase s
      demodLoop fec phase limit fuel { s with probe := s.probe + 2 }
    else pure s.messages

/-- `TwoMegDemodulator::Demodulate(begin, end)` on the span `phase`. The loop advances `probe`
by at least two per pass, so `phase.length` passes are enough (`demodulate_frames`). -/
def demodulate (fec : FEC) (phase : PhaseBuffer) : Option (List Message) :=
  if phase.length < numTrailingSamples then pure []
  else demodLoop fec phase (phase.length - numTrailingSamples) phase.length DemodState.init

/-! ### Reads inside the span -/

section Reads

variable {phase : PhaseBuffer} (zeroSlice oneSlice : Int)

theorem exists_readPhase {p : Int} (h0 : 0 ≤ p) (h : p < phase.length) :
    ∃ v, readPhase phase p = some v := by
  simp only [readPhase, h0, if_true]
  exact ⟨_, List.getElem?_eq_getElem (by omega)⟩

theorem exists_demodBit {p : Int} (h0 : 0 ≤ p) (h : p + 2 ≤ phase.length) :
    ∃ r, demodBit phase zeroSlice oneSlice p = some r := by
  obtain ⟨a, ha⟩ := exists_readPhase h0 (by omega : p < phase.length)
  obtain ⟨b, hb⟩ := exists_readPhase (by omega : 0 ≤ p + 1) (by omega : p + 1 < phase.length)
  simp only [demodBit, ha, hb, Option.bind_eq_bind, Option.some_bind]
  exact ⟨_, rfl⟩

theorem exists_demodByteBits {p : Int} {n : Nat} (h0 : 0 ≤ p) (h : p + 2 * n ≤ phase.length) :
    ∃ r, demodByteBits phase zeroSlice oneSlice p n = some r := by
  induction n generalizing p with
  | zero => exact ⟨_, rfl⟩
  | succ n ih =>
    obtain ⟨⟨bit, erasure⟩, hbit⟩ := exists_demodBit zeroSlice oneSlice h0
      (by omega : p + 2 ≤ phase.length)
    obtain ⟨⟨rest, erasures⟩, hrest⟩ := ih (by omega : 0 ≤ p + 2) (by omega)
    simp only [demodByteBits, hbit, hrest, Option.bind_eq_bind, Option.some_bind]
    exact ⟨_, rfl⟩

theorem exists_demodByte {p : Int} (h0 : 0 ≤ p) (h : p + 16 ≤ phase.length) :
    ∃ r, demodByte phase zeroSlice oneSlice p = some r := by
  obtain ⟨r, hr⟩ := exists_demodByteBits zeroSlice oneSlice h0
    (show p + 2 * ((8 : Nat) : Int) ≤ phase.length by omega)
  exact ⟨_, by rw [demodByte, hr]; rfl⟩

/-- `DemodBits` over bytes that lie inside the span returns one byte per byte, and erasure
indices among them. -/
theorem demodBitsFrom_spec {p : Int} (i : Nat) {n : Nat} (h0 : 0 ≤ p)
    (h : p + 16 * n ≤ phase.length) :
    ∃ raw erasures, demodBitsFrom phase zeroSlice oneSlice p i n = some (raw, erasures) ∧
      raw.length = n ∧ ∀ e ∈ erasures, i ≤ e ∧ e < i + n := by
  induction n generalizing p i with
  | zero => exact ⟨[], [], rfl, rfl, by simp⟩
  | succ n ih =>
    obtain ⟨⟨b, erasure⟩, hb⟩ := exists_demodByte zeroSlice oneSlice h0
      (by omega : p + 16 ≤ phase.length)
    obtain ⟨rest, erasures, hrest, hlen, hes⟩ := ih (i + 1) (by omega : 0 ≤ p + 16) (by omega)
    refine ⟨b :: rest, if erasure then i :: erasures else erasures, ?_, by simp [hlen], ?_⟩
    · simp only [demodBitsFrom, hb, hrest, Option.bind_eq_bind, Option.some_bind]; rfl
    · intro e he
      cases erasure <;> simp only [Bool.false_eq_true, if_false, if_true, List.mem_cons] at he
      · have := hes e he; omega
      · rcases he with rfl | he
        · omega
        · have := hes e he; omega

end Reads

/-! ### Frames found at a start position -/

/-- The three frame kinds: a payload size and the span `(SYNC_BITS + bits) * 2` that goes
with it. -/
def FrameShape (m : Message) : Prop :=
  (m.payload.length = downlinkShortDataBytes ∧
      m.endPos = m.beginPos + (syncBits + downlinkShortBits) * 2) ∨
    (m.payload.length = downlinkLongDataBytes ∧
      m.endPos = m.beginPos + (syncBits + downlinkLongBits) * 2) ∨
    (m.payload.length = uplinkDataBytes ∧ m.endPos = m.beginPos + (syncBits + uplinkBits) * 2)

/-- A frame spans more than its sync word and at most `NumTrailingSamples()`. -/
theorem FrameShape.span {m : Message} (h : FrameShape m) :
    m.beginPos + syncBits * 2 < m.endPos ∧ m.endPos ≤ m.beginPos + numTrailingSamples := by
  simp only [FrameShape] at h
  simp at h ⊢
  omega

section Frames

variable (fec : FEC) {phase : PhaseBuffer}

theorem demodOneDownlink_spec {start : Int} (h0 : 0 ≤ start)
    (h : start + numTrailingSamples ≤ phase.length) :
    ∃ r, demodOneDownlink fec phase start = some r ∧ ∀ m ∈ r, m.beginPos = start ∧ FrameShape m := by
  obtain ⟨raw, erasures, hbits, -⟩ := demodBitsFrom_spec 0 0 0 (by omega : 0 ≤ start + syncBits * 2)
    (show start + syncBits * 2 + 16 * downlinkLongBytes ≤ phase.length by simp at h ⊢; omega)
  simp only [demodOneDownlink, demodBits, hbits, Option.bind_eq_bind, Option.some_bind]
  rcases fec.correctDownlink_cases raw erasures with hfail | ⟨d, n, hok, hd⟩
  · simp only [hfail, fecFailure]
    exact ⟨none, rfl, by simp⟩
  · simp only [hok]
    refine ⟨_, rfl, ?_⟩
    simp only [Option.mem_def, Option.some.injEq, forall_eq', true_and]
    rcases hd with ⟨hlen, -, -⟩ | ⟨hlen, -, -⟩
    · exact .inr (.inl ⟨hlen, by simp [hlen]⟩)
    · exact .inl ⟨hlen, by simp [hlen]⟩

theorem demodOneUplink_spec {start : Int} (h0 : 0 ≤ start)
    (h : start + numTrailingSamples ≤ phase.length) :
    ∃ r, demodOneUplink fec phase start = some r ∧ ∀ m ∈ r, m.beginPos = start ∧ FrameShape m := by
  obtain ⟨raw, erasures, hbits, -⟩ := demodBitsFrom_spec 0 0 0 (by omega : 0 ≤ start + syncBits * 2)
    (show start + syncBits * 2 + 16 * uplinkBytes ≤ phase.length by simp at h ⊢; omega)
  simp only [demodOneUplink, demodBits, hbits, Option.bind_eq_bind, Option.some_bind]
  rcases fec.correctUplink_cases raw erasures with hfail | ⟨d, n, hok, hlen⟩
  · simp only [hfail, fecFailure]
    exact ⟨none, rfl, by simp⟩
  · simp only [hok]
    refine ⟨_, rfl, ?_⟩
    simp only [Option.mem_def, Option.some.injEq, forall_eq', true_and]
    exact .inr (.inr ⟨hlen, rfl⟩)

/-- Both `DemodOne` variants, as `DemodBest` picks them. -/
theorem demodOne_spec (downlink : Bool) {start : Int} (h0 : 0 ≤ start)
    (h : start + numTrailingSamples ≤ phase.length) :
    ∃ r, (if downlink then demodOneDownlink fec phase else demodOneUplink fec phase) start = some r ∧
      ∀ m ∈ r, m.beginPos = start ∧ FrameShape m := by
  cases downlink
  · exact demodOneUplink_spec fec h0 h
  · exact demodOneDownlink_spec fec h0 h

theorem demodBest_spec (downlink : Bool) {start : Int} (h0 : 0 ≤ start)
    (h : start + 1 + numTrailingSamples ≤ phase.length) :
    ∃ r, demodBest fec phase start downlink = some r ∧
      ∀ m ∈ r, (m.beginPos = start ∨ m.beginPos = start + 1) ∧ FrameShape m := by
  obtain ⟨r0, h0', hr0⟩ := demodOne_spec fec downlink h0
    (by omega : start + numTrailingSamples ≤ phase.length)
  obtain ⟨r1, h1', hr1⟩ := demodOne_spec fec downlink (by omega : 0 ≤ start + 1) h
  simp only [demodBest, h0', h1', Option.bind_eq_bind, Option.some_bind]
  split_ifs
  · exact ⟨none, rfl, by simp⟩
  · exact ⟨r0, rfl, fun m hm => ⟨.inl (hr0 m hm).1, (hr0 m hm).2⟩⟩
  · exact ⟨r1, rfl, fun m hm => ⟨.inr (hr1 m hm).1, (hr1 m hm).2⟩⟩

/-- The four sync checks: the frame found starts at `probe - SYNC_BITS * 2 + 2` at the
earliest and `+ 4` at the latest. -/
theorem firstFrame_spec {probe : Int} (checks : List SyncCheck)
    (hoff : ∀ c ∈ checks, c.offset = 2 ∨ c.offset = 3)
    (h0 : syncBits * 2 ≤ probe + 2) (h : probe + numTrailingSamples < phase.length) :
    ∃ r, firstFrame fec phase probe checks = some r ∧
      ∀ m ∈ r, probe + 2 ≤ m.beginPos + syncBits * 2 ∧ m.beginPos + syncBits * 2 ≤ probe + 4 ∧
        FrameShape m := by
  have hsync : (syncBits : Int) * 2 = 72 := rfl
  induction checks with
  | nil => exact ⟨none, rfl, by simp⟩
  | cons c rest ih =>
    have ih := ih fun c hc => hoff c (List.mem_cons_of_mem _ hc)
    have hc := hoff c (List.mem_cons_self _ _)
    by_cases hmatch : syncWordMatch c.sync c.word
    · obtain ⟨r, hr, hm⟩ := demodBest_spec fec c.downlink
        (show 0 ≤ probe - syncBits * 2 + c.offset by omega)
        (show probe - syncBits * 2 + c.offset + 1 + numTrailingSamples ≤ phase.length by omega)
      simp only [firstFrame, hmatch, if_true, hr, Option.bind_eq_bind, Option.some_bind]
      cases r with
      | none => exact ih
      | some m =>
        refine ⟨_, rfl, ?_⟩
        simp only [Option.mem_def, Option.some.injEq, forall_eq']
        obtain ⟨hbegin, hshape⟩ := hm m rfl
        exact ⟨by omega, by omega, hshape⟩
    · simp only [firstFrame, hmatch]
      exact ih

end Frames

/-! ### The scan loop -/

theorem uint32_toNat_add_one_le (x : UInt32) : (x + 1).toNat ≤ x.toNat + 1 := by
  simp only [UInt32.toNat, UInt32.add_def, Fin.val_add]
  exact Nat.mod_le _ _

@[simp] theorem DemodState.shift_probe (s : DemodState) (p0 p1 p2 : UInt16) :
    (s.shift p0 p1 p2).probe = s.probe := rfl

@[simp] theorem DemodState.shift_messages (s : DemodState) (p0 p1 p2 : UInt16) :
    (s.shift p0 p1 p2).messages = s.messages := rfl

theorem syncChecks_offset (sync0 sync1 : BitVec 64) :
    ∀ c ∈ syncChecks sync0 sync1, c.offset = 2 ∨ c.offset = 3 := by
  simp [syncChecks]

/-- What holds at the head of the scan loop: the frames found so far lie in the span, start
before the limit, have one of the three shapes, do not overlap, and end at least
`2 * sync_bits` samples before `probe`. -/
structure DemodInv (len : Nat) (s : DemodState) : Prop where
  syncBits_le : 2 * s.syncBits.toNat ≤ s.probe
  frame : ∀ m ∈ s.messages, 0 ≤ m.beginPos ∧
    m.beginPos + syncBits * 2 + numTrailingSamples < len + 4 ∧ FrameShape m
  before : ∀ m ∈ s.messages, m.endPos + 2 * s.syncBits.toNat ≤ s.probe
  ordered : s.messages.Pairwise fun a b => a.endPos ≤ b.beginPos

section Loop

variable {len : Nat} {s : DemodState}

theorem DemodInv.init : DemodInv len DemodState.init :=
  ⟨by simp [DemodState.init], by simp [DemodState.init], by simp [DemodState.init],
    List.Pairwise.nil⟩

/-- A pass that finds no frame keeps the invariant. -/
theorem DemodInv.shift (hs : DemodInv len s) (p0 p1 p2 : UInt16) :
    DemodInv len { s.shift p0 p1 p2 with probe := s.probe + 2 } := by
  have hcount := uint32_toNat_add_one_le s.syncBits
  refine ⟨?_, hs.frame, fun m hm => ?_, hs.ordered⟩
  · have := hs.syncBits_le
    simp only [DemodState.shift]
    omega
  · have := hs.before m hm
    simp only [DemodState.shift]
    omega

/-- A frame found once the register is full starts after every earlier frame, so adding it
keeps the invariant. -/
theorem DemodInv.found (hs : DemodInv len s) (sync0 sync1 : BitVec 64) {m : Message}
    (h35 : 35 ≤ s.syncBits.toNat) (hlo : s.probe + 2 ≤ m.beginPos + syncBits * 2)
    (hlimit : m.beginPos + syncBits * 2 + numTrailingSamples < len + 4) (hshape : FrameShape m) :
    DemodInv len ⟨m.endPos - 2 + 2, 0, sync0, sync1, s.messages ++ [m]⟩ := by
  have hsync : (syncBits : Int) * 2 = 72 := rfl
  have hspan := hshape.span
  have hprobe := hs.syncBits_le
  have hbefore : ∀ a ∈ s.messages, a.endPos ≤ m.beginPos := fun a ha => by
    have := hs.before a ha
    omega
  refine ⟨by simp; omega, ?_, ?_, ?_⟩
  · simp only [List.mem_append, List.mem_singleton]
    rintro a (ha | rfl)
    · exact hs.frame a ha
    · exact ⟨by omega, hlimit, hshape⟩
  · simp only [List.mem_append, List.mem_singleton]
    rintro a (ha | rfl)
    · have := hbefore a ha
      simp
      omega
    · simp
  · refine List.pairwise_append.mpr ⟨hs.ordered, List.pairwise_singleton _ _, fun a ha b hb => ?_⟩
    rw [List.mem_singleton.mp hb]
    exact hbefore a ha

variable (fec : FEC) {phase : PhaseBuffer}

/-- One pass reads inside the span and keeps the invariant, and `probe` does not move back. -/
theorem demodStep_spec (hs : DemodInv phase.length s)
    (hp : s.probe + numTrailingSamples < phase.length) :
    ∃ s', demodStep fec phase s = some s' ∧ s.probe ≤ s'.probe ∧
      DemodInv phase.length { s' with probe := s'.probe + 2 } := by
  have hsync : (syncBits : Int) * 2 = 72 := rfl
  have hnts : numTrailingSamples = 8904 := rfl
  have hprobe := hs.syncBits_le
  obtain ⟨p0, h0⟩ := exists_readPhase (by omega : 0 ≤ s.probe) (by omega : s.probe < phase.length)
  obtain ⟨p1, h1⟩ := exists_readPhase (by omega : 0 ≤ s.probe + 1)
    (by omega : s.probe + 1 < phase.length)
  obtain ⟨p2, h2⟩ := exists_readPhase (by omega : 0 ≤ s.probe + 2)
    (by omega : s.probe + 2 < phase.length)
  simp only [demodStep, h0, h1, h2, Option.bind_eq_bind, Option.some_bind,
    DemodState.shift_probe, DemodState.shift_messages]
  split_ifs with hfull
  · exact ⟨_, rfl, Int.le_refl _, hs.shift p0 p1 p2⟩
  · have h35 : 35 ≤ s.syncBits.toNat := by
      have := uint32_toNat_add_one_le s.syncBits
      simp only [DemodState.shift, syncBits] at hfull
      omega
    obtain ⟨r, hr, hm⟩ := firstFrame_spec fec
      (syncChecks (s.shift p0 p1 p2).sync0 (s.shift p0 p1 p2).sync1) (syncChecks_offset _ _)
      (by omega) hp
    rw [hr, Option.some_bind]
    cases r with
    | none => exact ⟨_, rfl, Int.le_refl _, hs.shift p0 p1 p2⟩
    | some m =>
      obtain ⟨hlo, hhi, hshape⟩ := hm m rfl
      have := hshape.span
      exact ⟨_, rfl, by simp; omega, hs.found _ _ h35 hlo (by omega) hshape⟩

/-- The loop from a state with the invariant, with more fuel than `limit - probe`, returns
the frames of its invariant. -/
theorem demodLoop_spec {limit : Int} (hlimit : limit + numTrailingSamples = phase.length)
    (fuel : Nat) (hs : DemodInv phase.length s) (hfuel : (limit - s.probe).toNat < fuel) :
    ∃ messages, demodLoop fec phase limit fuel s = some messages ∧
      (∀ m ∈ messages, 0 ≤ m.beginPos ∧
        m.beginPos + syncBits * 2 + numTrailingSamples < phase.length + 4 ∧ FrameShape m) ∧
      messages.Pairwise fun a b => a.endPos ≤ b.beginPos := by
  induction fuel generalizing s with
  | zero => omega
  | succ fuel ih =>
    unfold demodLoop
    split_ifs with hp
    · obtain ⟨s', hstep, hle, hs'⟩ := demodStep_spec fec hs (by omega)
      simp only [hstep, Option.bind_eq_bind, Option.some_bind]
      exact ih hs' (by simp only; omega)
    · exact ⟨_, rfl, hs.frame, hs.ordered⟩

end Loop

/-- What `Demodulate` returns, with the bound on where a frame starts: its sync word and the
trailing samples fit before `end`, up to the four samples by which the sync check and
`DemodBest` may move the start past the probe's sync word. -/
theorem demodulate_spec (fec : FEC) (phase : PhaseBuffer) :
    ∃ messages, demodulate fec phase = some messages ∧
      messages.Pairwise (fun a b => a.endPos ≤ b.beginPos) ∧
      ∀ m ∈ messages, 0 ≤ m.beginPos ∧
        m.beginPos + syncBits * 2 + numTrailingSamples < phase.length + 4 ∧ FrameShape m := by
  have hnts : numTrailingSamples = 8904 := rfl
  unfold demodulate
  split_ifs with hshort
  · exact ⟨[], rfl, List.Pairwise.nil, by simp⟩
  · obtain ⟨messages, hloop, hframes, hordered⟩ := demodLoop_spec fec
      (by omega : (phase.length - numTrailingSamples : Int) + numTrailingSamples = phase.length)
      phase.length DemodInv.init (by simp only [DemodState.init]; omega)
    exact ⟨messages, hloop, hordered, hframes⟩

/-- **`Demodulate` reads only inside its span, terminates, and returns well-formed frames in
order.** On every span it returns (no read outside `[begin, end)`, no exhausted fuel) frames
that do not overlap and come in increasing order. Each lies inside the span and starts before
`end - NumTrailingSamples()`, and its payload of 18, 34 or 432 bytes fixes its sample
length. -/
theorem demodulate_frames (fec : FEC) (phase : PhaseBuffer) :
    ∃ messages, demodulate fec phase = some messages ∧
      messages.Pairwise (fun a b => a.endPos ≤ b.beginPos) ∧
      ∀ m ∈ messages, 0 ≤ m.beginPos ∧ m.beginPos < m.endPos ∧ m.endPos ≤ phase.length ∧
        m.beginPos < phase.length - numTrailingSamples ∧ FrameShape m := by
  have hnts : numTrailingSamples = 8904 := rfl
  have hsync : (syncBits : Int) * 2 = 72 := rfl
  obtain ⟨messages, hdem, hordered, hframes⟩ := demodulate_spec fec phase
  refine ⟨messages, hdem, hordered, fun m hm => ?_⟩
  obtain ⟨hbegin, hlimit, hshape⟩ := hframes m hm
  have := hshape.span
  exact ⟨hbegin, by omega, by omega, by omega, hshape⟩

end Dump978
