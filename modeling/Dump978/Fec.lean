import Dump978.Protocol

namespace Dump978

/-!
# FEC — deinterleaving and error correction (`fec.cc`)

`FEC` wraps three Reed–Solomon decoders, one per code, and exposes `CorrectDownlink` and
`CorrectUplink`. The decoders themselves (`decode_rs_char` of the bundled `fec` library) are
not part of the modelled sources, so each is an `RsDecoder`: any function from a block and
its erasure positions to a corrected-symbol count and the block as the call leaves it. The
one thing the C++ side guarantees about them is that they write inside their block
(`corrected.data()` of a vector whose size they cannot change); the structure carries it as
`length_decode`.

* `FEC.correctDownlink` — the two-try policy: decode as a long frame, accept when the count
  is in `0..14` and the header's payload type is nonzero; otherwise decode the first 30 bytes
  of the same buffer as a short frame with the erasures below 30, accept when the count is
  in `0..12` and the payload type is zero.
* `FEC.correctUplink` — six interleaved blocks, `block_b[i] = raw[6i + b]`, each decoded on
  its own, their 72 data bytes concatenated, their counts summed.

`FEC.downlinkPolicy` is the two-try policy as the specification words it, retrying the short
code on the bytes as received; `FEC.correctDownlink_eq_policy` says when `CorrectDownlink`
agrees with it, and `correctDownlink_drops_short_frame` is a frame on which it does not.

`FEC.correctUplinkLoop` is `CorrectUplink`'s loop as the C++ runs it, on the one `blockdata`
buffer it refills for every block; `FEC.correctUplinkLoop_eq` says it computes the block model,
and `correctUplink_blockwise` states the result block by block.

The results are the C++ tuple `(success, corrected, errors)`.
-/

/-- One code's `decode_rs_char`: the number of corrected symbols (negative when the block is
uncorrectable) and the block's content after the call. It writes only inside its block. -/
structure RsDecoder where
  decode : Bytes → List Nat → Int × Bytes
  length_decode : ∀ block erasures, (decode block erasures).2.length = block.length

attribute [simp] RsDecoder.length_decode

/-- The three decoders `FEC` initialises (`rs_downlink_short_`, `rs_downlink_long_`,
`rs_uplink_`). -/
structure FEC where
  downlinkShort : RsDecoder
  downlinkLong : RsDecoder
  uplink : RsDecoder

/-- The failure tuple `R{false, {}, 0}`. -/
def fecFailure : Bool × Bytes × Nat := (false, [], 0)

/-- `corrected[0] >> 3` (on the byte promoted to `int`): the payload type in the header's
first five bits. -/
def headerPayloadType (corrected : Bytes) : Nat := (corrected.getD 0 0).toNat >>> 3

/-! ### Downlink -/

/-- The erased bytes of `raw`, zeroed (`corrected[erasures[i]] = 0`). -/
def zeroErasures (raw : Bytes) (erasures : List Nat) : Bytes :=
  erasures.foldl (fun c e => c.set e 0) raw

/-- The retry as a basic UAT frame: the first 30 bytes of the buffer the long decode left,
with the erasures that lie inside them. -/
def FEC.retryShort (fec : FEC) (corrected : Bytes) (erasures : List Nat) : Bool × Bytes × Nat :=
  let shortErasures := erasures.filter (· < downlinkShortBytes)
  if shortErasures.length > Fec.downlinkShortRoots then fecFailure
  else
    let r := fec.downlinkShort.decode (corrected.take downlinkShortBytes)
      (shortErasures.map (· + Fec.downlinkShortPad))
    let corrected := r.2 ++ corrected.drop downlinkShortBytes
    if 0 ≤ r.1 ∧ r.1 ≤ Fec.downlinkShortRoots ∧ headerPayloadType corrected = 0 then
      (true, vectorResize corrected downlinkShortDataBytes 0, r.1.toNat)
    else fecFailure

/-- `FEC::CorrectDownlink`. -/
def FEC.correctDownlink (fec : FEC) (raw : Bytes) (erasures : List Nat) : Bool × Bytes × Nat :=
  if raw.length ≠ downlinkLongBytes then fecFailure
  else if erasures.length > Fec.downlinkLongRoots then fecFailure
  else
    let r := fec.downlinkLong.decode (zeroErasures raw erasures)
      (erasures.map (· + Fec.downlinkLongPad))
    if 0 ≤ r.1 ∧ r.1 ≤ Fec.downlinkLongRoots ∧ headerPayloadType r.2 ≠ 0 then
      (true, vectorResize r.2 downlinkLongDataBytes 0, r.1.toNat)
    else fec.retryShort r.2 erasures

/-! ### What `CorrectDownlink` can return -/

/-- A successful `CorrectDownlink` result: a long frame (34 bytes, payload type nonzero, at
most 14 corrections) or a short one (18 bytes, payload type zero, at most 12). -/
def DownlinkResult (d : Bytes) (n : Nat) : Prop :=
  (d.length = downlinkLongDataBytes ∧ headerPayloadType d ≠ 0 ∧ n ≤ Fec.downlinkLongRoots) ∨
  (d.length = downlinkShortDataBytes ∧ headerPayloadType d = 0 ∧ n ≤ Fec.downlinkShortRoots)

/-- Truncating (or padding) to a nonzero size keeps the header byte. -/
theorem headerPayloadType_vectorResize (c : Bytes) {n : Nat} (hn : 0 < n) :
    headerPayloadType (vectorResize c n 0) = headerPayloadType c := by
  cases c <;> cases n <;> simp_all [headerPayloadType, vectorResize]

theorem FEC.retryShort_cases (fec : FEC) (corrected : Bytes) (erasures : List Nat) :
    fec.retryShort corrected erasures = fecFailure ∨
    ∃ d n, fec.retryShort corrected erasures = (true, d, n) ∧
      d.length = downlinkShortDataBytes ∧ headerPayloadType d = 0 ∧
      n ≤ Fec.downlinkShortRoots := by
  unfold FEC.retryShort
  dsimp only
  split_ifs with hcount hok
  · exact .inl rfl
  · simp only [Fec.downlinkShortRoots] at hok
    refine .inr ⟨_, _, rfl, length_vectorResize .., ?_, by simp only [Fec.downlinkShortRoots]; omega⟩
    rw [headerPayloadType_vectorResize _ (by decide)]
    exact hok.2.2
  · exact .inl rfl

/-- **`CorrectDownlink` returns the failure tuple or a well-formed frame**, whatever the
decoders do inside their blocks. -/
theorem FEC.correctDownlink_cases (fec : FEC) (raw : Bytes) (erasures : List Nat) :
    fec.correctDownlink raw erasures = fecFailure ∨
    ∃ d n, fec.correctDownlink raw erasures = (true, d, n) ∧ DownlinkResult d n := by
  unfold FEC.correctDownlink
  dsimp only
  split_ifs with hlen hcount hok
  · exact .inl rfl
  · exact .inl rfl
  · simp only [Fec.downlinkLongRoots] at hok
    refine .inr ⟨_, _, rfl, .inl ⟨length_vectorResize .., ?_, by simp only [Fec.downlinkLongRoots]; omega⟩⟩
    rw [headerPayloadType_vectorResize _ (by decide)]
    exact hok.2.2
  · obtain h | ⟨d, n, h, hd⟩ := fec.retryShort_cases _ erasures
    · exact .inl h
    · exact .inr ⟨d, n, h, .inr hd⟩

/-! ### Uplink -/

/-- Block `block` of an interleaved uplink frame: `blockdata[i] = raw[i * 6 + block]`. -/
def deinterleave (raw : Bytes) (block : Nat) : Bytes :=
  (List.range uplinkBlockBytes).map fun i => raw.getD (i * uplinkBlocksPerFrame + block) 0

/-- The erasures of block `block`, as positions in its 255-symbol codeword. -/
def blockErasures (erasures : List Nat) (block : Nat) : List Nat :=
  (erasures.filter (· % uplinkBlocksPerFrame = block)).map
    (· / uplinkBlocksPerFrame + Fec.uplinkBlockPad)

/-! ### `CorrectDownlink` against the two-try policy -/

/-- A decoder that leaves its block as it was when it reports failure, as `decode_rs_char`
does; `CorrectDownlink`'s short retry relies on it. -/
def RsDecoder.KeepsOnFailure (d : RsDecoder) : Prop :=
  ∀ block erasures, (d.decode block erasures).1 < 0 → (d.decode block erasures).2 = block

/-- The downlink two-try policy as the specification states it: decode the received bytes, the
erased ones zeroed, as a long frame and accept it when the count is in `0..14` and the payload
type is nonzero; otherwise decode the same received bytes as a short frame with the erasures
below 30, and accept it when the count is in `0..12` and the payload type is zero. -/
def FEC.downlinkPolicy (fec : FEC) (raw : Bytes) (erasures : List Nat) : Bool × Bytes × Nat :=
  let received := zeroErasures raw erasures
  let long := fec.downlinkLong.decode received (erasures.map (· + Fec.downlinkLongPad))
  if 0 ≤ long.1 ∧ long.1 ≤ 14 ∧ headerPayloadType long.2 ≠ 0 then
    (true, long.2.take 34, long.1.toNat)
  else
    let shortErasures := erasures.filter (· < 30)
    if shortErasures.length > 12 then fecFailure
    else
      let short := fec.downlinkShort.decode (received.take 30)
        (shortErasures.map (· + Fec.downlinkShortPad))
      if 0 ≤ short.1 ∧ short.1 ≤ 12 ∧ headerPayloadType short.2 = 0 then
        (true, short.2.take 18, short.1.toNat)
      else fecFailure

theorem length_zeroErasures (raw : Bytes) (erasures : List Nat) :
    (zeroErasures raw erasures).length = raw.length := by
  unfold zeroErasures
  induction erasures generalizing raw with
  | nil => rfl
  | cons e es ih => rw [List.foldl_cons, ih, List.length_set]

/-- The short retry reads only the first 30 bytes of the buffer it is given. -/
theorem FEC.retryShort_eq (fec : FEC) {corrected : Bytes} (erasures : List Nat)
    (h : downlinkShortBytes ≤ corrected.length) :
    fec.retryShort corrected erasures =
      let shortErasures := erasures.filter (· < 30)
      if shortErasures.length > 12 then fecFailure
      else
        let short := fec.downlinkShort.decode (corrected.take 30)
          (shortErasures.map (· + Fec.downlinkShortPad))
        if 0 ≤ short.1 ∧ short.1 ≤ 12 ∧ headerPayloadType short.2 = 0 then
          (true, short.2.take 18, short.1.toNat)
        else fecFailure := by
  unfold FEC.retryShort
  simp only [downlinkShortBytes, downlinkShortBits, downlinkShortDataBytes, downlinkShortDataBits,
    Fec.downlinkShortRoots, Nat.reduceDiv, Nat.reduceAdd] at h ⊢
  have hshort := fec.downlinkShort.length_decode (corrected.take 30)
    ((erasures.filter (· < 30)).map (· + Fec.downlinkShortPad))
  rw [List.length_take, Nat.min_eq_left h] at hshort
  generalize fec.downlinkShort.decode (corrected.take 30)
    ((erasures.filter (· < 30)).map (· + Fec.downlinkShortPad)) = short at hshort ⊢
  obtain ⟨n, block⟩ := short
  obtain _ | ⟨b, block⟩ := block
  · simp at hshort
  · simp only [List.length_cons] at hshort
    have hresize : vectorResize (b :: block ++ corrected.drop 30) 18 0 = (b :: block).take 18 := by
      rw [vectorResize, List.take_append_of_le_length (by simp; omega)]
      simp only [List.length_append, List.length_cons, List.length_drop]
      rw [show 18 - (block.length + 1 + (corrected.length - 30)) = 0 by omega, List.replicate_zero,
        List.append_nil]
    simp only [headerPayloadType, List.cons_append, List.getD_cons_zero] at hresize ⊢
    rw [hresize]
    rfl

/-- **`CorrectDownlink` follows the two-try policy unless the long decode rewrote the header
part.** With at most 14 erasures, the code and the policy agree whenever the long decode is
accepted or leaves the first 30 bytes as they were received; in particular whenever it fails,
for a decoder that keeps its block on failure. -/
theorem FEC.correctDownlink_eq_policy (fec : FEC) (raw : Bytes) (erasures : List Nat)
    (hlen : raw.length = downlinkLongBytes) (hcount : erasures.length ≤ Fec.downlinkLongRoots) :
    let long := fec.downlinkLong.decode (zeroErasures raw erasures)
      (erasures.map (· + Fec.downlinkLongPad))
    (0 ≤ long.1 ∧ long.1 ≤ 14 ∧ headerPayloadType long.2 ≠ 0) ∨
        long.2.take 30 = (zeroErasures raw erasures).take 30 →
      fec.correctDownlink raw erasures = fec.downlinkPolicy raw erasures := by
  dsimp only
  intro hsame
  have hzero := length_zeroErasures raw erasures
  have hlong := fec.downlinkLong.length_decode (zeroErasures raw erasures)
    (erasures.map (· + Fec.downlinkLongPad))
  have h14 : ((14 : Nat) : Int) = 14 := rfl
  unfold FEC.correctDownlink FEC.downlinkPolicy
  dsimp only
  generalize fec.downlinkLong.decode (zeroErasures raw erasures)
    (erasures.map (· + Fec.downlinkLongPad)) = L at hsame hlong ⊢
  simp only [Fec.downlinkLongRoots, downlinkLongBytes, downlinkLongBits, downlinkLongDataBytes,
    downlinkLongDataBits, h14, Nat.reduceDiv, Nat.reduceAdd] at hlen hcount hlong ⊢
  rw [if_neg (by omega), if_neg (by omega)]
  by_cases hacc : 0 ≤ L.1 ∧ L.1 ≤ 14 ∧ headerPayloadType L.2 ≠ 0
  · rw [if_pos hacc, if_pos hacc, vectorResize, show 34 - L.2.length = 0 by omega,
      List.replicate_zero, List.append_nil]
  · rw [if_neg hacc, if_neg hacc,
      fec.retryShort_eq erasures
        (by simp only [downlinkShortBytes, downlinkShortBits, downlinkShortDataBits]; omega),
      hsame.resolve_left hacc]

/-- Under `KeepsOnFailure`, a failed long decode leaves the header part as received. -/
theorem FEC.correctDownlink_eq_policy_of_fail (fec : FEC) (raw : Bytes) (erasures : List Nat)
    (hkeep : fec.downlinkLong.KeepsOnFailure) (hlen : raw.length = downlinkLongBytes)
    (hcount : erasures.length ≤ Fec.downlinkLongRoots)
    (hfail : (fec.downlinkLong.decode (zeroErasures raw erasures)
      (erasures.map (· + Fec.downlinkLongPad))).1 < 0) :
    fec.correctDownlink raw erasures = fec.downlinkPolicy raw erasures :=
  fec.correctDownlink_eq_policy raw erasures hlen hcount (.inr (by rw [hkeep _ _ hfail]))

/-- **The short retry reads what the long decode wrote.** On this 48-byte frame with no
erasures, the first 30 bytes are a short codeword with payload type zero, and the frame lies
seven symbols from a long codeword whose payload type is also zero. The decoders return what
`decode_rs_char` returns on the blocks they are given here: the long code corrects the seven
symbols, the short code accepts the received bytes and rejects the long codeword's first 30.
`CorrectDownlink` fails; the policy returns the short frame. -/
theorem correctDownlink_drops_short_frame :
    let frame : Bytes :=
      [0x00, 0xA1, 0xB2, 0xC3, 0x35, 0x6D, 0x8A, 0x4B, 0x19, 0x02, 0x2E, 0x10, 0x05, 0x80,
        0x00, 0x00, 0x00, 0x00, 0x2E, 0xEA, 0x2E, 0x28, 0x18, 0xAB, 0xFF, 0x47, 0x6A, 0xB6,
        0x12, 0x50, 0x00, 0x00, 0x00, 0x00, 0x2A, 0x18, 0x99, 0x97, 0x07, 0xE7, 0x7D, 0x81,
        0x4B, 0x41, 0xDF, 0xAA, 0x25, 0x08]
    let longCodeword : Bytes :=
      [0x00, 0xA1, 0x4D, 0xC3, 0x35, 0x6D, 0x75, 0x4B, 0x19, 0x02, 0xD1, 0x10, 0x05, 0x80,
        0xFF, 0x00, 0x00, 0x00, 0xD1, 0xEA, 0x2E, 0x28, 0xE7, 0xAB, 0xFF, 0x47, 0x95, 0xB6,
        0x12, 0x50, 0x00, 0x00, 0x00, 0x00, 0x2A, 0x18, 0x99, 0x97, 0x07, 0xE7, 0x7D, 0x81,
        0x4B, 0x41, 0xDF, 0xAA, 0x25, 0x08]
    let fec : FEC :=
      ⟨⟨fun b _ => if b = frame.take 30 then (0, b) else (-1, b), fun b _ => by
          dsimp only; split <;> rfl⟩,
        ⟨fun b _ => if b = frame then (7, longCodeword) else (-1, b), fun b _ => by
          dsimp only; split
          · next h => subst h; rfl
          · rfl⟩,
        ⟨fun b _ => (-1, b), fun _ _ => rfl⟩⟩
    fec.downlinkShort.KeepsOnFailure ∧ fec.downlinkLong.KeepsOnFailure ∧
      fec.correctDownlink frame [] = fecFailure ∧
      fec.downlinkPolicy frame [] = (true, frame.take 18, 0) := by
  intro frame longCodeword fec
  refine ⟨fun b e h => ?_, fun b e h => ?_, by decide, by decide⟩
  · by_cases hb : b = frame.take 30
    · simp only [fec, hb, if_true] at h; omega
    · simp only [fec, hb, if_false]
  · by_cases hb : b = frame
    · simp only [fec, hb, if_true] at h; omega
    · simp only [fec, hb, if_false]

/-- The loop of `CorrectUplink` from block `block`, `remaining` blocks left: the data bytes
and the error count of those blocks, or `none` as soon as one fails. -/
def FEC.correctUplinkBlocks (fec : FEC) (raw : Bytes) (erasures : List Nat) :
    (block remaining : Nat) → Option (Bytes × Nat)
  | _, 0 => some ([], 0)
  | block, remaining + 1 =>
    if (blockErasures erasures block).length > Fec.uplinkBlockRoots then none
    else
      let r := fec.uplink.decode (deinterleave raw block) (blockErasures erasures block)
      if r.1 < 0 ∨ r.1 > Fec.uplinkBlockRoots then none
      else (fec.correctUplinkBlocks raw erasures (block + 1) remaining).map
        fun rest => (r.2.take uplinkBlockDataBytes ++ rest.1, r.1.toNat + rest.2)

/-- `FEC::CorrectUplink`. -/
def FEC.correctUplink (fec : FEC) (raw : Bytes) (erasures : List Nat) : Bool × Bytes × Nat :=
  if raw.length ≠ uplinkBytes then fecFailure
  else match fec.correctUplinkBlocks raw erasures 0 uplinkBlocksPerFrame with
    | some (corrected, errors) => (true, corrected, errors)
    | none => fecFailure

/-! ### What `CorrectUplink` can return -/

/-- Each decoded block contributes its 72 data bytes. -/
theorem FEC.length_correctUplinkBlocks (fec : FEC) (raw : Bytes) (erasures : List Nat)
    {block remaining : Nat} {d : Bytes} {n : Nat}
    (h : fec.correctUplinkBlocks raw erasures block remaining = some (d, n)) :
    d.length = uplinkBlockDataBytes * remaining := by
  induction remaining generalizing block d n with
  | zero => cases h; rfl
  | succ k ih =>
    simp only [FEC.correctUplinkBlocks] at h
    split_ifs at h
    obtain ⟨⟨rest, errors⟩, hrest, heq⟩ := Option.map_eq_some'.mp h
    cases heq
    simp [ih hrest, deinterleave, Nat.mul_succ, Nat.add_comm]

/-- **`CorrectUplink` returns the failure tuple or the 432 data bytes of the six blocks.** -/
theorem FEC.correctUplink_cases (fec : FEC) (raw : Bytes) (erasures : List Nat) :
    fec.correctUplink raw erasures = fecFailure ∨
    ∃ d n, fec.correctUplink raw erasures = (true, d, n) ∧ d.length = uplinkDataBytes := by
  unfold FEC.correctUplink
  split
  · exact .inl rfl
  · split
    · next h => exact .inr ⟨_, _, rfl, fec.length_correctUplinkBlocks raw erasures h⟩
    · exact .inl rfl

/-! ### `CorrectUplink` on its reused buffer -/

/-- The deinterleave loop of `CorrectUplink` run on the `blockdata` buffer:
`blockdata[i] = raw[i * 6 + block]` for every `i < 92`. -/
def fillBlock (raw : Bytes) (block : Nat) (blockdata : Bytes) : Bytes :=
  (List.range uplinkBlockBytes).foldl
    (fun bd i => bd.set i (raw.getD (i * uplinkBlocksPerFrame + block) 0)) blockdata

/-- The loop of `CorrectUplink` as the C++ runs it: one `blockdata` buffer, refilled for each
block and decoded in place, the data bytes appended to `corrected` and the counts added to
`total_errors`. -/
def FEC.correctUplinkLoop (fec : FEC) (raw : Bytes) (erasures : List Nat) :
    (blockdata corrected : Bytes) → (totalErrors block remaining : Nat) → Option (Bytes × Nat)
  | _, corrected, totalErrors, _, 0 => some (corrected, totalErrors)
  | blockdata, corrected, totalErrors, block, remaining + 1 =>
    let blockdata := fillBlock raw block blockdata
    if (blockErasures erasures block).length > Fec.uplinkBlockRoots then none
    else
      let r := fec.uplink.decode blockdata (blockErasures erasures block)
      if r.1 < 0 ∨ r.1 > Fec.uplinkBlockRoots then none
      else fec.correctUplinkLoop raw erasures r.2 (corrected ++ r.2.take uplinkBlockDataBytes)
        (totalErrors + r.1.toNat) (block + 1) remaining

/-- Writing positions `0..n-1` of a buffer at least `n` long replaces exactly that prefix. -/
theorem foldl_set_range (f : Nat → UInt8) (bd : Bytes) {n : Nat} (h : n ≤ bd.length) :
    (List.range n).foldl (fun bd i => bd.set i (f i)) bd = (List.range n).map f ++ bd.drop n := by
  induction n with
  | zero => simp
  | succ n ih =>
    rw [List.range_succ, List.foldl_append, ih (by omega), List.foldl_cons, List.foldl_nil,
      List.set_append_right _ _ (by simp), List.length_map, List.length_range, Nat.sub_self,
      List.drop_eq_getElem_cons (by omega), List.set_cons_zero, List.map_append,
      List.map_singleton, List.append_assoc]
    rfl

/-- Refilling the 92-byte buffer leaves nothing of the previous block. -/
theorem fillBlock_eq (raw : Bytes) (block : Nat) {blockdata : Bytes}
    (h : blockdata.length = uplinkBlockBytes) :
    fillBlock raw block blockdata = deinterleave raw block := by
  rw [fillBlock, foldl_set_range _ _ h.ge, List.drop_of_length_le h.le, List.append_nil]
  rfl

/-- **The buffer loop computes the block model**: whatever an earlier decode left in
`blockdata`, each block is decoded from its own deinterleaved bytes. -/
theorem FEC.correctUplinkLoop_eq (fec : FEC) (raw : Bytes) (erasures : List Nat)
    {blockdata : Bytes} (h : blockdata.length = uplinkBlockBytes) (corrected : Bytes)
    (totalErrors block remaining : Nat) :
    fec.correctUplinkLoop raw erasures blockdata corrected totalErrors block remaining =
      (fec.correctUplinkBlocks raw erasures block remaining).map
        fun r => (corrected ++ r.1, totalErrors + r.2) := by
  induction remaining generalizing blockdata corrected totalErrors block with
  | zero => simp [FEC.correctUplinkLoop, FEC.correctUplinkBlocks]
  | succ k ih =>
    simp only [FEC.correctUplinkLoop, FEC.correctUplinkBlocks, fillBlock_eq raw block h]
    split_ifs
    · rfl
    · rfl
    · rw [ih (by simp [deinterleave]), Option.map_map]
      congr 1
      funext r
      simp only [Function.comp, List.append_assoc, Nat.add_assoc]

/-- `CorrectUplink` with its `blockdata` resized to 92 zero bytes and `corrected` empty. -/
theorem FEC.correctUplink_eq_loop (fec : FEC) (raw : Bytes) (erasures : List Nat) :
    fec.correctUplink raw erasures =
      if raw.length ≠ uplinkBytes then fecFailure
      else match fec.correctUplinkLoop raw erasures (vectorResize [] uplinkBlockBytes 0) [] 0 0
          uplinkBlocksPerFrame with
        | some (corrected, errors) => (true, corrected, errors)
        | none => fecFailure := by
  rw [fec.correctUplinkLoop_eq raw erasures (length_vectorResize ..)]
  unfold FEC.correctUplink
  split_ifs
  · rfl
  · rcases fec.correctUplinkBlocks raw erasures 0 uplinkBlocksPerFrame with _ | ⟨corrected, errors⟩
    · rfl
    · simp


/-! ### `CorrectUplink` block by block -/

/-- `decode_rs_char` on block `block`: its deinterleaved bytes and its erasures. -/
def FEC.decodeUplinkBlock (fec : FEC) (raw : Bytes) (erasures : List Nat) (block : Nat) :
    Int × Bytes :=
  fec.uplink.decode (deinterleave raw block) (blockErasures erasures block)

/-- Block `block` decodes: at most `UPLINK_BLOCK_ROOTS` erasures fall in it and the count is
in `0..UPLINK_BLOCK_ROOTS`. -/
def FEC.uplinkBlockOk (fec : FEC) (raw : Bytes) (erasures : List Nat) (block : Nat) : Prop :=
  (blockErasures erasures block).length ≤ Fec.uplinkBlockRoots ∧
    0 ≤ (fec.decodeUplinkBlock raw erasures block).1 ∧
    (fec.decodeUplinkBlock raw erasures block).1 ≤ Fec.uplinkBlockRoots

instance (fec : FEC) (raw : Bytes) (erasures : List Nat) (block : Nat) :
    Decidable (fec.uplinkBlockOk raw erasures block) := by
  unfold FEC.uplinkBlockOk; infer_instance

/-- The loop over `k` blocks from `block` succeeds iff every block decodes, and then returns
their data bytes and the sum of their counts. -/
theorem FEC.correctUplinkBlocks_eq (fec : FEC) (raw : Bytes) (erasures : List Nat)
    (block k : Nat) :
    fec.correctUplinkBlocks raw erasures block k =
      if ∀ j < k, fec.uplinkBlockOk raw erasures (block + j) then
        some (((List.range k).map fun j =>
            (fec.decodeUplinkBlock raw erasures (block + j)).2.take uplinkBlockDataBytes).flatten,
          ((List.range k).map fun j => (fec.decodeUplinkBlock raw erasures (block + j)).1.toNat).sum)
      else none := by
  induction k generalizing block with
  | zero => simp [FEC.correctUplinkBlocks]
  | succ k ih =>
    have hshift : ∀ j, block + (j + 1) = block + 1 + j := fun j => by omega
    have hrange : ∀ {β : Type} (f : Nat → β), (List.range (k + 1)).map (fun j => f (block + j)) =
        f block :: (List.range k).map (fun j => f (block + 1 + j)) := fun f => by
      rw [List.range_succ_eq_map, List.map_cons, List.map_map, Nat.add_zero]
      exact congrArg _ (List.map_congr_left fun j _ => congrArg f (hshift j))
    have hsplit : (∀ j < k + 1, fec.uplinkBlockOk raw erasures (block + j)) ↔
        fec.uplinkBlockOk raw erasures block ∧
          ∀ j < k, fec.uplinkBlockOk raw erasures (block + 1 + j) := by
      rw [Nat.forall_lt_succ_left, Nat.add_zero]
      exact and_congr_right fun _ => forall_congr' fun j => imp_congr_right fun _ => by
        rw [hshift]
    rw [FEC.correctUplinkBlocks, ih (block + 1),
      hrange fun b => (fec.decodeUplinkBlock raw erasures b).2.take uplinkBlockDataBytes,
      hrange fun b => (fec.decodeUplinkBlock raw erasures b).1.toNat, List.flatten_cons,
      List.sum_cons]
    by_cases hok : fec.uplinkBlockOk raw erasures block
    · obtain ⟨hcount, hlow, hhigh⟩ := hok
      unfold FEC.decodeUplinkBlock at hlow hhigh ⊢
      rw [if_neg (by omega), if_neg (by omega)]
      by_cases hall : ∀ j < k, fec.uplinkBlockOk raw erasures (block + 1 + j)
      · rw [if_pos hall, if_pos (hsplit.mpr ⟨⟨hcount, hlow, hhigh⟩, hall⟩)]
        rfl
      · rw [if_neg hall, if_neg fun h => hall (hsplit.mp h).2]
        rfl
    · rw [if_neg fun h => hok (hsplit.mp h).1]
      unfold FEC.uplinkBlockOk FEC.decodeUplinkBlock at hok
      by_cases hcount : (blockErasures erasures block).length > Fec.uplinkBlockRoots
      · rw [if_pos hcount]
      · rw [if_neg hcount]
        dsimp only
        rw [if_pos (by omega)]

/-- An erased raw byte `e` sits at position `e / 6` of block `e % 6`, and that block's erasure
list flags that position exactly when `e` is erased. -/
theorem deinterleave_erasure (raw : Bytes) (erasures : List Nat) {e : Nat} (he : e < uplinkBytes) :
    (deinterleave raw (e % uplinkBlocksPerFrame)).getD (e / uplinkBlocksPerFrame) 0 =
        raw.getD e 0 ∧
      (e / uplinkBlocksPerFrame + Fec.uplinkBlockPad ∈
          blockErasures erasures (e % uplinkBlocksPerFrame) ↔ e ∈ erasures) := by
  simp only [uplinkBlocksPerFrame, uplinkBytes, uplinkBits, uplinkBlockBits,
    uplinkBlockDataBits] at he ⊢
  refine ⟨?_, ?_⟩
  · simp only [deinterleave, List.getD_eq_getElem?_getD, List.getElem?_map,
      List.getElem?_range (show e / 6 < uplinkBlockBytes by simp; omega), Option.map_some',
      Option.getD_some, uplinkBlocksPerFrame, Nat.div_add_mod']
  · simp only [blockErasures, uplinkBlocksPerFrame, List.mem_map, List.mem_filter,
      decide_eq_true_eq, Nat.add_right_cancel_iff]
    exact ⟨fun ⟨a, ⟨ha, hmod⟩, hdiv⟩ => by
      rw [show e = a by omega]; exact ha, fun h => ⟨e, ⟨h, rfl⟩, rfl⟩⟩

/-- **`CorrectUplink` decodes six independent blocks.** For a 552-byte frame, any erasure list
and any decoder, with `B b` the deinterleaved block and `E b` its re-biased erasures: when
every block has at most 20 erasures and decodes with a count in `0..20`, `CorrectUplink`
returns the first 72 bytes of each decoded block, in block order, and the sum of the counts;
otherwise it fails. -/
theorem correctUplink_blockwise (fec : FEC) (raw : Bytes) (erasures : List Nat)
    (hraw : raw.length = uplinkBytes) :
    let B := fun b => (List.range 92).map fun i => raw.getD (6 * i + b) 0
    let E := fun b => (erasures.filter (· % 6 = b)).map (· / 6 + Fec.uplinkBlockPad)
    let D := fun b => fec.uplink.decode (B b) (E b)
    ((∀ b < 6, (E b).length ≤ 20 ∧ 0 ≤ (D b).1 ∧ (D b).1 ≤ 20) →
      fec.correctUplink raw erasures = (true, ((List.range 6).map fun b => (D b).2.take 72).flatten,
        ((List.range 6).map fun b => (D b).1.toNat).sum)) ∧
    (¬ (∀ b < 6, (E b).length ≤ 20 ∧ 0 ≤ (D b).1 ∧ (D b).1 ≤ 20) →
      fec.correctUplink raw erasures = fecFailure) := by
  intro B E D
  have hD : ∀ b, fec.decodeUplinkBlock raw erasures b = D b := fun b => by
    have hB : deinterleave raw b = B b :=
      List.map_congr_left fun i _ => by rw [uplinkBlocksPerFrame, Nat.mul_comm]
    rw [FEC.decodeUplinkBlock, hB]
    rfl
  have hok : ∀ b, fec.uplinkBlockOk raw erasures b ↔
      (E b).length ≤ 20 ∧ 0 ≤ (D b).1 ∧ (D b).1 ≤ 20 := fun b => by
    rw [FEC.uplinkBlockOk, hD]
    rfl
  rw [FEC.correctUplink, if_neg (by rw [hraw]; exact not_not.mpr rfl), FEC.correctUplinkBlocks_eq]
  simp only [Nat.zero_add, hD, hok, uplinkBlocksPerFrame]
  refine ⟨fun hall => by rw [if_pos hall]; rfl, fun hall => by rw [if_neg hall]⟩

theorem correctUplink_blockwise_clean :
    let fec : FEC := ⟨⟨fun b _ => (0, b), fun _ _ => rfl⟩, ⟨fun b _ => (0, b), fun _ _ => rfl⟩,
      ⟨fun b _ => (0, b), fun _ _ => rfl⟩⟩
    let raw : Bytes := List.replicate 552 0
    let B := fun b => (List.range 92).map fun i => raw.getD (6 * i + b) 0
    let E := fun b => (([] : List Nat).filter (· % 6 = b)).map (· / 6 + Fec.uplinkBlockPad)
    let D := fun b => fec.uplink.decode (B b) (E b)
    ((∀ b < 6, (E b).length ≤ 20 ∧ 0 ≤ (D b).1 ∧ (D b).1 ≤ 20) →
      fec.correctUplink raw [] = (true, ((List.range 6).map fun b => (D b).2.take 72).flatten,
        ((List.range 6).map fun b => (D b).1.toNat).sum)) ∧
    (¬ (∀ b < 6, (E b).length ≤ 20 ∧ 0 ≤ (D b).1 ∧ (D b).1 ≤ 20) →
      fec.correctUplink raw [] = fecFailure) :=
  correctUplink_blockwise _ (List.replicate 552 0) [] (List.length_replicate 552 0)

end Dump978
