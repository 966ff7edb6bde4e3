import Mathlib.Algebra.BigOperators.Ring.List
import Dump978.Receiver

namespace Dump978

/-!
# Sample sources — `FileSampleSource` and `StdinSampleSource` (`sample_source.cc`)

Both sources pass the receiver buffers of whole samples, `alignment_ = BytesPerSample(format)`
bytes each, through `DispatchBuffer`.

`FileSampleSource::ReadBlock` reads `block_.capacity()` bytes at a time (`samples_per_block`
samples, as reserved). It keeps the whole samples of what it read, dispatches them with the
synthetic `timestamp_` (1 after `Start()`), advances `timestamp_` by the block's length in
whole milliseconds, and stops once a read reaches the end of the file. `readBlocks` is that
chain of calls, at most `fuel` of them. The throttle only delays the next call, so it is not
modelled.

`StdinSampleSource::ScheduleRead` reads what the pipe holds into `block_`, behind the `used_`
bytes left from the read before. It dispatches the whole samples at the front, and copies the
trailing part of a sample to the front of `block_`. The timestamp of a dispatched buffer is
read from the system clock and is not modelled.

Main results:

* `StdinSampleSource.run_reassembles` — over reads of any sizes and contents, the dispatched
  buffers are whole samples and concatenate to the bytes read cut to whole samples, and
  `block_` keeps the rest;
* `FileSampleSource.readBlocks_spec` — a file is dispatched as full blocks and one shorter
  block, concatenating to the file cut to whole samples, the `i`-th with the timestamp
  `1 + i * (capacity * 1000 / bytes_per_second)` modulo `2^64`;
* `FileSampleSource.receiver_window` — fed by a file source, every `HandleSamples` call
  demodulates the last samples of the file read so far.
-/

/-! ### `StdinSampleSource` -/

/-- The state a `StdinSampleSource` keeps between reads: `block_` and `used_`. -/
structure StdinSampleSource where
  block : Bytes
  used : Nat

/-- As constructed: `block_` empty and `used_ = 0`. -/
def StdinSampleSource.init : StdinSampleSource := ⟨[], 0⟩

/-- `ScheduleRead()`'s `block_.resize(block_.capacity())`, then the completion of the read that
put `data` at `block_[used_]`. It returns the buffer `DispatchBuffer` gets (the whole samples
at the front of `block_`) and the state once the trailing bytes are copied to the front. -/
def StdinSampleSource.readSome (capacity alignment : Nat) (s : StdinSampleSource)
    (data : Bytes) : Bytes × StdinSampleSource :=
  let block := copyInto (vectorResize s.block capacity 0) s.used data
  let used := s.used + data.length
  let trailing := used % alignment
  let leading := used - trailing
  (block.take leading, ⟨copyInto block 0 (block.drop leading), trailing⟩)

/-- The completions of reads in turn: the buffers dispatched, and the state after them. -/
def StdinSampleSource.run (capacity alignment : Nat) (s : StdinSampleSource) :
    List Bytes → List Bytes × StdinSampleSource
  | [] => ([], s)
  | data :: rest =>
    let r := s.readSome capacity alignment data
    let next := r.2.run capacity alignment rest
    (r.1 :: next.1, next.2)

/-- The bytes `s` carries at the front of `block_` are `pending`, less than a sample. -/
structure StdinSampleSource.Carries (alignment : Nat) (s : StdinSampleSource) (pending : Bytes) :
    Prop where
  used_eq : s.used = pending.length
  used_lt : s.used < alignment
  used_le : s.used ≤ s.block.length
  front : s.block.take s.used = pending

section Stdin

variable {capacity alignment : Nat} {s : StdinSampleSource} {pending : Bytes}

theorem StdinSampleSource.carries_init (h : 0 < alignment) :
    StdinSampleSource.init.Carries alignment [] :=
  ⟨rfl, h, Nat.zero_le _, rfl⟩

/-- One read: the dispatched buffer and the new carried bytes split what was carried and what
was read at the last whole sample. -/
theorem StdinSampleSource.Carries.readSome (h : s.Carries alignment pending)
    (hcap : alignment ≤ capacity) (data : Bytes) :
    let r := s.readSome capacity alignment data
    let n := (pending ++ data).length
    r.1 = (pending ++ data).take (n - n % alignment) ∧
      r.2.Carries alignment ((pending ++ data).drop (n - n % alignment)) := by
  intro r n
  have hn' : (pending ++ data).length = n := rfl
  have hn : n = s.used + data.length := by simp [n, h.used_eq]
  have hlt : n % alignment < alignment := Nat.mod_lt _ (by have := h.used_lt; omega)
  have hmle : n % alignment ≤ n := Nat.mod_le _ _
  have hresize : (vectorResize s.block capacity 0).take s.used = pending := by
    have := h.used_le
    have := h.used_lt
    rw [vectorResize, List.take_append_of_le_length (by simp; omega),
      List.take_take, Nat.min_eq_left (by have := h.used_lt; omega), h.front]
  have hpos : s.used ≤ (vectorResize s.block capacity 0).length := by
    rw [length_vectorResize]; have := h.used_lt; omega
  -- the first `used_ + bytes_transferred` bytes of `block_` are the carried and the read ones
  have hread : (copyInto (vectorResize s.block capacity 0) s.used data).take n = pending ++ data := by
    rw [hn, take_copyInto _ _ _ hpos, hresize]
  have hlen : n ≤ (copyInto (vectorResize s.block capacity 0) s.used data).length := by
    simp only [copyInto, List.length_append, List.length_take, List.length_drop]
    omega
  refine ⟨?_, ⟨?_, ?_, ?_, ?_⟩⟩
  · show (copyInto _ s.used data).take ((s.used + data.length) - (s.used + data.length) % alignment) = _
    rw [← hn, ← hread, List.take_take, Nat.min_eq_left (Nat.sub_le _ _)]
  · show (s.used + data.length) % alignment = _
    rw [← hn, List.length_drop, hn']
    generalize n % alignment = m at hmle ⊢
    omega
  · show (s.used + data.length) % alignment < alignment
    rwa [← hn]
  · show (s.used + data.length) % alignment ≤ (copyInto _ 0 _).length
    rw [copyInto_zero, List.length_append, List.length_drop, List.length_drop, ← hn]
    generalize n % alignment = m at hmle ⊢
    omega
  · show (copyInto _ 0 _).take ((s.used + data.length) % alignment) = _
    have hfits : n % alignment ≤ (List.drop (n - n % alignment)
        (copyInto (vectorResize s.block capacity 0) s.used data)).length := by
      rw [List.length_drop]
      generalize n % alignment = m at hmle ⊢
      omega
    rw [copyInto_zero, ← hn, List.take_append_of_le_length hfits,
      ← hread, List.drop_take, Nat.sub_sub_self (Nat.mod_le _ _)]

/-- Over reads in turn: the dispatched buffers, then the bytes carried at the end, are what was
carried at the start and what was read; every buffer is whole samples. -/
theorem StdinSampleSource.Carries.run (h : s.Carries alignment pending) (hcap : alignment ≤ capacity)
    (reads : List Bytes) :
    ∃ rest, (s.run capacity alignment reads).2.Carries alignment rest ∧
      (s.run capacity alignment reads).1.flatten ++ rest = pending ++ reads.flatten ∧
      ∀ b ∈ (s.run capacity alignment reads).1, b.length % alignment = 0 := by
  induction reads generalizing s pending with
  | nil => exact ⟨pending, h, by simp [StdinSampleSource.run], fun _ hb => nomatch hb⟩
  | cons data rest ih =>
    obtain ⟨hbuf, hcarry⟩ := h.readSome hcap data
    obtain ⟨rest', hc, hcat, hwhole⟩ := ih hcarry
    refine ⟨rest', hc, ?_, fun b hb => ?_⟩
    · show (s.readSome capacity alignment data).1 ++ (_ : List Bytes).flatten ++ rest' = _
      rw [List.append_assoc, hcat, hbuf, ← List.append_assoc, List.take_append_drop,
        List.flatten_cons, List.append_assoc]
    · rcases List.mem_cons.mp hb with rfl | hb
      · rw [hbuf, List.length_take, Nat.min_eq_left (Nat.sub_le _ _)]
        exact Nat.sub_mod_eq_zero_of_mod_eq (Nat.mod_mod _ _).symm
      · exact hwhole b hb

end Stdin

/-- **Reads of any sizes are reassembled into whole samples.** Whatever the sizes and contents
of the reads from standard input, with a block of at least one sample: the buffers dispatched
are whole samples and concatenate to the bytes read cut to whole samples, and the front of
`block_` carries the rest, `used_` being the bytes past the last whole sample. No byte is lost,
repeated or reordered. -/
theorem StdinSampleSource.run_reassembles (capacity alignment : Nat) (hal : 0 < alignment)
    (hcap : alignment ≤ capacity) (reads : List Bytes) :
    let r := StdinSampleSource.init.run capacity alignment reads
    let n := reads.flatten.length
    r.1.flatten = reads.flatten.take (n - n % alignment) ∧ (∀ b ∈ r.1, b.length % alignment = 0) ∧
      r.2.used = n % alignment ∧ r.2.block.take r.2.used = reads.flatten.drop (n - n % alignment) := by
  intro r n
  obtain ⟨rest, hc, hcat, hwhole⟩ := (StdinSampleSource.carries_init hal).run hcap reads
  rw [List.nil_append] at hcat
  -- the buffers are whole samples, the carried bytes less than one
  have hdvd : alignment ∣ r.1.flatten.length := by
    rw [List.length_flatten]
    exact List.dvd_sum fun x hx => by
      obtain ⟨b, hb, rfl⟩ := List.mem_map.mp hx
      exact Nat.dvd_of_mod_eq_zero (hwhole b hb)
  obtain ⟨q, hq⟩ := hdvd
  have hlen : r.1.flatten.length + rest.length = n := by rw [← List.length_append, hcat]
  have hrest : rest.length = n % alignment := by
    rw [← hlen, hq, Nat.mul_add_mod, Nat.mod_eq_of_lt (hc.used_eq ▸ hc.used_lt)]
  have hcut : n - n % alignment = r.1.flatten.length := by omega
  refine ⟨?_, hwhole, hc.used_eq.trans hrest, ?_⟩
  · rw [hcut, ← hcat, List.take_left]
  · rw [hc.front, hcut, ← hcat, List.drop_left]

/-- Three reads of 3, 5 and 1 bytes of 4-byte samples, into a block of two samples. -/
theorem StdinSampleSource.run_reassembles_cs16h :
    let reads : List Bytes := [[1, 2, 3], [4, 5, 6, 7, 8], [9]]
    let r := StdinSampleSource.init.run 8 4 reads
    let n := reads.flatten.length
    0 < 4 ∧ 4 ≤ 8 ∧
      (r.1.flatten = reads.flatten.take (n - n % 4) ∧ (∀ b ∈ r.1, b.length % 4 = 0) ∧
        r.2.used = n % 4 ∧ r.2.block.take r.2.used = reads.flatten.drop (n - n % 4)) :=
  ⟨by decide, by decide, StdinSampleSource.run_reassembles 8 4 (by decide) (by decide) _⟩

/-! ### `FileSampleSource` -/

/-- The fields of a `FileSampleSource` that `ReadBlock` reads. -/
structure FileSampleSource where
  /-- `alignment_`, the bytes of one sample. -/
  alignment : Nat
  /-- `bytes_per_second_`. -/
  bytesPerSecond : UInt64
  /-- `block_.capacity()`: the `samples_per_block * alignment_` bytes reserved. -/
  capacity : Nat

/-- The constructor's fields for `format`, `samples_per_second` and `samples_per_block`. -/
def FileSampleSource.create (format : SampleFormat) (samplesPerSecond samplesPerBlock : Nat) :
    FileSampleSource where
  alignment := format.bytesPerSample
  bytesPerSecond := UInt64.ofNat (samplesPerSecond * format.bytesPerSample)
  capacity := samplesPerBlock * format.bytesPerSample

/-- `ReadBlock()` with `timestamp_ = ts` and `rest` the unread part of the file, and the calls it
posts, at most `fuel` of them: the `DispatchBuffer` calls in order, up to the read that reaches
the end of the file (`none` if the calls run out first). `stream_.read` of `block_.size()`
bytes gets `gcount = min(size, rest)` and sets `eof` when fewer remain. -/
def FileSampleSource.readBlocks (src : FileSampleSource) :
    Nat → UInt64 → Bytes → Option (List (UInt64 × Bytes))
  | 0, _, _ => none
  | fuel + 1, ts, rest =>
    let gcount := min src.capacity rest.length
    let block := rest.take (gcount - gcount % src.alignment)
    let dispatched := if block.isEmpty then [] else [(ts, block)]
    let ts' := if block.isEmpty then ts
      else ts + UInt64.ofNat block.length * 1000 / src.bytesPerSecond
    if rest.length < src.capacity then some dispatched
    else (dispatched ++ ·) <$> src.readBlocks fuel ts' (rest.drop src.capacity)

/-- A source whose block holds whole samples, at least one. -/
structure FileSampleSource.Valid (src : FileSampleSource) : Prop where
  alignment_pos : 0 < src.alignment
  capacity_pos : 0 < src.capacity
  alignment_dvd : src.alignment ∣ src.capacity

theorem FileSampleSource.create_valid {format : SampleFormat} (hformat : format ≠ .unknown)
    (samplesPerSecond : Nat) {samplesPerBlock : Nat} (hblock : 0 < samplesPerBlock) :
    (FileSampleSource.create format samplesPerSecond samplesPerBlock).Valid := by
  have hpos := SampleFormat.bytesPerSample_pos hformat
  exact ⟨hpos, Nat.mul_pos hblock hpos, Dvd.intro_left _ rfl⟩

/-- `block_.size() * 1000ULL / bytes_per_second_` for a full block: how far `timestamp_` moves. -/
def FileSampleSource.blockMillis (src : FileSampleSource) : UInt64 :=
  UInt64.ofNat src.capacity * 1000 / src.bytesPerSecond

/-- The sizes of the blocks of a file of `n` bytes: of its `w = n - n % alignment` bytes of whole
samples, `w / capacity` full blocks, and the rest if there is any. -/
def FileSampleSource.blockSizes (src : FileSampleSource) (n : Nat) : List Nat :=
  let w := n - n % src.alignment
  List.replicate (w / src.capacity) src.capacity ++
    if w % src.capacity = 0 then [] else [w % src.capacity]

section File

variable {src : FileSampleSource} {fuel : Nat} {ts : UInt64} {rest : Bytes}

/-- The read that reaches the end of the file dispatches its whole samples, if any, and stops. -/
theorem FileSampleSource.readBlocks_of_lt (hlt : rest.length < src.capacity) :
    src.readBlocks (fuel + 1) ts rest =
      some (if rest.length - rest.length % src.alignment = 0 then []
        else [(ts, rest.take (rest.length - rest.length % src.alignment))]) := by
  have hmin : min src.capacity rest.length = rest.length := Nat.min_eq_right hlt.le
  simp only [readBlocks, hmin, hlt, decide_True, if_true]
  by_cases hw : rest.length - rest.length % src.alignment = 0
  · simp [hw]
  · have hne : (rest.take (rest.length - rest.length % src.alignment)).isEmpty = false := by
      rw [List.isEmpty_eq_false, ← List.length_pos, List.length_take]
      omega
    simp only [hne, hw, if_false, Bool.false_eq_true]

/-- A full read dispatches a full block and moves `timestamp_` by `blockMillis`. -/
theorem FileSampleSource.readBlocks_of_le (h : src.Valid) (hle : src.capacity ≤ rest.length) :
    src.readBlocks (fuel + 1) ts rest =
      ((ts, rest.take src.capacity) :: ·) <$>
        src.readBlocks fuel (ts + src.blockMillis) (rest.drop src.capacity) := by
  have hmin : min src.capacity rest.length = src.capacity := Nat.min_eq_left hle
  have hfull : src.capacity - src.capacity % src.alignment = src.capacity := by
    rw [Nat.mod_eq_zero_of_dvd h.alignment_dvd, Nat.sub_zero]
  have hne : (rest.take src.capacity).isEmpty = false := by
    rw [List.isEmpty_eq_false, ← List.length_pos, List.length_take]
    have := h.capacity_pos
    omega
  have hlen : (rest.take src.capacity).length = src.capacity := List.length_take_of_le hle
  simp only [readBlocks, hmin, hfull, hne, hlen, if_false, Bool.false_eq_true, Nat.not_lt.mpr hle,
    decide_False, blockMillis]
  rfl

end File

theorem uint64_toNat_add (a b : UInt64) : (a + b).toNat = (a.toNat + b.toNat) % 2 ^ 64 :=
  UInt64.toNat_add a b

/-- **A file is dispatched in full blocks of whole samples, at evenly spaced timestamps.** For
every file and every source whose block holds whole samples, given one more call than the
file has full blocks: the blocks dispatched concatenate to the file cut to whole samples;
they are full blocks and then one shorter block if any bytes are left (`blockSizes`); and the
`i`-th carries the timestamp `ts + i * blockMillis` modulo `2^64`. The trailing part of a
sample at the end of the file is dropped. -/
theorem FileSampleSource.readBlocks_spec (src : FileSampleSource) (h : src.Valid) (file : Bytes)
    (ts : UInt64) (fuel : Nat) (hfuel : file.length / src.capacity < fuel) :
    ∃ blocks, src.readBlocks fuel ts file = some blocks ∧
      (blocks.map Prod.snd).flatten = file.take (file.length - file.length % src.alignment) ∧
      blocks.map (·.2.length) = src.blockSizes file.length ∧
      blocks.map (·.1.toNat) =
        (List.range blocks.length).map fun i => (ts.toNat + i * src.blockMillis.toNat) % 2 ^ 64 := by
  induction fuel generalizing ts file with
  | zero => exact absurd hfuel (Nat.not_lt_zero _)
  | succ fuel ih =>
    by_cases hlt : file.length < src.capacity
    · -- the last read: at most one block, shorter than a full one
      rw [FileSampleSource.readBlocks_of_lt hlt]
      have hw : file.length - file.length % src.alignment < src.capacity := by omega
      have hts : ts.toNat % 2 ^ 64 = ts.toNat := Nat.mod_eq_of_lt ts.toNat_lt_size
      by_cases hw0 : file.length - file.length % src.alignment = 0
      · refine ⟨[], by simp [hw0], by simp [hw0], ?_, rfl⟩
        simp [blockSizes, hw0]
      · refine ⟨[(ts, file.take (file.length - file.length % src.alignment))], by simp [hw0],
          by simp, ?_, ?_⟩
        · simp [blockSizes, Nat.div_eq_of_lt hw, Nat.mod_eq_of_lt hw, hw0]
        · simp only [List.map_singleton, List.length_singleton, show List.range 1 = [0] from rfl,
            Nat.zero_mul, Nat.add_zero, hts]
    · -- a full read, then the rest of the file from `ts + blockMillis`
      have hle := Nat.le_of_not_lt hlt
      have hC := h.capacity_pos
      obtain ⟨blocks, hrun, hcat, hsizes, hts⟩ := ih (file.drop src.capacity) (ts + src.blockMillis)
        (by rw [List.length_drop]; rw [Nat.div_eq_sub_div hC hle] at hfuel; omega)
      -- dropping a full block leaves the same trailing part of a sample
      have hmod : (file.length - src.capacity) % src.alignment = file.length % src.alignment := by
        obtain ⟨k, hk⟩ := h.alignment_dvd
        have := Nat.add_mul_mod_self_left (file.length - src.capacity) src.alignment k
        rw [← hk, Nat.sub_add_cancel hle] at this
        exact this.symm
      have hmle := Nat.mod_le (file.length - src.capacity) src.alignment
      have hCw : src.capacity ≤ file.length - file.length % src.alignment := by omega
      rw [FileSampleSource.readBlocks_of_le h hle, hrun]
      refine ⟨(ts, file.take src.capacity) :: blocks, rfl, ?_, ?_, ?_⟩
      · rw [List.map_cons, List.flatten_cons, hcat, List.length_drop, hmod, ← List.take_add]
        congr 1
        omega
      · rw [List.map_cons, hsizes, List.length_drop, List.length_take_of_le hle]
        simp only [blockSizes, hmod]
        rw [show file.length - src.capacity - file.length % src.alignment =
            file.length - file.length % src.alignment - src.capacity by omega,
          Nat.div_eq_sub_div hC hCw, Nat.mod_eq_sub_mod hCw, List.replicate_succ, List.cons_append]
      · rw [List.map_cons, hts, List.length_cons, List.range_succ_eq_map, List.map_cons,
          List.map_map]
        congr 1
        · rw [Nat.zero_mul, Nat.add_zero]
          exact (Nat.mod_eq_of_lt ts.toNat_lt_size).symm
        · refine List.map_congr_left fun i _ => ?_
          show ((ts + src.blockMillis).toNat + i * src.blockMillis.toNat) % 2 ^ 64 =
            (ts.toNat + (i + 1) * src.blockMillis.toNat) % 2 ^ 64
          rw [uint64_toNat_add, Nat.succ_mul]
          generalize i * src.blockMillis.toNat = x
          omega

/-- A file of five bytes read as 8-bit samples, at the constructor's defaults. -/
theorem FileSampleSource.readBlocks_spec_cu8 :
    let src := FileSampleSource.create .cu8 2083333 524288
    let file : Bytes := List.replicate 5 7
    src.Valid ∧ file.length / src.capacity < 1 ∧
      ∃ blocks, src.readBlocks 1 1 file = some blocks ∧
        (blocks.map Prod.snd).flatten = file.take (file.length - file.length % src.alignment) ∧
        blocks.map (·.2.length) = src.blockSizes file.length ∧
        blocks.map (·.1.toNat) =
          (List.range blocks.length).map fun i => (1 + i * src.blockMillis.toNat) % 2 ^ 64 := by
  intro src file
  have hv : src.Valid := FileSampleSource.create_valid (by decide) _ (by decide)
  have hfuel : file.length / src.capacity < 1 := by decide
  exact ⟨hv, hfuel, FileSampleSource.readBlocks_spec src hv file 1 1 hfuel⟩

/-! ### A file source feeding the receiver -/

/-- In `l₁ ++ x :: l₂ = replicate q c ++ t` with at most one element in `t`, every element of
`l₁` is `c`. -/
theorem eq_of_mem_prefix_replicate {l₁ l₂ t : List Nat} {x q c : Nat}
    (h : l₁ ++ x :: l₂ = List.replicate q c ++ t) (ht : t.length ≤ 1) : ∀ y ∈ l₁, y = c := by
  have hlen := congrArg List.length h
  simp only [List.length_append, List.length_cons, List.length_replicate] at hlen
  have hl₁ : l₁ = (List.replicate q c ++ t).take l₁.length := by rw [← h, List.take_left]
  rw [List.take_append_of_le_length (by simp only [List.length_replicate]; omega),
    List.take_replicate] at hl₁
  intro y hy
  rw [hl₁] at hy
  exact List.eq_of_mem_replicate hy

/-- Every block is whole samples. -/
theorem FileSampleSource.blockSizes_whole {src : FileSampleSource} (h : src.Valid) (n : Nat) :
    ∀ x ∈ src.blockSizes n, x % src.alignment = 0 := by
  have hw : src.alignment ∣ n - n % src.alignment := Nat.dvd_sub_mod n
  intro x hx
  simp only [blockSizes, List.mem_append, List.mem_replicate] at hx
  rcases hx with ⟨-, rfl⟩ | hx
  · exact Nat.mod_eq_zero_of_dvd h.alignment_dvd
  · split at hx
    · cases hx
    · rw [List.mem_singleton.mp hx]
      exact Nat.mod_eq_zero_of_dvd ((Nat.dvd_mod_iff h.alignment_dvd).mpr hw)

/-- **A file source feeds the receiver a right window at every call.** For every converter,
block size and file, the file source for the converter's format dispatches its blocks, and at
each block `b` (after the blocks `pre`) the receiver fed the earlier blocks demodulates as its
window the last `total_samples` samples of the file read so far. This holds because the earlier
blocks are all full, so the receiver never gets a smaller buffer before a larger one. -/
theorem FileSampleSource.receiver_window (conv : SampleConverter) (samplesPerSecond : Nat)
    {samplesPerBlock : Nat} (hblock : 0 < samplesPerBlock) (file : Bytes) (fuel : Nat)
    (hfuel : file.length / (samplesPerBlock * conv.bytesPerSample) < fuel) :
    ∃ blocks,
      (FileSampleSource.create conv.format samplesPerSecond samplesPerBlock).readBlocks fuel 1 file =
        some blocks ∧
      ∀ pre b post, blocks = pre ++ b :: post →
        let r := Receiver.init.feed conv (pre.map Prod.snd)
        (pre.map Prod.snd).flatten ++ b.2 <+: file ∧
        (r.loadSamples conv b.2).take (r.totalSamples conv b.2 * conv.bytesPerSample) =
          lastBytes ((pre.map Prod.snd).flatten ++ b.2) (r.totalSamples conv b.2 * conv.bytesPerSample) := by
  let src := FileSampleSource.create conv.format samplesPerSecond samplesPerBlock
  have hv : src.Valid := FileSampleSource.create_valid conv.format_ne_unknown _ hblock
  obtain ⟨blocks, hrun, hcat, hsizes, -⟩ := FileSampleSource.readBlocks_spec src hv file 1 fuel hfuel
  refine ⟨blocks, hrun, fun pre b post hsplit => ?_⟩
  have hlens : pre.map (·.2.length) ++ b.2.length :: post.map (·.2.length) =
      src.blockSizes file.length := by
    rw [← hsizes, hsplit, List.map_append, List.map_cons]
  -- the blocks before `b` are full, and every block is whole samples
  have hfull : ∀ x ∈ pre.map Prod.snd, x.length = src.capacity := by
    intro x hx
    obtain ⟨e, he, rfl⟩ := List.mem_map.mp hx
    refine eq_of_mem_prefix_replicate hlens ?_ _ (List.mem_map_of_mem _ he)
    split <;> simp
  have hwhole : ∀ e ∈ blocks, e.2.length % conv.bytesPerSample = 0 := fun e he =>
    FileSampleSource.blockSizes_whole hv file.length _ (hsizes ▸ List.mem_map_of_mem _ he)
  have hholds := Receiver.holds_feed_of_sorted conv (pre.map Prod.snd)
    (fun x hx => by
      obtain ⟨e, he, rfl⟩ := List.mem_map.mp hx
      exact hwhole e (hsplit ▸ List.mem_append_left _ he))
    (List.Pairwise.chain' (List.pairwise_of_forall_mem_list fun x hx y hy => by
      rw [hfull x hx, hfull y hy]))
  refine ⟨?_, hholds.window conv (hwhole b (hsplit ▸ List.mem_append_right _ (List.mem_cons_self _ _)))⟩
  -- the blocks so far are a prefix of the file
  have hpre : (pre.map Prod.snd).flatten ++ b.2 <+: (blocks.map Prod.snd).flatten := by
    rw [hsplit, List.map_append, List.map_cons, List.flatten_append, List.flatten_cons,
      ← List.append_assoc]
    exact List.prefix_append _ _
  exact hpre.trans (hcat ▸ List.take_prefix _ _)

/-- An 8-bit converter and a file of five bytes, at the constructor's defaults. -/
theorem FileSampleSource.receiver_window_cu8 :
    let conv : SampleConverter := ⟨.cu8, by decide, fun _ => 0, fun _ => 0⟩
    let file : Bytes := List.replicate 5 7
    0 < 524288 ∧ file.length / (524288 * conv.bytesPerSample) < 1 ∧
    ∃ blocks,
      (FileSampleSource.create conv.format 2083333 524288).readBlocks 1 1 file = some blocks ∧
      ∀ pre b post, blocks = pre ++ b :: post →
        let r := Receiver.init.feed conv (pre.map Prod.snd)
        (pre.map Prod.snd).flatten ++ b.2 <+: file ∧
        (r.loadSamples conv b.2).take (r.totalSamples conv b.2 * conv.bytesPerSample) =
          lastBytes ((pre.map Prod.snd).flatten ++ b.2) (r.totalSamples conv b.2 * conv.bytesPerSample) := by
  intro conv file
  have hfuel : file.length / (524288 * conv.bytesPerSample) < 1 := by decide
  exact ⟨by decide, hfuel, FileSampleSource.receiver_window conv 2083333 (by decide) file 1 hfuel⟩

end Dump978
