import Dump978.Demodulator
import Dump978.RawMessage

namespace Dump978

/-!
# Receiver — `SingleThreadReceiver::HandleSamples` (`demodulator.cc`, `convert.h`)

`HandleSamples` gets a buffer of IQ samples, puts it behind the samples it saved from the
previous call, converts the whole window to phases, demodulates it, dispatches the frames
found as `RawMessage`s, and saves the window's last `NumTrailingSamples()` samples at the
front of `samples_` for the next call.

A `SampleConverter` is modelled by its format and by what it computes for one sample: the
phase (`lookup_phase_`, `TableAtan2`, ...) and the magnitude squared. The tables are built
with floating-point `atan2`, so they are parameters; the loops that apply them sample by
sample are the `List.map`s of `convertPhase` and `convertMagSq`.

`samples_` and `phase_` only grow (`resize` when too small). The tail is copied from the
end of `samples_` (`samples_.end() - tail_size * BytesPerSample()`), which is the end of the
current window only when the vector is no longer than the window. Hence:

* `Receiver.Holds.advance` — when the vector is no longer than the window (or nothing is cut),
  the saved samples are the stream's last ones after the call;
* `Receiver.holds_feed_of_sorted` — so this holds over every run whose buffers never get
  smaller;
* `handleSamples_stale_tail` — and it fails after a buffer smaller than the one before: the saved
  samples then come from the end of the vector, which holds bytes of an earlier call;
* `handleSamples_scan_gap` — the frames a call finds start before its window's last
  `SYNC_BITS * 2 - 4 + NumTrailingSamples()` samples, while only the last
  `NumTrailingSamples()` are saved.
-/

/-- `SampleFormat`. -/
inductive SampleFormat
  | cu8
  | cs8
  | cs16h
  | cf32h
  | unknown
  deriving DecidableEq, Repr

/-- `BytesPerSample(format)`. -/
def SampleFormat.bytesPerSample : SampleFormat → Nat
  | .cu8 => 2
  | .cs8 => 2
  | .cs16h => 4
  | .cf32h => 8
  | .unknown => 0

theorem SampleFormat.bytesPerSample_pos {format : SampleFormat} (h : format ≠ .unknown) :
    0 < format.bytesPerSample := by
  cases format <;> simp [SampleFormat.bytesPerSample] at h ⊢

/-- A converter as `SampleConverter::Create` returns it: one of the four formats it
implements (it throws for any other), and the phase and magnitude squared of one sample. -/
structure SampleConverter where
  format : SampleFormat
  format_ne_unknown : format ≠ .unknown
  phaseOf : Bytes → UInt16
  magSqOf : Bytes → Float

namespace SampleConverter

variable (conv : SampleConverter)

/-- `BytesPerSample()`. -/
def bytesPerSample : Nat := conv.format.bytesPerSample

theorem bytesPerSample_pos : 0 < conv.bytesPerSample := by
  obtain ⟨format, h, -, -⟩ := conv
  cases format <;> simp [bytesPerSample, SampleFormat.bytesPerSample] at h ⊢

/-- Sample `i` of a byte buffer. -/
def sample (bytes : Bytes) (i : Nat) : Bytes :=
  (bytes.drop (i * conv.bytesPerSample)).take conv.bytesPerSample

/-- `ConvertPhase(begin, end, out)`: one phase per whole sample; a trailing partial sample
is ignored. -/
def convertPhase (bytes : Bytes) : PhaseBuffer :=
  (List.range (bytes.length / conv.bytesPerSample)).map fun i => conv.phaseOf (conv.sample bytes i)

/-- `ConvertMagSq(begin, end, out)`. -/
def convertMagSq (bytes : Bytes) : List Float :=
  (List.range (bytes.length / conv.bytesPerSample)).map fun i => conv.magSqOf (conv.sample bytes i)

end SampleConverter

/-- The state `SingleThreadReceiver` keeps between calls: `samples_`, `saved_samples_` and
`phase_`. -/
structure Receiver where
  samples : Bytes
  savedSamples : Nat
  phase : PhaseBuffer

/-- A receiver as constructed. -/
def Receiver.init : Receiver := ⟨[], 0, []⟩

/-- `if (v.size() < n) v.resize(n)`. -/
def growTo {α : Type} (v : List α) (n : Nat) (fill : α) : List α :=
  if v.length < n then vectorResize v n fill else v

section HandleSamples

variable (conv : SampleConverter)

/-- `total_samples`: the saved samples and the buffer's whole samples. -/
def Receiver.totalSamples (r : Receiver) (buffer : Bytes) : Nat :=
  buffer.length / conv.bytesPerSample + r.savedSamples

/-- `samples_` once the buffer is copied in behind the saved samples. -/
def Receiver.loadSamples (r : Receiver) (buffer : Bytes) : Bytes :=
  copyInto (growTo r.samples (r.totalSamples conv buffer * conv.bytesPerSample) 0)
    (r.savedSamples * conv.bytesPerSample) buffer

/-- `phase_` once the window's `total_bytes` are converted into its front. -/
def Receiver.loadPhase (r : Receiver) (samples : Bytes) (totalSamples : Nat) : PhaseBuffer :=
  copyInto (growTo r.phase totalSamples 0) 0
    (conv.convertPhase (samples.take (totalSamples * conv.bytesPerSample)))

/-- The `RawMessage` dispatched for a frame: RSSI from the mean magnitude squared of its
samples, time from its first sample at 2.083333 Msps. -/
def SampleConverter.rawMessage (samples : Bytes) (timestamp : UInt64) (previousSamples : Nat)
    (m : Message) : RawMessage :=
  let bps := conv.bytesPerSample
  let magsq := conv.convertMagSq
    ((samples.drop (m.beginPos.toNat * bps)).take ((m.endPos - m.beginPos).toNat * bps))
  let totalPower := magsq.foldl (· + ·) 0
  let rssi := if totalPower == 0 then -1000 else 10 * Float.log10 (totalPower / magsq.length.toFloat)
  let messageTimestamp := timestamp - UInt64.ofNat (1000 * previousSamples / 2083333) +
    UInt64.ofNat (1000 * m.beginPos.toNat / 2083333)
  RawMessage.ofPayload m.payload messageTimestamp (UInt32.ofNat m.correctedErrors) rssi 0

/-- The end of `HandleSamples`: copy the last `NumTrailingSamples()` samples of `samples_` to
its front, or keep everything. -/
def saveTail (samples : Bytes) (totalSamples : Nat) : Bytes × Nat :=
  if totalSamples > numTrailingSamples then
    (copyInto samples 0 (samples.drop (samples.length - numTrailingSamples * conv.bytesPerSample)),
      numTrailingSamples)
  else (samples, totalSamples)

/-- The state after `HandleSamples`, which depends neither on the timestamp nor on the
frames found. -/
def Receiver.advance (r : Receiver) (buffer : Bytes) : Receiver :=
  let totalSamples := r.totalSamples conv buffer
  let samples := r.loadSamples conv buffer
  let tail := saveTail conv samples totalSamples
  ⟨tail.1, tail.2, r.loadPhase conv samples totalSamples⟩

/-- `SingleThreadReceiver::HandleSamples(timestamp, begin, end)`: the new state and the
messages dispatched. The window `Demodulate` gets is the first `total_samples` of `phase_`;
by `demodulate_frames` the `getD` default is never taken. -/
def Receiver.handleSamples (fec : FEC) (r : Receiver) (timestamp : UInt64) (buffer : Bytes) :
    Receiver × List RawMessage :=
  let totalSamples := r.totalSamples conv buffer
  let samples := r.loadSamples conv buffer
  let phase := r.loadPhase conv samples totalSamples
  let messages := (demodulate fec (phase.take totalSamples)).getD []
  (r.advance conv buffer, messages.map (conv.rawMessage samples timestamp r.savedSamples))

theorem Receiver.advance_samples (r : Receiver) (buffer : Bytes) :
    (r.advance conv buffer).samples =
      (saveTail conv (r.loadSamples conv buffer) (r.totalSamples conv buffer)).1 := rfl

/-- The state after a sequence of calls. -/
def Receiver.feed (r : Receiver) (buffers : List Bytes) : Receiver :=
  buffers.foldl (Receiver.advance conv) r

/-- The state part of `HandleSamples`. -/
theorem Receiver.handleSamples_fst (fec : FEC) (r : Receiver) (timestamp : UInt64) (buffer : Bytes) :
    (r.handleSamples conv fec timestamp buffer).1 = r.advance conv buffer := rfl

end HandleSamples

/-! ### The saved samples -/

/-- The last `n` bytes of a stream. -/
def lastBytes (stream : Bytes) (n : Nat) : Bytes := stream.drop (stream.length - n)

theorem lastBytes_append {l : Bytes} {n : Nat} (b : Bytes) (h : n ≤ l.length) :
    lastBytes l n ++ b = lastBytes (l ++ b) (n + b.length) := by
  have : (l ++ b).length - (n + b.length) = l.length - n := by simp; omega
  rw [lastBytes, lastBytes, this, List.drop_append_of_le_length (by omega)]

theorem drop_lastBytes {l : Bytes} {n k : Nat} (h : k ≤ n) (hn : n ≤ l.length) :
    (lastBytes l n).drop k = lastBytes l (n - k) := by
  rw [lastBytes, lastBytes, List.drop_drop]
  congr 1
  omega

@[simp] theorem length_growTo {α : Type} (v : List α) (n : Nat) (fill : α) :
    (growTo v n fill).length = max v.length n := by
  unfold growTo
  split_ifs
  · rw [length_vectorResize]; omega
  · omega

theorem take_growTo {α : Type} (v : List α) (n : Nat) (fill : α) {k : Nat} (hk : k ≤ v.length) :
    (growTo v n fill).take k = v.take k := by
  unfold growTo
  split_ifs with hlt
  · rw [vectorResize, List.take_append_of_le_length (by simp; omega), List.take_take,
      Nat.min_eq_left (by omega)]
  · rfl

section Window

variable (conv : SampleConverter) {r : Receiver} {stream buffer : Bytes}

/-- After the calls that delivered `stream`, the front of `samples_` holds the stream's last
`saved_samples_` samples. -/
structure Receiver.Holds (r : Receiver) (stream : Bytes) : Prop where
  saved_le_stream : r.savedSamples * conv.bytesPerSample ≤ stream.length
  saved_le_samples : r.savedSamples * conv.bytesPerSample ≤ r.samples.length
  front : r.samples.take (r.savedSamples * conv.bytesPerSample) =
    lastBytes stream (r.savedSamples * conv.bytesPerSample)

theorem Receiver.holds_init : Receiver.init.Holds conv [] :=
  ⟨by simp [Receiver.init], by simp [Receiver.init], by simp [Receiver.init, lastBytes]⟩

/-- A buffer of whole samples fills `total_bytes` exactly. -/
theorem Receiver.totalBytes_eq (hb : buffer.length % conv.bytesPerSample = 0) :
    r.totalSamples conv buffer * conv.bytesPerSample =
      r.savedSamples * conv.bytesPerSample + buffer.length := by
  rw [Receiver.totalSamples, Nat.add_mul, Nat.div_mul_cancel (Nat.dvd_of_mod_eq_zero hb)]
  omega

theorem Receiver.length_loadSamples (hb : buffer.length % conv.bytesPerSample = 0) :
    (r.loadSamples conv buffer).length =
      max r.samples.length (r.totalSamples conv buffer * conv.bytesPerSample) := by
  have htotal := r.totalBytes_eq conv hb
  rw [Receiver.loadSamples, length_copyInto _ _ _ (by simp; omega), length_growTo]

/-- **The window `HandleSamples` converts and demodulates is the stream's last
`total_samples` samples**: the saved ones, then the buffer. -/
theorem Receiver.Holds.window (h : r.Holds conv stream)
    (hb : buffer.length % conv.bytesPerSample = 0) :
    (r.loadSamples conv buffer).take (r.totalSamples conv buffer * conv.bytesPerSample) =
      lastBytes (stream ++ buffer) (r.totalSamples conv buffer * conv.bytesPerSample) := by
  have htotal := r.totalBytes_eq conv hb
  have hpos : r.savedSamples * conv.bytesPerSample ≤
      (growTo r.samples (r.totalSamples conv buffer * conv.bytesPerSample) 0).length := by
    have := h.saved_le_samples
    simp only [length_growTo]
    omega
  rw [htotal, Receiver.loadSamples, take_copyInto _ _ _ hpos, take_growTo _ _ _ h.saved_le_samples,
    h.front, lastBytes_append _ h.saved_le_stream]

/-- `saved_samples_ = min(total_samples, NumTrailingSamples())` after every call. -/
theorem Receiver.savedSamples_advance (r : Receiver) (buffer : Bytes) :
    (r.advance conv buffer).savedSamples = min (r.totalSamples conv buffer) numTrailingSamples := by
  simp only [Receiver.advance, saveTail]
  split_ifs <;> omega

theorem Receiver.length_advance (hb : buffer.length % conv.bytesPerSample = 0) :
    (r.advance conv buffer).samples.length =
      max r.samples.length (r.totalSamples conv buffer * conv.bytesPerSample) := by
  have hlen := r.length_loadSamples conv hb
  simp only [Receiver.advance, saveTail]
  split_ifs
  · rw [length_copyInto _ _ _ (by simp), hlen]
  · exact hlen

/-- **One call keeps the saved samples right** when the window is not cut (`total_samples`
at most `NumTrailingSamples()`) or `samples_` is no longer than the window. -/
theorem Receiver.Holds.advance (h : r.Holds conv stream)
    (hb : buffer.length % conv.bytesPerSample = 0)
    (hfits : r.totalSamples conv buffer ≤ numTrailingSamples ∨
      r.samples.length ≤ r.totalSamples conv buffer * conv.bytesPerSample) :
    (r.advance conv buffer).Holds conv (stream ++ buffer) := by
  have htotal := r.totalBytes_eq conv hb
  have hwindow := h.window conv hb
  have hlen := r.length_loadSamples conv hb
  have hstream := h.saved_le_stream
  simp only [Receiver.advance, saveTail]
  split_ifs with hcut
  · -- the window is cut, and `samples_` ends where the window ends
    have hN : numTrailingSamples * conv.bytesPerSample ≤
        r.totalSamples conv buffer * conv.bytesPerSample := Nat.mul_le_mul_right _ (le_of_lt hcut)
    have hfull : (r.loadSamples conv buffer).length =
        r.totalSamples conv buffer * conv.bytesPerSample := by
      rw [hlen]
      exact max_eq_right (hfits.resolve_left (by omega))
    have htail : (r.loadSamples conv buffer).drop ((r.loadSamples conv buffer).length -
        numTrailingSamples * conv.bytesPerSample) =
        lastBytes (stream ++ buffer) (numTrailingSamples * conv.bytesPerSample) := by
      rw [hfull, ← List.take_of_length_le (le_of_eq hfull), hwindow,
        drop_lastBytes (Nat.sub_le _ _) (by simp only [List.length_append]; omega),
        Nat.sub_sub_self hN]
    have hlenTail : (lastBytes (stream ++ buffer) (numTrailingSamples * conv.bytesPerSample)).length =
        numTrailingSamples * conv.bytesPerSample := by
      simp only [lastBytes, List.length_drop, List.length_append]
      omega
    refine ⟨by simp only [List.length_append]; omega, ?_, ?_⟩
    · simp only [htail, copyInto_zero, List.length_append, hlenTail]
      omega
    · simp only [htail, copyInto_zero]
      exact List.take_left' hlenTail
  · exact ⟨by simp only [List.length_append]; omega, by simp only [hlen]; omega, hwindow⟩

/-- `samples_` is no longer than the window of a next buffer of at least `b` samples, and
`saved_samples_` is at most `NumTrailingSamples()`. -/
structure Receiver.Grows (r : Receiver) (b : Nat) : Prop where
  samples_le : r.samples.length ≤ (b + r.savedSamples) * conv.bytesPerSample
  saved_le : r.savedSamples ≤ numTrailingSamples

theorem Receiver.grows_init : Receiver.init.Grows conv 0 :=
  ⟨by simp [Receiver.init], Nat.zero_le _⟩

theorem Receiver.Grows.advance {b : Nat} (hg : r.Grows conv b)
    (hb : buffer.length % conv.bytesPerSample = 0) (hle : b ≤ buffer.length / conv.bytesPerSample) :
    (r.advance conv buffer).Grows conv (buffer.length / conv.bytesPerSample) := by
  have hsaved := r.savedSamples_advance conv buffer
  have hb' : (b + r.savedSamples) * conv.bytesPerSample ≤
      (buffer.length / conv.bytesPerSample + r.savedSamples) * conv.bytesPerSample :=
    Nat.mul_le_mul_right _ (by omega)
  have hsaved' : (buffer.length / conv.bytesPerSample + r.savedSamples) * conv.bytesPerSample ≤
      (buffer.length / conv.bytesPerSample + (r.advance conv buffer).savedSamples) *
        conv.bytesPerSample := by
    have := hg.saved_le
    rw [hsaved, Receiver.totalSamples]
    exact Nat.mul_le_mul_right _ (by omega)
  have := hg.samples_le
  refine ⟨?_, by rw [hsaved]; omega⟩
  rw [r.length_advance conv hb, Receiver.totalSamples]
  omega

@[simp] theorem Receiver.feed_nil (r : Receiver) : r.feed conv [] = r := rfl

@[simp] theorem Receiver.feed_cons (r : Receiver) (x : Bytes) (xs : List Bytes) :
    r.feed conv (x :: xs) = (r.advance conv x).feed conv xs := rfl

/-- From a state that keeps the stream's last samples and is no longer than the next window,
every run of buffers of whole samples that never get smaller keeps them. -/
theorem Receiver.holds_feed (prev : Bytes) (buffers : List Bytes) (hs : r.Holds conv stream)
    (hg : r.Grows conv (prev.length / conv.bytesPerSample))
    (hwhole : ∀ x ∈ buffers, x.length % conv.bytesPerSample = 0)
    (hsorted : buffers.Chain (fun a b => a.length ≤ b.length) prev) :
    (r.feed conv buffers).Holds conv (stream ++ buffers.flatten) := by
  induction buffers generalizing r stream prev with
  | nil => simpa using hs
  | cons x xs ih =>
    obtain ⟨hle, hrest⟩ := List.chain_cons.mp hsorted
    have hx := hwhole x (List.mem_cons_self _ _)
    have hle' := Nat.div_le_div_right (c := conv.bytesPerSample) hle
    have hfits : r.samples.length ≤ r.totalSamples conv x * conv.bytesPerSample := by
      have := hg.samples_le
      have : (prev.length / conv.bytesPerSample + r.savedSamples) * conv.bytesPerSample ≤
          r.totalSamples conv x * conv.bytesPerSample := Nat.mul_le_mul_right _ (by
            rw [Receiver.totalSamples]; omega)
      omega
    rw [Receiver.feed_cons, List.flatten_cons, ← List.append_assoc]
    exact ih x (hs.advance conv hx (.inr hfits)) (hg.advance conv hx hle')
      (fun y hy => hwhole y (List.mem_cons_of_mem _ hy)) hrest

/-- **Over a run whose buffers never get smaller, the saved samples stay right**: the front
of `samples_` holds the last `saved_samples_` samples of all the buffers. -/
theorem Receiver.holds_feed_of_sorted (buffers : List Bytes)
    (hwhole : ∀ x ∈ buffers, x.length % conv.bytesPerSample = 0)
    (hsorted : buffers.Chain' fun a b => a.length ≤ b.length) :
    (Receiver.init.feed conv buffers).Holds conv buffers.flatten := by
  have hchain : buffers.Chain (fun a b => a.length ≤ b.length) [] := by
    cases buffers with
    | nil => exact List.Chain.nil
    | cons x xs => exact List.Chain.cons (Nat.zero_le _) hsorted
  simpa using Receiver.holds_feed conv [] buffers (Receiver.holds_init conv)
    (by simpa using Receiver.grows_init conv) hwhole hchain

end Window

theorem copyInto_replicate {α : Type} (a : α) {n pos m : Nat} (h : pos + m ≤ n) :
    copyInto (List.replicate n a) pos (List.replicate m a) = List.replicate n a := by
  rw [copyInto, List.take_replicate, List.length_replicate, List.drop_replicate,
    List.append_replicate_replicate, List.append_replicate_replicate]
  congr 1
  omega

/-- **After a buffer smaller than the one before, the saved samples are not the stream's last
ones.** A first call with `NumTrailingSamples() + 2` zero samples makes `samples_` that long. A
second call with one sample of ones saves the last `NumTrailingSamples()` samples of the whole
vector, which ends one sample past the window: the saved samples end with a stale zero
sample, where the stream ends with the new sample. -/
theorem handleSamples_stale_tail (conv : SampleConverter) (fec : FEC) (t1 t2 : UInt64) :
    let b1 := List.replicate ((numTrailingSamples + 2) * conv.bytesPerSample) (0 : UInt8)
    let b2 := List.replicate conv.bytesPerSample (1 : UInt8)
    let r := ((Receiver.init.handleSamples conv fec t1 b1).1.handleSamples conv fec t2 b2).1
    r.savedSamples = numTrailingSamples ∧
      r.samples.take (r.savedSamples * conv.bytesPerSample) ≠
        lastBytes (b1 ++ b2) (r.savedSamples * conv.bytesPerSample) := by
  intro b1 b2 r
  have hp := conv.bytesPerSample_pos
  have hN : numTrailingSamples = 8904 := rfl
  have hb1 : b1.length = (numTrailingSamples + 2) * conv.bytesPerSample := List.length_replicate _ _
  have hb2 : b2.length = conv.bytesPerSample := List.length_replicate _ _
  -- the first call: `samples_` stays `b1`, and `NumTrailingSamples()` samples are saved
  have hT1 : Receiver.init.totalSamples conv b1 = numTrailingSamples + 2 := by
    rw [Receiver.totalSamples, hb1, Nat.mul_div_cancel _ hp]
    rfl
  have hS1 : Receiver.init.loadSamples conv b1 = b1 := by
    have hpos : 0 < (numTrailingSamples + 2) * conv.bytesPerSample := Nat.mul_pos (by omega) hp
    rw [Receiver.loadSamples, hT1]
    show copyInto (growTo [] _ 0) (0 * conv.bytesPerSample) b1 = b1
    simp only [growTo, List.length_nil, hpos, if_true, vectorResize, List.take_nil, List.nil_append,
      Nat.sub_zero, Nat.zero_mul]
    exact copyInto_replicate 0 (by simp)
  have hr1s : (Receiver.init.advance conv b1).samples = b1 := by
    simp only [Receiver.advance, saveTail, hT1, hS1,
      if_pos (show numTrailingSamples + 2 > numTrailingSamples by omega)]
    rw [hb1]
    show copyInto (List.replicate _ 0) 0 (List.drop _ (List.replicate _ 0)) = List.replicate _ 0
    rw [List.drop_replicate]
    exact copyInto_replicate 0 (by omega)
  have hr1n : (Receiver.init.advance conv b1).savedSamples = numTrailingSamples := by
    rw [Receiver.savedSamples_advance, hT1]
    omega
  -- the second call: the buffer goes behind the saved samples, two samples before the end
  have hT2 : (Receiver.init.advance conv b1).totalSamples conv b2 = numTrailingSamples + 1 := by
    rw [Receiver.totalSamples, hb2, Nat.div_self hp, hr1n]
    omega
  have hS2 : (Receiver.init.advance conv b1).loadSamples conv b2 =
      List.replicate (numTrailingSamples * conv.bytesPerSample) 0 ++ b2 ++
        List.replicate conv.bytesPerSample 0 := by
    have hgrow : ¬ b1.length < (numTrailingSamples + 1) * conv.bytesPerSample := by
      rw [hb1]
      exact Nat.not_lt.mpr (Nat.mul_le_mul_right _ (by omega))
    rw [Receiver.loadSamples, hT2, hr1s, hr1n, growTo, if_neg hgrow, copyInto, hb2]
    show (List.replicate _ 0).take _ ++ b2 ++ (List.replicate _ 0).drop _ = _
    rw [List.take_replicate, List.drop_replicate,
      Nat.min_eq_left (Nat.mul_le_mul_right _ (by omega)),
      show (numTrailingSamples + 2) * conv.bytesPerSample -
        (numTrailingSamples * conv.bytesPerSample + conv.bytesPerSample) = conv.bytesPerSample by
          rw [hN]; omega]
  -- the tail is taken from the end of the vector, one sample past the window
  have hsaved : ((Receiver.init.advance conv b1).advance conv b2).savedSamples =
      numTrailingSamples := by
    rw [Receiver.savedSamples_advance, hT2]
    omega
  have hfront : ((Receiver.init.advance conv b1).advance conv b2).samples.take
      (numTrailingSamples * conv.bytesPerSample) =
      List.replicate ((numTrailingSamples - 2) * conv.bytesPerSample) 0 ++ b2 ++
        List.replicate conv.bytesPerSample 0 := by
    have hdrop : ((Receiver.init.advance conv b1).loadSamples conv b2).drop
        (((Receiver.init.advance conv b1).loadSamples conv b2).length -
          numTrailingSamples * conv.bytesPerSample) =
        List.replicate ((numTrailingSamples - 2) * conv.bytesPerSample) 0 ++ b2 ++
          List.replicate conv.bytesPerSample 0 := by
      have hlen : ((Receiver.init.advance conv b1).loadSamples conv b2).length -
          numTrailingSamples * conv.bytesPerSample = 2 * conv.bytesPerSample := by
        rw [hS2]
        simp only [List.length_append, List.length_replicate, hb2]
        omega
      have h1 : 2 * conv.bytesPerSample ≤
          (List.replicate (numTrailingSamples * conv.bytesPerSample) (0 : UInt8) ++ b2).length := by
        simp only [List.length_append, List.length_replicate, hb2]
        rw [hN]
        omega
      have h2 : 2 * conv.bytesPerSample ≤
          (List.replicate (numTrailingSamples * conv.bytesPerSample) (0 : UInt8)).length := by
        rw [List.length_replicate, hN]
        omega
      rw [hlen, hS2, List.drop_append_of_le_length h1, List.drop_append_of_le_length h2,
        List.drop_replicate, Nat.sub_mul]
    rw [Receiver.advance_samples, saveTail, hT2,
      if_pos (show numTrailingSamples + 1 > numTrailingSamples by omega), hdrop, copyInto_zero]
    refine List.take_left' ?_
    simp only [List.length_append, List.length_replicate, hb2]
    rw [hN]
    omega
  have hlast : lastBytes (b1 ++ b2) (numTrailingSamples * conv.bytesPerSample) =
      lastBytes b1 (numTrailingSamples * conv.bytesPerSample - conv.bytesPerSample) ++ b2 := by
    have hle : numTrailingSamples * conv.bytesPerSample - conv.bytesPerSample ≤ b1.length := by
      rw [hb1]
      exact Nat.le_trans (Nat.sub_le _ _) (Nat.mul_le_mul_right _ (by omega))
    rw [lastBytes_append b2 hle, hb2, Nat.sub_add_cancel (Nat.le_mul_of_pos_left _ (by omega))]
  have hr : r = (Receiver.init.advance conv b1).advance conv b2 := rfl
  rw [hr, hsaved, hfront, hlast]
  refine ⟨rfl, fun heq => ?_⟩
  have := congrArg List.getLast? heq
  simp [List.getLast?_append, List.getLast?_replicate, hp.ne', b2] at this

/-- **A call carries over fewer samples than it leaves unscanned.** Every frame the call's
`Demodulate` finds starts at least `SYNC_BITS * 2 - 4 + NumTrailingSamples()` samples before
the window's end, but only the window's last `NumTrailingSamples()` samples are saved for the
next call, whose frames start in them or later: a frame starting in the 68 samples between is
found by neither call. -/
theorem handleSamples_scan_gap (conv : SampleConverter) (fec : FEC) (r : Receiver)
    (buffer : Bytes) :
    let total := r.totalSamples conv buffer
    let window := (r.loadPhase conv (r.loadSamples conv buffer) total).take total
    (∀ m ∈ (demodulate fec window).getD [],
      m.beginPos + syncBits * 2 + numTrailingSamples < total + 4) ∧
      (r.advance conv buffer).savedSamples = min total numTrailingSamples := by
  intro total window
  obtain ⟨messages, hdem, -, hframes⟩ := demodulate_spec fec window
  refine ⟨fun m hm => ?_, r.savedSamples_advance conv buffer⟩
  rw [hdem, Option.getD_some] at hm
  have hstart := (hframes m hm).2.1
  have hlen : window.length ≤ total := List.length_take_le _ _
  omega

end Dump978
