import Dump978.Slicing

namespace Dump978

/-!
# Demodulator — the sync search as a direct window scan

`Demodulate` does not recompute the 36-bit sync window at each candidate start: it shifts one
bit per probe into the registers `sync0` and `sync1` (masked to 36 bits), counts the shifts in
`sync_bits`, tests the registers only once 36 bits have gone in, and resets the count after a
frame. The specification is simpler: at every candidate start `s`, take the 36 bits of the
pairs at `s, s + 2, ...` (`windowWord`), try the four sync checks in order, and continue after
the frame found or two samples on (`windowScan`).

* `RegHolds.shift` — a shift keeps each register's low bits the window of pairs that ends just
  before the probe, while the count fills it and once it slides;
* `demodLoop_eq_windowScan` — the loop from any state standing for a scan position computes
  the scan from there;
* `demodulate_eq_windowScan` — so `Demodulate` is the direct window scan on every span of at
  most `2^33` samples, where `sync_bits` (an `unsigned`) cannot wrap.
-/

/-! ### The window scan -/

/-- The bit of the pair at `q`: `PhaseDifference(phase[q], phase[q + 1]) > 0`. -/
def pairBit (phase : PhaseBuffer) (q : Nat) : Bool := decide (pairDifference phase q > 0)

/-- The value of the `n` bits of the pairs at `t, t + 2, ..., t + 2 (n - 1)`, the first bit
most significant. -/
def windowValue (phase : PhaseBuffer) (t : Nat) : Nat → Nat
  | 0 => 0
  | n + 1 => 2 * windowValue phase t n + (pairBit phase (t + 2 * n)).toNat

/-- The 36-bit window at `t`. -/
def windowWord (phase : PhaseBuffer) (t : Int) : BitVec 64 :=
  BitVec.ofNat 64 (windowValue phase t.toNat syncBits)

/-- The four tries at a start `s`, in order: downlink at `s` and `s + 1`, then uplink. -/
def scanTries (s : Int) : List (Int × Bool) := [(s, true), (s + 1, true), (s, false), (s + 1, false)]

/-- The first try whose window is within Hamming distance 4 of its link's sync word and where
`DemodBest` finds a frame. -/
def firstTry (fec : FEC) (phase : PhaseBuffer) : List (Int × Bool) → Option (Option Message)
  | [] => pure none
  | (t, downlink) :: rest =>
    if syncWordMatch (windowWord phase t) (if downlink then downlinkSyncWord else uplinkSyncWord)
    then do
      match ← demodBest fec phase t downlink with
      | some m => pure (some m)
      | none => firstTry fec phase rest
    else firstTry fec phase rest

/-- The direct window scan from `s`, while `s + 2 * (SYNC_BITS - 1) < limit`: emit the frame
of the first successful try and continue at its end, or move on by two samples. -/
def windowScan (fec : FEC) (phase : PhaseBuffer) (limit : Int) : Nat → Int → Option (List Message)
  | 0, _ => none
  | fuel + 1, s =>
    if s + 2 * (syncBits - 1) < limit then do
      match ← firstTry fec phase (scanTries s) with
      | some m => (m :: ·) <$> windowScan fec phase limit fuel m.endPos
      | none => windowScan fec phase limit fuel (s + 2)
    else pure []

/-- The scan of a whole span, from `begin` to `end - NumTrailingSamples()`. -/
def directScan (fec : FEC) (phase : PhaseBuffer) : Option (List Message) :=
  windowScan fec phase (phase.length - numTrailingSamples) phase.length 0

/-! ### Windows -/

section Windows

variable {phase : PhaseBuffer}

theorem windowValue_lt (t n : Nat) : windowValue phase t n < 2 ^ n := by
  induction n with
  | zero => exact Nat.zero_lt_one
  | succ n ih =>
    have := Bool.toNat_le (pairBit phase (t + 2 * n))
    rw [windowValue, Nat.pow_succ]
    omega

/-- The first bit of a window is its most significant one. -/
theorem windowValue_succ_eq (t n : Nat) :
    windowValue phase t (n + 1) = 2 ^ n * (pairBit phase t).toNat + windowValue phase (t + 2) n := by
  induction n with
  | zero => simp [windowValue]
  | succ n ih =>
    rw [windowValue, ih, windowValue, Nat.pow_succ, show t + 2 * (n + 1) = t + 2 + 2 * n by omega]
    rw [Nat.mul_add, ← Nat.mul_assoc, Nat.mul_comm 2 (2 ^ n), Nat.add_assoc]

theorem toNat_shiftSync (v : BitVec 64) (b : Bool) :
    (shiftSync v b).toNat = (2 * v.toNat + b.toNat) % 2 ^ 36 := by
  have hmask : syncMask.toNat = 2 ^ 36 - 1 := rfl
  have hbit : (if b then (1 : BitVec 64) else 0).toNat = b.toNat := by cases b <;> rfl
  have hshift : (v <<< 1).toNat = 2 * (v.toNat % 2 ^ 63) := by
    rw [BitVec.toNat_shiftLeft, Nat.shiftLeft_eq]; omega
  rw [shiftSync, BitVec.toNat_and, hmask, Nat.and_pow_two_sub_one_eq_mod, BitVec.toNat_or, hbit,
    hshift, ← Nat.mul_add_lt_is_or (i := 1) (by cases b <;> decide)]
  omega

theorem two_mul_add_mod_two_pow (v b m : Nat) (hb : b < 2) :
    (2 * v + b) % 2 ^ (m + 1) = 2 * (v % 2 ^ m) + b := by
  have hdiv := Nat.div_add_mod v (2 ^ m)
  have hlt := Nat.mod_lt v (Nat.two_pow_pos m)
  rw [Nat.pow_succ, ← Nat.mod_eq_of_lt (show 2 * (v % 2 ^ m) + b < 2 ^ m * 2 by omega)]
  conv => lhs; rw [← hdiv]
  rw [show 2 * (2 ^ m * (v / 2 ^ m) + v % 2 ^ m) + b = 2 * (v % 2 ^ m) + b + 2 ^ m * 2 * (v / 2 ^ m) by
    rw [Nat.mul_add, ← Nat.mul_assoc, Nat.mul_comm 2 (2 ^ m)]; omega, Nat.add_mul_mod_self_left]

/-- A register holds, in its low `m` bits, the window of `m` pairs that ends just before the
probe `p`, the pairs taken from offset `o` (`0` for `sync0`, `1` for `sync1`). -/
def RegHolds (phase : PhaseBuffer) (p m o : Nat) (v : BitVec 64) : Prop :=
  v.toNat < 2 ^ 36 ∧ v.toNat % 2 ^ m = windowValue phase (p - 2 * m + o) m

/-- **One shift extends the window**, or slides it once it has 36 bits. -/
theorem RegHolds.shift {p m o : Nat} {v : BitVec 64} (h : RegHolds phase p m o v) (hm : m ≤ 36)
    (hp : 2 * m ≤ p) :
    RegHolds phase (p + 2) (min (m + 1) 36) o (shiftSync v (pairBit phase (p + o))) := by
  have hb := Bool.toNat_le (pairBit phase (p + o))
  refine ⟨by rw [toNat_shiftSync]; exact Nat.mod_lt _ (by decide), ?_⟩
  rw [toNat_shiftSync]
  rcases Nat.lt_or_ge m 36 with hlt | hge
  · rw [Nat.min_eq_left (by omega), Nat.mod_mod_of_dvd _ (Nat.pow_dvd_pow 2 (by omega)),
      two_mul_add_mod_two_pow _ _ _ (by omega), h.2, windowValue,
      show p + 2 - 2 * (m + 1) + o = p - 2 * m + o by omega, show p - 2 * m + o + 2 * m = p + o by omega]
  · obtain rfl : m = 36 := by omega
    have hwin := @windowValue_succ_eq phase (p - 72 + o) 35
    have hlow := @windowValue_lt phase (p - 72 + o + 2) 35
    have hv : v.toNat = windowValue phase (p - 72 + o) 36 := by
      rw [← h.2, Nat.mod_eq_of_lt h.1]
    have hnext : windowValue phase (p - 72 + o + 2) 36 =
        2 * windowValue phase (p - 72 + o + 2) 35 + (pairBit phase (p + o)).toNat := by
      rw [windowValue, show p - 72 + o + 2 + 2 * 35 = p + o by omega]
    have := Bool.toNat_le (pairBit phase (p - 72 + o))
    rw [Nat.min_eq_right (by omega), Nat.mod_mod, hv, hwin,
      show p + 2 - 2 * 36 + o = p - 72 + o + 2 by omega, hnext]
    omega

/-- A full register is the window word. -/
theorem RegHolds.eq_windowWord {p o : Nat} {v : BitVec 64} (h : RegHolds phase p 36 o v) :
    v = windowWord phase ((p - 72 + o : Nat) : Int) := by
  apply BitVec.eq_of_toNat_eq
  have := @windowValue_lt phase (p - 72 + o) 36
  rw [windowWord, BitVec.toNat_ofNat, Int.toNat_ofNat, syncBits, ← h.2, Nat.mod_eq_of_lt h.1,
    Nat.mod_eq_of_lt (by omega)]

end Windows

/-! ### The loop against the scan -/

/-- A state at the head of the scan loop that stands for the window scan at `s`: the probe has
taken in `min(sync_bits, 35)` pairs past `s`, the count has not passed the probe, and both
registers hold the last `min(sync_bits, 36)` bits before the probe. -/
structure ScanAt (phase : PhaseBuffer) (s : Int) (st : DemodState) : Prop where
  start_nonneg : 0 ≤ s
  probe_eq : st.probe = s + 2 * min st.syncBits.toNat 35
  count_le : 2 * st.syncBits.toNat ≤ st.probe
  reg0 : RegHolds phase st.probe.toNat (min st.syncBits.toNat 36) 0 st.sync0
  reg1 : RegHolds phase st.probe.toNat (min st.syncBits.toNat 36) 1 st.sync1

section Scan

variable {phase : PhaseBuffer} {s : Int} {st : DemodState}

theorem ScanAt.init : ScanAt phase 0 DemodState.init :=
  ⟨le_refl _, rfl, le_refl _, ⟨by decide, rfl⟩, ⟨by decide, rfl⟩⟩

/-- After a frame, the loop stands at the frame's end with an empty count. -/
theorem ScanAt.reset {e : Int} (he : 0 ≤ e) {sync0 sync1 : BitVec 64} (h0 : sync0.toNat < 2 ^ 36)
    (h1 : sync1.toNat < 2 ^ 36) (messages : List Message) :
    ScanAt phase e ⟨e - 2 + 2, 0, sync0, sync1, messages⟩ :=
  ⟨he, by simp, by simp; omega, ⟨h0, by simp [windowValue, Nat.mod_one]⟩,
    ⟨h1, by simp [windowValue, Nat.mod_one]⟩⟩

/-- **One pass without a frame.** The shifts at the probe `p` and `probe += 2` keep the state
standing for the scan: at the same start while the registers fill, two samples on once they
are full. -/
theorem ScanAt.next (h : ScanAt phase s st) {p : Nat} (hp : st.probe = p)
    (hwrap : st.syncBits.toNat + 1 < 2 ^ 32) :
    ScanAt phase (if st.syncBits.toNat < 35 then s else s + 2)
      { st.shift (phase.getD p 0) (phase.getD (p + 1) 0) (phase.getD (p + 2) 0) with
        probe := st.probe + 2 } := by
  have hnext := uint32_toNat_add_one hwrap
  have hcount := h.count_le
  have hp2 : (st.probe + 2).toNat = p + 2 := by omega
  have hmin : min (min st.syncBits.toNat 36 + 1) 36 = min (st.syncBits.toNat + 1) 36 := by omega
  have hreg0 := h.reg0.shift (Nat.min_le_right _ _) (by omega)
  have hreg1 := h.reg1.shift (Nat.min_le_right _ _) (by omega)
  rw [hp, Int.toNat_ofNat, hmin] at hreg0 hreg1
  have hs := h.start_nonneg
  have hprobe := h.probe_eq
  refine ⟨by split <;> omega, ?_, ?_, ?_, ?_⟩
  · show st.probe + 2 = _ + 2 * min (st.syncBits + 1).toNat 35
    rw [hnext]; split <;> omega
  · show 2 * (st.syncBits + 1).toNat ≤ st.probe + 2
    rw [hnext]; omega
  · show RegHolds phase (st.probe + 2).toNat (min (st.syncBits + 1).toNat 36) 0 _
    rw [hnext, hp2]; exact hreg0
  · show RegHolds phase (st.probe + 2).toNat (min (st.syncBits + 1).toNat 36) 1 _
    rw [hnext, hp2]; exact hreg1

/-- Once the registers are full, the loop's four sync checks at `s + 70` are the scan's four
tries at `s`. -/
theorem firstFrame_eq_firstTry (fec : FEC) (phase : PhaseBuffer) (s : Int) :
    firstFrame fec phase (s + 70) (syncChecks (windowWord phase s) (windowWord phase (s + 1))) =
      firstTry fec phase (scanTries s) := by
  have h2 : s + 70 - (syncBits : Int) * 2 + 2 = s := by simp; omega
  have h3 : s + 70 - (syncBits : Int) * 2 + 3 = s + 1 := by simp; omega
  -- the four checks at the scan's starts; the tries unfold to them by definition
  simp only [firstFrame, syncChecks, h2, h3]
  rfl

/-- The scan's tries at `s` read inside the span, and a frame they find ends past `s + 72`. -/
theorem firstTry_spec (fec : FEC) (hs : 0 ≤ s) (h : s + 70 + numTrailingSamples < phase.length) :
    ∃ r, firstTry fec phase (scanTries s) = some r ∧ ∀ m ∈ r, s + 72 < m.endPos := by
  have hsync : (syncBits : Int) * 2 = 72 := rfl
  obtain ⟨r, hr, hm⟩ := @firstFrame_spec fec phase (s + 70)
    (syncChecks (windowWord phase s) (windowWord phase (s + 1))) (syncChecks_offset _ _)
    (by omega) h
  rw [firstFrame_eq_firstTry] at hr
  refine ⟨r, hr, fun m hmr => ?_⟩
  obtain ⟨hlo, -, hshape⟩ := hm m hmr
  have := hshape.span
  omega

/-- **One pass of the loop against the scan.** At a state standing for the scan at `s`, the
pass shifts both registers. While they fill, it goes on at `s`; once they are full, its four
sync checks are the scan's tries at `s`, and without a frame it goes on at `s + 2`. -/
theorem demodStep_scanAt (fec : FEC) (hst : ScanAt phase s st)
    (hlen : st.probe + numTrailingSamples < phase.length) (hwrap : st.syncBits.toNat + 1 < 2 ^ 32) :
    ∃ sh : DemodState, sh.probe = st.probe ∧ sh.messages = st.messages ∧
      (st.syncBits.toNat < 35 → demodStep fec phase st = some sh ∧
        ScanAt phase s { sh with probe := sh.probe + 2 }) ∧
      (35 ≤ st.syncBits.toNat →
        demodStep fec phase st = (firstTry fec phase (scanTries s)).map (fun
          | some m => { sh with probe := m.endPos - 2, syncBits := 0, messages := sh.messages ++ [m] }
          | none => sh) ∧
        ScanAt phase (s + 2) { sh with probe := sh.probe + 2 } ∧
        sh.sync0.toNat < 2 ^ 36 ∧ sh.sync1.toNat < 2 ^ 36) := by
  have hnts : numTrailingSamples = 8904 := rfl
  have hprobe := hst.probe_eq
  have hs0 := hst.start_nonneg
  obtain ⟨p, hpz⟩ : ∃ p : Nat, st.probe = p := ⟨st.probe.toNat, by have := hst.count_le; omega⟩
  have hr0 : readPhase phase st.probe = some (phase.getD p 0) := by
    rw [hpz]; exact readPhase_of_lt (by omega)
  have hr1 : readPhase phase (st.probe + 1) = some (phase.getD (p + 1) 0) := by
    rw [hpz]; exact_mod_cast readPhase_of_lt (by omega)
  have hr2 : readPhase phase (st.probe + 2) = some (phase.getD (p + 2) 0) := by
    rw [hpz]; exact_mod_cast readPhase_of_lt (by omega)
  have hnext := hst.next hpz hwrap
  have hbits := uint32_toNat_add_one hwrap
  refine ⟨st.shift (phase.getD p 0) (phase.getD (p + 1) 0) (phase.getD (p + 2) 0), rfl, rfl,
    fun hfill => ?_, fun hfill => ?_⟩
  · rw [if_pos hfill] at hnext
    refine ⟨?_, hnext⟩
    simp only [demodStep, hr0, hr1, hr2, Option.bind_eq_bind, Option.some_bind]
    rw [if_pos (by simp only [DemodState.shift, hbits, syncBits]; omega)]
    rfl
  · rw [if_neg (by omega)] at hnext
    set sh := st.shift (phase.getD p 0) (phase.getD (p + 1) 0) (phase.getD (p + 2) 0)
    have hfull : min (st.syncBits + 1).toNat 36 = 36 := by rw [hbits]; omega
    have hp2 : (st.probe + 2).toNat = p + 2 := by omega
    have hreg0 : RegHolds phase (p + 2) 36 0 sh.sync0 := by
      have : RegHolds phase (st.probe + 2).toNat (min (st.syncBits + 1).toNat 36) 0 sh.sync0 :=
        hnext.reg0
      rwa [hp2, hfull] at this
    have hreg1 : RegHolds phase (p + 2) 36 1 sh.sync1 := by
      have : RegHolds phase (st.probe + 2).toNat (min (st.syncBits + 1).toNat 36) 1 sh.sync1 :=
        hnext.reg1
      rwa [hp2, hfull] at this
    have hff : firstFrame fec phase sh.probe (syncChecks sh.sync0 sh.sync1) =
        firstTry fec phase (scanTries s) := by
      rw [hreg0.eq_windowWord, hreg1.eq_windowWord, show ((p + 2 - 72 + 0 : Nat) : Int) = s by omega,
        show ((p + 2 - 72 + 1 : Nat) : Int) = s + 1 by omega, DemodState.shift_probe,
        show st.probe = s + 70 by omega]
      exact firstFrame_eq_firstTry fec phase s
    refine ⟨?_, hnext, hreg0.1, hreg1.1⟩
    simp only [demodStep, hr0, hr1, hr2, Option.bind_eq_bind, Option.some_bind]
    rw [if_neg (by simp only [sh, DemodState.shift, hbits, syncBits]; omega), hff]
    cases firstTry fec phase (scanTries s) with
    | none => rfl
    | some r => cases r <;> rfl

/-- One pass of the loop at a state standing for the scan at `s`: while the registers fill it
goes on at `s`; once they are full it makes the scan's tries at `s` and goes on after the frame
found or at `s + 2`. -/
theorem demodLoop_succ_scanAt (fec : FEC) {limit : Int} (fuel : Nat) (hst : ScanAt phase s st)
    (hp : st.probe < limit) (hlen : st.probe + numTrailingSamples < phase.length)
    (hwrap : st.syncBits.toNat + 1 < 2 ^ 32) :
    ∃ sh : DemodState, sh.probe = st.probe + 2 ∧ sh.messages = st.messages ∧
      (st.syncBits.toNat < 35 → ScanAt phase s sh ∧
        demodLoop fec phase limit (fuel + 1) st = demodLoop fec phase limit fuel sh) ∧
      (35 ≤ st.syncBits.toNat → ScanAt phase (s + 2) sh ∧
        sh.sync0.toNat < 2 ^ 36 ∧ sh.sync1.toNat < 2 ^ 36 ∧
        demodLoop fec phase limit (fuel + 1) st = (firstTry fec phase (scanTries s)).bind fun
          | some m => demodLoop fec phase limit fuel
              ⟨m.endPos - 2 + 2, 0, sh.sync0, sh.sync1, sh.messages ++ [m]⟩
          | none => demodLoop fec phase limit fuel sh) := by
  obtain ⟨sh, hsp, hsm, hfill, hcheck⟩ := demodStep_scanAt fec hst hlen hwrap
  refine ⟨{ sh with probe := sh.probe + 2 }, by rw [hsp], hsm, fun hj => ?_, fun hj => ?_⟩
  · obtain ⟨hstep, hsh⟩ := hfill hj
    refine ⟨hsh, ?_⟩
    simp only [demodLoop, if_pos hp, hstep, Option.bind_eq_bind, Option.some_bind]
  · obtain ⟨hstep, hsh, h0, h1⟩ := hcheck hj
    refine ⟨hsh, h0, h1, ?_⟩
    simp only [demodLoop, if_pos hp, hstep, Option.bind_eq_bind]
    cases firstTry fec phase (scanTries s) with
    | none => rfl
    | some r => cases r <;> rfl

/-- **The loop computes the window scan.** From a state standing for the scan at `s`, with
enough fuel on both sides, the loop returns the frames it has followed by those of the scan
from `s`, as long as the count cannot wrap. -/
theorem demodLoop_eq_windowScan (fec : FEC) {limit : Int}
    (hlimit : limit + numTrailingSamples = phase.length) (hsmall : limit < 2 ^ 33 - 1)
    (fuel : Nat) (hst : ScanAt phase s st) (hfuel : (limit - st.probe).toNat < fuel) (fr : Nat)
    (hfr : (limit - s).toNat < fr) :
    demodLoop fec phase limit fuel st = (st.messages ++ ·) <$> windowScan fec phase limit fr s := by
  induction fuel generalizing s st fr with
  | zero => omega
  | succ fuel ih =>
    rw [Nat.lt_succ_iff, Int.toNat_le] at hfuel
    have hcount := hst.count_le
    have hs0 := hst.start_nonneg
    by_cases hp : st.probe < limit
    swap
    · have hprobe := hst.probe_eq
      obtain ⟨fr, rfl⟩ : ∃ f, fr = f + 1 := ⟨fr - 1, by omega⟩
      rw [demodLoop, if_neg hp, windowScan, if_neg (by simp; omega)]
      simp
    obtain ⟨sh, hsp, hsm, hfill, hcheck⟩ :=
      demodLoop_succ_scanAt fec fuel hst hp (by omega) (by omega)
    have hfuel' : (limit - sh.probe).toNat < fuel := by omega
    by_cases hj : st.syncBits.toNat < 35
    · obtain ⟨hsh, hloop⟩ := hfill hj
      rw [hloop, ih hsh hfuel' fr hfr, hsm]
    obtain ⟨fr, rfl⟩ : ∃ f, fr = f + 1 := ⟨fr - 1, by omega⟩
    rw [Nat.lt_succ_iff, Int.toNat_le] at hfr
    have hs : st.probe = s + 70 := by have := hst.probe_eq; omega
    obtain ⟨hsh, h0, h1, hloop⟩ := hcheck (by omega)
    have hspan : s + 70 + numTrailingSamples < phase.length := by omega
    obtain ⟨r, hr, hend⟩ := firstTry_spec fec hs0 hspan
    rw [hloop, windowScan, if_pos (by simp; omega), hr, Option.some_bind]
    cases r with
    | none =>
      rw [ih hsh hfuel' fr (by omega), hsm]
      rfl
    | some m =>
      have := hend m rfl
      simp only
      rw [ih (ScanAt.reset (e := m.endPos) (by omega) h0 h1 (sh.messages ++ [m])) (by simp only; omega)
          fr (by omega)]
      cases h : windowScan fec phase limit fr m.endPos <;> simp [h, hsm]

end Scan

/-- **`Demodulate` is the direct window scan** on every span of at least
`NumTrailingSamples()` and at most `2^33` samples, which holds every span `HandleSamples`
passes: the shifted and masked registers, the
warm-up count and its reset after a frame compute exactly the 36-bit window at every
candidate start, and the loop tries the candidates in the scan's order. -/
theorem demodulate_eq_windowScan (fec : FEC) (phase : PhaseBuffer)
    (hlen : numTrailingSamples ≤ phase.length) (hsmall : phase.length ≤ 2 ^ 33) :
    demodulate fec phase = directScan fec phase := by
  have hnts : numTrailingSamples = 8904 := rfl
  unfold demodulate directScan
  rw [if_neg (by omega), @demodLoop_eq_windowScan phase 0 DemodState.init fec
    (phase.length - numTrailingSamples) (by omega) (by omega) phase.length ScanAt.init
    (by simp only [DemodState.init]; omega) phase.length (by omega)]
  simp [DemodState.init]

theorem demodulate_eq_windowScan_quiet :
    let fec : FEC := ⟨⟨fun b _ => (0, b), fun _ _ => rfl⟩, ⟨fun b _ => (0, b), fun _ _ => rfl⟩,
      ⟨fun b _ => (0, b), fun _ _ => rfl⟩⟩
    numTrailingSamples ≤ (List.replicate 8904 0 : PhaseBuffer).length ∧
      (List.replicate 8904 0 : PhaseBuffer).length ≤ 2 ^ 33 ∧
      demodulate fec (List.replicate 8904 0) = directScan fec (List.replicate 8904 0) := by
  intro fec
  have hlen : numTrailingSamples ≤ (List.replicate 8904 0 : PhaseBuffer).length := by
    rw [List.length_replicate]; decide
  have hsmall : (List.replicate 8904 0 : PhaseBuffer).length ≤ 2 ^ 33 := by
    rw [List.length_replicate]; decide
  exact ⟨hlen, hsmall, demodulate_eq_windowScan fec _ hlen hsmall⟩

end Dump978
