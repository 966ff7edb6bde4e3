import Mathlib.Data.List.Sort
import Mathlib.Data.Nat.Bitwise
import Dump978.Demodulator

namespace Dump978

/-!
# Demodulator — sync-word matching and bit slicing, bit by bit

Two helpers of `demodulator.cc` work on single bits: `SyncWordMatch` counts the bits in
which a candidate differs from a sync word by clearing the lowest set bit of their XOR up to
four times, and `DemodBits` slices each byte from eight hand-unrolled sample pairs. This
module states what they compute bit by bit.

Main results:

* `syncWordMatch_iff_popcount` — `SyncWordMatch(word, expected)` holds exactly when the two
  64-bit words differ in at most four bits; the early exit after the `i`-th clear fires
  exactly when they differ in at most `i` bits (`clearLowestBit_iterate_eq_zero_iff`);
* `demodBits_slices` — `DemodBits` over a span holding its `16 * bytes` samples returns
  `bytes` bytes, bit `j` of byte `i` (most significant first) set iff the phase difference of
  the pair at `16 * i + 2 * j` exceeds `one_slice`, and the ascending indices of exactly the
  bytes with a difference in `(zero_slice, one_slice]`.
-/

/-! ### Bit counts -/

/-- The number of set bits among the low `width` bits of `n`. -/
def bitCount : Nat → Nat → Nat
  | 0, _ => 0
  | width + 1, n => n % 2 + bitCount width (n / 2)

/-- `popcount` of a 64-bit word. -/
def popcount (x : BitVec 64) : Nat := bitCount 64 x.toNat

/-- `bitCount` counts the indices below the width at which `testBit` holds. -/
theorem bitCount_eq_countP (width n : Nat) :
    bitCount width n = (List.range width).countP (n.testBit ·) := by
  induction width generalizing n with
  | zero => rfl
  | succ width ih =>
    rw [bitCount, ih, List.range_succ_eq_map, List.countP_cons, List.countP_map, Nat.add_comm]
    congr 1
    · congr 1
      funext i
      exact (Nat.testBit_succ n i).symm
    · rcases Nat.mod_two_eq_zero_or_one n with h | h <;> simp [Nat.testBit_zero, h]

/-- `popcount` counts the set bits of the word. -/
theorem popcount_eq_countP (x : BitVec 64) :
    popcount x = (List.range 64).countP (x.getLsbD ·) :=
  bitCount_eq_countP 64 x.toNat

theorem bitCount_eq_zero_iff {width n : Nat} (h : n < 2 ^ width) :
    bitCount width n = 0 ↔ n = 0 := by
  induction width generalizing n with
  | zero => simp only [bitCount, true_iff]; omega
  | succ width ih =>
    rw [bitCount, Nat.add_eq_zero, ih (by rw [Nat.pow_succ] at h; omega)]
    omega

/-- `n & (n - 1)` has one set bit fewer than a nonzero `n`: an odd `n` loses bit 0, an even
one keeps it clear and loses the lowest set bit of `n / 2`. -/
theorem bitCount_and_pred {width n : Nat} (h : n < 2 ^ width) (hn : n ≠ 0) :
    bitCount width (n &&& (n - 1)) + 1 = bitCount width n := by
  induction width generalizing n with
  | zero => omega
  | succ width ih =>
    have hlow : (n &&& (n - 1)) % 2 = 0 := by
      have := (Nat.and_mod_two_eq_one (a := n) (b := n - 1)).not.mpr (by omega)
      omega
    simp only [bitCount, hlow, Nat.and_div_two, Nat.zero_add]
    rcases Nat.mod_two_eq_zero_or_one n with heven | hodd
    · have hhalf : (n - 1) / 2 = n / 2 - 1 := by omega
      rw [hhalf, ih (by rw [Nat.pow_succ] at h; omega) (by omega), heven, Nat.zero_add]
    · have hhalf : (n - 1) / 2 = n / 2 := by omega
      rw [hhalf, Nat.and_self, hodd, Nat.add_comm]

theorem popcount_eq_zero_iff {x : BitVec 64} : popcount x = 0 ↔ x = 0 := by
  rw [popcount, bitCount_eq_zero_iff x.isLt, BitVec.toNat_eq]
  rfl

@[simp]
theorem clearLowestBit_zero : clearLowestBit 0 = 0 := rfl

/-- `diff &= diff - 1` clears exactly one set bit of a nonzero `diff`. -/
theorem popcount_clearLowestBit {diff : BitVec 64} (h : diff ≠ 0) :
    popcount (clearLowestBit diff) + 1 = popcount diff := by
  have hne : diff.toNat ≠ 0 := fun h0 => h (BitVec.toNat_eq.mpr h0)
  have hpred : (diff - 1).toNat = diff.toNat - 1 := by
    have hone : (1 : BitVec 64).toNat = 1 := rfl
    rw [BitVec.toNat_sub, hone]
    have := diff.isLt
    omega
  rw [popcount, clearLowestBit, BitVec.toNat_and, hpred]
  exact bitCount_and_pred diff.isLt hne

/-- After `i` clears the difference is zero exactly when it had at most `i` set bits. -/
theorem clearLowestBit_iterate_eq_zero_iff (i : Nat) (diff : BitVec 64) :
    clearLowestBit^[i] diff = 0 ↔ popcount diff ≤ i := by
  induction i generalizing diff with
  | zero => rw [Function.iterate_zero_apply, ← popcount_eq_zero_iff]; omega
  | succ i ih =>
    rw [Function.iterate_succ_apply, ih]
    by_cases h : diff = 0
    · subst h
      simp only [clearLowestBit_zero, popcount_eq_zero_iff.mpr rfl, Nat.zero_le]
    · have := popcount_clearLowestBit h
      omega

/-- **`SyncWordMatch` is a popcount test**: it holds exactly when `word` and `expected` differ
in at most four bits. -/
theorem syncWordMatch_iff_popcount (word expected : BitVec 64) :
    syncWordMatch word expected = true ↔ popcount (word ^^^ expected) ≤ 4 := by
  have hequal : word = expected ↔ word ^^^ expected = 0 := by
    rw [BitVec.toNat_eq, BitVec.toNat_eq, BitVec.toNat_xor]
    exact Iff.symm Nat.xor_eq_zero
  simp only [syncWordMatch, Bool.or_eq_true, beq_iff_eq, hequal]
  generalize word ^^^ expected = diff
  show diff = 0 ∨ clearLowestBit^[1] diff = 0 ∨ clearLowestBit^[2] diff = 0 ∨
    clearLowestBit^[3] diff = 0 ∨ clearLowestBit^[4] diff = 0 ↔ _
  rw [← popcount_eq_zero_iff]
  simp only [clearLowestBit_iterate_eq_zero_iff]
  omega

example : syncWordMatch 0xF 0 = true ∧ syncWordMatch 0x1F 0 = false := by decide

/-! ### Bit slicing -/

/-- `PhaseDifference(phase[p], phase[p + 1])`. -/
def pairDifference (phase : PhaseBuffer) (p : Nat) : Int :=
  phaseDifference (phase.getD p 0) (phase.getD (p + 1) 0)

section Slicing

variable {phase : PhaseBuffer} (zeroSlice oneSlice : Int)

theorem readPhase_of_lt {p : Nat} (h : p < phase.length) :
    readPhase phase p = some (phase.getD p 0) := by
  simp [readPhase, h, Int.ofNat_nonneg]

/-- One pair, read inside the span: the bit and the erasure flag. -/
theorem demodBit_of_le {p : Nat} (h : p + 2 ≤ phase.length) :
    demodBit phase zeroSlice oneSlice p =
      some (decide (pairDifference phase p > oneSlice),
        decide (¬ pairDifference phase p > oneSlice ∧ pairDifference phase p > zeroSlice)) := by
  have h1 := readPhase_of_lt (show p < phase.length by omega)
  have h2 := readPhase_of_lt (show p + 1 < phase.length by omega)
  push_cast at h2
  simp only [demodBit, h1, h2, Option.bind_eq_bind, Option.some_bind]
  rfl

/-- The last `n` bits of a byte from the pair at `p`: bit `n - 1 - j` of the value is the
slice of the `j`-th pair, and the flag says whether one pair lies in
`(zeroSlice, oneSlice]`. -/
theorem demodByteBits_slices {p n : Nat} (h : p + 2 * n ≤ phase.length) :
    ∃ value erasure, demodByteBits phase zeroSlice oneSlice p n = some (value, erasure) ∧
      value < 2 ^ n ∧
      (∀ j < n, value.testBit (n - 1 - j) =
        decide (pairDifference phase (p + 2 * j) > oneSlice)) ∧
      (erasure = true ↔ ∃ j < n, zeroSlice < pairDifference phase (p + 2 * j) ∧
        pairDifference phase (p + 2 * j) ≤ oneSlice) := by
  induction n generalizing p with
  | zero => exact ⟨0, false, rfl, by simp, by simp, by simp⟩
  | succ n ih =>
    obtain ⟨rest, erasures, hrest, hlt, hbits, herasures⟩ :=
      ih (p := p + 2) (by omega)
    have hbit := demodBit_of_le zeroSlice oneSlice (show p + 2 ≤ phase.length by omega)
    have hshift : ∀ j, p + 2 + 2 * j = p + 2 * (j + 1) := fun j => by omega
    simp only [hshift] at hbits herasures
    push_cast at hrest
    refine ⟨_, _, by simp only [demodByteBits, hbit, hrest, Option.bind_eq_bind,
      Option.some_bind]; rfl, ?_, ?_, ?_⟩
    · have := Nat.pow_succ 2 n
      split <;> omega
    · rw [Nat.forall_lt_succ_left]
      constructor
      · have hrest_top := Nat.testBit_lt_two_pow hlt
        split
        · rename_i hgt
          simp [Nat.testBit_two_pow_add_eq, hrest_top, hgt]
        · rename_i hgt
          simpa [hgt] using hrest_top
      · intro j hj
        have hidx : n + 1 - 1 - (j + 1) = n - 1 - j := by omega
        rw [← hbits j hj, hidx]
        split
        · exact Nat.testBit_two_pow_add_gt (by omega) rest
        · rw [Nat.zero_add]
    · rw [Nat.exists_lt_succ_left, Bool.or_eq_true, herasures, decide_eq_true_iff, Nat.mul_zero,
        Nat.add_zero]
      exact or_congr_left (by omega)

/-- One byte from the pair at `p`: bit `7 - j` is the slice of the `j`-th pair. -/
theorem demodByte_slices {p : Nat} (h : p + 16 ≤ phase.length) :
    ∃ b erasure, demodByte phase zeroSlice oneSlice p = some (b, erasure) ∧
      (∀ j < 8, b.toNat.testBit (7 - j) =
        decide (pairDifference phase (p + 2 * j) > oneSlice)) ∧
      (erasure = true ↔ ∃ j < 8, zeroSlice < pairDifference phase (p + 2 * j) ∧
        pairDifference phase (p + 2 * j) ≤ oneSlice) := by
  obtain ⟨value, erasure, hv, hlt, hbits, herasure⟩ :=
    @demodByteBits_slices phase zeroSlice oneSlice p 8 (by omega)
  refine ⟨UInt8.ofNat value, erasure, by rw [demodByte, hv]; rfl, ?_, herasure⟩
  rw [UInt8.toNat_ofNat_of_lt hlt]
  exact hbits

/-- The loop of `DemodBits` from byte index `i` with `n` bytes left, the phase pointer at
`p`: one byte per index, each sliced from its sixteen samples, and the ascending indices of
exactly the bytes with an erasure. -/
theorem demodBitsFrom_slices {p : Nat} (i : Nat) {n : Nat} (h : p + 16 * n ≤ phase.length) :
    ∃ raw erasures, demodBitsFrom phase zeroSlice oneSlice p i n = some (raw, erasures) ∧
      raw.length = n ∧
      (∀ k < n, ∀ j < 8, (raw.getD k 0).toNat.testBit (7 - j) =
        decide (pairDifference phase (p + 16 * k + 2 * j) > oneSlice)) ∧
      erasures.Sorted (· < ·) ∧
      ∀ e, e ∈ erasures ↔ i ≤ e ∧ e < i + n ∧
        ∃ j < 8, zeroSlice < pairDifference phase (p + 16 * (e - i) + 2 * j) ∧
          pairDifference phase (p + 16 * (e - i) + 2 * j) ≤ oneSlice := by
  induction n generalizing p i with
  | zero =>
    exact ⟨[], [], rfl, rfl, by simp, List.sorted_nil,
      fun e => ⟨fun h => absurd h (List.not_mem_nil e), fun ⟨_, _, _⟩ => by omega⟩⟩
  | succ n ih =>
    obtain ⟨b, erasure, hb, hbits, herasure⟩ :=
      demodByte_slices zeroSlice oneSlice (show p + 16 ≤ phase.length by omega)
    obtain ⟨rest, erasures, hrest, hlen, hrbits, hsorted, hmem⟩ :=
      ih (p := p + 16) (i + 1) (by omega)
    push_cast at hrest
    refine ⟨b :: rest, if erasure then i :: erasures else erasures,
      by simp only [demodBitsFrom, hb, hrest, Option.bind_eq_bind, Option.some_bind]; rfl,
      by simp [hlen], ?_, ?_, fun e => ?_⟩
    · rw [Nat.forall_lt_succ_left]
      refine ⟨by simpa using hbits, fun k hk j hj => ?_⟩
      rw [List.getD_cons_succ, hrbits k hk j hj]
      congr 3
      omega
    · split
      · exact List.sorted_cons.mpr ⟨fun e he => by have := ((hmem e).mp he).1; omega, hsorted⟩
      · exact hsorted
    · by_cases he : e = i
      · subst he
        have hnot : e ∉ erasures := fun hin => by have := ((hmem e).mp hin).1; omega
        have hcons : e ∈ (if erasure then e :: erasures else erasures) ↔ erasure = true := by
          cases erasure <;> simp [hnot]
        rw [hcons, herasure, Nat.sub_self, Nat.mul_zero, Nat.add_zero]
        exact ⟨fun hx => ⟨le_refl _, by omega, hx⟩, fun hx => hx.2.2⟩
      · have hcons : e ∈ (if erasure then i :: erasures else erasures) ↔ e ∈ erasures := by
          split <;> simp [he]
        rw [hcons, hmem e]
        by_cases hlt : i < e
        · have hidx : p + 16 + 16 * (e - (i + 1)) = p + 16 * (e - i) := by omega
          rw [hidx]
          exact ⟨fun ⟨h1, h2, h3⟩ => ⟨by omega, by omega, h3⟩,
            fun ⟨h1, h2, h3⟩ => ⟨by omega, by omega, h3⟩⟩
        · exact ⟨fun h => absurd h.1 (by omega), fun h => absurd h.1 (by omega)⟩

end Slicing

/-- **`DemodBits` slices every bit.** Over a span holding the `16 * bytes` samples from `p`,
for all thresholds, `DemodBits` returns `bytes` bytes; bit `j` of byte `i` (`j = 0` the most
significant) is set iff `PhaseDifference(phase[16i + 2j], phase[16i + 2j + 1]) > one_slice`;
and the erasures are the strictly ascending indices of exactly the bytes with some pair whose
difference lies in `(zero_slice, one_slice]`. -/
theorem demodBits_slices (phase : PhaseBuffer) (p bytes : Nat) (zeroSlice oneSlice : Int)
    (h : p + 16 * bytes ≤ phase.length) :
    ∃ raw erasures, demodBits phase p bytes zeroSlice oneSlice = some (raw, erasures) ∧
      raw.length = bytes ∧
      (∀ i < bytes, ∀ j < 8, (raw.getD i 0).toNat.testBit (7 - j) =
        decide (pairDifference phase (p + 16 * i + 2 * j) > oneSlice)) ∧
      erasures.Sorted (· < ·) ∧
      ∀ i, i ∈ erasures ↔ i < bytes ∧
        ∃ j < 8, zeroSlice < pairDifference phase (p + 16 * i + 2 * j) ∧
          pairDifference phase (p + 16 * i + 2 * j) ≤ oneSlice := by
  obtain ⟨raw, erasures, hd, hlen, hbits, hsorted, hmem⟩ :=
    demodBitsFrom_slices zeroSlice oneSlice 0 h
  refine ⟨raw, erasures, hd, hlen, hbits, hsorted, fun i => ?_⟩
  simpa using hmem i

theorem demodBits_slices_one_byte :
    ∃ raw erasures, demodBits (List.replicate 16 0) 0 1 0 0 = some (raw, erasures) ∧
      raw.length = 1 ∧
      (∀ i < 1, ∀ j < 8, (raw.getD i 0).toNat.testBit (7 - j) =
        decide (pairDifference (List.replicate 16 0) (0 + 16 * i + 2 * j) > 0)) ∧
      erasures.Sorted (· < ·) ∧
      ∀ i, i ∈ erasures ↔ i < 1 ∧
        ∃ j < 8, 0 < pairDifference (List.replicate 16 0) (0 + 16 * i + 2 * j) ∧
          pairDifference (List.replicate 16 0) (0 + 16 * i + 2 * j) ≤ 0 :=
  demodBits_slices (List.replicate 16 0) 0 1 0 0 (by simp)

end Dump978
