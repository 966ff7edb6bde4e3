import Mathlib.Data.Int.Bitwise
import Mathlib.Data.Int.ModEq
import Mathlib.Tactic.Linarith

namespace Dump978

/-!
# The Reed-Solomon control block and `modnn` (`libs/fec/rs-common.h`)

`modnn(rs, x)` reduces a symbol exponent modulo `nn = 2^mm - 1` without a division: while
`x ≥ nn`, it subtracts `nn` once and folds the bits of `x` above bit `mm` onto the low ones,
`x = (x >> mm) + (x & nn)`. Since `2^mm ≡ 1 (mod nn)`, a fold keeps `x` modulo `nn`
(`modnnStep_modEq`), and from `x ≥ nn` it lands in `0 ≤ x' < x` (`modnnStep_nonneg`,
`modnnStep_lt`), so the loop ends, at `x mod nn`.

`Rs` keeps the two fields of `struct rs` that `modnn` reads. The code's `int`s are `Int`,
with `>>` and `&` the two's-complement shift and `and` of `Int`; every value the loop computes
from an `x ≥ 0` lies between `0` and `x`, so none leaves the range of `int`. `modnn` runs the
`while` for a number of tests of its condition (`fuel`), `none` when they run out.

The main result, `modnn_eq_emod`: on a control block with `1 ≤ mm ≤ 30` and `nn = 2^mm - 1`,
every `x ≥ 0` gives `x mod nn` within `x + 1` tests, each pass keeps `x` non-negative and
modulo `nn` and lowers it, and the loop returns only a value below `nn`.
-/

/-- `struct rs`, the codec control block: the fields `modnn` reads. -/
structure Rs where
  /-- Bits per symbol. -/
  mm : Int
  /-- Symbols per block (`= (1 << mm) - 1`). -/
  nn : Int
  deriving DecidableEq, Repr

/-- A control block as its comments describe it, with `1 ≤ mm ≤ 30`. -/
structure Rs.Valid (rs : Rs) : Prop where
  mm_pos : 1 ≤ rs.mm
  mm_le : rs.mm ≤ 30
  nn_eq : rs.nn = 2 ^ rs.mm.toNat - 1

/-- The body of `modnn`'s loop: `x -= rs->nn; x = (x >> rs->mm) + (x & rs->nn);`. -/
def modnnStep (rs : Rs) (x : Int) : Int :=
  let x := x - rs.nn
  (x >>> rs.mm) + Int.land x rs.nn

/-- `modnn(rs, x)`: `while (x >= rs->nn) { ... } return x;`, for at most `fuel` tests of the
condition (`none` once they run out). -/
def modnn (rs : Rs) (x : Int) : Nat → Option Int
  | 0 => none
  | fuel + 1 => if x ≥ rs.nn then modnn rs (modnnStep rs x) fuel else some x

section Loop

variable {rs : Rs} {x : Int} {fuel : Nat}

theorem modnn_succ_of_lt (hx : x < rs.nn) : modnn rs x (fuel + 1) = some x := by
  rw [modnn, if_neg (not_le.mpr hx)]

theorem modnn_succ_of_le (hx : rs.nn ≤ x) :
    modnn rs x (fuel + 1) = modnn rs (modnnStep rs x) fuel := by
  rw [modnn, if_pos hx]

/-- The loop returns only once its condition fails, on any control block. -/
theorem lt_nn_of_modnn {r : Int} (h : modnn rs x fuel = some r) : r < rs.nn := by
  induction fuel generalizing x with
  | zero => cases h
  | succ fuel ih =>
    by_cases hx : rs.nn ≤ x
    · rw [modnn_succ_of_le hx] at h
      exact ih h
    · rw [modnn_succ_of_lt (not_le.mp hx)] at h
      cases h
      exact not_le.mp hx

end Loop

section Valid

variable {rs : Rs} (h : rs.Valid) {x : Int}
include h

theorem Rs.Valid.one_le_nn : 1 ≤ rs.nn := by
  have hk : 1 ≤ rs.mm.toNat := by have := h.mm_pos; omega
  have hpow : (2 : Int) ^ 1 ≤ 2 ^ rs.mm.toNat := pow_le_pow_right₀ (by norm_num) hk
  rw [h.nn_eq]
  linarith

/-- `2^mm ≡ 1 (mod nn)`. -/
theorem Rs.Valid.two_pow_modEq : 2 ^ rs.mm.toNat ≡ 1 [ZMOD rs.nn] := by
  have hpow : (2 : Int) ^ rs.mm.toNat = rs.nn + 1 := by rw [h.nn_eq, sub_add_cancel]
  rw [hpow, Int.ModEq, Int.add_emod_self_left]

/-- From `x ≥ nn`, the fold splits `x - nn` at bit `mm`: its high part plus its low part. -/
theorem modnnStep_eq_fold (hx : rs.nn ≤ x) :
    modnnStep rs x = (x - rs.nn) / 2 ^ rs.mm.toNat + (x - rs.nn) % 2 ^ rs.mm.toNat := by
  have hmm : rs.mm = (rs.mm.toNat : Int) := (Int.toNat_of_nonneg (by have := h.mm_pos; omega)).symm
  have hnn : rs.nn = ((2 ^ rs.mm.toNat - 1 : Nat) : Int) := by
    rw [h.nn_eq, Nat.cast_sub Nat.one_le_two_pow, Nat.cast_pow, Nat.cast_ofNat, Nat.cast_one]
  obtain ⟨t, ht⟩ := Int.eq_ofNat_of_zero_le (sub_nonneg.mpr hx)
  unfold modnnStep
  rw [ht]
  nth_rewrite 1 [hmm]
  rw [hnn]
  dsimp only
  rw [Int.shiftRight_coe_nat, show Int.land (t : Int) ((2 ^ rs.mm.toNat - 1 : Nat) : Int) =
      ((t &&& 2 ^ rs.mm.toNat - 1 : Nat) : Int) from rfl, Nat.and_pow_two_sub_one_eq_mod,
    Nat.shiftRight_eq_div_pow, Int.natCast_div, Int.natCast_mod, Nat.cast_pow, Nat.cast_ofNat]

/-- A pass keeps `x` modulo `nn`, since `2^mm ≡ 1`. -/
theorem modnnStep_modEq (hx : rs.nn ≤ x) : modnnStep rs x ≡ x [ZMOD rs.nn] := by
  rw [modnnStep_eq_fold h hx]
  calc (x - rs.nn) / 2 ^ rs.mm.toNat + (x - rs.nn) % 2 ^ rs.mm.toNat
      = 1 * ((x - rs.nn) / 2 ^ rs.mm.toNat) + (x - rs.nn) % 2 ^ rs.mm.toNat := by rw [one_mul]
    _ ≡ 2 ^ rs.mm.toNat * ((x - rs.nn) / 2 ^ rs.mm.toNat) + (x - rs.nn) % 2 ^ rs.mm.toNat
        [ZMOD rs.nn] := ((h.two_pow_modEq.symm.mul_right _).add_right _)
    _ = x - rs.nn := Int.ediv_add_emod _ _
    _ ≡ x [ZMOD rs.nn] := by rw [Int.ModEq, Int.sub_emod, Int.emod_self, sub_zero, Int.emod_emod]

theorem modnnStep_nonneg (hx : rs.nn ≤ x) : 0 ≤ modnnStep rs x := by
  have hpos : (0 : Int) < 2 ^ rs.mm.toNat := by positivity
  rw [modnnStep_eq_fold h hx]
  exact add_nonneg (Int.ediv_nonneg (by linarith) hpos.le) (Int.emod_nonneg _ hpos.ne')

/-- A pass lowers `x`: the fold is at most `x - nn`, and `nn ≥ 1`. -/
theorem modnnStep_lt (hx : rs.nn ≤ x) : modnnStep rs x < x := by
  have hpos : (1 : Int) ≤ 2 ^ rs.mm.toNat := one_le_pow₀ (by norm_num)
  have hq : (x - rs.nn) / 2 ^ rs.mm.toNat ≤ 2 ^ rs.mm.toNat * ((x - rs.nn) / 2 ^ rs.mm.toNat) :=
    le_mul_of_one_le_left (Int.ediv_nonneg (by linarith) (by linarith)) hpos
  have hsplit := Int.ediv_add_emod (x - rs.nn) (2 ^ rs.mm.toNat)
  have hnn := h.one_le_nn
  rw [modnnStep_eq_fold h hx]
  linarith

/-- **`modnn` returns `x mod nn`** from every `x ≥ 0` within `x + 1` tests. -/
theorem modnn_of_toNat_lt (hx : 0 ≤ x) {fuel : Nat} (hfuel : x.toNat < fuel) :
    modnn rs x fuel = some (x % rs.nn) := by
  induction fuel generalizing x with
  | zero => omega
  | succ fuel ih =>
    by_cases hle : rs.nn ≤ x
    · have hlt := modnnStep_lt h hle
      have hnonneg := modnnStep_nonneg h hle
      rw [modnn_succ_of_le hle, ih hnonneg (by omega), modnnStep_modEq h hle]
    · rw [modnn_succ_of_lt (not_le.mp hle), Int.emod_eq_of_lt hx (not_le.mp hle)]

end Valid

example : modnn ⟨8, 255⟩ 1000 1001 = some 235 := by decide

/-- **`modnn` is `x mod nn`, by a loop that ends.** On every control block with `1 ≤ mm ≤ 30`
and `nn = 2^mm - 1`: every `x ≥ 0` gives `x mod nn` once the condition may be tested more
than `x` times; a pass, run while `x ≥ nn`, keeps `x` non-negative and modulo `nn` (as
`2^mm ≡ 1`) and lowers it; and the loop returns only a value below `nn`. -/
theorem modnn_eq_emod (rs : Rs) (h : rs.Valid) :
    (∀ x : Int, 0 ≤ x → ∀ fuel : Nat, x.toNat < fuel → modnn rs x fuel = some (x % rs.nn)) ∧
    2 ^ rs.mm.toNat ≡ 1 [ZMOD rs.nn] ∧
    (∀ x : Int, rs.nn ≤ x →
      0 ≤ modnnStep rs x ∧ modnnStep rs x ≡ x [ZMOD rs.nn] ∧ modnnStep rs x < x) ∧
    (∀ (x : Int) (fuel : Nat) (r : Int), modnn rs x fuel = some r → r < rs.nn) :=
  ⟨fun _ hx _ hfuel => modnn_of_toNat_lt h hx hfuel, h.two_pow_modEq,
    fun _ hx => ⟨modnnStep_nonneg h hx, modnnStep_modEq h hx, modnnStep_lt h hx⟩,
    fun _ _ _ hr => lt_nn_of_modnn hr⟩

/-- The 8-bit symbols of the codes `fec.cc` builds: `mm = 8`, `nn = 255`. -/
theorem modnn_eq_emod_symsize8 :
    let rs : Rs := ⟨8, 255⟩
    rs.Valid ∧
      ((∀ x : Int, 0 ≤ x → ∀ fuel : Nat, x.toNat < fuel → modnn rs x fuel = some (x % rs.nn)) ∧
        2 ^ rs.mm.toNat ≡ 1 [ZMOD rs.nn] ∧
        (∀ x : Int, rs.nn ≤ x →
          0 ≤ modnnStep rs x ∧ modnnStep rs x ≡ x [ZMOD rs.nn] ∧ modnnStep rs x < x) ∧
        (∀ (x : Int) (fuel : Nat) (r : Int), modnn rs x fuel = some r → r < rs.nn)) := by
  intro rs
  have hv : rs.Valid := ⟨by decide, by decide, by decide⟩
  exact ⟨hv, modnn_eq_emod rs hv⟩

end Dump978
