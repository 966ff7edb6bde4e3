import Mathlib.Algebra.Group.Int
import Mathlib.Algebra.Order.Ring.Nat
import Mathlib.Data.List.Basic
import Mathlib.Data.String.Basic

namespace Dump978

/-!
# Common types — byte buffers, phase buffers and `std::vector` operations

`common.h` names the two buffer types of the receiver: `Bytes` (`std::vector<uint8_t>`) and
`PhaseBuffer` (`std::vector<uint16_t>`). Both are lists here; positions are list indices.

The C++ code changes vectors in two ways, and every module states them through the two
definitions of this file rather than by hand:

* `vectorResize v n fill` — `v.resize(n)`: truncate, or pad with the value-initialised `fill`.
* `copyInto dst pos src` — `std::copy(src.begin(), src.end(), dst.begin() + pos)`, written
  as `dst.take pos ++ src ++ dst.drop (pos + src.length)` (the bytes before `pos`, the copied
  bytes, the untouched rest). It keeps the length when the copy fits.

A `std::map` is a key-sorted association list; `mapAssign m k v` is `m[k] = v`. Over a linear
order its list keeps `KeysSorted`, and `lookup` reads it as a map.

`StdException` names the standard exceptions the modelled code throws or catches.
-/

/-- `std::vector<uint8_t>`. -/
abbrev Bytes := List UInt8

/-- `std::vector<uint16_t>`: phase angles, `0..65535` for `0..2π`. -/
abbrev PhaseBuffer := List UInt16

/-- The standard exceptions the modelled code throws or catches, with their `what()` text. -/
inductive StdException
  | logicError (what : String)
  | outOfRange (what : String)
  | invalidArgument (what : String)
  deriving DecidableEq, Repr

/-! ### `std::vector::resize` -/

/-- `v.resize(n)` with value-initialised elements `fill`. -/
def vectorResize {α : Type} (v : List α) (n : Nat) (fill : α) : List α :=
  v.take n ++ List.replicate (n - v.length) fill

@[simp] theorem length_vectorResize {α : Type} (v : List α) (n : Nat) (fill : α) :
    (vectorResize v n fill).length = n := by
  simp only [vectorResize, List.length_append, List.length_take, List.length_replicate]
  omega

theorem vectorResize_of_le {α : Type} (v : List α) (n : Nat) (fill : α) (h : v.length ≤ n) :
    vectorResize v n fill = v ++ List.replicate (n - v.length) fill := by
  rw [vectorResize, List.take_of_length_le h]

/-! ### `std::copy` into a vector -/

/-- `std::copy(src.begin(), src.end(), dst.begin() + pos)`. -/
def copyInto {α : Type} (dst : List α) (pos : Nat) (src : List α) : List α :=
  dst.take pos ++ src ++ dst.drop (pos + src.length)

variable {α : Type} (dst src : List α) (pos : Nat)

@[simp] theorem length_copyInto (h : pos + src.length ≤ dst.length) :
    (copyInto dst pos src).length = dst.length := by
  simp only [copyInto, List.length_append, List.length_take, List.length_drop]
  omega

theorem take_copyInto (h : pos ≤ dst.length) :
    (copyInto dst pos src).take (pos + src.length) = dst.take pos ++ src := by
  have hlen : (dst.take pos ++ src).length = pos + src.length := by simp; omega
  rw [copyInto, ← hlen, List.take_left]

theorem drop_copyInto (h : pos ≤ dst.length) :
    (copyInto dst pos src).drop (pos + src.length) = dst.drop (pos + src.length) := by
  have hlen : (dst.take pos ++ src).length = pos + src.length := by simp; omega
  rw [copyInto, ← hlen, List.drop_left]

/-- Copying to the front replaces a prefix. -/
theorem copyInto_zero : copyInto dst 0 src = src ++ dst.drop src.length := by
  simp [copyInto]

/-! ### Integer conversions -/

/-- A signed value converted to an unsigned type of `w` bits (modulo `2^w`). -/
def wrapUnsigned (w : Nat) (v : Int) : Nat := (v % 2 ^ w).toNat

/-- `uint64_t` subtraction, modulo `2^64`. -/
theorem uint64_toNat_sub (a b : UInt64) : (a - b).toNat = (2 ^ 64 - b.toNat + a.toNat) % 2 ^ 64 :=
  BitVec.toNat_sub _ _

/-- An `unsigned` counter's `++` that does not wrap. -/
theorem uint32_toNat_add_one {x : UInt32} (h : x.toNat + 1 < 2 ^ 32) : (x + 1).toNat = x.toNat + 1 := by
  simp only [UInt32.toNat, UInt32.add_def, Fin.val_add]
  exact Nat.mod_eq_of_lt h

/-! ### `std::map` -/

/-- `m[k] = v` on a `std::map` kept as a key-sorted association list: replace the value of
`k`, or insert `(k, v)` before the first larger key. -/
def mapAssign {κ β : Type} [LT κ] [∀ a b : κ, Decidable (a < b)] [DecidableEq κ] :
    List (κ × β) → κ → β → List (κ × β)
  | [], k, v => [(k, v)]
  | (k', v') :: rest, k, v =>
    if k = k' then (k, v) :: rest
    else if k < k' then (k, v) :: (k', v') :: rest
    else (k', v') :: mapAssign rest k v

section Lookup

variable {κ β : Type} [DecidableEq κ]

/-- `List.lookup` on a cons, as an `if`. -/
theorem lookup_cons_ite (k k' : κ) (v : β) (m : List (κ × β)) :
    ((k, v) :: m).lookup k' = if k' = k then some v else m.lookup k' := by
  by_cases h : k' = k
  · rw [h, List.lookup_cons_self, if_pos rfl]
  · rw [List.lookup_cons, beq_false_of_ne h, if_neg h]

variable [LT κ] [∀ a b : κ, Decidable (a < b)]

/-- `m[k] = v` is found at `k` and changes no other key, on any list. -/
theorem lookup_mapAssign (m : List (κ × β)) (k k' : κ) (v : β) :
    (mapAssign m k v).lookup k' = if k' = k then some v else m.lookup k' := by
  induction m with
  | nil => exact lookup_cons_ite k k' v []
  | cons e rest ih =>
    obtain ⟨k₀, v₀⟩ := e
    by_cases hk : k = k₀
    · subst hk
      rw [mapAssign, if_pos rfl]
      by_cases h : k' = k <;> simp [lookup_cons_ite, h]
    · by_cases hlt : k < k₀
      · rw [mapAssign, if_neg hk, if_pos hlt, lookup_cons_ite]
      · rw [mapAssign, if_neg hk, if_neg hlt, lookup_cons_ite, lookup_cons_ite, ih]
        by_cases h : k' = k
        · subst h; simp [hk]
        · simp [h]

/-- `for (auto &kv : src) dst[kv.first] = kv.second`: copying a map with distinct keys into
another gives each key its value in `src`, else its value in `dst`. -/
theorem lookup_foldl_mapAssign (src : List (κ × β)) (hdistinct : src.Pairwise fun a b => a.1 ≠ b.1)
    (dst : List (κ × β)) (k : κ) :
    (src.foldl (fun m kv => mapAssign m kv.1 kv.2) dst).lookup k =
      (src.lookup k).or (dst.lookup k) := by
  induction src generalizing dst with
  | nil => rfl
  | cons e rest ih =>
    obtain ⟨k₀, v₀⟩ := e
    obtain ⟨hhead, hrest⟩ := List.pairwise_cons.mp hdistinct
    rw [List.foldl_cons, ih hrest, lookup_mapAssign, lookup_cons_ite]
    by_cases hk : k = k₀
    · subst hk
      have hnone : rest.lookup k = none :=
        List.lookup_eq_none_iff.mpr fun e he => bne_iff_ne.mpr (hhead e he)
      simp [hnone]
    · simp [hk]

end Lookup

/-! ### `std::map` over a linearly ordered key -/

section SortedMap

variable {κ β : Type} [LinearOrder κ]

/-- The list of a `std::map`: keys strictly increasing. -/
def KeysSorted (m : List (κ × β)) : Prop := m.Pairwise fun a b => a.1 < b.1

/-- A key of `m[k] = v` is `k` or a key of `m`. -/
theorem fst_mem_mapAssign {m : List (κ × β)} {k : κ} {v : β} {e : κ × β}
    (he : e ∈ mapAssign m k v) : e.1 = k ∨ ∃ e' ∈ m, e'.1 = e.1 := by
  induction m with
  | nil => exact .inl (by simp_all [mapAssign])
  | cons e₀ rest ih =>
    obtain ⟨k₀, v₀⟩ := e₀
    unfold mapAssign at he
    split_ifs at he <;> rcases List.mem_cons.mp he with rfl | he
    · exact .inl rfl
    · exact .inr ⟨e, List.mem_cons_of_mem _ he, rfl⟩
    · exact .inl rfl
    · exact .inr ⟨e, he, rfl⟩
    · exact .inr ⟨_, List.mem_cons_self _ _, rfl⟩
    · exact (ih he).imp_right fun ⟨e', he', h⟩ => ⟨e', List.mem_cons_of_mem _ he', h⟩

theorem KeysSorted.mapAssign {m : List (κ × β)} (hs : KeysSorted m) (k : κ) (v : β) :
    KeysSorted (Dump978.mapAssign m k v) := by
  induction m with
  | nil => exact List.pairwise_singleton _ _
  | cons e rest ih =>
    obtain ⟨k₀, v₀⟩ := e
    obtain ⟨hhead, hrest⟩ := List.pairwise_cons.mp hs
    unfold Dump978.mapAssign
    split_ifs with hk hlt
    · subst hk
      exact List.pairwise_cons.mpr ⟨hhead, hrest⟩
    · refine List.pairwise_cons.mpr ⟨fun e he => ?_, hs⟩
      rcases List.mem_cons.mp he with rfl | he
      · exact hlt
      · exact hlt.trans (hhead e he)
    · have hgt : k₀ < k := lt_of_le_of_ne (not_lt.mp hlt) (Ne.symm hk)
      refine List.pairwise_cons.mpr ⟨fun e he => ?_, ih hrest⟩
      rcases fst_mem_mapAssign he with h | ⟨e', he', h⟩
      · exact h ▸ hgt
      · exact h ▸ hhead e' he'

theorem KeysSorted.filter {m : List (κ × β)} (hs : KeysSorted m) (p : κ × β → Bool) :
    KeysSorted (m.filter p) :=
  hs.sublist (List.filter_sublist m)

/-- A key below every key of the map is not found. -/
theorem lookup_eq_none_of_lt {m : List (κ × β)} {k : κ} (h : ∀ e ∈ m, k < e.1) :
    m.lookup k = none :=
  List.lookup_eq_none_iff.mpr fun e he => bne_iff_ne.mpr (h e he).ne

/-- Erasing the entries that fail `p` from a sorted map: a key's entry stays exactly when it
passes `p`. -/
theorem lookup_filter {m : List (κ × β)} (hs : KeysSorted m) (p : κ × β → Bool) (k : κ) :
    (m.filter p).lookup k = (m.lookup k).filter fun v => p (k, v) := by
  induction m with
  | nil => rfl
  | cons e rest ih =>
    obtain ⟨k₀, v₀⟩ := e
    obtain ⟨hhead, hrest⟩ := List.pairwise_cons.mp hs
    by_cases hk : k = k₀
    · subst hk
      by_cases hp : p (k, v₀)
      · simp [List.filter_cons, Option.filter_some, hp]
      · have hnone : (rest.filter p).lookup k = none :=
          lookup_eq_none_of_lt fun e he => hhead e (List.mem_of_mem_filter he)
        simp [List.filter_cons, Option.filter_some, hp, hnone]
    · by_cases hp : p (k₀, v₀) <;> simp [List.filter_cons, lookup_cons_ite, hp, hk, ih hrest]

end SortedMap

/-- `std::map<std::string, _>` assignment keeps its keys sorted; `String`'s own order and its
linear order decide `<` by different instances, which `convert` matches. -/
theorem KeysSorted.mapAssign_string {β : Type} {m : List (String × β)} (hs : KeysSorted m)
    (k : String) (v : β) : KeysSorted (Dump978.mapAssign m k v) := by
  convert hs.mapAssign k v using 2

/-- Assignments one after another into a sorted map leave it sorted. -/
theorem keysSorted_foldl_mapAssign {β : Type} (assignments : List (String × β))
    {dst : List (String × β)} (hs : KeysSorted dst) :
    KeysSorted (assignments.foldl (fun o kv => mapAssign o kv.1 kv.2) dst) := by
  induction assignments generalizing dst with
  | nil => exact hs
  | cons kv rest ih => exact ih (hs.mapAssign_string kv.1 kv.2)

end Dump978
