import Mathlib.Algebra.Order.Floor.Semifield
import Mathlib.Data.Rat.Floor
import Mathlib.Tactic.Ring
import RecordMapping.Proofs.Number.Rounding
/-!
What floating-point numbers are, exactly, and what is left of them as integers: their integer part
is that of the exact value, and only a whole number is equal to it.
-/
namespace RecordMapping.Number

namespace Format

variable (f : Format) (magnitude : Nat)

theorem value_nonneg : 0 ≤ f.value magnitude := by
  rw [value]
  positivity

theorem units_div :
    ((inUnits (f.significand magnitude) 1 (-f.scale magnitude)).1 : ℚ) /
      (inUnits (f.significand magnitude) 1 (-f.scale magnitude)).2 = f.value magnitude := by
  rw [inUnits_div, value, zpow_neg, div_inv_eq_mul, Nat.cast_one, div_one]

theorem floor_eq : f.floor magnitude = ⌊f.value magnitude⌋₊ := by
  rw [← f.units_div, Nat.floor_div_eq_div]
  rfl

theorem isIntegral_iff : f.isIntegral magnitude = true ↔ ∃ n : Nat, f.value magnitude = n := by
  have hpos := inUnits_den_pos (f.significand magnitude) Nat.one_pos (-f.scale magnitude)
  have hne : ((inUnits (f.significand magnitude) 1 (-f.scale magnitude)).2 : ℚ) ≠ 0 := by
    exact_mod_cast hpos.ne'
  rw [← f.units_div]
  simp only [isIntegral, beq_iff_eq, div_eq_iff hne]
  rw [← Nat.dvd_iff_mod_eq_zero]
  constructor
  · rintro ⟨n, hn⟩
    refine ⟨n, ?_⟩
    rw [hn]
    push_cast
    ring
  · rintro ⟨n, hn⟩
    refine ⟨n, ?_⟩
    rw [mul_comm]
    exact_mod_cast hn

end Format

def towardZero (q : ℚ) : Int :=
  if 0 ≤ q then ⌊q⌋ else ⌈q⌉

@[simp] theorem towardZero_intCast (n : Int) : towardZero n = n := by
  simp [towardZero]

@[simp] theorem towardZero_natCast (n : Nat) : towardZero n = n :=
  towardZero_intCast n

theorem towardZero_neg (q : ℚ) : towardZero (-q) = -towardZero q := by
  rcases lt_trichotomy q 0 with h | rfl | h
  · rw [towardZero, if_pos (by linarith), towardZero, if_neg (by linarith), Int.floor_neg]
  · simp [towardZero]
  · rw [towardZero, if_neg (by linarith), towardZero, if_pos h.le, Int.ceil_neg]

namespace Binary64

variable {x : Binary64} {n : Int}

def rational? (x : Binary64) : Option ℚ :=
  if x.isFinite then
    let q := Format.double.value x.magnitude
    some (if x.isNegative then -q else q)
  else none

theorem truncate?_eq (x : Binary64) : x.truncate? = x.rational?.map towardZero := by
  rw [truncate?, rational?]
  cases x.isFinite with
  | false => rfl
  | true =>
    have hnonneg := Format.double.value_nonneg x.magnitude
    have hpart : (Format.double.floor x.magnitude : Int) =
        towardZero (Format.double.value x.magnitude) := by
      rw [Format.floor_eq, towardZero, if_pos hnonneg, Int.natCast_floor_eq_floor hnonneg]
    cases x.isNegative with
    | false => simp [hpart]
    | true => simp [hpart, towardZero_neg]

theorem exists_rational?_iff (h : x.isFinite = true) :
    (∃ n : Int, x.rational? = some (n : ℚ)) ↔ Format.double.isIntegral x.magnitude = true := by
  have hnonneg := Format.double.value_nonneg x.magnitude
  simp only [Format.isIntegral_iff, rational?, h, if_true, Option.some.injEq]
  constructor
  · rintro ⟨n, hn⟩
    refine ⟨n.natAbs, ?_⟩
    rw [Nat.cast_natAbs, Int.cast_abs, ← hn, ← abs_of_nonneg hnonneg]
    split <;> simp
  · rintro ⟨n, hn⟩
    rw [hn]
    split
    · exact ⟨-n, by simp⟩
    · exact ⟨n, by simp⟩

theorem integer?_eq_some_iff : x.integer? = some n ↔ x.rational? = some (n : ℚ) := by
  cases hfinite : x.isFinite with
  | false => simp [integer?, rational?, hfinite]
  | true =>
    rw [integer?, hfinite, Bool.true_and, truncate?_eq]
    constructor
    · intro h
      split at h
      · next hintegral =>
        obtain ⟨k, hk⟩ := (exists_rational?_iff hfinite).2 hintegral
        rw [hk] at h
        simp only [Option.map_some, towardZero_intCast, Option.some.injEq] at h
        rw [hk, h]
      · cases h
    · intro h
      rw [if_pos ((exists_rational?_iff hfinite).1 ⟨n, h⟩), h]
      simp

end Binary64
end RecordMapping.Number
