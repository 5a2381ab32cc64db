import RecordMapping.Proofs.Number.Rounding
/-!
Single-precision numbers as double-precision ones. Every finite one has an equal, so that widening
and narrowing give it back; a NaN comes back quiet.
-/
namespace RecordMapping.Number

namespace Format

theorem single_hiddenBit : single.hiddenBit = 8388608 := rfl

theorem single_infinity : single.infinity = 2139095040 := rfl

theorem single_signBit : single.signBit = 2147483648 := rfl

theorem single_least : single.least = -149 := rfl

theorem double_hiddenBit : double.hiddenBit = 4503599627370496 := rfl

theorem double_infinity : double.infinity = 9218868437227405312 := rfl

theorem double_signBit : double.signBit = 9223372036854775808 := rfl

theorem double_least : double.least = -1074 := rfl

theorem single_scale_le {magnitude : Nat} (h : magnitude < single.infinity) :
    single.scale magnitude ≤ 104 := by
  rw [single_infinity] at h
  rw [scale, single_hiddenBit, single_least]
  split
  · omega
  · omega

theorem exists_double {magnitude : Nat} (h : magnitude < single.infinity) :
    ∃ other < double.infinity, double.value other = single.value magnitude := by
  have hscale := single_scale_le h
  have hleast := single.least_le_scale magnitude
  have hsig := single.significand_lt magnitude
  rw [single_hiddenBit] at hsig
  rw [single_least] at hleast
  by_cases hzero : single.significand magnitude = 0
  · refine ⟨0, by decide, ?_⟩
    rw [value, value, hzero]
    simp [significand, double_hiddenBit]
  · -- shift the first bit to the place of the hidden one
    have hlow := Nat.log2_self_le hzero
    have hhigh := Nat.lt_log2_self (n := single.significand magnitude)
    have hbits : (single.significand magnitude).log2 < 24 := (Nat.log2_lt hzero).2 hsig
    generalize (single.significand magnitude).log2 = k at hlow hhigh hbits
    obtain ⟨j, hj⟩ : ∃ j, k + j = 52 := ⟨52 - k, by omega⟩
    obtain ⟨exponent, hexponent⟩ := Int.eq_ofNat_of_zero_le
      (show 0 ≤ single.scale magnitude + 1022 + k by omega)
    have hmin : double.hiddenBit ≤ single.significand magnitude * 2 ^ j := by
      calc double.hiddenBit = 2 ^ k * 2 ^ j := by rw [← Nat.pow_add, hj]; rfl
        _ ≤ single.significand magnitude * 2 ^ j := Nat.mul_le_mul_right _ hlow
    have hmax : single.significand magnitude * 2 ^ j < 2 * double.hiddenBit := by
      calc single.significand magnitude * 2 ^ j
          < 2 ^ (k + 1) * 2 ^ j := Nat.mul_lt_mul_of_pos_right hhigh (Nat.two_pow_pos j)
        _ = 2 * double.hiddenBit := by
          rw [← Nat.pow_add, show k + 1 + j = 53 by omega]
          rfl
    refine ⟨single.significand magnitude * 2 ^ j + exponent * double.hiddenBit, ?_, ?_⟩
    · rw [double_hiddenBit] at hmax ⊢
      rw [double_infinity]
      omega
    · have hpow : (j : Int) + (double.least + exponent) = single.scale magnitude := by
        rw [double_least]
        omega
      rw [value_add_mul hmin hmax, value, ← hpow, zpow_add₀ (by norm_num) (j : Int), zpow_natCast]
      push_cast
      rw [mul_assoc]

end Format

namespace Binary64

theorem ofMagnitude_parts (negative : Bool) {magnitude : Nat}
    (h : magnitude < Format.double.signBit) :
    (ofMagnitude negative magnitude).isNegative = negative ∧
      (ofMagnitude negative magnitude).magnitude = magnitude := by
  rw [Format.double_signBit] at h
  cases negative with
  | false =>
    have hsize : magnitude < UInt64.size := Nat.lt_trans h (by decide)
    simp only [isNegative, Binary64.magnitude, ofMagnitude, Format.double_signBit,
      Bool.false_eq_true, if_false, UInt64.toNat_ofNat_of_lt' hsize]
    refine ⟨by simpa using h, ?_⟩
    omega
  | true =>
    have hsize : 9223372036854775808 + magnitude < UInt64.size := by
      simp only [UInt64.size]
      omega
    simp only [isNegative, Binary64.magnitude, ofMagnitude, Format.double_signBit, if_true,
      UInt64.toNat_ofNat_of_lt' hsize]
    refine ⟨by simp, ?_⟩
    omega

end Binary64

namespace Binary32

theorem toNat_bits_lt (x : Binary32) : x.bits.toNat < 4294967296 :=
  x.bits.toNat_lt

theorem magnitude_lt (x : Binary32) : x.magnitude < 2147483648 :=
  Nat.mod_lt _ (by decide)

theorem ofMagnitude_magnitude (x : Binary32) : ofMagnitude x.isNegative x.magnitude = x := by
  have hx := x.toNat_bits_lt
  have hbits : (if x.isNegative then Format.single.signBit + x.magnitude else x.magnitude) =
      x.bits.toNat := by
    by_cases hneg : x.isNegative = true
    · rw [if_pos hneg]
      simp only [isNegative, decide_eq_true_eq] at hneg
      rw [Format.single_signBit] at hneg ⊢
      rw [magnitude, Format.single_signBit]
      omega
    · rw [if_neg hneg]
      simp only [isNegative, decide_eq_true_eq] at hneg
      rw [Format.single_signBit] at hneg
      rw [magnitude, Format.single_signBit]
      omega
  rw [ofMagnitude, hbits, UInt32.ofNat_toNat]

def isNaN (x : Binary32) : Bool :=
  Format.single.infinity < x.magnitude

/-- The number itself; a NaN loses its signal and keeps the rest of its fraction. -/
def quiet (x : Binary32) : Binary32 :=
  if x.isNaN then
    ofMagnitude x.isNegative (Format.single.quietNaN + x.magnitude % (Format.single.hiddenBit / 2))
  else x

theorem ofDouble_ofMagnitude {negative : Bool} {magnitude : Nat}
    (h : magnitude < Format.double.signBit) : ofDouble (Binary64.ofMagnitude negative magnitude) =
      ofMagnitude negative (Format.double.convert Format.single magnitude) := by
  obtain ⟨hsign, hmag⟩ := Binary64.ofMagnitude_parts negative h
  rw [ofDouble, hsign, hmag]

/-- Widening loses nothing but the signal of a NaN. -/
theorem ofDouble_toDouble (x : Binary32) : ofDouble x.toDouble = x.quiet := by
  have hlt := x.magnitude_lt
  by_cases hfinite : x.magnitude < Format.single.infinity
  · obtain ⟨other, hother, hvalue⟩ := Format.exists_double hfinite
    have hwide : Format.single.convert Format.double x.magnitude = other :=
      Format.convert_of_eq_value hfinite hother hvalue.symm
    have hnan : x.isNaN = false := by
      simpa [isNaN] using hfinite.le
    rw [toDouble, hwide, ofDouble_ofMagnitude, Format.convert_of_eq_value hother hfinite hvalue,
      quiet, hnan]
    · exact x.ofMagnitude_magnitude
    · rw [Format.double_infinity] at hother
      rw [Format.double_signBit]
      omega
  · by_cases hinf : x.magnitude = Format.single.infinity
    · have hwide : Format.single.convert Format.double x.magnitude = Format.double.infinity := by
        rw [Format.convert, if_neg hfinite, if_pos hinf]
      have hnan : x.isNaN = false := by
        simp [isNaN, hinf]
      have hnarrow : Format.double.convert Format.single Format.double.infinity = x.magnitude := by
        rw [Format.convert, if_neg (Nat.lt_irrefl _), if_pos rfl, hinf]
      rw [toDouble, hwide, ofDouble_ofMagnitude (by decide), hnarrow, quiet, hnan]
      exact x.ofMagnitude_magnitude
    · have hnan : x.isNaN = true := by
        simp only [isNaN, decide_eq_true_eq]
        omega
      -- the quiet bit and what is left of the fraction move up by 29 places and down again
      have hwide : Format.single.convert Format.double x.magnitude =
          9221120237041090560 + x.magnitude % 4194304 * 536870912 := by
        rw [Format.convert, if_neg hfinite, if_neg hinf, Format.single_hiddenBit,
          Format.double_hiddenBit, Format.double_infinity]
        dsimp only
        omega
      have hnarrow : Format.double.convert Format.single
          (9221120237041090560 + x.magnitude % 4194304 * 536870912) =
            Format.single.quietNaN + x.magnitude % 4194304 := by
        rw [Format.convert, Format.double_infinity, if_neg (by omega), if_neg (by omega),
          Format.single_hiddenBit, Format.double_hiddenBit, Format.quietNaN,
          Format.single_hiddenBit]
        dsimp only
        omega
      rw [toDouble, hwide, ofDouble_ofMagnitude, hnarrow, quiet, hnan]
      · rfl
      · rw [Format.double_signBit]
        omega

end Binary32
end RecordMapping.Number
