import RecordMapping.Number.Binary
import Mathlib.Algebra.Order.Field.Power
import Mathlib.Tactic.GCongr
import Mathlib.Tactic.Linarith
import Mathlib.Tactic.NormNum
import Mathlib.Tactic.Positivity
/-!
Rounding is exact on what a format holds: a quotient that is equal to a finite magnitude is rounded
to that one. Converting to another format and back is therefore harmless wherever the other format
has an equal magnitude.
-/
namespace RecordMapping.Number.Format

variable {f g : Format} {num den magnitude : Nat}

/-- What a finite magnitude is equal to. -/
def value (f : Format) (magnitude : Nat) : ℚ :=
  f.significand magnitude * 2 ^ f.scale magnitude

theorem hiddenBit_pos (f : Format) : 0 < f.hiddenBit :=
  Nat.two_pow_pos f.fraction

theorem cast_hiddenBit (f : Format) : (f.hiddenBit : ℚ) = 2 ^ (f.fraction : Int) := by
  rw [hiddenBit, zpow_natCast]
  norm_num

theorem inUnits_den_pos (num : Nat) (h : 0 < den) (q : Int) : 0 < (inUnits num den q).2 := by
  rw [inUnits]
  split
  · exact Nat.mul_pos h (Nat.two_pow_pos _)
  · exact h

theorem inUnits_div (num den : Nat) (q : Int) :
    ((inUnits num den q).1 : ℚ) / (inUnits num den q).2 = num / den / 2 ^ q := by
  rw [inUnits]
  split
  · next h =>
    obtain ⟨k, rfl⟩ := Int.eq_ofNat_of_zero_le h
    simp [div_div]
  · next h =>
    obtain ⟨k, hk⟩ := Int.eq_ofNat_of_zero_le (show 0 ≤ -q by omega)
    obtain rfl : q = -k := by omega
    simp [zpow_neg, div_eq_mul_inv, mul_right_comm]

theorem floorLog2_spec (hn : 0 < num) (hd : 0 < den) :
    (2 : ℚ) ^ floorLog2 num den ≤ num / den ∧ (num / den : ℚ) < 2 ^ (floorLog2 num den + 1) := by
  have hd' : (0 : ℚ) < den := Nat.cast_pos.2 hd
  have hnlow : (2 : ℚ) ^ num.log2 ≤ num := by exact_mod_cast Nat.log2_self_le (by omega)
  have hnhigh : (num : ℚ) < 2 ^ (num.log2 + 1) := by exact_mod_cast Nat.lt_log2_self
  have hdlow : (2 : ℚ) ^ den.log2 ≤ den := by exact_mod_cast Nat.log2_self_le (by omega)
  have hdhigh : (den : ℚ) < 2 ^ (den.log2 + 1) := by exact_mod_cast Nat.lt_log2_self
  have hlow : (2 : ℚ) ^ ((num.log2 : Int) - den.log2 - 1) ≤ num / den := by
    rw [le_div_iff₀ hd']
    calc (2 : ℚ) ^ ((num.log2 : Int) - den.log2 - 1) * den
        ≤ 2 ^ ((num.log2 : Int) - den.log2 - 1) * 2 ^ (den.log2 + 1) := by gcongr
      _ = 2 ^ num.log2 := by
        rw [← zpow_natCast, ← zpow_natCast, ← zpow_add₀ (by norm_num)]
        congr 1
        omega
      _ ≤ num := hnlow
  have hhigh : (num / den : ℚ) < 2 ^ ((num.log2 : Int) - den.log2 + 1) := by
    rw [div_lt_iff₀ hd']
    calc (num : ℚ) < 2 ^ (num.log2 + 1) := hnhigh
      _ = 2 ^ ((num.log2 : Int) - den.log2 + 1) * 2 ^ den.log2 := by
        rw [← zpow_natCast, ← zpow_natCast, ← zpow_add₀ (by norm_num)]
        congr 1
        omega
      _ ≤ 2 ^ ((num.log2 : Int) - den.log2 + 1) * den := by gcongr
  have hunits := inUnits_div num den ((num.log2 : Int) - den.log2)
  have hpos := inUnits_den_pos num hd ((num.log2 : Int) - den.log2)
  rw [eq_div_iff (by positivity)] at hunits
  have hpos' : (0 : ℚ) < (inUnits num den ((num.log2 : Int) - den.log2)).2 := Nat.cast_pos.2 hpos
  rw [floorLog2]
  simp only
  split
  · next hle =>
    have hone : (1 : ℚ) ≤ (inUnits num den ((num.log2 : Int) - den.log2)).1 /
        (inUnits num den ((num.log2 : Int) - den.log2)).2 := by
      rw [one_le_div hpos']
      exact_mod_cast hle
    refine ⟨?_, hhigh⟩
    rw [← hunits]
    exact le_mul_of_one_le_left (by positivity) hone
  · next hlt =>
    have hone : ((inUnits num den ((num.log2 : Int) - den.log2)).1 : ℚ) /
        (inUnits num den ((num.log2 : Int) - den.log2)).2 < 1 := by
      rw [div_lt_one hpos']
      exact_mod_cast Nat.lt_of_not_le hlt
    refine ⟨hlow, ?_⟩
    rw [← hunits, sub_add_cancel]
    exact mul_lt_of_lt_one_left (by positivity) hone

theorem floorLog2_lt (hn : 0 < num) (hd : 0 < den) {k : Int} (h : (num / den : ℚ) < 2 ^ k) :
    floorLog2 num den < k :=
  (zpow_lt_zpow_iff_right₀ one_lt_two).1 ((floorLog2_spec hn hd).1.trans_lt h)

theorem le_floorLog2 (hn : 0 < num) (hd : 0 < den) {k : Int} (h : (2 : ℚ) ^ k ≤ num / den) :
    k ≤ floorLog2 num den :=
  Int.lt_add_one_iff.1
    ((zpow_lt_zpow_iff_right₀ one_lt_two).1 (h.trans_lt (floorLog2_spec hn hd).2))

theorem nearestEven_mul (n : Nat) {d : Nat} (h : 0 < d) : nearestEven (n * d) d = n := by
  simp [nearestEven, Nat.mul_div_cancel n h, h]

theorem significand_lt (f : Format) (magnitude : Nat) :
    f.significand magnitude < 2 * f.hiddenBit := by
  have hpos := f.hiddenBit_pos
  rw [significand]
  split
  · omega
  · have := Nat.mod_lt magnitude hpos
    omega

theorem least_le_scale (f : Format) (magnitude : Nat) : f.least ≤ f.scale magnitude := by
  rw [scale]
  split
  · exact Int.le_refl _
  · next h =>
    have : 1 ≤ magnitude / f.hiddenBit :=
      (Nat.one_le_div_iff f.hiddenBit_pos).2 (Nat.le_of_not_lt h)
    omega

theorem hiddenBit_le_significand (h : f.scale magnitude ≠ f.least) :
    f.hiddenBit ≤ f.significand magnitude := by
  rw [scale] at h
  rw [significand]
  split
  · next hlt => simp [hlt] at h
  · exact Nat.le_add_right _ _

theorem significand_add_scale (f : Format) (magnitude : Nat) :
    f.significand magnitude + (f.scale magnitude - f.least).toNat * f.hiddenBit = magnitude := by
  rw [significand, scale]
  split
  · simp
  · next h =>
    have hone : 1 ≤ magnitude / f.hiddenBit :=
      (Nat.one_le_div_iff f.hiddenBit_pos).2 (Nat.le_of_not_lt h)
    have hsub : (f.least + (magnitude / f.hiddenBit : Nat) - 1 - f.least).toNat =
        magnitude / f.hiddenBit - 1 := by omega
    have hmul : (magnitude / f.hiddenBit - 1) * f.hiddenBit =
        magnitude / f.hiddenBit * f.hiddenBit - f.hiddenBit := by
      rw [Nat.sub_mul, Nat.one_mul]
    have hdiv := Nat.div_add_mod' magnitude f.hiddenBit
    have hle : f.hiddenBit ≤ magnitude / f.hiddenBit * f.hiddenBit :=
      Nat.le_mul_of_pos_left _ hone
    rw [hsub, hmul]
    omega

/-- A quotient in the range of a scale is rounded in units of that scale. -/
theorem unit_eq_scale (hn : 0 < num) (hd : 0 < den) (h : (num / den : ℚ) = f.value magnitude) :
    max (floorLog2 num den - f.fraction) f.least = f.scale magnitude := by
  have hscale := f.least_le_scale magnitude
  have hlt : floorLog2 num den < f.fraction + 1 + f.scale magnitude := by
    refine floorLog2_lt hn hd ?_
    have hsig : (f.significand magnitude : ℚ) < 2 * f.hiddenBit := by
      exact_mod_cast f.significand_lt magnitude
    rw [h, value, zpow_add₀ (by norm_num), zpow_add_one₀ (by norm_num), ← cast_hiddenBit,
      mul_comm _ (2 : ℚ)]
    gcongr
  by_cases heq : f.scale magnitude = f.least
  · omega
  · have hle : f.fraction + f.scale magnitude ≤ floorLog2 num den := by
      refine le_floorLog2 hn hd ?_
      have hsig : (f.hiddenBit : ℚ) ≤ f.significand magnitude := by
        exact_mod_cast hiddenBit_le_significand heq
      rw [h, value, zpow_add₀ (by norm_num), ← cast_hiddenBit]
      gcongr
    omega

theorem round_of_eq_value (hm : magnitude < f.infinity) (hd : 0 < den)
    (h : (num / den : ℚ) = f.value magnitude) : f.round num den = magnitude := by
  have hd' : (den : ℚ) ≠ 0 := by exact_mod_cast hd.ne'
  by_cases hn : num = 0
  · have hsig : f.significand magnitude = 0 := by
      have hzero : f.value magnitude = 0 := by simp [← h, hn]
      have hpow : (2 : ℚ) ^ f.scale magnitude ≠ 0 := zpow_ne_zero _ (by norm_num)
      exact_mod_cast (mul_eq_zero.1 hzero).resolve_right hpow
    have hscale : f.scale magnitude = f.least := by
      by_contra hne
      have := hiddenBit_le_significand hne
      have := f.hiddenBit_pos
      omega
    have hmag := f.significand_add_scale magnitude
    rw [round, if_pos hn]
    simpa [hsig, hscale] using hmag
  · have hunit := unit_eq_scale (Nat.pos_of_ne_zero hn) hd h
    have hpos := inUnits_den_pos num hd (f.scale magnitude)
    have hnum : (inUnits num den (f.scale magnitude)).1 =
        f.significand magnitude * (inUnits num den (f.scale magnitude)).2 := by
      have hdiv := inUnits_div num den (f.scale magnitude)
      have hpow : (2 : ℚ) ^ f.scale magnitude ≠ 0 := zpow_ne_zero _ (by norm_num)
      have hpos' : ((inUnits num den (f.scale magnitude)).2 : ℚ) ≠ 0 := by exact_mod_cast hpos.ne'
      rw [h, value, mul_div_cancel_right₀ _ hpow, div_eq_iff hpos'] at hdiv
      exact_mod_cast hdiv
    rw [round, if_neg hn]
    simp only [hunit]
    rw [hnum, nearestEven_mul _ hpos, significand_add_scale]
    exact Nat.min_eq_left hm.le

theorem convert_of_eq_value {other : Nat} (hm : magnitude < f.infinity) (ho : other < g.infinity)
    (h : f.value magnitude = g.value other) : f.convert g magnitude = other := by
  have hround : f.convert g magnitude =
      g.round (inUnits (f.significand magnitude) 1 (-f.scale magnitude)).1
        (inUnits (f.significand magnitude) 1 (-f.scale magnitude)).2 := by
    rw [convert, if_pos hm]
  rw [hround]
  refine round_of_eq_value ho (inUnits_den_pos _ Nat.one_pos _) ?_
  rw [inUnits_div, ← h, value, zpow_neg, Nat.cast_one, div_one, div_inv_eq_mul]

theorem value_add_mul {significand : Nat} (hlow : f.hiddenBit ≤ significand)
    (hhigh : significand < 2 * f.hiddenBit) (exponent : Nat) :
    f.value (significand + exponent * f.hiddenBit) = significand * 2 ^ (f.least + exponent) := by
  have hnot : ¬ significand + exponent * f.hiddenBit < f.hiddenBit := by omega
  have hone : significand / f.hiddenBit = 1 := Nat.div_eq_of_lt_le (by omega) (by omega)
  have hdiv : (significand + exponent * f.hiddenBit) / f.hiddenBit = exponent + 1 := by
    rw [Nat.add_mul_div_right _ _ f.hiddenBit_pos, hone, Nat.add_comm]
  have hmod : f.hiddenBit + (significand + exponent * f.hiddenBit) % f.hiddenBit = significand := by
    rw [Nat.add_mul_mod_self_right, Nat.mod_eq_sub_mod hlow, Nat.mod_eq_of_lt (by omega)]
    omega
  rw [value, Format.significand, scale, if_neg hnot, if_neg hnot, hdiv, hmod]
  congr 2
  omega

end RecordMapping.Number.Format
