import RecordMapping.Number.Binary
/-!
The total order of floating-point numbers: the negative ones come before the others, and of two with
the same sign the order is that of their magnitudes. A negative zero stands before the positive one,
and the NaNs stand outside of all numbers.
-/
namespace RecordMapping.Number

namespace Binary64

def Precedes (x y : Binary64) : Prop :=
  x.isNegative = true ∧ y.isNegative = false ∨
  x.isNegative = false ∧ y.isNegative = false ∧ x.magnitude < y.magnitude ∨
  x.isNegative = true ∧ y.isNegative = true ∧ y.magnitude < x.magnitude

variable {x y z : Binary64}

theorem rank_lt_iff : x.rank < y.rank ↔ x.Precedes y := by
  rw [rank, rank, Precedes]
  cases x.isNegative <;> cases y.isNegative
  all_goals
    simp only [Bool.false_eq_true, reduceCtorEq, if_true, if_false, true_and, false_and, and_false,
      false_or, or_false, iff_true, iff_false]
    omega

theorem Precedes.trans (hxy : x.Precedes y) (hyz : y.Precedes z) : x.Precedes z := by
  rw [← rank_lt_iff] at hxy hyz ⊢
  exact Int.lt_trans hxy hyz

theorem eq_of_rank_eq (h : x.rank = y.rank) : x = y := by
  have hx := x.bits.toNat_lt
  have hy := y.bits.toNat_lt
  have hbits : x.bits.toNat = y.bits.toNat := by
    have hsign : Format.double.signBit = 9223372036854775808 := rfl
    simp only [rank, isNegative, magnitude, hsign, decide_eq_true_eq] at h
    split at h <;> split at h <;> omega
  cases x
  cases y
  exact congrArg Binary64.mk (UInt64.toNat_inj.1 hbits)

end Binary64
end RecordMapping.Number
