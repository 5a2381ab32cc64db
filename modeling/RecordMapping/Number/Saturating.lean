/-!
Arithmetic on 64-bit counts that stops at the greatest one.
-/
namespace RecordMapping.Number

def maxCount : Nat := 0xFFFFFFFFFFFFFFFF

/-- The count nearest to a number. -/
def saturate (n : Nat) : UInt64 :=
  UInt64.ofNat (min n maxCount)

def saturatingAdd (a b : UInt64) : UInt64 :=
  saturate (a.toNat + b.toNat)

def saturatingSub (a b : UInt64) : UInt64 :=
  saturate (a.toNat - b.toNat)

def saturatingMul (a b : UInt64) : UInt64 :=
  saturate (a.toNat * b.toNat)

theorem saturate_toNat (n : Nat) : (saturate n).toNat = min n maxCount := by
  rw [saturate, UInt64.toNat_ofNat']
  exact Nat.mod_eq_of_lt (Nat.lt_of_le_of_lt (Nat.min_le_right n maxCount) (by decide))

end RecordMapping.Number
