import RecordMapping.Number.Saturating
/-!
Arithmetic on 64-bit counts as arithmetic on numbers: with a step that leaves the counts refused, or
stopped at the greatest one.
-/
namespace RecordMapping.Number

def ofInt? (n : Int) : Option UInt64 :=
  if 0 ≤ n ∧ n ≤ maxCount then some (UInt64.ofNat n.toNat) else none

def checkedAdd (a b : UInt64) : Option UInt64 :=
  ofInt? (a.toNat + b.toNat)

def checkedSub (a b : UInt64) : Option UInt64 :=
  ofInt? (a.toNat - b.toNat)

theorem toNat_le_maxCount (c : UInt64) : c.toNat ≤ maxCount :=
  Nat.le_of_lt_succ c.toNat_lt

theorem one_le_iff {c : UInt64} : 1 ≤ c ↔ 0 < c := by
  rw [UInt64.le_iff_toNat_le, UInt64.lt_iff_toNat_lt]
  exact Iff.rfl

theorem ofInt?_eq_some_iff {n : Int} {c : UInt64} : ofInt? n = some c ↔ (c.toNat : Int) = n := by
  rw [ofInt?]
  constructor
  · intro h
    split at h
    · next hn =>
      obtain rfl := Option.some.inj h
      have hlt : n.toNat < 2 ^ 64 := by
        simp only [maxCount] at hn
        omega
      rw [UInt64.toNat_ofNat', Nat.mod_eq_of_lt hlt]
      exact Int.toNat_of_nonneg hn.1
    · cases h
  · rintro rfl
    have hc := toNat_le_maxCount c
    rw [if_pos ⟨Int.natCast_nonneg _, Int.ofNat_le.2 hc⟩, Int.toNat_natCast, UInt64.ofNat_toNat]

theorem checkedAdd_eq_some_iff {a b c : UInt64} :
    checkedAdd a b = some c ↔ c.toNat = a.toNat + b.toNat := by
  rw [checkedAdd, ofInt?_eq_some_iff]
  exact Int.ofNat_inj

theorem checkedSub_eq_some_iff {a b c : UInt64} :
    checkedSub a b = some c ↔ c.toNat + b.toNat = a.toNat := by
  rw [checkedSub, ofInt?_eq_some_iff]
  omega

theorem saturatingAdd_toNat (a b : UInt64) :
    (saturatingAdd a b).toNat = min (a.toNat + b.toNat) maxCount :=
  saturate_toNat _

theorem saturatingSub_toNat (a b : UInt64) : (saturatingSub a b).toNat = a.toNat - b.toNat := by
  rw [saturatingSub, saturate_toNat]
  exact Nat.min_eq_left (Nat.le_trans (Nat.sub_le _ _) (toNat_le_maxCount a))

end RecordMapping.Number
