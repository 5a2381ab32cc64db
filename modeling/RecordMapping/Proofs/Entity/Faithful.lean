import RecordMapping.Entity.DataType
import RecordMapping.Proofs.Number.Widening
import RecordMapping.Value.Coercion
/-!
Plain types whose contents survive being written and read. An option that holds an option or an
untyped value does not: its value cannot tell an absent content from one that is absent inside.
-/
namespace RecordMapping

open RecordMapping.Number

namespace IntType

theorem integerPart?_toValue (t : IntType) (x : t.Carrier) :
    DataType.integerPart? (t.toValue x) = some x.val := by
  obtain ⟨n, hlow, hhigh⟩ := x
  cases t with
  | signed w =>
    have hn : (Int64.ofInt n).toInt = n := by
      rw [Int64.toInt_ofInt_of_le]
      · cases w <;> simp only [low, Width.bits] at hlow <;> norm_num at hlow ⊢ <;> omega
      · cases w <;> simp only [high, Width.bits] at hhigh <;> norm_num at hhigh ⊢ <;> omega
    simp [toValue, DataType.integerPart?, hn]
  | unsigned w =>
    have hsize : n.toNat < UInt64.size := by
      simp only [UInt64.size]
      cases w <;> simp only [high, Width.bits] at hhigh <;> norm_num at hhigh <;> omega
    have hpos : 0 ≤ n := hlow
    simp [toValue, DataType.integerPart?, UInt64.toNat_ofNat_of_lt' hsize, hpos]

theorem ofInt?_integerPart? (t : IntType) (x : t.Carrier) :
    (DataType.integerPart? (t.toValue x)).bind t.ofInt? = some x := by
  rw [integerPart?_toValue, Option.bind_some, ofInt?, dif_pos x.property]
  rfl

end IntType

theorem Value.coerce_list (items : List Value) : (list items).coerce .list = .ok (list items) := by
  simp [coerce]

namespace DataType

def mayBeNull : DataType → Bool
  | value => true
  | option _ => true
  | _ => false

/-- Whether a content is known from its value. -/
def Faithful : DataType → Prop
  | option t => t.mayBeNull = false ∧ t.Faithful
  | list t => t.Faithful
  | _ => True

def quiet : (t : DataType) → t.Carrier → t.Carrier
  | single, x => Binary32.quiet x
  | option t, o => Option.map t.quiet o
  | list t, xs => List.map t.quiet xs
  | int _, n => n
  | double, x => x
  | bool, b => b
  | text, s => s
  | value, v => v

@[simp] theorem toValue_none (t : DataType) :
    (option t).toValue (none : Option t.Carrier) = .null := rfl

@[simp] theorem toValue_some {t : DataType} (x : t.Carrier) :
    (option t).toValue (some x : Option t.Carrier) = t.toValue x := rfl

theorem isNull_toValue_eq_false {t : DataType} (h : t.mayBeNull = false) (x : t.Carrier) :
    (t.toValue x).isNull = false := by
  cases t with
  | value => cases h
  | option t => cases h
  | int t => cases t <;> rfl
  | single => rfl
  | double => rfl
  | bool => rfl
  | text => rfl
  | list t => rfl

theorem quiet_of_isNull {t : DataType} (ht : t.Faithful) {x : t.Carrier}
    (h : (t.toValue x).isNull = true) : t.quiet x = t.blank := by
  cases t with
  | value =>
    have hnull : x = Value.null := by
      cases hx : (x : Value) with
      | null => rfl
      | _ =>
        subst hx
        cases h
    exact hnull
  | option t =>
    cases hx : (x : Option t.Carrier) with
    | none =>
      subst hx
      rfl
    | some y =>
      subst hx
      rw [toValue_some, isNull_toValue_eq_false ht.1] at h
      cases h
  | int t => cases t <;> cases h
  | single => cases h
  | double => cases h
  | bool => cases h
  | text => cases h
  | list t => cases h

theorem coerce_toValue {t : DataType} {kind : ValueKind} (h : t.valueKind = some kind)
    (x : t.Carrier) : (t.toValue x).coerce kind = .ok (t.toValue x) := by
  induction t with
  | value => cases h
  | option t ih =>
    cases hx : (x : Option t.Carrier) with
    | none =>
      subst hx
      simp [Value.coerce]
    | some y =>
      subst hx
      exact ih h y
  | int t =>
    cases t with
    | signed w =>
      obtain rfl := Option.some.inj h
      simp [toValue, IntType.toValue, Value.coerce, Value.kind?]
    | unsigned w =>
      obtain rfl := Option.some.inj h
      simp [toValue, IntType.toValue, Value.coerce, Value.kind?]
  | single =>
    obtain rfl := Option.some.inj h
    simp [toValue, Value.coerce, Value.kind?]
  | double =>
    obtain rfl := Option.some.inj h
    simp [toValue, Value.coerce, Value.kind?]
  | bool =>
    obtain rfl := Option.some.inj h
    simp [toValue, Value.coerce, Value.kind?]
  | text =>
    obtain rfl := Option.some.inj h
    simp [toValue, Value.coerce, Value.kind?]
  | list t =>
    obtain rfl := Option.some.inj h
    exact Value.coerce_list _

theorem readAll_map {α : Type} {read : Value → Option α} {write : α → Value} {change : α → α}
    (h : ∀ x, read (write x) = some (change x)) (xs : List α) :
    readAll read (xs.map write) = some (xs.map change) := by
  induction xs with
  | nil => rfl
  | cons x rest ih => simp [readAll, h, ih]

theorem exists_readAll {α : Type} {read : Value → Option α} {write : α → Value}
    (h : ∀ x, ∃ y, read (write x) = some y) (xs : List α) :
    ∃ ys, readAll read (xs.map write) = some ys := by
  induction xs with
  | nil => exact ⟨[], rfl⟩
  | cons x rest ih =>
    obtain ⟨y, hy⟩ := h x
    obtain ⟨ys, hys⟩ := ih
    exact ⟨y :: ys, by simp [readAll, hy, hys]⟩

theorem readOption_of_isNull {α : Type} {read : Value → Option α} {v : Value}
    (h : v.isNull = false) : readOption read v = (read v).map some := by
  cases v with
  | null => cases h
  | _ => rfl

theorem exists_readOption {α : Type} {read : Value → Option α} {v : Value}
    (h : ∃ x, read v = some x) : ∃ o, readOption read v = some o := by
  cases hv : v.isNull with
  | true =>
    cases v with
    | null => exact ⟨none, rfl⟩
    | _ => cases hv
  | false =>
    obtain ⟨x, hx⟩ := h
    exact ⟨some x, by rw [readOption_of_isNull hv, hx]; rfl⟩

theorem ofValue?_toValue {t : DataType} (ht : t.Faithful) (x : t.Carrier) :
    t.ofValue? (t.toValue x) = some (t.quiet x) := by
  induction t with
  | int t => exact t.ofInt?_integerPart? x
  | single => exact congrArg some (Binary32.ofDouble_toDouble x)
  | double => rfl
  | bool => rfl
  | text => rfl
  | value => rfl
  | option t ih =>
    cases hx : (x : Option t.Carrier) with
    | none =>
      subst hx
      rfl
    | some y =>
      subst hx
      have hnull := isNull_toValue_eq_false ht.1 y
      exact (readOption_of_isNull hnull).trans (by rw [ih ht.2]; rfl)
  | list t ih => exact readAll_map (ih ht) x

theorem exists_ofValue? (t : DataType) (x : t.Carrier) :
    ∃ y, t.ofValue? (t.toValue x) = some y := by
  induction t with
  | int t => exact ⟨x, t.ofInt?_integerPart? x⟩
  | single => exact ⟨_, rfl⟩
  | double => exact ⟨_, rfl⟩
  | bool => exact ⟨_, rfl⟩
  | text => exact ⟨_, rfl⟩
  | value => exact ⟨_, rfl⟩
  | option t ih =>
    cases hx : (x : Option t.Carrier) with
    | none =>
      subst hx
      exact ⟨none, rfl⟩
    | some y =>
      subst hx
      exact exists_readOption (ih y)
  | list t ih => exact exists_readAll ih x

/-- What a record keeps of a content; a `null` is not written, and leaves a new field as it is. -/
def reread (t : DataType) (x : t.Carrier) : t.Carrier :=
  if (t.toValue x).isNull then t.blank else (t.ofValue? (t.toValue x)).getD t.blank

theorem reread_of_isNull {t : DataType} {x : t.Carrier} (h : (t.toValue x).isNull = true) :
    t.reread x = t.blank := if_pos h

theorem ofValue?_toValue_reread {t : DataType} {x : t.Carrier}
    (h : (t.toValue x).isNull = false) : t.ofValue? (t.toValue x) = some (t.reread x) := by
  obtain ⟨y, hy⟩ := t.exists_ofValue? x
  rw [reread, if_neg (Bool.eq_false_iff.1 h), hy]
  rfl

theorem Faithful.reread {t : DataType} (ht : t.Faithful) (x : t.Carrier) :
    t.reread x = t.quiet x := by
  by_cases h : (t.toValue x).isNull = true
  · rw [reread_of_isNull h, quiet_of_isNull ht h]
  · rw [DataType.reread, if_neg h, ofValue?_toValue ht]
    rfl

end DataType
end RecordMapping
