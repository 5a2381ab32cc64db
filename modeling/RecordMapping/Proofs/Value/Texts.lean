import RecordMapping.Proofs.Text.Written
import RecordMapping.Proofs.Value.Coercion
/-!
Numbers and truth values as texts: what is written of one is read as the same one, and a text is
read as a number exactly if it writes one that fits. Between signed and unsigned numbers nothing but
the range decides.
-/
namespace RecordMapping.Value

open RecordMapping.Text

variable {v w : Value} {kind : ValueKind}

theorem coerce_eq_ok_iff_convert? {origin : ValueKind} (horigin : v.kind? = some origin)
    (hlist : origin ≠ .list) (hne : origin ≠ kind) :
    v.coerce kind = .ok w ↔ v.convert? kind = some w := by
  cases v with
  | null => cases horigin
  | list items => exact absurd (Option.some.inj horigin).symm hlist
  | _ =>
    obtain rfl := Option.some.inj horigin
    simp only [coerce, kind?, if_neg hne]
    split
    · next found hfound => simp [hfound]
    · next hnone => simp [hnone]

theorem coerce_text_int_iff {s : String} : (text s).coerce .int = .ok w ↔
    ∃ n : Int64, w = .int n ∧ WritesInteger s n.toInt := by
  rw [coerce_eq_ok_iff_convert? rfl (by decide) (by decide)]
  refine Option.bind_eq_some_iff.trans ?_
  simp only [integer?_trim_iff, int?_eq_some_iff]
  constructor
  · rintro ⟨_, hwrites, n, rfl, rfl⟩
    exact ⟨n, rfl, hwrites⟩
  · rintro ⟨n, rfl, hwrites⟩
    exact ⟨_, hwrites, n, rfl, rfl⟩

theorem coerce_text_uint_iff {s : String} : (text s).coerce .uint = .ok w ↔
    ∃ m : UInt64, w = .uint m ∧ WritesNatural s m.toNat := by
  rw [coerce_eq_ok_iff_convert? rfl (by decide) (by decide)]
  refine Option.bind_eq_some_iff.trans ?_
  simp only [unsigned?_trim_iff, uint?_eq_some_iff]
  constructor
  · rintro ⟨n, hwrites, m, rfl, hm⟩
    exact ⟨m, rfl, Int.ofNat.inj hm ▸ hwrites⟩
  · rintro ⟨m, rfl, hwrites⟩
    exact ⟨_, hwrites, m, rfl, rfl⟩

theorem ofText?_bool_iff {s : String} : ofText? s .bool = some w ↔
    w = .bool true ∧ trim s.toList = "true".toList ∨
      w = .bool false ∧ trim s.toList = "false".toList := by
  rw [ofText?]
  by_cases htrue : trim s.toList = "true".toList
  · simp [htrue, eq_comm]
  · by_cases hfalse : trim s.toList = "false".toList
    · simp [hfalse, eq_comm]
    · rw [if_neg htrue, if_neg hfalse]
      refine iff_of_false (by simp) ?_
      rintro (⟨_, h⟩ | ⟨_, h⟩)
      · exact htrue h
      · exact hfalse h

theorem coerce_text_bool_iff {s : String} : (text s).coerce .bool = .ok w ↔
    w = .bool true ∧ Pads s.toList "true".toList ∨
      w = .bool false ∧ Pads s.toList "false".toList := by
  have htrue : ∀ c ∈ "true".toList, isBlank c = false := by simp [isBlank]
  have hfalse : ∀ c ∈ "false".toList, isBlank c = false := by simp [isBlank]
  rw [coerce_eq_ok_iff_convert? rfl (by decide) (by decide), ← trim_eq_iff htrue,
    ← trim_eq_iff hfalse]
  exact ofText?_bool_iff

theorem coerce_int_uint_iff {n : Int64} : (int n).coerce .uint = .ok w ↔
    ∃ m : UInt64, w = .uint m ∧ (m.toNat : Int) = n.toInt := by
  rw [coerce_eq_ok_iff_convert? rfl (by decide) (by decide)]
  exact uint?_eq_some_iff

theorem coerce_uint_int_iff {m : UInt64} : (uint m).coerce .int = .ok w ↔
    ∃ n : Int64, w = .int n ∧ n.toInt = m.toNat := by
  rw [coerce_eq_ok_iff_convert? rfl (by decide) (by decide)]
  exact int?_eq_some_iff

theorem exists_int64_iff {k : Int} : (∃ n : Int64, n.toInt = k) ↔ -2 ^ 63 ≤ k ∧ k < 2 ^ 63 := by
  constructor
  · rintro ⟨n, rfl⟩
    exact ⟨n.le_toInt, n.toInt_lt⟩
  · rintro ⟨hlow, hhigh⟩
    exact ⟨Int64.ofInt k, Int64.toInt_ofInt_of_le hlow hhigh⟩

theorem exists_uint64_iff {n : Nat} : (∃ m : UInt64, m.toNat = n) ↔ n < 2 ^ 64 := by
  constructor
  · rintro ⟨m, rfl⟩
    exact m.toNat_lt
  · intro hn
    exact ⟨UInt64.ofNat n, UInt64.toNat_ofNat_of_lt' hn⟩

theorem exists_coerce_text_int_iff {s : String} : (∃ w, (text s).coerce .int = .ok w) ↔
    ∃ k, WritesInteger s k ∧ -2 ^ 63 ≤ k ∧ k < 2 ^ 63 := by
  simp only [coerce_text_int_iff, ← exists_int64_iff]
  constructor
  · rintro ⟨_, n, rfl, hwrites⟩
    exact ⟨_, hwrites, n, rfl⟩
  · rintro ⟨_, hwrites, n, rfl⟩
    exact ⟨_, n, rfl, hwrites⟩

theorem exists_coerce_text_uint_iff {s : String} : (∃ w, (text s).coerce .uint = .ok w) ↔
    ∃ n, WritesNatural s n ∧ n < 2 ^ 64 := by
  simp only [coerce_text_uint_iff, ← exists_uint64_iff]
  constructor
  · rintro ⟨_, m, rfl, hwrites⟩
    exact ⟨_, hwrites, m, rfl⟩
  · rintro ⟨_, hwrites, m, rfl⟩
    exact ⟨_, m, rfl, hwrites⟩

theorem exists_coerce_int_uint_iff {n : Int64} :
    (∃ w, (int n).coerce .uint = .ok w) ↔ 0 ≤ n.toInt := by
  simp only [coerce_int_uint_iff]
  constructor
  · rintro ⟨_, m, rfl, hm⟩
    omega
  · intro hn
    have hbound := n.toInt_lt
    obtain ⟨m, hm⟩ := exists_uint64_iff.2 (show n.toInt.toNat < 2 ^ 64 by omega)
    exact ⟨_, m, rfl, by omega⟩

theorem exists_coerce_uint_int_iff {m : UInt64} :
    (∃ w, (uint m).coerce .int = .ok w) ↔ m.toNat < 2 ^ 63 := by
  simp only [coerce_uint_int_iff]
  constructor
  · rintro ⟨_, n, rfl, hn⟩
    have hbound := n.toInt_lt
    omega
  · intro hm
    obtain ⟨n, hn⟩ := exists_int64_iff.2 (show -2 ^ 63 ≤ (m.toNat : Int) ∧ _ by omega)
    exact ⟨_, n, rfl, hn⟩

theorem coerce_bool_text_bool (b : Bool) : (text (boolText b)).coerce .bool = .ok (.bool b) := by
  cases b with
  | false => exact coerce_text_bool_iff.2 (.inr ⟨rfl, pads_self _⟩)
  | true => exact coerce_text_bool_iff.2 (.inl ⟨rfl, pads_self _⟩)

/-- What is written of a number or truth value is read as the same one. A text is read as a number
exactly if it writes one of the range, and as a truth value if it is its word; a signed number is an
unsigned one unless it is negative, and an unsigned one is signed below half of its range. Nothing
but that number is ever the result. -/
theorem texts_and_integers_exact :
    (∀ n : Int64, ∃ s, (int n).coerce .text = .ok (.text s) ∧ (text s).coerce .int = .ok (.int n)) ∧
    (∀ m : UInt64, ∃ s, (uint m).coerce .text = .ok (.text s) ∧
      (text s).coerce .uint = .ok (.uint m)) ∧
    (∀ b : Bool, ∃ s, (bool b).coerce .text = .ok (.text s) ∧
      (text s).coerce .bool = .ok (.bool b)) ∧
    (∀ s, ((∃ w, (text s).coerce .int = .ok w) ↔
        ∃ k, WritesInteger s k ∧ -2 ^ 63 ≤ k ∧ k < 2 ^ 63) ∧
      ∀ w, (text s).coerce .int = .ok w ↔ ∃ n : Int64, w = .int n ∧ WritesInteger s n.toInt) ∧
    (∀ s, ((∃ w, (text s).coerce .uint = .ok w) ↔ ∃ n, WritesNatural s n ∧ n < 2 ^ 64) ∧
      ∀ w, (text s).coerce .uint = .ok w ↔ ∃ m : UInt64, w = .uint m ∧ WritesNatural s m.toNat) ∧
    (∀ s w, (text s).coerce .bool = .ok w ↔
      w = .bool true ∧ Pads s.toList "true".toList ∨
        w = .bool false ∧ Pads s.toList "false".toList) ∧
    (∀ n : Int64, ((∃ w, (int n).coerce .uint = .ok w) ↔ 0 ≤ n.toInt) ∧
      ∀ w, (int n).coerce .uint = .ok w ↔ ∃ m : UInt64, w = .uint m ∧ (m.toNat : Int) = n.toInt) ∧
    ∀ m : UInt64, ((∃ w, (uint m).coerce .int = .ok w) ↔ m.toNat < 2 ^ 63) ∧
      ∀ w, (uint m).coerce .int = .ok w ↔ ∃ n : Int64, w = .int n ∧ n.toInt = m.toNat := by
  refine ⟨fun n => ⟨showInt n.toInt, rfl, ?_⟩, fun m => ⟨showNat m.toNat, rfl, ?_⟩,
    fun b => ⟨boolText b, rfl, coerce_bool_text_bool b⟩, fun s => ⟨?_, fun w => ?_⟩,
    fun s => ⟨?_, fun w => ?_⟩, fun s w => coerce_text_bool_iff, fun n => ⟨?_, fun w => ?_⟩,
    fun m => ⟨?_, fun w => ?_⟩⟩
  · exact coerce_text_int_iff.2 ⟨n, rfl, writesInteger_showInt _⟩
  · exact coerce_text_uint_iff.2 ⟨m, rfl, writesNatural_showNat _⟩
  · exact exists_coerce_text_int_iff
  · exact coerce_text_int_iff
  · exact exists_coerce_text_uint_iff
  · exact coerce_text_uint_iff
  · exact exists_coerce_int_uint_iff
  · exact coerce_int_uint_iff
  · exact exists_coerce_uint_int_iff
  · exact coerce_uint_int_iff

/-- The least signed number, with a zero in front and blanks around it. -/
example : (text " -09223372036854775808\t").coerce .int =
    .ok (.int (Int64.ofInt (-9223372036854775808))) := by cbv

end RecordMapping.Value
