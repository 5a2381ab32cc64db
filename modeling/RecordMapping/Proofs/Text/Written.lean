import Mathlib.Data.List.Induction
import Mathlib.Data.List.TakeWhile
import Mathlib.Data.Nat.Digits.Defs
import RecordMapping.Proofs.Text.Numeral
import RecordMapping.Text.Blank
/-!
Numbers as they are written in texts: digits in base ten after an optional sign, with blanks around
them. The reader of numerals finds exactly these, and what is shown of a number is one of them.
-/
namespace RecordMapping.Text

/-- Whether a text is another one with nothing but blanks around it. -/
def Pads (cs inner : List Char) : Prop :=
  ∃ before after, cs = before ++ inner ++ after ∧
    (∀ c ∈ before, isBlank c = true) ∧ ∀ c ∈ after, isBlank c = true

def decimal (ds : List Char) : Nat :=
  Nat.ofDigits 10 (ds.reverse.map digitValue)

/-- Whether a text writes an integer: digits after an optional sign. -/
def WritesInteger (s : String) (k : Int) : Prop :=
  ∃ sign ds, Pads s.toList (sign ++ ds) ∧ AreDigits ds ∧
    ((sign = [] ∨ sign = ['+']) ∧ k = decimal ds ∨ sign = ['-'] ∧ k = -decimal ds)

/-- Whether a text writes a number without a minus: digits after an optional plus. -/
def WritesNatural (s : String) (n : Nat) : Prop :=
  ∃ sign ds, Pads s.toList (sign ++ ds) ∧ AreDigits ds ∧
    (sign = [] ∨ sign = ['+']) ∧ n = decimal ds

variable {cs inner ds : List Char} {c : Char}

theorem pads_self (cs : List Char) : Pads cs cs :=
  ⟨[], [], by simp, by simp, by simp⟩

theorem pads_trim (cs : List Char) : Pads cs (trim cs) := by
  have hfront := (List.takeWhile_append_dropWhile (p := isBlank) (l := cs)).symm
  have hback := (List.takeWhile_append_dropWhile (p := isBlank)
    (l := (cs.dropWhile isBlank).reverse)).symm
  refine ⟨cs.takeWhile isBlank, ((cs.dropWhile isBlank).reverse.takeWhile isBlank).reverse, ?_,
    fun c hc => List.mem_takeWhile_imp hc,
    fun c hc => List.mem_takeWhile_imp (List.mem_reverse.1 hc)⟩
  rw [trim, List.append_assoc, ← List.reverse_append, ← hback, List.reverse_reverse]
  exact hfront

theorem dropWhile_pad {before after : List Char} (hbefore : ∀ c ∈ before, isBlank c = true)
    (hinner : ∀ c ∈ inner, isBlank c = false) (hne : inner ≠ []) :
    (before ++ (inner ++ after)).dropWhile isBlank = inner ++ after := by
  rw [List.dropWhile_append_of_pos hbefore]
  cases inner with
  | nil => exact absurd rfl hne
  | cons c rest => exact List.dropWhile_cons_of_neg (by simp [hinner c List.mem_cons_self])

theorem trim_eq_iff (hinner : ∀ c ∈ inner, isBlank c = false) :
    trim cs = inner ↔ Pads cs inner := by
  constructor
  · rintro rfl
    exact pads_trim cs
  · rintro ⟨before, after, rfl, hbefore, hafter⟩
    by_cases hne : inner = []
    · subst hne
      rw [trim_eq_nil_iff, List.all_eq_true]
      intro c hc
      rw [List.append_nil] at hc
      exact (List.mem_append.1 hc).elim (hbefore c) (hafter c)
    · have hfront : (before ++ inner ++ after).dropWhile isBlank = inner ++ after := by
        rw [List.append_assoc, dropWhile_pad hbefore hinner hne]
      have hback : (after.reverse ++ inner.reverse).dropWhile isBlank = inner.reverse := by
        have h : (after.reverse ++ (inner.reverse ++ [])).dropWhile isBlank = inner.reverse ++ [] :=
          dropWhile_pad (by simpa using hafter) (by simpa using hinner) (by simpa using hne)
        rwa [List.append_nil] at h
      rw [trim, hfront, List.reverse_append, hback, List.reverse_reverse]

theorem isBlank_of_isDigit (h : isDigit c = true) : isBlank c = false := by
  simp only [isDigit, Bool.and_eq_true, decide_eq_true_eq] at h
  simp [isBlank]
  omega

theorem AreDigits.solid {sign : List Char} (hds : AreDigits ds)
    (hsign : sign = [] ∨ sign = ['+'] ∨ sign = ['-']) :
    ∀ c ∈ sign ++ ds, isBlank c = false := by
  intro c hc
  rcases List.mem_append.1 hc with hc | hc
  · rcases hsign with rfl | rfl | rfl
    · cases hc
    · obtain rfl := List.mem_singleton.1 hc
      rfl
    · obtain rfl := List.mem_singleton.1 hc
      rfl
  · exact isBlank_of_isDigit (hds.2 c hc)

theorem valueOf_eq_decimal (ds : List Char) : valueOf ds = decimal ds := by
  induction ds using List.reverseRecOn with
  | nil => rfl
  | append_singleton ds d ih =>
    rw [valueOf_append_singleton, ih, decimal, decimal, List.reverse_append, List.reverse_singleton,
      List.singleton_append, List.map_cons, Nat.ofDigits_cons]
    omega

theorem numeral_iff {k : Int} : Numeral cs k ↔ ∃ sign ds, cs = sign ++ ds ∧ AreDigits ds ∧
    ((sign = [] ∨ sign = ['+']) ∧ k = decimal ds ∨ sign = ['-'] ∧ k = -decimal ds) := by
  simp only [← valueOf_eq_decimal]
  constructor
  · rintro (hds | hds | hds)
    · exact ⟨[], _, rfl, hds, .inl ⟨.inl rfl, rfl⟩⟩
    · exact ⟨['+'], _, rfl, hds, .inl ⟨.inr rfl, rfl⟩⟩
    · exact ⟨['-'], _, rfl, hds, .inr ⟨rfl, rfl⟩⟩
  · rintro ⟨sign, ds, rfl, hds, ⟨rfl | rfl, rfl⟩ | ⟨rfl, rfl⟩⟩
    · exact .plain hds
    · exact .plus hds
    · exact .minus hds

theorem unsigned_iff {n : Nat} : unsigned? cs = some n ↔ ∃ sign ds, cs = sign ++ ds ∧
    AreDigits ds ∧ (sign = [] ∨ sign = ['+']) ∧ n = decimal ds := by
  rw [unsigned?_eq_some_iff, numeral_iff]
  constructor
  · rintro ⟨⟨sign, ds, rfl, hds, ⟨hsign, hn⟩ | ⟨rfl, _⟩⟩, hhead⟩
    · exact ⟨sign, ds, rfl, hds, hsign, Int.ofNat.inj hn⟩
    · exact absurd rfl hhead
  · rintro ⟨sign, ds, rfl, hds, hsign, rfl⟩
    refine ⟨⟨sign, ds, rfl, hds, .inl ⟨hsign, rfl⟩⟩, ?_⟩
    rcases hsign with rfl | rfl
    · exact hds.head?_ne rfl
    · simp

theorem integer?_trim_iff {s : String} {k : Int} :
    integer? (trim s.toList) = some k ↔ WritesInteger s k := by
  rw [integer?_eq_some_iff, numeral_iff]
  refine exists_congr fun sign => exists_congr fun ds => and_congr_left fun ⟨hds, hvalue⟩ => ?_
  exact trim_eq_iff (hds.solid (by tauto))

theorem unsigned?_trim_iff {s : String} {n : Nat} :
    unsigned? (trim s.toList) = some n ↔ WritesNatural s n := by
  rw [unsigned_iff]
  refine exists_congr fun sign => exists_congr fun ds => and_congr_left fun ⟨hds, hsign, _⟩ => ?_
  exact trim_eq_iff (hds.solid (by tauto))

theorem areDigits_digits (n : Nat) : AreDigits (digits n) :=
  ⟨digits_ne_nil n, fun _ hc => isDigit_of_mem_digits hc⟩

theorem decimal_digits (n : Nat) : decimal (digits n) = n := by
  rw [← valueOf_eq_decimal, valueOf_digits]

theorem writesNatural_showNat (n : Nat) : WritesNatural (showNat n) n := by
  refine ⟨[], digits n, ?_, areDigits_digits n, .inl rfl, (decimal_digits n).symm⟩
  rw [showNat, String.toList_ofList]
  exact pads_self _

theorem writesInteger_showInt (k : Int) : WritesInteger (showInt k) k := by
  cases k with
  | ofNat n =>
    obtain ⟨sign, ds, hpads, hds, hsign, hn⟩ := writesNatural_showNat n
    exact ⟨sign, ds, hpads, hds, .inl ⟨hsign, congrArg Int.ofNat hn⟩⟩
  | negSucc n =>
    refine ⟨['-'], digits (n + 1), ?_, areDigits_digits _, .inr ⟨rfl, ?_⟩⟩
    · rw [showInt, String.toList_ofList]
      exact pads_self _
    · rw [decimal_digits]
      rfl

end RecordMapping.Text
