/-!
Decimal numerals: the digits of a natural number, and the integers that a text denotes. Main
statement: reading the digits of a number gives the number back.
-/
namespace RecordMapping.Text

def isDigit (c : Char) : Bool :=
  48 ≤ c.toNat && c.toNat ≤ 57

def digitValue (c : Char) : Nat :=
  c.toNat - 48

def digitOf (n : Nat) : Char :=
  Char.ofNat (48 + n)

def digits (n : Nat) : List Char :=
  if n < 10 then [digitOf n] else digits (n / 10) ++ [digitOf (n % 10)]

def valueOf (cs : List Char) : Nat :=
  cs.foldl (fun n c => 10 * n + digitValue c) 0

def natural? (cs : List Char) : Option Nat :=
  if !cs.isEmpty && cs.all isDigit then some (valueOf cs) else none

def integer? : List Char → Option Int
  | '-' :: cs => (natural? cs).map fun n => -(n : Int)
  | '+' :: cs => (natural? cs).map Int.ofNat
  | cs => (natural? cs).map Int.ofNat

def unsigned? : List Char → Option Nat
  | '+' :: cs => natural? cs
  | cs => natural? cs

def showNat (n : Nat) : String :=
  String.ofList (digits n)

def showInt : Int → String
  | .ofNat n => showNat n
  | .negSucc n => String.ofList ('-' :: digits (n + 1))

theorem digitOf_digit {n : Nat} (h : n < 10) :
    isDigit (digitOf n) = true ∧ digitValue (digitOf n) = n := by
  have : ∀ n : Fin 10, isDigit (digitOf n) = true ∧ digitValue (digitOf n) = n := by decide
  exact this ⟨n, h⟩

theorem valueOf_append_singleton (cs : List Char) (c : Char) :
    valueOf (cs ++ [c]) = 10 * valueOf cs + digitValue c := by
  simp [valueOf]

theorem digits_ne_nil (n : Nat) : digits n ≠ [] := by
  rw [digits]
  split <;> simp

theorem isDigit_of_mem_digits {n : Nat} {c : Char} (h : c ∈ digits n) : isDigit c = true := by
  induction n using Nat.strongRecOn with
  | ind n ih =>
    rw [digits] at h
    split at h
    · next hn =>
      simp only [List.mem_singleton] at h
      exact h ▸ (digitOf_digit hn).1
    · next hn =>
      rcases List.mem_append.1 h with h | h
      · exact ih _ (by omega) h
      · simp only [List.mem_singleton] at h
        exact h ▸ (digitOf_digit (Nat.mod_lt n (by omega))).1

theorem valueOf_digits (n : Nat) : valueOf (digits n) = n := by
  induction n using Nat.strongRecOn with
  | ind n ih =>
    rw [digits]
    split
    · next hn => simp [valueOf, (digitOf_digit hn).2]
    · next hn =>
      rw [valueOf_append_singleton, ih _ (by omega), (digitOf_digit (Nat.mod_lt n (by omega))).2]
      omega

end RecordMapping.Text
