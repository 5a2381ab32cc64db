import RecordMapping.Text.Case
/-!
Words: a method name in camel case is cut before every upper-case letter.
-/
namespace RecordMapping.Method

open RecordMapping.Text

/-- Cuts before every upper-case character but the first. -/
def cut : List Char → List (List Char)
  | [] => []
  | c :: rest =>
    match cut rest with
    | (d :: word) :: words =>
      if isUpper d then [c] :: (d :: word) :: words else (c :: d :: word) :: words
    | words => [c] :: words

def camelWords (s : String) : List String :=
  (cut s.toList).map String.ofList

def joined (words : List String) : String :=
  String.ofList (words.flatMap String.toList)

theorem flatten_cut (cs : List Char) : (cut cs).flatten = cs := by
  induction cs with
  | nil => rfl
  | cons c rest ih =>
    rw [cut]
    split
    · next d word words h =>
      rw [h] at ih
      split <;> simp_all
    · simp [ih]

end RecordMapping.Method
