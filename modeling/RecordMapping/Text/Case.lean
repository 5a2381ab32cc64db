import RecordMapping.Text.CaseTable
/-!
Upper case and lower case of single characters, over all of Unicode.
-/
namespace RecordMapping.Text

/-- Whether a character has the property Uppercase. -/
def isUpper (c : Char) : Bool :=
  let n := c.toNat
  if n < 0x80 then 65 ≤ n && n ≤ 90
  else upperRuns.any fun (first, last, step) =>
    first ≤ n && n ≤ last && (n - first) % step == 0

/-- The lower-case form of a character; only the dotted capital I has one of two code points. -/
def lower (c : Char) : List Char :=
  let n := c.toNat
  if n < 0x80 then
    if 65 ≤ n && n ≤ 90 then [Char.ofNat (n + 32)] else [c]
  else if n = 0x130 then [Char.ofNat 0x69, Char.ofNat 0x307]
  else
    match lowerShifts.find? fun (first, last, step, _) =>
        first ≤ n && n ≤ last && (n - first) % step == 0 with
    | some (_, _, _, shift) => [Char.ofNat (Int.ofNat n + shift).toNat]
    | none => [c]

def decapitalize : List Char → List Char
  | [] => []
  | c :: rest => lower c ++ rest

def asciiLower (c : Char) : Char :=
  if 65 ≤ c.toNat && c.toNat ≤ 90 then Char.ofNat (c.toNat + 32) else c

/-- Whether two texts differ at most in the case of ASCII letters. -/
def sameIgnoringCase (s t : String) : Bool :=
  s.toList.map asciiLower == t.toList.map asciiLower

end RecordMapping.Text
