import RecordMapping.Document.Basic
import RecordMapping.Number.Decimal
import RecordMapping.Text.Hexadecimal
/-!
The JSON format. A name that occurs twice in a table has its last value, and a number is an integer
if it is written as one and fits 64 bits.
-/
namespace RecordMapping.Json

open RecordMapping.Number RecordMapping.Text

def isSpace (c : Char) : Bool :=
  c == ' ' || c == '\t' || c == '\n' || c == '\r'

def skipSpaces (cs : List Char) : List Char := cs.dropWhile isSpace

def readUnit : Reader Nat
  | a :: b :: c :: d :: rest => (ofHex? [a, b, c, d]).map (·, rest)
  | _ => none

/-- Reads an escape after its backslash. Two units may make one character, but none stands for a
half of one. -/
def readEscape : Reader Char
  | 'u' :: rest =>
    match readUnit rest with
    | none => none
    | some (high, rest) =>
      if high < 0xD800 ∨ 0xDFFF < high then some (Char.ofNat high, rest)
      else if 0xDBFF < high then none
      else
        match rest with
        | '\\' :: 'u' :: rest =>
          match readUnit rest with
          | some (low, rest) =>
            if 0xDC00 ≤ low ∧ low ≤ 0xDFFF then
              some (Char.ofNat (0x10000 + (high - 0xD800) * 0x400 + (low - 0xDC00)), rest)
            else none
          | none => none
        | _ => none
  | '"' :: rest => some ('"', rest)
  | '\\' :: rest => some ('\\', rest)
  | '/' :: rest => some ('/', rest)
  | 'b' :: rest => some (Char.ofNat 8, rest)
  | 'f' :: rest => some (Char.ofNat 12, rest)
  | 'n' :: rest => some ('\n', rest)
  | 'r' :: rest => some ('\r', rest)
  | 't' :: rest => some ('\t', rest)
  | _ => none

def readText : Nat → List Char → Reader String
  | 0, _, _ => none
  | fuel + 1, taken, cs =>
    match cs with
    | [] => none
    | '"' :: rest => some (String.ofList taken.reverse, rest)
    | '\\' :: rest =>
      match readEscape rest with
      | some (c, rest) => readText fuel (c :: taken) rest
      | none => none
    | c :: rest => if c.toNat < 0x20 then none else readText fuel (c :: taken) rest

def readDigits (cs : List Char) : Option (List Char × List Char) :=
  let ds := cs.takeWhile isDigit
  if ds.isEmpty then none else some (ds, cs.dropWhile isDigit)

def readFraction : Reader (List Char)
  | '.' :: rest => readDigits rest
  | rest => some ([], rest)

def readExponent : Reader (Option Int)
  | c :: rest =>
    if c = 'e' ∨ c = 'E' then
      let (negative, rest) := match rest with
        | '-' :: rest => (true, rest)
        | '+' :: rest => (false, rest)
        | rest => (false, rest)
      (readDigits rest).map fun (ds, rest) =>
        let n : Int := valueOf ds
        (some (if negative then -n else n), rest)
    else some (none, c :: rest)
  | [] => some (none, [])

def number? (negative : Bool) (whole fraction : List Char) (exponent : Option Int) :
    Option Document :=
  let n : Int := if negative then -(valueOf whole : Int) else valueOf whole
  if fraction.isEmpty ∧ exponent = none ∧ -0x8000000000000000 ≤ n ∧ n ≤ 0xFFFFFFFFFFFFFFFF ∧
      (negative → n ≠ 0) then
    some (.integer n)
  else
    let x := Binary64.ofDecimal negative (valueOf (whole ++ fraction))
      (exponent.getD 0 - fraction.length)
    if x.isFinite then some (.decimal x) else none

def readNumber (cs : List Char) : Option (Document × List Char) := do
  let (negative, rest) := match cs with
    | '-' :: rest => (true, rest)
    | rest => (false, rest)
  let (whole, rest) ← readDigits rest
  if 1 < whole.length ∧ whole.head? = some '0' then none
  let (fraction, rest) ← readFraction rest
  let (exponent, rest) ← readExponent rest
  return (← number? negative whole fraction exponent, rest)

def define (name : String) (value : Document) (entries : List (Named Document)) :
    List (Named Document) :=
  if (Named.lookup name entries).isSome then Named.assign name value entries
  else entries ++ [⟨name, value⟩]

mutual

def readValue : Nat → Reader Document
  | 0, _ => none
  | fuel + 1, cs =>
    match skipSpaces cs with
    | 'n' :: 'u' :: 'l' :: 'l' :: rest => some (.null, rest)
    | 't' :: 'r' :: 'u' :: 'e' :: rest => some (.bool true, rest)
    | 'f' :: 'a' :: 'l' :: 's' :: 'e' :: rest => some (.bool false, rest)
    | '"' :: rest => (readText (rest.length + 1) [] rest).map fun (s, rest) => (.text s, rest)
    | '[' :: rest =>
      match skipSpaces rest with
      | ']' :: rest => some (.list [], rest)
      | rest => (readItems fuel rest).map fun (items, rest) => (.list items, rest)
    | c :: rest =>
      if c.toNat = 0x7B then
        match skipSpaces rest with
        | d :: more =>
          if d.toNat = 0x7D then some (.table [], more)
          else
            (readMembers fuel [] (d :: more)).map fun (entries, rest) => (.table entries, rest)
        | [] => none
      else readNumber (c :: rest)
    | [] => none

def readItems : Nat → Reader (List Document)
  | 0, _ => none
  | fuel + 1, cs =>
    match readValue fuel cs with
    | none => none
    | some (item, rest) =>
      match skipSpaces rest with
      | ',' :: rest => (readItems fuel rest).map fun (items, rest) => (item :: items, rest)
      | ']' :: rest => some ([item], rest)
      | _ => none

def readMembers : Nat → List (Named Document) → Reader (List (Named Document))
  | 0, _, _ => none
  | fuel + 1, entries, cs =>
    match skipSpaces cs with
    | '"' :: rest =>
      match readText (rest.length + 1) [] rest with
      | none => none
      | some (name, rest) =>
        match skipSpaces rest with
        | ':' :: rest =>
          match readValue fuel rest with
          | none => none
          | some (value, rest) =>
            match skipSpaces rest with
            | c :: rest =>
              if c = ',' then readMembers fuel (define name value entries) rest
              else if c.toNat = 0x7D then some (define name value entries, rest)
              else none
            | [] => none
        | _ => none
    | _ => none

end

def read? (s : String) : Option Document :=
  match readValue (s.toList.length + 1) s.toList with
  | some (d, rest) => if (skipSpaces rest).isEmpty then some d else none
  | none => none

def escape (c : Char) : List Char :=
  if c = '"' then ['\\', '"']
  else if c = '\\' then ['\\', '\\']
  else if c.toNat < 0x20 then ['\\', 'u'] ++ paddedHex 4 c.toNat
  else [c]

def quoted (s : String) : String :=
  String.ofList ('"' :: s.toList.flatMap escape ++ ['"'])

mutual

def write : Document → String
  | .null => "null"
  | .bool b => if b then "true" else "false"
  | .integer n => showInt n
  | .decimal x => if x.isFinite then x.write .detailed else "null"
  | .text s => quoted s
  | .list items => "[" ++ String.intercalate "," (writeItems items) ++ "]"
  | .table entries => "\x7b" ++ String.intercalate "," (writeMembers entries) ++ "\x7d"

def writeItems : List Document → List String
  | [] => []
  | d :: rest => write d :: writeItems rest

def writeMembers : List (Named Document) → List String
  | [] => []
  | ⟨name, d⟩ :: rest => (quoted name ++ ":" ++ write d) :: writeMembers rest

end

end RecordMapping.Json
