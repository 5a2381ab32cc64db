import RecordMapping.Document.Basic
import RecordMapping.Number.Decimal
import RecordMapping.Text.Hexadecimal
/-!
The TOML format: lines of keys and values under table headers. Every table and every key is
defined once.
-/
namespace RecordMapping.Toml

open RecordMapping.Number RecordMapping.Text

def depthLimit : Nat := 80

def isSpace (c : Char) : Bool := c == ' ' || c == '\t'

/-- Whether a character may stand in a comment or, unescaped, in a quoted text. -/
def isVisible (c : Char) : Bool :=
  c == '\t' || (0x20 ≤ c.toNat && c.toNat != 0x7F)

def isBareKeyChar (c : Char) : Bool :=
  c.isAlphanum || c == '_' || c == '-'

def skipSpaces (cs : List Char) : List Char := cs.dropWhile isSpace

def lineBreak? : List Char → Option (List Char)
  | '\n' :: rest => some rest
  | '\r' :: '\n' :: rest => some rest
  | _ => none

def skipComment (cs : List Char) : List Char :=
  match skipSpaces cs with
  | '#' :: rest => rest.dropWhile isVisible
  | rest => rest

/-- Skips spaces, comments and line breaks; `fuel` bounds the number of lines. -/
def skipBlankLines : Nat → List Char → List Char
  | 0, cs => cs
  | fuel + 1, cs =>
    let rest := skipComment cs
    match lineBreak? rest with
    | some next => skipBlankLines fuel next
    | none => rest

def codePoint? (digits : List Char) : Option Char :=
  (ofHex? digits).bind fun n => if n.isValidChar then some (Char.ofNat n) else none

def readEscape : Reader Char
  | 'b' :: rest => some (Char.ofNat 8, rest)
  | 't' :: rest => some ('\t', rest)
  | 'n' :: rest => some ('\n', rest)
  | 'f' :: rest => some (Char.ofNat 12, rest)
  | 'r' :: rest => some ('\r', rest)
  | '"' :: rest => some ('"', rest)
  | '\\' :: rest => some ('\\', rest)
  | 'u' :: rest =>
    if 4 ≤ rest.length then (codePoint? (rest.take 4)).map (·, rest.drop 4) else none
  | 'U' :: rest =>
    if 8 ≤ rest.length then (codePoint? (rest.take 8)).map (·, rest.drop 8) else none
  | _ => none

def readQuoted (quote : Char) (escapes : Bool) : Nat → List Char → Reader String
  | 0, _, _ => none
  | fuel + 1, taken, cs =>
    match cs with
    | [] => none
    | c :: rest =>
      if c = quote then some (String.ofList taken.reverse, rest)
      else if escapes ∧ c = '\\' then
        match readEscape rest with
        | some (d, rest) => readQuoted quote escapes fuel (d :: taken) rest
        | none => none
      else if isVisible c then readQuoted quote escapes fuel (c :: taken) rest
      else none

def skipBreaks : List Char → List Char
  | '\r' :: '\n' :: rest => skipBreaks rest
  | c :: rest => if isSpace c || c == '\n' then skipBreaks rest else c :: rest
  | [] => []

def skipLineEnd (cs : List Char) : Option (List Char) :=
  (lineBreak? (skipSpaces cs)).map skipBreaks

/-- Reads a text over several lines, after its three quotes. Up to two quotes may stand before the
three that end it. -/
def readLong (quote : Char) (escapes : Bool) : Nat → List Char → Reader String
  | 0, _, _ => none
  | fuel + 1, taken, cs =>
    let quotes := cs.takeWhile (· == quote)
    if 3 ≤ quotes.length then
      if 5 < quotes.length then none
      else
        some (String.ofList (taken.reverse ++ quotes.drop 3), cs.drop quotes.length)
    else
      match cs with
      | [] => none
      | c :: rest =>
        if escapes ∧ c = '\\' then
          match skipLineEnd rest with
          | some rest => readLong quote escapes fuel taken rest
          | none =>
            match readEscape rest with
            | some (d, rest) => readLong quote escapes fuel (d :: taken) rest
            | none => none
        else
          match lineBreak? cs with
          | some rest => readLong quote escapes fuel ('\n' :: taken) rest
          | none => if isVisible c then readLong quote escapes fuel (c :: taken) rest else none

def readText (long : Bool) (cs : List Char) : Option (String × List Char) :=
  let fuel := cs.length + 1
  let ofQuote (quote : Char) (escapes : Bool) (rest : List Char) : Option (String × List Char) :=
    match rest with
    | c :: d :: more =>
      if long ∧ c = quote ∧ d = quote then
        readLong quote escapes fuel [] ((lineBreak? more).getD more)
      else readQuoted quote escapes fuel [] rest
    | _ => readQuoted quote escapes fuel [] rest
  match cs with
  | '"' :: rest => ofQuote '"' true rest
  | '\'' :: rest => ofQuote '\'' false rest
  | _ => none

def readSimpleKey (cs : List Char) : Option (String × List Char) :=
  match cs with
  | '"' :: _ | '\'' :: _ => readText false cs
  | _ =>
    let key := cs.takeWhile isBareKeyChar
    if key.isEmpty then none else some (String.ofList key, cs.dropWhile isBareKeyChar)

def readKeys : Nat → Reader (List String)
  | 0, _ => none
  | fuel + 1, cs =>
    match readSimpleKey cs with
    | none => none
    | some (key, rest) =>
      match skipSpaces rest with
      | '.' :: more => (readKeys fuel (skipSpaces more)).map fun (keys, rest) => (key :: keys, rest)
      | rest => some ([key], rest)

def readKey (cs : List Char) : Option (List String × List Char) :=
  match readKeys (cs.length + 1) (skipSpaces cs) with
  | some (keys, rest) => if keys.length < depthLimit then some (keys, rest) else none
  | none => none

/-- Digits with single underscores between them. -/
def digitsOf? (isDigit : Char → Bool) (cs : List Char) : Option (List Char) :=
  let rec go (afterDigit : Bool) : List Char → Option (List Char)
    | [] => if afterDigit then some [] else none
    | c :: rest =>
      if isDigit c then (go true rest).map (c :: ·)
      else if c = '_' ∧ afterDigit then go false rest
      else none
  go false cs

def inRange? (n : Int) : Option Document :=
  if -0x8000000000000000 ≤ n ∧ n < 0x8000000000000000 then some (.integer n) else none

def radix? (base : Nat) (digits : List Char) : Option Document :=
  match digitsOf? (fun c => (hexValue? c).any (· < base)) digits with
  | some ds =>
    inRange? (ds.foldl (fun n c => base * n + ((hexValue? c).getD 0 : Nat)) 0 : Nat)
  | none => none

def wholeDigits? (cs : List Char) : Option (List Char) :=
  match digitsOf? isDigit cs with
  | some ds => if 1 < ds.length ∧ ds.head? = some '0' then none else some ds
  | none => none

def splitFirst (p : Char → Bool) (cs : List Char) : List Char × Option (List Char) :=
  (cs.takeWhile (!p ·), match cs.dropWhile (!p ·) with
    | [] => none
    | _ :: rest => some rest)

/-- A number without its sign. One that is too great is refused, one that is too small is negative
infinity. -/
def unsigned? (negative : Bool) (cs : List Char) : Option Document :=
  if cs = "inf".toList then some (.decimal (.infinite negative))
  else if cs = "nan".toList then
    some (.decimal (.ofMagnitude negative Format.double.quietNaN))
  else
    let (mantissa, exponent) := splitFirst (fun c => c == 'e' || c == 'E') cs
    let (whole, fraction) := splitFirst (· == '.') mantissa
    match wholeDigits? whole, fraction.mapM (digitsOf? isDigit), exponent with
    | some w, some none, none =>
      inRange? (if negative then -(valueOf w : Int) else valueOf w)
    | some w, some f, e =>
      let part := f.getD []
      let exponent? : Option Int := match e with
        | none => some 0
        | some ('-' :: ds) => (digitsOf? isDigit ds).map fun ds => -(valueOf ds : Int)
        | some ('+' :: ds) => (digitsOf? isDigit ds).map fun ds => (valueOf ds : Int)
        | some ds => (digitsOf? isDigit ds).map fun ds => (valueOf ds : Int)
      exponent?.bind fun e =>
        let x := Binary64.ofDecimal negative (valueOf (w ++ part)) (e - part.length)
        if x.isFinite || negative then some (.decimal x) else none
    | _, _, _ => none

def number? (cs : List Char) : Option Document :=
  match cs with
  | '0' :: 'x' :: ds => radix? 16 ds
  | '0' :: 'o' :: ds => radix? 8 ds
  | '0' :: 'b' :: ds => radix? 2 ds
  | '-' :: rest => unsigned? true rest
  | '+' :: rest => unsigned? false rest
  | _ => unsigned? false cs

def hasShape (shape : String) (cs : List Char) : Bool :=
  shape.length == cs.length &&
    (shape.toList.zip cs).all fun (s, c) => if s == '0' then isDigit c else s == c

def isTime (cs : List Char) : Bool :=
  let (clock, fraction) := splitFirst (· == '.') cs
  hasShape "00:00:00" clock && fraction.all (fun ds => !ds.isEmpty && ds.all isDigit) &&
    valueOf (clock.take 2) < 24 && valueOf ((clock.drop 3).take 2) < 60 &&
    valueOf ((clock.drop 6).take 2) ≤ 60

def isDate (cs : List Char) : Bool :=
  let year := valueOf (cs.take 4)
  let month := valueOf ((cs.drop 5).take 2)
  let day := valueOf ((cs.drop 8).take 2)
  let leap := year % 4 == 0 && (year % 100 != 0 || year % 400 == 0)
  let last := match month with
    | 2 => if leap then 29 else 28
    | 4 | 6 | 9 | 11 => 30
    | _ => 31
  hasShape "0000-00-00" cs && 1 ≤ month && month ≤ 12 && 1 ≤ day && day ≤ last

def isZonedTime (cs : List Char) : Bool :=
  match cs.getLast? with
  | some 'Z' | some 'z' => isTime cs.dropLast
  | _ =>
    let (time, zone) := (cs.take (cs.length - 6), cs.drop (cs.length - 6))
    isTime cs || (isTime time &&
      (hasShape "+00:00" zone || hasShape "-00:00" zone) &&
      valueOf ((zone.drop 1).take 2) < 24 && valueOf (zone.drop 4) < 60)

def moment? (cs : List Char) : Option Document :=
  let (date, rest) := (cs.take 10, cs.drop 10)
  let valid := isTime cs || (isDate date &&
    match rest with
    | [] => true
    | c :: time => (c == 'T' || c == 't' || c == ' ') && isZonedTime time)
  if valid then some (.table [⟨"moment", .text (String.ofList cs)⟩]) else none

def isScalarChar (c : Char) : Bool :=
  c.isAlphanum || c == '_' || c == '-' || c == '+' || c == '.' || c == ':'

/-- Reads a boolean, a number or a moment; a date may be followed by a space and a time. -/
def readScalar (cs : List Char) : Option (Document × List Char) :=
  let word := cs.takeWhile isScalarChar
  let rest := cs.dropWhile isScalarChar
  let (word, rest) := match rest with
    | ' ' :: more =>
      let time := more.takeWhile isScalarChar
      if isDate word && isZonedTime time then (word ++ ' ' :: time, more.dropWhile isScalarChar)
      else (word, rest)
    | _ => (word, rest)
  let value : Option Document :=
    if word = "true".toList then some (.bool true)
    else if word = "false".toList then some (.bool false)
    else (moment? word).or (number? word)
  value.map (·, rest)

inductive Origin where
  /-- Named only on the way to another header. -/
  | implied
  /-- Named by a header of its own. -/
  | header
  /-- Named on the way to a dotted key. -/
  | dotted
deriving DecidableEq

inductive Node where
  | leaf (d : Document)
  | table (origin : Origin) (entries : List (Named Node))
  | tables (items : List (List (Named Node)))

mutual

def Node.document : Node → Document
  | .leaf d => d
  | .table _ entries => .table (documents entries)
  | .tables items => .list (tableDocuments items)

def documents : List (Named Node) → List (Named Document)
  | [] => []
  | ⟨name, node⟩ :: rest => ⟨name, node.document⟩ :: documents rest

def tableDocuments : List (List (Named Node)) → List Document
  | [] => []
  | entries :: rest => .table (documents entries) :: tableDocuments rest

end

def put (name : String) (node : Node) (entries : List (Named Node)) : List (Named Node) :=
  match Named.lookup name entries with
  | some _ => Named.assign name node entries
  | none => entries ++ [⟨name, node⟩]

def descend (name : String) (change : List (Named Node) → Option (List (Named Node)))
    (entries : List (Named Node)) : Option (List (Named Node)) :=
  match Named.lookup name entries with
  | none => (change []).map fun inner => entries ++ [⟨name, .table .implied inner⟩]
  | some (.table origin inner) =>
    (change inner).map fun inner => put name (.table origin inner) entries
  | some (.tables items) =>
    match items.getLast? with
    | some last =>
      (change last).map fun inner => put name (.tables (items.dropLast ++ [inner])) entries
    | none => none
  | some (.leaf _) => none

/-- Enters a value under a dotted key. The way leads through tables that no header has named and
through the last tables of lists; the table that takes the value is the one at the start, or was
made by a dotted key. `takes` says so of the table at hand. -/
def enter (value : Document) (takes : Bool) :
    List String → List (Named Node) → Option (List (Named Node))
  | [], _ => none
  | [name], entries =>
    if takes && (Named.lookup name entries).isNone then some (entries ++ [⟨name, .leaf value⟩])
    else none
  | name :: keys, entries =>
    match Named.lookup name entries with
    | none =>
      (enter value true keys []).map fun inner => entries ++ [⟨name, .table .dotted inner⟩]
    | some (.table .header _) => none
    | some (.table .dotted _) => descend name (enter value true keys) entries
    | some _ => descend name (enter value false keys) entries

def openTable : List String → List (Named Node) → Option (List (Named Node))
  | [], _ => none
  | [name], entries =>
    match Named.lookup name entries with
    | none => some (entries ++ [⟨name, .table .header []⟩])
    | some (.table .implied inner) => some (put name (.table .header inner) entries)
    | some _ => none
  | name :: keys, entries => descend name (openTable keys) entries

def openElement : List String → List (Named Node) → Option (List (Named Node))
  | [], _ => none
  | [name], entries =>
    match Named.lookup name entries with
    | none => some (entries ++ [⟨name, .tables [[]]⟩])
    | some (.tables items) => some (put name (.tables (items ++ [[]])) entries)
    | some _ => none
  | name :: keys, entries => descend name (openElement keys) entries

def within (change : List (Named Node) → Option (List (Named Node))) :
    List String → List (Named Node) → Option (List (Named Node))
  | [], entries => change entries
  | name :: keys, entries => descend name (within change keys) entries

mutual

def readValue : Nat → Nat → Reader Document
  | 0, _, _ => none
  | fuel + 1, depth, cs =>
    match cs with
    | '"' :: _ | '\'' :: _ => (readText true cs).map fun (s, rest) => (.text s, rest)
    | '[' :: rest =>
      if depth + 1 < depthLimit then
        (readItems fuel (depth + 1) rest).map fun (items, rest) => (.list items, rest)
      else none
    | c :: rest =>
      if c.toNat = 0x7B then
        if depth + 1 < depthLimit then
          match skipSpaces rest with
          | d :: more =>
            if d.toNat = 0x7D then some (.table [], more)
            else
              (readInline fuel (depth + 1) [] (d :: more)).map fun (entries, rest) =>
                (.table (documents entries), rest)
          | [] => none
        else none
      else readScalar cs
    | [] => none

def readItems : Nat → Nat → Reader (List Document)
  | 0, _, _ => none
  | fuel + 1, depth, cs =>
    match skipBlankLines (cs.length + 1) cs with
    | ']' :: rest => some ([], rest)
    | cs =>
      match readValue fuel depth cs with
      | none => none
      | some (item, rest) =>
        match skipBlankLines (rest.length + 1) rest with
        | ',' :: rest => (readItems fuel depth rest).map fun (items, rest) => (item :: items, rest)
        | ']' :: rest => some ([item], rest)
        | _ => none

def readInline : Nat → Nat → List (Named Node) → Reader (List (Named Node))
  | 0, _, _, _ => none
  | fuel + 1, depth, entries, cs =>
    match readKey cs with
    | none => none
    | some (keys, rest) =>
      match rest with
      | '=' :: rest =>
        match readValue fuel depth (skipSpaces rest) with
        | none => none
        | some (value, rest) =>
          match enter value true keys entries, skipSpaces rest with
          | some entries, c :: rest =>
            if c = ',' then readInline fuel depth entries rest
            else if c.toNat = 0x7D then some (entries, rest)
            else none
          | _, _ => none
      | _ => none

end

inductive Line where
  | blank
  | header (keys : List String)
  | element (keys : List String)
  | entry (keys : List String) (value : Document)

def readLine (cs : List Char) : Option (Line × List Char) :=
  match skipSpaces cs with
  | [] => some (.blank, [])
  | '#' :: rest => some (.blank, '#' :: rest)
  | '\n' :: rest => some (.blank, '\n' :: rest)
  | '\r' :: rest => some (.blank, '\r' :: rest)
  | '[' :: '[' :: rest =>
    match readKey rest with
    | some (keys, ']' :: ']' :: rest) => some (.element keys, rest)
    | _ => none
  | '[' :: rest =>
    match readKey rest with
    | some (keys, ']' :: rest) => some (.header keys, rest)
    | _ => none
  | cs =>
    match readKey cs with
    | some (keys, '=' :: rest) =>
      (readValue (rest.length + 1) 0 (skipSpaces rest)).map fun (value, rest) =>
        (.entry keys value, rest)
    | _ => none

def readLines : Nat → List String → List (Named Node) → List Char → Option (List (Named Node))
  | 0, _, _, _ => none
  | fuel + 1, home, root, cs =>
    match readLine cs with
    | none => none
    | some (line, rest) =>
      let step : Option (List String × List (Named Node)) := match line with
        | .blank => some (home, root)
        | .header keys => (openTable keys root).map (keys, ·)
        | .element keys => (openElement keys root).map (keys, ·)
        | .entry keys value => (within (enter value true keys) home root).map (home, ·)
      match step with
      | none => none
      | some (home, root) =>
        let rest := skipComment rest
        match rest, lineBreak? rest with
        | [], _ => some root
        | _, some next => readLines fuel home root next
        | _, none => none

def read? (s : String) : Option Document :=
  let cs := match s.toList with
    | c :: rest => if c.toNat = 0xFEFF then rest else c :: rest
    | [] => []
  (readLines (cs.length + 1) [] [] cs).map fun entries => .table (documents entries)

def dialect : Dialect where
  isUnit
    | .table [] | .list [] => true
    | _ => false
  allowsExtra := true

end RecordMapping.Toml
