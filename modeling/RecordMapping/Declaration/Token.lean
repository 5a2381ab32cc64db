import RecordMapping.Text.Blank
import RecordMapping.Text.Quoted
/-!
Tokens of type expressions: names, lifetimes, literals and signs, and what stands in brackets as one
token. Blanks and comments are left out, but a documenting comment stands for an attribute.
-/
namespace RecordMapping.Declaration

open RecordMapping.Text

inductive Bracket where
  | round
  | square
  | curly
  | angle
deriving DecidableEq

def Bracket.opening : Bracket → String
  | .round => "("
  | .square => "["
  | .curly => "\x7b"
  | .angle => "<"

def Bracket.closing : Bracket → String
  | .round => ")"
  | .square => "]"
  | .curly => "\x7d"
  | .angle => ">"

inductive Token where
  | name (text : String)
  | lifetime (text : String)
  | literal (text : String)
  /-- A sign; it is joint if another sign follows without a blank. -/
  | sign (text : String) (joint : Bool)
  | group (bracket : Bracket) (inside : List Token)
  /-- Tokens that stay as they were written. -/
  | kept (inside : List Token)

/-- Whether a character is left out between tokens. The two marks of direction are. -/
def isGap (c : Char) : Bool :=
  isBlank c || c.toNat == 0x200E || c.toNat == 0x200F

def isNameStart (c : Char) : Bool :=
  c.isAlpha || c == '_' || (0x80 ≤ c.toNat && !isGap c)

def isNameChar (c : Char) : Bool :=
  c.isDigit || isNameStart c

def isSignChar (c : Char) : Bool :=
  "~!@#$%^&*-=+|;:,<.>/?'".toList.contains c

def nameLength (cs : List Char) : Nat :=
  (cs.takeWhile isNameChar).length

def rawNameLength : List Char → Nat
  | 'r' :: '#' :: rest => nameLength rest + 2
  | cs => nameLength cs

def quotedLength (quote : Char) : List Char → Nat
  | [] => 0
  | '\\' :: _ :: rest => quotedLength quote rest + 2
  | c :: rest => if c = quote then 1 else quotedLength quote rest + 1

def rawLength (hashes : Nat) : List Char → Nat
  | [] => 0
  | c :: rest =>
    if c = '"' ∧ rest.take hashes = List.replicate hashes '#' then hashes + 1
    else rawLength hashes rest + 1

def rawExtent? (cs : List Char) : Option Nat :=
  let hashes := (cs.takeWhile (· == '#')).length
  match cs.drop hashes with
  | '"' :: rest => some (hashes + 1 + rawLength hashes rest)
  | _ => none

def charExtent? : List Char → Option Nat
  | '\\' :: rest => some (quotedLength '\'' ('\\' :: rest))
  | _ :: '\'' :: _ => some 2
  | _ => none

def digitsLength (cs : List Char) : Nat :=
  (cs.takeWhile fun c => c.isDigit || c == '_').length

def exponentLength : List Char → Nat
  | c :: rest =>
    if c = 'e' ∨ c = 'E' then
      let signs := (rest.take 1).takeWhile fun d => d == '+' || d == '-'
      let digits := rest.drop signs.length
      if (digits.take (digitsLength digits)).any Char.isDigit then
        1 + signs.length + digitsLength digits
      else 0
    else 0
  | [] => 0

/-- How many characters follow the first digit of a number. A point belongs to it if neither a name
nor another point comes after it. -/
def numberLength (rest : List Char) : Nat :=
  let whole := digitsLength rest
  let fraction := match rest.drop whole with
    | '.' :: more =>
      if more.head?.any fun c => c == '.' || isNameStart c then 0 else 1 + digitsLength more
    | _ => 0
  whole + fraction + exponentLength (rest.drop (whole + fraction))

def literalExtent? (c : Char) (rest : List Char) : Option Nat :=
  let stem : Option Nat := match c, rest with
    | '"', _ => some (quotedLength '"' rest)
    | '\'', _ => charExtent? rest
    | 'r', _ => rawExtent? rest
    | 'b', '\'' :: more => (charExtent? more).map (· + 1)
    | 'b', '"' :: more | 'c', '"' :: more => some (quotedLength '"' more + 1)
    | 'b', 'r' :: more | 'c', 'r' :: more => (rawExtent? more).map (· + 1)
    | _, _ => if c.isDigit then some (numberLength rest) else none
  stem.map fun n => n + nameLength (rest.drop n)

def commentLength : Nat → List Char → Nat
  | _, [] => 0
  | depth, '/' :: '*' :: rest => commentLength (depth + 1) rest + 2
  | depth, '*' :: '/' :: rest => if depth ≤ 1 then 2 else commentLength (depth - 1) rest + 2
  | depth, _ :: rest => commentLength depth rest + 1

/-- What documentation holds, as in a literal: a zero before a digit is told apart from one escape
with it. -/
def documentationText : List Char → List Char
  | [] => []
  | c :: rest =>
    let digitFollows := rest.head?.any fun d => '0' ≤ d && d ≤ '7'
    (if c.toNat = 0 ∧ digitFollows then ['\\', 'x', '0', '0'] else escape c) ++
      documentationText rest

namespace Token

/-- The attribute that a documenting comment stands for. One about what it stands in has an
exclamation mark. -/
def documentation (inner : Bool) (content : List Char) : List Token :=
  let text := String.ofList ('"' :: documentationText content ++ ['"'])
  [.sign "#" false] ++ (if inner then [.sign "!" false] else []) ++
    [.sign "[" false, .name "doc", .sign "=" false, .literal text, .sign "]" false]

/-- The tokens of a comment to the end of the line: a third stroke makes it a documenting one, a
fourth does not. -/
def ofLine : List Char → List Token
  | '/' :: '/' :: _ => []
  | '/' :: content => documentation false content
  | '!' :: content => documentation true content
  | _ => []

/-- The tokens of a comment between strokes: a second star makes it a documenting one, a third does
not. -/
def ofComment (content : List Char) : List Token :=
  let text (more : List Char) : List Char := more.take (more.length - 2)
  match content with
  | '*' :: '*' :: _ | ['*', '/'] => []
  | '*' :: more => documentation false (text more)
  | '!' :: more => documentation true (text more)
  | _ => []

def lineLength : List Char → Nat
  | [] | '\n' :: _ | '\r' :: '\n' :: _ => 0
  | _ :: rest => lineLength rest + 1

/-- The signs that are one token with the one that they begin with. -/
def compounds : List String := ["::", "->", "=>", "..=", "...", ".."]

def signFollows : List Char → Bool
  | '/' :: '/' :: _ | '/' :: '*' :: _ => false
  | c :: _ => isSignChar c
  | [] => false

def next (c : Char) (rest : List Char) : List Token × Nat :=
  let text (n : Nat) : String := String.ofList (c :: rest.take n)
  if isGap c then ([], 0)
  else
    match literalExtent? c rest, c, rest with
    | some n, _, _ => ([.literal (text n)], n)
    | none, '/', '/' :: more =>
      let n := lineLength more
      (ofLine (more.take n), n + 1)
    | none, '/', '*' :: more =>
      let n := commentLength 1 more
      (ofComment (more.take n), n + 1)
    | none, '\'', _ => ([.lifetime (text (rawNameLength rest))], rawNameLength rest)
    | none, _, _ =>
      if isNameStart c then
        let n := rawNameLength (c :: rest) - 1
        ([.name (text n)], n)
      else
        match compounds.find? (·.toList.isPrefixOf (c :: rest)) with
        | some s =>
          let n := s.length - 1
          ([.sign s (signFollows (rest.drop n))], n)
        | none => ([.sign (text 0) (signFollows rest)], 0)

/-- What the steps through a text give, one after the other. A step begins with a character and says
how many of the next ones belong to it. -/
def chop (step : Char → List Char → List Token × Nat) : List Char → List Token
  | [] => []
  | c :: rest => (step c rest).1 ++ chop step (rest.drop (step c rest).2)
termination_by cs => cs.length
decreasing_by simp only [List.length_drop, List.length_cons]; omega

theorem chop_nil (step : Char → List Char → List Token × Nat) : chop step [] = [] := by
  rw [chop]

theorem chop_cons (step : Char → List Char → List Token × Nat) (c : Char) (rest : List Char) :
    chop step (c :: rest) = (step c rest).1 ++ chop step (rest.drop (step c rest).2) := by
  rw [chop]

def flat : List Char → List Token :=
  chop next

/-- A bracket that is still open, and the tokens read inside, the latest first. -/
structure Frame where
  bracket : Bracket
  read : List Token

def Frame.group (f : Frame) : Token :=
  .group f.bracket f.read.reverse

def Frame.push (f : Frame) (t : Token) : Frame :=
  { f with read := t :: f.read }

/-- The tokens with the brackets among them as groups, inside of the brackets in `outer`. What is
left open is closed at the end. Angles are no brackets here. -/
def nest (f : Frame) (outer : List Frame) : List Token → List Token
  | [] => (outer.foldl (fun inner g => g.push inner.group) f).read.reverse
  | .sign s joint :: rest =>
    match [Bracket.round, .square, .curly].find? (·.opening == s), outer with
    | some b, _ => nest ⟨b, []⟩ (f :: outer) rest
    | none, g :: others =>
      if s = f.bracket.closing then nest (g.push f.group) others rest
      else nest (f.push (.sign s joint)) outer rest
    | none, [] => nest (f.push (.sign s joint)) [] rest
  | t :: rest => nest (f.push t) outer rest

def ofText (s : String) : List Token :=
  let cs := match s.toList with
    | c :: rest => if c.toNat = 0xFEFF then rest else c :: rest
    | [] => []
  nest ⟨.round, []⟩ [] (flat cs)

mutual

def text : Token → String
  | .name s | .lifetime s | .sign s _ => s
  | .literal s => String.ofList (s.toList.filter (· != ' '))
  | .group b inside => b.opening ++ textOf inside ++ b.closing
  | .kept inside => textOf inside

def textOf : List Token → String
  | [] => ""
  | t :: rest => t.text ++ textOf rest

end

def arguments (ts : List Token) : List (List Token) :=
  (go ts).filter (!·.isEmpty)
where
  go : List Token → List (List Token)
    | [] => [[]]
    | .sign "," _ :: rest => [] :: go rest
    | t :: rest =>
      match go rest with
      | [] => [[t]]
      | first :: others => (t :: first) :: others

def withoutAttributes : List Token → List Token
  | .sign "#" _ :: .group .square _ :: rest => withoutAttributes rest
  | ts => ts

def isLifetime (argument : List Token) : Bool :=
  match withoutAttributes argument with
  | .lifetime _ :: .sign "+" _ :: _ => false
  | .lifetime _ :: _ => true
  | _ => false

/-- Arguments with the lifetimes before the others. The others keep the commas after them, the last
one too. -/
def lifetimesFirst (ts : List Token) : List Token :=
  let comma : Token := .sign "," false
  let (lifetimes, others) := (arguments ts).partition isLifetime
  let keepsComma := match ts.getLast? with
    | some (.sign "," _) => true
    | _ => !others.isEmpty && (arguments ts).getLast?.any isLifetime
  [comma].intercalate (lifetimes ++ others) ++ if keepsComma then [comma] else []

end Token
end RecordMapping.Declaration
