import RecordMapping.Declaration.Token
/-!
Forms: what may come next among tokens, as data. A form is read off the front of a list of tokens
and gives the tokens that it stands for, which are those that were read, put in order.
-/
namespace RecordMapping.Declaration

inductive Rule where
  /-- A type; `sums` tells whether it may be a sum of bounds. -/
  | type (sums : Bool)
  | bounds
  /-- A path; among types its arguments need no double colon. -/
  | path (amongTypes : Bool)
  /-- Arguments in angle brackets. -/
  | arguments
  /-- What an attribute holds. -/
  | attributeContent
  /-- A pattern without alternatives. -/
  | pattern
  /-- A pattern with alternatives. -/
  | alternatives
  /-- An expression; `literals` tells whether a structure may be written out in it. -/
  | expression (literals : Bool)
  /-- An expression without operators between two operands. -/
  | operand (literals : Bool)
  /-- An operand without signs before it and parts after it. -/
  | atom (literals : Bool)
  /-- Statements in braces. -/
  | block
  | conditional
  | statement
  | item

inductive Form where
  /-- Nothing is read. -/
  | nothing
  /-- Nothing can be read. -/
  | never
  | token (accepts : Token → Bool)
  /-- Signs next to one another that are spelled so. -/
  | spelled (text : String)
  | both (join : List Token → List Token → List Token) (first second : Form)
  /-- The second form where the first cannot be read. -/
  | either (first second : Form)
  /-- The form that the next tokens call for. -/
  | look (choose : List Token → Form)
  | many (item : Form)
  /-- A bracket with nothing but the form inside. -/
  | inside (bracket : Bracket) (content : Form)
  | rule (r : Rule)
  /-- What is read stays as it was written. -/
  | kept (f : Form)
  | changed (change : List Token → List Token) (f : Form)

def Token.strip? (text : String) : List Token → Option (List Token)
  | .sign s joint :: rest =>
    if s = text then some rest
    else if joint ∧ s.toList.isPrefixOf text.toList then
      match rest with
      | .sign t _ :: more => if s ++ t = text then some more else stripThird? (s ++ t) text rest
      | _ => none
    else none
  | _ => none
where
  /-- Three signs next to one another, the first two of which spell `begun`. -/
  stripThird? (begun text : String) : List Token → Option (List Token)
    | .sign _ true :: .sign t _ :: rest => if begun ++ t = text then some rest else none
    | _ => none

def Token.starts (text : String) (ts : List Token) : Bool :=
  (strip? text ts).isSome

namespace Form

/-- Reads a form, by the forms that the rules stand for; `fuel` bounds how deep they are nested. -/
def read (rules : Rule → Form) : Nat → Form → List Token → Option (List Token × List Token)
  | 0, _, _ => none
  | _ + 1, .nothing, ts => some ([], ts)
  | _ + 1, .never, _ => none
  | _ + 1, .token accepts, ts =>
    match ts with
    | t :: rest => if accepts t then some ([t], rest) else none
    | [] => none
  | _ + 1, .spelled text, ts =>
    (Token.strip? text ts).map fun rest => ([.sign text false], rest)
  | fuel + 1, .both join first second, ts =>
    match read rules fuel first ts with
    | none => none
    | some (x, rest) => (read rules fuel second rest).map fun (y, rest) => (join x y, rest)
  | fuel + 1, .either first second, ts =>
    match read rules fuel first ts with
    | none => read rules fuel second ts
    | some r => some r
  | fuel + 1, .look choose, ts => read rules fuel (choose ts) ts
  | fuel + 1, .many item, ts =>
    match read rules fuel item ts with
    | none => some ([], ts)
    | some (x, rest) =>
      if rest.length < ts.length then
        (read rules fuel (.many item) rest).map fun (y, rest) => (x ++ y, rest)
      else some ([], ts)
  | fuel + 1, .inside bracket content, ts =>
    match ts with
    | .group b inner :: rest =>
      if b = bracket then
        match read rules fuel content inner with
        | some (x, []) => some ([.group b x], rest)
        | _ => none
      else none
    | _ => none
  | fuel + 1, .rule r, ts => read rules fuel (rules r) ts
  | fuel + 1, .kept f, ts =>
    (read rules fuel f ts).map fun (_, rest) =>
      ([.kept (ts.take (ts.length - rest.length))], rest)
  | fuel + 1, .changed change f, ts =>
    (read rules fuel f ts).map fun (x, rest) => (change x, rest)

instance : Append Form := ⟨both (· ++ ·)⟩

instance : OrElse Form := ⟨fun first second => either first (second ())⟩

def opt (f : Form) : Form := f <|> nothing

def dropped (f : Form) : Form := changed (fun _ => []) f

def heading (head body : Form) : Form :=
  both (fun x y => if y.isEmpty then [] else x ++ y) head body

def list (item : Form) : Form :=
  opt (item ++ many (spelled "," ++ item) ++ opt (spelled ","))

def angled (content : Form) : Form :=
  changed (fun ts => [.group .angle (Token.lifetimesFirst ts)])
    (dropped (spelled "<") ++ content ++ dropped (spelled ">"))

def anyGroup (brackets : List Bracket) : Form :=
  token fun
    | .group b _ => brackets.contains b
    | _ => false

def literal : Form :=
  token fun
    | .literal _ => true
    | _ => false

def lifetime : Form :=
  token fun
    | .lifetime _ => true
    | _ => false

def word (words : List String) : Form :=
  token fun
    | .name n => words.contains n
    | _ => false

def reserved : List String :=
  ["_", "abstract", "as", "async", "await", "become", "box", "break", "const", "continue", "crate",
    "do", "dyn", "else", "enum", "extern", "false", "final", "fn", "for", "if", "impl", "in", "let",
    "loop", "macro", "match", "mod", "move", "mut", "override", "priv", "pub", "ref", "return",
    "Self", "self", "static", "struct", "super", "trait", "true", "try", "type", "typeof", "unsafe",
    "unsized", "use", "virtual", "where", "while", "yield"]

def isName (n : String) : Bool := !reserved.contains n

def name : Form :=
  token fun
    | .name n => isName n
    | _ => false

def anyName : Form :=
  token fun
    | .name _ => true
    | _ => false

end Form
end RecordMapping.Declaration
