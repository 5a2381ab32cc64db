import RecordMapping.Declaration.Grammar.Types
import RecordMapping.Declaration.Grammar.Patterns
/-!
Expressions and statements. An expression is a row of operands with operators between them: how they
bind does not matter here. Where a block may follow an expression, no structure is written out in
it.
-/
namespace RecordMapping.Declaration.Form

/-- The operators between two operands, each before those that it begins with. -/
def operators : List String :=
  ["<<=", ">>=", "&&", "||", "<<", ">>", "==", "<=", "!=", ">=", "+=", "-=", "*=", "/=", "%=", "^=",
    "&=", "|=", "+", "-", "*", "/", "%", "^", "&", "|", "<", ">", "="]

def operator : Form :=
  look fun ts =>
    match operators.find? (Token.starts · ts) with
    | some text => spelled text
    | none => never

def rangeEnd (literals : Bool) : Form :=
  look fun
    | .group .curly _ :: _ => if literals then opt (rule (.operand true)) else nothing
    | _ => opt (rule (.operand literals))

def continuation (literals : Bool) : Form :=
  word ["as"] ++ rule (.type false) <|> rangeSign ++ rangeEnd literals <|>
    operator ++ rule (.operand literals)

def expression (literals : Bool) : Form :=
  rule (.operand literals) ++ many (continuation literals)

def expressions : Form := list (rule (.expression true))

def trailer : Form :=
  inside .round expressions <|> inside .square (rule (.expression true)) <|> spelled "?" <|>
    spelled "." ++ many (places (·.endsWith ".")) ++ member ++ opt (spelled "::" ++ rule .arguments)

def continuesOperand : List Token → Bool
  | .sign s _ :: _ => s = "." || s = "?"
  | _ => false

/-- A parameter of a closure. Attributes of a pattern that stays as it was written are left out. -/
def closureParameter : Form :=
  look fun ts =>
    let typed := attributes ++ rule .pattern ++ spelled ":" ++ rule (.type true)
    match Token.withoutAttributes ts with
    | .name "box" :: _ => typed <|> dropped attributes ++ rule .pattern
    | _ => attributes ++ rule .pattern ++ opt (spelled ":" ++ rule (.type true))

def closure (literals : Bool) : Form :=
  opt binder ++ opt (word ["const"]) ++ opt (word ["static"]) ++ opt (word ["async"]) ++
    opt (word ["move"]) ++ spelled "|" ++ list closureParameter ++ spelled "|" ++
    (spelled "->" ++ rule (.type true) ++ rule .block <|> rule (.expression literals))

def conditional : Form :=
  word ["if"] ++ rule (.expression false) ++ rule .block ++
    opt (word ["else"] ++ (rule .conditional <|> rule .block))

def expressionAttributes : Form :=
  look fun ts =>
    match Token.withoutAttributes ts with
    | .name "become" :: _ => dropped attributes
    | .name "builtin" :: .sign "#" _ :: .name _ :: .group .round _ :: rest =>
      if continuesOperand rest then attributes else dropped attributes
    | _ => attributes

def startsBinder : List Token → Bool
  | .name "for" :: .sign "<" _ :: .lifetime _ :: _
  | .name "for" :: .sign "<" _ :: .sign ">" _ :: _ => true
  | _ => false

def startsBlock : List Token → Bool
  | .name "try" :: .group .curly _ :: _ | .name "const" :: .group .curly _ :: _
  | .group .curly _ :: _ | .lifetime _ :: _ => true
  | .name n :: rest =>
    ["if", "while", "for", "loop", "match", "unsafe"].contains n &&
      !startsBinder (.name n :: rest)
  | _ => false

def leadingExpression : Form :=
  expressionAttributes ++ look fun ts =>
    if startsBlock ts then
      rule (.atom true) ++ look fun ts =>
        if continuesOperand ts then many trailer ++ many (continuation true) else nothing
    else rule (.expression true)

def arm : Form :=
  attributes ++ rule .alternatives ++ opt (word ["if"] ++ rule (.expression true)) ++
    spelled "=>" ++ leadingExpression ++ opt (spelled ",")

def selection : Form :=
  word ["match"] ++ rule (.expression false) ++ inside .curly (innerAttributes ++ many arm)

def loop : Form :=
  word ["while"] ++ rule (.expression false) ++ rule .block <|>
    word ["for"] ++ rule .alternatives ++ word ["in"] ++ rule (.expression false) ++ rule .block <|>
    word ["loop"] ++ rule .block

def fieldValue : Form :=
  spelled ".." ++ opt (rule (.expression true)) <|>
    attributes ++ member ++ opt (spelled ":" ++ rule (.expression true))

def pathOperand (literals : Bool) : Form :=
  rule (.path false) ++ (invocation <|> look fun
    | .group .curly _ :: _ => if literals then inside .curly (list fieldValue) else nothing
    | _ => nothing)

def given (literals : Bool) : Form :=
  opt (rule (.expression literals))

def atom (literals : Bool) : Form :=
  look fun
    | .literal _ :: _ => literal
    | .name "true" :: _ | .name "false" :: _ | .name "_" :: _ => anyName
    | .name "async" :: .group .curly _ :: _
    | .name "async" :: .name "move" :: .group .curly _ :: _ =>
      word ["async"] ++ opt (word ["move"]) ++ rule .block
    | .name "try" :: .group .curly _ :: _ | .name "unsafe" :: .group .curly _ :: _
    | .name "const" :: .group .curly _ :: _ => anyName ++ rule .block
    | .sign "|" _ :: _ | .name "move" :: _ | .name "const" :: _ | .name "static" :: _
    | .name "async" :: _ => closure literals
    | .name "builtin" :: .sign "#" _ :: _ => builtin
    | .group .round _ :: _ => inside .round expressions
    | .group .square _ :: _ =>
      inside .square (opt (rule (.expression true) ++
        (spelled ";" ++ rule (.expression true) <|> opt (spelled "," ++ expressions))))
    | .group .curly _ :: _ => rule .block
    | .name "break" :: _ =>
      word ["break"] ++ opt lifetime ++ look fun
        | .group .curly _ :: _ => if literals then given true else nothing
        | _ => given true
    | .name "continue" :: _ => word ["continue"] ++ opt lifetime
    | .name "return" :: _ => word ["return"] ++ given literals
    | .name "yield" :: _ => word ["yield"] ++ given true
    | .name "become" :: _ => kept (word ["become"] ++ rule (.expression true))
    | .name "if" :: _ => rule .conditional
    | .name "match" :: _ => selection
    | .name "while" :: _ | .name "loop" :: _ => loop
    | .name "for" :: rest =>
      if startsBinder (.name "for" :: rest) then closure literals else loop
    | .lifetime _ :: _ => lifetime ++ spelled ":" ++ (loop <|> rule .block)
    | .sign ".." _ :: _ | .sign "..=" _ :: _ => rangeSign ++ rangeEnd literals
    | _ => pathOperand literals

def operand (literals : Bool) : Form :=
  attributes ++ look fun
    | .sign "&" _ :: .name "raw" :: .name "mut" :: _
    | .sign "&" _ :: .name "raw" :: .name "const" :: _ =>
      spelled "&" ++ word ["raw"] ++ word ["mut", "const"] ++ rule (.operand literals)
    | .sign "&" _ :: _ => spelled "&" ++ opt (word ["mut"]) ++ rule (.operand literals)
    | .sign "*" _ :: _ => spelled "*" ++ rule (.operand literals)
    | .sign "!" _ :: _ => spelled "!" ++ rule (.operand literals)
    | .sign "-" _ :: _ => spelled "-" ++ rule (.operand literals)
    | .name "let" :: _ =>
      word ["let"] ++ rule .alternatives ++ spelled "=" ++ rule (.operand literals)
    | _ => rule (.atom literals) ++ many trailer

def binding : Form :=
  attributes ++ word ["let"] ++ rule .pattern ++ opt (spelled ":" ++ rule (.type true)) ++
    opt (spelled "=" ++ rule (.expression true) ++ opt (word ["else"] ++ rule .block)) ++
    spelled ";"

def statement : Form :=
  look fun ts =>
    match Token.withoutAttributes ts with
    | .sign ";" _ :: _ => spelled ";"
    | .name "let" :: _ => binding
    | _ => rule .item <|> leadingExpression ++ opt (spelled ";")

def block : Form :=
  inside .curly (innerAttributes ++ many (rule .statement))

end RecordMapping.Declaration.Form
