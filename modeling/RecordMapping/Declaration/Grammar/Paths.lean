import RecordMapping.Declaration.Form
/-!
Paths: names between double colons, with arguments in angle brackets, and what is written with them:
attributes and invocations. What an invocation holds is no expression and stays as it is.
-/
namespace RecordMapping.Declaration.Form

def plainName : Form :=
  name <|> word ["super", "self", "Self", "crate"]

def plainPath : Form :=
  opt (spelled "::") ++ plainName ++ many (spelled "::" ++ plainName)

def attributeContent : Form :=
  (word ["unsafe"] <|> plainPath) ++
    (anyGroup [.round, .square, .curly] <|> opt (spelled "=" ++ rule (.expression true)))

def attributes : Form :=
  many (spelled "#" ++ inside .square (rule .attributeContent))

def innerAttributes : Form :=
  many (spelled "#" ++ spelled "!" ++ inside .square (rule .attributeContent))

def invocation : Form :=
  spelled "!" ++ anyGroup [.round, .square, .curly]

def builtin : Form :=
  word ["builtin"] ++ spelled "#" ++ anyName ++ anyGroup [.round]

def opensArguments (ts : List Token) : Bool :=
  Token.starts "<" ts && !Token.starts "<=" ts && !Token.starts "<<=" ts

def segment (amongTypes : Bool) : Form :=
  word ["super", "self", "crate", "try"] <|>
    (name <|> word ["Self"]) ++ look fun
      | .sign "::" _ :: rest =>
        if Token.starts "<" rest then spelled "::" ++ rule .arguments else nothing
      | ts => if amongTypes && opensArguments ts then rule .arguments else nothing

/-- More names of a path. Parentheses after a double colon are none. -/
def segments (amongTypes : Bool) : Form :=
  many (look fun
    | .sign "::" _ :: .group .round _ :: _ => never
    | _ => spelled "::" ++ segment amongTypes)

def qualifier : Form :=
  angled (rule (.type true) ++ opt (word ["as"] ++ rule (.path true))) ++ spelled "::"

def path (amongTypes : Bool) : Form :=
  (look fun ts => if Token.starts "<" ts then qualifier else opt (spelled "::")) ++
    segment amongTypes ++ segments amongTypes

def constant : Form :=
  literal <|> spelled "-" ++ literal <|> word ["true", "false"] <|> rule .block

def argument : Form :=
  look fun
    | .lifetime _ :: .sign "+" _ :: _ => rule (.type true)
    | .lifetime _ :: _ => lifetime
    | _ => constant <|> rule (.type true) ++ opt
      (spelled "=" ++ (constant <|> rule (.type true)) <|> spelled ":" ++ opt (rule .bounds))

def arguments : Form :=
  angled (list argument)

end RecordMapping.Declaration.Form
