import RecordMapping.Declaration.Grammar.Paths
import RecordMapping.Text.Hexadecimal
/-!
Patterns: what a value is matched with.
-/
namespace RecordMapping.Declaration.Form

open RecordMapping.Text

def placeNumber (base : Nat) (digits : List Char) : Nat :=
  (digits.filterMap hexValue?).foldl (base * · + ·) 0

def place : List Char → String
  | [] => ""
  | '0' :: 'x' :: digits => toString (placeNumber 16 digits)
  | '0' :: 'o' :: digits => toString (placeNumber 8 digits)
  | '0' :: 'b' :: digits => toString (placeNumber 2 digits)
  | digits => toString (placeNumber 10 digits)

def places (accepts : String → Bool) : Form :=
  changed (List.map fun
      | .literal s => .literal (".".intercalate ((s.splitOn ".").map fun part => place part.toList))
      | t => t)
    (token fun
      | .literal s => accepts s
      | _ => false)

def alternatives : Form :=
  opt (spelled "|") ++ rule .pattern ++ many (spelled "|" ++ rule .pattern)

def rangeSign : Form :=
  spelled "..=" <|> spelled ".."

/-- The sign of a range in a pattern. One of three dots is the old spelling of one with its end. -/
def patternRangeSign : Form :=
  rangeSign <|> changed (fun _ => [.sign "..=" false]) (spelled "...")

def rangeBound : Form :=
  opt (spelled "-") ++ literal <|> word ["true", "false"] <|> word ["const"] ++ rule .block <|>
    rule (.path false)

def patternRange : Form :=
  patternRangeSign ++ opt rangeBound

def namePattern : Form :=
  opt (word ["ref"]) ++ opt (word ["mut"]) ++ anyName ++ opt (spelled "@" ++ rule .pattern)

def member : Form := anyName <|> places fun _ => true

def fieldPattern : Form :=
  attributes ++ (spelled ".." <|> word ["box"] ++ opt (word ["ref"]) ++ opt (word ["mut"]) ++ name
    <|> opt (word ["ref"]) ++ opt (word ["mut"]) ++ member ++
      opt (spelled ":" ++ rule .alternatives))

def pathPattern : Form :=
  rule (.path false) ++ opt (invocation <|> inside .curly (list fieldPattern) <|>
    inside .round (list (rule .alternatives)) <|> patternRange)

/-- Whether a name is part of a path, by what follows it. -/
def continuesPath : List Token → Bool
  | .sign s _ :: _ => ["::", "!", "..", "..=", "..."].contains s
  | .group b _ :: _ => b = .curly || b = .round
  | _ => false

def pattern : Form :=
  look fun
    | .name "_" :: _ => word ["_"]
    | .name "box" :: _ => kept (word ["box"] ++ rule .pattern)
    | .sign "-" _ :: _ | .literal _ :: _ | .name "true" :: _ | .name "false" :: _
    | .name "const" :: _ => rangeBound ++ opt patternRange
    | .sign "&" _ :: _ => spelled "&" ++ opt (word ["mut"]) ++ rule .pattern
    | .group .round _ :: _ => inside .round (list (rule .alternatives))
    | .group .square _ :: _ => inside .square (list (rule .alternatives))
    | .sign ".." _ :: _ | .sign "..=" _ :: _ => rangeSign ++ opt rangeBound
    | .sign _ _ :: _ | .name "Self" :: _ | .name "super" :: _ | .name "crate" :: _ => pathPattern
    | .name "ref" :: _ | .name "mut" :: _ => namePattern
    | .name _ :: rest => if continuesPath rest then pathPattern else namePattern
    | _ => never

end RecordMapping.Declaration.Form
