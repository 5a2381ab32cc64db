/-!
Patterns: texts in which a percent sign stands for any run of characters.
-/
namespace RecordMapping

namespace Pattern

/-- The parts of a pattern between its percent signs; there is always at least one. -/
def parts : List Char → List (List Char)
  | [] => [[]]
  | c :: rest =>
    if c = '%' then [] :: parts rest
    else
      match parts rest with
      | [] => [[c]]
      | part :: others => (c :: part) :: others

def after? (part : List Char) : List Char → Option (List Char)
  | [] => if part.isEmpty then some [] else none
  | c :: rest =>
    match part.isPrefixOf? (c :: rest) with
    | some left => some left
    | none => after? part rest

/-- Whether a text has the given parts in order, the last one at its end. -/
def matchesRest : List (List Char) → List Char → Bool
  | [], text => text.isEmpty
  | [last], text => last.isSuffixOf text
  | part :: others, text =>
    match after? part text with
    | some left => matchesRest others left
    | none => false

end Pattern

def matchesPattern (text pattern : String) : Bool :=
  match Pattern.parts pattern.toList with
  | [] => text.isEmpty
  | [part] => text.toList == part
  | first :: others =>
    match first.isPrefixOf? text.toList with
    | some left => Pattern.matchesRest others left
    | none => false

end RecordMapping
