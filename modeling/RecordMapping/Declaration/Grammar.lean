import RecordMapping.Declaration.Grammar.Expressions
import RecordMapping.Declaration.Grammar.Items
/-!
The grammar of type expressions: the form that each rule stands for.
-/
namespace RecordMapping.Declaration

def Rule.form : Rule → Form
  | .type sums => .type sums
  | .bounds => .bounds
  | .path amongTypes => .path amongTypes
  | .arguments => .arguments
  | .attributeContent => .attributeContent
  | .pattern => .pattern
  | .alternatives => .alternatives
  | .expression literals => .expression literals
  | .operand literals => .operand literals
  | .atom literals => .atom literals
  | .block => .block
  | .conditional => .conditional
  | .statement => .statement
  | .item => .item

/-- The tokens that a form stands for, if it takes all of them. Each character of their text brings
the form that comes next only a few levels deeper. -/
def Form.readAll? (f : Form) (ts : List Token) : Option (List Token) :=
  match f.read Rule.form (2000 * ((Token.textOf ts).length + 2)) ts with
  | some (x, []) => some x
  | _ => none

end RecordMapping.Declaration
