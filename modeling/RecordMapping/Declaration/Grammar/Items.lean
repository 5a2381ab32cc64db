import RecordMapping.Declaration.Grammar.Types
import RecordMapping.Declaration.Grammar.Patterns
/-!
Items: what a block declares. An item that has no meaning where it stands, such as a function
without a body in a block, stays as it was written.
-/
namespace RecordMapping.Declaration.Form

def receiver : Form :=
  opt (spelled "&" ++ opt lifetime) ++ opt (word ["mut"]) ++ word ["self"] ++
    opt (spelled ":" ++ rule (.type true))

def bareParameter : Form :=
  look fun
    | .name _ :: .sign "<" _ :: _ =>
      changed (fun ts => [.name "_", .sign ":" false] ++ ts) (rule (.type true))
    | _ => never

def parameter : Form :=
  attributes ++ (receiver <|> bareParameter <|> spelled "..." <|>
    rule .pattern ++ spelled ":" ++ (spelled "..." <|> rule (.type true)))

def signature (safety : List String) : Form :=
  opt (word ["const"]) ++ opt (word ["async"]) ++ opt (word safety) ++
    opt (word ["extern"] ++ opt literal) ++ word ["fn"] ++ anyName ++ parameters ++
    inside .round (list parameter) ++ opt (spelled "->" ++ rule (.type true)) ++ conditions

def function : Form := signature ["unsafe"] ++ rule .block

def endOfItem : Form := spelled ";"

/-- An invocation in place of items. One in braces is an expression if parts follow it. -/
def itemInvocation : Form :=
  plainPath ++ spelled "!" ++ opt anyName ++ look fun
    | .group .curly _ :: .sign "." _ :: _ | .group .curly _ :: .sign "?" _ :: _ => never
    | .group .curly _ :: _ => anyGroup [.curly] ++ opt endOfItem
    | _ => anyGroup [.round, .square] ++ endOfItem

def value : Form := spelled "=" ++ rule (.expression true)

def typed : Form := spelled ":" ++ rule (.type true)

def defined : Form := spelled "=" ++ rule (.type true)

def constantItem : Form :=
  word ["const"] ++ anyName ++ typed ++ value ++ endOfItem

def staticItem : Form :=
  word ["static"] ++ opt (word ["mut"]) ++ anyName ++ typed ++ value ++ endOfItem

def looseMember : Form :=
  signature ["unsafe", "safe"] ++ (rule .block <|> endOfItem) <|>
    word ["const"] ++ anyName ++ parameters ++ opt typed ++ opt value ++ conditions ++
      endOfItem <|>
    opt (word ["unsafe", "safe"]) ++ word ["static"] ++ opt (word ["mut"]) ++ anyName ++
      opt typed ++ opt value ++ endOfItem <|>
    word ["type"] ++ anyName ++ parameters ++ opt (spelled ":" ++ opt (rule .bounds)) ++
      conditions ++ opt defined ++ conditions ++ endOfItem

def memberItem (form : Form) : Form :=
  attributes ++ form <|>
    kept (attributes ++ visibility ++ opt (word ["default"]) ++ looseMember)

def traitMember : Form :=
  memberItem (itemInvocation <|> word ["const"] ++ anyName ++ typed ++ opt value ++ endOfItem <|>
    signature ["unsafe"] ++ (rule .block <|> endOfItem) <|>
    word ["type"] ++ anyName ++ parameters ++ opt (heading (spelled ":") (opt (rule .bounds))) ++
      opt defined ++ conditions ++ endOfItem)

def implementedMember : Form :=
  memberItem (itemInvocation <|> visibility ++ opt (word ["default"]) ++ (constantItem <|>
    function <|> word ["type"] ++ anyName ++ parameters ++ defined ++ conditions ++ endOfItem))

def foreignMember : Form :=
  memberItem (itemInvocation <|> visibility ++ (signature ["unsafe"] ++ endOfItem <|>
    word ["static"] ++ opt (word ["mut"]) ++ anyName ++ typed ++ endOfItem <|>
    word ["type"] ++ anyName ++ parameters ++ conditions ++ endOfItem))

def members (item : Form) : Form :=
  inside .curly (innerAttributes ++ many item)

def implementation : Form :=
  opt (word ["default"]) ++ opt (word ["unsafe"]) ++ word ["impl"] ++ parameters

def implementationBody : Form :=
  conditions ++ members implementedMember

/-- The trait and the type of an implementation, or only the type. A denied type stays as it was
written. -/
def implemented : Form :=
  opt (spelled "!") ++ typePath ++ word ["for"] ++ rule (.type true) <|>
    kept (spelled "!" ++ rule (.type true)) <|> rule (.type true)

def looseImplementation : Form :=
  implementation ++ opt (spelled "?") ++ opt (word ["const"]) ++ opt (spelled "!") ++
    rule (.type true) ++ opt (word ["for"] ++ rule (.type true)) ++ implementationBody

def structItem : Form :=
  word ["struct"] ++ anyName ++ parameters ++ (tupleFields ++ conditions ++ endOfItem <|>
    conditions ++ (namedFields <|> endOfItem))

def variant : Form :=
  attributes ++ dropped visibility ++ anyName ++ opt (namedFields <|> tupleFields) ++ opt value

def enumItem : Form :=
  word ["enum"] ++ anyName ++ parameters ++ conditions ++ inside .curly (list variant)

def unionItem : Form :=
  word ["union"] ++ name ++ parameters ++ conditions ++ namedFields

def traitItem : Form :=
  opt (word ["unsafe"]) ++ opt (word ["auto"]) ++ word ["trait"] ++ anyName ++ parameters ++
    (spelled "=" ++ opt (rule .bounds) ++ conditions ++ endOfItem <|>
      opt (heading (spelled ":") (opt (rule .bounds))) ++ conditions ++ members traitMember)

def foreignItem : Form :=
  opt (word ["unsafe"]) ++ word ["extern"] ++ opt literal ++ members foreignMember

def moduleItem : Form :=
  opt (word ["unsafe"]) ++ word ["mod"] ++ anyName ++ (endOfItem <|> members (rule .item))

def importItem : Form :=
  (word ["use"] <|> word ["extern"] ++ word ["crate"]) ++
    many (look fun ts => if Token.starts ";" ts then never else token fun _ => true) ++ endOfItem

def typeItem : Form :=
  word ["type"] ++ anyName ++ parameters ++ conditions ++ defined ++ endOfItem

def invocationItem : Form :=
  word ["macro"] ++ anyName ++ opt (anyGroup [.round]) ++ anyGroup [.curly]

def item : Form :=
  attributes ++ (implementation ++ implemented ++ implementationBody <|> itemInvocation <|>
      visibility ++ (importItem <|> foreignItem <|> function <|> constantItem <|> staticItem <|>
        structItem <|> enumItem <|> unionItem <|> traitItem <|> moduleItem <|> typeItem)) <|>
    kept (attributes ++ visibility ++ (invocationItem <|> looseImplementation <|> looseMember))

end RecordMapping.Declaration.Form
