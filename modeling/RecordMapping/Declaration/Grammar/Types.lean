import RecordMapping.Declaration.Grammar.Paths
/-!
Types and their bounds, the parameters of items with their conditions, and fields.
-/
namespace RecordMapping.Declaration.Form

/-- The types in the parentheses after a path and of the result. A double colon before them is left
out. -/
def callSignature : Form :=
  dropped (opt (spelled "::")) ++ inside .round (list (rule (.type true))) ++
    opt (spelled "->" ++ rule (.type false))

def typePath : Form :=
  rule (.path true) ++ many (callSignature ++ segments true)

def lifetimeBounds : Form :=
  opt (lifetime ++ many (spelled "+" ++ lifetime) ++ opt (spelled "+"))

def lifetimeParameter : Form :=
  lifetime ++ opt (heading (spelled ":") lifetimeBounds)

def binder : Form :=
  word ["for"] ++ angled (list (attributes ++ lifetimeParameter))

def relaxation : Form := opt (spelled "?")

/-- A trait. The sign that relaxes it stands before the lifetimes it is meant for. -/
def traitBound : Form :=
  both (fun lifetimes sign => sign ++ lifetimes) (opt binder) relaxation ++ opt binder ++ typePath

def constantBound : Form :=
  opt binder ++ (word ["const"] <|> inside .square (word ["const"]) <|> spelled "~" ++
    word ["const"]) ++ relaxation ++ opt binder ++ typePath

def capture : Form :=
  word ["use"] ++ angled (list (lifetime <|> anyName))

def bound : Form :=
  lifetime <|> capture <|> kept (constantBound <|> inside .round constantBound) <|>
    inside .round traitBound <|> traitBound

def sum (sums : Bool) (first : Form) : Form :=
  if sums then first ++ opt (spelled "+" ++ opt (rule .bounds)) else first

def bounds : Form := sum true bound

def changedSelf : Form :=
  kept (opt (anyName ++ spelled ":") ++ word ["mut"] ++ word ["self"] ++
    opt (spelled ":" ++ rule (.type true)))

def functionType : Form :=
  opt (word ["unsafe"]) ++ opt (word ["extern"] ++ opt literal) ++ word ["fn"] ++
    inside .round (list (attributes ++ (changedSelf <|>
      opt (anyName ++ spelled ":") ++ (spelled "..." <|> rule (.type true))))) ++
    opt (spelled "->" ++ rule (.type false))

def type (sums : Bool) : Form :=
  look fun
    | .name "for" :: _ =>
      dropped binder ++ plainPath ++ invocation <|>
        binder ++ (functionType <|> sum sums typePath)
    | .group .round (.sign "?" _ :: _) :: _ => sum true (inside .round bound)
    | .group .round _ :: _ => sum sums (inside .round (list (rule (.type true))))
    | .group .square _ :: _ =>
      inside .square (rule (.type true) ++ opt (spelled ";" ++ rule (.expression true)))
    | .name "fn" :: _ | .name "unsafe" :: _ | .name "extern" :: _ => functionType
    | .name "dyn" :: .sign "*" _ :: _ =>
      kept (word ["dyn"] ++ spelled "*" ++ sum sums bound)
    | .name "dyn" :: _ | .name "impl" :: _ => word ["dyn", "impl"] ++ sum sums bound
    | .name "builtin" :: .sign "#" _ :: _ => builtin
    | .name "_" :: _ => word ["_"]
    | .sign "*" _ :: _ => spelled "*" ++ word ["const", "mut"] ++ rule (.type false)
    | .sign "&" _ :: _ =>
      spelled "&" ++ opt lifetime ++ opt (word ["mut"]) ++ rule (.type false)
    | .sign "!" _ :: _ => spelled "!"
    | .lifetime _ :: _ => sum true lifetime
    | _ => typePath ++ (invocation <|> sum sums nothing)

def typeParameter : Form :=
  anyName ++ opt (heading (spelled ":") (opt (rule .bounds))) ++
    opt (spelled "=" ++ rule (.type true))

def constantParameter : Form :=
  word ["const"] ++ anyName ++ spelled ":" ++ rule (.type true) ++
    opt (spelled "=" ++ (constant <|> rule (.type true)))

/-- Parameters of an item. Brackets around none are left out. -/
def parameters : Form :=
  opt (changed (fun
      | [.group .angle []] => []
      | ts => ts)
    (angled (list (attributes ++ (lifetimeParameter <|> constantParameter <|> typeParameter)))))

def condition : Form :=
  look fun
    | .lifetime _ :: .sign ":" _ :: _ => lifetime ++ spelled ":" ++ lifetimeBounds
    | _ => opt binder ++ rule (.type true) ++ spelled ":" ++ opt (rule .bounds)

def conditions : Form :=
  opt (heading (word ["where"]) (list condition))

def visibility : Form :=
  opt (word ["pub"] ++ look fun
    | .group .round [.name place] :: _ =>
      if ["crate", "self", "super"].contains place then anyGroup [.round] else nothing
    | .group .round (.name "in" :: _) :: _ => anyGroup [.round]
    | _ => nothing)

def namedFields : Form :=
  inside .curly (list (attributes ++ visibility ++ anyName ++ spelled ":" ++
    (word ["struct", "union"] ++ anyGroup [.curly] <|> rule (.type true))))

def tupleFields : Form :=
  inside .round (list (attributes ++ visibility ++ rule (.type true)))

end RecordMapping.Declaration.Form
