import RecordMapping.Declaration.Grammar
import RecordMapping.Entity.DataType
/-!
Type expressions: the declared types of fields, such as `Option<Vec<u8>>`, as rows of tokens. A
wrapper is recognised by the last name of a path, and what it wraps is its first argument that is a
type.
-/
namespace RecordMapping.Declaration

structure TypeExpr where
  tokens : List Token

namespace TypeExpr

/-- The type that a text denotes. A text that denotes none is taken as it is. -/
def parse (s : String) : TypeExpr :=
  let ts := Token.ofText s
  ⟨((Form.type true).readAll? ts).getD ts⟩

def text (t : TypeExpr) : String :=
  Token.textOf t.tokens

/-- Whether an argument is a type, and not a lifetime, a constant or a bound. -/
def isTypeArgument (argument : List Token) : Bool :=
  let startsType : Bool := match argument with
    | [] | .literal _ :: _ | .sign "-" _ :: _ | .group .curly _ :: _ => false
    | .name "true" :: _ | .name "false" :: _ => false
    | _ => !Token.isLifetime argument
  let isBound : Bool := argument.any fun
    | .sign s _ => s == "=" || s == ":"
    | _ => false
  startsType && !isBound

/-- The last name of a path, with its arguments. A path is names between double colons, which a type
in angle brackets may start. Parentheses after a name may be followed by a result in parentheses. -/
def lastSegment? : List Token → Option (String × List (List Token))
  | [.name n] => some (n, [])
  | [.name n, .group .angle inside] | [.name n, .sign "::" _, .group .angle inside] =>
    some (n, Token.arguments inside)
  | .sign "::" _ :: rest | .group .angle _ :: .sign "::" _ :: rest
  | .name _ :: .sign "::" _ :: rest | .name _ :: .group _ _ :: .sign "::" _ :: rest
  | .name _ :: .group .round _ :: .sign "->" _ :: .group .round _ :: .sign "::" _ :: rest =>
    lastSegment? rest
  | _ => none

/-- Whether an expression is made of bounds, and not of the path that may follow its first name. -/
def isBounds (t : TypeExpr) : Bool :=
  match t.tokens with
  | .name n :: _ => ["dyn", "impl", "for"].contains n
  | _ => false

def inner? (wrapper : String) (t : TypeExpr) : Option TypeExpr :=
  if t.isBounds then none
  else
    match lastSegment? t.tokens with
    | some (name, args) =>
      if name = wrapper then (args.find? isTypeArgument).map TypeExpr.mk else none
    | none => none

def scalarOfName? : String → Option DataType
  | "i8" => some (.int (.signed .w8))
  | "i16" => some (.int (.signed .w16))
  | "i32" => some (.int (.signed .w32))
  | "i64" | "isize" => some (.int (.signed .w64))
  | "u8" => some (.int (.unsigned .w8))
  | "u16" => some (.int (.unsigned .w16))
  | "u32" => some (.int (.unsigned .w32))
  | "u64" | "usize" => some (.int (.unsigned .w64))
  | "f32" => some .single
  | "f64" => some .double
  | "bool" => some .bool
  | "String" => some .text
  | "Value" => some .value
  | _ => none

def scalar? (t : TypeExpr) : Option DataType :=
  if t.isBounds then none
  else
    match lastSegment? t.tokens with
    | some (name, []) => scalarOfName? name
    | _ => none

private def dataTypeWithin : Nat → TypeExpr → Option DataType
  | 0, _ => none
  | fuel + 1, t =>
    match t.inner? "Option", t.inner? "Vec" with
    | some inner, _ => (dataTypeWithin fuel inner).map .option
    | _, some inner => (dataTypeWithin fuel inner).map .list
    | none, none => t.scalar?

/-- The type of plain data that an expression stands for; `none` for types that a program defines
itself and for borrowed texts. -/
def dataType? (t : TypeExpr) : Option DataType :=
  dataTypeWithin (t.text.length + 1) t

theorem lastSegment?_of_inner? {wrapper : String} {t inner : TypeExpr}
    (h : t.inner? wrapper = some inner) :
    ∃ args, lastSegment? t.tokens = some (wrapper, args) := by
  rw [inner?] at h
  split at h
  · cases h
  · split at h
    · next name args hlast =>
      split at h
      · next hname => exact ⟨args, hname ▸ hlast⟩
      · cases h
    · cases h

theorem wrapper_eq {v w : String} {t inner other : TypeExpr} (hv : t.inner? v = some inner)
    (hw : t.inner? w = some other) : v = w := by
  obtain ⟨_, hlast⟩ := lastSegment?_of_inner? hv
  obtain ⟨_, hlast'⟩ := lastSegment?_of_inner? hw
  exact (Prod.mk.inj (Option.some.inj (hlast.symm.trans hlast'))).1

theorem dataType?_of_vec {t : TypeExpr} {type : DataType} (h : (t.inner? "Vec").isSome = true)
    (hd : t.dataType? = some type) : ∃ item, type = .list item := by
  obtain ⟨inner, hvec⟩ := Option.isSome_iff_exists.1 h
  rw [dataType?, dataTypeWithin] at hd
  split at hd
  · next _ _ _ hopt => exact absurd (wrapper_eq hopt hvec) (by decide)
  · obtain ⟨item, _, rfl⟩ := Option.map_eq_some_iff.1 hd
    exact ⟨item, rfl⟩
  · next hnone => simp [hvec] at hnone

end TypeExpr
end RecordMapping.Declaration
