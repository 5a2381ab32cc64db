import RecordMapping.Config.Settings
import RecordMapping.Document.Toml
import RecordMapping.Error
/-!
Reading settings from documents. Names that are no settings are refused, and what a document
leaves out has its standard value.
-/
namespace RecordMapping

private def orStandard {α : Type} (standard : α) (read : Document → Option α) :
    Option Document → Option α
  | none => some standard
  | some d => read d

private def hasOnly (names : List String) : Document → Bool
  | .table entries => entries.all fun e => names.contains e.name
  | _ => true

def EmbeddedPolicy.ofDocument? (dialect : Dialect) (d : Document) : Option EmbeddedPolicy :=
  (d.unitName? dialect).bind ofName?

namespace Settings

private def mappingSection? (dialect : Dialect) (d : Document) : Option EmbeddedPolicy :=
  if !hasOnly ["embedded"] d then none
  else
    match d.members? dialect ["embedded"] 0 with
    | some [embedded] =>
      orStandard standard.embedded (EmbeddedPolicy.ofDocument? dialect) embedded
    | _ => none

private def querySection? (dialect : Dialect) (d : Document) : Option (Bool × Bool) :=
  let names := ["strict_field_case", "coerce_arguments"]
  if !hasOnly names d then none
  else
    match d.members? dialect names 0 with
    | some [strict, coerce] => do
      return (← orStandard standard.strictFieldCase Document.bool? strict,
        ← orStandard standard.coerceArguments Document.bool? coerce)
    | _ => none

def ofDocument? (dialect : Dialect) (d : Document) : Option Settings :=
  if !hasOnly ["mapping", "query"] d then none
  else
    match d.members? dialect ["mapping", "query"] 0 with
    | some [mapping, query] => do
      let embedded ← orStandard standard.embedded (mappingSection? dialect) mapping
      let (strict, coerce) ← orStandard (standard.strictFieldCase, standard.coerceArguments)
        (querySection? dialect) query
      return ⟨embedded, strict, coerce⟩
    | _ => none

def toDocument (s : Settings) : Document :=
  .table [
    ⟨"mapping", .table [⟨"embedded", .text s.embedded.name⟩]⟩,
    ⟨"query", .table [
      ⟨"strict_field_case", .bool s.strictFieldCase⟩,
      ⟨"coerce_arguments", .bool s.coerceArguments⟩]⟩]

def ofToml (s : String) : Except ConfigError Settings :=
  match (Toml.read? s).bind (ofDocument? Toml.dialect) with
  | some settings => .ok settings
  | none => .error .malformed

def ofFile (path : String) (bytes : Option ByteArray) : Except ConfigError Settings :=
  match bytes with
  | none => .error (.unreadable path "No such file or directory (os error 2)")
  | some bytes =>
    match String.fromUTF8? bytes with
    | none => .error (.unreadable path "stream did not contain valid UTF-8")
    | some s => ofToml s

end Settings
end RecordMapping
