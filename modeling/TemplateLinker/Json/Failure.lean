import TemplateLinker.Json.Basic
import TemplateLinker.Decimal.Numeral
import TemplateLinker.Text.Quoted

/-!
# Json.Failure — why a JSON text cannot be read

The text ends too early, it is malformed, or it is well formed so far and of the wrong shape.
`Mismatch.message` is the wording of the third kind.
-/

namespace TemplateLinker.Json

/-- What stands where something else is wanted. -/
inductive Found where
  | null
  | bool (b : Bool)
  | number (n : Number)
  | string (s : String)
  | sequence
  | map

/-- What is wanted. -/
inductive Expected where
  | record (name : String)
  | string
  | map
  | sequence
  | unit

inductive Mismatch where
  | invalidType (found : Found) (expected : Expected)
  | missingField (name : String)
  | duplicateField (name : String)
  /-- An array form of a record that ends after `length` of its fields. -/
  | invalidLength (length : Nat) (record : String) (fields : Nat)
  | unknownVariant (name : String) (known : List String)

inductive Failure where
  | endOfText
  | malformed
  | mismatch (cause : Mismatch)

def Found.render : Found → String
  | .null => "null"
  | .bool b => s!"boolean `{b}`"
  | .number (.integer n) => s!"integer `{n}`"
  | .number (.real x) => "floating point `" ++ String.ofList x.render ++ "`"
  | .string s => "string " ++ String.ofList (Text.Quoted.shown s.toList)
  | .sequence => "sequence"
  | .map => "map"

def Expected.render : Expected → String
  | .record name => "struct " ++ name
  | .string => "a string"
  | .map => "a map"
  | .sequence => "a sequence"
  | .unit => "unit"

/-- The names between backquotes, with `or` between each two. -/
def alternatives (names : List String) : String :=
  String.intercalate " or " (names.map fun n => "`" ++ n ++ "`")

def Mismatch.message : Mismatch → String
  | .invalidType found expected => "invalid type: " ++ found.render ++ ", expected " ++ expected.render
  | .missingField name => "missing field `" ++ name ++ "`"
  | .duplicateField name => "duplicate field `" ++ name ++ "`"
  | .invalidLength length record fields =>
    s!"invalid length {length}, expected struct {record} with {fields} element"
      ++ (if fields = 1 then "" else "s")
  | .unknownVariant name known => "unknown variant `" ++ name ++ "`, expected " ++ alternatives known

/-- The kind of a failure: `eof`, `syntax` or `data`. -/
def Failure.category : Failure → String
  | .endOfText => "eof"
  | .malformed => "syntax"
  | .mismatch _ => "data"

def Failure.message? : Failure → Option String
  | .mismatch cause => some cause.message
  | _ => none

end TemplateLinker.Json
