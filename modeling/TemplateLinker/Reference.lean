import TemplateLinker.Json.Decoder

/-!
# Reference — what a template refers to, and what a reference resolves to

A free name of a template is a reference of one of three kinds.  A resolver answers it with a
`Resolution`, the modules to import for it, with nothing, or with an error.
-/

namespace TemplateLinker

/-- The name of a module. -/
abbrev ModuleName := String

inductive ReferenceKind where
  | subExpression
  | mustache
  | element
  deriving DecidableEq, Repr

def ReferenceKind.text : ReferenceKind → String
  | .subExpression => "sub-expression"
  | .mustache => "mustache"
  | .element => "element"

/-- A module to import and the name under which the runtime finds it. -/
structure ModuleSpec where
  runtimeName : String
  path : String
  deriving DecidableEq, Repr

structure Resolution where
  modules : List ModuleSpec
  deriving DecidableEq, Repr

namespace Resolution

def empty : Resolution := ⟨[]⟩

def single (runtimeName path : String) : Resolution := ⟨[⟨runtimeName, path⟩]⟩

def isEmpty (r : Resolution) : Bool := r.modules.isEmpty

end Resolution

inductive ResolveError where
  | unresolved (kind : ReferenceKind) (name : String) (module : ModuleName)
  | other (message : String)
  deriving DecidableEq, Repr

namespace ResolveError

def message : ResolveError → String
  | .unresolved kind name module =>
    "unable to resolve " ++ kind.text ++ " `" ++ name ++ "` referenced from " ++ module
  | .other message => "resolver failed: " ++ message

def code : ResolveError → String
  | .unresolved .. => "stencil::resolve::unresolved"
  | .other .. => "stencil::resolve::other"

end ResolveError

/-- Answers a reference made in a module. -/
abbrev Resolver := ReferenceKind → String → ModuleName → Except ResolveError (Option Resolution)

/-- Fails on the names listed and asks `resolver` for the others. -/
def Resolver.failingOn (names : List String) (resolver : Resolver) : Resolver :=
  fun kind name module =>
    if name ∈ names then .error (.other (name ++ " is broken")) else resolver kind name module

/-! ### Written form -/

namespace ModuleSpec

def toJson (s : ModuleSpec) : Json :=
  .object [("runtimeName", .string s.runtimeName), ("path", .string s.path)]

structure Draft where
  runtimeName : Option String := none
  path : Option String := none

def record : Json.Record Draft ModuleSpec where
  name := "ModuleImportSpec"
  fields := [
    { name := "runtimeName", required := true, Value := String, reader := Json.Decode.string
      get := Draft.runtimeName, set := fun v d => { d with runtimeName := some v } },
    { name := "path", required := true, Value := String, reader := Json.Decode.string
      get := Draft.path, set := fun v d => { d with path := some v } }]
  blank := {}
  finish := fun d => ⟨d.runtimeName.getD "", d.path.getD ""⟩

def reader : Json.Reader ModuleSpec := record.reader

end ModuleSpec

namespace Resolution

def toJson (r : Resolution) : Json := .object [("modules", .array (r.modules.map ModuleSpec.toJson))]

structure Draft where
  modules : Option (List ModuleSpec) := none

def record : Json.Record Draft Resolution where
  name := "Resolution"
  fields := [
    { name := "modules", required := true, Value := List ModuleSpec
      reader := Json.Decode.list ModuleSpec.reader
      get := Draft.modules, set := fun v d => { d with modules := some v } }]
  blank := {}
  finish := fun d => ⟨d.modules.getD []⟩

def reader : Json.Reader Resolution := record.reader

end Resolution

end TemplateLinker
