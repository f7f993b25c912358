import TemplateLinker.Reference
import TemplateLinker.Resolver.ComponentTag

/-!
# Resolver.Table — resolving by table

Helpers answer mustaches and sub-expressions; components answer elements, and mustaches that no helper
answers.  An element without a component is no reference, unless the table is strict and its tag looks
like a component.
-/

namespace TemplateLinker

/-- What to do about an element that looks like a component and is in no table. -/
inductive MissingPolicy where
  | ignore
  | error
  deriving DecidableEq, Repr

/-- Modules by name. -/
abbrev ModuleTable := OrderedMap (List ModuleSpec)

structure ResolverTable where
  helpers : ModuleTable := .empty
  components : ModuleTable := .empty
  onMissing : MissingPolicy := .ignore

instance : Inhabited ResolverTable := ⟨{}⟩

namespace ModuleTable

def resolve (t : ModuleTable) (name : String) : Option Resolution :=
  (OrderedMap.get? t name).map Resolution.mk

end ModuleTable

namespace ResolverTable

def withHelper (t : ResolverTable) (name runtimeName path : String) : ResolverTable :=
  { t with helpers := t.helpers.insert name [⟨runtimeName, path⟩] }

def withComponent (t : ResolverTable) (name : String) (modules : List ModuleSpec) : ResolverTable :=
  { t with components := t.components.insert name modules }

def withPolicy (t : ResolverTable) (policy : MissingPolicy) : ResolverTable :=
  { t with onMissing := policy }

/-- Answers by the tables alone. -/
def lookup (t : ResolverTable) (name : String) : ReferenceKind → Option Resolution
  | .subExpression => ModuleTable.resolve t.helpers name
  | .mustache => (ModuleTable.resolve t.helpers name).or (ModuleTable.resolve t.components name)
  | .element => ModuleTable.resolve t.components name

/-- Whether an element without an entry is an error. -/
def refuses (t : ResolverTable) (kind : ReferenceKind) (name : String) : Bool :=
  kind = .element && t.onMissing = .error && looksLikeComponent name

def resolver (t : ResolverTable) : Resolver := fun kind name module =>
  match t.lookup name kind with
  | some r => .ok (some r)
  | none => if t.refuses kind name then .error (.unresolved kind name module) else .ok none

/-! ### Written form -/

end ResolverTable

namespace MissingPolicy

def text : MissingPolicy → String
  | .ignore => "ignore"
  | .error => "error"

def toJson (p : MissingPolicy) : Json := .string p.text

def variants : Entries MissingPolicy := [("ignore", .ignore), ("error", .error)]

def reader : Json.Reader MissingPolicy := Json.Decode.choice variants

end MissingPolicy

namespace ModuleTable

def toJson (t : ModuleTable) : Json :=
  .object (t.entries.map fun e => (e.1, .array (e.2.map ModuleSpec.toJson)))

def reader : Json.Reader ModuleTable := Json.Decode.map (Json.Decode.list ModuleSpec.reader)

end ModuleTable

namespace ResolverTable

def toJson (t : ResolverTable) : Json :=
  .object [("helpers", ModuleTable.toJson t.helpers), ("components", ModuleTable.toJson t.components),
    ("onMissing", t.onMissing.toJson)]

structure Draft where
  helpers : Option ModuleTable := none
  components : Option ModuleTable := none
  onMissing : Option MissingPolicy := none

def record : Json.Record Draft ResolverTable where
  name := "ResolverConfig"
  fields := [
    { name := "helpers", required := false, Value := ModuleTable, reader := ModuleTable.reader
      get := Draft.helpers, set := fun v d => { d with helpers := some v } },
    { name := "components", required := false, Value := ModuleTable, reader := ModuleTable.reader
      get := Draft.components, set := fun v d => { d with components := some v } },
    { name := "onMissing", required := false, Value := MissingPolicy, reader := MissingPolicy.reader
      get := Draft.onMissing, set := fun v d => { d with onMissing := some v } }]
  blank := {}
  finish := fun d => ⟨d.helpers.getD .empty, d.components.getD .empty, d.onMissing.getD .ignore⟩

def reader : Json.Reader ResolverTable := record.reader

end ResolverTable

end TemplateLinker
