import TemplateLinker.Json.Decoder

/-!
# Environment — feature flags and settings of a host compiler

`Environment.merge` writes a JSON object over an environment: the members of its `FEATURES` object are
flags, its other members are settings.  Anything but an object changes nothing.
-/

namespace TemplateLinker

structure Environment where
  features : OrderedMap Json := .empty
  settings : OrderedMap Json := .empty

instance : Inhabited Environment := ⟨{}⟩

namespace Environment

/-- The member under which an object holds its flags. -/
def featuresKey : String := "FEATURES"

def feature? (e : Environment) (name : String) : Option Json := e.features.get? name

/-- Only the value `true` enables a feature. -/
def isEnabled (e : Environment) (name : String) : Bool :=
  match e.feature? name with
  | some (.bool b) => b
  | _ => false

/-- The flags that an object with these members sets. -/
def flagsOf (members : Entries Json) : Entries Json :=
  ((Entries.get? featuresKey members).bind Json.members?).getD []

/-- The settings that an object with these members makes. -/
def settingsOf (members : Entries Json) : Entries Json := members.filter fun m => m.1 ≠ featuresKey

def merge (base : Environment) (overrides : Json) : Environment :=
  match overrides.members? with
  | none => base
  | some ms => ⟨base.features.insertAll (flagsOf ms), base.settings.insertAll (settingsOf ms)⟩

theorem merge_of_members?_eq_none {overrides : Json} (base : Environment)
    (h : overrides.members? = none) : base.merge overrides = base := by
  simp [merge, h]

/-- Equality without regard to the order of keys. -/
def same (a b : Environment) : Bool :=
  Json.sameEntries a.features.entries b.features.entries
    && Json.sameEntries a.settings.entries b.settings.entries

/-! ### Written form -/

def toJson (e : Environment) : Json :=
  .object [("features", .object e.features.entries), ("env", .object e.settings.entries)]

structure Draft where
  features : Option (OrderedMap Json) := none
  settings : Option (OrderedMap Json) := none

def record : Json.Record Draft Environment where
  name := "EnvironmentConfig"
  fields := [
    { name := "features", required := false, Value := OrderedMap Json
      reader := Json.Decode.map Json.value
      get := Draft.features, set := fun v d => { d with features := some v } },
    { name := "env", required := false, Value := OrderedMap Json
      reader := Json.Decode.map Json.value
      get := Draft.settings, set := fun v d => { d with settings := some v } }]
  blank := {}
  finish := fun d => ⟨d.features.getD .empty, d.settings.getD .empty⟩

def reader : Json.Reader Environment := record.reader

end Environment

end TemplateLinker
