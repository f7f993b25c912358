import TemplateLinker.Environment
import TemplateLinker.Resolver.Table

/-!
# Config — emit options and the configuration that bundles them

A configuration holds environment overrides, emit options and a resolver table.
-/

namespace TemplateLinker

/-- The names used in an assembled module. -/
structure EmitOptions where
  registryCallee : String := "window.define"
  templateFactory : String := "Ember.HTMLBars.template"
  bindingPrefix : String := "a"
  deriving DecidableEq, Repr

instance : Inhabited EmitOptions := ⟨{}⟩

namespace EmitOptions

def toJson (o : EmitOptions) : Json :=
  .object [("registryCallee", .string o.registryCallee),
    ("templateFactory", .string o.templateFactory), ("bindingPrefix", .string o.bindingPrefix)]

structure Draft where
  registryCallee : Option String := none
  templateFactory : Option String := none
  bindingPrefix : Option String := none

def ofDraft (d : Draft) : EmitOptions :=
  let usual : EmitOptions := {}
  ⟨d.registryCallee.getD usual.registryCallee, d.templateFactory.getD usual.templateFactory,
    d.bindingPrefix.getD usual.bindingPrefix⟩

def record : Json.Record Draft EmitOptions where
  name := "EmitOptions"
  fields := [
    { name := "registryCallee", required := false, Value := String, reader := Json.Decode.string
      get := Draft.registryCallee, set := fun v d => { d with registryCallee := some v } },
    { name := "templateFactory", required := false, Value := String, reader := Json.Decode.string
      get := Draft.templateFactory, set := fun v d => { d with templateFactory := some v } },
    { name := "bindingPrefix", required := false, Value := String, reader := Json.Decode.string
      get := Draft.bindingPrefix, set := fun v d => { d with bindingPrefix := some v } }]
  blank := {}
  finish := ofDraft

def reader : Json.Reader EmitOptions := record.reader

end EmitOptions

structure Config where
  env : Json := .null
  emit : EmitOptions := {}
  resolver : ResolverTable := {}

instance : Inhabited Config := ⟨{}⟩

namespace Config

def toJson (c : Config) : Json :=
  .object [("env", c.env), ("emit", c.emit.toJson), ("resolver", c.resolver.toJson)]

structure Draft where
  env : Option Json := none
  emit : Option EmitOptions := none
  resolver : Option ResolverTable := none

def record : Json.Record Draft Config where
  name := "StencilConfig"
  fields := [
    { name := "env", required := false, Value := Json, reader := Json.value
      get := Draft.env, set := fun v d => { d with env := some v } },
    { name := "emit", required := false, Value := EmitOptions, reader := EmitOptions.reader
      get := Draft.emit, set := fun v d => { d with emit := some v } },
    { name := "resolver", required := false, Value := ResolverTable, reader := ResolverTable.reader
      get := Draft.resolver, set := fun v d => { d with resolver := some v } }]
  blank := {}
  finish := fun d => ⟨d.env.getD .null, d.emit.getD {}, d.resolver.getD {}⟩

def reader : Json.Reader Config := record.reader

def parse (text : String) : Except Json.Failure Config := Json.readText reader text

/-- What is said about a configuration of the wrong shape. -/
def message (cause : Json.Mismatch) : String := "invalid configuration: " ++ cause.message

end Config

end TemplateLinker
