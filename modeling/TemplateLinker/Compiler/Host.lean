import TemplateLinker.Compiler.Error
import TemplateLinker.Compiler.Plugin
import TemplateLinker.Environment
import TemplateLinker.Template.Wire

/-!
# Compiler.Host — host compilers

A host keeps the plugins registered with it and an environment, and turns a source into code.  `WireHost`
parses, runs its passes in the order of their registration and writes the tree as JSON; the first error
ends the compilation.  `EchoHost` runs nothing and shows what it was given.
-/

namespace TemplateLinker

/-- A source to compile; `contents` is the text it was taken from. -/
structure Request where
  module : ModuleName
  source : String
  contents : String

class Host (H : Type) where
  register : H → Plugin → H
  environment : H → Environment
  withEnvironment : H → Environment → H
  compile : H → Request → Build → Except CompileError String × Build

/-- What a parser gets. -/
structure ParseRequest where
  module : ModuleName
  source : String
  extensions : List SyntaxExtension
  environment : Environment

/-- Whether any extension has the keyword. -/
def ParseRequest.hasKeyword (r : ParseRequest) (keyword : String) : Bool :=
  r.extensions.any (·.hasKeyword keyword)

/-- A parser gives the lines it notes, and a template or an error. -/
abbrev Parser := ParseRequest → List String × Except CompileError Template

/-! ### The wire host -/

structure WireHost where
  parser : Parser
  passes : List Pass := []
  extensions : List SyntaxExtension := []
  environment : Environment := {}

namespace WireHost

def register (h : WireHost) : Plugin → WireHost
  | .pass p => { h with passes := h.passes ++ [p] }
  | .syntaxExtension e => { h with extensions := h.extensions ++ [e] }

/-- The code of a compiled template. -/
def code (module : ModuleName) (t : Template) : String :=
  (Json.object [("moduleName", .string module), ("block", t.body.toJson)]).text

def parse (h : WireHost) (r : Request) : List String × Except CompileError Template :=
  h.parser ⟨r.module, r.source, h.extensions, h.environment⟩

def compile (h : WireHost) (r : Request) (b : Build) : Except CompileError String × Build :=
  let parsed := h.parse r
  let b := { b with notes := b.notes ++ parsed.1 }
  match parsed.2 with
  | .error e => (.error e, b)
  | .ok t =>
    match runPasses r.module t h.passes b with
    | (.error e, b) => (.error (.ofTransform r.module r.source e), b)
    | (.ok (), b) => (.ok (code r.module t), b)

instance : Host WireHost where
  register := register
  environment := WireHost.environment
  withEnvironment h e := { h with environment := e }
  compile := compile

end WireHost

/-! ### The echo host -/

structure EchoHost where
  /-- What it shall fail with, if anything. -/
  failure : Option String := none
  registered : List String := []
  environment : Environment := {}

namespace EchoHost

def compile (h : EchoHost) (r : Request) (b : Build) : Except CompileError String × Build :=
  match h.failure with
  | some message => (.error (.parse r.module message), b)
  | none => (.ok (r.module ++ "|" ++ r.source ++ "|" ++ r.contents), b)

instance : Host EchoHost where
  register h p := { h with registered := h.registered ++ [p.kind.text ++ " " ++ p.name] }
  environment := EchoHost.environment
  withEnvironment h e := { h with environment := e }
  compile := compile

end EchoHost

end TemplateLinker
