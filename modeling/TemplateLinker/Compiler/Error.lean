import TemplateLinker.Text.LineMap
import TemplateLinker.Transform

/-!
# Compiler.Error — why a template does not compile
-/

namespace TemplateLinker

inductive CompileError where
  | parse (module : ModuleName) (message : String)
  | transform (module : ModuleName) (position : Position) (source : TransformError)
  deriving DecidableEq, Repr

namespace CompileError

def message : CompileError → String
  | .parse module text => module ++ ": parse error: " ++ text
  | .transform module position source => module ++ ":" ++ position.render ++ ": " ++ source.message

def code : CompileError → String
  | .parse .. => "stencil::compile::parse"
  | .transform .. => "stencil::compile::transform"

/-- An error of a pass over the template of `source`: it points at the beginning of the error's span, or
at the beginning of the source if it has none. -/
def ofTransform (module : ModuleName) (source : String) (e : TransformError) : CompileError :=
  let position := match e.span? with
    | some span => (LineMap.ofText source).locate span.start
    | none => ⟨0, 0⟩
  .transform module position e

end CompileError

end TemplateLinker
