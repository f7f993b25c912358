import TemplateLinker.Dependencies.Map
import TemplateLinker.Template.Basic

/-!
# Transform — passes over a template

A pass is made for a module and run over its template.  It may note lines, record dependencies and ask
references, all of which go into the state of the build, and it succeeds or fails with a
`TransformError`.
-/

namespace TemplateLinker

inductive TransformError where
  /-- The resolver failed on the reference `name` at `span`. -/
  | resolve (name : String) (span : Span) (source : ResolveError)
  | rejected (plugin message : String) (span : Option Span)
  deriving DecidableEq, Repr

namespace TransformError

def span? : TransformError → Option Span
  | .resolve _ span _ => some span
  | .rejected _ _ span => span

def message : TransformError → String
  | .resolve name _ source => "while resolving `" ++ name ++ "`: " ++ source.message
  | .rejected plugin message _ => "plugin `" ++ plugin ++ "` failed: " ++ message

def code : TransformError → String
  | .resolve .. => "stencil::transform::resolve"
  | .rejected .. => "stencil::transform::plugin"

end TransformError

/-- A reference that was handed to a resolver. -/
structure Query where
  kind : ReferenceKind
  name : String
  module : ModuleName
  deriving DecidableEq, Repr

/-- What a build has gathered: the dependencies of its modules, the references asked, and the lines
noted. -/
structure Build where
  dependencies : DependencyMap := {}
  queries : List Query := []
  notes : List String := []

instance : Inhabited Build := ⟨{}⟩

def Build.note (b : Build) (line : String) : Build := { b with notes := b.notes ++ [line] }

/-- A pass over templates: for a module and its template, what it does to the build and whether it
succeeds. -/
structure Pass where
  name : String
  run : ModuleName → Template → Build → Except TransformError Unit × Build

/-- A pass that only judges the template. -/
def Pass.ofVerdict (name : String) (verdict : ModuleName → Template → Except TransformError Unit) : Pass :=
  ⟨name, fun module template build => (verdict module template, build)⟩

/-- Runs passes in order up to the first that fails. -/
def runPasses (module : ModuleName) (template : Template) :
    List Pass → Build → Except TransformError Unit × Build
  | [], build => (.ok (), build)
  | p :: ps, build =>
    match p.run module template build with
    | (.error e, build) => (.error e, build)
    | (.ok (), build) => runPasses module template ps build

theorem runPasses_append (module : ModuleName) (template : Template) (ps qs : List Pass)
    (build : Build) :
    runPasses module template (ps ++ qs) build =
      match runPasses module template ps build with
      | (.error e, build) => (.error e, build)
      | (.ok (), build) => runPasses module template qs build := by
  induction ps generalizing build with
  | nil => rfl
  | cons p ps ih =>
    simp only [List.cons_append, runPasses]
    split
    · rfl
    · next build' _ => exact ih build'

end TemplateLinker
