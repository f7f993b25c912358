import TemplateLinker.Scope.Tracker
import TemplateLinker.Template.Visitor
import TemplateLinker.Transform

/-!
# Linking — resolving the free references of a template

One walk over a template hands every free callee of a mustache or sub-expression, and every free
element tag, to the resolver, in document order, and records what it is resolved to.  A name is bound
inside a block that declares it as a parameter; the parameters of an element bind nothing.  A scope is left
again when the walk over its block ends, however it ends.
-/

namespace TemplateLinker

/-- A question to the resolver, and the scopes that were open then, innermost first. -/
structure Asked where
  query : Query
  scopes : List Scope
  deriving DecidableEq, Repr

/-- A walk in progress. -/
structure LinkState where
  tracker : ScopeTracker := {}
  dependencies : DependencyMap := {}
  asked : List Asked := []
  /-- How often a scope was left while none was open. -/
  unmatchedExits : Nat := 0

namespace LinkState

def queries (s : LinkState) : List Query := s.asked.map Asked.query

def ask (s : LinkState) (q : Query) : LinkState :=
  { s with asked := s.asked ++ [⟨q, s.tracker.scopes⟩] }

def record (s : LinkState) (module : ModuleName) (r : Resolution) : LinkState :=
  { s with dependencies := s.dependencies.record module r }

/-- Leaves the innermost scope. -/
def leave (s : LinkState) : LinkState :=
  match s.tracker.exit? with
  | some t => { s with tracker := t }
  | none => { s with unmatchedExits := s.unmatchedExits + 1 }

@[simp] theorem queries_ask (s : LinkState) (q : Query) : (s.ask q).queries = s.queries ++ [q] := by
  simp [ask, queries]

theorem leave_enter {names : List String} (s : LinkState) (h : names ≠ []) :
    leave { s with tracker := s.tracker.enter names } = s := by
  simp [leave, ScopeTracker.exit?_enter, h]

end LinkState

/-- Walks that keep their state when they fail. -/
abbrev Linking := ExceptT TransformError (StateM LinkState)

namespace Linking

/-- Hands a reference to the resolver unless its name is bound. -/
def resolve (resolver : Resolver) (module : ModuleName) (kind : ReferenceKind) (name : String)
    (span : Span) : Linking Unit := fun s =>
  if s.tracker.isBound name then (.ok (), s)
  else
    let asked := s.ask ⟨kind, name, module⟩
    match resolver kind name module with
    | .error e => (.error (.resolve name span e), asked)
    | .ok none => (.ok (), asked)
    | .ok (some r) => (.ok (), asked.record module r)

/-- Resolves a callee that has a name. -/
def resolveCallee (resolver : Resolver) (module : ModuleName) (kind : ReferenceKind) (call : Call) :
    Linking Unit :=
  match call.name? with
  | some name => resolve resolver module kind name call.callee.span
  | none => pure ()

/-- Runs a walk inside a scope. -/
def withScope (names : List String) (walk : Linking Unit) : Linking Unit := fun s =>
  if names = [] then walk s
  else
    let ended := walk { s with tracker := s.tracker.enter names }
    (ended.1, ended.2.leave)

@[simp] theorem withScope_nil (walk : Linking Unit) : withScope [] walk = walk := rfl

/-- Resolves the references of a template. -/
def visitor (resolver : Resolver) (module : ModuleName) : Visitor Linking where
  block b walk := withScope b.params walk
  mustache n walk := do
    resolveCallee resolver module .mustache n.call
    walk
  subExpression call _ walk := do
    resolveCallee resolver module .subExpression call
    walk
  element n walk := do
    resolve resolver module .element n.tag n.span
    walk.attributes
    walk.modifiers
    walk.statements

/-- Walks a template for a module that has been started. -/
def walk (resolver : Resolver) (module : ModuleName) (t : Template) (s : LinkState) :
    Except TransformError Unit × LinkState :=
  StateT.run (ExceptT.run ((visitor resolver module).visitTemplate t)) s

end Linking

/-- The name of the pass that resolves references. -/
def linkingName : String := "stencil-build-time-resolver"

namespace Build

/-- The walk of the linking pass: the module is started, then its template is walked. -/
def link (resolver : Resolver) (module : ModuleName) (t : Template) (b : Build) :
    Except TransformError Unit × Build :=
  let ended := Linking.walk resolver module t { dependencies := b.dependencies.start module }
  (ended.1, { b with
    dependencies := ended.2.dependencies
    queries := b.queries ++ ended.2.queries })

end Build

/-- The pass that resolves references and records them in the dependencies of the build. -/
def Pass.linking (resolver : Resolver) : Pass := ⟨linkingName, Build.link resolver⟩

/-- A linking pass with dependencies of its own, of which the build learns nothing. -/
def Pass.isolatedLinking (resolver : Resolver) : Pass :=
  .ofVerdict linkingName fun module t => (Build.link resolver module t {}).1

end TemplateLinker
