import TemplateLinker.Linking

/-!
# Linking.Linker — templates linked one after another

A linker keeps the dependencies of all modules, and one walk that may be taken up again: it then goes
on writing to its module, which is not started anew.
-/

namespace TemplateLinker

structure Linker where
  dependencies : DependencyMap := {}
  /-- The module and the open scopes of the walk that is kept. -/
  kept : Option (ModuleName × ScopeTracker) := none

namespace Linker

inductive Step where
  /-- A walk of its own, used once. -/
  | once (module : ModuleName) (t : Template)
  /-- A walk for a module, kept from now on. -/
  | anew (module : ModuleName) (t : Template)
  /-- The walk that is kept. -/
  | again (t : Template)

structure Reply where
  result : Except TransformError Unit
  module : ModuleName
  queries : List Query
  dependencies : Option (List Resolution)
  /-- The number of open scopes of the walk that is kept. -/
  depth : Option Nat
  modules : List ModuleName

/-- Walks a template for a module, the dependencies and open scopes being given. -/
def walk (resolver : Resolver) (module : ModuleName) (t : Template) (d : DependencyMap)
    (tracker : ScopeTracker) : Except TransformError Unit × LinkState :=
  Linking.walk resolver module t { dependencies := d, tracker := tracker }

def reply (l : Linker) (module : ModuleName) (result : Except TransformError Unit)
    (queries : List Query) : Reply :=
  ⟨result, module, queries, l.dependencies.lookup module, l.kept.map (·.2.depth),
    l.dependencies.modules⟩

/-- A step, and the linker after it; without a walk that is kept there is nothing to take up. -/
def step (resolver : Resolver) (l : Linker) : Step → Option (Reply × Linker)
  | .once module t =>
    let ended := walk resolver module t (l.dependencies.start module) {}
    let l := { l with dependencies := ended.2.dependencies }
    some (l.reply module ended.1 ended.2.queries, l)
  | .anew module t =>
    let ended := walk resolver module t (l.dependencies.start module) {}
    let l : Linker := ⟨ended.2.dependencies, some (module, ended.2.tracker)⟩
    some (l.reply module ended.1 ended.2.queries, l)
  | .again t =>
    match l.kept with
    | none => none
    | some (module, tracker) =>
      let ended := walk resolver module t l.dependencies tracker
      let l : Linker := ⟨ended.2.dependencies, some (module, ended.2.tracker)⟩
      some (l.reply module ended.1 ended.2.queries, l)

/-- The replies to a sequence of steps. -/
def run (resolver : Resolver) (l : Linker) : List Step → List (Option Reply)
  | [] => []
  | s :: rest =>
    match step resolver l s with
    | some (reply, l) => some reply :: run resolver l rest
    | none => none :: run resolver l rest

end Linker

end TemplateLinker
