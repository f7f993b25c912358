import TemplateLinker.Scope.Tracker

/-!
# Scope.Guard — scopes that are left by dropping a guard

Entering a scope gives a guard, numbered from 0; a guard without a scope is inert.  Dropping an active
guard leaves the innermost open scope, whichever that is, and spends the guard.  Leaving a scope when none
is open is an unmatched exit; the tracker stays empty then.
-/

namespace TemplateLinker

/-- A tracker and, by number, whether each guard is still active. -/
structure GuardedTracker where
  tracker : ScopeTracker := {}
  active : List Bool := []
  deriving DecidableEq, Repr

namespace GuardedTracker

inductive Step where
  | enter (names : List String)
  | drop (guard : Nat)
  | exit
  | bound (names : List String)
  deriving DecidableEq, Repr

inductive Reply where
  | entered (active : Bool)
  | done
  | bound (answers : List Bool)
  | unmatchedExit
  deriving DecidableEq, Repr

/-- Leaves the innermost scope. -/
def leave (g : GuardedTracker) : Reply × GuardedTracker :=
  match g.tracker.exit? with
  | some t => (.done, { g with tracker := t })
  | none => (.unmatchedExit, g)

def step (g : GuardedTracker) : Step → Reply × GuardedTracker
  | .enter names =>
    let active := !names.isEmpty
    (.entered active, ⟨g.tracker.enter names, g.active ++ [active]⟩)
  | .drop i =>
    if g.active[i]? = some true then leave { g with active := g.active.set i false } else (.done, g)
  | .exit => leave g
  | .bound names => (.bound (names.map g.tracker.isBound), g)

/-- The replies to a sequence of steps, each with the tracker after it. -/
def run (g : GuardedTracker) : List Step → List (Reply × ScopeTracker)
  | [] => []
  | s :: rest =>
    let next := g.step s
    (next.1, next.2.tracker) :: run next.2 rest

end GuardedTracker

end TemplateLinker
