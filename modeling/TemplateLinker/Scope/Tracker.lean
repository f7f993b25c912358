/-!
# Scope.Tracker — the block parameters in scope

A tracker is the stack of the scopes that are open.  Entering no names opens no scope; leaving the
innermost scope fails when none is open; a name is bound if any open scope has it.
-/

namespace TemplateLinker

/-- The names that one block introduces. -/
structure Scope where
  names : List String
  deriving DecidableEq, Repr

def Scope.contains (s : Scope) (name : String) : Bool := s.names.contains name

/-- The open scopes, innermost first. -/
structure ScopeTracker where
  scopes : List Scope := []
  deriving DecidableEq, Repr

namespace ScopeTracker

instance : Inhabited ScopeTracker := ⟨{}⟩

def enter (t : ScopeTracker) (names : List String) : ScopeTracker :=
  if names = [] then t else ⟨⟨names⟩ :: t.scopes⟩

/-- Leaves the innermost scope. -/
def exit? (t : ScopeTracker) : Option ScopeTracker :=
  match t.scopes with
  | [] => none
  | _ :: rest => some ⟨rest⟩

def isBound (t : ScopeTracker) (name : String) : Bool := t.scopes.any (·.contains name)

def depth (t : ScopeTracker) : Nat := t.scopes.length

def isEmpty (t : ScopeTracker) : Bool := t.depth == 0

/-- What is said about leaving a scope when none is open. -/
def unmatchedExitMessage : String := "exit_scope called without a matching enter_scope"

@[simp] theorem enter_nil (t : ScopeTracker) : t.enter [] = t := rfl

theorem scopes_enter {names : List String} (t : ScopeTracker) (h : names ≠ []) :
    (t.enter names).scopes = ⟨names⟩ :: t.scopes := by simp [enter, h]

theorem exit?_enter {names : List String} (t : ScopeTracker) (h : names ≠ []) :
    (t.enter names).exit? = some t := by simp [enter, exit?, h]

theorem isBound_iff {t : ScopeTracker} {name : String} :
    t.isBound name = true ↔ ∃ s ∈ t.scopes, name ∈ s.names := by
  simp [isBound, Scope.contains]

end ScopeTracker

end TemplateLinker
