import TemplateLinker.Transform
import TemplateLinker.Text.Quoted

/-!
# Compiler.Plugin — passes and syntax extensions, grouped by kind

A set of plugins holds one group for each kind, in the order in which the kinds were first added, and each
group in the order of adding.
-/

namespace TemplateLinker

inductive PluginKind where
  | pass
  | syntaxExtension
  deriving DecidableEq, Repr

namespace PluginKind

def text : PluginKind → String
  | .pass => "ast"
  | .syntaxExtension => "syntax"

def shown : PluginKind → String
  | .pass => "AstTransform"
  | .syntaxExtension => "SyntaxExtension"

end PluginKind

/-- Keywords that a parser shall know. -/
structure SyntaxExtension where
  name : String
  keywords : List String
  deriving DecidableEq, Repr

def SyntaxExtension.hasKeyword (e : SyntaxExtension) (keyword : String) : Bool :=
  e.keywords.contains keyword

inductive Plugin where
  | pass (p : Pass)
  | syntaxExtension (e : SyntaxExtension)

namespace Plugin

def kind : Plugin → PluginKind
  | .pass _ => .pass
  | .syntaxExtension _ => .syntaxExtension

def name : Plugin → String
  | .pass p => p.name
  | .syntaxExtension e => e.name

end Plugin

/-- The groups, no kind occurring twice. -/
structure PluginSet where
  groups : List (PluginKind × List Plugin) := []

namespace PluginSet

instance : Inhabited PluginSet := ⟨{}⟩

/-- Adds to the group of the plugin's kind, a new one at the end if there is none. -/
def addTo (p : Plugin) : List (PluginKind × List Plugin) → List (PluginKind × List Plugin)
  | [] => [(p.kind, [p])]
  | (k, ps) :: rest => if k = p.kind then (k, ps ++ [p]) :: rest else (k, ps) :: addTo p rest

def push (s : PluginSet) (p : Plugin) : PluginSet := ⟨addTo p s.groups⟩

def ofList (ps : List Plugin) : PluginSet := ps.foldl push {}

def toList (s : PluginSet) : List Plugin := s.groups.flatMap (·.2)

/-- The group of a kind, empty if there is none. -/
def groupOf (k : PluginKind) : List (PluginKind × List Plugin) → List Plugin
  | [] => []
  | (k', ps) :: rest => if k' = k then ps else groupOf k rest

def ofKind (s : PluginSet) (k : PluginKind) : List Plugin := groupOf k s.groups

def size (s : PluginSet) : Nat := s.toList.length

def isEmpty (s : PluginSet) : Bool := s.size == 0

theorem groupOf_addTo (p : Plugin) (k : PluginKind) (gs : List (PluginKind × List Plugin)) :
    groupOf k (addTo p gs) = if p.kind = k then groupOf k gs ++ [p] else groupOf k gs := by
  induction gs with
  | nil => simp [addTo, groupOf]
  | cons g gs ih =>
    obtain ⟨k', ps⟩ := g
    by_cases h : k' = p.kind
    · subst h
      by_cases hk : p.kind = k <;> simp [addTo, groupOf, hk]
    · by_cases hk : k' = k
      · subst hk
        simp [addTo, groupOf, h, Ne.symm h]
      · simp [addTo, groupOf, h, hk, ih]

theorem ofKind_push (s : PluginSet) (p : Plugin) (k : PluginKind) :
    (s.push p).ofKind k = if p.kind = k then s.ofKind k ++ [p] else s.ofKind k :=
  groupOf_addTo p k s.groups

/-! ### The text of a set -/

def listed (items : List String) : String := String.intercalate ", " items

def showPlugin (p : Plugin) : String :=
  "Plugin \x7b kind: " ++ p.kind.shown ++ ", name: "
    ++ String.ofList (Text.Quoted.shown p.name.toList) ++ " \x7d"

def showGroup (g : PluginKind × List Plugin) : String :=
  g.1.shown ++ ": [" ++ listed (g.2.map showPlugin) ++ "]"

def render (s : PluginSet) : String :=
  "PluginSet \x7b by_kind: \x7b" ++ listed (s.groups.map showGroup) ++ "\x7d \x7d"

end PluginSet

end TemplateLinker
