import TemplateLinker.Reference

/-!
# Dependencies.Map — what each module was resolved to

The resolutions of a module are gathered from the last time it was started.  Starting a module again
empties its list and keeps its place among the modules.  `lookup` and `modules` are the two views;
`lookup_record` and `modules_record` say what recording does to each.
-/

namespace TemplateLinker

structure DependencyMap where
  lists : OrderedMap (List Resolution) := .empty

namespace DependencyMap

instance : Inhabited DependencyMap := ⟨{}⟩

def start (d : DependencyMap) (module : ModuleName) : DependencyMap := ⟨d.lists.insert module []⟩

/-- Appends a resolution to the list of a module, a new one if it has none. -/
def record (d : DependencyMap) (module : ModuleName) (r : Resolution) : DependencyMap :=
  ⟨d.lists.insert module ((d.lists.get? module).getD [] ++ [r])⟩

/-- The list of a module, none if it was never started. -/
def lookup (d : DependencyMap) (module : ModuleName) : Option (List Resolution) :=
  d.lists.get? module

/-- What `f` makes of the list of a module, none if it was never started. -/
def withList {β : Type} (d : DependencyMap) (module : ModuleName)
    (f : Option (List Resolution) → β) : β :=
  f (d.lists.get? module)

def modules (d : DependencyMap) : List ModuleName := d.lists.keys

def size (d : DependencyMap) : Nat := d.lists.size

def isEmpty (d : DependencyMap) : Bool := d.size == 0

theorem lookup_start (d : DependencyMap) (module module' : ModuleName) :
    (d.start module).lookup module' = if module = module' then some [] else d.lookup module' :=
  d.lists.get?_insert module module' []

theorem lookup_record (d : DependencyMap) (module module' : ModuleName) (r : Resolution) :
    (d.record module r).lookup module' =
      if module = module' then some ((d.lookup module).getD [] ++ [r]) else d.lookup module' :=
  d.lists.get?_insert module module' _

theorem modules_start (d : DependencyMap) (module : ModuleName) :
    (d.start module).modules =
      if module ∈ d.modules then d.modules else d.modules ++ [module] :=
  d.lists.keys_insert module []

theorem modules_record (d : DependencyMap) (module : ModuleName) (r : Resolution) :
    (d.record module r).modules =
      if module ∈ d.modules then d.modules else d.modules ++ [module] :=
  d.lists.keys_insert module _

theorem lookup_eq_none_iff {d : DependencyMap} {module : ModuleName} :
    d.lookup module = none ↔ module ∉ d.modules :=
  OrderedMap.get?_eq_none_iff

end DependencyMap

end TemplateLinker
