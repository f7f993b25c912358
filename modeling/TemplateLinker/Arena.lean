/-!
# Arena — values kept under handles until all are given up

Keeping a value gives a handle, under which the value is found until the arena is reset.
-/

namespace TemplateLinker

universe u

structure Arena (α : Type u) where
  values : Array α

namespace Arena

variable {α : Type u}

/-- An empty arena with room for some values. -/
def withCapacity (capacity : Nat) : Arena α := ⟨Array.emptyWithCapacity capacity⟩

def keep (a : Arena α) (v : α) : Nat × Arena α := (a.values.size, ⟨a.values.push v⟩)

def get? (a : Arena α) (handle : Nat) : Option α := a.values[handle]?

/-- Gives up all values. -/
def reset (_ : Arena α) : Arena α := ⟨#[]⟩

theorem get?_keep (a : Arena α) (v : α) : (a.keep v).2.get? (a.keep v).1 = some v := by
  simp [keep, get?]

theorem get?_keep_of_lt {a : Arena α} {v : α} {handle : Nat} (h : handle < a.values.size) :
    (a.keep v).2.get? handle = a.get? handle := by
  simp [keep, get?, Array.getElem?_push, Nat.ne_of_lt h]

end Arena

end TemplateLinker
