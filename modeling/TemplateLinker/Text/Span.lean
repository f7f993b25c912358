/-!
# Text.Span — a stretch of a source text

Offsets count the bytes of the text in UTF-8; `stop` is the first offset behind the stretch.
-/

namespace TemplateLinker

structure Span where
  start : Nat
  stop : Nat
  deriving DecidableEq, Repr

namespace Span

/-- The empty stretch at the beginning of a text. -/
def zero : Span := ⟨0, 0⟩

instance : Inhabited Span := ⟨zero⟩

/-- The empty stretch at `pos`. -/
def collapsed (pos : Nat) : Span := ⟨pos, pos⟩

def length (s : Span) : Nat := s.stop - s.start

def isEmpty (s : Span) : Bool := s.start == s.stop

def contains (s : Span) (pos : Nat) : Bool := s.start ≤ pos && pos < s.stop

/-- Written with two dots between the offsets. -/
def render (s : Span) : String := s!"{s.start}..{s.stop}"

theorem isEmpty_collapsed (pos : Nat) : (collapsed pos).isEmpty = true := by
  simp [isEmpty, collapsed]

theorem contains_iff {s : Span} {pos : Nat} : s.contains pos = true ↔ s.start ≤ pos ∧ pos < s.stop := by
  simp [contains]

end Span

end TemplateLinker
