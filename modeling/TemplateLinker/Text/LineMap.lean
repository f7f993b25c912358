import TemplateLinker.Text.Span

/-!
# Text.LineMap — lines and columns of byte offsets

A `LineMap` lists where the lines of a text begin: at 0 and behind every newline byte.  The line of
an offset is the last one that begins at or before it, found by bisection; its column counts the
bytes from there.
-/

namespace TemplateLinker

/-- A line and a column, both from 0. -/
structure Position where
  line : Nat
  column : Nat
  deriving DecidableEq, Repr

/-- Written from 1, line before column. -/
def Position.render (p : Position) : String := s!"{p.line + 1}:{p.column + 1}"

namespace Text

def newline : UInt8 := 10

/-- The bytes of a text in UTF-8. -/
def bytes (text : String) : List UInt8 := text.toUTF8.data.toList

/-- The offsets right behind the newlines of `bs`, the first byte being at offset `pos`. -/
def breaksFrom (pos : Nat) : List UInt8 → List Nat
  | [] => []
  | b :: bs => if b = newline then (pos + 1) :: breaksFrom (pos + 1) bs else breaksFrom (pos + 1) bs

theorem length_breaksFrom (pos : Nat) (bs : List UInt8) :
    (breaksFrom pos bs).length = bs.count newline := by
  induction bs generalizing pos with
  | nil => rfl
  | cons b bs ih =>
    rw [breaksFrom]
    split
    · next h => simp [h, ih]
    · next h => rw [ih, List.count_cons_of_ne h]

theorem lt_of_mem_breaksFrom {pos start : Nat} {bs : List UInt8} (h : start ∈ breaksFrom pos bs) :
    pos < start := by
  induction bs generalizing pos with
  | nil => simp [breaksFrom] at h
  | cons b bs ih =>
    rw [breaksFrom] at h
    split at h
    · rcases List.mem_cons.1 h with rfl | h
      · omega
      · have := ih h
        omega
    · have := ih h
      omega

theorem pairwise_breaksFrom (pos : Nat) (bs : List UInt8) :
    (breaksFrom pos bs).Pairwise (· < ·) := by
  induction bs generalizing pos with
  | nil => exact List.Pairwise.nil
  | cons b bs ih =>
    rw [breaksFrom]
    split
    · exact List.pairwise_cons.2 ⟨fun _ h => lt_of_mem_breaksFrom h, ih _⟩
    · exact ih _

end Text

structure LineMap where
  starts : Array Nat

namespace LineMap

def ofBytes (bs : List UInt8) : LineMap := ⟨(0 :: Text.breaksFrom 0 bs).toArray⟩

def ofText (text : String) : LineMap := ofBytes (Text.bytes text)

def lineCount (m : LineMap) : Nat := m.starts.size

theorem lineCount_ofBytes (bs : List UInt8) :
    (ofBytes bs).lineCount = bs.count Text.newline + 1 := by
  simp [ofBytes, lineCount, Text.length_breaksFrom]

/-- Where line `i` begins. -/
def start (m : LineMap) (i : Nat) : Nat := m.starts.getD i 0

/-- The last line in `low ≤ · < high` that begins at or before `pos`, given that `low` does. -/
def bisect (m : LineMap) (pos low high : Nat) : Nat :=
  if low + 1 < high then
    let mid := (low + high) / 2
    if m.start mid ≤ pos then bisect m pos mid high else bisect m pos low mid
  else low
termination_by high - low

def lineOf (m : LineMap) (pos : Nat) : Nat := m.bisect pos 0 m.lineCount

def locate (m : LineMap) (pos : Nat) : Position :=
  let line := m.lineOf pos
  ⟨line, pos - m.start line⟩

end LineMap

end TemplateLinker
