/-!
# Text.Mark — the byte-order mark in front of a text
-/

namespace TemplateLinker.Text

def byteOrderMark : Char := '\uFEFF'

/-- The text without the one mark it may begin with. -/
def stripMark (s : String) : String :=
  match s.toList with
  | c :: rest => if c = byteOrderMark then String.ofList rest else s
  | [] => s

theorem stripMark_ofList_cons (s : List Char) :
    stripMark (String.ofList (byteOrderMark :: s)) = String.ofList s := by
  simp [stripMark]

theorem stripMark_of_head?_ne {s : String} (h : s.toList.head? ≠ some byteOrderMark) :
    stripMark s = s := by
  unfold stripMark
  split
  · next c rest hs => simp_all
  · rfl

/-- A text is one mark and what is left of it, or it begins with none and all of it is left. -/
theorem stripMark_cases (s : String) : s.toList = byteOrderMark :: (stripMark s).toList ∨
    s.toList = (stripMark s).toList ∧ (stripMark s).toList.head? ≠ some byteOrderMark := by
  by_cases h : s.toList.head? = some byteOrderMark
  · obtain ⟨rest, hs⟩ := List.head?_eq_some_iff.1 h
    have hstrip := stripMark_ofList_cons rest
    rw [← hs, String.ofList_toList] at hstrip
    rw [hstrip, String.toList_ofList]
    exact .inl hs
  · rw [stripMark_of_head?_ne h]
    exact .inr ⟨rfl, h⟩

end TemplateLinker.Text
