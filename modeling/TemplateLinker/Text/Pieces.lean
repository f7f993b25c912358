/-!
# Text.Pieces — a text cut at every separator

`pieces sep s` has one piece more than `s` has separators; empty pieces are kept, and joining the
pieces with the separator gives the text back (`join_pieces`).  Pieces without a separator are those of
the text they are joined to (`pieces_join`).
-/

namespace TemplateLinker.Text

/-- Puts a character in front of the first piece. -/
def extendFirst (c : Char) : List (List Char) → List (List Char)
  | [] => [[c]]
  | p :: ps => (c :: p) :: ps

def pieces (sep : Char) : List Char → List (List Char)
  | [] => [[]]
  | c :: rest => if c = sep then [] :: pieces sep rest else extendFirst c (pieces sep rest)

/-- The pieces with a separator between each two. -/
def join (sep : Char) : List (List Char) → List Char
  | [] => []
  | [p] => p
  | p :: q :: ps => p ++ sep :: join sep (q :: ps)

theorem pieces_ne_nil (sep : Char) (s : List Char) : pieces sep s ≠ [] := by
  cases s with
  | nil => simp [pieces]
  | cons c s =>
    rw [pieces]
    split
    · simp
    · cases pieces sep s <;> simp [extendFirst]

theorem join_cons (sep : Char) (p : List Char) {ps : List (List Char)} (h : ps ≠ []) :
    join sep (p :: ps) = p ++ sep :: join sep ps := by
  cases ps with
  | nil => exact absurd rfl h
  | cons q ps => rfl

theorem join_extendFirst (sep c : Char) {ps : List (List Char)} (h : ps ≠ []) :
    join sep (extendFirst c ps) = c :: join sep ps := by
  match ps, h with
  | [p], _ => rfl
  | p :: q :: ps, _ => rfl

theorem join_pieces (sep : Char) (s : List Char) : join sep (pieces sep s) = s := by
  induction s with
  | nil => rfl
  | cons c s ih =>
    rw [pieces]
    split
    · next h => rw [join_cons sep [] (pieces_ne_nil sep s), ih, h, List.nil_append]
    · rw [join_extendFirst sep c (pieces_ne_nil sep s), ih]

theorem length_extendFirst (c : Char) {ps : List (List Char)} (h : ps ≠ []) :
    (extendFirst c ps).length = ps.length := by
  cases ps with
  | nil => exact absurd rfl h
  | cons p ps => rfl

theorem length_pieces (sep : Char) (s : List Char) :
    (pieces sep s).length = s.count sep + 1 := by
  induction s with
  | nil => rfl
  | cons c s ih =>
    rw [pieces]
    split
    · next h => simp [h, ih]
    · next h => rw [length_extendFirst c (pieces_ne_nil sep s), ih, List.count_cons_of_ne h]

theorem not_mem_of_mem_pieces {sep : Char} {s p : List Char} (h : p ∈ pieces sep s) : sep ∉ p := by
  induction s generalizing p with
  | nil => simp_all [pieces]
  | cons c s ih =>
    rw [pieces] at h
    split at h
    · rcases List.mem_cons.1 h with rfl | h
      · simp
      · exact ih h
    · next hc =>
      revert h
      generalize hq : pieces sep s = q at ih
      intro h
      match q with
      | [] => exact absurd hq (pieces_ne_nil sep s)
      | r :: rs =>
        rcases List.mem_cons.1 h with rfl | h
        · simpa [Ne.symm hc] using ih (List.mem_cons_self ..)
        · exact ih (List.mem_cons_of_mem _ h)

/-! ### Pieces that are joined -/

theorem pieces_of_not_mem {sep : Char} {p : List Char} (h : sep ∉ p) : pieces sep p = [p] := by
  induction p with
  | nil => rfl
  | cons c p ih =>
    have hc : sep ≠ c := List.ne_of_not_mem_cons h
    have hp : sep ∉ p := List.not_mem_of_not_mem_cons h
    rw [pieces, if_neg (Ne.symm hc), ih hp, extendFirst]

theorem pieces_append_cons (sep : Char) (p s : List Char) :
    pieces sep (p ++ sep :: s) = pieces sep p ++ pieces sep s := by
  induction p with
  | nil => simp [pieces]
  | cons c p ih =>
    rw [List.cons_append, pieces, pieces, ih]
    split
    · rfl
    · match h : pieces sep p with
      | [] => exact absurd h (pieces_ne_nil sep p)
      | q :: qs => rfl

theorem pieces_append {sep : Char} {p : List Char} (h : sep ∉ p) (s : List Char) :
    pieces sep (p ++ sep :: s) = p :: pieces sep s := by
  rw [pieces_append_cons, pieces_of_not_mem h, List.singleton_append]

/-- A text without a separator goes in front of the first piece. -/
theorem exists_pieces_append {sep : Char} {p : List Char} (h : sep ∉ p) (s : List Char) :
    ∃ q qs, pieces sep s = q :: qs ∧ pieces sep (p ++ s) = (p ++ q) :: qs := by
  induction p with
  | nil =>
    obtain ⟨q, qs, hq⟩ := List.exists_cons_of_ne_nil (pieces_ne_nil sep s)
    exact ⟨q, qs, hq, hq⟩
  | cons c p ih =>
    have hc : sep ≠ c := List.ne_of_not_mem_cons h
    obtain ⟨q, qs, hq, hpieces⟩ := ih (List.not_mem_of_not_mem_cons h)
    refine ⟨q, qs, hq, ?_⟩
    rw [List.cons_append, pieces, if_neg (Ne.symm hc), hpieces, extendFirst, List.cons_append]

theorem pieces_join {sep : Char} {ps : List (List Char)} (hne : ps ≠ []) (h : ∀ p ∈ ps, sep ∉ p) :
    pieces sep (join sep ps) = ps := by
  induction ps with
  | nil => exact absurd rfl hne
  | cons p ps ih =>
    have hp : sep ∉ p := h p List.mem_cons_self
    cases ps with
    | nil => exact pieces_of_not_mem hp
    | cons q ps =>
      rw [join_cons sep p (List.cons_ne_nil q ps), pieces_append hp,
        ih (List.cons_ne_nil q ps) fun r hr => h r (List.mem_cons_of_mem p hr)]

end TemplateLinker.Text
