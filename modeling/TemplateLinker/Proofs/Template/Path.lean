import TemplateLinker.Template.Path

/-!
# Proofs.Template.Path — a path is its head and its parts

A text is `this`, or begins with a head, or has none (`ofText_cases`).  The segments of what stands behind
the head join to it again, so the head and the parts of a path spell its text: all but `this`, which has the
head and the parts of `this.` (`ofText_lossless`).
-/

namespace TemplateLinker

namespace Text

theorem join_eq_intercalate (sep : Char) (ps : List (List Char)) : join sep ps = [sep].intercalate ps := by
  induction ps with
  | nil => rfl
  | cons p ps ih =>
    cases ps with
    | nil => simp [join]
    | cons q ps => rw [join, ih, List.intercalate_cons_cons, List.append_assoc, List.singleton_append]

end Text

namespace Path

/-- The head of a path as it stands in front of its parts. -/
def headText (p : Path) : String := if p.isThis then "this." else if p.isData then "@" else ""

/-! ### Segments -/

theorem segments_eq_nil_iff {rest : List Char} : segments rest = [] ↔ rest = [] := by
  unfold segments
  split
  · next h => simp [h]
  · next h => simp [h, Text.pieces_ne_nil]

theorem length_segments {rest : List Char} (h : rest ≠ []) :
    (segments rest).length = rest.count '.' + 1 := by
  rw [segments, if_neg h, List.length_map, Text.length_pieces]

theorem dot_not_mem_of_mem_segments {rest : List Char} {part : String} (h : part ∈ segments rest) :
    '.' ∉ part.toList := by
  unfold segments at h
  split at h
  · cases h
  · obtain ⟨piece, hpiece, rfl⟩ := List.mem_map.1 h
    rw [String.toList_ofList]
    exact Text.not_mem_of_mem_pieces hpiece

theorem toList_intercalate_segments (rest : List Char) :
    (String.intercalate "." (segments rest)).toList = rest := by
  have hdot : ".".toList = ['.'] := rfl
  unfold segments
  rw [String.toList_intercalate, hdot]
  split
  · next h => rw [h]; rfl
  · have hmap : ((Text.pieces '.' rest).map String.ofList).map String.toList = Text.pieces '.' rest := by
      simp
    rw [hmap, ← Text.join_eq_intercalate, Text.join_pieces]

/-! ### Heads -/

section

variable (s : String) (span : Span)

/-- The four ways in which a text begins, and the path that it writes. -/
theorem ofText_cases :
    s = "this" ∧ ofText s span = ⟨s, true, false, [], span⟩ ∨
    (∃ rest, s.toList = "this.".toList ++ rest ∧ ofText s span = ⟨s, true, false, segments rest, span⟩) ∨
    (∃ rest, s.toList = "@".toList ++ rest ∧ ofText s span = ⟨s, false, true, segments rest, span⟩) ∨
    s ≠ "this" ∧ ¬ "this.".toList <+: s.toList ∧ ¬ "@".toList <+: s.toList ∧
      ofText s span = ⟨s, false, false, segments s.toList, span⟩ := by
  have hsplit : ofText s span = ⟨s, (splitHead s.toList).1 = .this, (splitHead s.toList).1 = .data,
      segments (splitHead s.toList).2, span⟩ := rfl
  rw [hsplit]
  unfold splitHead
  split
  · next h => exact .inl ⟨String.toList_inj.1 h, rfl⟩
  · next rest h => exact .inr (.inl ⟨rest, h, rfl⟩)
  · next rest h => exact .inr (.inr (.inl ⟨rest, h, rfl⟩))
  · next hthis hdot hat =>
    refine .inr (.inr (.inr ⟨fun h => hthis (congrArg String.toList h), ?_, ?_, rfl⟩))
    · rintro ⟨rest, h⟩
      exact hdot rest h.symm
    · rintro ⟨rest, h⟩
      exact hat rest h.symm

theorem isThis_ofText_iff : (ofText s span).isThis = true ↔ s = "this" ∨ "this.".toList <+: s.toList := by
  obtain ⟨h, hp⟩ | ⟨rest, h, hp⟩ | ⟨rest, h, hp⟩ | ⟨hne, hdot, -, hp⟩ := ofText_cases s span
  · rw [hp]
    exact iff_of_true rfl (.inl h)
  · rw [hp]
    exact iff_of_true rfl (.inr ⟨rest, h.symm⟩)
  · rw [hp, ← String.toList_inj, h]
    simp
  · rw [hp]
    exact iff_of_false Bool.false_ne_true (not_or.2 ⟨hne, hdot⟩)

theorem isData_ofText_iff : (ofText s span).isData = true ↔ "@".toList <+: s.toList := by
  obtain ⟨h, hp⟩ | ⟨rest, h, hp⟩ | ⟨rest, h, hp⟩ | ⟨-, -, hat, hp⟩ := ofText_cases s span
  · rw [hp, h]
    simp
  · rw [hp, h]
    simp
  · rw [hp]
    exact iff_of_true rfl ⟨rest, h.symm⟩
  · rw [hp]
    exact iff_of_false Bool.false_ne_true hat

/-- The parts of a path are the segments of what stands behind its head. -/
theorem exists_segments_ofText : s = "this" ∧ (ofText s span).parts = [] ∨
    s ≠ "this" ∧ ∃ rest, s.toList = (ofText s span).headText.toList ++ rest ∧
      (ofText s span).parts = segments rest := by
  obtain ⟨h, hp⟩ | ⟨rest, h, hp⟩ | ⟨rest, h, hp⟩ | ⟨hne, -, -, hp⟩ := ofText_cases s span
  · exact .inl ⟨h, by rw [hp]⟩
  · refine .inr ⟨fun hthis => ?_, rest, by rw [hp]; exact h, by rw [hp]⟩
    rw [hthis] at h
    simp at h
  · refine .inr ⟨fun hthis => ?_, rest, by rw [hp]; exact h, by rw [hp]⟩
    rw [hthis] at h
    simp at h
  · exact .inr ⟨hne, s.toList, by rw [hp]; rfl, by rw [hp]⟩

theorem headText_append_join (h : s ≠ "this") :
    (ofText s span).headText ++ String.intercalate "." (ofText s span).parts = s := by
  obtain ⟨hthis, -⟩ | ⟨-, rest, hs, hparts⟩ := exists_segments_ofText s span
  · exact absurd hthis h
  · rw [← String.toList_inj, String.toList_append, hparts, toList_intercalate_segments, hs]

theorem parts_ofText_eq_nil_iff :
    (ofText s span).parts = [] ↔ s = "this" ∨ s = "this." ∨ s = "@" ∨ s = "" := by
  simp only [← String.toList_inj]
  obtain ⟨h, hp⟩ | ⟨rest, h, hp⟩ | ⟨rest, h, hp⟩ | ⟨hne, hdot, hat, hp⟩ := ofText_cases s span
  · rw [hp, h]
    simp
  · rw [hp, h, segments_eq_nil_iff]
    simp
  · rw [hp, h, segments_eq_nil_iff]
    simp
  · rw [hp, segments_eq_nil_iff]
    refine ⟨fun h => .inr (.inr (.inr h)), ?_⟩
    rintro (h | h | h | h)
    · exact absurd (String.toList_inj.1 h) hne
    · exact absurd ⟨[], by rw [h]; rfl⟩ hdot
    · exact absurd ⟨[], by rw [h]; rfl⟩ hat
    · exact h

theorem length_parts_ofText (h : (ofText s span).parts ≠ []) :
    (ofText s span).parts.length = (s.toList.drop (ofText s span).headText.length).count '.' + 1 := by
  obtain ⟨-, hparts⟩ | ⟨-, rest, hs, hparts⟩ := exists_segments_ofText s span
  · exact absurd hparts h
  · rw [hparts, ne_eq, segments_eq_nil_iff] at h
    rw [hparts, length_segments h, hs, ← String.length_toList, List.drop_left]

theorem dot_not_mem_part {part : String} (h : part ∈ (ofText s span).parts) : '.' ∉ part.toList := by
  obtain ⟨-, hparts⟩ | ⟨-, rest, -, hparts⟩ := exists_segments_ofText s span
  · rw [hparts] at h
    cases h
  · rw [hparts] at h
    exact dot_not_mem_of_mem_segments h

end

/-- The text `this` shares its head and its parts with `this.` alone. -/
theorem eq_this_or_of_like_this {t : String} {span : Span} (hthis : (ofText t span).isThis = true)
    (hparts : (ofText t span).parts = []) : t = "this" ∨ t = "this." := by
  rcases (parts_ofText_eq_nil_iff t span).1 hparts with h | h | rfl | rfl
  · exact .inl h
  · exact .inr h
  · cases hthis
  · cases hthis

theorem eq_of_like {s t : String} {span span' : Span} (hs : s ≠ "this") (ht : t ≠ "this")
    (hthis : (ofText s span).isThis = (ofText t span').isThis)
    (hdata : (ofText s span).isData = (ofText t span').isData)
    (hparts : (ofText s span).parts = (ofText t span').parts) : s = t := by
  have hhead : (ofText s span).headText = (ofText t span').headText := by
    unfold headText
    rw [hthis, hdata]
  rw [← headText_append_join s span hs, ← headText_append_join t span' ht, hhead, hparts]

/-- **A path is its head and its parts.**  It keeps its text, has at most one of the two heads, and each of
them exactly when the text begins with it.  No part has a dot; the head in front of the parts joined by dots is
the text, unless that is `this`.  There is no part behind nothing, else one more than there are dots behind the
head.  Only `this` and `this.` are two texts with the same head and the same parts. -/
theorem ofText_lossless (s : String) (span : Span) :
    let p := ofText s span
    p.text = s ∧ p.span = span ∧ ¬ (p.isThis = true ∧ p.isData = true) ∧
    (p.isThis = true ↔ s = "this" ∨ "this.".toList <+: s.toList) ∧
    (p.isData = true ↔ "@".toList <+: s.toList) ∧
    (∀ part ∈ p.parts, '.' ∉ part.toList) ∧
    (s ≠ "this" → p.headText ++ String.intercalate "." p.parts = s) ∧
    (p.parts = [] ↔ s = "this" ∨ s = "this." ∨ s = "@" ∨ s = "") ∧
    (p.parts ≠ [] → p.parts.length = (s.toList.drop p.headText.length).count '.' + 1) ∧
    ∀ (t : String) (span' : Span), let q := ofText t span'
      (p.isThis, p.isData, p.parts) = (q.isThis, q.isData, q.parts) ↔
        s = t ∨ s = "this" ∧ t = "this." ∨ s = "this." ∧ t = "this" := by
  intro p
  refine ⟨rfl, rfl, ?_, isThis_ofText_iff s span, isData_ofText_iff s span,
    fun part => dot_not_mem_part s span, headText_append_join s span, parts_ofText_eq_nil_iff s span,
    length_parts_ofText s span, fun t span' => ⟨fun h => ?_, ?_⟩⟩
  · obtain ⟨-, hp⟩ | ⟨rest, -, hp⟩ | ⟨rest, -, hp⟩ | ⟨-, -, -, hp⟩ := ofText_cases s span
    all_goals simp [p, hp]
  · obtain ⟨hthis, h⟩ := Prod.mk.inj h
    obtain ⟨hdata, hparts⟩ := Prod.mk.inj h
    by_cases hs : s = "this"
    · subst hs
      rcases eq_this_or_of_like_this hthis.symm hparts.symm with rfl | rfl
      · exact .inl rfl
      · exact .inr (.inl ⟨rfl, rfl⟩)
    · by_cases ht : t = "this"
      · subst ht
        rcases eq_this_or_of_like_this hthis hparts with rfl | rfl
        · exact .inl rfl
        · exact .inr (.inr ⟨rfl, rfl⟩)
      · exact .inl (eq_of_like hs ht hthis hdata hparts)
  · rintro (rfl | ⟨rfl, rfl⟩ | ⟨rfl, rfl⟩)
    · rfl
    · rfl
    · rfl

/-- Behind a head and a dot, an empty part in front, in the middle and at the end. -/
theorem ofText_lossless_of_empty_parts :
    let p := ofText "this..a..b." .zero
    p.parts = ["", "a", "", "b", ""] ∧ (∀ part ∈ p.parts, '.' ∉ part.toList) ∧
      p.headText ++ String.intercalate "." p.parts = "this..a..b." ∧
      p.parts.length = ("this..a..b.".toList.drop p.headText.length).count '.' + 1 := by
  intro p
  have hparts : p.parts = ["", "a", "", "b", ""] := by decide +kernel
  have hne : p.parts ≠ [] := by
    rw [hparts]
    exact List.cons_ne_nil _ _
  obtain ⟨-, -, -, -, -, hdots, htext, -, hlength, -⟩ := ofText_lossless "this..a..b." .zero
  exact ⟨hparts, hdots, htext (by decide), hlength hne⟩

end Path

end TemplateLinker
