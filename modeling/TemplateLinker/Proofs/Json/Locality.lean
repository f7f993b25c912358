import TemplateLinker.Json.Decoder
import TemplateLinker.Proofs.Json.DistinctKeys

/-!
# Proofs.Json.Locality — what a reader takes does not depend on what stands behind

A reader that takes a value from a text takes the same value where another text stands behind it, provided
that this begins with the same character or that no number goes on in it (`Takes`).  There is a rule for each
way in which a reader is made of others, loops included (`Consumes.iterate`).  The readers of values pass over
blanks first and take at least one character (`Local`): what they read as a whole, they read between blanks
and any delimiter (`Local.read_between`).
-/

namespace TemplateLinker.Json

variable {α β : Type} {MayEnd : List Char → Prop} {read : Read α}

/-- Blanks, the comma and the closing brackets. -/
def delimiters : List Char := [' ', '\n', '\r', '\t', ',', ']', '\x7d']

/-- What may stand behind a value: nothing or a delimiter. -/
def Delimits (rest : List Char) : Prop := ∀ c ∈ rest.head?, c ∈ delimiters

theorem Delimits.stops {p : Char → Bool} (hp : delimiters.any p = false) {rest : List Char}
    (h : Delimits rest) : ∀ c ∈ rest.head?, p c = false :=
  fun c hc => eq_false_of_ne_true (List.any_eq_false.1 hp c (h c hc))

/-- What the reader takes, it takes as well in front of a text that begins with the same character, or with
which it may end. -/
def Takes (MayEnd : List Char → Prop) (read : Read α) : Prop :=
  ∀ ⦃cs : List Char⦄ ⦃a : α⦄ ⦃rest : List Char⦄, read cs = .ok (a, rest) →
    ∃ used, cs = used ++ rest ∧
      ∀ rest', rest'.head? = rest.head? ∨ MayEnd rest' → read (used ++ rest') = .ok (a, rest')

/-- The reader also takes at least one character. -/
structure Consumes (MayEnd : List Char → Prop) (read : Read α) : Prop where
  takes : Takes MayEnd read
  shorter : ∀ {cs : List Char} {a : α} {rest : List Char}, read cs = .ok (a, rest) →
    rest.length < cs.length

/-! ### Rules -/

theorem head?_append_or {rest rest' : List Char} (h : rest'.head? = rest.head? ∨ MayEnd rest')
    (used : List Char) :
    (used ++ rest').head? = (used ++ rest).head? ∨ MayEnd (used ++ rest') := by
  cases used with
  | nil => exact h
  | cons c used => exact .inl rfl

namespace Takes

theorem length_le (h : Takes MayEnd read) {cs rest : List Char} {a : α} (hread : read cs = .ok (a, rest)) :
    rest.length ≤ cs.length := by
  obtain ⟨used, rfl, -⟩ := h hread
  rw [List.length_append]
  exact Nat.le_add_left _ _

theorem pure (a : α) : Takes MayEnd fun cs => .ok (a, cs) := by
  intro cs b rest h
  cases h
  exact ⟨[], rfl, fun _ _ => rfl⟩

theorem error (e : Failure) : Takes MayEnd (fun _ => .error e : Read α) := by
  intro cs a rest h
  cases h

/-- A result that does not depend on the text comes first. -/
theorem bind_result {γ : Type} (r : Except Failure γ) {next : γ → Read α} (h : ∀ c, Takes MayEnd (next c)) :
    Takes MayEnd fun cs => r >>= fun c => next c cs := by
  cases r with
  | error e => exact .error e
  | ok c => exact h c

theorem result (r : Except Failure α) (g : α → β) : Takes MayEnd fun cs => r.map fun a => (g a, cs) := by
  cases r with
  | error e => exact .error e
  | ok a => exact .pure (g a)

theorem branch {p : Prop} {inst : List Char → Decidable p} {read' : Read α} (h : Takes MayEnd read)
    (h' : Takes MayEnd read') : Takes MayEnd fun cs => @ite _ p (inst cs) (read cs) (read' cs) := by
  by_cases hp : p
  · simpa only [if_pos hp] using h
  · simpa only [if_neg hp] using h'

theorem of_not {p : Prop} {inst : List Char → Decidable p} {read' : Read α} (hp : ¬p)
    (h : Takes MayEnd read') : Takes MayEnd fun cs => @ite _ p (inst cs) (read cs) (read' cs) := by
  simpa only [if_neg hp] using h

theorem weaken (h : Takes MayEnd read) : Takes (fun _ => False) read := by
  intro cs a rest hread
  obtain ⟨used, rfl, htakes⟩ := h hread
  exact ⟨used, rfl, fun rest' hrest => htakes rest' (.inl (hrest.resolve_right id))⟩

/-- Only what is read counts, not how the reader fails. -/
theorem congr {read' : Read α} (h : Takes MayEnd read') (heq : ∀ cs x, read cs = .ok x ↔ read' cs = .ok x) :
    Takes MayEnd read := by
  intro cs a rest hread
  obtain ⟨used, rfl, htakes⟩ := h ((heq _ _).1 hread)
  exact ⟨used, rfl, fun rest' hrest => (heq _ _).2 (htakes rest' hrest)⟩

theorem map (g : α → β) (h : Takes MayEnd read) :
    Takes MayEnd fun cs => (read cs).map fun (a, rest) => (g a, rest) := by
  intro cs b rest hb
  obtain ⟨⟨a, mid⟩, ha, hb⟩ := map_eq_ok.1 hb
  cases hb
  obtain ⟨used, rfl, hread⟩ := h ha
  exact ⟨used, rfl, fun rest' hrest => map_eq_ok.2 ⟨(a, rest'), hread _ hrest, rfl⟩⟩

section Bind

variable {next : α × List Char → Except Failure (β × List Char)}

theorem bind (h : Takes MayEnd read) (hnext : ∀ a, Takes MayEnd fun cs => next (a, cs)) :
    Takes MayEnd fun cs => read cs >>= next := by
  intro cs b rest hbind
  obtain ⟨⟨a, mid⟩, ha, hb⟩ := bind_eq_ok.1 hbind
  obtain ⟨used, rfl, hread⟩ := h ha
  obtain ⟨more, rfl, hmore⟩ := hnext a hb
  refine ⟨used ++ more, (List.append_assoc ..).symm, fun rest' hrest => ?_⟩
  rw [List.append_assoc]
  exact bind_eq_ok.2 ⟨(a, more ++ rest'), hread _ (head?_append_or hrest more), hmore _ hrest⟩

/-- What comes first may look at the character that is taken next. -/
theorem bind_consumes (h : Takes (fun _ => False) read)
    (hnext : ∀ a, Consumes MayEnd fun cs => next (a, cs)) : Consumes MayEnd fun cs => read cs >>= next where
  takes := by
    intro cs b rest hbind
    obtain ⟨⟨a, mid⟩, ha, hb⟩ := bind_eq_ok.1 hbind
    obtain ⟨used, rfl, hread⟩ := h ha
    have hlt := (hnext a).shorter hb
    obtain ⟨more, rfl, hmore⟩ := (hnext a).takes hb
    refine ⟨used ++ more, (List.append_assoc ..).symm, fun rest' hrest => ?_⟩
    have hhead : (more ++ rest').head? = (more ++ rest).head? := by
      cases more with
      | nil => exact absurd hlt (Nat.lt_irrefl _)
      | cons c more => rfl
    rw [List.append_assoc]
    exact bind_eq_ok.2 ⟨(a, more ++ rest'), hread _ (.inl hhead), hmore _ hrest⟩
  shorter {cs b rest} hbind := by
    obtain ⟨⟨a, mid⟩, ha, hb⟩ := bind_eq_ok.1 hbind
    exact Nat.lt_of_lt_of_le ((hnext a).shorter hb) (h.length_le ha)

end Bind

/-- A reader that looks at the first character: where it is in the class `p`, the reader takes it; else the
reader does what `other` does, and no delimiter is in the class. -/
theorem peek (p : Char → Bool) (other : Read α) (hp : delimiters.any p = false)
    (hyes : ∀ c, p c = true → Takes Delimits fun tail => read (c :: tail)) (hno : Takes Delimits other)
    (heq : ∀ cs, (∀ c ∈ cs.head?, p c = false) → read cs = other cs) : Takes Delimits read := by
  intro cs a rest hread
  by_cases hcs : ∀ c ∈ cs.head?, p c = false
  · rw [heq cs hcs] at hread
    obtain ⟨used, rfl, htakes⟩ := hno hread
    refine ⟨used, rfl, fun rest' hrest => ?_⟩
    rw [heq, htakes rest' hrest]
    rcases head?_append_or hrest used with hhead | hdelimits
    · rwa [hhead]
    · exact hdelimits.stops hp
  · cases cs with
    | nil => exact absurd nofun hcs
    | cons c tail =>
      have hc : p c = true := by simpa using hcs
      obtain ⟨used, rfl, htakes⟩ := hyes c hc hread
      exact ⟨c :: used, rfl, htakes⟩

end Takes

namespace Consumes

theorem error (e : Failure) : Consumes MayEnd (fun _ => .error e : Read α) where
  takes := .error e
  shorter h := nomatch h

theorem congr {read' : Read α} (h : Consumes MayEnd read')
    (heq : ∀ cs x, read cs = .ok x ↔ read' cs = .ok x) : Consumes MayEnd read where
  takes := h.takes.congr heq
  shorter hread := h.shorter ((heq _ _).1 hread)

theorem map (g : α → β) (h : Consumes MayEnd read) :
    Consumes MayEnd fun cs => (read cs).map fun (a, rest) => (g a, rest) where
  takes := h.takes.map g
  shorter hread := by
    obtain ⟨⟨a, mid⟩, ha, hb⟩ := map_eq_ok.1 hread
    cases hb
    exact h.shorter ha

theorem bind {next : α × List Char → Except Failure (β × List Char)} (h : Consumes MayEnd read)
    (hnext : ∀ a, Takes MayEnd fun cs => next (a, cs)) : Consumes MayEnd fun cs => read cs >>= next where
  takes := h.takes.bind hnext
  shorter hread := by
    obtain ⟨⟨a, mid⟩, ha, hb⟩ := bind_eq_ok.1 hread
    exact Nat.lt_of_le_of_lt ((hnext a).length_le hb) (h.shorter ha)

/-- A reader that takes a character first. -/
theorem of_cons (hnil : ∀ x, read [] ≠ .ok x) (hcons : ∀ c, Takes MayEnd fun tail => read (c :: tail)) :
    Consumes MayEnd read where
  takes := by
    intro cs a rest hread
    cases cs with
    | nil => exact absurd hread (hnil _)
    | cons c tail =>
      obtain ⟨used, rfl, htakes⟩ := hcons c hread
      exact ⟨c :: used, rfl, htakes⟩
  shorter {cs a rest} hread := by
    cases cs with
    | nil => exact absurd hread (hnil _)
    | cons c tail => exact Nat.lt_succ_of_le ((hcons c).length_le hread)

/-- What is read behind a given first character. -/
theorem tail (h : Consumes MayEnd read) (c : Char) : Takes MayEnd fun tail => read (c :: tail) := by
  intro cs a rest hread
  have hlt := h.shorter hread
  obtain ⟨used, hused, htakes⟩ := h.takes hread
  cases used with
  | nil =>
    rw [List.nil_append] at hused
    rw [hused] at hlt
    exact absurd hlt (Nat.lt_irrefl _)
  | cons d used =>
    obtain ⟨rfl, rfl⟩ := List.cons.inj hused
    exact ⟨used, rfl, htakes⟩

end Consumes

/-! ### Loops -/

theorem turns_of_iterate_eq_ok {σ : Type} {step : σ → Read (Turn σ α)}
    (hshorter : ∀ {state cs turn rest}, step state cs = .ok (turn, rest) → rest.length < cs.length)
    {state : σ} {cs rest : List Char} {a : α} (h : iterate step state cs = .ok (a, rest)) :
    Turns step state cs a rest := by
  unfold iterate at h
  generalize ' ' :: cs = clock at h
  induction clock generalizing state cs with
  | nil => cases h
  | cons _ clock ih =>
    rw [iterateFor] at h
    split at h
    · cases h
    · next b mid hs =>
      cases h
      exact .done hs
    · next state' mid hs => exact .next hs (hshorter hs) (ih h)

/-- A loop takes what its turns take. -/
theorem Consumes.iterate {σ : Type} {step : σ → Read (Turn σ α)} (h : ∀ state, Consumes MayEnd (step state))
    (state : σ) : Consumes MayEnd (Json.iterate step state) where
  takes := by
    intro cs a rest hread
    have hturns := turns_of_iterate_eq_ok (fun hs => (h _).shorter hs) hread
    suffices hused : ∃ used, cs = used ++ rest ∧ ∀ rest', rest'.head? = rest.head? ∨ MayEnd rest' →
        Turns step state (used ++ rest') a rest' by
      obtain ⟨used, hcs, htakes⟩ := hused
      exact ⟨used, hcs, fun rest' hrest => (htakes rest' hrest).iterate_eq⟩
    clear hread
    induction hturns with
    | done hs =>
      obtain ⟨used, rfl, htakes⟩ := (h _).takes hs
      exact ⟨used, rfl, fun rest' hrest => .done (htakes rest' hrest)⟩
    | next hs hmid _ ih =>
      obtain ⟨more, rfl, hmore⟩ := ih
      obtain ⟨used, rfl, htakes⟩ := (h _).takes hs
      refine ⟨used ++ more, (List.append_assoc ..).symm, fun rest' hrest => ?_⟩
      have hread' := htakes (more ++ rest') (head?_append_or hrest more)
      rw [List.append_assoc]
      exact .next hread' ((h _).shorter hread') (hmore rest' hrest)
  shorter hread := by
    have hturns := turns_of_iterate_eq_ok (fun hs => (h _).shorter hs) hread
    clear hread
    induction hturns with
    | done hs => exact (h _).shorter hs
    | next _ hmid _ ih => exact Nat.lt_trans ih hmid

theorem consuming_of_consumes {σ : Type} {step : σ → Read (Turn σ α)}
    (h : ∀ state, Consumes MayEnd (step state)) : Consuming step :=
  fun _ _ _ _ hs => (h _).shorter hs

theorem iterate_of_next {σ : Type} {step : σ → Read (Turn σ α)} (h : Consuming step) {state state' : σ}
    {cs rest : List Char} (hs : step state cs = .ok (.next state', rest)) :
    iterate step state cs = iterate step state' rest := by
  rw [iterate_eq h, hs]

/-! ### Blanks -/

/-- Nothing but blanks. -/
def IsGap (gap : List Char) : Prop := ∀ c ∈ gap, isBlank c = true

instance : DecidablePred IsGap := fun gap => decidable_of_iff (gap.all isBlank = true) List.all_eq_true

theorem IsGap.nil : IsGap [] := nofun

theorem exists_gap (cs : List Char) : ∃ gap, IsGap gap ∧ cs = gap ++ skipBlanks cs :=
  ⟨cs.takeWhile isBlank, fun _ hc => List.all_eq_true.1 List.all_takeWhile _ hc,
    List.takeWhile_append_dropWhile.symm⟩

theorem IsGap.skipBlanks_append {gap : List Char} (h : IsGap gap) (cs : List Char) :
    skipBlanks (gap ++ cs) = skipBlanks cs :=
  List.dropWhile_append_of_pos h

theorem mem_delimiters_of_isBlank {c : Char} (h : isBlank c = true) : c ∈ delimiters := by
  simp only [isBlank, Bool.or_eq_true, beq_iff_eq] at h
  rcases h with ((rfl | rfl) | rfl) | rfl <;> decide

theorem IsGap.delimits_append {gap rest : List Char} (h : IsGap gap) (hrest : Delimits rest) :
    Delimits (gap ++ rest) := by
  cases gap with
  | nil => exact hrest
  | cons c gap =>
    rintro d ⟨⟩
    exact mem_delimiters_of_isBlank (h c List.mem_cons_self)

theorem isBlank_of_skipBlanks_eq {cs tail : List Char} {c : Char} (h : skipBlanks cs = c :: tail) :
    isBlank c = false := by
  have hhead := List.head?_dropWhile_not isBlank cs
  rw [show cs.dropWhile isBlank = c :: tail from h] at hhead
  simpa using hhead

theorem skipBlanks_skipBlanks (cs : List Char) : skipBlanks (skipBlanks cs) = skipBlanks cs := by
  cases h : skipBlanks cs with
  | nil => rfl
  | cons c tail => rw [skipBlanks_cons_of_not_blank (isBlank_of_skipBlanks_eq h)]

/-- Passes over blanks and goes on with the character behind them. -/
def afterBlanks (next : Char → Read α) : Read α := fun cs =>
  match skipBlanks cs with
  | [] => .error .endOfText
  | c :: rest => next c rest

section AfterBlanks

variable {next : Char → Read α}

theorem afterBlanks_gap {gap : List Char} (hgap : IsGap gap) (cs : List Char) :
    afterBlanks next (gap ++ cs) = afterBlanks next cs := by
  rw [afterBlanks, hgap.skipBlanks_append, afterBlanks]

theorem afterBlanks_append {gap : List Char} (hgap : IsGap gap) {c : Char} (hc : isBlank c = false)
    (tail : List Char) : afterBlanks next (gap ++ c :: tail) = next c tail := by
  rw [afterBlanks, hgap.skipBlanks_append, skipBlanks_cons_of_not_blank hc]

theorem exists_of_afterBlanks_eq_ok {cs : List Char} {x : α × List Char} (h : afterBlanks next cs = .ok x) :
    ∃ gap c tail, IsGap gap ∧ isBlank c = false ∧ cs = gap ++ c :: tail ∧ next c tail = .ok x := by
  obtain ⟨gap, hgap, hcs⟩ := exists_gap cs
  unfold afterBlanks at h
  cases hskip : skipBlanks cs with
  | nil =>
    rw [hskip] at h
    cases h
  | cons c tail =>
    rw [hskip] at h hcs
    exact ⟨gap, c, tail, hgap, isBlank_of_skipBlanks_eq hskip, hcs, h⟩

theorem consumes_afterBlanks (hnext : ∀ c, Takes MayEnd (next c)) : Consumes MayEnd (afterBlanks next) where
  takes := by
    intro cs a rest hread
    obtain ⟨gap, c, tail, hgap, hc, rfl, h⟩ := exists_of_afterBlanks_eq_ok hread
    obtain ⟨used, rfl, htakes⟩ := hnext c h
    refine ⟨gap ++ c :: used, by simp, fun rest' hrest => ?_⟩
    rw [List.append_assoc, List.cons_append, afterBlanks_append hgap hc]
    exact htakes rest' hrest
  shorter {cs a rest} hread := by
    obtain ⟨gap, c, tail, -, -, rfl, h⟩ := exists_of_afterBlanks_eq_ok hread
    have hle := (hnext c).length_le h
    simp only [List.length_append, List.length_cons]
    omega

/-- The character behind the blanks may also be left where it stands. -/
theorem takes_afterBlanks
    (hnext : ∀ c, (∃ a, ∀ tail, next c tail = .ok (a, c :: tail)) ∨ Takes (fun _ => False) (next c)) :
    Takes (fun _ => False) (afterBlanks next) := by
  intro cs a rest hread
  obtain ⟨gap, c, tail, hgap, hc, rfl, h⟩ := exists_of_afterBlanks_eq_ok hread
  rcases hnext c with ⟨b, hleft⟩ | htakes
  · rw [hleft] at h
    cases h
    refine ⟨gap, rfl, fun rest' hrest => ?_⟩
    obtain ⟨tail', rfl⟩ : ∃ tail', rest' = c :: tail' := List.head?_eq_some_iff.1 (hrest.resolve_right id)
    rw [afterBlanks_append hgap hc, hleft]
  · obtain ⟨used, rfl, htakes⟩ := htakes h
    refine ⟨gap ++ c :: used, by simp, fun rest' hrest => ?_⟩
    rw [List.append_assoc, List.cons_append, afterBlanks_append hgap hc]
    exact htakes rest' hrest

end AfterBlanks

/-! ### Readers of values -/

/-- A reader of values: it passes over blanks, takes at least one character and no closing bracket of an
array, and what it takes ends in front of any delimiter. -/
structure Local (read : Read α) : Prop where
  consumes : Consumes Delimits read
  skips : ∀ {cs : List Char} {x : α × List Char}, read (skipBlanks cs) = .ok x ↔ read cs = .ok x
  not_closing : ∀ (tail : List Char) (x : α × List Char), read (']' :: tail) ≠ .ok x

namespace Local

theorem congr {read' : Read α} (h : Local read') (heq : ∀ cs x, read cs = .ok x ↔ read' cs = .ok x) :
    Local read where
  consumes := h.consumes.congr heq
  skips := by
    intro cs x
    rw [heq, heq, h.skips]
  not_closing tail x hread := h.not_closing tail x ((heq _ _).1 hread)

theorem afterBlanks {next : Char → Read α} (hnext : ∀ c, Takes Delimits (next c))
    (hclosing : ∀ tail x, next ']' tail ≠ .ok x) : Local (afterBlanks next) where
  consumes := consumes_afterBlanks hnext
  skips := by
    intro cs x
    rw [Json.afterBlanks, skipBlanks_skipBlanks, Json.afterBlanks]
  not_closing := hclosing

theorem read_gap (h : Local read) {gap : List Char} (hgap : IsGap gap) {cs : List Char} {x : α × List Char} :
    read (gap ++ cs) = .ok x ↔ read cs = .ok x := by
  rw [← h.skips, hgap.skipBlanks_append, h.skips]

/-- What is read as a whole is read behind blanks and in front of any delimiter. -/
theorem read_between (h : Local read) {text gap rest : List Char} {a : α} (htext : read text = .ok (a, []))
    (hgap : IsGap gap) (hrest : Delimits rest) : read (gap ++ (text ++ rest)) = .ok (a, rest) := by
  obtain ⟨used, rfl, htakes⟩ := h.consumes.takes htext
  rw [List.append_nil, h.read_gap hgap]
  exact htakes rest (.inr hrest)

/-- The text of a value begins with a character that is no blank and closes no array. -/
theorem exists_of_read (h : Local read) {text : List Char} {x : α × List Char} (htext : read text = .ok x) :
    ∃ gap c tail, IsGap gap ∧ isBlank c = false ∧ c ≠ ']' ∧ text = gap ++ c :: tail := by
  obtain ⟨gap, hgap, hcs⟩ := exists_gap text
  have hread := h.skips.2 htext
  cases hskip : skipBlanks text with
  | nil =>
    rw [hskip] at hread
    exact absurd (h.consumes.shorter hread) (Nat.not_lt_zero _)
  | cons c tail =>
    rw [hskip] at hread hcs
    exact ⟨gap, c, tail, hgap, isBlank_of_skipBlanks_eq hskip, fun hc => h.not_closing tail x (hc ▸ hread), hcs⟩

end Local

end TemplateLinker.Json
