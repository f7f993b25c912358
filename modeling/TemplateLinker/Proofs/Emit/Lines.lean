import TemplateLinker.Emit
import TemplateLinker.Proofs.Json.SingleLine

/-!
# Proofs.Emit.Lines — an assembled module line by line

When neither the emit options nor the code have a line break, no line of an assembled module has one, for
names and paths escape theirs.  So cutting the text at line breaks gives the lines that were joined
(`pieces_assemble`), two for each spec and the export (`line_cases`); how each of them begins is in its
fixed part.
-/

namespace TemplateLinker

namespace EmitOptions

/-- No line break in the options. -/
structure SingleLine (o : EmitOptions) : Prop where
  registryCallee : '\n' ∉ o.registryCallee.toList
  templateFactory : '\n' ∉ o.templateFactory.toList
  bindingPrefix : '\n' ∉ o.bindingPrefix.toList

variable {o : EmitOptions}

/-! ### No line has a line break -/

theorem newline_not_mem_registered (s : List Char) : '\n' ∉ Text.Quoted.registered s := by
  have hescape : ∀ c, '\n' ∉ Text.Quoted.singleEscape c := by
    intro c
    unfold Text.Quoted.singleEscape
    split_ifs with _ _ hn _
    · decide
    · decide
    · decide
    · decide
    · exact fun h => hn (List.mem_singleton.1 h).symm
  simp [Text.Quoted.registered, hescape]

theorem newline_not_mem_binding (ho : o.SingleLine) (k : ℕ) : '\n' ∉ o.binding k := by
  have hdigits : '\n' ∉ Nat.toDigits 10 k := Json.not_mem_toDigits (by decide) k
  unfold binding
  simp only [List.mem_append, not_or]
  exact ⟨ho.bindingPrefix, hdigits⟩

theorem newline_not_mem_importLine (ho : o.SingleLine) (k : ℕ) (s : ModuleSpec) :
    '\n' ∉ o.importLine k s := by
  have himport : '\n' ∉ "import ".toList := by decide +kernel
  have hfrom : '\n' ∉ " from ".toList := by decide +kernel
  have hpath := (Json.noControl_quoted s.path.toList).newline_not_mem
  unfold importLine
  simp only [List.mem_append, not_or]
  exact ⟨⟨⟨⟨himport, newline_not_mem_binding ho k⟩, hfrom⟩, hpath⟩, by decide⟩

theorem newline_not_mem_registrationLine (ho : o.SingleLine) (k : ℕ) (s : ModuleSpec) :
    '\n' ∉ o.registrationLine k s := by
  have hreturn : '\n' ∉ ", function()\x7b return ".toList := by decide +kernel
  have hclose : '\n' ∉ "\x7d);".toList := by decide +kernel
  have hname := newline_not_mem_registered s.runtimeName.toList
  unfold registrationLine
  simp only [List.mem_append, not_or]
  exact ⟨⟨⟨⟨⟨ho.registryCallee, by decide⟩, hname⟩, hreturn⟩, newline_not_mem_binding ho k⟩, hclose⟩

theorem newline_not_mem_exportLine (ho : o.SingleLine) {code : String} (hc : '\n' ∉ code.toList) :
    '\n' ∉ o.exportLine code := by
  have hexport : '\n' ∉ "export default ".toList := by decide +kernel
  have hclose : '\n' ∉ ");".toList := by decide +kernel
  unfold exportLine
  simp only [List.mem_append, not_or]
  exact ⟨⟨⟨⟨hexport, ho.templateFactory⟩, by decide⟩, hc⟩, hclose⟩

theorem newline_not_mem_specLines (ho : o.SingleLine) (k : ℕ) (specs : List ModuleSpec) :
    ∀ l ∈ o.specLines k specs, '\n' ∉ l := by
  induction specs generalizing k with
  | nil => exact fun l hl => absurd hl List.not_mem_nil
  | cons s specs ih =>
    intro l hl
    rcases List.mem_cons.1 hl with rfl | hl
    · exact newline_not_mem_importLine ho k s
    · rcases List.mem_cons.1 hl with rfl | hl
      · exact newline_not_mem_registrationLine ho k s
      · exact ih (k + 1) l hl

/-- **The lines of a module are those it was joined from.** -/
theorem pieces_assemble (ho : o.SingleLine) {code : String} (hc : '\n' ∉ code.toList)
    (d : Option (List Resolution)) :
    Text.pieces '\n' (o.assemble code d).toList = o.lines code d := by
  have hne : o.lines code d ≠ [] := by simp [lines]
  rw [assemble, String.toList_ofList, Text.pieces_join hne]
  intro l hl
  rcases List.mem_append.1 hl with hl | hl
  · exact newline_not_mem_specLines ho 0 _ l hl
  · rw [List.mem_singleton.1 hl]
    exact newline_not_mem_exportLine ho hc

/-! ### Which line is which -/

variable (o)

theorem getElem?_specLines (k i : ℕ) (specs : List ModuleSpec) :
    (o.specLines k specs)[2 * i]? = specs[i]?.map (o.importLine (k + i)) ∧
      (o.specLines k specs)[2 * i + 1]? = specs[i]?.map (o.registrationLine (k + i)) := by
  induction specs generalizing k i with
  | nil => exact ⟨rfl, rfl⟩
  | cons s specs ih =>
    cases i with
    | zero => exact ⟨rfl, rfl⟩
    | succ i =>
      have hstep := ih (k + 1) i
      rwa [Nat.add_right_comm, Nat.add_assoc] at hstep

theorem length_lines (code : String) (d : Option (List Resolution)) :
    (o.lines code d).length = 2 * (specsOf d).length + 1 := by
  rw [lines, List.length_append, length_specLines, List.length_singleton]

theorem getElem?_lines_spec (code : String) {d : Option (List Resolution)} {k : ℕ} {s : ModuleSpec}
    (hs : (specsOf d)[k]? = some s) :
    (o.lines code d)[2 * k]? = some (o.importLine k s) ∧
      (o.lines code d)[2 * k + 1]? = some (o.registrationLine k s) := by
  have hk : k < (specsOf d).length := (List.getElem?_eq_some_iff.1 hs).1
  have hlen := o.length_specLines 0 (specsOf d)
  obtain ⟨heven, hodd⟩ := o.getElem?_specLines 0 k (specsOf d)
  rw [hs, Option.map_some, Nat.zero_add] at heven hodd
  rw [lines, List.getElem?_append_left (by omega), List.getElem?_append_left (by omega)]
  exact ⟨heven, hodd⟩

theorem getElem?_lines_last (code : String) (d : Option (List Resolution)) :
    (o.lines code d)[2 * (specsOf d).length]? = some (o.exportLine code) := by
  have hlen := o.length_specLines 0 (specsOf d)
  rw [lines, List.getElem?_append_right (by omega), hlen, Nat.sub_self]
  rfl

/-- Each line is an import, a registration or the export, by its number. -/
theorem line_cases {code : String} {d : Option (List Resolution)} {i : ℕ} {l : List Char}
    (h : (o.lines code d)[i]? = some l) :
    (∃ k s, k < (specsOf d).length ∧ i = 2 * k ∧ l = o.importLine k s) ∨
      (∃ k s, k < (specsOf d).length ∧ i = 2 * k + 1 ∧ l = o.registrationLine k s) ∨
      (i = 2 * (specsOf d).length ∧ l = o.exportLine code) := by
  have hi : i < (o.lines code d).length := (List.getElem?_eq_some_iff.1 h).1
  rw [length_lines] at hi
  by_cases hlast : i = 2 * (specsOf d).length
  · subst hlast
    rw [getElem?_lines_last] at h
    exact .inr (.inr ⟨rfl, (Option.some.inj h).symm⟩)
  · have hk : i / 2 < (specsOf d).length := by omega
    obtain ⟨himport, hregistration⟩ := o.getElem?_lines_spec code (List.getElem?_eq_getElem hk)
    rcases Nat.mod_two_eq_zero_or_one i with hmod | hmod
    · have heven : i = 2 * (i / 2) := by omega
      rw [← heven, h] at himport
      exact .inl ⟨i / 2, _, hk, heven, Option.some.inj himport⟩
    · have hodd : i = 2 * (i / 2) + 1 := by omega
      rw [← hodd, h] at hregistration
      exact .inr (.inl ⟨i / 2, _, hk, hodd, Option.some.inj hregistration⟩)

/-! ### How a line begins -/

/-- A beginning without `c` of a text in front of `c` is a beginning of what stands there. -/
theorem prefix_of_prefix_append_cons {p s r : List Char} {c : Char} (hc : c ∉ p) (h : p <+: s ++ c :: r) :
    p <+: s := by
  rcases List.prefix_or_prefix_of_prefix h (List.prefix_append s (c :: r)) with hp | ⟨t, rfl⟩
  · exact hp
  · cases t with
    | nil => simp
    | cons d t =>
      have ht : d :: t <+: c :: r := (List.prefix_append_right_inj s).1 h
      have hd : d = c := (List.cons_prefix_cons.1 ht).1
      exact absurd (by simp [hd]) hc

theorem prefix_importLine (k : ℕ) (s : ModuleSpec) :
    "import ".toList ++ o.bindingPrefix.toList ++ Nat.toDigits 10 k ++ " from ".toList <+:
      o.importLine k s := by
  refine ⟨Text.Quoted.json s.path.toList ++ [';'], ?_⟩
  unfold importLine binding
  simp only [List.append_assoc]

theorem prefix_registrationLine (k : ℕ) (s : ModuleSpec) :
    o.registryCallee.toList ++ "('".toList <+: o.registrationLine k s := by
  have hopen : "('".toList = ['(', '\''] := by decide +kernel
  refine ⟨s.runtimeName.toList.flatMap Text.Quoted.singleEscape ++ ['\''] ++
    ", function()\x7b return ".toList ++ o.binding k ++ "\x7d);".toList, ?_⟩
  unfold registrationLine Text.Quoted.registered
  rw [hopen]
  simp only [List.append_assoc, List.cons_append, List.nil_append]

theorem prefix_exportLine (code : String) :
    "export default ".toList ++ o.templateFactory.toList ++ "(".toList <+: o.exportLine code := by
  have hopen : "(".toList = ['('] := by decide +kernel
  refine ⟨code.toList ++ ");".toList, ?_⟩
  unfold exportLine
  rw [hopen]
  simp only [List.append_assoc]

theorem not_import_prefix_exportLine (code : String) : ¬"import ".toList <+: o.exportLine code := by
  have himport : "import ".toList = 'i' :: "mport ".toList := by decide +kernel
  intro h
  obtain ⟨t, ht⟩ := o.exists_exportLine_eq code
  rw [ht, himport] at h
  exact absurd (List.cons_prefix_cons.1 h).1 (by decide)

theorem not_export_prefix_importLine (k : ℕ) (s : ModuleSpec) :
    ¬"export default ".toList <+: o.importLine k s := by
  have hexport : "export default ".toList = 'e' :: "xport default ".toList := by decide +kernel
  intro h
  obtain ⟨t, ht⟩ := o.exists_importLine_eq k s
  rw [ht, hexport] at h
  exact absurd (List.cons_prefix_cons.1 h).1 (by decide)

/-- A registration begins with a text that has no parenthesis only if the callee does. -/
theorem prefix_registryCallee {p : List Char} (hp : '(' ∉ p) {k : ℕ} {s : ModuleSpec}
    (h : p <+: o.registrationLine k s) : p <+: o.registryCallee.toList := by
  unfold registrationLine at h
  simp only [List.append_assoc, List.cons_append] at h
  exact prefix_of_prefix_append_cons hp h

end EmitOptions

end TemplateLinker
