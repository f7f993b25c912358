import TemplateLinker.Compiler.Session
import TemplateLinker.Proofs.Emit.Lines
import TemplateLinker.Proofs.Emit.ReadBack
import TemplateLinker.Proofs.Template.Wire
import TemplateLinker.Template.Path

/-!
# Proofs.Compiler.Output — the text of a compiled module

The code that the wire host gives is the compact text of the tree it parsed, so it stands on one line;
the session assembles it with the dependencies that the module has when the call ends.  From the two,
`compile_lines` says what the lines of a compiled module are, for any parser, passes and resolver.
-/

namespace TemplateLinker

theorem WireHost.newline_not_mem_code (module : ModuleName) (t : Template) :
    '\n' ∉ (code module t).toList := by
  have hfinite : (Json.object [("moduleName", .string module), ("block", t.body.toJson)]).IsFinite :=
    ⟨trivial, t.body.isFinite_toJson, trivial⟩
  rw [code, Json.text, String.toList_ofList]
  exact (Json.noControl_render hfinite).newline_not_mem

/-- The code is that of the tree that was parsed. -/
theorem WireHost.compile_eq_ok {h : WireHost} {r : Request} {b : Build} {c : String}
    (hc : (h.compile r b).1 = .ok c) : ∃ t, (h.parse r).2 = .ok t ∧ c = code r.module t := by
  unfold compile at hc
  rcases hparse : (h.parse r).2 with e | t
  · simp only [hparse] at hc
    cases hc
  · simp only [hparse] at hc
    refine ⟨t, rfl, ?_⟩
    split at hc
    · cases hc
    · exact (Except.ok.inj hc).symm

namespace Session

/-- A compiled module is the code of a tree, assembled with the dependencies right after the call. -/
theorem compile_eq_ok {s : Session WireHost} {module : ModuleName} {contents text : String}
    (h : (s.compile module contents).1.result = .ok text) :
    ∃ t, (s.host.parse ⟨module, Text.stripMark contents, contents⟩).2 = .ok t ∧
      text = s.emit.assemble (WireHost.code module t)
        ((s.compile module contents).2.dependenciesOf module) := by
  unfold compile at h
  rcases hhost : (Host.compile s.host ⟨module, Text.stripMark contents, contents⟩
    { dependencies := s.dependencies }).1 with e | c
  · simp only [hhost] at h
    cases h
  · simp only [hhost] at h
    obtain ⟨t, ht, rfl⟩ := WireHost.compile_eq_ok hhost
    exact ⟨t, ht, (Except.ok.inj h).symm⟩

/-- **A compiled module is line by line what its dependencies say.**  If the emit options have no line
break, the text of a module has two lines for each module spec of its dependencies and one more: the import
of the spec, its registration, and at last the export.  Whatever the template, the resolver and the module
name hold, no other line begins as an import or an export, unless the callee of the registrations does. -/
theorem compile_lines (s : Session WireHost) (module : ModuleName) (contents text : String)
    (ho : s.emit.SingleLine) (h : (s.compile module contents).1.result = .ok text) :
    let o := s.emit
    let specs := (((s.compile module contents).2.dependenciesOf module).getD []).flatMap Resolution.modules
    let lines := Text.pieces '\n' text.toList
    lines.length = 2 * specs.length + 1 ∧
    (∀ k spec, specs[k]? = some spec →
      (∃ line, lines[2 * k]? = some line ∧ o.Imports k spec line ∧
        "import ".toList ++ o.bindingPrefix.toList ++ Nat.toDigits 10 k ++ " from ".toList <+: line) ∧
      ∃ line, lines[2 * k + 1]? = some line ∧ o.Registers k spec line ∧
        o.registryCallee.toList ++ "('".toList <+: line) ∧
    (∃ last, lines[2 * specs.length]? = some last ∧
      "export default ".toList ++ o.templateFactory.toList ++ "(".toList <+: last ∧ ");".toList <:+ last) ∧
    (∀ i line, lines[i]? = some line → "import ".toList <+: line →
      (∃ k < specs.length, i = 2 * k) ∨ "import ".toList <+: o.registryCallee.toList) ∧
    ∀ i line, lines[i]? = some line → "export default ".toList <+: line →
      i = 2 * specs.length ∨ "export default ".toList <+: o.registryCallee.toList := by
  obtain ⟨t, -, rfl⟩ := compile_eq_ok h
  intro o specs lines
  have hspecs : EmitOptions.specsOf ((s.compile module contents).2.dependenciesOf module) = specs := rfl
  have hlines : lines = o.lines (WireHost.code module t)
      ((s.compile module contents).2.dependenciesOf module) :=
    EmitOptions.pieces_assemble ho (WireHost.newline_not_mem_code module t) _
  rw [hlines, ← hspecs]
  refine ⟨o.length_lines _ _, fun k spec hspec => ?_, ?_, fun i line hline hp => ?_,
    fun i line hline hp => ?_⟩
  · obtain ⟨himport, hregistration⟩ := o.getElem?_lines_spec (WireHost.code module t) hspec
    exact ⟨⟨_, himport, o.imports_importLine k spec, o.prefix_importLine k spec⟩,
      ⟨_, hregistration, o.registers_registrationLine k spec, o.prefix_registrationLine k spec⟩⟩
  · exact ⟨_, o.getElem?_lines_last _ _, o.prefix_exportLine _, ⟨_, rfl⟩⟩
  · rcases o.line_cases hline with ⟨k, spec, hk, hi, -⟩ | ⟨k, spec, -, -, rfl⟩ | ⟨-, rfl⟩
    · exact .inl ⟨k, hk, hi⟩
    · exact .inr (o.prefix_registryCallee (by decide +kernel) hp)
    · exact absurd hp (o.not_import_prefix_exportLine _)
  · rcases o.line_cases hline with ⟨k, spec, -, -, rfl⟩ | ⟨k, spec, -, -, rfl⟩ | ⟨hi, -⟩
    · exact absurd hp (o.not_export_prefix_importLine k spec)
    · exact .inr (o.prefix_registryCallee (by decide +kernel) hp)
    · exact .inl hi

/-- Two helpers with three specs between them, whose runtime names and paths hold quotes, line breaks and lines
that look like exports and imports: six lines and the export, and the third import, in the fifth line, is
that of the second helper. -/
theorem compile_lines_of_line_breaks :
    let broken : ModuleSpec := ⟨"'\nexport default x", "\"\nimport y"⟩
    let plain : ModuleSpec := ⟨"name", "path"⟩
    let resolver : Resolver := fun _ name _ =>
      .ok (some (if name = "b" then ⟨[plain]⟩ else ⟨[plain, broken]⟩))
    let call (name : String) : Call := ⟨.path (.ofText name .zero), [], []⟩
    let parsed : Template :=
      ⟨⟨[.mustache ⟨call "a\nb", false, .zero⟩, .mustache ⟨call "b", false, .zero⟩], [], .zero⟩⟩
    let s : Session WireHost := { host := { parser := fun _ => ([], .ok parsed), passes := [.linking resolver] } }
    ∃ text line, s.emit.SingleLine ∧ (s.compile "m\n" "").1.result = .ok text ∧
      (Text.pieces '\n' text.toList).length = 7 ∧
      (Text.pieces '\n' text.toList)[4]? = some line ∧ s.emit.Imports 2 plain line := by
  intro broken plain resolver call parsed s
  have ho : s.emit.SingleLine :=
    ⟨by decide +kernel, by decide +kernel, by decide +kernel⟩
  have h : (s.compile "m\n" "").1.result = .ok _ := rfl
  have hspecs : (((s.compile "m\n" "").2.dependenciesOf "m\n").getD []).flatMap Resolution.modules =
      [plain, broken, plain] := rfl
  obtain ⟨hlength, hspec, -⟩ := compile_lines s "m\n" "" _ ho h
  rw [hspecs] at hlength hspec
  obtain ⟨⟨line, hline, himports, -⟩, -⟩ := hspec 2 plain rfl
  exact ⟨_, line, ho, h, hlength, hline, himports⟩

end Session

end TemplateLinker
