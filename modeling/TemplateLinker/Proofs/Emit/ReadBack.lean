import Mathlib.Data.List.Forall2
import TemplateLinker.Emit
import TemplateLinker.Json.Reader
import TemplateLinker.Proofs.Json.UniqueReading
import TemplateLinker.Proofs.Text.SingleQuoted

/-!
# Proofs.Emit.ReadBack — an assembled module can be read back

The text of a module is one stretch for each module spec, an import and the registration behind it, and
then the export (`assemble_toList`).  A stretch marks its own end: what is fixed in it is known from the
options and the number of the spec, and the two literals end where a reader of their kind stops
(`stretch_append_inj`).  So the text has one reading (`stretches_append_inj`), whatever quotes, line
breaks or lines of code stand in the names.
-/

namespace TemplateLinker

open Text.Quoted (singleQuoted singleQuoted_registered registered_append_inj)

/-- A quoted text is a JSON string, and reads back as one. -/
theorem Json.value_quoted (room : ℕ) (s : String) (rest : List Char) :
    Json.value room (Text.Quoted.json s.toList ++ rest) = .ok (.string s, rest) := by
  have hblank : isBlank '"' = false := by decide
  rw [Text.Quoted.json_append, Json.value, skipBlanks_cons_of_not_blank hblank]
  show Except.map _ (stringBody _) = _
  rw [stringBody_quoted]
  rfl

namespace EmitOptions

variable (o : EmitOptions)

/-! ### The text of a module, spec by spec -/

/-- What stands in the text for the `k`-th spec. -/
def stretch (k : ℕ) (s : ModuleSpec) : List Char :=
  o.importLine k s ++ '\n' :: (o.registrationLine k s ++ ['\n'])

/-- The stretches of `specs`, the first one having number `k`. -/
def stretches (k : ℕ) (specs : List ModuleSpec) : List (List Char) :=
  (specs.zipIdx k).map fun p => o.stretch p.2 p.1

theorem stretches_cons (k : ℕ) (s : ModuleSpec) (specs : List ModuleSpec) :
    o.stretches k (s :: specs) = o.stretch k s :: o.stretches (k + 1) specs := by
  rw [stretches, List.zipIdx_cons, List.map_cons, stretches]

theorem join_specLines (k : ℕ) (specs : List ModuleSpec) (last : List Char) :
    Text.join '\n' (o.specLines k specs ++ [last]) = (o.stretches k specs).flatten ++ last := by
  induction specs generalizing k with
  | nil => rfl
  | cons s specs ih =>
    have hne : o.specLines (k + 1) specs ++ [last] ≠ [] := by simp
    rw [specLines, List.cons_append, List.cons_append, Text.join_cons _ _ (List.cons_ne_nil _ _),
      Text.join_cons _ _ hne, ih, stretches_cons, List.flatten_cons, stretch]
    simp only [List.append_assoc, List.cons_append, List.nil_append]

theorem assemble_toList (code : String) (d : Option (List Resolution)) :
    (o.assemble code d).toList = (o.stretches 0 (specsOf d)).flatten ++ o.exportLine code := by
  rw [assemble, lines, String.toList_ofList, join_specLines]

/-! ### One reading -/

theorem binding_inj {i j : ℕ} : o.binding i = o.binding j ↔ i = j := by
  constructor
  · intro h
    exact Json.toDigits_injective (List.append_cancel_left h)
  · rintro rfl
    rfl

theorem exportLine_inj {c₁ c₂ : String} : o.exportLine c₁ = o.exportLine c₂ ↔ c₁ = c₂ := by
  constructor
  · intro h
    unfold exportLine at h
    have hcode := List.append_cancel_left (List.append_cancel_right h)
    exact String.toList_injective hcode
  · rintro rfl
    rfl

/-- A stretch in front of other text: the fixed parts, which do not depend on the spec, with the two
literals between them. -/
theorem stretch_append (k : ℕ) (s : ModuleSpec) (rest : List Char) :
    o.stretch k s ++ rest =
      ("import ".toList ++ o.binding k ++ " from ".toList) ++ (Text.Quoted.json s.path.toList ++
        ((";\n".toList ++ o.registryCallee.toList ++ "(".toList) ++
          (Text.Quoted.registered s.runtimeName.toList ++
            ((", function()\x7b return ".toList ++ o.binding k ++ "\x7d);\n".toList) ++ rest)))) := by
  have hend : ";\n".toList = [';', '\n'] := by decide +kernel
  have hopen : "(".toList = ['('] := by decide +kernel
  have hreturn : "\x7d);\n".toList = "\x7d);".toList ++ ['\n'] := by decide +kernel
  unfold stretch importLine registrationLine
  rw [hend, hopen, hreturn]
  simp only [List.append_assoc, List.cons_append, List.nil_append]

/-- **A stretch marks its own end.** -/
theorem stretch_append_inj {k : ℕ} {s t : ModuleSpec} {r₁ r₂ : List Char}
    (h : o.stretch k s ++ r₁ = o.stretch k t ++ r₂) : s = t ∧ r₁ = r₂ := by
  rw [stretch_append, stretch_append] at h
  obtain ⟨hpath, h⟩ := Json.json_append_inj (List.append_cancel_left h)
  obtain ⟨hname, h⟩ := registered_append_inj (List.append_cancel_left h)
  have hrest : r₁ = r₂ := List.append_cancel_left h
  cases s
  cases t
  exact ⟨by rw [ModuleSpec.mk.injEq]; exact ⟨hname, hpath⟩, hrest⟩

/-- A stretch begins with an import, the last line with an export. -/
theorem exportLine_ne_stretch_append (c : String) (k : ℕ) (s : ModuleSpec) (rest : List Char) :
    o.exportLine c ≠ o.stretch k s ++ rest := by
  intro h
  obtain ⟨t, ht⟩ := o.exists_exportLine_eq c
  obtain ⟨u, hu⟩ := o.exists_importLine_eq k s
  rw [stretch, ht, hu] at h
  exact absurd (List.cons.inj h).1 (by decide)

theorem stretches_append_inj {c₁ c₂ : String} : ∀ {k : ℕ} {specs₁ specs₂ : List ModuleSpec},
    (o.stretches k specs₁).flatten ++ o.exportLine c₁ = (o.stretches k specs₂).flatten ++ o.exportLine c₂ →
      specs₁ = specs₂ ∧ c₁ = c₂
  | _, [], [], h => ⟨rfl, o.exportLine_inj.1 h⟩
  | k, [], t :: specs₂, h => by
    rw [stretches_cons, List.flatten_cons, List.append_assoc] at h
    exact absurd h (o.exportLine_ne_stretch_append c₁ k t _)
  | k, s :: specs₁, [], h => by
    rw [stretches_cons, List.flatten_cons, List.append_assoc] at h
    exact absurd h.symm (o.exportLine_ne_stretch_append c₂ k s _)
  | k, s :: specs₁, t :: specs₂, h => by
    rw [stretches_cons, stretches_cons, List.flatten_cons, List.flatten_cons, List.append_assoc,
      List.append_assoc] at h
    obtain ⟨rfl, hrest⟩ := o.stretch_append_inj h
    obtain ⟨rfl, hc⟩ := stretches_append_inj hrest
    exact ⟨rfl, hc⟩

theorem assemble_inj {c₁ c₂ : String} {d₁ d₂ : Option (List Resolution)} :
    o.assemble c₁ d₁ = o.assemble c₂ d₂ ↔ c₁ = c₂ ∧ specsOf d₁ = specsOf d₂ := by
  constructor
  · intro h
    have htext := congrArg String.toList h
    rw [assemble_toList, assemble_toList] at htext
    obtain ⟨hspecs, hc⟩ := o.stretches_append_inj htext
    exact ⟨hc, hspecs⟩
  · rintro ⟨rfl, hspecs⟩
    rw [assemble, lines, hspecs, ← lines, ← assemble]

/-! ### What stands for a spec -/

/-- An import under the `k`-th binding, whose literal is a JSON string that says the path of the spec and is
read to its end whatever stands behind it. -/
def Imports (k : ℕ) (s : ModuleSpec) (line : List Char) : Prop :=
  ∃ path : List Char,
    line = "import ".toList ++ (o.bindingPrefix.toList ++ Nat.toDigits 10 k) ++ " from ".toList ++ path ++
      [';'] ∧
    ∀ rest, Json.value Json.maxDepth (path ++ rest) = .ok (.string s.path, rest)

/-- A registration that returns the `k`-th binding, whose literal in single quotes says the runtime name of the
spec and is read to its end whatever stands behind it. -/
def Registers (k : ℕ) (s : ModuleSpec) (line : List Char) : Prop :=
  ∃ name : List Char,
    line = o.registryCallee.toList ++ ['('] ++ name ++ ", function()\x7b return ".toList ++
      (o.bindingPrefix.toList ++ Nat.toDigits 10 k) ++ "\x7d);".toList ∧
    ∀ rest, singleQuoted (name ++ rest) = .ok (s.runtimeName, rest)

/-- The import of a spec and right behind it the registration that returns its binding. -/
def Introduces (k : ℕ) (s : ModuleSpec) (text : List Char) : Prop :=
  ∃ first second : List Char,
    text = first ++ '\n' :: (second ++ ['\n']) ∧ o.Imports k s first ∧ o.Registers k s second

theorem imports_importLine (k : ℕ) (s : ModuleSpec) : o.Imports k s (o.importLine k s) :=
  ⟨Text.Quoted.json s.path.toList, rfl, fun rest => Json.value_quoted _ s.path rest⟩

theorem registers_registrationLine (k : ℕ) (s : ModuleSpec) : o.Registers k s (o.registrationLine k s) :=
  ⟨Text.Quoted.registered s.runtimeName.toList, rfl, fun rest => singleQuoted_registered s.runtimeName rest⟩

theorem introduces_stretch (k : ℕ) (s : ModuleSpec) : o.Introduces k s (o.stretch k s) :=
  ⟨_, _, rfl, o.imports_importLine k s, o.registers_registrationLine k s⟩

theorem specsOf_eq_nil_iff {d : Option (List Resolution)} :
    specsOf d = [] ↔ ∀ r ∈ d.getD [], r.modules = [] := by
  rw [specsOf, List.flatMap_eq_nil_iff]

/-- **An assembled module can be read back.**  Under given options the text tells the compiled template
and the module specs in order, and nothing else.  It consists of one stretch for each spec, which imports
it under a binding of its own and registers what that binding stands for, and of the export; without a
spec, be the list absent, empty or of resolutions without modules, it is the export alone. -/
theorem assemble_reads_back :
    (∀ (c₁ c₂ : String) (d₁ d₂ : Option (List Resolution)), o.assemble c₁ d₁ = o.assemble c₂ d₂ ↔
      c₁ = c₂ ∧ (d₁.getD []).flatMap Resolution.modules = (d₂.getD []).flatMap Resolution.modules) ∧
    (∀ (code : String) (d : Option (List Resolution)),
      let last := "export default ".toList ++ o.templateFactory.toList ++ ['('] ++ code.toList ++ ");".toList
      (∃ texts, (o.assemble code d).toList = texts.flatten ++ last ∧
        List.Forall₂ (fun p text => o.Introduces p.2 p.1 text)
          ((d.getD []).flatMap Resolution.modules).zipIdx texts) ∧
      ((o.assemble code d).toList = last ↔ ∀ r ∈ d.getD [], r.modules = [])) ∧
    ∀ i j, o.bindingPrefix.toList ++ Nat.toDigits 10 i = o.bindingPrefix.toList ++ Nat.toDigits 10 j ↔ i = j := by
  refine ⟨fun _ _ _ _ => o.assemble_inj, fun code d => ⟨?_, ?_⟩, fun _ _ => o.binding_inj⟩
  · refine ⟨o.stretches 0 (specsOf d), o.assemble_toList code d, ?_⟩
    show List.Forall₂ _ (specsOf d).zipIdx _
    rw [stretches, List.forall₂_map_right_iff, List.forall₂_same]
    exact fun p _ => o.introduces_stretch p.2 p.1
  · have hnone : (o.assemble code none).toList = o.exportLine code := o.assemble_toList code none
    show (o.assemble code d).toList = o.exportLine code ↔ _
    rw [← specsOf_eq_nil_iff, ← hnone, String.toList_inj, assemble_inj]
    simp [specsOf]

end EmitOptions

end TemplateLinker
