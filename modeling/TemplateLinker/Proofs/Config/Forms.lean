import TemplateLinker.Config
import TemplateLinker.Proofs.Json.Records

/-!
# Proofs.Config.Forms — configuration data in any form

Each record of the configuration has fields with slots of their own and local readers, so neither the order
of its members nor members under other keys matter, nor whether it is an object or an array
(`Config.records_read_in_any_form`).
-/

namespace TemplateLinker

open Json (Local local_string local_list local_map local_choice local_value)

theorem ModuleSpec.lawful : ModuleSpec.record.Lawful where
  nodup_names := by decide
  get_blank := by simp [record]
  get_set := by simp [record]
  get_set_of_ne := by simp [record]
  ext := by
    rintro ⟨_, _⟩ ⟨_, _⟩ h
    simpa [record] using h
  local_fields := by
    simp only [record, List.forall_mem_cons]
    exact ⟨local_string, local_string, nofun⟩

theorem ModuleSpec.local_reader (room : ℕ) : Local (ModuleSpec.reader room) :=
  record.local_reader lawful.local_fields room

theorem Resolution.lawful : Resolution.record.Lawful where
  nodup_names := by decide
  get_blank := by simp [record]
  get_set := by simp [record]
  get_set_of_ne := by simp [record]
  ext := by
    rintro ⟨_⟩ ⟨_⟩ h
    simpa [record] using h
  local_fields := by
    simp only [record, List.forall_mem_cons]
    exact ⟨local_list ModuleSpec.local_reader, nofun⟩

theorem ModuleTable.local_reader (room : ℕ) : Local (ModuleTable.reader room) :=
  local_map (local_list ModuleSpec.local_reader) room

theorem ResolverTable.lawful : ResolverTable.record.Lawful where
  nodup_names := by decide
  get_blank := by simp [record]
  get_set := by simp [record]
  get_set_of_ne := by simp [record]
  ext := by
    rintro ⟨_, _, _⟩ ⟨_, _, _⟩ h
    simpa [record] using h
  local_fields := by
    simp only [record, List.forall_mem_cons]
    exact ⟨ModuleTable.local_reader, ModuleTable.local_reader, local_choice MissingPolicy.variants, nofun⟩

theorem EmitOptions.lawful : EmitOptions.record.Lawful where
  nodup_names := by decide
  get_blank := by simp [record]
  get_set := by simp [record]
  get_set_of_ne := by simp [record]
  ext := by
    rintro ⟨_, _, _⟩ ⟨_, _, _⟩ h
    simpa [record] using h
  local_fields := by
    simp only [record, List.forall_mem_cons]
    exact ⟨local_string, local_string, local_string, nofun⟩

theorem Environment.lawful : Environment.record.Lawful where
  nodup_names := by decide
  get_blank := by simp [record]
  get_set := by simp [record]
  get_set_of_ne := by simp [record]
  ext := by
    rintro ⟨_, _⟩ ⟨_, _⟩ h
    simpa [record] using h
  local_fields := by
    simp only [record, List.forall_mem_cons]
    exact ⟨local_map local_value, local_map local_value, nofun⟩

theorem Config.lawful : Config.record.Lawful where
  nodup_names := by decide
  get_blank := by simp [record]
  get_set := by simp [record]
  get_set_of_ne := by simp [record]
  ext := by
    rintro ⟨_, _, _⟩ ⟨_, _, _⟩ h
    simpa [record] using h
  local_fields := by
    simp only [record, List.forall_mem_cons]
    exact ⟨local_value, EmitOptions.record.local_reader EmitOptions.lawful.local_fields,
      ResolverTable.record.local_reader ResolverTable.lawful.local_fields, nofun⟩

/-- **Records of the configuration are read in any form.**  An object with a member for each given field is
read as these values and the defaults of the other fields, whatever the order of the members, the other
members among them and the blanks; an array with the values of all fields is read as these; and a field given
again is reported.  Module specs and resolutions have no defaults, so that all their fields are given. -/
theorem Config.records_read_in_any_form :
    ModuleSpec.record.ReadsInAnyForm (Json.readText ModuleSpec.reader)
      (fun d => d.runtimeName.bind fun name => d.path.map fun path => ⟨name, path⟩) ∧
    Resolution.record.ReadsInAnyForm (Json.readText Resolution.reader) (fun d => d.modules.map Resolution.mk) ∧
    ResolverTable.record.ReadsInAnyForm (Json.readText ResolverTable.reader)
      (fun d => some ⟨d.helpers.getD .empty, d.components.getD .empty, d.onMissing.getD .ignore⟩) ∧
    EmitOptions.record.ReadsInAnyForm (Json.readText EmitOptions.reader)
      (fun d => some ⟨d.registryCallee.getD "window.define", d.templateFactory.getD "Ember.HTMLBars.template",
        d.bindingPrefix.getD "a"⟩) ∧
    Environment.record.ReadsInAnyForm (Json.readText Environment.reader)
      (fun d => some ⟨d.features.getD .empty, d.settings.getD .empty⟩) ∧
    Config.record.ReadsInAnyForm Config.parse
      (fun d => some ⟨d.env.getD .null, d.emit.getD {}, d.resolver.getD {}⟩) := by
  refine ⟨ModuleSpec.lawful.readsInAnyForm ?_, Resolution.lawful.readsInAnyForm ?_,
    ResolverTable.lawful.readsInAnyForm ?_, EmitOptions.lawful.readsInAnyForm ?_,
    Environment.lawful.readsInAnyForm ?_, Config.lawful.readsInAnyForm ?_⟩
  · rintro ⟨_ | name, _ | path⟩ s ⟨⟩
    exact ⟨by simp [Json.Record.IsComplete, ModuleSpec.record], rfl⟩
  · rintro ⟨_ | modules⟩ s ⟨⟩
    exact ⟨by simp [Json.Record.IsComplete, Resolution.record], rfl⟩
  · rintro d s ⟨⟩
    exact ⟨Json.Record.isComplete_of_defaults (by decide), rfl⟩
  · rintro d s ⟨⟩
    exact ⟨Json.Record.isComplete_of_defaults (by decide), rfl⟩
  · rintro d s ⟨⟩
    exact ⟨Json.Record.isComplete_of_defaults (by decide), rfl⟩
  · rintro d s ⟨⟩
    exact ⟨Json.Record.isComplete_of_defaults (by decide), rfl⟩

/-- A configuration with its members out of order, an escape in a key, and another key twice, once with a half
of a surrogate pair; emit options as an array; and a module spec that breaks off behind a repeated key. -/
theorem Config.records_read_in_any_form_of_mixed_members :
    Config.parse " \x7b \"x\":[1,\x7b\x7d] ,\"\\u0065mit\":[\"f\",\"g\",\"h\"],\"x\":\"\\ud800\",\"env\" :[] \x7d" =
      .ok ⟨.array [], ⟨"f", "g", "h"⟩, {}⟩ ∧
    Json.readText EmitOptions.reader "[\"f\", \"g\" ,\"h\"]" = .ok ⟨"f", "g", "h"⟩ ∧
    Json.readText ModuleSpec.reader "\x7b\"path\":\"p\",\"path\"" =
      .error (.mismatch (.duplicateField "path")) := by
  obtain ⟨hspec, -, -, hemit, -, hconfig⟩ := Config.records_read_in_any_form
  have hblank : Json.IsGap [' '] := by decide
  refine ⟨?_, ?_, ?_⟩
  · have hone : Json.IsValue ['1'] :=
      .scalar (.number (@Json.IsMagnitude.digits '1' [] [] [] (by decide) (by decide) nofun .none .none))
    have hempty : Json.IsValue "\x7b\x7d".toList := .empty .object .nil
    have hitems : Json.IsValue "[1,\x7b\x7d]".toList :=
      .entries (.cons .item .nil hone .nil (.last .item .nil hempty .nil))
    have hhalf : Json.IsValue ['"', '\\', 'u', 'd', '8', '0', '0', '"'] :=
      .scalar (.string (.unit (by decide) (by decide) (by decide) (by decide) .nil))
    have hx : Json.IsKey "x" "x\"".toList := rfl
    have hkey : Json.IsKey "emit" "\\u0065mit\"".toList := rfl
    have henv : Json.IsKey "env" "env\"".toList := rfl
    have hoptions : EmitOptions.reader 126 "[\"f\",\"g\",\"h\"]".toList = .ok (⟨"f", "g", "h"⟩, []) := rfl
    have hnone : Json.value 126 "[]".toList = .ok (.array [], []) := rfl
    have hother : ∀ f ∈ Config.record.fields, f.name ≠ "x" := by decide
    let d : Config.Draft := ⟨some (.array []), some ⟨"f", "g", "h"⟩, none⟩
    have hx' : Config.record.MemberText 126 d none _ := .other hother hx .nil .nil hitems
    have hemit' : Config.record.MemberText 126 d (some _) _ :=
      .field (v := "[\"f\",\"g\",\"h\"]".toList) (.tail _ (.head _)) rfl hkey .nil .nil hoptions
    have hx'' : Config.record.MemberText 126 d none _ := .other hother hx .nil .nil hhalf
    have henv' : Config.record.MemberText 126 d (some _) _ :=
      .field (v := "[]".toList) (.head _) rfl henv hblank .nil hnone
    have hmembers : Config.record.MembersText 126 d false _ _ true :=
      .cons (.first hblank) hx' (.cons (.comma hblank .nil) hemit' (.cons (.comma .nil .nil) hx''
        (.cons (.comma .nil .nil) henv' .nil)))
    have hobject : Config.record.ObjectText 126 d _ :=
      .mk hmembers (.of_map Json.Field.name (by decide)) (by simp [Config.record, d]) hblank
    have hread := hconfig.object (d := d) rfl hblank hobject .nil
    exact hread
  · let d : EmitOptions.Draft := ⟨some "f", some "g", some "h"⟩
    have hf : Json.Decode.string 126 "\"f\"".toList = .ok ("f", []) := rfl
    have hg : Json.Decode.string 126 "\"g\"".toList = .ok ("g", []) := rfl
    have hh : Json.Decode.string 126 "\"h\"".toList = .ok ("h", []) := rfl
    have hvalues : Json.Record.ValuesText 126 d false EmitOptions.record.fields _ :=
      .cons (v := "\"f\"".toList) (.first .nil) rfl hf
        (.cons (v := "\"g\"".toList) (.comma .nil hblank) rfl hg
          (.cons (v := "\"h\"".toList) (.comma hblank .nil) rfl hh .nil))
    have hread := hemit.array (d := d) rfl .nil (.mk hvalues .nil) .nil
    exact hread
  · let d : ModuleSpec.Draft := ⟨none, some "p"⟩
    have hpath : Json.IsKey "path" "path\"".toList := rfl
    have hp : Json.Decode.string 126 "\"p\"".toList = .ok ("p", []) := rfl
    have hmembers : ModuleSpec.record.MembersText 126 d false _ _ true :=
      .cons (.first .nil) (.field (v := "\"p\"".toList) (.tail _ (.head _)) rfl hpath .nil .nil hp) .nil
    have hrepeated : ModuleSpec.record.RepeatedText 126 d _ _ :=
      @Json.Record.RepeatedText.mk _ _ _ _ _ _ _ _ _ _ [] _ hmembers (List.nodup_singleton _) (.head _)
        (.comma .nil .nil) hpath
    have hread := hspec.repeated .nil hrepeated
    exact hread

end TemplateLinker
