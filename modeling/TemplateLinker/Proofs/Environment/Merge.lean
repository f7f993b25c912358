import TemplateLinker.Environment
import TemplateLinker.Proofs.Json.DistinctKeys

/-!
# Proofs.Environment.Merge — what overrides do to an environment

Merging writes the flags and the settings that a value supplies (`flags`, `settings`) over those of the
environment, and so inherits the laws of ordered maps: what is supplied wins (`feature?_merge`,
`setting?_merge`), new keys go to the end (`keys_features_merge`, `keys_settings_merge`), and after several
overrides each key holds what the last of them supplies (`feature?_foldl_merge`, `setting?_foldl_merge`).
-/

namespace TemplateLinker

namespace Environment

def setting? (e : Environment) (name : String) : Option Json := e.settings.get? name

/-- The value that `o` has for a flag: that of the member of its `FEATURES` object. -/
def suppliedFlag? (o : Json) (name : String) : Option Json := (o.get? featuresKey).bind (Json.get? name)

/-- The value that `o` has for a setting: that of its own member, unless this is `FEATURES`. -/
def suppliedSetting? (o : Json) (name : String) : Option Json :=
  if name = featuresKey then none else o.get? name

/-- The names of the flags that `o` supplies, in order. -/
def suppliedFlags (o : Json) : List String := (o.get? featuresKey).elim [] Json.keys

/-- The names of the settings that `o` supplies, in order. -/
def suppliedSettings (o : Json) : List String := o.keys.filter (· ≠ featuresKey)

/-! ### One value over an environment -/

/-- The flags that are written. -/
def flagsIn (o : Json) : Entries Json := flagsOf (o.members?.getD [])

/-- The settings that are written. -/
def settingsIn (o : Json) : Entries Json := settingsOf (o.members?.getD [])

theorem merge_eq (base : Environment) (o : Json) :
    base.merge o = ⟨base.features.insertAll (flagsIn o), base.settings.insertAll (settingsIn o)⟩ := by
  rcases h : o.members? with _ | ms
  · rw [merge_of_members?_eq_none base h, flagsIn, settingsIn, h]
    rfl
  · simp [merge, flagsIn, settingsIn, h]

theorem get?_flagsIn (o : Json) (name : String) :
    Entries.get? name (flagsIn o) = suppliedFlag? o name := by
  rw [flagsIn, flagsOf, suppliedFlag?, Json.get?]
  rcases o.members? with _ | ms
  · rfl
  · rcases hf : Entries.get? featuresKey ms with _ | f
    · simp [hf]
    · rcases hfs : f.members? with _ | fs
      · simp [hf, hfs, Json.get?]
      · simp [hf, hfs, Json.get?]

theorem keys_flagsIn (o : Json) : Entries.keys (flagsIn o) = suppliedFlags o := by
  rw [flagsIn, flagsOf, suppliedFlags, Json.get?]
  rcases o.members? with _ | ms
  · rfl
  · rcases hf : Entries.get? featuresKey ms with _ | f
    · simp [hf]
    · simp [hf, Json.keys]

theorem get?_settingsIn (o : Json) (name : String) :
    Entries.get? name (settingsIn o) = suppliedSetting? o name := by
  rw [settingsIn, settingsOf, suppliedSetting?, Json.get?]
  rcases o.members? with _ | ms
  · simp
  · exact Entries.get?_filter_ne name featuresKey ms

theorem keys_settingsIn (o : Json) : Entries.keys (settingsIn o) = suppliedSettings o := by
  rw [settingsIn, settingsOf, suppliedSettings, Json.keys, Entries.keys, Entries.keys, List.filter_map]
  rfl

section Merge

variable {o : Json} (ho : o.HasDistinctKeys) (base : Environment)

include ho

theorem nodup_suppliedFlags : (suppliedFlags o).Nodup := by
  rw [suppliedFlags]
  rcases hf : o.get? featuresKey with _ | f
  · exact List.nodup_nil
  · exact (ho.get? hf).nodup_keys

theorem nodup_suppliedSettings : (suppliedSettings o).Nodup := ho.nodup_keys.filter _

theorem feature?_merge (name : String) :
    (base.merge o).feature? name = (suppliedFlag? o name).or (base.feature? name) := by
  rw [merge_eq, ← get?_flagsIn]
  exact OrderedMap.get?_insertAll (keys_flagsIn o ▸ nodup_suppliedFlags ho) base.features name

theorem setting?_merge (name : String) :
    (base.merge o).setting? name = (suppliedSetting? o name).or (base.setting? name) := by
  rw [merge_eq, ← get?_settingsIn]
  exact OrderedMap.get?_insertAll (keys_settingsIn o ▸ nodup_suppliedSettings ho) base.settings name

theorem keys_features_merge :
    (base.merge o).features.keys =
      base.features.keys ++ (suppliedFlags o).filter (· ∉ base.features.keys) := by
  rw [merge_eq, ← keys_flagsIn]
  exact OrderedMap.keys_insertAll (keys_flagsIn o ▸ nodup_suppliedFlags ho) base.features

theorem keys_settings_merge :
    (base.merge o).settings.keys =
      base.settings.keys ++ (suppliedSettings o).filter (· ∉ base.settings.keys) := by
  rw [merge_eq, ← keys_settingsIn]
  exact OrderedMap.keys_insertAll (keys_settingsIn o ▸ nodup_suppliedSettings ho) base.settings

theorem merge_merge : (base.merge o).merge o = base.merge o := by
  rw [merge_eq _ o, merge_eq base o,
    OrderedMap.insertAll_insertAll (keys_flagsIn o ▸ nodup_suppliedFlags ho),
    OrderedMap.insertAll_insertAll (keys_settingsIn o ▸ nodup_suppliedSettings ho)]

end Merge

/-! ### Several values, one after another -/

/-- If every step covers a view of the state by what it supplies, a run shows what is supplied last. -/
theorem view_foldl {σ β α : Type} {step : σ → β → σ} (view : σ → Option α) (supplied : β → Option α)
    {steps : List β} (hstep : ∀ b ∈ steps, ∀ s, view (step s b) = (supplied b).or (view s)) (s : σ) :
    view (steps.foldl step s) = (steps.reverse.findSome? supplied).or (view s) := by
  induction steps generalizing s with
  | nil => rfl
  | cons b steps ih =>
    obtain ⟨hb, hsteps⟩ := List.forall_mem_cons.1 hstep
    rw [List.foldl_cons, ih hsteps, hb, List.reverse_cons, List.findSome?_append, Option.or_assoc,
      List.findSome?_singleton]

section Several

variable {os : List Json} (hos : ∀ o ∈ os, o.HasDistinctKeys) (base : Environment) (name : String)

include hos

theorem feature?_foldl_merge :
    (os.foldl merge base).feature? name =
      (os.reverse.findSome? (suppliedFlag? · name)).or (base.feature? name) :=
  view_foldl (feature? · name) (suppliedFlag? · name) (fun o ho e => feature?_merge (hos o ho) e name) base

theorem setting?_foldl_merge :
    (os.foldl merge base).setting? name =
      (os.reverse.findSome? (suppliedSetting? · name)).or (base.setting? name) :=
  view_foldl (setting? · name) (suppliedSetting? · name) (fun o ho e => setting?_merge (hos o ho) e name) base

end Several

/-- **Merging is an update that keeps order.**  Anything but an object changes nothing.  What a value supplies
covers the flags and settings of the environment, a member `FEATURES` being no setting; keys keep their
place, and new ones follow in the order of the value.  Merging the value again changes nothing, and after
several values each key holds what the last of them supplies. -/
theorem merge_updates {o : Json} (ho : o.HasDistinctKeys) (base : Environment) :
    (o.members? = none → base.merge o = base) ∧
    (∀ name, (base.merge o).feature? name = (suppliedFlag? o name).or (base.feature? name)) ∧
    (∀ name, (base.merge o).setting? name = (suppliedSetting? o name).or (base.setting? name)) ∧
    (base.merge o).setting? featuresKey = base.setting? featuresKey ∧
    (base.merge o).features.keys =
      base.features.keys ++ (suppliedFlags o).filter (· ∉ base.features.keys) ∧
    (base.merge o).settings.keys =
      base.settings.keys ++ (suppliedSettings o).filter (· ∉ base.settings.keys) ∧
    (base.merge o).features.keys.Nodup ∧ (base.merge o).settings.keys.Nodup ∧
    (base.merge o).merge o = base.merge o ∧
    ∀ os : List Json, (∀ o ∈ os, o.HasDistinctKeys) → ∀ name,
      (os.foldl merge base).feature? name =
        (os.reverse.findSome? (suppliedFlag? · name)).or (base.feature? name) ∧
      (os.foldl merge base).setting? name =
        (os.reverse.findSome? (suppliedSetting? · name)).or (base.setting? name) := by
  have hfeatures : (base.merge o).setting? featuresKey = base.setting? featuresKey := by
    rw [setting?_merge ho, suppliedSetting?, if_pos rfl, Option.none_or]
  refine ⟨merge_of_members?_eq_none base, feature?_merge ho base, setting?_merge ho base, hfeatures,
    keys_features_merge ho base, keys_settings_merge ho base, (base.merge o).features.nodup_keys,
    (base.merge o).settings.nodup_keys, merge_merge ho base, fun os hos name => ?_⟩
  exact ⟨feature?_foldl_merge hos base name, setting?_foldl_merge hos base name⟩

/-- A text with a flag that is set anew, a setting that keeps its place and one that is new, over an
environment that has a setting of the name `FEATURES`. -/
theorem merge_updates_of_text :
    let base : Environment :=
      { features := .ofEntries [("b", .null), ("a", .null)]
        settings := .ofEntries [("FEATURES", .bool true), ("x", .null)] }
    ∃ o, Json.parse "\x7b\"y\":1,\"FEATURES\":\x7b\"c\":1,\"a\":2\x7d,\"x\":3\x7d" = .ok o ∧
      o.HasDistinctKeys ∧ (base.merge o).features.keys = ["b", "a", "c"] ∧
      (base.merge o).settings.keys = ["FEATURES", "x", "y"] ∧ (base.merge o).merge o = base.merge o := by
  intro base
  have hparse : Json.parse "\x7b\"y\":1,\"FEATURES\":\x7b\"c\":1,\"a\":2\x7d,\"x\":3\x7d" =
      .ok (.object [("y", .integer 1), ("FEATURES", .object [("c", .integer 1), ("a", .integer 2)]),
        ("x", .integer 3)]) := by
    rfl
  have ho := Json.hasDistinctKeys_of_parse hparse
  obtain ⟨-, -, -, -, hfeatures, hsettings, -, -, hagain, -⟩ := merge_updates ho base
  exact ⟨_, hparse, ho, hfeatures, hsettings, hagain⟩

end Environment

end TemplateLinker
