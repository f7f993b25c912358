import TemplateLinker.Config
import TemplateLinker.Proofs.Json.RoundTrip

/-!
# Proofs.Config.RoundTrip — configuration data reads back

One rule for each type of the configuration: its reader takes the written form of a value back as that
value, maps with their keys in order.  Most types nest a few brackets whatever they hold
(`ResolverTable.depth_toJson_le`); an environment and a configuration hold JSON of any shape, which has to
be storable and to leave room for the brackets around it (`Config.settings_read_back`).
-/

namespace TemplateLinker

open Json (Reads reads_string reads_choice reads_value reads_members)

/-! ### Resolutions -/

theorem ModuleSpec.reads (s : ModuleSpec) : Reads ModuleSpec.reader s.toJson s :=
  record.reads ⟨some s.runtimeName, some s.path⟩ (by decide) rfl
    (.cons rfl (reads_string s.runtimeName) (.cons rfl (reads_string s.path) .nil))

theorem ModuleSpec.depth_toJson (s : ModuleSpec) : s.toJson.depth = 1 := rfl

theorem ModuleSpec.reads_list (ss : List ModuleSpec) :
    Reads (Json.Decode.list reader) (.array (ss.map toJson)) ss :=
  .list_map reads ss

theorem ModuleSpec.depth_list_le (ss : List ModuleSpec) : (Json.array (ss.map toJson)).depth ≤ 2 :=
  Json.depth_array_map_le (fun s => Nat.le_of_eq s.depth_toJson) ss

theorem Resolution.reads (r : Resolution) : Reads Resolution.reader r.toJson r :=
  record.reads ⟨some r.modules⟩ (by decide) rfl (.cons rfl (ModuleSpec.reads_list r.modules) .nil)

theorem Resolution.depth_toJson_le (r : Resolution) : r.toJson.depth ≤ 3 := by
  have hmodules := ModuleSpec.depth_list_le r.modules
  simp only [toJson, Json.depth, Json.membersDepth] at hmodules ⊢
  omega

/-! ### Resolver tables -/

theorem MissingPolicy.reads (p : MissingPolicy) : Reads MissingPolicy.reader p.toJson p :=
  reads_choice (by cases p <;> rfl)

theorem ModuleTable.reads (t : ModuleTable) : Reads ModuleTable.reader t.toJson t :=
  .map_entries ModuleSpec.reads_list t

theorem ModuleTable.depth_toJson_le (t : ModuleTable) : t.toJson.depth ≤ 3 :=
  Json.depth_object_map_le ModuleSpec.depth_list_le t.entries

theorem ResolverTable.reads (t : ResolverTable) : Reads ResolverTable.reader t.toJson t :=
  record.reads ⟨some t.helpers, some t.components, some t.onMissing⟩ (by decide) rfl
    (.cons rfl t.helpers.reads (.cons rfl t.components.reads (.cons rfl t.onMissing.reads .nil)))

theorem ResolverTable.depth_toJson_le (t : ResolverTable) : t.toJson.depth ≤ 4 := by
  have hhelpers := t.helpers.depth_toJson_le
  have hcomponents := t.components.depth_toJson_le
  have hpolicy : t.onMissing.toJson.depth = 0 := rfl
  simp only [toJson, Json.depth, Json.membersDepth]
  omega

/-! ### Configurations -/

theorem EmitOptions.reads (o : EmitOptions) : Reads EmitOptions.reader o.toJson o :=
  record.reads ⟨some o.registryCallee, some o.templateFactory, some o.bindingPrefix⟩ (by decide) rfl
    (.cons rfl (reads_string o.registryCallee) (.cons rfl (reads_string o.templateFactory)
      (.cons rfl (reads_string o.bindingPrefix) .nil)))

theorem EmitOptions.depth_toJson (o : EmitOptions) : o.toJson.depth = 1 := rfl

theorem Environment.reads {e : Environment} (hfeatures : Json.MembersStorable e.features.entries)
    (hsettings : Json.MembersStorable e.settings.entries) : Reads Environment.reader e.toJson e :=
  record.reads ⟨some e.features, some e.settings⟩ (by decide) rfl
    (.cons rfl (.map (reads_members hfeatures)) (.cons rfl (.map (reads_members hsettings)) .nil))

theorem Config.reads {c : Config} (henv : c.env.IsStorable) : Reads Config.reader c.toJson c :=
  record.reads ⟨some c.env, some c.emit, some c.resolver⟩ (by decide) rfl
    (.cons rfl (reads_value henv) (.cons rfl c.emit.reads (.cons rfl c.resolver.reads .nil)))

/-- **Configuration data reads back.**  The text written for a value is read as that value: names of modules,
specs, resolutions, policies, tables and emit options without exception; environments and configurations
if the JSON in them has only integers of 64 bits for numbers and no key twice in an object, and if no more
brackets are open at once than a reader opens. -/
theorem Config.settings_read_back :
    (∀ m : ModuleName, Json.readText Json.Decode.string (Json.string m).text = .ok m) ∧
    (∀ s : ModuleSpec, Json.readText ModuleSpec.reader s.toJson.text = .ok s) ∧
    (∀ r : Resolution, Json.readText Resolution.reader r.toJson.text = .ok r) ∧
    (∀ p : MissingPolicy, Json.readText MissingPolicy.reader p.toJson.text = .ok p) ∧
    (∀ t : ResolverTable, Json.readText ResolverTable.reader t.toJson.text = .ok t) ∧
    (∀ o : EmitOptions, Json.readText EmitOptions.reader o.toJson.text = .ok o) ∧
    (∀ e : Environment, Json.MembersStorable e.features.entries → Json.MembersStorable e.settings.entries →
      e.toJson.depth ≤ Json.maxDepth → Json.readText Environment.reader e.toJson.text = .ok e) ∧
    ∀ c : Config, c.env.IsStorable → c.toJson.depth ≤ Json.maxDepth → Config.parse c.toJson.text = .ok c := by
  have hroom : ∀ {n : ℕ}, n ≤ 4 → n ≤ Json.maxDepth := fun h => Nat.le_trans h (by decide)
  refine ⟨fun m => (reads_string m).readText (Nat.zero_le _),
    fun s => s.reads.readText (hroom (by rw [s.depth_toJson]; decide)),
    fun r => r.reads.readText (hroom (Nat.le_succ_of_le r.depth_toJson_le)),
    fun p => p.reads.readText (Nat.zero_le _),
    fun t => t.reads.readText (hroom t.depth_toJson_le),
    fun o => o.reads.readText (hroom (by rw [o.depth_toJson]; decide)),
    fun e hfeatures hsettings hdepth => (Environment.reads hfeatures hsettings).readText hdepth,
    fun c henv hdepth => (Config.reads henv).readText hdepth⟩

/-- The least and the greatest integer, escapes in keys and values, keys that are not in order, and as many
brackets as a reader opens. -/
theorem Config.settings_read_back_of_extremes :
    let innermost : Json := .object [("max", .integer (2 ^ 64 - 1)), ("\"\\\n\x01é", .integer (-2 ^ 63))]
    let enclose (v : Json) : Json := .array [.string "\x7f\t", v]
    let c : Config :=
      { env := Nat.iterate enclose 125 innermost
        emit := { bindingPrefix := "\u2028" }
        resolver := { helpers := .ofEntries [("z", [⟨"/a", "b"⟩]), ("a", [])], onMissing := .error } }
    c.env.IsStorable ∧ c.toJson.depth ≤ Json.maxDepth ∧ Config.parse c.toJson.text = .ok c := by
  intro innermost enclose c
  have hinnermost : innermost.IsStorable := by
    have hkeys : (Entries.keys [("max", Json.integer (2 ^ 64 - 1)),
        ("\"\\\n\x01é", .integer (-2 ^ 63))]).Nodup := by
      decide
    have hmax : Json.IsExact (2 ^ 64 - 1) := by decide
    have hmin : Json.IsExact (-2 ^ 63) := by decide
    exact ⟨hkeys, hmax, hmin, trivial⟩
  have henclose : ∀ (n : ℕ) (v : Json), v.IsStorable → (Nat.iterate enclose n v).IsStorable := by
    intro n
    induction n with
    | zero => exact fun _ h => h
    | succ n ih => exact fun v h => ih _ ⟨trivial, h, trivial⟩
  have henv : c.env.IsStorable := henclose 125 innermost hinnermost
  have hdepth : c.toJson.depth ≤ Json.maxDepth := by decide +kernel
  exact ⟨henv, hdepth, Config.settings_read_back.2.2.2.2.2.2.2 c henv hdepth⟩

end TemplateLinker
