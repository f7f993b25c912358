import Mathlib.Data.List.Basic
import Mathlib.Data.List.Induction
import TemplateLinker.Proofs.Compiler.Setup

/-!
# Proofs.Compiler.Grouping — plugins in groups

A set of plugins has one group for each kind, in the order of the kinds' first plugins, and each group lists
the plugins of its kind in the order of adding (`groups_ofList`).  With two kinds this is a stable grouping
(`toList_ofList`), and a host, which keeps the kinds apart, cannot tell it from the order of adding
(`registerAll_toList`).
-/

namespace TemplateLinker.PluginSet

/-- The groups of some kinds, given the members of each. -/
def groupsOf (members : PluginKind → List Plugin) (kinds : List PluginKind) :
    List (PluginKind × List Plugin) :=
  kinds.map fun k => (k, members k)

theorem addTo_groupsOf_of_not_mem {p : Plugin} {kinds : List PluginKind} (h : p.kind ∉ kinds)
    (members : PluginKind → List Plugin) :
    addTo p (groupsOf members kinds) = groupsOf members kinds ++ [(p.kind, [p])] := by
  induction kinds with
  | nil => rfl
  | cons k kinds ih =>
    obtain ⟨hk, hkinds⟩ := not_or.1 (mt List.mem_cons.2 h)
    have hcons : groupsOf members (k :: kinds) = (k, members k) :: groupsOf members kinds := rfl
    rw [hcons, addTo, if_neg (Ne.symm hk), ih hkinds, List.cons_append]

theorem addTo_groupsOf_of_mem {p : Plugin} {kinds : List PluginKind} (hnodup : kinds.Nodup)
    (h : p.kind ∈ kinds) (members : PluginKind → List Plugin) :
    addTo p (groupsOf members kinds) =
      groupsOf (fun k => if k = p.kind then members k ++ [p] else members k) kinds := by
  induction kinds with
  | nil => exact absurd h List.not_mem_nil
  | cons k kinds ih =>
    obtain ⟨hk, hkinds⟩ := List.nodup_cons.1 hnodup
    have hcons (members : PluginKind → List Plugin) :
        groupsOf members (k :: kinds) = (k, members k) :: groupsOf members kinds := rfl
    rw [hcons, hcons, addTo]
    by_cases hkp : k = p.kind
    · have hrest : groupsOf (fun k => if k = p.kind then members k ++ [p] else members k) kinds =
          groupsOf members kinds := by
        refine List.map_congr_left fun k' hk' => ?_
        have hne : k' ≠ p.kind := fun h => hk (hkp ▸ h ▸ hk')
        exact congrArg (Prod.mk k') (if_neg hne)
      rw [if_pos hkp, if_pos hkp, hrest]
    · have hmem : p.kind ∈ kinds := (List.mem_cons.1 h).resolve_left (Ne.symm hkp)
      rw [if_neg hkp, if_neg hkp, ih hkinds hmem]

/-- The plugins of one kind. -/
def only (ps : List Plugin) (k : PluginKind) : List Plugin := ps.filter (·.kind = k)

theorem only_concat (ps : List Plugin) (p : Plugin) (k : PluginKind) :
    only (ps ++ [p]) k = if k = p.kind then only ps k ++ [p] else only ps k := by
  by_cases hk : k = p.kind
  · simp [only, hk]
  · simp [only, hk, Ne.symm hk]

theorem only_eq_nil {ps : List Plugin} {k : PluginKind} (h : k ∉ ps.map Plugin.kind) : only ps k = [] := by
  refine List.filter_eq_nil_iff.2 fun p hp => ?_
  have hne : p.kind ≠ k := fun hk => h (hk ▸ List.mem_map_of_mem hp)
  simpa using hne

theorem nodup_eraseDups (kinds : List PluginKind) : kinds.eraseDups.Nodup := by
  induction kinds using List.reverseRecOn with
  | nil => exact List.nodup_nil
  | append_singleton kinds k ih =>
    rw [eraseDups_concat]
    split
    · exact ih
    · next hk =>
      refine List.nodup_append.2 ⟨ih, by simp, fun a ha b hb => ?_⟩
      rintro rfl
      exact hk (List.mem_singleton.1 hb ▸ List.mem_eraseDups.1 ha)

theorem ofList_concat (ps : List Plugin) (p : Plugin) : ofList (ps ++ [p]) = (ofList ps).push p := by
  rw [ofList, List.foldl_append]
  rfl

/-- One group for each kind, in the order of first plugins, and in it the plugins of the kind in their
order. -/
theorem groups_ofList (ps : List Plugin) :
    (ofList ps).groups = groupsOf (only ps) (ps.map Plugin.kind).eraseDups := by
  induction ps using List.reverseRecOn with
  | nil => rfl
  | append_singleton ps p ih =>
    rw [ofList_concat, push, ih, List.map_append, List.map_singleton, eraseDups_concat]
    by_cases hp : p.kind ∈ ps.map Plugin.kind
    · rw [if_pos hp, addTo_groupsOf_of_mem (nodup_eraseDups _) (List.mem_eraseDups.2 hp)]
      exact congrArg (groupsOf · _) (funext fun k => (only_concat ps p k).symm)
    · have hold : groupsOf (only (ps ++ [p])) (ps.map Plugin.kind).eraseDups =
          groupsOf (only ps) (ps.map Plugin.kind).eraseDups := by
        refine List.map_congr_left fun k hk => ?_
        have hne : k ≠ p.kind := fun h => hp (h ▸ List.mem_eraseDups.1 hk)
        rw [only_concat, if_neg hne]
      have hnew : only (ps ++ [p]) p.kind = [p] := by
        rw [only_concat, if_pos rfl, only_eq_nil hp, List.nil_append]
      rw [if_neg hp, addTo_groupsOf_of_not_mem (mt List.mem_eraseDups.1 hp), ← hold, groupsOf, groupsOf,
        List.map_append, List.map_singleton, hnew]

/-! ### The two kinds -/

/-- The other kind. -/
def other : PluginKind → PluginKind
  | .pass => .syntaxExtension
  | .syntaxExtension => .pass

theorem eq_other_iff {k k' : PluginKind} : k' = other k ↔ k' ≠ k := by
  cases k <;> cases k' <;> decide

/-- The plugins of the first one's kind, then those of the other kind. -/
def grouped : List Plugin → List Plugin
  | [] => []
  | p :: ps => (p :: ps).filter (·.kind = p.kind) ++ (p :: ps).filter (·.kind ≠ p.kind)

theorem grouped_cons (p : Plugin) (ps : List Plugin) :
    grouped (p :: ps) = only (p :: ps) p.kind ++ only (p :: ps) (other p.kind) := by
  have hothers : (p :: ps).filter (·.kind ≠ p.kind) = only (p :: ps) (other p.kind) :=
    List.filter_congr fun q _ => by simp [eq_other_iff]
  rw [grouped, hothers]
  rfl

theorem eraseDups_of_forall_eq {ks : List PluginKind} {k : PluginKind} (h : ∀ a ∈ ks, a = k) (hne : ks ≠ []) :
    ks.eraseDups = [k] := by
  cases ks with
  | nil => exact absurd rfl hne
  | cons a ks =>
    obtain ⟨rfl, hks⟩ := List.forall_mem_cons.1 h
    have hnone : ks.filter (fun b => !b == a) = [] := List.filter_eq_nil_iff.2 fun b hb => by simp [hks b hb]
    rw [List.eraseDups_cons, hnone]
    rfl

theorem toList_ofList (ps : List Plugin) : (ofList ps).toList = grouped ps := by
  have htoList : (ofList ps).toList = (ps.map Plugin.kind).eraseDups.flatMap (only ps) := by
    rw [toList, groups_ofList, groupsOf, List.flatMap_map]
  rw [htoList]
  cases ps with
  | nil => rfl
  | cons p ps =>
    rw [List.map_cons, List.eraseDups_cons, List.flatMap_cons, grouped_cons]
    refine congrArg (only (p :: ps) p.kind ++ ·) ?_
    have hothers : ∀ k ∈ (ps.map Plugin.kind).filter (fun b => !b == p.kind), k = other p.kind :=
      fun k hk => eq_other_iff.2 (by simpa using (List.mem_filter.1 hk).2)
    by_cases hnone : (ps.map Plugin.kind).filter (fun b => !b == p.kind) = []
    · have hempty : only (p :: ps) (other p.kind) = [] := by
        refine List.filter_eq_nil_iff.2 (List.forall_mem_cons.2 ⟨by simp [eq_other_iff], fun q hq => ?_⟩)
        simpa [eq_other_iff] using List.filter_eq_nil_iff.1 hnone q.kind (List.mem_map_of_mem hq)
      rw [hnone, hempty]
      rfl
    · rw [eraseDups_of_forall_eq hothers hnone, List.flatMap_singleton]

theorem grouped_perm (ps : List Plugin) : (grouped ps).Perm ps := by
  cases ps with
  | nil => exact .nil
  | cons p ps =>
    rw [grouped]
    simpa using List.filter_append_perm (fun q : Plugin => q.kind = p.kind) (p :: ps)

theorem only_grouped (ps : List Plugin) (k : PluginKind) : only (grouped ps) k = only ps k := by
  cases ps with
  | nil => rfl
  | cons p ps =>
    rw [grouped, only, only, List.filter_append, List.filter_filter, List.filter_filter]
    by_cases hk : k = p.kind
    · have hothers : (p :: ps).filter (fun q => decide (q.kind = k) && decide (q.kind ≠ p.kind)) = [] :=
        List.filter_eq_nil_iff.2 fun q _ => by simp [hk]
      rw [hothers, List.append_nil]
      exact List.filter_congr fun q _ => by simp [hk]
    · have hsame : (p :: ps).filter (fun q => decide (q.kind = k) && decide (q.kind = p.kind)) = [] :=
        List.filter_eq_nil_iff.2 fun q _ => by simpa using fun h => h ▸ hk
      rw [hsame, List.nil_append]
      exact List.filter_congr fun q _ => by simpa using fun h => h ▸ hk

theorem ofKind_ofList (ps : List Plugin) (k : PluginKind) : (ofList ps).ofKind k = only ps k := by
  induction ps using List.reverseRecOn with
  | nil => rfl
  | append_singleton ps p ih =>
    rw [ofList_concat, ofKind_push, ih, only_concat]
    exact if_congr eq_comm rfl rfl

/-! ### Registering a set -/

/-- The kind of a plugin is told by its constructor. -/
theorem only_pass (ps : List Plugin) : only ps .pass = (Plugin.passesOf ps).map .pass := by
  induction ps with
  | nil => rfl
  | cons p ps ih =>
    cases p with
    | pass p => exact congrArg (Plugin.pass p :: ·) ih
    | syntaxExtension e => exact ih

theorem only_syntaxExtension (ps : List Plugin) :
    only ps .syntaxExtension = (Plugin.extensionsOf ps).map .syntaxExtension := by
  induction ps with
  | nil => rfl
  | cons p ps ih =>
    cases p with
    | pass p => exact ih
    | syntaxExtension e => exact congrArg (Plugin.syntaxExtension e :: ·) ih

theorem passesOf_toList (ps : List Plugin) : Plugin.passesOf (ofList ps).toList = Plugin.passesOf ps := by
  have hinjective : Function.Injective Plugin.pass := fun _ _ => Plugin.pass.inj
  refine List.map_injective_iff.2 hinjective ?_
  rw [← only_pass, ← only_pass, toList_ofList, only_grouped]

theorem extensionsOf_toList (ps : List Plugin) :
    Plugin.extensionsOf (ofList ps).toList = Plugin.extensionsOf ps := by
  have hinjective : Function.Injective Plugin.syntaxExtension := fun _ _ => Plugin.syntaxExtension.inj
  refine List.map_injective_iff.2 hinjective ?_
  rw [← only_syntaxExtension, ← only_syntaxExtension, toList_ofList, only_grouped]

theorem toList_pass_cons (p : Pass) (rest : List Plugin) :
    (ofList (.pass p :: rest)).toList =
      (Plugin.passesOf (.pass p :: rest)).map .pass ++
        (Plugin.extensionsOf (.pass p :: rest)).map .syntaxExtension := by
  rw [toList_ofList, grouped_cons, ← only_pass, ← only_syntaxExtension]
  rfl

theorem toList_syntaxExtension_cons (e : SyntaxExtension) (rest : List Plugin) :
    (ofList (.syntaxExtension e :: rest)).toList =
      (Plugin.extensionsOf (.syntaxExtension e :: rest)).map .syntaxExtension ++
        (Plugin.passesOf (.syntaxExtension e :: rest)).map .pass := by
  rw [toList_ofList, grouped_cons, ← only_pass, ← only_syntaxExtension]
  rfl

/-- A host that registers a set is as if each plugin had been registered when it was added to the set. -/
theorem registerAll_toList (h : WireHost) (ps : List Plugin) :
    Session.registerAll h (ofList ps).toList = Session.registerAll h ps := by
  rw [Session.registerAll_wireHost, Session.registerAll_wireHost, passesOf_toList, extensionsOf_toList]

/-- The host of a session is that of direct registration, the linking pass last. -/
theorem host_start (h : WireHost) (resolver : Resolver) (overrides : Json) (ps : List Plugin) :
    (Session.start h resolver overrides (ofList ps)).host =
      { Session.registerAll h (ps ++ [.pass (.linking resolver)]) with
        environment := h.environment.merge overrides } := by
  have happend (qs rs : List Plugin) :
      Session.registerAll h (qs ++ rs) = Session.registerAll (Session.registerAll h qs) rs :=
    List.foldl_append
  have hregistered : Session.registerAll h ((ofList ps).toList ++ [.pass (.linking resolver)]) =
      Session.registerAll h (ps ++ [.pass (.linking resolver)]) := by
    rw [happend, happend, registerAll_toList]
  have henvironment : (Session.registerAll h (ps ++ [.pass (.linking resolver)])).environment =
      h.environment := by
    rw [Session.registerAll_wireHost]
  rw [Session.start, hregistered]
  show WireHost.mk _ _ _ ((Session.registerAll h _).environment.merge overrides) = _
  rw [henvironment]

/-- **Grouping plugins loses and reorders nothing that can be seen.**  A set to which plugins were added, at once
or one by one, lists those of the first one's kind and then those of the other kind, each in the order of
adding, and no other plugins; passes are of the one kind and syntax extensions of the other.  A session that starts from it leaves its host as registering the plugins
one by one and then the linking pass would. -/
theorem registers_as_added (collected added : List Plugin) :
    let s := added.foldl push (ofList collected)
    let inserted := collected ++ added
    s.toList = grouped inserted ∧ s.toList.Perm inserted ∧
    (∀ k, s.ofKind k = inserted.filter (·.kind = k)) ∧
    (let passes := (Plugin.passesOf inserted).map Plugin.pass
      let extensions := (Plugin.extensionsOf inserted).map Plugin.syntaxExtension
      s.ofKind .pass = passes ∧ s.ofKind .syntaxExtension = extensions ∧
      (∀ p rest, inserted = .pass p :: rest → s.toList = passes ++ extensions) ∧
      ∀ e rest, inserted = .syntaxExtension e :: rest → s.toList = extensions ++ passes) ∧
    s.size = inserted.length ∧
    ∀ (h : WireHost) (resolver : Resolver) (overrides : Json),
      let host := (Session.start h resolver overrides s).host
      host.passes.map Pass.name =
        h.passes.map Pass.name ++ (Plugin.passesOf inserted).map Pass.name ++ [linkingName] ∧
      host.passes = h.passes ++ Plugin.passesOf inserted ++ [.linking resolver] ∧
      host.extensions = h.extensions ++ Plugin.extensionsOf inserted ∧
      host = { Session.registerAll h (inserted ++ [.pass (.linking resolver)]) with
        environment := h.environment.merge overrides } := by
  intro s inserted
  have hs : s = ofList inserted := by
    show added.foldl push (collected.foldl push {}) = (collected ++ added).foldl push {}
    rw [List.foldl_append]
  rw [hs]
  have hperm : (ofList inserted).toList.Perm inserted := toList_ofList inserted ▸ grouped_perm inserted
  refine ⟨toList_ofList inserted, hperm, ofKind_ofList inserted, ⟨?_, ?_, fun p rest h => ?_, fun e rest h => ?_⟩,
    hperm.length_eq, fun h resolver overrides => ?_⟩
  · rw [ofKind_ofList, only_pass]
  · rw [ofKind_ofList, only_syntaxExtension]
  · rw [h, toList_pass_cons]
  · rw [h, toList_syntaxExtension_cons]
  have hpasses : (Session.start h resolver overrides (ofList inserted)).host.passes =
      h.passes ++ Plugin.passesOf inserted ++ [.linking resolver] := by
    rw [host_start, Session.registerAll_wireHost]
    simp [Plugin.passesOf]
  have hextensions : (Session.start h resolver overrides (ofList inserted)).host.extensions =
      h.extensions ++ Plugin.extensionsOf inserted := by
    rw [host_start, Session.registerAll_wireHost]
    simp [Plugin.extensionsOf]
  refine ⟨?_, hpasses, hextensions, host_start h resolver overrides inserted⟩
  rw [hpasses, List.map_append, List.map_append]
  rfl

end TemplateLinker.PluginSet
