import Mathlib.Data.List.Induction
import TemplateLinker.Dependencies.Store
import TemplateLinker.Proofs.Dependencies.Recording

/-!
# Proofs.Dependencies.Interleaving — collectors that take turns on one map

The steps of a store come down to changes: a module is started, or a resolution is recorded in the module
for which the collector in use was obtained, however old that collector is.  `Gathered` reads the list of
a module off the changes: what is recorded in it behind the last change that starts it.  One step keeps
a store in agreement with its changes (`Follows.step`), so every run does (`follows_after`).
-/

namespace TemplateLinker.DependencyStore

/-! ### The changes of a sequence of steps -/

inductive Change where
  | started (module : ModuleName)
  | recorded (module : ModuleName) (resolution : Resolution)
  deriving DecidableEq, Repr

/-- The modules started, one for each time. -/
def startedIn (cs : List Change) : List ModuleName :=
  cs.filterMap fun
    | .started m => some m
    | .recorded _ _ => none

/-- The resolutions recorded in `m`. -/
def recordedIn (m : ModuleName) (cs : List Change) : List Resolution :=
  cs.filterMap fun
    | .started _ => none
    | .recorded m' r => if m' = m then some r else none

/-- The change that a step makes after the changes `cs`; the collector number `i` is the one obtained by
the `i`-th start. -/
def change? (cs : List Change) : Step → Option Change
  | .start m => some (.started m)
  | .record i r => (startedIn cs)[i]?.map (.recorded · r)
  | .lookup _ => none
  | .inspect _ => none
  | .clone => none
  | .fresh => none

/-- The changes of some steps on one map. -/
def changes (steps : List Step) : List Change := steps.foldl (fun cs x => cs ++ (change? cs x).toList) []

/-- The store after some steps. -/
def after (steps : List Step) : DependencyStore := steps.foldl (fun s x => (s.step x).2) {}

theorem changes_concat (steps : List Step) (x : Step) :
    changes (steps ++ [x]) = changes steps ++ (change? (changes steps) x).toList := by
  simp [changes]

theorem after_concat (steps : List Step) (x : Step) : after (steps ++ [x]) = ((after steps).step x).2 := by
  simp [after]

theorem startedIn_append (cs ds : List Change) : startedIn (cs ++ ds) = startedIn cs ++ startedIn ds :=
  List.filterMap_append

theorem recordedIn_append (m : ModuleName) (cs ds : List Change) :
    recordedIn m (cs ++ ds) = recordedIn m cs ++ recordedIn m ds :=
  List.filterMap_append

/-! ### The list of a module, read off the changes -/

/-- The list of `m` after some changes: there is none if `m` was never started, otherwise it is what was
recorded in `m` since it was last started. -/
inductive Gathered (m : ModuleName) : List Change → Option (List Resolution) → Prop
  | never {cs : List Change} : .started m ∉ cs → Gathered m cs none
  | since {before after : List Change} : .started m ∉ after →
      Gathered m (before ++ .started m :: after) (some (recordedIn m after))

namespace Gathered

variable {m : ModuleName} {cs : List Change} {list? : Option (List Resolution)}

theorem started (m : ModuleName) (cs : List Change) : Gathered m (cs ++ [.started m]) (some []) :=
  .since List.not_mem_nil

/-- A change that does not start `m` adds what it records in `m`. -/
theorem concat (h : Gathered m cs list?) {c : Change} (hc : c ≠ .started m) :
    Gathered m (cs ++ [c]) (list?.map (· ++ recordedIn m [c])) := by
  have hlast {ds : List Change} (hds : .started m ∉ ds) : .started m ∉ ds ++ [c] := by
    simp [hds, Ne.symm hc]
  cases h with
  | never h => exact .never (hlast h)
  | @since before after h =>
    have hgathered : Gathered m (before ++ .started m :: (after ++ [c]))
        (some (recordedIn m (after ++ [c]))) := .since (hlast h)
    rwa [recordedIn_append, ← List.cons_append, ← List.append_assoc] at hgathered

theorem eq_none_iff (h : Gathered m cs list?) : list? = none ↔ .started m ∉ cs := by
  cases h with
  | never h => simp [h]
  | since h => simp

end Gathered

/-! ### A step keeps the store in agreement with its changes -/

/-- A store of one map, to which the changes `cs` were made. -/
structure Follows (s : DependencyStore) (cs : List Change) : Prop where
  single : s.earlier = []
  collectors : s.collectors = (startedIn cs).map (⟨0, ·⟩)
  gathered : ∀ m, Gathered m cs (s.current.lookup m)
  modules : s.current.modules = (startedIn cs).eraseDups

namespace Follows

variable {s : DependencyStore} {cs : List Change}

theorem initial : Follows {} [] :=
  ⟨rfl, rfl, fun _ => .never List.not_mem_nil, rfl⟩

theorem getElem?_collectors (h : Follows s cs) (i : Nat) :
    s.collectors[i]? = (startedIn cs)[i]?.map (⟨0, ·⟩) := by
  rw [h.collectors, List.getElem?_map]

theorem mem_modules_iff (h : Follows s cs) {m : ModuleName} : m ∈ s.current.modules ↔ m ∈ startedIn cs := by
  rw [h.modules, List.mem_eraseDups]

theorem start (h : Follows s cs) (m : ModuleName) : Follows (s.step (.start m)).2 (cs ++ [.started m]) where
  single := h.single
  collectors := by
    have hlast : startedIn [.started m] = [m] := rfl
    rw [startedIn_append, hlast, List.map_append, ← h.collectors]
    simp [DependencyStore.step, h.single]
  gathered m' := by
    show Gathered m' _ ((s.current.start m).lookup m')
    rw [DependencyMap.lookup_start]
    by_cases hm : m = m'
    · subst hm
      rw [if_pos rfl]
      exact .started m cs
    · have hc : Change.started m ≠ .started m' := fun hc => hm (Change.started.inj hc)
      have hkept := (h.gathered m').concat hc
      rw [if_neg hm]
      simpa [recordedIn] using hkept
  modules := by
    have hlast : startedIn [.started m] = [m] := rfl
    show (s.current.start m).modules = _
    rw [DependencyMap.modules_start, startedIn_append, hlast, eraseDups_concat, ← h.modules]
    simp only [h.mem_modules_iff]

/-- Recording by a collector reaches a list that exists. -/
theorem exists_lookup (h : Follows s cs) {i : Nat} {m : ModuleName} (hi : (startedIn cs)[i]? = some m) :
    ∃ list, s.current.lookup m = some list := by
  have hm : m ∈ s.current.modules := h.mem_modules_iff.2 (List.mem_of_getElem? hi)
  exact Option.ne_none_iff_exists'.1 fun hnone => DependencyMap.lookup_eq_none_iff.1 hnone hm

theorem step_record (h : Follows s cs) {i : Nat} {m : ModuleName} (hi : (startedIn cs)[i]? = some m)
    (r : Resolution) :
    s.step (.record i r) = (.recorded m, { s with current := s.current.record m r }) := by
  have hc : s.collectors[i]? = some ⟨0, m⟩ := by rw [h.getElem?_collectors, hi, Option.map_some]
  simp [DependencyStore.step, hc, recordIn, h.single]

theorem modules_record (h : Follows s cs) {i : Nat} {m : ModuleName} (hi : (startedIn cs)[i]? = some m)
    (r : Resolution) : (s.current.record m r).modules = s.current.modules := by
  rw [DependencyMap.modules_record, if_pos (h.mem_modules_iff.2 (List.mem_of_getElem? hi))]

theorem record (h : Follows s cs) {i : Nat} {m : ModuleName} (hi : (startedIn cs)[i]? = some m)
    (r : Resolution) : Follows (s.step (.record i r)).2 (cs ++ [.recorded m r]) := by
  have hstarted : startedIn (cs ++ [.recorded m r]) = startedIn cs := by
    rw [startedIn_append]
    exact List.append_nil _
  rw [h.step_record hi]
  refine ⟨h.single, ?_, fun m' => ?_, ?_⟩
  · rw [hstarted, ← h.collectors]
  · have hgathered := (h.gathered m').concat (c := .recorded m r) (by simp)
    obtain ⟨list, hlist⟩ := h.exists_lookup hi
    show Gathered m' _ ((s.current.record m r).lookup m')
    rw [DependencyMap.lookup_record]
    by_cases hm : m = m'
    · subst hm
      rw [hlist] at hgathered ⊢
      simpa [recordedIn] using hgathered
    · rw [if_neg hm]
      simpa [recordedIn, hm] using hgathered
  · rw [hstarted, ← h.modules]
    exact h.modules_record hi r

/-- **One step**, other than going on with a fresh map. -/
theorem step (h : Follows s cs) {x : Step} (hx : x ≠ .fresh) :
    Follows (s.step x).2 (cs ++ (change? cs x).toList) := by
  cases x with
  | start m => exact h.start m
  | record i r =>
    rcases hi : (startedIn cs)[i]? with _ | m
    · -- no such collector has been obtained
      have hc : s.collectors[i]? = none := by rw [h.getElem?_collectors, hi, Option.map_none]
      simpa [DependencyStore.step, change?, hi, hc] using h
    · have hrecord := h.record hi r
      simpa [change?, hi] using hrecord
  | lookup m => simpa [change?, DependencyStore.step] using h
  | inspect m => simpa [change?, DependencyStore.step] using h
  | clone => simpa [change?, DependencyStore.step] using h
  | fresh => exact absurd rfl hx

end Follows

theorem follows_after {steps : List Step} (h : .fresh ∉ steps) : Follows (after steps) (changes steps) := by
  induction steps using List.reverseRecOn with
  | nil => exact .initial
  | append_singleton steps x ih =>
    rw [List.mem_append, not_or, List.mem_singleton] at h
    rw [after_concat, changes_concat]
    exact (ih h.1).step (Ne.symm h.2)

/-- **Lists under any interleaving.**  After any steps on one map, each module has what was recorded by
any of its collectors since it was last started, and no list if it was never started; all views show this
list.  The modules started are kept in the order of their first start, and recording only appends to a
list that exists. -/
theorem lists_after (steps : List Step) (h : .fresh ∉ steps) :
    let s := after steps
    let cs := changes steps
    (∀ m, Gathered m cs (s.current.lookup m) ∧ (s.current.lookup m = none ↔ .started m ∉ cs) ∧
      (s.step (.lookup m)) = (.list (s.current.lookup m), s) ∧
      ∀ (β : Type) (f : Option (List Resolution) → β),
        s.current.withList m f = f (s.current.lookup m)) ∧
    s.current.modules = (startedIn cs).eraseDups ∧ s.current.modules.Nodup ∧
    s.current.size = s.current.modules.length ∧
    ∀ i m, (startedIn cs)[i]? = some m → ∀ r,
      (s.step (.record i r)).1 = .recorded m ∧
      (∃ list, s.current.lookup m = some list ∧
        ∀ m', (s.step (.record i r)).2.current.lookup m' =
          if m = m' then some (list ++ [r]) else s.current.lookup m') ∧
      (s.step (.record i r)).2.current.modules = s.current.modules := by
  intro s cs
  have hs : Follows s cs := follows_after h
  refine ⟨fun m => ⟨hs.gathered m, (hs.gathered m).eq_none_iff, rfl, fun _ _ => rfl⟩, hs.modules,
    s.current.lists.nodup_keys, (List.length_map _).symm, fun i m hi r => ?_⟩
  obtain ⟨list, hlist⟩ := hs.exists_lookup hi
  rw [hs.step_record hi]
  refine ⟨rfl, ⟨list, hlist, fun m' => ?_⟩, hs.modules_record hi r⟩
  have hrecord := DependencyMap.lookup_record s.current m m' r
  rwa [hlist, Option.getD_some] at hrecord

/-- A collector that is older than a restart of its module goes on recording in it. -/
theorem lists_after_of_restart :
    let r name : Resolution := .single name "path"
    let steps : List Step := [.start "a", .record 0 (r "x"), .start "b", .start "a", .record 2 (r "y"),
      .clone, .record 1 (r "z"), .lookup "a", .record 0 (r "w"), .record 2 (r "y")]
    .fresh ∉ steps ∧ Gathered "a" (changes steps) (some [r "y", r "w", r "y"]) ∧
      (after steps).current.modules = ["a", "b"] := by
  intro r steps
  have hfresh : .fresh ∉ steps := by decide
  obtain ⟨hlists, hmodules, -⟩ := lists_after steps hfresh
  refine ⟨hfresh, ?_, ?_⟩
  · have hlookup : (after steps).current.lookup "a" = some [r "y", r "w", r "y"] := by decide +kernel
    exact hlookup ▸ (hlists "a").1
  · rw [hmodules]
    decide +kernel

end TemplateLinker.DependencyStore
