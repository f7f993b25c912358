import TemplateLinker.Dependencies.Map

/-!
# Proofs.Dependencies.Recording — a module started and then recorded into

`refill` starts a module and records a list of resolutions in it: its list is then that list, the lists
of the other modules stay, and a module that was known keeps its place.
-/

namespace TemplateLinker

/-- The order of first occurrence after one more entry. -/
theorem eraseDups_concat {α : Type} [DecidableEq α] (as : List α) (a : α) :
    (as ++ [a]).eraseDups = if a ∈ as then as.eraseDups else as.eraseDups ++ [a] := by
  rw [List.eraseDups_append]
  by_cases ha : a ∈ as
  · simp [ha, List.removeAll]
  · simp [ha, List.removeAll, List.eraseDups_cons]

namespace DependencyMap

/-- Records resolutions in a module, first to last. -/
def recordAll (d : DependencyMap) (module : ModuleName) (rs : List Resolution) : DependencyMap :=
  rs.foldl (fun d r => d.record module r) d

@[simp] theorem recordAll_nil (d : DependencyMap) (module : ModuleName) : d.recordAll module [] = d := rfl

@[simp] theorem recordAll_cons (d : DependencyMap) (module : ModuleName) (r : Resolution)
    (rs : List Resolution) : d.recordAll module (r :: rs) = (d.record module r).recordAll module rs := rfl

/-- Recording into a module that has a list appends to it. -/
theorem lookup_recordAll {d : DependencyMap} {module : ModuleName} {l : List Resolution}
    (h : d.lookup module = some l) (rs : List Resolution) (module' : ModuleName) :
    (d.recordAll module rs).lookup module' =
      if module = module' then some (l ++ rs) else d.lookup module' := by
  induction rs generalizing d l with
  | nil =>
    by_cases hm : module = module'
    · subst hm
      simp [h]
    · simp [hm]
  | cons r rs ih =>
    have hr : (d.record module r).lookup module = some (l ++ [r]) := by
      rw [lookup_record, if_pos rfl, h, Option.getD_some]
    rw [recordAll_cons, ih hr, lookup_record]
    by_cases hm : module = module'
    · simp [hm]
    · simp [hm]

theorem modules_recordAll {d : DependencyMap} {module : ModuleName} (h : module ∈ d.modules)
    (rs : List Resolution) : (d.recordAll module rs).modules = d.modules := by
  induction rs generalizing d with
  | nil => rfl
  | cons r rs ih =>
    have hr : (d.record module r).modules = d.modules := by rw [modules_record, if_pos h]
    rw [recordAll_cons, ih (hr ▸ h), hr]

/-- Starts a module and records resolutions in it. -/
def refill (d : DependencyMap) (module : ModuleName) (rs : List Resolution) : DependencyMap :=
  (d.start module).recordAll module rs

theorem lookup_refill (d : DependencyMap) (module module' : ModuleName) (rs : List Resolution) :
    (d.refill module rs).lookup module' = if module = module' then some rs else d.lookup module' := by
  have h : (d.start module).lookup module = some [] := by rw [lookup_start, if_pos rfl]
  rw [refill, lookup_recordAll h, lookup_start]
  by_cases hm : module = module'
  · simp [hm]
  · simp [hm]

theorem mem_modules_start (d : DependencyMap) (module : ModuleName) :
    module ∈ (d.start module).modules := by
  rw [modules_start]
  split
  · assumption
  · simp

theorem modules_refill (d : DependencyMap) (module : ModuleName) (rs : List Resolution) :
    (d.refill module rs).modules =
      if module ∈ d.modules then d.modules else d.modules ++ [module] := by
  rw [refill, modules_recordAll (mem_modules_start d module), modules_start]

end DependencyMap

end TemplateLinker
