import Mathlib.Data.List.Induction
import TemplateLinker.Proofs.Compiler.Setup
import TemplateLinker.Source.Words

/-!
# Proofs.Compiler.History — compiling modules one after another

After any calls the list of a module is the one recorded by the last call for it that reached the linking
pass (`dependenciesOf_after`), and what a call gives is what it gives in a fresh session
(`compile_after`).  Both follow from what one call does, `Setup.compile_apply`.
-/

namespace TemplateLinker

/-- A module and the text to compile it from. -/
structure CompileCall where
  module : ModuleName
  contents : String

namespace Setup

variable (S : Setup)

/-- The session after some calls, failed ones included. -/
def after (calls : List CompileCall) : Session WireHost :=
  calls.foldl (fun s c => (s.compile c.module c.contents).2) S.session

/-- The template with which a call reaches the linking pass. -/
def linked? (c : CompileCall) : Option Template := S.reached? c.module (Text.stripMark c.contents)

theorem after_concat (calls : List CompileCall) (c : CompileCall) :
    S.after (calls ++ [c]) = ((S.after calls).compile c.module c.contents).2 := by
  rw [after, List.foldl_append]
  rfl

/-- Calls change nothing but the dependencies. -/
theorem exists_after_eq (calls : List CompileCall) :
    ∃ d, S.after calls = { S.session with dependencies := d } := by
  induction calls using List.reverseRecOn with
  | nil => exact ⟨S.session.dependencies, rfl⟩
  | append_singleton calls c ih =>
    obtain ⟨d, hd⟩ := ih
    exact ⟨_, by rw [after_concat, hd, compile_apply]⟩

theorem compile_after_apply (calls : List CompileCall) (module : ModuleName) (contents : String) :
    (S.after calls).compile module contents =
      (S.compilation module (Text.stripMark contents),
        { S.session with
          dependencies :=
            S.dependencies (S.after calls).dependencies module (Text.stripMark contents) }) := by
  obtain ⟨d, hd⟩ := S.exists_after_eq calls
  rw [hd]
  exact S.compile_apply d module contents

/-- One more call. -/
theorem dependencies_after_concat (calls : List CompileCall) (c : CompileCall) :
    (S.after (calls ++ [c])).dependencies =
      S.dependencies (S.after calls).dependencies c.module (Text.stripMark c.contents) := by
  rw [after_concat, compile_after_apply]

/-- The template with which a call for `m` reaches the linking pass. -/
def linkedFor? (m : ModuleName) (c : CompileCall) : Option Template :=
  if c.module = m then S.linked? c else none

theorem lookup_after_concat (calls : List CompileCall) (c : CompileCall) (m : ModuleName) :
    (S.after (calls ++ [c])).dependenciesOf m =
      match S.linkedFor? m c with
      | some t => some (S.recorded m t)
      | none => (S.after calls).dependenciesOf m := by
  unfold Session.dependenciesOf linkedFor? linked?
  rw [dependencies_after_concat, dependencies]
  rcases S.reached? c.module (Text.stripMark c.contents) with _ | t
  · simp
  · by_cases hm : c.module = m
    · subst hm
      simp [DependencyMap.lookup_refill]
    · simp [DependencyMap.lookup_refill, hm]

/-- The list of `m` is the one recorded by the last call for it that reached the linking pass. -/
theorem lookup_after (calls : List CompileCall) (m : ModuleName) :
    (S.after calls).dependenciesOf m =
      ((calls.filterMap (S.linkedFor? m)).getLast?).map (S.recorded m) := by
  induction calls using List.reverseRecOn with
  | nil => rfl
  | append_singleton calls c ih =>
    rw [lookup_after_concat, List.filterMap_append]
    rcases h : S.linkedFor? m c with _ | t
    · simp [h, ih]
    · simp [h]

/-- The modules of the calls that reached the linking pass. -/
def linkedModules (calls : List CompileCall) : List ModuleName :=
  (calls.filter fun c => (S.linked? c).isSome).map CompileCall.module

theorem modules_after (calls : List CompileCall) :
    (S.after calls).dependencies.modules = (S.linkedModules calls).eraseDups := by
  induction calls using List.reverseRecOn with
  | nil => rfl
  | append_singleton calls c ih =>
    have hc : S.linkedModules (calls ++ [c]) = S.linkedModules calls ++ S.linkedModules [c] := by
      simp [linkedModules]
    rw [dependencies_after_concat, dependencies, hc]
    rcases h : S.reached? c.module (Text.stripMark c.contents) with _ | t
    · have hm : S.linkedModules [c] = [] := by simp [linkedModules, linked?, h]
      rw [hm, List.append_nil]
      exact ih
    · have hm : S.linkedModules [c] = [c.module] := by simp [linkedModules, linked?, h]
      rw [hm, eraseDups_concat, ← ih]
      simp only [DependencyMap.modules_refill, ih, List.mem_eraseDups]

/-! ### The two views of a session's history -/

/-- **Dependencies of a session.**  After any calls, a module has a list if and only if a call for it
reached the linking pass, and then it has the one recorded by the last such call: the answers in front of
the first failure, all of them if there is none.  A call that does not get that far, or is for another
module, leaves the list as it was.  The modules with a list are kept in the order of their first such
call. -/
theorem dependenciesOf_after (calls : List CompileCall) :
    (∀ m, (S.after calls).dependenciesOf m =
      ((calls.filterMap (S.linkedFor? m)).getLast?).map (S.recorded m)) ∧
    (∀ m, (S.after calls).dependenciesOf m = none ↔
      ∀ c ∈ calls, c.module = m → S.linked? c = none) ∧
    (∀ c m, (S.after (calls ++ [c])).dependenciesOf m =
      match S.linkedFor? m c with
      | some t => some (S.recorded m t)
      | none => (S.after calls).dependenciesOf m) ∧
    (S.after calls).dependencies.modules = (S.linkedModules calls).eraseDups ∧
    (S.after calls).dependencies.modules.Nodup := by
  refine ⟨S.lookup_after calls, fun m => ?_, S.lookup_after_concat calls, S.modules_after calls,
    (S.after calls).dependencies.lists.nodup_keys⟩
  rw [lookup_after, Option.map_eq_none_iff, List.getLast?_eq_none_iff, List.filterMap_eq_nil_iff]
  refine forall₂_congr fun c _ => ?_
  unfold linkedFor?
  by_cases hm : c.module = m
  · simp [hm]
  · simp [hm]

/-- **Compiling does not depend on history.**  After any calls, a call gives what it gives in a fresh
session.  That is what its specification says of the text behind one byte-order mark, or of the whole text
if it begins with none; a rejection is reported at its line and column if the offsets in the text fit into
32 bits.  A mark in front of a text without one changes nothing, not even the dependencies. -/
theorem compile_after (calls : List CompileCall) (module : ModuleName) (text : String) :
    let given (contents : String) := (S.after calls).compile module contents
    let marked := String.ofList ('\uFEFF' :: text.toList)
    (∀ contents, (given contents).1 = (S.session.compile module contents).1) ∧
    (∀ contents, contents = marked ∨ contents = text ∧ text.toList.head? ≠ some '\uFEFF' →
      (given contents).1.queries = S.queries module text ∧
      (given contents).1.notes = S.notes module text ∧
      (∃ position, (given contents).1.result = S.resultAt position module text) ∧
      ((Text.bytes text).length < UInt32.size → (given contents).1.result = S.result module text)) ∧
    (text.toList.head? ≠ some '\uFEFF' → given marked = given text) := by
  intro given marked
  have hfresh : S.session = S.after [] := rfl
  have hstrip : ∀ contents, contents = marked ∨ contents = text ∧ text.toList.head? ≠ some '\uFEFF' →
      Text.stripMark contents = text := by
    rintro contents (rfl | ⟨rfl, hplain⟩)
    · exact (Text.stripMark_ofList_cons text.toList).trans String.ofList_toList
    · exact Text.stripMark_of_head?_ne hplain
  have hgiven : ∀ contents, (given contents).1 = S.compilation module (Text.stripMark contents) := fun contents =>
    congrArg Prod.fst (S.compile_after_apply calls module contents)
  refine ⟨fun contents => ?_, fun contents h => ?_, fun hplain => ?_⟩
  · rw [hgiven, hfresh, compile_after_apply]
  · rw [hgiven, hstrip contents h]
    exact ⟨rfl, rfl, ⟨_, rfl⟩, fun _ => rfl⟩
  · show (S.after calls).compile module marked = (S.after calls).compile module text
    rw [compile_after_apply, compile_after_apply, hstrip marked (.inl rfl), hstrip text (.inr ⟨rfl, hplain⟩)]

/-- Behind a mark, after a call that failed: a text of one character, and one whose second line the second pass
rejects. -/
theorem compile_after_of_marked_text :
    let accepting : Pass := .ofVerdict "accepting" fun _ _ => .ok ()
    let strict : Pass := .logged "strict" (.rejectText "bad" "no")
    let S : Setup :=
      { host := { parser := Words.parser, passes := [accepting, strict] }
        resolver := fun _ _ _ => .ok none
        overrides := .null
        plugins := {}
        emit := {}
        judges := List.forall_mem_cons.2 ⟨Pass.judges_ofVerdict _ _,
          List.forall_mem_singleton.2 (Pass.judges_logged _ _)⟩ }
    let given (contents : String) := ((S.after [⟨"m", "bad"⟩]).compile "m" contents).1.result
    given (String.ofList ['\uFEFF', 'é']) = .ok ("export default Ember.HTMLBars.template(" ++
        "\x7b\"moduleName\":\"m\",\"block\":\x7b\"statements\":[\x7b\"type\":\"TextNode\",\"chars\":\"é\"\x7d]," ++
        "\"blockParams\":[]\x7d\x7d);") ∧
      given "é" = given (String.ofList ['\uFEFF', 'é']) ∧
      given (String.ofList ('\uFEFF' :: "é\nbad".toList)) =
        .error (.transform "m" ⟨1, 0⟩ (.rejected "strict" "no" (some ⟨3, 6⟩))) := by
  intro accepting strict S given
  obtain ⟨-, hshort, hmark⟩ := S.compile_after [⟨"m", "bad"⟩] "m" "é"
  obtain ⟨-, hlong, -⟩ := S.compile_after [⟨"m", "bad"⟩] "m" "é\nbad"
  obtain ⟨-, -, -, hresult⟩ := hshort _ (.inl rfl)
  obtain ⟨-, -, -, hrejected⟩ := hlong _ (.inl rfl)
  refine ⟨(hresult (by decide)).trans ?_, ?_, (hrejected (by decide)).trans ?_⟩
  · decide +kernel
  · have hplain : "é".toList.head? ≠ some '\uFEFF' := by decide
    exact congrArg (fun x => x.1.result) (hmark hplain).symm
  · decide +kernel

end Setup

end TemplateLinker
