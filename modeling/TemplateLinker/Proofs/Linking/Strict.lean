import Mathlib.Data.List.Basic
import Mathlib.Tactic.ByContra
import TemplateLinker.Proofs.Linking.Lexical
import TemplateLinker.Resolver.Table

/-!
# Proofs.Linking.Strict — linking with a strict table

A table that is strict about missing components answers as the lenient table with the same entries does,
except for the elements that look like a component and have no entry (`ResolverTable.Lacks`), on which it
fails.  So the strict run is the lenient run, cut short at the first such element
(`Build.link_strict_of_lenient`).
-/

namespace TemplateLinker

namespace ResolverTable

variable (t : ResolverTable)

/-- Whether a reference is an element that looks like a component and has no entry. -/
def Lacks (r : Reference) : Prop :=
  r.kind = .element ∧ looksLikeComponent r.name = true ∧ r.name ∉ t.components.keys

/-- The resolver that passes over missing components. -/
def lenient : Resolver := (t.withPolicy .ignore).resolver

/-- The resolver that fails on missing components. -/
def strict : Resolver := (t.withPolicy .error).resolver

theorem lookup_element_eq_none_iff {name : String} :
    t.lookup name .element = none ↔ name ∉ t.components.keys := by
  show (OrderedMap.get? t.components name).map Resolution.mk = none ↔ _
  rw [Option.map_eq_none_iff, OrderedMap.get?_eq_none_iff]

theorem lenient_apply (kind : ReferenceKind) (name : String) (module : ModuleName) :
    t.lenient kind name module = .ok (t.lookup name kind) := by
  have hlookup : (t.withPolicy .ignore).lookup name kind = t.lookup name kind := rfl
  have hrefuses : (t.withPolicy .ignore).refuses kind name = false := by simp [refuses, withPolicy]
  unfold lenient resolver
  rw [hlookup, hrefuses]
  rcases t.lookup name kind with _ | r
  · rfl
  · rfl

theorem strict_of_lacks {r : Reference} (h : t.Lacks r) (module : ModuleName) :
    t.strict r.kind r.name module = .error (.unresolved .element r.name module) := by
  obtain ⟨hkind, hlooks, hentry⟩ := h
  have hlookup : (t.withPolicy .error).lookup r.name .element = none :=
    t.lookup_element_eq_none_iff.2 hentry
  have hrefuses : (t.withPolicy .error).refuses .element r.name = true := by
    simp [refuses, withPolicy, hlooks]
  unfold strict resolver
  rw [hkind, hlookup]
  exact if_pos hrefuses

/-- **The strict table answers as the lenient one unless an entry is lacking.** -/
theorem strict_of_not_lacks {r : Reference} (h : ¬t.Lacks r) (module : ModuleName) :
    t.strict r.kind r.name module = t.lenient r.kind r.name module := by
  have hsame : (t.withPolicy .error).lookup r.name r.kind = t.lookup r.name r.kind := rfl
  rw [lenient_apply]
  unfold strict resolver
  rw [hsame]
  rcases hlookup : t.lookup r.name r.kind with _ | x
  · have hrefuses : (t.withPolicy .error).refuses r.kind r.name = false := by
      rw [← Bool.not_eq_true]
      intro hr
      simp only [refuses, withPolicy, Bool.and_eq_true, decide_eq_true_eq] at hr
      obtain ⟨⟨hkind, -⟩, hlooks⟩ := hr
      rw [hkind] at hlookup
      exact h ⟨hkind, hlooks, t.lookup_element_eq_none_iff.1 hlookup⟩
    simp [hrefuses]
  · rfl

end ResolverTable

namespace Reference

variable {t : ResolverTable} {module : ModuleName}

theorem isAnswered_strict_iff {r : Reference} : r.isAnswered t.strict module = true ↔ ¬t.Lacks r := by
  rw [isAnswered_iff]
  constructor
  · rintro ⟨answer, ha⟩ hl
    rw [t.strict_of_lacks hl] at ha
    cases ha
  · intro hl
    exact ⟨_, (t.strict_of_not_lacks hl module).trans (t.lenient_apply r.kind r.name module)⟩

theorem answer?_strict {r : Reference} (h : ¬t.Lacks r) :
    r.answer? t.strict module = r.answer? t.lenient module := by
  unfold answer?
  rw [t.strict_of_not_lacks h]

/-- The lenient table is consulted on all references. -/
theorem consult_lenient (t : ResolverTable) (module : ModuleName) (rs : List Reference) :
    answers t.lenient module rs = rs.filterMap (answer? t.lenient module) ∧
      consulted t.lenient module rs = rs ∧ outcome t.lenient module rs = .ok () := by
  rcases consult_cases t.lenient module rs with ⟨ha, hc, ho⟩ | ⟨r, _, e, _, he, _, _⟩
  · exact ⟨by rw [answers, ha], hc, ho⟩
  · rw [t.lenient_apply] at he
    cases he

/-- Either no reference lacks an entry, and the strict table is consulted on all of them, or it fails on the
first that does; what it answers is what the lenient one does. -/
theorem consult_strict (t : ResolverTable) (module : ModuleName) (rs : List Reference) :
    ((∀ r ∈ rs, ¬t.Lacks r) ∧ answers t.strict module rs = rs.filterMap (answer? t.lenient module) ∧
      consulted t.strict module rs = rs ∧ outcome t.strict module rs = .ok ()) ∨
    ∃ before r after, rs = before ++ r :: after ∧ (∀ x ∈ before, ¬t.Lacks x) ∧ t.Lacks r ∧
      answers t.strict module rs = before.filterMap (answer? t.lenient module) ∧
      consulted t.strict module rs = before ++ [r] ∧
      outcome t.strict module rs = .error (.resolve r.name r.span (.unresolved .element r.name module)) := by
  have hbefore : ∀ x ∈ answered t.strict module rs, ¬t.Lacks x := fun x hx =>
    isAnswered_strict_iff.1 (List.all_eq_true.1 List.all_takeWhile x hx)
  have hanswers : answers t.strict module rs =
      (answered t.strict module rs).filterMap (answer? t.lenient module) :=
    List.filterMap_congr fun x hx => answer?_strict (hbefore x hx)
  rcases consult_cases t.strict module rs with ⟨ha, hc, ho⟩ | ⟨r, after, e, hsplit, he, hc, ho⟩
  · rw [ha] at hbefore hanswers
    exact .inl ⟨hbefore, hanswers, hc, ho⟩
  · have hlacks : t.Lacks r := by
      by_contra hl
      rw [t.strict_of_not_lacks hl, t.lenient_apply] at he
      cases he
    rw [t.strict_of_lacks hlacks] at he
    cases he
    exact .inr ⟨answered t.strict module rs, r, after, hsplit, hbefore, hlacks, hanswers, hc, ho⟩

end Reference

namespace Build

open Reference

/-- **A strict table only cuts the lenient run short.**  The lenient run asks about all references and
succeeds.  If no reference lacks an entry, the strict run is the same.  Otherwise it asks what the lenient
run asks up to the first that does, records what the lenient run records before that, and fails there; so
it succeeds if and only if every free tag that looks like a component has an entry. -/
theorem link_strict_of_lenient (t : ResolverTable) (module : ModuleName) (template : Template) (b : Build) :
    let lenient := link (t.withPolicy .ignore).resolver module template b
    let strict := link (t.withPolicy .error).resolver module template b
    let recorded := List.filterMap (answer? (t.withPolicy .ignore).resolver module)
    (lenient.1 = .ok () ∧ lenient.2.queries = b.queries ++ template.refs.map (query module) ∧
      lenient.2.dependencies.lookup module = some (recorded template.refs)) ∧
    (((∀ r ∈ template.refs, ¬t.Lacks r) ∧ strict = lenient) ∨
      ∃ before r after, template.refs = before ++ r :: after ∧ (∀ x ∈ before, ¬t.Lacks x) ∧ t.Lacks r ∧
        strict.1 = .error (.resolve r.name r.span (.unresolved .element r.name module)) ∧
        strict.2.queries = b.queries ++ (before ++ [r]).map (query module) ∧
        ∀ m, strict.2.dependencies.lookup m =
          if module = m then some (recorded before) else b.dependencies.lookup m) ∧
    (strict.1 = .ok () ↔ ∀ r ∈ template.refs, r.kind = .element → looksLikeComponent r.name = true →
      r.name ∈ t.components.keys) := by
  intro lenient strict recorded
  have hlenient : lenient = link t.lenient module template b := rfl
  have hstrict : strict = link t.strict module template b := rfl
  have hnone : (∀ r ∈ template.refs, ¬t.Lacks r) ↔ ∀ r ∈ template.refs, r.kind = .element →
      looksLikeComponent r.name = true → r.name ∈ t.components.keys := by
    refine forall₂_congr fun r _ => ?_
    simp only [ResolverTable.Lacks, not_and, Classical.not_not]
  obtain ⟨ha, hc, ho⟩ := consult_lenient t module template.refs
  rw [← hnone, hlenient, hstrict, link_apply, link_apply, ha, hc, ho]
  refine ⟨⟨rfl, rfl, by simp [DependencyMap.lookup_refill, recorded, ResolverTable.lenient]⟩, ?_⟩
  rcases consult_strict t module template.refs with
    ⟨hall, ha, hc, ho⟩ | ⟨before, r, after, hsplit, hbefore, hlacks, ha, hc, ho⟩
  · rw [ha, hc, ho]
    exact ⟨.inl ⟨hall, rfl⟩, fun _ => hall, fun _ => rfl⟩
  · have hr : r ∈ template.refs := by
      rw [hsplit]
      exact List.mem_append_right _ List.mem_cons_self
    rw [ha, hc, ho]
    refine ⟨.inr ⟨before, r, after, hsplit, hbefore, hlacks, rfl, rfl, fun m => ?_⟩, ?_⟩
    · exact DependencyMap.lookup_refill b.dependencies module m _
    · exact ⟨nofun, fun hall => absurd hlacks (hall r hr)⟩

end Build

end TemplateLinker
