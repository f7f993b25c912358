import TemplateLinker.Proofs.Dependencies.Recording
import TemplateLinker.Proofs.Linking.Walk

/-!
# Proofs.Linking.Lexical — what linking a template does

The resolver is consulted on the free references of the template in document order, up to and including
the first that it fails on; what it found before goes into the list of the module, which is started anew.
-/

namespace TemplateLinker

namespace Reference

variable (resolver : Resolver) (module : ModuleName)

/-- Whether the resolver answers, be it with nothing. -/
def isAnswered (r : Reference) : Bool := (resolver r.kind r.name module).isOk

/-- What a reference is resolved to. -/
def answer? (r : Reference) : Option Resolution :=
  match resolver r.kind r.name module with
  | .ok answer => answer
  | .error _ => none

/-- The failure to resolve a reference. -/
def failure? (r : Reference) : Option TransformError :=
  match resolver r.kind r.name module with
  | .ok _ => none
  | .error e => some (.resolve r.name r.span e)

/-- The references in front of the first that the resolver fails on. -/
def answered (rs : List Reference) : List Reference := rs.takeWhile (isAnswered resolver module)

/-- The references up to and including the first that the resolver fails on. -/
def consulted (rs : List Reference) : List Reference := rs.take ((answered resolver module rs).length + 1)

/-- What is recorded for references. -/
def answers (rs : List Reference) : List Resolution :=
  (answered resolver module rs).filterMap (answer? resolver module)

/-- The first failure among references. -/
def outcome (rs : List Reference) : Except TransformError Unit :=
  match rs.findSome? (failure? resolver module) with
  | some e => .error e
  | none => .ok ()

theorem consultAll_apply (rs : List Reference) (s : LinkState) :
    consultAll resolver module rs s =
      (outcome resolver module rs,
        { s with
          dependencies := s.dependencies.recordAll module (answers resolver module rs)
          asked := s.asked ++ (consulted resolver module rs).map (asked module) }) := by
  induction rs generalizing s with
  | nil => simp [consultAll, outcome, answers, answered, consulted, Linking.pure_apply]
  | cons r rs ih =>
    rw [consultAll, Linking.bind_apply]
    unfold consult
    rcases h : resolver r.kind r.name module with e | _ | x
    · simp [h, outcome, answers, answered, consulted, failure?, isAnswered, Except.isOk, Except.toBool]
    · simp [h, ih, outcome, answers, answered, consulted, failure?, answer?, isAnswered, Except.isOk,
        Except.toBool]
    · simp [h, ih, outcome, answers, answered, consulted, failure?, answer?, isAnswered, Except.isOk,
        Except.toBool, LinkState.record]

variable {resolver module}

theorem isAnswered_iff {r : Reference} :
    r.isAnswered resolver module = true ↔ ∃ answer, resolver r.kind r.name module = .ok answer := by
  unfold isAnswered
  rcases resolver r.kind r.name module with e | answer
  · simp [Except.isOk, Except.toBool]
  · simp [Except.isOk, Except.toBool]

theorem failure?_of_isAnswered {r : Reference} (h : r.isAnswered resolver module = true) :
    r.failure? resolver module = none := by
  obtain ⟨answer, hr⟩ := isAnswered_iff.1 h
  simp [failure?, hr]

theorem outcome_append {rs ts : List Reference} (h : ∀ r ∈ rs, r.isAnswered resolver module = true) :
    outcome resolver module (rs ++ ts) = outcome resolver module ts := by
  have hn : rs.findSome? (failure? resolver module) = none :=
    List.findSome?_eq_none_iff.2 fun r hr => failure?_of_isAnswered (h r hr)
  rw [outcome, List.findSome?_append, hn, Option.none_or, outcome]

variable (resolver module)

/-- Either all references are answered, or there is a first that the resolver fails on. -/
theorem consult_cases (rs : List Reference) :
    (answered resolver module rs = rs ∧ consulted resolver module rs = rs ∧
      outcome resolver module rs = .ok ()) ∨
    ∃ r rest e, rs = answered resolver module rs ++ r :: rest ∧
      resolver r.kind r.name module = .error e ∧
      consulted resolver module rs = answered resolver module rs ++ [r] ∧
      outcome resolver module rs = .error (.resolve r.name r.span e) := by
  have hall : ∀ r ∈ answered resolver module rs, r.isAnswered resolver module = true :=
    List.all_eq_true.1 List.all_takeWhile
  have hsplit : answered resolver module rs ++ rs.dropWhile (isAnswered resolver module) = rs :=
    List.takeWhile_append_dropWhile
  have houtcome : outcome resolver module rs =
      outcome resolver module (rs.dropWhile (isAnswered resolver module)) :=
    (congrArg _ hsplit.symm).trans (outcome_append hall)
  cases hd : rs.dropWhile (isAnswered resolver module) with
  | nil =>
    rw [hd] at hsplit houtcome
    rw [List.append_nil] at hsplit
    refine .inl ⟨hsplit, ?_, houtcome⟩
    rw [consulted, hsplit]
    exact List.take_of_length_le (Nat.le_succ _)
  | cons r rest =>
    rw [hd] at hsplit houtcome
    have hr : ¬r.isAnswered resolver module = true := by
      have := List.head?_dropWhile_not (isAnswered resolver module) rs
      simpa [hd] using this
    rcases he : resolver r.kind r.name module with e | answer
    · refine .inr ⟨r, rest, e, hsplit.symm, he, ?_, ?_⟩
      · have ht : consulted resolver module rs =
            (answered resolver module rs ++ r :: rest).take ((answered resolver module rs).length + 1) := by
          rw [hsplit, consulted]
        rw [ht, List.take_length_add_append, List.take_succ_cons, List.take_zero]
      · rw [houtcome]
        simp [outcome, failure?, he]
    · exact absurd (isAnswered_iff.2 ⟨answer, he⟩) hr

end Reference

namespace Build

open Reference

/-- Linking a template starts its module, consults the resolver on the free references and records what
it answers. -/
theorem link_apply (resolver : Resolver) (module : ModuleName) (t : Template) (b : Build) :
    link resolver module t b =
      (outcome resolver module t.refs,
        { b with
          dependencies := b.dependencies.refill module (answers resolver module t.refs)
          queries := b.queries ++ (consulted resolver module t.refs).map (query module) }) := by
  have hw := Linking.walk_eq_consultAll resolver module t { dependencies := b.dependencies.start module }
  rw [consultAll_apply] at hw
  unfold link
  rw [hw]
  simp [LinkState.queries, Template.refs, DependencyMap.refill, Function.comp_def, asked]

/-- **Free references are resolved by lexical scope, in document order.**  Either the resolver answers
all references of the template, or there is a first that it fails on: the references up to there are
asked, each once, and the answers before it are the list of the module; no other list changes. -/
theorem link_resolves_free_references (resolver : Resolver) (module : ModuleName) (t : Template)
    (b : Build) :
    ∃ before after, t.refs = before ++ after ∧
      (∀ r ∈ before, ∃ answer, resolver r.kind r.name module = .ok answer) ∧
      (∀ m, (link resolver module t b).2.dependencies.lookup m =
        if module = m then some (before.filterMap (answer? resolver module))
        else b.dependencies.lookup m) ∧
      ((after = [] ∧ (link resolver module t b).1 = .ok () ∧
          (link resolver module t b).2.queries = b.queries ++ before.map (query module)) ∨
        ∃ r rest e, after = r :: rest ∧ resolver r.kind r.name module = .error e ∧
          (link resolver module t b).1 = .error (.resolve r.name r.span e) ∧
          (link resolver module t b).2.queries = b.queries ++ (before ++ [r]).map (query module)) := by
  have hlookup (m : ModuleName) : (link resolver module t b).2.dependencies.lookup m =
      if module = m then some (answers resolver module t.refs) else b.dependencies.lookup m := by
    rw [link_apply]
    exact DependencyMap.lookup_refill b.dependencies module m _
  have hanswered : ∀ r ∈ answered resolver module t.refs, ∃ answer,
      resolver r.kind r.name module = .ok answer :=
    fun r hr => isAnswered_iff.1 (List.all_eq_true.1 List.all_takeWhile r hr)
  rcases consult_cases resolver module t.refs with ⟨ha, hc, ho⟩ | ⟨r, rest, e, hsplit, he, hc, ho⟩
  · refine ⟨t.refs, [], (List.append_nil _).symm, ha ▸ hanswered, ?_, .inl ⟨rfl, ?_, ?_⟩⟩
    · intro m
      rw [hlookup, answers, ha]
    · rw [link_apply, ho]
    · rw [link_apply, hc]
  · refine ⟨answered resolver module t.refs, r :: rest, hsplit, hanswered, hlookup,
      .inr ⟨r, rest, e, rfl, he, ?_, ?_⟩⟩
    · rw [link_apply, ho]
    · rw [link_apply, hc]

end Build

end TemplateLinker
