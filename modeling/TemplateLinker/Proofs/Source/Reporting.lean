import Mathlib.Data.List.Basic
import TemplateLinker.Proofs.Compiler.History
import TemplateLinker.Proofs.Source.Tokens

/-!
# Proofs.Source.Reporting — where a source of words fails

Compiling a source of words asks about the references of its tokens, first to last, up to the first that
the resolver fails on.  The error points at that token: the offset of the word is located at the line and
column where the text in front of it ends (`Setup.compile_words`).
-/

namespace TemplateLinker

namespace Words

variable (resolver : Resolver) (module : ModuleName)

/-- Whether the resolver answers the reference of a token, if it has one. -/
def Answered (token : List Char) : Prop :=
  ∀ kind name, reference? token = some (kind, name) → ∃ answer, resolver kind name module = .ok answer

/-- The questions about the references of some tokens. -/
def questions (tokens : List (List Char)) : List Query :=
  (tokens.filterMap reference?).map fun x => ⟨x.1, x.2, module⟩

variable {resolver module}

theorem answered_of_isAnswered {w : Word}
    (h : ∀ r ∈ w.reference?, r.isAnswered resolver module = true) : Answered resolver module w.chars := by
  intro kind name hname
  exact Reference.isAnswered_iff.1 (h ⟨kind, name, w.span, []⟩ (by simp [Word.reference?, hname]))

theorem map_query_references (ws : List Word) :
    (ws.filterMap Word.reference?).map (Reference.query module) = questions module (ws.map Word.chars) := by
  unfold questions
  rw [List.filterMap_map, List.map_filterMap, List.map_filterMap]
  refine List.filterMap_congr fun w _ => ?_
  simp [Word.reference?, Reference.query, Function.comp_def]

variable (resolver module)

/-- Either the references of all words are answered, or there is a first word whose reference the resolver
fails on. -/
theorem consult_words (ws : List Word) :
    let rs := ws.filterMap Word.reference?
    ((∀ w ∈ ws, Answered resolver module w.chars) ∧ Reference.consulted resolver module rs = rs ∧
      Reference.outcome resolver module rs = .ok ()) ∨
    ∃ before w after kind name e, ws = before ++ w :: after ∧
      (∀ v ∈ before, Answered resolver module v.chars) ∧ reference? w.chars = some (kind, name) ∧
      resolver kind name module = .error e ∧
      Reference.consulted resolver module rs = (before ++ [w]).filterMap Word.reference? ∧
      Reference.outcome resolver module rs = .error (.resolve name w.span e) := by
  intro rs
  have hall : ∀ r ∈ Reference.answered resolver module rs, r.isAnswered resolver module = true :=
    List.all_eq_true.1 List.all_takeWhile
  rcases Reference.consult_cases resolver module rs with ⟨ha, hc, ho⟩ | ⟨r, rest, e, hsplit, he, hc, ho⟩
  · refine .inl ⟨fun w hw => answered_of_isAnswered fun r hr => hall r ?_, hc, ho⟩
    rw [ha]
    exact List.mem_filterMap.2 ⟨w, hw, hr⟩
  · obtain ⟨first, others, rfl, hfirst, hothers⟩ := List.filterMap_eq_append_iff.1 hsplit
    obtain ⟨silent, w, after, rfl, hsilent, hw, -⟩ := List.filterMap_eq_cons_iff.1 hothers
    have hnone : silent.filterMap Word.reference? = [] := List.filterMap_eq_nil_iff.2 hsilent
    obtain ⟨⟨kind, name⟩, hname, rfl⟩ := Option.map_eq_some_iff.1 hw
    refine .inr ⟨first ++ silent, w, after, kind, name, e, by simp, ?_, hname, he, ?_, ho⟩
    · intro v hv
      refine answered_of_isAnswered fun r hr => ?_
      rcases List.mem_append.1 hv with hv | hv
      · exact hall r (hfirst ▸ List.mem_filterMap.2 ⟨v, hv, hr⟩)
      · rw [hsilent v hv] at hr
        cases hr
    · rw [hc, ← hfirst, List.filterMap_append, List.filterMap_append, hnone, List.append_nil]
      simp [hw]

/-- Either the references of all tokens of a source are answered, or there is a first token whose reference
the resolver fails on, and the error has the stretch of that token. -/
theorem consult_tokens (source : List Char) :
    let rs := (words source).filterMap Word.reference?
    ((∀ x ∈ Text.tokens source, Answered resolver module x) ∧
      (Reference.consulted resolver module rs).map (Reference.query module) =
        questions module (Text.tokens source) ∧
      Reference.outcome resolver module rs = .ok ()) ∨
    ∃ pre token post kind name e, source = pre ++ (token ++ post) ∧
      Text.tokens source = Text.tokens pre ++ token :: Text.tokens post ∧ '\n' ∉ token ∧
      (∀ x ∈ Text.tokens pre, Answered resolver module x) ∧ reference? token = some (kind, name) ∧
      resolver kind name module = .error e ∧
      (Reference.consulted resolver module rs).map (Reference.query module) =
        questions module (Text.tokens pre ++ [token]) ∧
      Reference.outcome resolver module rs =
        .error (.resolve name ⟨Text.size pre, Text.size pre + Text.size token⟩ e) := by
  intro rs
  have hruns := runs_words source
  rw [hruns.tokens_eq]
  rcases consult_words resolver module (words source) with
    ⟨hall, hc, ho⟩ | ⟨before, w, after, kind, name, e, hws, hbefore, hname, he, hc, ho⟩
  · exact .inl ⟨List.forall_mem_map.2 hall, by rw [hc, map_query_references], ho⟩
  · rw [hws] at hruns
    obtain ⟨pre, post, hsource, hspan, hpre, hpost, hw⟩ := hruns.exists_around
    have hnewline : '\n' ∉ w.chars := fun h => absurd (hw '\n' h) (by decide)
    rw [Nat.zero_add] at hspan
    refine .inr ⟨pre, w.chars, post, kind, name, e, hsource, ?_, hnewline, ?_, hname, he, ?_, ?_⟩
    · rw [hws, hpre, hpost, List.map_append, List.map_cons]
    · rw [hpre]
      exact List.forall_mem_map.2 hbefore
    · rw [hc, map_query_references, hpre, List.map_append, List.map_singleton]
    · rw [ho, hspan]

end Words

namespace Setup

variable (S : Setup)

/-- Without other passes the linking pass decides. -/
theorem compilation_of_parse {S : Setup} (hpasses : S.passes = []) {module : ModuleName} {source : String}
    {t : Template} (hparse : (S.parse module source).2 = .ok t) :
    S.result module source =
      (match Reference.outcome S.resolver module t.refs with
        | .error e => .error (.transform module (positionOf source e) e)
        | .ok () => .ok (S.emit.assemble (WireHost.code module t) (some (S.recorded module t)))) ∧
    S.queries module source =
      (Reference.consulted S.resolver module t.refs).map (Reference.query module) := by
  refine ⟨?_, ?_⟩
  · unfold result resultAt rejection? Reference.outcome
    simp only [hparse, hpasses, List.findSome?_nil, Option.none_or]
    rcases t.refs.findSome? (Reference.failure? S.resolver module) with _ | e
    · rfl
    · rfl
  · unfold queries reached?
    simp only [hparse, hpasses, List.all_nil, if_true]

/-- An error with the stretch of a token is located where the text in front of the token ends. -/
theorem positionOf_resolve (source : String) {pre token post : List Char}
    (hsource : source.toList = pre ++ (token ++ post)) (name : String) (e : ResolveError) :
    positionOf source (.resolve name ⟨Text.size pre, Text.size pre + Text.size token⟩ e) = Text.endOf pre := by
  have hlocate := Text.locate_ofText pre (token ++ post)
  rw [← hsource, String.ofList_toList] at hlocate
  exact (LineMap.locate_eq_positionAt _ _).symm.trans hlocate

/-- **Errors point at the token that fails.**  After any calls, compiling a source of words gives a parse
error, nothing being asked, if one of its tokens is an empty mustache.  Otherwise it fails with the first
token whose reference the resolver fails on, at the position where the text in front of the token ends:
that line of the source, without that many bytes, begins with the token.  The references up to there are
asked, each once and in order; if none fails, all are, and there is a text.  The source is the text without one
byte-order mark in front, and what a token refers to is told by its form. -/
theorem compile_words (hparser : S.host.parser = Words.parser) (hpasses : S.passes = [])
    (calls : List CompileCall) (module : ModuleName) (contents : String) :
    let source := (Text.stripMark contents).toList
    let tokens := Text.tokens source
    let given := ((S.after calls).compile module contents).1
    (contents.toList = '\uFEFF' :: source ∨ contents.toList = source ∧ source.head? ≠ some '\uFEFF') ∧
    (∀ token kind name, Words.reference? token = some (kind, name) ↔ Words.Refers token kind name) ∧
    ((Words.emptyMustache ∈ tokens ∧ given.result = .error (.parse module "empty mustache") ∧
      given.queries = []) ∨
    (Words.emptyMustache ∉ tokens ∧ ∃ pre token post kind name e,
      source = pre ++ (token ++ post) ∧ tokens = Text.tokens pre ++ token :: Text.tokens post ∧
      (∀ x ∈ Text.tokens pre, Words.Answered S.resolver module x) ∧
      Words.reference? token = some (kind, name) ∧ S.resolver kind name module = .error e ∧
      given.result = .error (.transform module (Text.endOf pre)
        (.resolve name ⟨Text.size pre, Text.size pre + Text.size token⟩ e)) ∧
      Text.StandsAt source token (Text.endOf pre) ∧
      given.queries = Words.questions module (Text.tokens pre ++ [token])) ∨
    (Words.emptyMustache ∉ tokens ∧ (∀ x ∈ tokens, Words.Answered S.resolver module x) ∧
      (∃ text, given.result = .ok text) ∧ given.queries = Words.questions module tokens)) := by
  intro source tokens given
  refine ⟨Text.stripMark_cases contents, fun token kind name => Words.reference?_eq_some_iff, ?_⟩
  have hgiven : given = S.compilation module (Text.stripMark contents) := by
    simp only [given, compile_after_apply]
  have hparse : S.parse module (Text.stripMark contents) =
      ([], Words.parse module (Text.stripMark contents)) := by
    rw [parse, hparser]
    rfl
  rw [hgiven]
  rcases ht : Words.template? source with _ | t
  · have herror : (S.parse module (Text.stripMark contents)).2 = .error (.parse module "empty mustache") := by
      rw [hparse, Words.parse, ht]
    refine .inl ⟨Words.template?_eq_none_iff.1 ht, ?_, ?_⟩
    · show S.result module (Text.stripMark contents) = _
      rw [result, resultAt, herror]
    · show S.queries module (Text.stripMark contents) = _
      rw [queries, reached?, herror]
  · have hempty : Words.emptyMustache ∉ tokens := fun h => by
      rw [Words.template?_eq_none_iff.2 h] at ht
      cases ht
    have hok : (S.parse module (Text.stripMark contents)).2 = .ok t := by rw [hparse, Words.parse, ht]
    obtain ⟨hresult, hqueries⟩ := compilation_of_parse hpasses hok
    rw [Words.refs_of_template? ht] at hresult hqueries
    rcases Words.consult_tokens S.resolver module source with
      ⟨hall, hc, ho⟩ | ⟨pre, token, post, kind, name, e, hsource, htokens, hline, hpre, hname, he, hc, ho⟩
    · rw [ho] at hresult
      exact .inr (.inr ⟨hempty, hall, ⟨_, hresult⟩, hqueries.trans hc⟩)
    · have hposition := positionOf_resolve (Text.stripMark contents) hsource name e
      rw [ho] at hresult
      refine .inr (.inl ⟨hempty, pre, token, post, kind, name, e, hsource, htokens, hpre, hname, he, ?_, ?_,
        hqueries.trans hc⟩)
      · rw [← hposition]
        exact hresult
      · rw [hsource]
        exact Text.standsAt_endOf hline

/-- Behind a mark, a character of two bytes and a line break of two characters, the third reference is the
first to fail: that of an element, with slashes at its end, in the second line behind seven bytes. -/
theorem compile_words_of_broken_name :
    let resolver := Resolver.failingOn ["bad", "worse"] fun _ _ _ => .ok none
    let S : Setup :=
      { host := { parser := Words.parser }
        resolver := resolver
        overrides := .null
        plugins := {}
        emit := {}
        judges := fun _ hp => absurd hp List.not_mem_nil }
    let source := "é <a/>\r\n \x7b\x7bx\x7d\x7d <bad//>\n\x7b\x7bworse\x7d\x7d".toList
    S.host.parser = Words.parser ∧ S.passes = [] ∧
      ∃ cause, ((S.after []).compile "m" (String.ofList (Text.byteOrderMark :: source))).1.result =
        .error (.transform "m" ⟨1, 7⟩ (.resolve "bad" ⟨16, 23⟩ cause)) := by
  intro resolver S source
  have hpasses : S.passes = [] := rfl
  refine ⟨rfl, hpasses, ?_⟩
  have htokens : Text.tokens source =
      ["é".toList, "<a/>".toList, "\x7b\x7bx\x7d\x7d".toList, "<bad//>".toList,
        "\x7b\x7bworse\x7d\x7d".toList] := by
    decide +kernel
  have hbad : Words.reference? "<bad//>".toList = some (.element, "bad") := by decide +kernel
  have hanswered : ¬ Words.Answered resolver "m" "<bad//>".toList := fun h => by
    obtain ⟨_, ha⟩ := h _ _ hbad
    cases ha
  rcases (S.compile_words rfl hpasses [] "m" (String.ofList (Text.byteOrderMark :: source))).2.2 with
    ⟨hempty, -⟩ | ⟨-, pre, token, post, kind, name, e, hsource, hsplit, hpre, hname, he, hresult, -⟩ |
      ⟨-, hall, -⟩
  all_goals simp only [Text.stripMark_ofList_cons, String.toList_ofList] at *
  · rw [htokens] at hempty
    exact absurd hempty (by decide)
  · -- where the failing token stands
    have hstarts : ∀ n ≤ source.length, ∀ x ∈ Text.tokens source, x <+: source.drop n →
        (n, x) ∈ [(0, "é".toList), (2, "<a/>".toList), (9, "\x7b\x7bx\x7d\x7d".toList),
          (15, "<bad//>".toList), (23, "\x7b\x7bworse\x7d\x7d".toList)] := by
      rw [htokens]
      decide +kernel
    have hn : pre.length ≤ source.length := by
      rw [hsource, List.length_append]
      exact Nat.le_add_right _ _
    have hmem : token ∈ Text.tokens source := by
      rw [hsplit]
      exact List.mem_append_right _ List.mem_cons_self
    have hdrop : token <+: source.drop pre.length := by
      rw [hsource, List.drop_left]
      exact List.prefix_append _ _
    have htake : pre = source.take pre.length := by rw [hsource, List.take_left]
    have := hstarts _ hn _ hmem hdrop
    simp only [List.mem_cons, Prod.mk.injEq, List.not_mem_nil, or_false] at this
    rcases this with ⟨h, rfl⟩ | ⟨h, rfl⟩ | ⟨h, rfl⟩ | ⟨h, rfl⟩ | ⟨h, rfl⟩
    · rw [show Words.reference? "é".toList = none by decide +kernel] at hname
      cases hname
    · rw [show Words.reference? "<a/>".toList = some (.element, "a") by decide +kernel] at hname
      cases hname
      cases he
    · rw [show Words.reference? "\x7b\x7bx\x7d\x7d".toList = some (.mustache, "x") by decide +kernel]
        at hname
      cases hname
      cases he
    · cases hbad.symm.trans hname
      have hend : Text.endOf (source.take 15) = ⟨1, 7⟩ := by decide +kernel
      have hsize : Text.size (source.take 15) = 16 := by decide +kernel
      rw [htake, h, hend, hsize] at hresult
      exact ⟨e, hresult⟩
    · refine absurd (hpre _ ?_) hanswered
      rw [htake, h]
      decide +kernel
  · exact absurd (hall _ (by rw [htokens]; decide)) hanswered

end Setup

end TemplateLinker
