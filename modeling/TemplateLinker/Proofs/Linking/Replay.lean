import TemplateLinker.Proofs.Linking.Lexical
import TemplateLinker.Proofs.Template.Trace
import TemplateLinker.Template.Path

/-!
# Proofs.Linking.Replay — the questions of the linking walk, read off a trace

A `Replay` reads the trace of a template from left to right.  It keeps the parameter lists of the blocks
that are open, those of element bodies apart, and asks about each mustache, sub-expression and element
whose name is in none of them.  Replaying the events of a node asks about the references of the node and
leaves the lists as they were (`Replays`, one lemma for each kind of node), so the linking walk asks what a
replay of the trace asks (`Build.link_eq_replay`): the linking pass walks elements by hand, and yet meets
the nodes that the walk of every node meets, in the same order and the same scopes.
-/

namespace TemplateLinker

/-! ### Replaying a trace -/

structure Replay where
  /-- The nodes that are open, innermost first. -/
  nodes : List NodeKind := []
  /-- The parameter lists that are open, innermost first. -/
  params : List (List String) := []
  calls : List (ReferenceKind × String) := []

namespace Replay

/-- Whether the innermost open node is an element; a block that opens there is the body of the element. -/
def inElement (r : Replay) : Bool := r.nodes.head? = some .element

def enter (r : Replay) (kind : NodeKind) : Replay := { r with nodes := kind :: r.nodes }

def leave (r : Replay) : Replay := { r with nodes := r.nodes.tail }

/-- Asks about a name that is in no open list. -/
def ask (r : Replay) (kind : ReferenceKind) (name : String) : Replay :=
  if ∃ ps ∈ r.params, name ∈ ps then r else { r with calls := r.calls ++ [(kind, name)] }

/-- Asks about a callee that is a path. -/
def askCallee (r : Replay) (kind : ReferenceKind) : Option String → Replay
  | some name => r.ask kind name
  | none => r

def step (r : Replay) : Event → Replay
  | .template => r.enter .template
  | .block ps _ _ => { r.enter .block with params := if r.inElement then r.params else ps :: r.params }
  | .mustache callee _ _ => (r.askCallee .mustache callee).enter .mustache
  | .blockStatement _ _ _ => r.enter .blockStatement
  | .element tag _ _ => (r.ask .element tag).enter .element
  | .attr _ _ => r.enter .attr
  | .modifier _ _ => r.enter .modifier
  | .sub callee _ => (r.askCallee .subExpression callee).enter .sub
  | .close .block =>
    { r.leave with params := if r.leave.inElement then r.params else r.params.tail }
  | .close _ => r.leave
  | .statement _ | .text _ _ | .comment _ _ | .expression _ _ | .path _ _ _ _ _ | .hash _ _ => r

/-- The calls of a trace. -/
def callsOf (es : List Event) : List (ReferenceKind × String) := (es.foldl step {}).calls

/-! ### Parameter lists as scopes -/

/-- The scopes of some parameter lists; an empty list is none. -/
def scopesOf (pss : List (List String)) : List Scope := (pss.filter (· ≠ [])).map Scope.mk

theorem scopesOf_cons (ps : List String) (pss : List (List String)) :
    scopesOf (ps :: pss) = addScope ps (scopesOf pss) := by
  by_cases h : ps = []
  · simp [scopesOf, addScope, h]
  · simp [scopesOf, addScope, h]

theorem exists_mem_scopesOf {pss : List (List String)} {name : String} :
    (∃ s ∈ scopesOf pss, name ∈ s.names) ↔ ∃ ps ∈ pss, name ∈ ps := by
  constructor
  · rintro ⟨s, hs, hname⟩
    obtain ⟨ps, hps, rfl⟩ := List.mem_map.1 hs
    exact ⟨ps, (List.mem_filter.1 hps).1, hname⟩
  · rintro ⟨ps, hps, hname⟩
    have hne : ps ≠ [] := List.ne_nil_of_mem hname
    exact ⟨⟨ps⟩, List.mem_map.2 ⟨ps, List.mem_filter.2 ⟨hps, decide_eq_true hne⟩, rfl⟩, hname⟩

/-! ### Events that ask about references -/

/-- The replay with calls for some references. -/
def add (r : Replay) (refs : List Reference) : Replay :=
  { r with calls := r.calls ++ refs.map fun x => (x.kind, x.name) }

@[simp] theorem add_nil (r : Replay) : r.add [] = r := by
  simp [add]

theorem add_append (r : Replay) (rs ts : List Reference) : r.add (rs ++ ts) = (r.add rs).add ts := by
  simp [add]

theorem ask_eq_add (r : Replay) (kind : ReferenceKind) (name : String) (span : Span) :
    r.ask kind name = r.add (refer (scopesOf r.params) kind name span) := by
  unfold ask refer
  by_cases h : ∃ ps ∈ r.params, name ∈ ps
  · rw [if_pos h, if_pos (exists_mem_scopesOf.2 h), add_nil]
  · rw [if_neg h, if_neg (fun hs => h (exists_mem_scopesOf.1 hs))]
    rfl

theorem askCallee_eq_add (r : Replay) (kind : ReferenceKind) (c : Call) :
    r.askCallee kind c.name? = r.add (c.calleeRefs (scopesOf r.params) kind) := by
  unfold Call.name? Call.calleeRefs
  cases c.callee with
  | path p => exact r.ask_eq_add kind p.text p.span
  | sub call span => exact r.add_nil.symm
  | literal value span => exact r.add_nil.symm

theorem step_close {kind : NodeKind} (h : kind ≠ .block) (r : Replay) : r.step (.close kind) = r.leave := by
  cases kind with
  | block => exact absurd rfl h
  | _ => rfl

end Replay

open Replay

/-- From any replay, in an element or not as `body` says, the events ask about the references that `refs`
gives for the open lists, and do nothing else. -/
def Replays (body : Bool) (es : List Event) (refs : List Scope → List Reference) : Prop :=
  ∀ r : Replay, r.inElement = body → es.foldl step r = r.add (refs (scopesOf r.params))

namespace Replays

variable {body : Bool} {es fs : List Event} {f g : List Scope → List Reference}

theorem nil : Replays body [] fun _ => [] := fun r _ => r.add_nil.symm

theorem append (hf : Replays body es f) (hg : Replays body fs g) :
    Replays body (es ++ fs) fun B => f B ++ g B := by
  intro r hr
  have hstate : (r.add (f (scopesOf r.params))).inElement = body := hr
  rw [List.foldl_append, hf r hr, hg _ hstate, add_append]
  rfl

/-- An event that does nothing. -/
theorem skip {e : Event} (he : ∀ r : Replay, r.step e = r) (hf : Replays body es f) :
    Replays body (e :: es) f := by
  intro r hr
  rw [List.foldl_cons, he]
  exact hf r hr

/-- A node other than a block: what it asks itself, then what is inside it. -/
theorem around (own : List Scope → List Reference) {e : Event} {kind : NodeKind} (hkind : kind ≠ .block)
    (he : ∀ r : Replay, r.step e = (r.add (own (scopesOf r.params))).enter kind)
    (hf : Replays (kind = .element) es f) : Replays body (e.around kind es) fun B => own B ++ f B := by
  intro r _
  have hinside := hf ((r.add (own (scopesOf r.params))).enter kind) (by simp [inElement, enter])
  rw [Event.around, List.foldl_cons, he, List.foldl_append, hinside, List.foldl_cons, List.foldl_nil,
    step_close hkind, add_append]
  rfl

/-- A node other than a block that asks nothing itself. -/
theorem enclosed {e : Event} {kind : NodeKind} (hkind : kind ≠ .block)
    (he : ∀ r : Replay, r.step e = r.enter kind) (hf : Replays (kind = .element) es f) :
    Replays body (e.around kind es) f :=
  around (fun _ => []) hkind (fun r => (he r).trans (congrArg (enter · kind) r.add_nil.symm)) hf

/-- A block that is not the body of an element has a parameter list of its own. -/
theorem block {ps : List String} {hasParams : Bool} {span : Span} (hf : Replays false es f) :
    Replays false (Event.around (.block ps hasParams span) .block es) fun B => f (addScope ps B) := by
  intro r hr
  have hopen : r.step (.block ps hasParams span) = { r.enter .block with params := ps :: r.params } := by
    simp [step, hr]
  have hinside := hf { r.enter .block with params := ps :: r.params } rfl
  rw [Event.around, List.foldl_cons, hopen, List.foldl_append, hinside, List.foldl_cons, List.foldl_nil,
    scopesOf_cons]
  have hclosed : ¬ r.nodes.head? = some .element := of_decide_eq_false hr
  simp [step, add, enter, leave, inElement, hclosed]

/-- The body of an element has none. -/
theorem elementBody {ps : List String} {hasParams : Bool} {span : Span} (hf : Replays false es f) :
    Replays true (Event.around (.block ps hasParams span) .block es) f := by
  intro r hr
  have hopen : r.step (.block ps hasParams span) = r.enter .block := by
    simp [step, hr, enter]
  have hinside := hf (r.enter .block) rfl
  rw [Event.around, List.foldl_cons, hopen, List.foldl_append, hinside, List.foldl_cons, List.foldl_nil]
  have hclosed : r.nodes.head? = some .element := of_decide_eq_true hr
  simp [step, add, enter, leave, inElement, hclosed]

end Replays

/-! ### One lemma for each kind of node -/

namespace Replay

variable {body : Bool}

mutual

theorem replays_expr : ∀ (e : Expr) {body : Bool}, Replays body e.events (Expr.refs · e)
  | .path _, _ => .skip (fun _ => rfl) (.skip (fun _ => rfl) .nil)
  | .sub call _, _ => .skip (fun _ => rfl) (.around (call.calleeRefs · .subExpression) (by decide)
      (fun r => congrArg (enter · .sub) (r.askCallee_eq_add .subExpression call)) (replays_call call))
  | .literal _ _, _ => .skip (fun _ => rfl) .nil

theorem replays_call : ∀ (c : Call) {body : Bool}, Replays body c.events (Call.refs · c)
  | ⟨callee, params, hash⟩, _ => (replays_expr callee).append
      ((replays_exprs params).append (.skip (fun _ => rfl) (replays_values hash)))

theorem replays_exprs : ∀ (es : List Expr) {body : Bool},
    Replays body (Expr.listEvents es) (Expr.listRefs · es)
  | [], _ => .nil
  | e :: es, _ => (replays_expr e).append (replays_exprs es)

theorem replays_values : ∀ (ns : List Named) {body : Bool},
    Replays body (Named.listEvents ns) (Named.listRefs · ns)
  | [], _ => .nil
  | ⟨_, value⟩ :: ns, _ => (replays_expr value).append (replays_values ns)

end

theorem replays_mustache (m : Mustache) : Replays body m.events (Mustache.refs · m) :=
  .around (m.call.calleeRefs · .mustache) (by decide)
    (fun r => congrArg (enter · .mustache) (r.askCallee_eq_add .mustache m.call)) (replays_call m.call)

/-- Callees of modifiers are not asked about. -/
theorem replays_modifier (m : Modifier) : Replays body m.events (Modifier.refs · m) :=
  .enclosed (by decide) (fun _ => rfl) (replays_call m.call)

theorem replays_parts (ps : List ConcatPart) :
    Replays body (ps.flatMap ConcatPart.events) fun B => ps.flatMap (ConcatPart.refs B) := by
  induction ps with
  | nil => exact .nil
  | cons p ps ih =>
    cases p with
    | text t => exact .skip (fun _ => rfl) ih
    | mustache m => exact (replays_mustache m).append ih

theorem replays_attribute (a : Attribute) : Replays body a.events (Attribute.refs · a) := by
  obtain ⟨name, value, span⟩ := a
  refine .enclosed (by decide) (fun _ => rfl) ?_
  cases value with
  | text t => exact .skip (fun _ => rfl) .nil
  | mustache m => exact replays_mustache m
  | concat parts _ => exact replays_parts parts

theorem replays_attributes (as : List Attribute) :
    Replays body (as.flatMap Attribute.events) fun B => as.flatMap (Attribute.refs B) := by
  induction as with
  | nil => exact .nil
  | cons a as ih => exact (replays_attribute a).append ih

theorem replays_modifiers (ms : List Modifier) :
    Replays body (ms.flatMap Modifier.events) fun B => ms.flatMap (Modifier.refs B) := by
  induction ms with
  | nil => exact .nil
  | cons m ms ih => exact (replays_modifier m).append ih

mutual

theorem replays_statement : ∀ s : Statement, Replays false s.events (Statement.refs · s)
  | .mustache m => .skip (fun _ => rfl) (replays_mustache m)
  | .block b => .skip (fun _ => rfl) (replays_blockStatement b)
  | .element e => .skip (fun _ => rfl) (replays_element e)
  | .text _ => .skip (fun _ => rfl) (.skip (fun _ => rfl) .nil)
  | .mustacheComment _ => .skip (fun _ => rfl) (.skip (fun _ => rfl) .nil)
  | .comment _ => .skip (fun _ => rfl) (.skip (fun _ => rfl) .nil)

theorem replays_blockStatement : ∀ b : BlockStatement,
    Replays false b.events (BlockStatement.refs · b)
  | ⟨call, program, inverse, _⟩ => .enclosed (by decide) (fun _ => rfl)
      ((replays_call call).append ((replays_block program).append (replays_inverse inverse)))

theorem replays_element : ∀ e : Element, Replays false e.events (Element.refs · e)
  | ⟨tag, attributes, modifiers, ⟨statements, _, _⟩, _, span⟩ => .around (refer · .element tag span) (by decide)
      (fun r => congrArg (enter · .element) (r.ask_eq_add .element tag span))
      ((replays_attributes attributes).append ((replays_modifiers modifiers).append
        (.elementBody (replays_statements statements))))

theorem replays_block : ∀ b : Block, Replays false b.events (Block.refs · b)
  | ⟨statements, _, _⟩ => .block (replays_statements statements)

theorem replays_inverse : ∀ b : Option Block,
    Replays false (Block.optionEvents b) (Block.optionRefs · b)
  | none => .nil
  | some b => replays_block b

theorem replays_statements : ∀ ss : List Statement,
    Replays false (Statement.listEvents ss) (Statement.listRefs · ss)
  | [] => .nil
  | s :: ss => (replays_statement s).append (replays_statements ss)

end

/-- Replaying the events of a template asks about its references. -/
theorem callsOf_events (t : Template) : callsOf t.events = t.refs.map fun x => (x.kind, x.name) := by
  have hreplay : Replays false t.events fun B => Block.refs B t.body :=
    .enclosed (by decide) (fun _ => rfl) (replays_block t.body)
  rw [callsOf, hreplay {} rfl]
  rfl

end Replay

/-! ### Resolvers that never fail -/

namespace Reference

variable {resolver : Resolver} {module : ModuleName}

/-- A resolver that never fails is consulted on all references. -/
theorem consulted_of_total (h : ∀ kind name, ∃ answer, resolver kind name module = .ok answer)
    (rs : List Reference) :
    consulted resolver module rs = rs ∧ outcome resolver module rs = .ok () := by
  rcases consult_cases resolver module rs with ⟨_, hc, ho⟩ | ⟨r, _, e, _, he, _, _⟩
  · exact ⟨hc, ho⟩
  · obtain ⟨answer, ha⟩ := h r.kind r.name
    rw [ha] at he
    cases he

end Reference

namespace Build

/-- **Linking a template asks what a replay of its trace asks.** -/
theorem link_eq_replay (resolver : Resolver) (module : ModuleName) (t : Template) (b : Build)
    (h : ∀ kind name, ∃ answer, resolver kind name module = .ok answer) :
    (link resolver module t b).1 = .ok () ∧
      (link resolver module t b).2.queries = b.queries ++
        (Replay.callsOf ((Visitor.full none).trace t).2).map fun call => ⟨call.1, call.2, module⟩ := by
  obtain ⟨hc, ho⟩ := Reference.consulted_of_total h t.refs
  rw [link_apply, hc, Visitor.trace_full, Replay.callsOf_events, List.map_map]
  exact ⟨ho, rfl⟩

/-- A block inside an element binds its parameter, the element itself binds nothing. -/
theorem link_eq_replay_of_nested_blocks :
    let path name : Expr := .path (Path.ofText name .zero)
    let mustache name params : Statement := .mustache ⟨⟨path name, params, []⟩, false, .zero⟩
    let each : Statement := .block ⟨⟨path "each", [path "rows"], []⟩,
      ⟨[mustache "row" [], mustache "cell" [.sub ⟨path "format", [path "row"], []⟩ .zero]], ["row"], .zero⟩,
      none, .zero⟩
    let card : Statement :=
      .element (.around "Card" [] [] ⟨[mustache "card" [], each], ["card"], .zero⟩ .zero)
    (link (fun _ _ _ => .ok none) "page" ⟨⟨[card, mustache "row" []], [], .zero⟩⟩ {}).2.queries =
      [⟨.element, "Card", "page"⟩, ⟨.mustache, "card", "page"⟩, ⟨.mustache, "cell", "page"⟩,
        ⟨.subExpression, "format", "page"⟩, ⟨.mustache, "row", "page"⟩] := by
  intro path mustache each card
  have h := link_eq_replay (fun _ _ _ => .ok none) "page" ⟨⟨[card, mustache "row" []], [], .zero⟩⟩ {}
    (fun _ _ => ⟨none, rfl⟩)
  rw [h.2]
  decide +kernel

end Build

end TemplateLinker
