import TemplateLinker.Proofs.Linking.Walk
import TemplateLinker.Template.Path

/-!
# Proofs.Linking.Scopes — scopes are left as they were entered

A linking walk over any node leaves the open scopes as it found them, whether it succeeds or fails, and
never leaves a scope while none is open.  Whenever it asks the resolver, the open scopes are those that it
found and, inside them, one for each block with parameters around the use of the name
(`Linking.visit_keeps_scopes`).  The uses of names in a node are listed without regard to scopes
(`Node.uses`), each with the blocks around it in the node; what is bound is decided from these.

The resolver may go by all it was asked before, so that it can fail at any question whatever it answered
to the same question earlier.
-/

namespace TemplateLinker

/-! ### Resolvers that remember -/

/-- Answers a reference in view of the questions asked before it, first to last. -/
abbrev Responder := List Query → Resolver

namespace Linking

/-- Resolves the references of a template by a responder: each hook is the one for the resolver that the
responder is after the questions so far. -/
def responding (responder : Responder) (module : ModuleName) : Visitor Linking where
  block n walk := fun s => (visitor (responder s.queries) module).block n walk s
  mustache n walk := fun s => (visitor (responder s.queries) module).mustache n walk s
  subExpression call span walk := fun s =>
    (visitor (responder s.queries) module).subExpression call span walk s
  element n walk := fun s => (visitor (responder s.queries) module).element n walk s

/-- A resolver is a responder that pays no heed to earlier questions. -/
theorem responding_const (resolver : Resolver) (module : ModuleName) :
    responding (fun _ => resolver) module = visitor resolver module := rfl

end Linking

/-! ### Uses of names -/

/-- A use of a name in a node: what it is used as, and the parameter lists of the blocks around it in the
node, outermost first. -/
structure Use where
  kind : ReferenceKind
  name : String
  blocks : List (List String)
  deriving DecidableEq, Repr

namespace Use

/-- The use, seen from outside a block around it. -/
def inside (params : List String) (u : Use) : Use := { u with blocks := params :: u.blocks }

/-- The scopes around a use, innermost first, if those around its node are `S`; a block without parameters
is none. -/
def scopes (S : List Scope) (u : Use) : List Scope :=
  ((u.blocks.filter (· ≠ [])).map Scope.mk).reverse ++ S

/-- No scope around the use has the name. -/
def Free (S : List Scope) (u : Use) : Prop := ∀ s ∈ u.scopes S, u.name ∉ s.names

instance (S : List Scope) (u : Use) : Decidable (u.Free S) :=
  inferInstanceAs (Decidable (∀ s ∈ u.scopes S, u.name ∉ s.names))

/-- The question to the resolver, with the scopes that are open then. -/
def asked (module : ModuleName) (S : List Scope) (u : Use) : Asked :=
  ⟨⟨u.kind, u.name, module⟩, u.scopes S⟩

theorem scopes_inside (params : List String) (S : List Scope) (u : Use) :
    (u.inside params).scopes S = u.scopes (addScope params S) := by
  by_cases h : params = []
  · simp [scopes, inside, addScope, h]
  · simp [scopes, inside, addScope, h]

theorem free_inside {params : List String} {S : List Scope} {u : Use} :
    (u.inside params).Free S ↔ u.Free (addScope params S) := by
  unfold Free
  rw [scopes_inside]
  rfl

theorem asked_inside (module : ModuleName) (params : List String) (S : List Scope) (u : Use) :
    (u.inside params).asked module S = u.asked module (addScope params S) := by
  unfold asked
  rw [scopes_inside]
  rfl

end Use

def Call.calleeUses (kind : ReferenceKind) (c : Call) : List Use :=
  match c.callee with
  | .path p => [⟨kind, p.text, []⟩]
  | _ => []

mutual

def Expr.uses : Expr → List Use
  | .path _ => []
  | .sub call _ => call.calleeUses .subExpression ++ Call.uses call
  | .literal _ _ => []

/-- The uses inside a call, that of its callee as a name apart. -/
def Call.uses : Call → List Use
  | ⟨callee, params, hash⟩ => Expr.uses callee ++ (Expr.listUses params ++ Named.listUses hash)

def Expr.listUses : List Expr → List Use
  | [] => []
  | e :: es => Expr.uses e ++ Expr.listUses es

def Named.listUses : List Named → List Use
  | [] => []
  | ⟨_, value⟩ :: ns => Expr.uses value ++ Named.listUses ns

end

def Mustache.uses (m : Mustache) : List Use := m.call.calleeUses .mustache ++ m.call.uses

def ConcatPart.uses : ConcatPart → List Use
  | .text _ => []
  | .mustache m => m.uses

def AttributeValue.uses : AttributeValue → List Use
  | .text _ => []
  | .mustache m => m.uses
  | .concat parts _ => parts.flatMap ConcatPart.uses

def Attribute.uses (a : Attribute) : List Use := a.value.uses

def Modifier.uses (m : Modifier) : List Use := m.call.uses

mutual

def Statement.uses : Statement → List Use
  | .mustache m => m.uses
  | .block b => BlockStatement.uses b
  | .element e => Element.uses e
  | .text _ => []
  | .mustacheComment _ => []
  | .comment _ => []

def BlockStatement.uses : BlockStatement → List Use
  | ⟨call, program, inverse, _⟩ => call.uses ++ (Block.uses program ++ Block.optionUses inverse)

/-- The body of an element is no block around what is in it. -/
def Element.uses : Element → List Use
  | ⟨tag, attributes, modifiers, ⟨statements, _, _⟩, _, _⟩ =>
    ⟨.element, tag, []⟩ :: (attributes.flatMap Attribute.uses ++
      (modifiers.flatMap Modifier.uses ++ Statement.listUses statements))

def Block.uses : Block → List Use
  | ⟨statements, params, _⟩ => (Statement.listUses statements).map (Use.inside params)

def Block.optionUses : Option Block → List Use
  | none => []
  | some b => Block.uses b

def Statement.listUses : List Statement → List Use
  | [] => []
  | s :: ss => Statement.uses s ++ Statement.listUses ss

end

/-- A node that a visitor can be set to. -/
inductive Node where
  | template (t : Template)
  | block (b : Block)
  | statement (s : Statement)
  | expression (e : Expr)

namespace Node

def visit {m : Type → Type} [Monad m] (v : Visitor m) : Node → m Unit
  | .template t => v.visitTemplate t
  | .block b => v.visitBlock b
  | .statement s => v.visitStatement s
  | .expression e => v.visitExpr e

def uses : Node → List Use
  | .template t => t.body.uses
  | .block b => b.uses
  | .statement s => s.uses
  | .expression e => e.uses

end Node

/-! ### Questions about uses -/

/-- A walk over these uses inside the scopes `S` has asked about the free ones, in order, with the scopes
around each open, up to a failure if there was one. -/
def AsksFree (module : ModuleName) (S : List Scope) (uses : List Use) (result : Except TransformError Unit)
    (before after : List Asked) : Prop :=
  ∃ made rest, uses.filter (·.Free S) = made ++ rest ∧
    after = before ++ made.map (Use.asked module S) ∧ (result = .ok () → rest = [])

namespace AsksFree

variable {module : ModuleName} {S : List Scope} {us vs : List Use} {result : Except TransformError Unit}
  {before between after : List Asked}

theorem nil : AsksFree module S [] result before before :=
  ⟨[], [], rfl, (List.append_nil before).symm, fun _ => rfl⟩

theorem single_free {u : Use} (hu : u.Free S) :
    AsksFree module S [u] result before (before ++ [u.asked module S]) :=
  ⟨[u], [], by simp [hu], rfl, fun _ => rfl⟩

theorem single_bound {u : Use} (hu : ¬u.Free S) : AsksFree module S [u] result before before :=
  ⟨[], [], by simp [hu], (List.append_nil before).symm, fun _ => rfl⟩

theorem append (hu : AsksFree module S us (.ok ()) before between)
    (hv : AsksFree module S vs result between after) :
    AsksFree module S (us ++ vs) result before after := by
  obtain ⟨made, rest, hsplit, hmade, hall⟩ := hu
  obtain ⟨made', rest', hsplit', hmade', hall'⟩ := hv
  refine ⟨made ++ made', rest', ?_, ?_, hall'⟩
  · rw [List.filter_append, hsplit, hall rfl, List.append_nil, hsplit', List.append_assoc]
  · rw [hmade', hmade, List.map_append, List.append_assoc]

/-- After a failure nothing more is asked. -/
theorem failed {e : TransformError} (hu : AsksFree module S us (.error e) before after) (vs : List Use) :
    AsksFree module S (us ++ vs) (.error e) before after := by
  obtain ⟨made, rest, hsplit, hmade, -⟩ := hu
  refine ⟨made, rest ++ vs.filter (·.Free S), ?_, hmade, nofun⟩
  rw [List.filter_append, hsplit, List.append_assoc]

theorem inside {params : List String}
    (hu : AsksFree module (addScope params S) us result before after) :
    AsksFree module S (us.map (Use.inside params)) result before after := by
  obtain ⟨made, rest, hsplit, hmade, hall⟩ := hu
  have hfilter : (us.map (Use.inside params)).filter (·.Free S) =
      (us.filter (·.Free (addScope params S))).map (Use.inside params) := by
    simp [List.filter_map, Function.comp_def, Use.free_inside]
  have hasked : (made.map (Use.inside params)).map (Use.asked module S) =
      made.map (Use.asked module (addScope params S)) := by
    simp [Use.asked_inside]
  refine ⟨made.map (Use.inside params), rest.map (Use.inside params), ?_, ?_, fun hok => ?_⟩
  · rw [hfilter, hsplit, List.map_append]
  · rw [hasked, hmade]
  · rw [hall hok, List.map_nil]

end AsksFree

/-! ### Walks that keep the scopes -/

/-- How a walk over these uses, begun in `s`, has ended: the scopes are as they were, none was left while
none was open, and the free uses were asked about with the scopes around them open. -/
structure KeptScopes (module : ModuleName) (uses : List Use) (s : LinkState)
    (ended : Except TransformError Unit × LinkState) : Prop where
  tracker : ended.2.tracker = s.tracker
  unmatchedExits : ended.2.unmatchedExits = s.unmatchedExits
  asked : AsksFree module s.tracker.scopes uses ended.1 s.asked ended.2.asked

/-- The walk keeps the scopes, whatever it is begun in. -/
def KeepsScopes (module : ModuleName) (walk : Linking Unit) (uses : List Use) : Prop :=
  ∀ s, KeptScopes module uses s (walk s)

namespace KeepsScopes

variable {module : ModuleName} {a b : Linking Unit} {us vs : List Use}

theorem pure : KeepsScopes module (Pure.pure ()) [] := fun _ => ⟨rfl, rfl, .nil⟩

theorem bind (ha : KeepsScopes module a us) (hb : KeepsScopes module b vs) :
    KeepsScopes module (a >>= fun _ => b) (us ++ vs) := by
  intro s
  have hfirst := ha s
  rw [Linking.bind_apply]
  rcases h : a s with ⟨e | _, s'⟩
  · rw [h] at hfirst
    exact ⟨hfirst.tracker, hfirst.unmatchedExits, hfirst.asked.failed vs⟩
  · rw [h] at hfirst
    have hsecond := hb s'
    have htracker : s'.tracker = s.tracker := hfirst.tracker
    have hasked := hsecond.asked
    rw [htracker] at hasked
    exact ⟨hsecond.tracker.trans htracker, hsecond.unmatchedExits.trans hfirst.unmatchedExits,
      hfirst.asked.append hasked⟩

theorem resolve (resolver : Resolver) (kind : ReferenceKind) (name : String) (span : Span) :
    KeepsScopes module (Linking.resolve resolver module kind name span) [⟨kind, name, []⟩] := by
  intro s
  -- no block is around the use in its own node
  have hfree : Use.Free s.tracker.scopes ⟨kind, name, []⟩ ↔ ¬s.tracker.isBound name = true := by
    rw [ScopeTracker.isBound_iff, not_exists]
    exact forall_congr' fun scope => not_and.symm
  unfold Linking.resolve
  by_cases hbound : s.tracker.isBound name = true
  · rw [if_pos hbound]
    exact ⟨rfl, rfl, .single_bound fun h => hfree.1 h hbound⟩
  · rw [if_neg hbound]
    rcases resolver kind name module with e | _ | r
    · exact ⟨rfl, rfl, .single_free (hfree.2 hbound)⟩
    · exact ⟨rfl, rfl, .single_free (hfree.2 hbound)⟩
    · exact ⟨rfl, rfl, .single_free (hfree.2 hbound)⟩

theorem resolveCallee (resolver : Resolver) (kind : ReferenceKind) (c : Call) :
    KeepsScopes module (Linking.resolveCallee resolver module kind c) (c.calleeUses kind) := by
  unfold Linking.resolveCallee Call.calleeUses Call.name?
  cases c.callee with
  | path p => exact resolve resolver kind p.text p.span
  | sub call span => exact pure
  | literal value span => exact pure

/-- A scope that is entered is left again, also after a failure. -/
theorem withScope (ha : KeepsScopes module a us) (params : List String) :
    KeepsScopes module (Linking.withScope params a) (us.map (Use.inside params)) := by
  intro s
  by_cases h : params = []
  · subst h
    exact ⟨(ha s).tracker, (ha s).unmatchedExits, (ha s).asked.inside⟩
  · have hinside := ha { s with tracker := s.tracker.enter params }
    have hscopes : (s.tracker.enter params).scopes = addScope params s.tracker.scopes := by
      rw [ScopeTracker.scopes_enter s.tracker h, addScope_of_ne_nil h]
    have hasked := hinside.asked
    rw [hscopes] at hasked
    unfold Linking.withScope
    rw [if_neg h]
    rcases hended : a { s with tracker := s.tracker.enter params } with ⟨result, s'⟩
    rw [hended] at hinside hasked
    have hleave : s'.leave = { s' with tracker := s.tracker } := by
      have hexit : s'.tracker.exit? = some s.tracker := by
        rw [hinside.tracker]
        exact ScopeTracker.exit?_enter s.tracker h
      rw [LinkState.leave, hexit]
    show KeptScopes module _ s (result, s'.leave)
    rw [hleave]
    exact ⟨rfl, hinside.unmatchedExits, hasked.inside⟩

end KeepsScopes

/-! ### One lemma for each kind of node -/

namespace Linking

variable {responder : Responder} {module : ModuleName}

mutual

theorem keepsScopes_visitExpr : ∀ e : Expr,
    KeepsScopes module ((responding responder module).visitExpr e) e.uses
  | .path _ => .pure
  | .sub call _ => fun s =>
    (KeepsScopes.resolveCallee (responder s.queries) .subExpression call).bind
      (keepsScopes_walkCall call) s
  | .literal _ _ => .pure

theorem keepsScopes_walkCall : ∀ c : Call,
    KeepsScopes module ((responding responder module).walkCall c) c.uses
  | ⟨callee, params, hash⟩ => (keepsScopes_visitExpr callee).bind
      ((keepsScopes_visitExprs params).bind (keepsScopes_visitValues hash))

theorem keepsScopes_visitExprs : ∀ es : List Expr,
    KeepsScopes module ((responding responder module).visitExprs es) (Expr.listUses es)
  | [] => .pure
  | e :: es => (keepsScopes_visitExpr e).bind (keepsScopes_visitExprs es)

theorem keepsScopes_visitValues : ∀ ns : List Named,
    KeepsScopes module ((responding responder module).visitValues ns) (Named.listUses ns)
  | [] => .pure
  | ⟨_, value⟩ :: ns => (keepsScopes_visitExpr value).bind (keepsScopes_visitValues ns)

end

theorem keepsScopes_visitMustache (m : Mustache) :
    KeepsScopes module ((responding responder module).visitMustache m) m.uses := fun s =>
  (KeepsScopes.resolveCallee (responder s.queries) .mustache m.call).bind (keepsScopes_walkCall m.call) s

theorem keepsScopes_visitParts (ps : List ConcatPart) :
    KeepsScopes module ((responding responder module).visitParts ps) (ps.flatMap ConcatPart.uses) := by
  induction ps with
  | nil => exact .pure
  | cons p ps ih =>
    cases p with
    | text n => exact KeepsScopes.pure.bind ih
    | mustache m => exact (keepsScopes_visitMustache m).bind ih

theorem keepsScopes_visitAttribute (a : Attribute) :
    KeepsScopes module ((responding responder module).visitAttribute a) a.uses := by
  obtain ⟨name, value, span⟩ := a
  cases value with
  | text n => exact .pure
  | mustache m => exact keepsScopes_visitMustache m
  | concat parts _ => exact keepsScopes_visitParts parts

theorem keepsScopes_visitAttributes (as : List Attribute) :
    KeepsScopes module ((responding responder module).visitAttributes as)
      (as.flatMap Attribute.uses) := by
  induction as with
  | nil => exact .pure
  | cons a as ih => exact (keepsScopes_visitAttribute a).bind ih

theorem keepsScopes_visitModifiers (ms : List Modifier) :
    KeepsScopes module ((responding responder module).visitModifiers ms) (ms.flatMap Modifier.uses) := by
  induction ms with
  | nil => exact .pure
  | cons m ms ih => exact (keepsScopes_walkCall m.call).bind ih

mutual

theorem keepsScopes_visitStatement : ∀ s : Statement,
    KeepsScopes module ((responding responder module).visitStatement s) s.uses
  | .mustache m => keepsScopes_visitMustache m
  | .block b => keepsScopes_visitBlockStatement b
  | .element e => keepsScopes_visitElement e
  | .text _ => .pure
  | .mustacheComment _ => .pure
  | .comment _ => .pure

theorem keepsScopes_visitBlockStatement : ∀ b : BlockStatement,
    KeepsScopes module ((responding responder module).visitBlockStatement b) b.uses
  | ⟨call, program, inverse, _⟩ => (keepsScopes_walkCall call).bind
      ((keepsScopes_visitBlock program).bind (keepsScopes_visitInverse inverse))

theorem keepsScopes_visitElement : ∀ e : Element,
    KeepsScopes module ((responding responder module).visitElement e) e.uses
  | ⟨tag, attributes, modifiers, ⟨statements, _, _⟩, _, span⟩ => fun s =>
    (KeepsScopes.resolve (responder s.queries) .element tag span).bind
      ((keepsScopes_visitAttributes attributes).bind
        ((keepsScopes_visitModifiers modifiers).bind (keepsScopes_visitStatements statements))) s

theorem keepsScopes_visitBlock : ∀ b : Block,
    KeepsScopes module ((responding responder module).visitBlock b) b.uses
  | ⟨statements, params, _⟩ => (keepsScopes_visitStatements statements).withScope params

theorem keepsScopes_visitInverse : ∀ b : Option Block,
    KeepsScopes module ((responding responder module).visitInverse b) (Block.optionUses b)
  | none => .pure
  | some b => keepsScopes_visitBlock b

theorem keepsScopes_visitStatements : ∀ ss : List Statement,
    KeepsScopes module ((responding responder module).visitStatements ss) (Statement.listUses ss)
  | [] => .pure
  | s :: ss => (keepsScopes_visitStatement s).bind (keepsScopes_visitStatements ss)

end

/-- **Scopes do not leak.**  However the resolver answers and whether it fails, a walk over a node leaves
the scopes as it found them, and never leaves one while none is open.  Each question is about a free use of
a name in the node, and is asked while the scopes around that use are open. -/
theorem visit_keeps_scopes (responder : Responder) (module : ModuleName) (node : Node) (s : LinkState) :
    KeptScopes module node.uses s (node.visit (responding responder module) s) := by
  cases node with
  | template t => exact keepsScopes_visitBlock t.body s
  | block b => exact keepsScopes_visitBlock b s
  | statement statement => exact keepsScopes_visitStatement statement s
  | expression e => exact keepsScopes_visitExpr e s

/-- A resolver that fails when it is asked again: the scope of the block is open at both questions, and is
left after the failure. -/
example :
    let mustache : Statement := .mustache ⟨⟨.path (Path.ofText "a" .zero), [], []⟩, false, .zero⟩
    let forgetful : Responder := fun earlier _ _ _ =>
      if earlier = [] then .ok none else .error (.other "asked before")
    let ended := Node.visit (responding forgetful "page") (.block ⟨[mustache, mustache], ["x"], .zero⟩) {}
    let question : Asked := ⟨⟨.mustache, "a", "page"⟩, [⟨["x"]⟩]⟩
    ended.1 = .error (.resolve "a" .zero (.other "asked before")) ∧
      ended.2.asked = [question, question] ∧ ended.2.tracker.scopes = [] := by
  intro mustache forgetful ended question
  exact ⟨rfl, by decide +kernel, by decide +kernel⟩

end Linking

end TemplateLinker
