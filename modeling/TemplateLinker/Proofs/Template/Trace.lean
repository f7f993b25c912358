import TemplateLinker.Template.Event

/-!
# Proofs.Template.Trace — the events of a template

`Template.events` lists, by recursion on the tree, what a walk notes when every hook notes its node: a node
that encloses others comes with its closing event behind them.  A visitor may note in some of its hooks
only (`Visitor.noting`).  The walk of each kind of node does what `noteAll` does with those of its events
that these hooks note (`Notes`), so the trace of a template is that part of the list (`trace_noting`), and
all of it if every hook notes (`trace_full`).
-/

namespace TemplateLinker

/-! ### Events by recursion on the tree -/

/-- The event of a node, the events inside it, and its closing event. -/
def Event.around (e : Event) (kind : NodeKind) (inner : List Event) : List Event :=
  e :: (inner ++ [.close kind])

mutual

def Expr.events : Expr → List Event
  | .path p => [.expression (some p.text) p.span, .ofPath p]
  | .sub call span =>
    .expression none span :: Event.around (.sub call.name? span) .sub (Call.events call)
  | .literal _ span => [.expression none span]

/-- The events inside a call. -/
def Call.events : Call → List Event
  | ⟨callee, params, hash⟩ =>
    Expr.events callee ++ (Expr.listEvents params ++ .ofHash hash :: Named.listEvents hash)

def Expr.listEvents : List Expr → List Event
  | [] => []
  | e :: es => Expr.events e ++ Expr.listEvents es

def Named.listEvents : List Named → List Event
  | [] => []
  | ⟨_, value⟩ :: ns => Expr.events value ++ Named.listEvents ns

end

def Mustache.events (m : Mustache) : List Event :=
  Event.around (.mustache m.call.name? m.trusting m.span) .mustache m.call.events

def Modifier.events (m : Modifier) : List Event :=
  Event.around (.modifier m.call.name? m.span) .modifier m.call.events

def ConcatPart.events : ConcatPart → List Event
  | .text t => [.ofText t]
  | .mustache m => m.events

def AttributeValue.events : AttributeValue → List Event
  | .text t => [.ofText t]
  | .mustache m => m.events
  | .concat parts _ => parts.flatMap ConcatPart.events

def Attribute.events (a : Attribute) : List Event :=
  Event.around (.attr a.name a.span) .attr a.value.events

mutual

def Statement.events : Statement → List Event
  | .mustache m => .statement m.span :: m.events
  | .block b => .statement b.span :: BlockStatement.events b
  | .element e => .statement e.span :: Element.events e
  | .text t => [.statement t.span, .ofText t]
  | .mustacheComment c => [.statement c.span, .ofComment c]
  | .comment c => [.statement c.span, .ofComment c]

def BlockStatement.events : BlockStatement → List Event
  | ⟨call, program, inverse, span⟩ =>
    Event.around (.blockStatement call.name? inverse.isSome span) .blockStatement
      (call.events ++ (Block.events program ++ Block.optionEvents inverse))

def Element.events : Element → List Event
  | ⟨tag, attributes, modifiers, body, selfClosing, span⟩ =>
    Event.around (.element tag selfClosing span) .element
      (attributes.flatMap Attribute.events ++ (modifiers.flatMap Modifier.events ++ Block.events body))

def Block.events : Block → List Event
  | ⟨statements, params, span⟩ =>
    Event.around (.block params (!params.isEmpty) span) .block (Statement.listEvents statements)

def Block.optionEvents : Option Block → List Event
  | none => []
  | some b => Block.events b

def Statement.listEvents : List Statement → List Event
  | [] => []
  | s :: ss => Statement.events s ++ Statement.listEvents ss

end

def Template.events (t : Template) : List Event := Event.around .template .template t.body.events

/-! ### Noting events one after another -/

namespace Tracing

variable (stopAt : Option Nat)

/-- Notes events up to the one to stop at. -/
def noteAll : List Event → Tracing Unit
  | [] => pure ()
  | e :: es => do
    note stopAt e
    noteAll es

theorem noteAll_append (es fs : List Event) :
    noteAll stopAt (es ++ fs) = noteAll stopAt es >>= fun _ => noteAll stopAt fs := by
  induction es with
  | nil => rw [List.nil_append, noteAll, pure_bind]
  | cons e es ih => rw [List.cons_append, noteAll, noteAll, ih, bind_assoc]

theorem noteAll_singleton (e : Event) : noteAll stopAt [e] = note stopAt e := by
  rw [noteAll, noteAll, bind_pure_unit]

theorem enclose_noteAll (e : Event) (kind : NodeKind) (es : List Event) :
    enclose stopAt e kind (noteAll stopAt es) = noteAll stopAt (e.around kind es) := by
  rw [Event.around, noteAll, noteAll_append, noteAll_singleton, enclose]

theorem noteAll_cons_apply (e : Event) (es : List Event) (noted : Array Event) :
    noteAll stopAt (e :: es) noted =
      if stopAt = some (noted.size + 1) then (.error (noted.size + 1), noted.push e)
      else noteAll stopAt es (noted.push e) := by
  have hsize : (noted.push e).size = noted.size + 1 := Array.size_push ..
  simp only [noteAll, bind, ExceptT.bind, ExceptT.mk, ExceptT.bindCont, StateT.bind, note, hsize]
  by_cases hstop : stopAt = some (noted.size + 1)
  · rw [if_pos hstop, if_pos hstop]
    rfl
  · rw [if_neg hstop, if_neg hstop]

/-- Without an event to stop at, all are noted. -/
theorem noteAll_none (es : List Event) (noted : Array Event) :
    noteAll none es noted = (.ok (), noted ++ es.toArray) := by
  induction es generalizing noted with
  | nil =>
    show (Except.ok (), noted) = (.ok (), noted ++ #[])
    rw [Array.append_empty]
  | cons e es ih =>
    rw [noteAll_cons_apply, if_neg nofun, ih]
    simp

end Tracing

/-! ### Visitors that note in some of their hooks -/

/-- The hooks of a visitor. -/
inductive Hook where
  | template
  | block
  | statement
  | mustache
  | blockStatement
  | element
  | attr
  | modifier
  | text
  | comment
  | expression
  | sub
  | path
  | hash
  deriving DecidableEq, Repr

def NodeKind.hook : NodeKind → Hook
  | .template => .template
  | .block => .block
  | .mustache => .mustache
  | .blockStatement => .blockStatement
  | .element => .element
  | .attr => .attr
  | .modifier => .modifier
  | .sub => .sub

/-- The hook that notes an event. -/
def Event.hook : Event → Hook
  | .template => .template
  | .block _ _ _ => .block
  | .statement _ => .statement
  | .mustache _ _ _ => .mustache
  | .blockStatement _ _ _ => .blockStatement
  | .element _ _ _ => .element
  | .attr _ _ => .attr
  | .modifier _ _ => .modifier
  | .text _ _ => .text
  | .comment _ _ => .comment
  | .expression _ _ => .expression
  | .sub _ _ => .sub
  | .path _ _ _ _ _ => .path
  | .hash _ _ => .hash
  | .close kind => kind.hook

namespace Visitor

open Tracing

/-- Notes in the hooks `on`, as the visitor that notes every node does; the other hooks are the default
ones. -/
def noting (on : Hook → Bool) (stopAt : Option Nat) : Visitor Tracing where
  template n walk := if on .template then (full stopAt).template n walk else silent.template n walk
  block n walk := if on .block then (full stopAt).block n walk else silent.block n walk
  statement n walk := if on .statement then (full stopAt).statement n walk else silent.statement n walk
  mustache n walk := if on .mustache then (full stopAt).mustache n walk else silent.mustache n walk
  blockStatement n walk :=
    if on .blockStatement then (full stopAt).blockStatement n walk else silent.blockStatement n walk
  element n walk := if on .element then (full stopAt).element n walk else silent.element n walk
  attr n walk := if on .attr then (full stopAt).attr n walk else silent.attr n walk
  modifier n walk := if on .modifier then (full stopAt).modifier n walk else silent.modifier n walk
  text n := if on .text then (full stopAt).text n else silent.text n
  comment n := if on .comment then (full stopAt).comment n else silent.comment n
  expression e walk :=
    if on .expression then (full stopAt).expression e walk else silent.expression e walk
  subExpression call span walk :=
    if on .sub then (full stopAt).subExpression call span walk else silent.subExpression call span walk
  path p := if on .path then (full stopAt).path p else silent.path p
  hash ns walk := if on .hash then (full stopAt).hash ns walk else silent.hash ns walk

theorem full_eq_noting (stopAt : Option Nat) : full stopAt = noting (fun _ => true) stopAt := rfl

theorem leaves_eq_noting (stopAt : Option Nat) :
    leaves stopAt = noting (· ∈ [.text, .comment, .path]) stopAt := rfl

theorem paths_eq_noting (stopAt : Option Nat) : paths stopAt = noting (· = .path) stopAt := rfl

theorem silent_eq_noting (stopAt : Option Nat) : silent = noting (fun _ => false) stopAt := rfl

end Visitor

/-- The walk notes those of the events that the hooks `on` note, up to the one to stop at. -/
def Notes (on : Hook → Bool) (stopAt : Option Nat) (walk : Tracing Unit) (es : List Event) : Prop :=
  walk = Tracing.noteAll stopAt (es.filter fun e => on e.hook)

namespace Notes

open Tracing

variable {on : Hook → Bool} {stopAt : Option Nat} {a b : Tracing Unit} {es fs : List Event}

theorem nil : Notes on stopAt (pure ()) [] := rfl

theorem append (ha : Notes on stopAt a es) (hb : Notes on stopAt b fs) :
    Notes on stopAt (a >>= fun _ => b) (es ++ fs) := by
  rw [Notes, List.filter_append, noteAll_append, ← ha, ← hb]

/-- A hook that notes one event and walks on. -/
theorem cons {h : Hook} {e : Event} (he : e.hook = h) (ha : Notes on stopAt a es) :
    Notes on stopAt (if on h then (do note stopAt e; a) else a) (e :: es) := by
  subst he
  by_cases hon : on e.hook = true
  · rw [Notes, if_pos hon, List.filter_cons, if_pos hon, noteAll, ← ha]
  · rw [Notes, if_neg hon, List.filter_cons, if_neg hon, ← ha]

/-- A hook that notes one event. -/
theorem single {h : Hook} {e : Event} (he : e.hook = h) :
    Notes on stopAt (if on h then note stopAt e else pure ()) [e] := by
  have hnone : Notes on stopAt (pure ()) [] := nil
  have hcons := hnone.cons he
  rwa [bind_pure_unit] at hcons

/-- A hook that notes an event in front of a walk and its closing event behind it. -/
theorem around {h : Hook} {e : Event} {kind : NodeKind} (he : e.hook = h) (hkind : kind.hook = h)
    (ha : Notes on stopAt a es) :
    Notes on stopAt (if on h then enclose stopAt e kind a else a) (e.around kind es) := by
  have hclose : (Event.close kind).hook = h := hkind
  by_cases hon : on h = true
  · have hfilter : (e.around kind es).filter (fun e => on e.hook) =
        e.around kind (es.filter fun e => on e.hook) := by
      simp [Event.around, he, hclose, hon]
    rw [Notes, if_pos hon, hfilter, ← enclose_noteAll, ← ha]
  · have hfilter : (e.around kind es).filter (fun e => on e.hook) = es.filter fun e => on e.hook := by
      simp [Event.around, he, hclose, hon]
    rw [Notes, if_neg hon, hfilter, ← ha]

end Notes

/-! ### One lemma for each kind of node -/

namespace Visitor

open Tracing

variable {on : Hook → Bool} {stopAt : Option Nat}

mutual

theorem notes_visitExpr : ∀ e : Expr, Notes on stopAt ((noting on stopAt).visitExpr e) e.events
  | .path _ => .cons rfl (.single rfl)
  | .sub call _ => .cons rfl (.around rfl rfl (notes_walkCall call))
  | .literal _ _ => .cons rfl .nil

theorem notes_walkCall : ∀ c : Call, Notes on stopAt ((noting on stopAt).walkCall c) c.events
  | ⟨callee, params, hash⟩ =>
    (notes_visitExpr callee).append ((notes_visitExprs params).append (.cons rfl (notes_visitValues hash)))

theorem notes_visitExprs : ∀ es : List Expr,
    Notes on stopAt ((noting on stopAt).visitExprs es) (Expr.listEvents es)
  | [] => .nil
  | e :: es => (notes_visitExpr e).append (notes_visitExprs es)

theorem notes_visitValues : ∀ ns : List Named,
    Notes on stopAt ((noting on stopAt).visitValues ns) (Named.listEvents ns)
  | [] => .nil
  | ⟨_, value⟩ :: ns => (notes_visitExpr value).append (notes_visitValues ns)

end

theorem notes_visitMustache (m : Mustache) :
    Notes on stopAt ((noting on stopAt).visitMustache m) m.events :=
  .around rfl rfl (notes_walkCall m.call)

theorem notes_visitModifier (m : Modifier) :
    Notes on stopAt ((noting on stopAt).visitModifier m) m.events :=
  .around rfl rfl (notes_walkCall m.call)

theorem notes_visitPart : ∀ p : ConcatPart, Notes on stopAt ((noting on stopAt).visitPart p) p.events
  | .text _ => .single rfl
  | .mustache m => notes_visitMustache m

theorem notes_visitParts (ps : List ConcatPart) :
    Notes on stopAt ((noting on stopAt).visitParts ps) (ps.flatMap ConcatPart.events) := by
  induction ps with
  | nil => exact .nil
  | cons p ps ih => exact (notes_visitPart p).append ih

theorem notes_walkAttributeValue : ∀ v : AttributeValue,
    Notes on stopAt ((noting on stopAt).walkAttributeValue v) v.events
  | .text _ => .single rfl
  | .mustache m => notes_visitMustache m
  | .concat parts _ => notes_visitParts parts

theorem notes_visitAttribute (a : Attribute) :
    Notes on stopAt ((noting on stopAt).visitAttribute a) a.events :=
  .around rfl rfl (notes_walkAttributeValue a.value)

theorem notes_visitAttributes (as : List Attribute) :
    Notes on stopAt ((noting on stopAt).visitAttributes as) (as.flatMap Attribute.events) := by
  induction as with
  | nil => exact .nil
  | cons a as ih => exact (notes_visitAttribute a).append ih

theorem notes_visitModifiers (ms : List Modifier) :
    Notes on stopAt ((noting on stopAt).visitModifiers ms) (ms.flatMap Modifier.events) := by
  induction ms with
  | nil => exact .nil
  | cons m ms ih => exact (notes_visitModifier m).append ih

mutual

theorem notes_visitStatement : ∀ s : Statement,
    Notes on stopAt ((noting on stopAt).visitStatement s) s.events
  | .mustache m => .cons rfl (notes_visitMustache m)
  | .block b => .cons rfl (notes_visitBlockStatement b)
  | .element e => .cons rfl (notes_visitElement e)
  | .text _ => .cons rfl (.single rfl)
  | .mustacheComment _ => .cons rfl (.single rfl)
  | .comment _ => .cons rfl (.single rfl)

theorem notes_visitBlockStatement : ∀ b : BlockStatement,
    Notes on stopAt ((noting on stopAt).visitBlockStatement b) b.events
  | ⟨call, program, inverse, _⟩ =>
    .around rfl rfl ((notes_walkCall call).append
      ((notes_visitBlock program).append (notes_visitInverse inverse)))

theorem notes_visitElement : ∀ e : Element, Notes on stopAt ((noting on stopAt).visitElement e) e.events
  | ⟨_, attributes, modifiers, body, _, _⟩ =>
    .around rfl rfl ((notes_visitAttributes attributes).append
      ((notes_visitModifiers modifiers).append (notes_visitBlock body)))

theorem notes_visitBlock : ∀ b : Block, Notes on stopAt ((noting on stopAt).visitBlock b) b.events
  | ⟨statements, _, _⟩ => .around rfl rfl (notes_visitStatements statements)

theorem notes_visitInverse : ∀ b : Option Block,
    Notes on stopAt ((noting on stopAt).visitInverse b) (Block.optionEvents b)
  | none => .nil
  | some b => notes_visitBlock b

theorem notes_visitStatements : ∀ ss : List Statement,
    Notes on stopAt ((noting on stopAt).visitStatements ss) (Statement.listEvents ss)
  | [] => .nil
  | s :: ss => (notes_visitStatement s).append (notes_visitStatements ss)

end

/-- A walk notes those of the events of the template that its hooks note, up to the one to stop at. -/
theorem notes_visitTemplate (t : Template) :
    Notes on stopAt ((noting on stopAt).visitTemplate t) t.events :=
  .around rfl rfl (notes_visitBlock t.body)

/-- The trace of a visitor is the events of the template that its hooks note. -/
theorem trace_noting (on : Hook → Bool) (t : Template) :
    (noting on none).trace t = (none, t.events.filter fun e => on e.hook) := by
  have hwalk : (noting on none).visitTemplate t = _ := notes_visitTemplate t
  have hrun : ((noting on none).visitTemplate t).run #[] =
      (.ok (), (t.events.filter fun e => on e.hook).toArray) := by
    rw [hwalk]
    show noteAll none _ #[] = _
    rw [noteAll_none, Array.empty_append]
  rw [trace, hrun]

/-- **The trace of a template is the list of its events.** -/
theorem trace_full (t : Template) : (full none).trace t = (none, t.events) := by
  rw [full_eq_noting, trace_noting, List.filter_eq_self.2 fun _ _ => rfl]

end Visitor

end TemplateLinker
