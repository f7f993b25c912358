import TemplateLinker.Proofs.Template.Trace

/-!
# Proofs.Template.Nesting — closing events match

The events that have a closing event are properly nested (`Nested`): between the event of a node and its
closing event, of the same kind, stands a nested list, and what is no part of such a pair neither opens nor
closes anything.  The events of each kind of node are nested, and so is the trace of a template
(`Template.nested`).
-/

namespace TemplateLinker

namespace Event

/-- The kind of the closing event that belongs to an event, if there is one. -/
def opens? : Event → Option NodeKind
  | .template => some .template
  | .block _ _ _ => some .block
  | .mustache _ _ _ => some .mustache
  | .blockStatement _ _ _ => some .blockStatement
  | .element _ _ _ => some .element
  | .attr _ _ => some .attr
  | .modifier _ _ => some .modifier
  | .sub _ _ => some .sub
  | _ => none

def isClosing : Event → Bool
  | .close _ => true
  | _ => false

end Event

/-- Each event that has a closing event is closed by one of its kind, in front of everything that was opened
before it. -/
inductive Nested : List Event → Prop where
  | nil : Nested []
  | single {e : Event} {es : List Event} (hopen : e.opens? = none) (hclose : e.isClosing = false)
    (hes : Nested es) : Nested (e :: es)
  | node {e : Event} {kind : NodeKind} {inner es : List Event} (hopen : e.opens? = some kind)
    (hinner : Nested inner) (hes : Nested es) : Nested (e.around kind inner ++ es)

namespace Nested

variable {es fs : List Event}

theorem append (he : Nested es) (hf : Nested fs) : Nested (es ++ fs) := by
  induction he with
  | nil => exact hf
  | single hopen hclose _ ih => exact .single hopen hclose ih
  | node hopen hinner _ _ ih =>
    rw [List.append_assoc]
    exact .node hopen hinner ih

theorem around {e : Event} {kind : NodeKind} (hopen : e.opens? = some kind) (he : Nested es) :
    Nested (e.around kind es) := by
  have hnode := Nested.node hopen he .nil
  rwa [List.append_nil] at hnode

theorem flatMap {α : Type} {events : α → List Event} (h : ∀ a, Nested (events a)) (as : List α) :
    Nested (as.flatMap events) := by
  induction as with
  | nil => exact .nil
  | cons a as ih => exact (h a).append ih

end Nested

/-! ### One lemma for each kind of node -/

mutual

theorem Expr.nested : ∀ e : Expr, Nested e.events
  | .path _ => .single rfl rfl (.single rfl rfl .nil)
  | .sub call _ => .single rfl rfl (.around rfl (Call.nested call))
  | .literal _ _ => .single rfl rfl .nil

theorem Call.nested : ∀ c : Call, Nested c.events
  | ⟨callee, params, hash⟩ =>
    (Expr.nested callee).append ((Expr.listNested params).append (.single rfl rfl (Named.listNested hash)))

theorem Expr.listNested : ∀ es : List Expr, Nested (Expr.listEvents es)
  | [] => .nil
  | e :: es => (Expr.nested e).append (Expr.listNested es)

theorem Named.listNested : ∀ ns : List Named, Nested (Named.listEvents ns)
  | [] => .nil
  | ⟨_, value⟩ :: ns => (Expr.nested value).append (Named.listNested ns)

end

theorem Mustache.nested (m : Mustache) : Nested m.events := .around rfl m.call.nested

theorem Modifier.nested (m : Modifier) : Nested m.events := .around rfl m.call.nested

theorem ConcatPart.nested : ∀ p : ConcatPart, Nested p.events
  | .text _ => .single rfl rfl .nil
  | .mustache m => m.nested

theorem AttributeValue.nested : ∀ v : AttributeValue, Nested v.events
  | .text _ => .single rfl rfl .nil
  | .mustache m => m.nested
  | .concat parts _ => .flatMap ConcatPart.nested parts

theorem Attribute.nested (a : Attribute) : Nested a.events := .around rfl a.value.nested

mutual

theorem Statement.nested : ∀ s : Statement, Nested s.events
  | .mustache m => .single rfl rfl m.nested
  | .block b => .single rfl rfl (BlockStatement.nested b)
  | .element e => .single rfl rfl (Element.nested e)
  | .text _ => .single rfl rfl (.single rfl rfl .nil)
  | .mustacheComment _ => .single rfl rfl (.single rfl rfl .nil)
  | .comment _ => .single rfl rfl (.single rfl rfl .nil)

theorem BlockStatement.nested : ∀ b : BlockStatement, Nested b.events
  | ⟨call, program, inverse, _⟩ =>
    .around rfl (call.nested.append ((Block.nested program).append (Block.optionNested inverse)))

theorem Element.nested : ∀ e : Element, Nested e.events
  | ⟨_, attributes, modifiers, body, _, _⟩ =>
    .around rfl ((Nested.flatMap Attribute.nested attributes).append
      ((Nested.flatMap Modifier.nested modifiers).append (Block.nested body)))

theorem Block.nested : ∀ b : Block, Nested b.events
  | ⟨statements, _, _⟩ => .around rfl (Statement.listNested statements)

theorem Block.optionNested : ∀ b : Option Block, Nested (Block.optionEvents b)
  | none => .nil
  | some b => Block.nested b

theorem Statement.listNested : ∀ ss : List Statement, Nested (Statement.listEvents ss)
  | [] => .nil
  | s :: ss => (Statement.nested s).append (Statement.listNested ss)

end

/-- **The events of a template are properly nested.** -/
theorem Template.nested (t : Template) : Nested t.events := .around rfl t.body.nested

end TemplateLinker
