import TemplateLinker.Proofs.Json.Objects
import TemplateLinker.Proofs.Template.Nesting
import TemplateLinker.Proofs.Template.Wire

/-!
# Proofs.Template.Order — a walk and the wire text meet the nodes in one order

Statements, expressions and the parts of attributes are objects of the wire text, tagged with their kind,
and have an event in the trace.  For each kind of node, the events of the node and the objects of its value
`Agree`: without those that stand for no such node, they are the same nodes with the same data, one for
one.  So the walk, written down by hand, and the text, written down member by member, are two listings of
one sequence of nodes (`Template.trace_agrees_with_wire`).
-/

namespace TemplateLinker

/-! ### Nodes as events and as objects -/

namespace Event

/-- The kinds of the objects that an event is noted for; both kinds of comments have one event. -/
def kinds : Event → List String
  | .mustache _ _ _ => ["MustacheStatement"]
  | .blockStatement _ _ _ => ["BlockStatement"]
  | .element _ _ _ => ["ElementNode"]
  | .text _ _ => ["TextNode"]
  | .comment _ _ => ["MustacheCommentStatement", "CommentStatement"]
  | .sub _ _ => ["SubExpression"]
  | .path _ _ _ _ _ => ["PathExpression"]
  | _ => []

/-- Whether an event is noted for an object. -/
def isShown (e : Event) : Bool := e.kinds ≠ []

end Event

namespace Json

/-- The kinds of the objects that an event is noted for. -/
def nodeKinds : List String :=
  ["MustacheStatement", "BlockStatement", "ElementNode", "TextNode", "MustacheCommentStatement",
    "CommentStatement", "SubExpression", "PathExpression"]

def isNode (ms : Entries Json) : Bool :=
  match Entries.get? "type" ms with
  | some (.string kind) => kind ∈ nodeKinds
  | _ => false

/-- The text of a path; no other value has one. -/
def pathText? (v : Json) : Option String :=
  match v.get? "type", v.get? "original" with
  | some (.string "PathExpression"), some (.string text) => some text
  | _, _ => none

/-- The callee is a path of this text, or no path if there is none. -/
def HasCallee (ms : Entries Json) (callee : Option String) : Prop :=
  ∃ v, Entries.get? "path" ms = some v ∧ v.pathText? = callee

end Json

namespace Event

open Json (HasCallee)

/-- The members say what the event says, spans apart. -/
def SameData (ms : Entries Json) : Event → Prop
  | .mustache callee trusting _ =>
    HasCallee ms callee ∧ Entries.get? "trusting" ms = some (.bool trusting)
  | .blockStatement callee hasInverse _ =>
    HasCallee ms callee ∧ ∃ v, Entries.get? "inverse" ms = some v ∧ hasInverse = !v.isNull
  | .element tag selfClosing _ =>
    Entries.get? "tag" ms = some (.string tag) ∧ Entries.get? "selfClosing" ms = some (.bool selfClosing)
  | .text chars _ => Entries.get? "chars" ms = some (.string chars)
  | .comment value _ => Entries.get? "value" ms = some (.string value)
  | .sub callee _ => HasCallee ms callee
  | .path original isThis isData parts _ =>
    Entries.get? "original" ms = some (.string original) ∧ Entries.get? "this" ms = some (.bool isThis) ∧
      Entries.get? "data" ms = some (.bool isData) ∧ Entries.get? "parts" ms = some (.strings parts)
  | _ => True

/-- The event and the object with these members stand for nodes of one kind with the same data. -/
def Shows (e : Event) (ms : Entries Json) : Prop :=
  (∃ kind ∈ e.kinds, Entries.get? "type" ms = some (.string kind)) ∧ e.SameData ms

variable {e : Event} {ms : Entries Json}

theorem Shows.isShown (h : e.Shows ms) : e.isShown = true := by
  obtain ⟨⟨kind, hkind, -⟩, -⟩ := h
  exact decide_eq_true (List.ne_nil_of_mem hkind)

theorem kinds_subset (e : Event) : e.kinds ⊆ Json.nodeKinds := by
  cases e <;> simp [kinds, Json.nodeKinds]

theorem Shows.isNode (h : e.Shows ms) : Json.isNode ms = true := by
  obtain ⟨⟨kind, hkind, hms⟩, -⟩ := h
  rw [Json.isNode, hms]
  exact decide_eq_true (e.kinds_subset hkind)

end Event

/-! ### Listings that agree -/

/-- The events that are noted for objects and the objects that are nodes are one for one the same. -/
def Agree (es : List Event) (objs : List (Entries Json)) : Prop :=
  List.Forall₂ Event.Shows (es.filter Event.isShown) (objs.filter Json.isNode)

namespace Agree

variable {e : Event} {ms : Entries Json} {es fs : List Event} {objs ns : List (Entries Json)}

theorem nil : Agree [] [] := List.Forall₂.nil

theorem append (h : Agree es objs) (hn : Agree fs ns) : Agree (es ++ fs) (objs ++ ns) := by
  unfold Agree
  rw [List.filter_append, List.filter_append]
  exact List.rel_append h hn

/-- An event that is noted for no object. -/
theorem event (he : e.isShown = false) (h : Agree es objs) : Agree (e :: es) objs := by
  unfold Agree
  rw [List.filter_cons_of_neg (by simp [he])]
  exact h

/-- An object that is no node. -/
theorem object (hm : Json.isNode ms = false) (h : Agree es objs) : Agree es (ms :: objs) := by
  unfold Agree
  rw [List.filter_cons_of_neg (by simp [hm])]
  exact h

theorem node (hshow : e.Shows ms) (h : Agree es objs) : Agree (e :: es) (ms :: objs) := by
  unfold Agree
  rw [List.filter_cons_of_pos hshow.isShown, List.filter_cons_of_pos hshow.isNode]
  exact .cons hshow h

/-- Closing events are noted for no object. -/
theorem closed (kind : NodeKind) (h : Agree es objs) : Agree (es ++ [.close kind]) objs := by
  have happend := h.append (nil.event (e := .close kind) rfl)
  rwa [List.append_nil] at happend

theorem around {kind : NodeKind} (hshow : e.Shows ms) (h : Agree es objs) :
    Agree (e.around kind es) (ms :: objs) :=
  (h.closed kind).node hshow

/-- Something enclosed that is no node, with what is inside it. -/
theorem hidden {kind : NodeKind} (he : e.isShown = false) (hm : Json.isNode ms = false)
    (h : Agree es objs) : Agree (e.around kind es) (ms :: objs) :=
  ((h.closed kind).event he).object hm

end Agree

/-! ### One lemma for each kind of node -/

namespace Json

theorem objects_tagged (kind : String) (ms : Entries Json) :
    (Json.tagged kind ms).objects = (("type", .string kind) :: ms) :: memberObjects ms := rfl

theorem isNode_tagged (kind : String) (ms : Entries Json) :
    isNode (("type", .string kind) :: ms) = decide (kind ∈ nodeKinds) := rfl

theorem isNode_untyped {ms : Entries Json} (h : "type" ∉ Entries.keys ms) : isNode ms = false := by
  rw [isNode, Entries.get?_eq_none_iff.2 h]

theorem objects_ofBinary64 (x : Binary64) : (Json.ofBinary64 x).objects = [] := by
  unfold ofBinary64
  split
  · rfl
  · rfl

end Json

open Json (memberObjects itemObjects)

/-- A node with nothing inside. -/
theorem Agree.leaf {e : Event} {kind : String} {ms : Entries Json}
    (hshow : e.Shows (("type", .string kind) :: ms)) (hms : memberObjects ms = []) :
    Agree [e] (Json.tagged kind ms).objects := by
  rw [Json.objects_tagged, hms]
  exact Agree.nil.node hshow

theorem Path.agree (p : Path) : Agree [.ofPath p] p.toJson.objects := by
  refine .leaf ?_ ?_
  · simp [Event.ofPath, Event.Shows, Event.kinds, Event.SameData, Entries.get?]
  · simp [memberObjects, Json.objects, Json.objects_strings]

theorem TextNode.agree (t : TextNode) : Agree [.ofText t] t.toJson.objects := by
  refine .leaf ?_ rfl
  simp [Event.ofText, Event.Shows, Event.kinds, Event.SameData, Entries.get?]

/-- The kind of a comment is not in its event. -/
theorem Comment.agree (c : Comment) {kind : String}
    (hkind : kind ∈ ["MustacheCommentStatement", "CommentStatement"]) :
    Agree [.ofComment c] (Json.tagged kind [("value", .string c.value)]).objects :=
  .leaf ⟨⟨kind, hkind, rfl⟩, rfl⟩ rfl

/-- Literals have no event of their own. -/
theorem Literal.agree (l : Literal) : Agree [] l.toJson.objects := by
  cases l with
  | number x =>
    rw [Literal.toJson, Json.objects_tagged]
    refine .object (by simp [Json.isNode_tagged, Json.nodeKinds]) ?_
    simp only [memberObjects, Json.objects_ofBinary64, List.append_nil]
    exact .nil
  | _ => exact .object (by simp [Json.isNode_tagged, Json.nodeKinds]) .nil

theorem Expr.pathText?_toJson (e : Expr) : e.toJson.pathText? = e.name? := by
  cases e with
  | path p => rfl
  | sub call span => rfl
  | literal l span => cases l <;> rfl

/-- The callee stands under `path` in every node that has one. -/
theorem Call.hasCallee (c : Call) (kind : String) (ms : Entries Json) :
    Json.HasCallee (("type", .string kind) :: (c.members ++ ms)) c.name? := by
  obtain ⟨callee, params, hash⟩ := c
  exact ⟨callee.toJson, by simp [Entries.get?, Call.members], callee.pathText?_toJson⟩

theorem Call.keys_members (c : Call) : Entries.keys c.members = ["path", "params", "hash"] := by
  cases c
  rfl

/-- Other members are found behind the call. -/
theorem Call.get?_tagged (c : Call) {key kind : String} {ms : Entries Json}
    (h : key ∉ ["type", "path", "params", "hash"]) :
    Entries.get? key (("type", .string kind) :: (c.members ++ ms)) = Entries.get? key ms := by
  have hkeys : key ∉ Entries.keys (("type", .string kind) :: c.members) := by
    rwa [Entries.keys_cons, c.keys_members]
  exact Entries.get?_append_of_not_mem hkeys ms

theorem Call.memberObjects_members (callee : Expr) (params : List Expr) (hash : List Named) :
    memberObjects (Call.members ⟨callee, params, hash⟩) =
      callee.toJson.objects ++ (itemObjects (Expr.listToJson params) ++
        [("pairs", .array (Named.listToJson hash))] :: itemObjects (Named.listToJson hash)) := by
  simp [Call.members, memberObjects, Json.objects]

mutual

theorem Expr.agree : ∀ e : Expr, Agree e.events e.toJson.objects
  | .path p => p.agree.event rfl
  | .sub call span => by
    have hshow : (Event.sub call.name? span).Shows (("type", .string "SubExpression") :: call.members) := by
      have hcallee := call.hasCallee "SubExpression" []
      rw [List.append_nil] at hcallee
      exact ⟨⟨_, List.mem_singleton_self _, rfl⟩, hcallee⟩
    exact ((Call.agree call).around hshow).event rfl
  | .literal l _ => l.agree.event rfl

theorem Call.agree : ∀ c : Call, Agree c.events (memberObjects c.members)
  | ⟨callee, params, hash⟩ => by
    rw [Call.memberObjects_members]
    -- the hash has an event in front of its values and an object around them, neither of them listed
    refine (Expr.agree callee).append ((Expr.listAgree params).append (.event rfl (.object ?_ ?_)))
    · exact Json.isNode_untyped (by simp)
    · exact Named.listAgree hash

theorem Expr.listAgree : ∀ es : List Expr, Agree (Expr.listEvents es) (itemObjects (Expr.listToJson es))
  | [] => .nil
  | e :: es => (Expr.agree e).append (Expr.listAgree es)

theorem Named.listAgree : ∀ ns : List Named,
    Agree (Named.listEvents ns) (itemObjects (Named.listToJson ns))
  | [] => .nil
  | ⟨key, value⟩ :: ns => by
    have hobjects : itemObjects (Named.listToJson (⟨key, value⟩ :: ns)) =
        [("key", .string key), ("value", value.toJson)] ::
          (value.toJson.objects ++ itemObjects (Named.listToJson ns)) := by
      simp [Named.listToJson, itemObjects, memberObjects, Json.objects]
    rw [hobjects]
    exact .object (Json.isNode_untyped (by simp)) ((Expr.agree value).append (Named.listAgree ns))

end

theorem Mustache.agree (m : Mustache) : Agree m.events m.toJson.objects := by
  have hobjects : m.toJson.objects =
      (("type", .string "MustacheStatement") :: (m.call.members ++ [("trusting", .bool m.trusting)])) ::
        memberObjects m.call.members := by
    rw [Mustache.toJson, Json.objects_tagged, Json.memberObjects_append]
    exact congrArg _ (List.append_nil _)
  rw [hobjects]
  exact m.call.agree.around ⟨⟨_, List.mem_singleton_self _, rfl⟩, m.call.hasCallee _ _,
    m.call.get?_tagged (by simp)⟩

/-- The value of a modifier is not tagged. -/
theorem Modifier.agree (m : Modifier) : Agree m.events m.toJson.objects := by
  refine m.call.agree.hidden rfl (Json.isNode_untyped ?_)
  rw [Call.keys_members]
  simp

theorem ConcatPart.agree : ∀ p : ConcatPart, Agree p.events p.toJson.objects
  | .text t => t.agree
  | .mustache m => m.agree

theorem Agree.flatMap {α : Type} {events : α → List Event} {toJson : α → Json}
    (h : ∀ a, Agree (events a) (toJson a).objects) (as : List α) :
    Agree (as.flatMap events) (itemObjects (as.map toJson)) := by
  induction as with
  | nil => exact .nil
  | cons a as ih => exact (h a).append ih

theorem AttributeValue.agree : ∀ v : AttributeValue, Agree v.events v.toJson.objects
  | .text t => t.agree
  | .mustache m => m.agree
  | .concat parts _ => by
    have hobjects : memberObjects [("parts", .array (parts.map ConcatPart.toJson))] =
        itemObjects (parts.map ConcatPart.toJson) := List.append_nil _
    rw [AttributeValue.toJson, Json.objects_tagged, hobjects]
    exact .object (by simp [Json.isNode_tagged, Json.nodeKinds]) (.flatMap ConcatPart.agree parts)

theorem Attribute.agree (a : Attribute) : Agree a.events a.toJson.objects := by
  have hobjects : a.toJson.objects =
      [("name", .string a.name), ("value", a.value.toJson)] :: a.value.toJson.objects := by
    simp [Attribute.toJson, Json.objects, memberObjects]
  rw [hobjects]
  exact a.value.agree.hidden rfl (Json.isNode_untyped (by simp))

theorem BlockStatement.objects_toJson (call : Call) (program : Block) (inverse : Option Block) (span : Span) :
    (BlockStatement.toJson ⟨call, program, inverse, span⟩).objects =
      (("type", .string "BlockStatement") :: (call.members ++
        [("program", program.toJson), ("inverse", Block.optionToJson inverse)])) ::
        (memberObjects call.members ++ (program.toJson.objects ++ (Block.optionToJson inverse).objects)) := by
  rw [BlockStatement.toJson, Json.objects_tagged, Json.memberObjects_append]
  simp [memberObjects]

theorem BlockStatement.shows (call : Call) (program : Block) (inverse : Option Block) (span : Span) :
    (Event.blockStatement call.name? inverse.isSome span).Shows (("type", .string "BlockStatement") ::
      (call.members ++ [("program", program.toJson), ("inverse", Block.optionToJson inverse)])) := by
  have hinverse : Entries.get? "inverse" (("type", .string "BlockStatement") :: (call.members ++
      [("program", program.toJson), ("inverse", Block.optionToJson inverse)])) =
      some (Block.optionToJson inverse) := call.get?_tagged (by simp)
  have hnull : inverse.isSome = !(Block.optionToJson inverse).isNull := by
    rcases inverse with _ | ⟨_, _, _⟩
    · rfl
    · rfl
  exact ⟨⟨_, List.mem_singleton_self _, rfl⟩, call.hasCallee _ _, _, hinverse, hnull⟩

theorem Element.objects_toJson (e : Element) : e.toJson.objects =
    [("type", .string "ElementNode"), ("tag", .string e.tag),
      ("attributes", .array (e.attributes.map Attribute.toJson)),
      ("modifiers", .array (e.modifiers.map Modifier.toJson)), ("body", e.body.toJson),
      ("selfClosing", .bool e.selfClosing)] ::
      (itemObjects (e.attributes.map Attribute.toJson) ++ (itemObjects (e.modifiers.map Modifier.toJson) ++
        e.body.toJson.objects)) := by
  rw [Element.toJson_eq, Json.objects_tagged]
  simp [memberObjects, Json.objects]

theorem Block.objects_toJson (statements : List Statement) (params : List String) (span : Span) :
    (Block.toJson ⟨statements, params, span⟩).objects =
      [("statements", .array (Statement.listToJson statements)), ("blockParams", .strings params)] ::
        itemObjects (Statement.listToJson statements) := by
  simp [Block.toJson, Json.objects, memberObjects, Json.objects_strings]

mutual

theorem Statement.agree : ∀ s : Statement, Agree s.events s.toJson.objects
  | .mustache m => m.agree.event rfl
  | .block b => (BlockStatement.agree b).event rfl
  | .element e => (Element.agree e).event rfl
  | .text t => t.agree.event rfl
  | .mustacheComment c => (c.agree (by simp)).event rfl
  | .comment c => (c.agree (by simp)).event rfl

theorem BlockStatement.agree : ∀ b : BlockStatement, Agree b.events b.toJson.objects
  | ⟨call, program, inverse, span⟩ => by
    rw [BlockStatement.objects_toJson]
    exact (call.agree.append ((Block.agree program).append (Block.optionAgree inverse))).around
      (BlockStatement.shows call program inverse span)

theorem Element.agree : ∀ e : Element, Agree e.events e.toJson.objects
  | ⟨tag, attributes, modifiers, body, selfClosing, span⟩ => by
    rw [Element.objects_toJson]
    refine ((Agree.flatMap Attribute.agree attributes).append
      ((Agree.flatMap Modifier.agree modifiers).append (Block.agree body))).around ?_
    exact ⟨⟨_, List.mem_singleton_self _, rfl⟩, by simp [Entries.get?], by simp [Entries.get?]⟩

theorem Block.agree : ∀ b : Block, Agree b.events b.toJson.objects
  | ⟨statements, params, span⟩ => by
    rw [Block.objects_toJson]
    exact (Statement.listAgree statements).hidden rfl (Json.isNode_untyped (by simp))

theorem Block.optionAgree : ∀ b : Option Block,
    Agree (Block.optionEvents b) (Block.optionToJson b).objects
  | none => .nil
  | some b => Block.agree b

theorem Statement.listAgree : ∀ ss : List Statement,
    Agree (Statement.listEvents ss) (itemObjects (Statement.listToJson ss))
  | [] => .nil
  | s :: ss => (Statement.agree s).append (Statement.listAgree ss)

end

theorem Template.agree (t : Template) : Agree t.events t.toJson.objects := by
  have hobjects : t.toJson.objects = [("body", t.body.toJson)] :: t.body.toJson.objects := by
    simp [Template.toJson, Json.objects, memberObjects]
  rw [hobjects]
  exact t.body.agree.hidden rfl (Json.isNode_untyped (by simp))

/-- **A walk meets the nodes in the order in which they open in the wire text**: what a walk over the whole
template notes for mustaches, block statements, elements, texts, comments, sub-expressions and paths are,
one for one, the objects of these kinds in the text, with the same data; and what it notes is properly
nested. -/
theorem Template.trace_agrees_with_wire (t : Template) :
    ∃ events, (Visitor.full none).trace t = (none, events) ∧
      List.Forall₂ Json.Begins (Json.Scan.openings .outside t.wire.toList) t.toJson.objects ∧
      List.Forall₂ Event.Shows (events.filter Event.isShown) (t.toJson.objects.filter Json.isNode) ∧
      Nested events := by
  have hfinite : t.toJson.IsFinite := ⟨t.body.isFinite_toJson, trivial⟩
  exact ⟨t.events, Visitor.trace_full t, Json.begins_openings_text hfinite, t.agree, t.nested⟩

end TemplateLinker
