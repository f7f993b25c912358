import TemplateLinker.Compiler.Host
import TemplateLinker.Proofs.Json.UniqueReading

/-!
# Proofs.Template.Wire — what the wire text of a template keeps

`Template.erase` forgets what the text leaves out: the spans, and which number that is not finite a
literal holds.  For each kind of node, two nodes have one JSON value if and only if they are equal once
erased (`toJson_eq_iff`); the values hold finite numbers only, so their texts tell them apart, and the
text of a template says everything but what is erased (`wire_eq_iff`).
-/

namespace TemplateLinker

/-! ### Erasing -/

def Path.erase (p : Path) : Path := { p with span := .zero }

/-- The text is `null` for every number that is not finite, for which `nan` stands. -/
def Literal.erase : Literal → Literal
  | .number x => .number (if x.isFinite then x else .nan)
  | l => l

mutual

def Expr.erase : Expr → Expr
  | .path p => .path p.erase
  | .sub call _ => .sub (Call.erase call) .zero
  | .literal value _ => .literal value.erase .zero

def Call.erase : Call → Call
  | ⟨callee, params, hash⟩ => ⟨Expr.erase callee, Expr.listErase params, Named.listErase hash⟩

def Expr.listErase : List Expr → List Expr
  | [] => []
  | e :: es => Expr.erase e :: Expr.listErase es

def Named.listErase : List Named → List Named
  | [] => []
  | ⟨key, value⟩ :: ns => ⟨key, Expr.erase value⟩ :: Named.listErase ns

end

def Mustache.erase (m : Mustache) : Mustache := ⟨m.call.erase, m.trusting, .zero⟩

def TextNode.erase (t : TextNode) : TextNode := ⟨t.chars, .zero⟩

def Comment.erase (c : Comment) : Comment := ⟨c.value, .zero⟩

def Modifier.erase (m : Modifier) : Modifier := ⟨m.call.erase, .zero⟩

def ConcatPart.erase : ConcatPart → ConcatPart
  | .text t => .text t.erase
  | .mustache m => .mustache m.erase

def AttributeValue.erase : AttributeValue → AttributeValue
  | .text t => .text t.erase
  | .mustache m => .mustache m.erase
  | .concat parts _ => .concat (parts.map ConcatPart.erase) .zero

def Attribute.erase (a : Attribute) : Attribute := ⟨a.name, a.value.erase, .zero⟩

mutual

def Statement.erase : Statement → Statement
  | .mustache m => .mustache m.erase
  | .block b => .block (BlockStatement.erase b)
  | .element e => .element (Element.erase e)
  | .text t => .text t.erase
  | .mustacheComment c => .mustacheComment c.erase
  | .comment c => .comment c.erase

def BlockStatement.erase : BlockStatement → BlockStatement
  | ⟨call, program, inverse, _⟩ => ⟨call.erase, Block.erase program, Block.optionErase inverse, .zero⟩

def Element.erase : Element → Element
  | ⟨tag, attributes, modifiers, body, selfClosing, _⟩ =>
    ⟨tag, attributes.map Attribute.erase, modifiers.map Modifier.erase, Block.erase body, selfClosing,
      .zero⟩

def Block.erase : Block → Block
  | ⟨statements, params, _⟩ => ⟨Statement.listErase statements, params, .zero⟩

def Block.optionErase : Option Block → Option Block
  | none => none
  | some b => some (Block.erase b)

def Statement.listErase : List Statement → List Statement
  | [] => []
  | s :: ss => Statement.erase s :: Statement.listErase ss

end

/-- The template without its spans, and with one number for those that are not finite. -/
def Template.erase (t : Template) : Template := ⟨t.body.erase⟩

/-! ### Values of lists and tagged objects -/

theorem Json.tagged_inj {k l : String} {ms ns : List (String × Json)} :
    Json.tagged k ms = Json.tagged l ns ↔ k = l ∧ ms = ns := by
  simp [Json.tagged]

theorem Json.strings_inj {ss ts : List String} : Json.strings ss = Json.strings ts ↔ ss = ts := by
  have hinj : ∀ s t, Json.string s = Json.string t → s = t := by
    rintro s t ⟨⟩
    rfl
  simp [Json.strings, List.map_inj_right hinj]

/-- Lists agree under `f` when their members do, if members agree under `f` and under `g` alike. -/
theorem map_eq_iff_of_iff {α β γ : Type} (f : α → β) (g : α → γ)
    (h : ∀ a b, f a = f b ↔ g a = g b) :
    ∀ xs ys : List α, xs.map f = ys.map f ↔ xs.map g = ys.map g
  | [], [] => by simp
  | [], _ :: _ => by simp
  | _ :: _, [] => by simp
  | x :: xs, y :: ys => by
    simp only [List.map_cons, List.cons.injEq]
    rw [h, map_eq_iff_of_iff f g h xs ys]

/-- Nodes of different kinds are told apart by their values and once erased. -/
theorem eq_iff_of_kind_ne {α : Type} {toJson : α → Json} {erase : α → α} {kind : α → String}
    (htag : ∀ a, ∃ ms, toJson a = .tagged (kind a) ms) (herase : ∀ a, kind (erase a) = kind a)
    {a b : α} (h : kind a ≠ kind b) : toJson a = toJson b ↔ erase a = erase b := by
  obtain ⟨ms, ha⟩ := htag a
  obtain ⟨ns, hb⟩ := htag b
  constructor
  · intro heq
    rw [ha, hb] at heq
    exact absurd (Json.tagged_inj.mp heq).1 h
  · intro heq
    have hkind := congrArg kind heq
    rw [herase a, herase b] at hkind
    exact absurd hkind h

/-! ### Expressions -/

theorem Path.toJson_eq_iff {p q : Path} : p.toJson = q.toJson ↔ p.erase = q.erase := by
  obtain ⟨_, _, _, _, _⟩ := p
  obtain ⟨_, _, _, _, _⟩ := q
  simp [toJson, erase, Json.tagged_inj, Json.strings_inj]

theorem Json.ofBinary64_eq_iff {x y : Binary64} : Json.ofBinary64 x = Json.ofBinary64 y ↔
    (if x.isFinite then x else .nan) = (if y.isFinite then y else .nan) := by
  have hnan : Binary64.nan.isFinite = false := rfl
  unfold Json.ofBinary64
  by_cases hx : x.isFinite <;> by_cases hy : y.isFinite <;> simp [hx, hy]
  · rintro rfl
    simp [hnan] at hx
  · rintro rfl
    simp [hnan] at hy

theorem Literal.toJson_eq_iff {l m : Literal} : l.toJson = m.toJson ↔ l.erase = m.erase := by
  cases l <;> cases m <;>
    simp [toJson, erase, Json.tagged_inj, Json.ofBinary64_eq_iff]

/-- The kind that the value of an expression is tagged with. -/
def Expr.kind : Expr → String
  | .path _ => "PathExpression"
  | .sub .. => "SubExpression"
  | .literal (.string _) _ => "StringLiteral"
  | .literal (.number _) _ => "NumberLiteral"
  | .literal (.boolean _) _ => "BooleanLiteral"
  | .literal .null _ => "NullLiteral"
  | .literal .undefined _ => "UndefinedLiteral"

theorem Expr.exists_tagged (e : Expr) : ∃ ms, e.toJson = .tagged e.kind ms := by
  cases e with
  | path p => exact ⟨_, rfl⟩
  | sub c _ => exact ⟨_, rfl⟩
  | literal l _ => cases l <;> exact ⟨_, rfl⟩

theorem Expr.kind_erase (e : Expr) : e.erase.kind = e.kind := by
  cases e with
  | path p => rfl
  | sub c _ => rfl
  | literal l _ => cases l <;> rfl

/-- Expressions of different kinds are told apart. -/
theorem Expr.toJson_eq_iff_of_kind_ne {d e : Expr} (h : d.kind ≠ e.kind) :
    d.toJson = e.toJson ↔ d.erase = e.erase :=
  eq_iff_of_kind_ne exists_tagged kind_erase h

mutual

theorem Expr.toJson_eq_iff : ∀ (d e : Expr), d.toJson = e.toJson ↔ d.erase = e.erase
  | .path p, e => by
    cases e with
    | path q => simp [Expr.toJson, Expr.erase, Path.toJson_eq_iff]
    | sub d _ => exact Expr.toJson_eq_iff_of_kind_ne (by simp [Expr.kind])
    | literal m _ => exact Expr.toJson_eq_iff_of_kind_ne (by cases m <;> simp [Expr.kind])
  | .sub c _, e => by
    cases e with
    | path q => exact Expr.toJson_eq_iff_of_kind_ne (by simp [Expr.kind])
    | sub d _ =>
      have hcall := Call.members_eq_iff c d
      simp [Expr.toJson, Expr.erase, Json.tagged_inj, hcall]
    | literal m _ => exact Expr.toJson_eq_iff_of_kind_ne (by cases m <;> simp [Expr.kind])
  | .literal l _, e => by
    cases e with
    | path q => exact Expr.toJson_eq_iff_of_kind_ne (by cases l <;> simp [Expr.kind])
    | sub d _ => exact Expr.toJson_eq_iff_of_kind_ne (by cases l <;> simp [Expr.kind])
    | literal m _ => simp [Expr.toJson, Expr.erase, Literal.toJson_eq_iff]

theorem Call.members_eq_iff : ∀ (c d : Call), c.members = d.members ↔ c.erase = d.erase
  | ⟨callee, params, hash⟩, ⟨callee', params', hash'⟩ => by
    have hcallee := Expr.toJson_eq_iff callee callee'
    have hparams := Expr.listToJson_eq_iff params params'
    have hhash := Named.listToJson_eq_iff hash hash'
    simp [Call.members, Call.erase, hcallee, hparams, hhash]

theorem Expr.listToJson_eq_iff : ∀ (ds es : List Expr),
    Expr.listToJson ds = Expr.listToJson es ↔ Expr.listErase ds = Expr.listErase es
  | [], [] => by simp
  | [], _ :: _ => by simp [Expr.listToJson, Expr.listErase]
  | _ :: _, [] => by simp [Expr.listToJson, Expr.listErase]
  | d :: ds, e :: es => by
    have hhead := Expr.toJson_eq_iff d e
    have htail := Expr.listToJson_eq_iff ds es
    simp [Expr.listToJson, Expr.listErase, hhead, htail]

theorem Named.listToJson_eq_iff : ∀ (ms ns : List Named),
    Named.listToJson ms = Named.listToJson ns ↔ Named.listErase ms = Named.listErase ns
  | [], [] => by simp
  | [], ⟨_, _⟩ :: _ => by simp [Named.listToJson, Named.listErase]
  | ⟨_, _⟩ :: _, [] => by simp [Named.listToJson, Named.listErase]
  | ⟨_, d⟩ :: ms, ⟨_, e⟩ :: ns => by
    have hhead := Expr.toJson_eq_iff d e
    have htail := Named.listToJson_eq_iff ms ns
    simp [Named.listToJson, Named.listErase, hhead, htail]

end

/-- A call contributes the same number of members to each node. -/
theorem Call.members_append_eq_iff {c d : Call} {ms ns : List (String × Json)} :
    c.members ++ ms = d.members ++ ns ↔ c.erase = d.erase ∧ ms = ns := by
  have hlen : c.members.length = d.members.length := by
    cases c
    cases d
    rfl
  rw [← Call.members_eq_iff c d]
  constructor
  · exact fun h => List.append_inj h hlen
  · rintro ⟨hc, hm⟩
    rw [hc, hm]

/-! ### Attributes and modifiers -/

theorem Mustache.toJson_eq_iff {m n : Mustache} : m.toJson = n.toJson ↔ m.erase = n.erase := by
  rw [toJson, toJson, Json.tagged_inj, Call.members_append_eq_iff]
  simp [erase]

theorem TextNode.toJson_eq_iff {t u : TextNode} : t.toJson = u.toJson ↔ t.erase = u.erase := by
  simp [toJson, erase, Json.tagged_inj]

theorem Modifier.toJson_eq_iff {m n : Modifier} : m.toJson = n.toJson ↔ m.erase = n.erase := by
  simp [toJson, erase, Call.members_eq_iff]

theorem ConcatPart.toJson_eq_iff {p q : ConcatPart} : p.toJson = q.toJson ↔ p.erase = q.erase := by
  cases p with
  | text t =>
    cases q with
    | text u => simp [toJson, erase, TextNode.toJson_eq_iff]
    | mustache n => simp [toJson, erase, TextNode.toJson, Mustache.toJson, Json.tagged_inj]
  | mustache m =>
    cases q with
    | text u => simp [toJson, erase, TextNode.toJson, Mustache.toJson, Json.tagged_inj]
    | mustache n => simp [toJson, erase, Mustache.toJson_eq_iff]

theorem AttributeValue.toJson_eq_iff {v w : AttributeValue} :
    v.toJson = w.toJson ↔ v.erase = w.erase := by
  cases v with
  | text t =>
    cases w with
    | text u => simp [toJson, erase, TextNode.toJson_eq_iff]
    | _ => simp [toJson, erase, TextNode.toJson, Mustache.toJson, Json.tagged_inj]
  | mustache m =>
    cases w with
    | mustache n => simp [toJson, erase, Mustache.toJson_eq_iff]
    | _ => simp [toJson, erase, TextNode.toJson, Mustache.toJson, Json.tagged_inj]
  | concat ps _ =>
    cases w with
    | concat qs _ =>
      have hparts := map_eq_iff_of_iff ConcatPart.toJson ConcatPart.erase
        (fun _ _ => ConcatPart.toJson_eq_iff) ps qs
      simp [toJson, erase, Json.tagged_inj, hparts]
    | _ => simp [toJson, erase, TextNode.toJson, Mustache.toJson, Json.tagged_inj]

theorem Attribute.toJson_eq_iff {a b : Attribute} : a.toJson = b.toJson ↔ a.erase = b.erase := by
  simp [toJson, erase, AttributeValue.toJson_eq_iff]

/-! ### Statements -/

theorem BlockStatement.toJson_eq (b : BlockStatement) : b.toJson = .tagged "BlockStatement"
    (b.call.members ++ [("program", b.program.toJson), ("inverse", Block.optionToJson b.inverse)]) := by
  cases b
  rfl

theorem Element.toJson_eq (e : Element) : e.toJson = .tagged "ElementNode" [("tag", .string e.tag),
    ("attributes", .array (e.attributes.map Attribute.toJson)),
    ("modifiers", .array (e.modifiers.map Modifier.toJson)), ("body", e.body.toJson),
    ("selfClosing", .bool e.selfClosing)] := by
  cases e
  rfl

/-- The kind that the value of a statement is tagged with. -/
def Statement.kind : Statement → String
  | .mustache _ => "MustacheStatement"
  | .block _ => "BlockStatement"
  | .element _ => "ElementNode"
  | .text _ => "TextNode"
  | .mustacheComment _ => "MustacheCommentStatement"
  | .comment _ => "CommentStatement"

theorem Statement.exists_tagged (s : Statement) : ∃ ms, s.toJson = .tagged s.kind ms := by
  cases s with
  | block b => exact ⟨_, b.toJson_eq⟩
  | element e => exact ⟨_, e.toJson_eq⟩
  | _ => exact ⟨_, rfl⟩

theorem Statement.kind_erase (s : Statement) : s.erase.kind = s.kind := by
  cases s <;> rfl

/-- Statements of different kinds are told apart, the two kinds of comments too. -/
theorem Statement.toJson_eq_iff_of_kind_ne {s t : Statement} (h : s.kind ≠ t.kind) :
    s.toJson = t.toJson ↔ s.erase = t.erase :=
  eq_iff_of_kind_ne exists_tagged kind_erase h

mutual

theorem Statement.toJson_eq_iff : ∀ (s t : Statement), s.toJson = t.toJson ↔ s.erase = t.erase
  | .mustache m, t => by
    cases t with
    | mustache n => simp [Statement.toJson, Statement.erase, Mustache.toJson_eq_iff]
    | _ => exact Statement.toJson_eq_iff_of_kind_ne (by simp [Statement.kind])
  | .block b, t => by
    cases t with
    | block c =>
      have hblock := BlockStatement.toJson_eq_iff b c
      simp [Statement.toJson, Statement.erase, hblock]
    | _ => exact Statement.toJson_eq_iff_of_kind_ne (by simp [Statement.kind])
  | .element e, t => by
    cases t with
    | element f =>
      have helement := Element.toJson_eq_iff e f
      simp [Statement.toJson, Statement.erase, helement]
    | _ => exact Statement.toJson_eq_iff_of_kind_ne (by simp [Statement.kind])
  | .text t, u => by
    cases u with
    | text u => simp [Statement.toJson, Statement.erase, TextNode.toJson_eq_iff]
    | _ => exact Statement.toJson_eq_iff_of_kind_ne (by simp [Statement.kind])
  | .mustacheComment c, t => by
    cases t with
    | mustacheComment d => simp [Statement.toJson, Statement.erase, Comment.erase, Json.tagged_inj]
    | _ => exact Statement.toJson_eq_iff_of_kind_ne (by simp [Statement.kind])
  | .comment c, t => by
    cases t with
    | comment d => simp [Statement.toJson, Statement.erase, Comment.erase, Json.tagged_inj]
    | _ => exact Statement.toJson_eq_iff_of_kind_ne (by simp [Statement.kind])

theorem BlockStatement.toJson_eq_iff : ∀ (b c : BlockStatement), b.toJson = c.toJson ↔ b.erase = c.erase
  | ⟨_, program, inverse, _⟩, ⟨_, program', inverse', _⟩ => by
    have hprogram := Block.toJson_eq_iff program program'
    have hinverse := Block.optionToJson_eq_iff inverse inverse'
    simp [BlockStatement.toJson, BlockStatement.erase, Json.tagged_inj, Call.members_append_eq_iff,
      hprogram, hinverse]

theorem Element.toJson_eq_iff : ∀ (e f : Element), e.toJson = f.toJson ↔ e.erase = f.erase
  | ⟨_, attributes, modifiers, body, _, _⟩, ⟨_, attributes', modifiers', body', _, _⟩ => by
    have hattributes := map_eq_iff_of_iff Attribute.toJson Attribute.erase
      (fun _ _ => Attribute.toJson_eq_iff) attributes attributes'
    have hmodifiers := map_eq_iff_of_iff Modifier.toJson Modifier.erase
      (fun _ _ => Modifier.toJson_eq_iff) modifiers modifiers'
    have hbody := Block.toJson_eq_iff body body'
    simp [Element.toJson, Element.erase, Json.tagged_inj, hattributes, hmodifiers, hbody]

theorem Block.toJson_eq_iff : ∀ (b c : Block), b.toJson = c.toJson ↔ b.erase = c.erase
  | ⟨ss, _, _⟩, ⟨ts, _, _⟩ => by
    have hlist := Statement.listToJson_eq_iff ss ts
    simp [Block.toJson, Block.erase, Json.strings_inj, hlist]

theorem Block.optionToJson_eq_iff : ∀ (b c : Option Block),
    Block.optionToJson b = Block.optionToJson c ↔ Block.optionErase b = Block.optionErase c
  | none, none => by simp
  | none, some ⟨_, _, _⟩ => by simp [Block.optionToJson, Block.optionErase, Block.toJson]
  | some ⟨_, _, _⟩, none => by simp [Block.optionToJson, Block.optionErase, Block.toJson]
  | some b, some c => by
    have hblock := Block.toJson_eq_iff b c
    simp [Block.optionToJson, Block.optionErase, hblock]

theorem Statement.listToJson_eq_iff : ∀ (ss ts : List Statement),
    Statement.listToJson ss = Statement.listToJson ts ↔ Statement.listErase ss = Statement.listErase ts
  | [], [] => by simp
  | [], _ :: _ => by simp [Statement.listToJson, Statement.listErase]
  | _ :: _, [] => by simp [Statement.listToJson, Statement.listErase]
  | s :: ss, t :: ts => by
    have hhead := Statement.toJson_eq_iff s t
    have htail := Statement.listToJson_eq_iff ss ts
    simp [Statement.listToJson, Statement.listErase, hhead, htail]

end

/-! ### The numbers of the values are finite -/

theorem Json.isFinite_ofBinary64 (x : Binary64) : (Json.ofBinary64 x).IsFinite := by
  unfold Json.ofBinary64
  split
  · assumption
  · exact trivial

theorem Json.membersFinite_append : ∀ {ms ns : List (String × Json)}, MembersFinite ms →
    MembersFinite ns → MembersFinite (ms ++ ns)
  | [], _, _, h => h
  | (_, _) :: _, _, ⟨hv, hms⟩, h => ⟨hv, membersFinite_append hms h⟩

theorem Json.itemsFinite_map {α : Type} {f : α → Json} (h : ∀ a, (f a).IsFinite) :
    ∀ xs : List α, ItemsFinite (xs.map f)
  | [] => trivial
  | x :: xs => ⟨h x, itemsFinite_map h xs⟩

theorem Json.isFinite_tagged (k : String) {ms : List (String × Json)} (h : MembersFinite ms) :
    (Json.tagged k ms).IsFinite := ⟨trivial, h⟩

theorem Json.isFinite_strings (ss : List String) : (Json.strings ss).IsFinite :=
  itemsFinite_map (f := .string) (fun _ => trivial) ss

theorem Path.isFinite_toJson (p : Path) : p.toJson.IsFinite :=
  ⟨trivial, trivial, trivial, trivial, Json.isFinite_strings _, trivial⟩

theorem Literal.isFinite_toJson : ∀ l : Literal, l.toJson.IsFinite
  | .number x => ⟨trivial, Json.isFinite_ofBinary64 x, trivial⟩
  | .string _ | .boolean _ | .null | .undefined => ⟨trivial, trivial, trivial⟩

mutual

theorem Expr.isFinite_toJson : ∀ e : Expr, e.toJson.IsFinite
  | .path p => p.isFinite_toJson
  | .sub c _ => Json.isFinite_tagged _ (Call.membersFinite c)
  | .literal l _ => l.isFinite_toJson

theorem Call.membersFinite : ∀ c : Call, Json.MembersFinite c.members
  | ⟨callee, params, hash⟩ => ⟨Expr.isFinite_toJson callee, Expr.itemsFinite params,
      ⟨Named.itemsFinite hash, trivial⟩, trivial⟩

theorem Expr.itemsFinite : ∀ es : List Expr, Json.ItemsFinite (Expr.listToJson es)
  | [] => trivial
  | e :: es => ⟨Expr.isFinite_toJson e, Expr.itemsFinite es⟩

theorem Named.itemsFinite : ∀ ns : List Named, Json.ItemsFinite (Named.listToJson ns)
  | [] => trivial
  | ⟨_, value⟩ :: ns => ⟨⟨trivial, Expr.isFinite_toJson value, trivial⟩, Named.itemsFinite ns⟩

end

theorem Mustache.isFinite_toJson (m : Mustache) : m.toJson.IsFinite :=
  Json.isFinite_tagged _ (Json.membersFinite_append m.call.membersFinite ⟨trivial, trivial⟩)

theorem TextNode.isFinite_toJson (t : TextNode) : t.toJson.IsFinite := ⟨trivial, trivial, trivial⟩

theorem ConcatPart.isFinite_toJson : ∀ p : ConcatPart, p.toJson.IsFinite
  | .text t => t.isFinite_toJson
  | .mustache m => m.isFinite_toJson

theorem AttributeValue.isFinite_toJson : ∀ v : AttributeValue, v.toJson.IsFinite
  | .text t => t.isFinite_toJson
  | .mustache m => m.isFinite_toJson
  | .concat parts _ =>
    ⟨trivial, Json.itemsFinite_map ConcatPart.isFinite_toJson parts, trivial⟩

theorem Attribute.isFinite_toJson (a : Attribute) : a.toJson.IsFinite :=
  ⟨trivial, a.value.isFinite_toJson, trivial⟩

mutual

theorem Statement.isFinite_toJson : ∀ s : Statement, s.toJson.IsFinite
  | .mustache m => m.isFinite_toJson
  | .block b => BlockStatement.isFinite_toJson b
  | .element e => Element.isFinite_toJson e
  | .text t => t.isFinite_toJson
  | .mustacheComment _ => ⟨trivial, trivial, trivial⟩
  | .comment _ => ⟨trivial, trivial, trivial⟩

theorem BlockStatement.isFinite_toJson : ∀ b : BlockStatement, b.toJson.IsFinite
  | ⟨call, program, inverse, _⟩ => Json.isFinite_tagged _ (Json.membersFinite_append call.membersFinite
      ⟨Block.isFinite_toJson program, Block.isFinite_optionToJson inverse, trivial⟩)

theorem Element.isFinite_toJson : ∀ e : Element, e.toJson.IsFinite
  | ⟨_, attributes, modifiers, body, _, _⟩ => Json.isFinite_tagged _
      ⟨trivial, Json.itemsFinite_map Attribute.isFinite_toJson attributes,
        Json.itemsFinite_map (fun m => m.call.membersFinite) modifiers, Block.isFinite_toJson body,
        trivial, trivial⟩

theorem Block.isFinite_toJson : ∀ b : Block, b.toJson.IsFinite
  | ⟨statements, _, _⟩ => ⟨Statement.itemsFinite statements, Json.isFinite_strings _, trivial⟩

theorem Block.isFinite_optionToJson : ∀ b : Option Block, (Block.optionToJson b).IsFinite
  | none => trivial
  | some b => Block.isFinite_toJson b

theorem Statement.itemsFinite : ∀ ss : List Statement, Json.ItemsFinite (Statement.listToJson ss)
  | [] => trivial
  | s :: ss => ⟨Statement.isFinite_toJson s, Statement.itemsFinite ss⟩

end

/-! ### The text of a template -/

theorem Template.erase_eq_iff {t u : Template} :
    t.erase = u.erase ↔ t.body.erase = u.body.erase := by
  simp [erase]

/-- **The code of a template keeps its module and everything of its tree but what is erased.** -/
theorem WireHost.code_eq_iff {m n : ModuleName} {t u : Template} :
    WireHost.code m t = WireHost.code n u ↔ m = n ∧ t.erase = u.erase := by
  have hfinite : ∀ (m : ModuleName) (t : Template),
      (Json.object [("moduleName", .string m), ("block", t.body.toJson)]).IsFinite := fun _ t =>
    ⟨trivial, t.body.isFinite_toJson, trivial⟩
  rw [Template.erase_eq_iff, ← Block.toJson_eq_iff]
  constructor
  · intro h
    have hvalue := Json.text_injective (hfinite m t) (hfinite n u) h
    simpa using hvalue
  · rintro ⟨rfl, hbody⟩
    rw [WireHost.code, WireHost.code, hbody]

/-- **The wire text loses nothing but what is erased**: two templates have one text if and only if they
are one tree without its spans and the values of its literals that are no finite numbers; and so they
have one code if and only if their modules are the same as well. -/
theorem Template.wire_eq_iff (t u : Template) :
    (t.wire = u.wire ↔ t.erase = u.erase) ∧
      ∀ m n, WireHost.code m t = WireHost.code n u ↔ m = n ∧ t.erase = u.erase := by
  refine ⟨?_, fun _ _ => WireHost.code_eq_iff⟩
  have hfinite : ∀ t : Template, t.toJson.IsFinite := fun t => ⟨t.body.isFinite_toJson, trivial⟩
  rw [Template.erase_eq_iff, ← Block.toJson_eq_iff]
  constructor
  · intro h
    have hvalue := Json.text_injective (hfinite t) (hfinite u) h
    simpa [Template.toJson] using hvalue
  · intro hbody
    rw [Template.wire, Template.wire, Template.toJson, Template.toJson, hbody]

end TemplateLinker
