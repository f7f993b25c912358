import TemplateLinker.Linking

/-!
# Proofs.Linking.References — the free names of a template

`Template.refs` lists, in document order, the uses of names that no block around them binds.  The scopes
around a node are handed down: the root block and the two blocks of a block statement add their
parameters, the body of an element adds nothing.  Callees of mustaches and sub-expressions and the tags
of elements are uses of names; callees of block statements and modifiers are not.
-/

namespace TemplateLinker

/-- A use of a free name: what it is used as, where a failure to resolve it is reported, and the scopes
around it, innermost first. -/
structure Reference where
  kind : ReferenceKind
  name : String
  span : Span
  scopes : List Scope
  deriving DecidableEq, Repr

/-- The use of a name inside `B`: a reference unless a scope of `B` has the name. -/
def refer (B : List Scope) (kind : ReferenceKind) (name : String) (span : Span) : List Reference :=
  if ∃ s ∈ B, name ∈ s.names then [] else [⟨kind, name, span, B⟩]

theorem refer_of_bound {B : List Scope} {kind : ReferenceKind} {name : String} {span : Span}
    (h : ∃ s ∈ B, name ∈ s.names) : refer B kind name span = [] := if_pos h

theorem refer_of_free {B : List Scope} {kind : ReferenceKind} {name : String} {span : Span}
    (h : ¬∃ s ∈ B, name ∈ s.names) : refer B kind name span = [⟨kind, name, span, B⟩] := if_neg h

/-- The scopes inside a block with these parameters. -/
def addScope (params : List String) (B : List Scope) : List Scope :=
  if params = [] then B else ⟨params⟩ :: B

theorem addScope_of_ne_nil {params : List String} {B : List Scope} (h : params ≠ []) :
    addScope params B = ⟨params⟩ :: B := if_neg h

/-- The use of a name that a callee is: only paths are one. -/
def Call.calleeRefs (B : List Scope) (kind : ReferenceKind) (c : Call) : List Reference :=
  match c.callee with
  | .path p => refer B kind p.text p.span
  | _ => []

mutual

def Expr.refs (B : List Scope) : Expr → List Reference
  | .path _ => []
  | .sub call _ => call.calleeRefs B .subExpression ++ Call.refs B call
  | .literal _ _ => []

/-- The references inside a call, the use of its callee as a name apart. -/
def Call.refs (B : List Scope) : Call → List Reference
  | ⟨callee, params, hash⟩ => Expr.refs B callee ++ (Expr.listRefs B params ++ Named.listRefs B hash)

def Expr.listRefs (B : List Scope) : List Expr → List Reference
  | [] => []
  | e :: es => Expr.refs B e ++ Expr.listRefs B es

def Named.listRefs (B : List Scope) : List Named → List Reference
  | [] => []
  | ⟨_, value⟩ :: ns => Expr.refs B value ++ Named.listRefs B ns

end

def Mustache.refs (B : List Scope) (m : Mustache) : List Reference :=
  m.call.calleeRefs B .mustache ++ m.call.refs B

def ConcatPart.refs (B : List Scope) : ConcatPart → List Reference
  | .text _ => []
  | .mustache m => m.refs B

def AttributeValue.refs (B : List Scope) : AttributeValue → List Reference
  | .text _ => []
  | .mustache m => m.refs B
  | .concat parts _ => parts.flatMap (ConcatPart.refs B)

def Attribute.refs (B : List Scope) (a : Attribute) : List Reference := a.value.refs B

def Modifier.refs (B : List Scope) (m : Modifier) : List Reference := m.call.refs B

mutual

def Statement.refs (B : List Scope) : Statement → List Reference
  | .mustache m => m.refs B
  | .block b => BlockStatement.refs B b
  | .element e => Element.refs B e
  | .text _ => []
  | .mustacheComment _ => []
  | .comment _ => []

def BlockStatement.refs (B : List Scope) : BlockStatement → List Reference
  | ⟨call, program, inverse, _⟩ => call.refs B ++ (Block.refs B program ++ Block.optionRefs B inverse)

/-- The body stands in the scopes of its element: the parameters of an element bind nothing. -/
def Element.refs (B : List Scope) : Element → List Reference
  | ⟨tag, attributes, modifiers, ⟨statements, _, _⟩, _, span⟩ =>
    refer B .element tag span ++ (attributes.flatMap (Attribute.refs B) ++
      (modifiers.flatMap (Modifier.refs B) ++ Statement.listRefs B statements))

def Block.refs (B : List Scope) : Block → List Reference
  | ⟨statements, params, _⟩ => Statement.listRefs (addScope params B) statements

def Block.optionRefs (B : List Scope) : Option Block → List Reference
  | none => []
  | some b => Block.refs B b

def Statement.listRefs (B : List Scope) : List Statement → List Reference
  | [] => []
  | s :: ss => Statement.refs B s ++ Statement.listRefs B ss

end

/-- The references of a template, which nothing encloses. -/
def Template.refs (t : Template) : List Reference := t.body.refs []

end TemplateLinker
