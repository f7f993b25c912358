import TemplateLinker.Template.Basic

/-!
# Template.Visitor — walking a template in document order

A visitor has one hook per kind of node.  A hook gets the node and the walk over what is inside it, and
decides whether and when to run that walk; the usual hook just runs it.  A call is walked callee first,
then positional arguments, then the named ones as a whole; a block statement walks its call, its program
and its inverse; an element its attributes, its modifiers and its body.
-/

namespace TemplateLinker

/-- The walks over the parts of an element.  Its body can be visited as a block, or its statements
alone. -/
structure ElementWalk (m : Type → Type) where
  attributes : m Unit
  modifiers : m Unit
  body : m Unit
  statements : m Unit

/-- All parts of an element, in order. -/
def ElementWalk.all {m : Type → Type} [Monad m] (w : ElementWalk m) : m Unit := do
  w.attributes
  w.modifiers
  w.body

structure Visitor (m : Type → Type) [Monad m] where
  template : Template → m Unit → m Unit := fun _ walk => walk
  block : Block → m Unit → m Unit := fun _ walk => walk
  statement : Statement → m Unit → m Unit := fun _ walk => walk
  mustache : Mustache → m Unit → m Unit := fun _ walk => walk
  blockStatement : BlockStatement → m Unit → m Unit := fun _ walk => walk
  element : Element → ElementWalk m → m Unit := fun _ walk => walk.all
  attr : Attribute → m Unit → m Unit := fun _ walk => walk
  modifier : Modifier → m Unit → m Unit := fun _ walk => walk
  text : TextNode → m Unit := fun _ => pure ()
  comment : Comment → m Unit := fun _ => pure ()
  expression : Expr → m Unit → m Unit := fun _ walk => walk
  subExpression : Call → Span → m Unit → m Unit := fun _ _ walk => walk
  path : Path → m Unit := fun _ => pure ()
  hash : List Named → m Unit → m Unit := fun _ walk => walk

namespace Visitor

variable {m : Type → Type} [Monad m] (v : Visitor m)

mutual

def visitExpr : Expr → m Unit
  | .path p => v.expression (.path p) (v.path p)
  | .sub call span => v.expression (.sub call span) (v.subExpression call span (walkCall call))
  | .literal value span => v.expression (.literal value span) (pure ())

def walkCall : Call → m Unit
  | ⟨callee, params, hash⟩ => do
    visitExpr callee
    visitExprs params
    v.hash hash (visitValues hash)

def visitExprs : List Expr → m Unit
  | [] => pure ()
  | e :: es => do
    visitExpr e
    visitExprs es

def visitValues : List Named → m Unit
  | [] => pure ()
  | ⟨_, value⟩ :: ns => do
    visitExpr value
    visitValues ns

end

def visitMustache (n : Mustache) : m Unit := v.mustache n (v.walkCall n.call)

def visitModifier (n : Modifier) : m Unit := v.modifier n (v.walkCall n.call)

def visitPart : ConcatPart → m Unit
  | .text n => v.text n
  | .mustache n => v.visitMustache n

def visitParts : List ConcatPart → m Unit
  | [] => pure ()
  | p :: ps => do
    v.visitPart p
    visitParts ps

def walkAttributeValue : AttributeValue → m Unit
  | .text n => v.text n
  | .mustache n => v.visitMustache n
  | .concat parts _ => v.visitParts parts

def visitAttribute (n : Attribute) : m Unit := v.attr n (v.walkAttributeValue n.value)

def visitAttributes : List Attribute → m Unit
  | [] => pure ()
  | a :: as => do
    v.visitAttribute a
    visitAttributes as

def visitModifiers : List Modifier → m Unit
  | [] => pure ()
  | n :: ns => do
    v.visitModifier n
    visitModifiers ns

mutual

def visitStatement : Statement → m Unit
  | .mustache n => v.statement (.mustache n) (v.visitMustache n)
  | .block n => v.statement (.block n) (visitBlockStatement n)
  | .element n => v.statement (.element n) (visitElement n)
  | .text n => v.statement (.text n) (v.text n)
  | .mustacheComment n => v.statement (.mustacheComment n) (v.comment n)
  | .comment n => v.statement (.comment n) (v.comment n)

def visitBlockStatement : BlockStatement → m Unit
  | ⟨call, program, inverse, span⟩ =>
    v.blockStatement ⟨call, program, inverse, span⟩ do
      v.walkCall call
      visitBlock program
      visitInverse inverse

def visitElement : Element → m Unit
  | ⟨tag, attributes, modifiers, body, selfClosing, span⟩ =>
    v.element ⟨tag, attributes, modifiers, body, selfClosing, span⟩
      { attributes := v.visitAttributes attributes
        modifiers := v.visitModifiers modifiers
        body := visitBlock body
        statements := walkBlock body }

def visitBlock : Block → m Unit
  | ⟨statements, params, span⟩ => v.block ⟨statements, params, span⟩ (visitStatements statements)

/-- The statements of a block, without the block itself. -/
def walkBlock : Block → m Unit
  | ⟨statements, _, _⟩ => visitStatements statements

def visitInverse : Option Block → m Unit
  | none => pure ()
  | some b => visitBlock b

def visitStatements : List Statement → m Unit
  | [] => pure ()
  | s :: ss => do
    visitStatement s
    visitStatements ss

end

def visitTemplate (t : Template) : m Unit := v.template t (v.visitBlock t.body)

end Visitor

end TemplateLinker
