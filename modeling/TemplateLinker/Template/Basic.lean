import TemplateLinker.Text.Span
import TemplateLinker.Decimal.Binary64

/-!
# Template.Basic — template trees

A template is a block of statements.  Every node but a call and its named arguments carries the stretch
of the source that it was read from.  A *call* is what mustaches, sub-expressions, block statements and
modifiers have in common: a callee with positional and named arguments.
-/

namespace TemplateLinker

/-- A dotted path: its text, its head if that is `this` or `@`, and the segments behind the head. -/
structure Path where
  text : String
  isThis : Bool
  isData : Bool
  parts : List String
  span : Span

inductive Literal where
  | string (s : String)
  | number (x : Binary64)
  | boolean (b : Bool)
  | null
  | undefined

mutual

inductive Expr where
  | path (p : Path)
  | sub (call : Call) (span : Span)
  | literal (value : Literal) (span : Span)

structure Call where
  callee : Expr
  params : List Expr
  hash : List Named

/-- A named argument. -/
structure Named where
  key : String
  value : Expr

end

instance : Inhabited Expr := ⟨.literal .null .zero⟩

structure Mustache where
  call : Call
  /-- Whether the result is put out unescaped. -/
  trusting : Bool
  span : Span

structure TextNode where
  chars : String
  span : Span

structure Comment where
  value : String
  span : Span

structure Modifier where
  call : Call
  span : Span

/-- A part of an interpolated attribute value. -/
inductive ConcatPart where
  | text (node : TextNode)
  | mustache (node : Mustache)

inductive AttributeValue where
  | text (node : TextNode)
  | mustache (node : Mustache)
  | concat (parts : List ConcatPart) (span : Span)

structure Attribute where
  name : String
  value : AttributeValue
  span : Span

mutual

inductive Statement where
  | mustache (node : Mustache)
  | block (node : BlockStatement)
  | element (node : Element)
  | text (node : TextNode)
  | mustacheComment (node : Comment)
  | comment (node : Comment)

structure BlockStatement where
  call : Call
  program : Block
  inverse : Option Block
  span : Span

structure Element where
  tag : String
  attributes : List Attribute
  modifiers : List Modifier
  body : Block
  selfClosing : Bool
  span : Span

/-- Statements, and the names that they may use besides the outer ones. -/
structure Block where
  statements : List Statement
  params : List String
  span : Span

end

instance : Inhabited Block := ⟨⟨[], [], .zero⟩⟩

structure Template where
  body : Block

instance : Inhabited Template := ⟨⟨default⟩⟩

/-- The name that a callee has: only paths have one. -/
def Expr.name? : Expr → Option String
  | .path p => some p.text
  | _ => none

def Expr.span : Expr → Span
  | .path p => p.span
  | .sub _ span => span
  | .literal _ span => span

def Call.name? (c : Call) : Option String := c.callee.name?

def Block.hasParams (b : Block) : Bool := !b.params.isEmpty

def Statement.span : Statement → Span
  | .mustache n => n.span
  | .block n => n.span
  | .element n => n.span
  | .text n => n.span
  | .mustacheComment n => n.span
  | .comment n => n.span

/-- An element around a body; it closes itself when the body has no statement. -/
def Element.around (tag : String) (attributes : List Attribute) (modifiers : List Modifier)
    (body : Block) (span : Span) : Element :=
  ⟨tag, attributes, modifiers, body, body.statements.isEmpty, span⟩

end TemplateLinker
