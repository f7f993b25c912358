import TemplateLinker.Template.Basic
import TemplateLinker.Json.Printer

/-!
# Template.Wire — templates as JSON

Each node is an object; statements, expressions and the parts of attributes carry their kind as `type`,
before their other members.  Spans are left out.
-/

namespace TemplateLinker

/-- An object with its kind as first member. -/
def Json.tagged (kind : String) (members : List (String × Json)) : Json :=
  .object (("type", .string kind) :: members)

namespace Path

def toJson (p : Path) : Json :=
  .tagged "PathExpression" [("original", .string p.text), ("this", .bool p.isThis),
    ("data", .bool p.isData), ("parts", .strings p.parts)]

end Path

def Literal.toJson : Literal → Json
  | .string s => .tagged "StringLiteral" [("value", .string s)]
  | .number x => .tagged "NumberLiteral" [("value", .ofBinary64 x)]
  | .boolean b => .tagged "BooleanLiteral" [("value", .bool b)]
  | .null => .tagged "NullLiteral" [("value", .null)]
  | .undefined => .tagged "UndefinedLiteral" [("value", .null)]

mutual

def Expr.toJson : Expr → Json
  | .path p => p.toJson
  | .sub call _ => .tagged "SubExpression" (Call.members call)
  | .literal value _ => value.toJson

/-- The members that a call contributes to the node it belongs to. -/
def Call.members : Call → List (String × Json)
  | ⟨callee, params, hash⟩ =>
    [("path", Expr.toJson callee), ("params", .array (Expr.listToJson params)),
      ("hash", .object [("pairs", .array (Named.listToJson hash))])]

def Expr.listToJson : List Expr → List Json
  | [] => []
  | e :: es => Expr.toJson e :: Expr.listToJson es

def Named.listToJson : List Named → List Json
  | [] => []
  | ⟨key, value⟩ :: ns =>
    .object [("key", .string key), ("value", Expr.toJson value)] :: Named.listToJson ns

end

def Mustache.toJson (m : Mustache) : Json :=
  .tagged "MustacheStatement" (m.call.members ++ [("trusting", .bool m.trusting)])

def TextNode.toJson (t : TextNode) : Json := .tagged "TextNode" [("chars", .string t.chars)]

def Modifier.toJson (m : Modifier) : Json := .object m.call.members

def ConcatPart.toJson : ConcatPart → Json
  | .text t => t.toJson
  | .mustache m => m.toJson

def AttributeValue.toJson : AttributeValue → Json
  | .text t => t.toJson
  | .mustache m => m.toJson
  | .concat parts _ => .tagged "ConcatStatement" [("parts", .array (parts.map ConcatPart.toJson))]

def Attribute.toJson (a : Attribute) : Json :=
  .object [("name", .string a.name), ("value", a.value.toJson)]

mutual

def Statement.toJson : Statement → Json
  | .mustache m => m.toJson
  | .block b => BlockStatement.toJson b
  | .element e => Element.toJson e
  | .text t => t.toJson
  | .mustacheComment c => .tagged "MustacheCommentStatement" [("value", .string c.value)]
  | .comment c => .tagged "CommentStatement" [("value", .string c.value)]

def BlockStatement.toJson : BlockStatement → Json
  | ⟨call, program, inverse, _⟩ =>
    .tagged "BlockStatement"
      (call.members ++ [("program", Block.toJson program), ("inverse", Block.optionToJson inverse)])

def Element.toJson : Element → Json
  | ⟨tag, attributes, modifiers, body, selfClosing, _⟩ =>
    .tagged "ElementNode" [("tag", .string tag), ("attributes", .array (attributes.map Attribute.toJson)),
      ("modifiers", .array (modifiers.map Modifier.toJson)), ("body", Block.toJson body),
      ("selfClosing", .bool selfClosing)]

def Block.toJson : Block → Json
  | ⟨statements, params, _⟩ =>
    .object [("statements", .array (Statement.listToJson statements)), ("blockParams", .strings params)]

def Block.optionToJson : Option Block → Json
  | none => .null
  | some b => Block.toJson b

def Statement.listToJson : List Statement → List Json
  | [] => []
  | s :: ss => Statement.toJson s :: Statement.listToJson ss

end

namespace Template

def toJson (t : Template) : Json := .object [("body", t.body.toJson)]

/-- The wire text of a template. -/
def wire (t : Template) : String := t.toJson.text

end Template

end TemplateLinker
