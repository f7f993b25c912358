import TemplateLinker.Template.Basic
import TemplateLinker.Text.Pieces

/-!
# Template.Path — the parts of a dotted path

The head is `this`, `this.` or `@`; what is left is cut at every dot, empty segments kept, and has no
segments if it is empty.
-/

namespace TemplateLinker.Path

/-- The head of a path. -/
inductive Head where
  | this
  | data
  | none
  deriving DecidableEq, Repr

/-- The head of a text, and the text behind it. -/
def splitHead (s : List Char) : Head × List Char :=
  match s with
  | ['t', 'h', 'i', 's'] => (.this, [])
  | 't' :: 'h' :: 'i' :: 's' :: '.' :: rest => (.this, rest)
  | '@' :: rest => (.data, rest)
  | _ => (.none, s)

def segments (rest : List Char) : List String :=
  if rest = [] then [] else (Text.pieces '.' rest).map String.ofList

/-- The path that a text writes. -/
def ofText (text : String) (span : Span) : Path :=
  let (head, rest) := splitHead text.toList
  ⟨text, head = .this, head = .data, segments rest, span⟩

example : (ofText "this.a..b" .zero).parts = ["a", "", "b"] := by decide +kernel
example : (ofText "@index" .zero).isData = true := by decide +kernel
example : (ofText "thisx.y" .zero).isThis = false := by decide +kernel

end TemplateLinker.Path
