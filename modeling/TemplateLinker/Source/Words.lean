import TemplateLinker.Compiler.Host
import TemplateLinker.Template.Path
import TemplateLinker.Text.Blank

/-!
# Source.Words — a template language of words

A source is a sequence of words between blanks.  `{{name}}` is a mustache, `<tag>` an element without
children whose tag loses the slashes at its end, any other word is text.  Each node has the span of its
word.
-/

namespace TemplateLinker.Words

structure Word where
  chars : List Char
  span : Span
  deriving DecidableEq, Repr

/-- The word that has been begun, if any: where it starts, and its characters, last first. -/
abbrev Pending := Option (Nat × List Char)

/-- The pending word, ended at `pos`. -/
def flush (pos : Nat) : Pending → List Word
  | some (start, chars) => [⟨chars.reverse, ⟨start, pos⟩⟩]
  | none => []

def extend (pos : Nat) (c : Char) : Pending → Pending
  | some (start, chars) => some (start, c :: chars)
  | none => some (pos, [c])

/-- The words of the rest of a source that begins at `pos`. -/
def scan (pos : Nat) (pending : Pending) : List Char → List Word
  | [] => flush pos pending
  | c :: cs =>
    if Text.isBlank c then flush pos pending ++ scan (pos + c.utf8Size) none cs
    else scan (pos + c.utf8Size) (extend pos c pending) cs

def words (source : List Char) : List Word := scan 0 none source

/-- The text between `before` at the beginning and `after` at the end. -/
def between? (before after s : List Char) : Option (List Char) :=
  if before <+: s then
    let rest := s.drop before.length
    if after <:+ rest then some (rest.take (rest.length - after.length)) else none
  else none

def mustacheName? (s : List Char) : Option (List Char) :=
  between? ['\x7b', '\x7b'] ['\x7d', '\x7d'] s

def trimSlashes (s : List Char) : List Char := (s.reverse.dropWhile (· == '/')).reverse

def elementTag? (s : List Char) : Option (List Char) := (between? ['<'] ['>'] s).map trimSlashes

/-- A mustache without arguments. -/
def mustacheOf (name : String) (span : Span) : Statement :=
  .mustache ⟨⟨.path (.ofText name span), [], []⟩, false, span⟩

def elementOf (tag : String) (span : Span) : Statement :=
  .element (.around tag [] [] ⟨[], [], span⟩ span)

/-- The statement of a word; a mustache without a name has none. -/
def statement? (w : Word) : Option Statement :=
  match mustacheName? w.chars with
  | some [] => none
  | some name => some (mustacheOf (String.ofList name) w.span)
  | none =>
    match elementTag? w.chars with
    | some tag => some (elementOf (String.ofList tag) w.span)
    | none => some (.text ⟨String.ofList w.chars, w.span⟩)

/-- The statements of some words, none if one of them has none. -/
def statements? : List Word → Option (List Statement)
  | [] => some []
  | w :: ws =>
    match statement? w, statements? ws with
    | some s, some ss => some (s :: ss)
    | _, _ => none

def template? (source : List Char) : Option Template :=
  (statements? (words source)).map fun ss => ⟨⟨ss, [], .zero⟩⟩

def parse (module : ModuleName) (source : String) : Except CompileError Template :=
  match template? source.toList with
  | some t => .ok t
  | none => .error (.parse module "empty mustache")

def parser : Parser := fun r => ([], parse r.module r.source)

end TemplateLinker.Words
