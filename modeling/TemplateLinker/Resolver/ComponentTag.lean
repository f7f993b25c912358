/-!
# Resolver.ComponentTag — tags that look like components

Two forms: capitalised names joined by double colons (`Foo`, `Foo::Bar2`), and lower-case words joined
by dashes, at least two of them (`x-foo`).  Letters and digits are those of ASCII.  A tag is read once,
character by character.
-/

namespace TemplateLinker.ComponentTag

/-- What has been read of a tag. -/
inductive State where
  /-- Nothing. -/
  | start
  /-- A part of a capitalised name. -/
  | name
  /-- Names and one colon. -/
  | colon
  /-- Names and two colons. -/
  | colons
  /-- A part of the first word. -/
  | firstWord
  /-- Words and a dash. -/
  | dash
  /-- A dash and a part of the word behind it. -/
  | word
  /-- No tag of a component. -/
  | refused
  deriving DecidableEq, Repr

def isUpper (c : Char) : Bool := 'A' ≤ c && c ≤ 'Z'

def isLower (c : Char) : Bool := 'a' ≤ c && c ≤ 'z'

def isDigit (c : Char) : Bool := '0' ≤ c && c ≤ '9'

def step : State → Char → State
  | .start, c => if isUpper c then .name else if isLower c then .firstWord else .refused
  | .name, c =>
    if isUpper c || isLower c || isDigit c then .name else if c = ':' then .colon else .refused
  | .colon, c => if c = ':' then .colons else .refused
  | .colons, c => if isUpper c then .name else .refused
  | .firstWord, c =>
    if isLower c || isDigit c then .firstWord else if c = '-' then .dash else .refused
  | .dash, c => if isLower c || isDigit c then .word else .refused
  | .word, c => if isLower c || isDigit c then .word else if c = '-' then .dash else .refused
  | .refused, _ => .refused

def State.accepts : State → Bool
  | .name | .word => true
  | _ => false

theorem foldl_step_refused (s : List Char) : s.foldl step .refused = .refused := by
  induction s with
  | nil => rfl
  | cons c s ih => exact ih

end TemplateLinker.ComponentTag

namespace TemplateLinker

/-- Whether a tag has the form of a component's. -/
def looksLikeComponent (tag : String) : Bool :=
  (tag.toList.foldl ComponentTag.step .start).accepts

end TemplateLinker
