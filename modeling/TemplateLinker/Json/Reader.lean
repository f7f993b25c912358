import TemplateLinker.Json.Skip

/-!
# Json.Reader — values of any shape and whole documents

A `Reader` is told how many arrays and objects may still be opened; opening one more is malformed.
`items` and `members` are the loops of arrays and objects over a reader of what they hold; `value` reads
any value, a repeated key keeping its place and taking the last value.
-/

namespace TemplateLinker.Json

/-- A reader inside `room` brackets that may still be opened. -/
abbrev Reader (α : Type) := Nat → Read α

/-- The number of arrays and objects that may be open at once. -/
def maxDepth : Nat := 127

/-- Whether an item follows, and the text from it on, or from the closing bracket on. -/
def nextItem (first : Bool) : Read Bool := fun cs =>
  match skipBlanks cs with
  | [] => .error .endOfText
  | c :: rest =>
    if c = ']' then .ok (false, c :: rest)
    else if first then .ok (true, c :: rest)
    else if c = ',' then
      match skipBlanks rest with
      | [] => .error .endOfText
      | d :: rest => if d = ']' then .error .malformed else .ok (true, d :: rest)
    else .error .malformed

/-- The closing bracket of an array. -/
def closeArray : Read Unit := fun cs =>
  match skipBlanks cs with
  | [] => .error .endOfText
  | c :: rest => if c = ']' then .ok ((), rest) else .error .malformed

/-- The next key, or none before the closing brace. -/
def nextKey (first : Bool) : Read (Option String) := fun cs =>
  let key (cs : List Char) : Except Failure (Option String × List Char) :=
    (stringBody cs).map fun (k, rest) => (some k, rest)
  match skipBlanks cs with
  | [] => .error .endOfText
  | c :: rest =>
    if c = '\x7d' then .ok (none, c :: rest)
    else if first then
      if c = '"' then key rest else .error .malformed
    else if c = ',' then
      match skipBlanks rest with
      | [] => .error .endOfText
      | d :: rest => if d = '"' then key rest else .error .malformed
    else .error .malformed

/-- The colon behind a key. -/
def colon : Read Unit := fun cs =>
  match skipBlanks cs with
  | [] => .error .endOfText
  | c :: rest => if c = ':' then .ok ((), rest) else .error .malformed

/-- The closing brace of an object. -/
def closeObject : Read Unit := fun cs =>
  match skipBlanks cs with
  | [] => .error .endOfText
  | c :: rest => if c = '\x7d' then .ok ((), rest) else .error .malformed

/-! ### Loops -/

/-- Whether an item has been read, and the items so far, last first. -/
def itemsStep {α : Type} (item : Read α) (state : Bool × List α) : Read (Turn (Bool × List α) (List α)) :=
  fun cs => do
    let (more, cs) ← nextItem (!state.1) cs
    if more then
      let (x, cs) ← item cs
      .ok (.next (true, x :: state.2), cs)
    else
      let ((), cs) ← closeArray cs
      .ok (.done state.2.reverse, cs)

/-- The rest of an array behind its opening bracket. -/
def items {α : Type} (item : Read α) : Read (List α) := iterate (itemsStep item) (false, [])

/-- Whether a member has been read, and the members so far. -/
def membersStep {α : Type} (member : Read α) (state : Bool × OrderedMap α) :
    Read (Turn (Bool × OrderedMap α) (OrderedMap α)) :=
  fun cs => do
    let (key, cs) ← nextKey (!state.1) cs
    match key with
    | some k =>
      let ((), cs) ← colon cs
      let (v, cs) ← member cs
      .ok (.next (true, state.2.insert k v), cs)
    | none =>
      let ((), cs) ← closeObject cs
      .ok (.done state.2, cs)

/-- The rest of an object behind its opening brace. -/
def members {α : Type} (member : Read α) : Read (OrderedMap α) :=
  iterate (membersStep member) (false, .empty)

/-! ### Values -/

/-- A value other than an array, an object or nothing at all. -/
def scalar? (c : Char) (rest : List Char) : Option (Except Failure (Json × List Char)) :=
  if c = 'n' then some ((expectWord ['u', 'l', 'l'] rest).map fun ((), rest) => (.null, rest))
  else if c = 't' then some ((expectWord ['r', 'u', 'e'] rest).map fun ((), rest) => (.bool true, rest))
  else if c = 'f' then
    some ((expectWord ['a', 'l', 's', 'e'] rest).map fun ((), rest) => (.bool false, rest))
  else if c = '-' then some ((numberBody true rest).map fun (n, rest) => (.number n, rest))
  else if c.isDigit then some ((numberBody false (c :: rest)).map fun (n, rest) => (.number n, rest))
  else if c = '"' then some ((stringBody rest).map fun (s, rest) => (.string s, rest))
  else none

/-- A value of any shape. -/
def value : Reader Json
  | room, cs =>
    match skipBlanks cs with
    | [] => .error .endOfText
    | c :: rest =>
      match scalar? c rest with
      | some r => r
      | none =>
        match room with
        | 0 => .error .malformed
        | room + 1 =>
          if c = '[' then (items (value room) rest).map fun (xs, rest) => (.array xs, rest)
          else if c = '\x7b' then
            (members (value room) rest).map fun (ms, rest) => (.object ms.entries, rest)
          else .error .malformed

/-- Reads a whole text, behind which only blanks may stand. -/
def readText {α : Type} (reader : Reader α) (text : String) : Except Failure α := do
  let (a, rest) ← reader maxDepth text.toList
  if skipBlanks rest = [] then .ok a else .error .malformed

/-- Reads a text as a JSON value. -/
def parse (text : String) : Except Failure Json := readText value text

end TemplateLinker.Json
