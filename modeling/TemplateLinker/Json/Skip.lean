import TemplateLinker.Json.Token

/-!
# Json.Skip — passing over a value of any shape

The members of a record that have no field are passed over: the value must be well formed, but may
nest to any depth, and neither the range of its numbers nor the pairing of its surrogates matters.
A number that breaks off is malformed here.
-/

namespace TemplateLinker.Json

/-- A bracket that is open. -/
inductive Bracket where
  | array
  | object
  deriving DecidableEq

/-- Where a value being passed over stands: before a value, behind an opening bracket, or behind
an item or member. -/
inductive SkipState where
  | value (enclosing : List Bracket)
  | opened (innermost : Bracket) (enclosing : List Bracket)
  | item (innermost : Bracket) (enclosing : List Bracket)

def Bracket.closing : Bracket → Char
  | .array => ']'
  | .object => '\x7d'

def skipStringStep (_ : Unit) : Read (Turn Unit Unit) := fun cs =>
  (stringItem cs).map fun (item, rest) =>
    match item with
    | .close => (.done (), rest)
    | _ => (.next (), rest)

/-- The rest of a string behind its opening quote. -/
def skipString : Read Unit := iterate skipStringStep ()

def skipDigits (cs : List Char) : List Char := cs.dropWhile Char.isDigit

/-- At least one digit. -/
def skipDigits1 : Read Unit
  | c :: cs => if c.isDigit then .ok ((), skipDigits cs) else .error .malformed
  | [] => .error .malformed

def skipExponent : Read Unit := fun cs =>
  match cs with
  | c :: rest =>
    if c = 'e' ∨ c = 'E' then
      match rest with
      | '+' :: rest => skipDigits1 rest
      | '-' :: rest => skipDigits1 rest
      | rest => skipDigits1 rest
    else .ok ((), cs)
  | [] => .ok ((), cs)

def skipFraction : Read Unit := fun cs =>
  match cs with
  | '.' :: rest => do
    let ((), rest) ← skipDigits1 rest
    skipExponent rest
  | _ => skipExponent cs

/-- A number behind its sign. -/
def skipNumber : Read Unit := fun cs =>
  match cs with
  | '0' :: rest =>
    match rest with
    | c :: _ => if c.isDigit then .error .malformed else skipFraction rest
    | [] => skipFraction rest
  | c :: rest => if c.isDigit then skipFraction (skipDigits rest) else .error .malformed
  | [] => .error .malformed

/-- Behind a value: finished, or in the innermost open bracket. -/
def SkipState.afterValue : List Bracket → Turn SkipState Unit
  | [] => .done ()
  | b :: bs => .next (.item b bs)

/-- A value that is no array or object as a whole, or an opening bracket. -/
def skipHead (enclosing : List Bracket) : Read (Turn SkipState Unit) := fun cs =>
  let whole (r : Except Failure (Unit × List Char)) : Except Failure (Turn SkipState Unit × List Char) :=
    r.map fun ((), rest) => (SkipState.afterValue enclosing, rest)
  match skipBlanks cs with
  | [] => .error .endOfText
  | c :: rest =>
    if c = 'n' then whole (expectWord ['u', 'l', 'l'] rest)
    else if c = 't' then whole (expectWord ['r', 'u', 'e'] rest)
    else if c = 'f' then whole (expectWord ['a', 'l', 's', 'e'] rest)
    else if c = '-' then whole (skipNumber rest)
    else if c.isDigit then whole (skipNumber (c :: rest))
    else if c = '"' then whole (skipString rest)
    else if c = '[' then .ok (.next (.opened .array enclosing), rest)
    else if c = '\x7b' then .ok (.next (.opened .object enclosing), rest)
    else .error .malformed

/-- What stands before a value inside a bracket: nothing in an array, a key and a colon in an
object. -/
def skipKey : Bracket → Read Unit
  | .array, cs => .ok ((), cs)
  | .object, cs =>
    match skipBlanks cs with
    | [] => .error .endOfText
    | '"' :: rest => do
      let ((), rest) ← skipString rest
      match skipBlanks rest with
      | ':' :: rest => .ok ((), rest)
      | _ :: _ => .error .malformed
      | [] => .error .endOfText
    | _ => .error .malformed

def skipStep (state : SkipState) : Read (Turn SkipState Unit) := fun cs =>
  match state with
  | .value enclosing => skipHead enclosing cs
  | .opened b bs =>
    match skipBlanks cs with
    | [] => .error .endOfText
    | c :: rest =>
      if c = b.closing then .ok (SkipState.afterValue bs, rest)
      else do
        let ((), rest) ← skipKey b (c :: rest)
        skipHead (b :: bs) rest
  | .item b bs =>
    match skipBlanks cs with
    | [] => .error .endOfText
    | c :: rest =>
      if c = b.closing then .ok (SkipState.afterValue bs, rest)
      else if c = ',' then do
        let ((), rest) ← skipKey b rest
        skipHead (b :: bs) rest
      else .error .malformed

/-- Passes over one value. -/
def skipValue : Read Unit := iterate skipStep (.value [])

end TemplateLinker.Json
