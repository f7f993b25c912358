import TemplateLinker.Json.Reader

/-!
# Json.Decoder — values of a known shape

Texts, lists, maps, records and choices.  A record is an object with its fields in any order, other
members being passed over, or an array with the fields in their declared order; each field has a slot in
a draft, and the fields that are not given take their defaults when the draft is finished.  A value of
another kind is read as a whole before it is refused, an array or object is refused at its bracket.
-/

namespace TemplateLinker.Json

def Found.ofScalar : Json → Found
  | .null => .null
  | .bool b => .bool b
  | .number n => .number n
  | .string s => .string s
  | .array _ => .sequence
  | .object _ => .map

/-- Reads what stands in place of what is wanted, and refuses it. -/
def refuse {α : Type} (expected : Expected) : Read α := fun cs =>
  let wrong (found : Found) : Except Failure (α × List Char) :=
    .error (.mismatch (.invalidType found expected))
  match skipBlanks cs with
  | [] => .error .endOfText
  | c :: rest =>
    match scalar? c rest with
    | some (.ok (v, _)) => wrong (.ofScalar v)
    | some (.error e) => .error e
    | none =>
      if c = '[' then wrong .sequence
      else if c = '\x7b' then wrong .map
      else .error .malformed

namespace Decode

def string : Reader String := fun _ cs =>
  match skipBlanks cs with
  | '"' :: rest => stringBody rest
  | _ => refuse .string cs

def unit : Reader Unit := fun _ cs =>
  match skipBlanks cs with
  | 'n' :: rest => expectWord ['u', 'l', 'l'] rest
  | _ => refuse .unit cs

def list {α : Type} (item : Reader α) : Reader (List α) := fun room cs =>
  match skipBlanks cs with
  | '[' :: rest =>
    match room with
    | 0 => .error .malformed
    | room + 1 => items (item room) rest
  | _ => refuse .sequence cs

def map {α : Type} (member : Reader α) : Reader (OrderedMap α) := fun room cs =>
  match skipBlanks cs with
  | '\x7b' :: rest =>
    match room with
    | 0 => .error .malformed
    | room + 1 => members (member room) rest
  | _ => refuse .map cs

/-! ### Choices -/

/-- The name of one of the variants, behind its opening quote. -/
def variantName {α : Type} (variants : Entries α) : Read α := fun cs => do
  let (name, rest) ← stringBody cs
  match Entries.get? name variants with
  | some a => .ok (a, rest)
  | none => .error (.mismatch (.unknownVariant name (Entries.keys variants)))

/-- The rest of the object form of a choice behind its opening brace. -/
def variantMember {α : Type} (variants : Entries α) (room : Nat) : Read α := fun cs =>
  match skipBlanks cs with
  | [] => .error .endOfText
  | '"' :: rest => do
    let (a, rest) ← variantName variants rest
    let ((), rest) ← colon rest
    let ((), rest) ← unit room rest
    let ((), rest) ← closeObject rest
    .ok (a, rest)
  | _ => .error .malformed

/-- A variant by name, or an object with the name as its only key and `null` under it; anything else is
malformed. -/
def choice {α : Type} (variants : Entries α) : Reader α := fun room cs =>
  match skipBlanks cs with
  | [] => .error .endOfText
  | '"' :: rest => variantName variants rest
  | '\x7b' :: rest =>
    match room with
    | 0 => .error .malformed
    | room + 1 => variantMember variants room rest
  | _ => .error .malformed

end Decode

/-! ### Records -/

/-- A field of a record whose values are gathered in a draft of type `σ`. -/
structure Field (σ : Type) where
  name : String
  /-- Whether the field has no default. -/
  required : Bool
  Value : Type
  reader : Reader Value
  get : σ → Option Value
  set : Value → σ → σ

/-- A record: its fields in declared order, and the value that a draft finishes as when no required
field is missing. -/
structure Record (σ α : Type) where
  name : String
  fields : List (Field σ)
  blank : σ
  finish : σ → α

namespace Record

variable {σ α : Type}

def isMissing (draft : σ) (f : Field σ) : Bool := f.required && (f.get draft).isNone

/-- The members of an object that have a field go into the draft, the others are passed over. -/
def memberStep (r : Record σ α) (room : Nat) (state : Bool × σ) : Read (Turn (Bool × σ) σ) :=
  fun cs => do
    let (key, cs) ← nextKey (!state.1) cs
    match key with
    | none =>
      match r.fields.find? (isMissing state.2) with
      | some f => .error (.mismatch (.missingField f.name))
      | none =>
        let ((), cs) ← closeObject cs
        .ok (.done state.2, cs)
    | some k =>
      match r.fields.find? (·.name == k) with
      | none =>
        let ((), cs) ← colon cs
        let ((), cs) ← skipValue cs
        .ok (.next (true, state.2), cs)
      | some f =>
        if (f.get state.2).isSome then .error (.mismatch (.duplicateField f.name))
        else
          let ((), cs) ← colon cs
          let (v, cs) ← f.reader room cs
          .ok (.next (true, f.set v state.2), cs)

/-- The rest of the object form behind its opening brace. -/
def objectForm (r : Record σ α) (room : Nat) : Read σ :=
  iterate (r.memberStep room) (false, r.blank)

/-- The values of `fields`, the first one being the field number `index` of the record. -/
def fieldValues (r : Record σ α) (room : Nat) : List (Field σ) → Nat → σ → Read σ
  | [], _, draft, cs => .ok (draft, cs)
  | f :: fs, index, draft, cs => do
    let (more, cs) ← nextItem (index == 0) cs
    if more then
      let (v, cs) ← f.reader room cs
      fieldValues r room fs (index + 1) (f.set v draft) cs
    else
      match (f :: fs).findIdx? Field.required with
      | some i => .error (.mismatch (.invalidLength (index + i) r.name r.fields.length))
      | none => .ok (draft, cs)

/-- The rest of the array form behind its opening bracket. -/
def arrayForm (r : Record σ α) (room : Nat) : Read σ := fun cs => do
  let (draft, cs) ← r.fieldValues room r.fields 0 r.blank cs
  let ((), cs) ← closeArray cs
  .ok (draft, cs)

def reader (r : Record σ α) : Reader α := fun room cs =>
  match skipBlanks cs with
  | '\x7b' :: rest =>
    match room with
    | 0 => .error .malformed
    | room + 1 => (r.objectForm room rest).map fun (draft, rest) => (r.finish draft, rest)
  | '[' :: rest =>
    match room with
    | 0 => .error .malformed
    | room + 1 => (r.arrayForm room rest).map fun (draft, rest) => (r.finish draft, rest)
  | _ => refuse (.record r.name) cs

end Record

end TemplateLinker.Json
