import TemplateLinker.OrderedMap
import TemplateLinker.Decimal.Binary64

/-!
# Json.Basic — JSON values

Objects keep their members in order.  A number is an integer or a double-precision number; the two are
never equal, so `1` and `1.0` differ.  `Json.same` compares values without regard to the order of members.
-/

namespace TemplateLinker

inductive Json.Number where
  | integer (n : Int)
  | real (x : Binary64)
  deriving DecidableEq

inductive Json where
  | null
  | bool (b : Bool)
  | number (n : Json.Number)
  | string (s : String)
  | array (items : List Json)
  | object (members : List (String × Json))

namespace Json

instance : Inhabited Json := ⟨.null⟩

def integer (n : Int) : Json := .number (.integer n)

def strings (ss : List String) : Json := .array (ss.map .string)

/-- The members of an object, none for any other value. -/
def members? : Json → Option (Entries Json)
  | .object ms => some ms
  | _ => none

/-- The value of a member of an object. -/
def get? (k : String) (v : Json) : Option Json := v.members?.bind (Entries.get? k)

def isNull : Json → Bool
  | .null => true
  | _ => false

/-- Integers are compared as such, other numbers by value. -/
def Number.same : Number → Number → Bool
  | .integer m, .integer n => m == n
  | .real x, .real y => x.same y
  | _, _ => false

mutual

/-- Equality without regard to the order of members. -/
def same : Json → Json → Bool
  | .null, .null => true
  | .bool a, .bool b => a == b
  | .number m, .number n => m.same n
  | .string s, .string t => s == t
  | .array xs, .array ys => sameItems xs ys
  | .object ms, .object ns => ms.length == ns.length && sameMembers ms ns
  | _, _ => false

def sameItems : List Json → List Json → Bool
  | [], [] => true
  | x :: xs, y :: ys => same x y && sameItems xs ys
  | _, _ => false

/-- Each member of the first list stands, with the same value, in the second. -/
def sameMembers : List (String × Json) → List (String × Json) → Bool
  | [], _ => true
  | (k, v) :: ms, ns =>
    (match Entries.get? k ns with
      | some w => same v w
      | none => false) && sameMembers ms ns

end

/-- Equality of keyed values without regard to their order. -/
def sameEntries (ms ns : Entries Json) : Bool := ms.length == ns.length && sameMembers ms ns

end Json

end TemplateLinker
