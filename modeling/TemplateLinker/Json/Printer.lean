import TemplateLinker.Json.Basic
import TemplateLinker.Decimal.Numeral
import TemplateLinker.Text.Quoted

/-!
# Json.Printer — the compact text of a JSON value

No blanks; members and items in order; `Json.ofBinary64` writes a number that is not finite as `null`.
`Json.write` puts a value in front of the text that follows it, which `write_eq_render_append` splits off.
-/

namespace TemplateLinker.Json

/-- A finite number, `null` for any other. -/
def ofBinary64 (x : Binary64) : Json := if x.isFinite then .number (.real x) else .null

def integerText (n : Int) : List Char :=
  if n < 0 then '-' :: Nat.toDigits 10 n.natAbs else Nat.toDigits 10 n.natAbs

def Number.render : Number → List Char
  | .integer n => integerText n
  | .real x => x.render

mutual

/-- The text of a value in front of `rest`. -/
def write : Json → List Char → List Char
  | .null, rest => 'n' :: 'u' :: 'l' :: 'l' :: rest
  | .bool true, rest => 't' :: 'r' :: 'u' :: 'e' :: rest
  | .bool false, rest => 'f' :: 'a' :: 'l' :: 's' :: 'e' :: rest
  | .number n, rest => n.render ++ rest
  | .string s, rest => Text.Quoted.json s.toList ++ rest
  | .array [], rest => '[' :: ']' :: rest
  | .array (x :: xs), rest => '[' :: write x (writeItems xs rest)
  | .object [], rest => '\x7b' :: '\x7d' :: rest
  | .object ((k, v) :: ms), rest =>
    '\x7b' :: (Text.Quoted.json k.toList ++ ':' :: write v (writeMembers ms rest))

/-- The items behind the first one, each after a comma, and the closing bracket. -/
def writeItems : List Json → List Char → List Char
  | [], rest => ']' :: rest
  | x :: xs, rest => ',' :: write x (writeItems xs rest)

/-- The members behind the first one, each after a comma, and the closing brace. -/
def writeMembers : List (String × Json) → List Char → List Char
  | [], rest => '\x7d' :: rest
  | (k, v) :: ms, rest =>
    ',' :: (Text.Quoted.json k.toList ++ ':' :: write v (writeMembers ms rest))

end

def render (v : Json) : List Char := v.write []

def text (v : Json) : String := String.ofList v.render

/-! ### What stands behind a value does not change its text -/

mutual

theorem write_append : ∀ (v : Json) (rest tail : List Char),
    v.write rest ++ tail = v.write (rest ++ tail)
  | .null, _, _ => rfl
  | .bool true, _, _ => rfl
  | .bool false, _, _ => rfl
  | .number _, _, _ => by simp [write]
  | .string _, _, _ => by simp [write]
  | .array [], _, _ => rfl
  | .array (x :: xs), rest, tail => by
    simp only [write, List.cons_append]
    rw [write_append x, writeItems_append xs]
  | .object [], _, _ => rfl
  | .object ((k, v) :: ms), rest, tail => by
    simp only [write, List.cons_append, List.append_assoc]
    rw [write_append v, writeMembers_append ms]

theorem writeItems_append : ∀ (xs : List Json) (rest tail : List Char),
    writeItems xs rest ++ tail = writeItems xs (rest ++ tail)
  | [], _, _ => rfl
  | x :: xs, rest, tail => by
    simp only [writeItems, List.cons_append]
    rw [write_append x, writeItems_append xs]

theorem writeMembers_append : ∀ (ms : List (String × Json)) (rest tail : List Char),
    writeMembers ms rest ++ tail = writeMembers ms (rest ++ tail)
  | [], _, _ => rfl
  | (k, v) :: ms, rest, tail => by
    simp only [writeMembers, List.cons_append, List.append_assoc]
    rw [write_append v, writeMembers_append ms]

end

theorem write_eq_render_append (v : Json) (rest : List Char) : v.write rest = v.render ++ rest := by
  rw [render, write_append, List.nil_append]

end TemplateLinker.Json
