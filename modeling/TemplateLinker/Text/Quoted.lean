import TemplateLinker.Text.Printable

/-!
# Text.Quoted — text between quotes

Three quoted forms: `json` (double quotes, the escapes of JSON), `registered` (single quotes, where a
backslash, the quote and the two line breaks are escaped) and `shown` (double quotes, hidden characters
by code point).
-/

namespace TemplateLinker.Text.Quoted

def hexDigit (n : Nat) : Char := Nat.digitChar (n % 16)

/-- The character as it stands in a JSON string: short escapes where there are any, other controls
by four hexadecimal digits. -/
def jsonEscape (c : Char) : List Char :=
  if c = '"' then ['\\', '"']
  else if c = '\\' then ['\\', '\\']
  else if c = '\x08' then ['\\', 'b']
  else if c = '\x0c' then ['\\', 'f']
  else if c = '\n' then ['\\', 'n']
  else if c = '\r' then ['\\', 'r']
  else if c = '\t' then ['\\', 't']
  else if c.toNat < 0x20 then ['\\', 'u', '0', '0', hexDigit (c.toNat / 16), hexDigit c.toNat]
  else [c]

def json (s : List Char) : List Char := '"' :: s.flatMap jsonEscape ++ ['"']

theorem json_append (s rest : List Char) : json s ++ rest = '"' :: (s.flatMap jsonEscape ++ '"' :: rest) := by
  simp [json]

def singleEscape (c : Char) : List Char :=
  if c = '\\' then ['\\', '\\']
  else if c = '\'' then ['\\', '\'']
  else if c = '\n' then ['\\', 'n']
  else if c = '\r' then ['\\', 'r']
  else [c]

def registered (s : List Char) : List Char := '\'' :: s.flatMap singleEscape ++ ['\'']

/-- The hexadecimal digits of the code point between braces. -/
def codePoint (c : Char) : List Char :=
  ['\\', 'u', '\x7b'] ++ Nat.toDigits 16 c.toNat ++ ['\x7d']

def shownEscape (c : Char) : List Char :=
  if c = '"' then ['\\', '"']
  else if c = '\\' then ['\\', '\\']
  else if c = '\n' then ['\\', 'n']
  else if c = '\r' then ['\\', 'r']
  else if c = '\t' then ['\\', 't']
  else if c = '\x00' then ['\\', '0']
  else if isPrintable c then [c]
  else codePoint c

def shown (s : List Char) : List Char := '"' :: s.flatMap shownEscape ++ ['"']

example : json ['a', '\n', '\x1f'] = "\"a\\n\\u001f\"".toList := by decide +kernel
example : registered ['i', 't', '\'', 's'] = "'it\\'s'".toList := by decide +kernel
example : shown ['\x7f'] = "\"\\u\x7b7f\x7d\"".toList := by decide +kernel

end TemplateLinker.Text.Quoted
