import TemplateLinker.Proofs.Json.Strings

/-!
# Proofs.Text.SingleQuoted — string literals in single quotes

`singleQuoted` reads a literal of module code: it ends at the first quote that no backslash stands
before, a bare line feed or carriage return may not stand in it, and a backslash begins an escape (a
letter, two or four hexadecimal digits, a code point between braces, the end of a line that goes on, or
any other character, which then stands for itself).  A text that `registered` writes is read back
(`singleQuoted_registered`), so no text can end its own literal.
-/

namespace TemplateLinker.Text.Quoted

open Json (Read Turn iterate fourHex hexValue? unitChar iterate_escaped)

/-! ### Reading a literal -/

/-- The letters that stand for a control character. -/
def letterEscape? : Char → Option Char
  | 'b' => some '\x08'
  | 't' => some '\t'
  | 'n' => some '\n'
  | 'v' => some '\x0b'
  | 'f' => some '\x0c'
  | 'r' => some '\r'
  | _ => none

/-- The character with two hexadecimal digits. -/
def twoHex : Read Char
  | a :: b :: rest =>
    match hexValue? a, hexValue? b with
    | some x, some y => .ok (Char.ofNat (x * 16 + y), rest)
    | _, _ => .error .malformed
  | _ => .error .endOfText

/-- The character with the hexadecimal digits in front of a closing brace. -/
def bracedHex : Read Char := fun cs =>
  let digits := cs.takeWhile fun c => (hexValue? c).isSome
  let n := digits.foldl (fun n c => n * 16 + (hexValue? c).getD 0) 0
  match cs.dropWhile fun c => (hexValue? c).isSome with
  | '\x7d' :: rest =>
    if digits ≠ [] ∧ n.isValidChar then .ok (Char.ofNat n, rest) else .error .malformed
  | _ => .error .malformed

/-- The character that is given by number: a code point, or one or two units. -/
def numberedChar : Read Char
  | '\x7b' :: rest => bracedHex rest
  | cs => do
    let (n, cs) ← fourHex cs
    unitChar n cs

/-- What a backslash and the text behind it stand for; a line that goes on stands for nothing.  A number
other than a zero alone is no escape. -/
def escaped : Read (List Char)
  | [] => .error .endOfText
  | c :: rest =>
    match letterEscape? c with
    | some d => .ok ([d], rest)
    | none =>
      if c = 'x' then (twoHex rest).map fun (d, rest) => ([d], rest)
      else if c = 'u' then (numberedChar rest).map fun (d, rest) => ([d], rest)
      else if c.isDigit then
        if c = '0' ∧ (rest.head?.all fun d => !d.isDigit) then .ok (['\x00'], rest) else .error .malformed
      else if c = '\r' then .ok ([], if rest.head? = some '\n' then rest.tail else rest)
      else if c ∈ ['\n', '\u2028', '\u2029'] then .ok ([], rest)
      else .ok ([c], rest)

/-- The characters so far, last first. -/
def singleStep (acc : List Char) : Read (Turn (List Char) (List Char))
  | [] => .error .endOfText
  | c :: rest =>
    if c = '\'' then .ok (.done acc.reverse, rest)
    else if c = '\\' then (escaped rest).map fun (cs, rest) => (.next (cs.reverse ++ acc), rest)
    else if c = '\n' ∨ c = '\r' then .error .malformed
    else .ok (.next (c :: acc), rest)

/-- A literal in single quotes. -/
def singleQuoted : Read String
  | [] => .error .endOfText
  | c :: rest =>
    if c = '\'' then (iterate singleStep [] rest).map fun (s, rest) => (String.ofList s, rest)
    else .error .malformed

/-! ### Reading back what is written -/

theorem singleEscape_ne_nil (c : Char) : singleEscape c ≠ [] := by
  unfold singleEscape
  split_ifs <;> exact List.cons_ne_nil _ _

/-- **Each escape is read as the character it was written for.** -/
theorem singleStep_singleEscape (acc : List Char) (c : Char) (rest : List Char) :
    singleStep acc (singleEscape c ++ rest) = .ok (.next (c :: acc), rest) := by
  unfold singleEscape
  split_ifs with hslash hquote hn hr
  · rw [hslash]; rfl
  · rw [hquote]; rfl
  · rw [hn]; rfl
  · rw [hr]; rfl
  · have hbreak : ¬(c = '\n' ∨ c = '\r') := fun h => h.elim hn hr
    rw [List.singleton_append, singleStep, if_neg hquote, if_neg hslash, if_neg hbreak]

theorem singleStep_close (acc rest : List Char) :
    singleStep acc ('\'' :: rest) = .ok (.done acc.reverse, rest) := rfl

/-- **A registered text reads back**, whatever stands behind it. -/
theorem singleQuoted_registered (s : String) (rest : List Char) :
    singleQuoted (registered s.toList ++ rest) = .ok (s, rest) := by
  have hread := iterate_escaped singleEscape_ne_nil singleStep_singleEscape singleStep_close s.toList rest
  have hshape : registered s.toList ++ rest = '\'' :: (s.toList.flatMap singleEscape ++ '\'' :: rest) := by
    simp [registered]
  rw [hshape, singleQuoted, if_pos rfl, hread]
  simp only [Except.map, String.ofList_toList]

/-- Registered texts are told apart, and from what stands behind them. -/
theorem registered_append_inj {s t : String} {r₁ r₂ : List Char}
    (h : registered s.toList ++ r₁ = registered t.toList ++ r₂) : s = t ∧ r₁ = r₂ := by
  have hread := singleQuoted_registered s r₁
  rw [h, singleQuoted_registered t r₂] at hread
  cases hread
  exact ⟨rfl, rfl⟩

example : (singleQuoted "'a\\x41\\u\x7b1F600\x7d\\\n'b'".toList).toOption =
    some ("aA😀", "b'".toList) := by decide +kernel

end TemplateLinker.Text.Quoted
