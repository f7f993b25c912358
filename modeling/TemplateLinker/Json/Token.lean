import TemplateLinker.Json.Failure

/-!
# Json.Token — words, strings and numbers at the front of a text

A reader takes the characters from where it stands and gives what it read with the characters behind
it; the first problem met ends the reading.  Loops over the input go through `iterate`, whose step
either goes on with a new state or finishes.
-/

namespace TemplateLinker.Json

/-- A reader of characters. -/
abbrev Read (α : Type) := List Char → Except Failure (α × List Char)

/-- What a step of a loop says: go on, or stop with a result. -/
inductive Turn (σ α : Type) where
  | next (state : σ)
  | done (result : α)

/-- At most one turn of a loop for each character of `clock`. -/
def iterateFor {σ α : Type} (step : σ → Read (Turn σ α)) : List Char → σ → Read α
  | [], _, _ => .error .endOfText
  | _ :: clock, state, cs =>
    match step state cs with
    | .error e => .error e
    | .ok (.done a, rest) => .ok (a, rest)
    | .ok (.next state', rest) => iterateFor step clock state' rest

/-- Repeats a step that consumes at least one character whenever it goes on: there are never more
turns than characters, but for the last one. -/
def iterate {σ α : Type} (step : σ → Read (Turn σ α)) (state : σ) : Read α := fun cs =>
  iterateFor step (' ' :: cs) state cs

/-- Whenever the step goes on, it has consumed a character. -/
def Consuming {σ α : Type} (step : σ → Read (Turn σ α)) : Prop :=
  ∀ ⦃state cs state' rest⦄, step state cs = .ok (.next state', rest) → rest.length < cs.length

theorem iterateFor_congr {σ α : Type} {step : σ → Read (Turn σ α)} (h : Consuming step) :
    ∀ {clock₁ clock₂ : List Char} (state : σ) {cs : List Char}, cs.length < clock₁.length →
      cs.length < clock₂.length → iterateFor step clock₁ state cs = iterateFor step clock₂ state cs
  | [], _, _, _, h₁, _ => absurd h₁ (Nat.not_lt_zero _)
  | _ :: _, [], _, _, _, h₂ => absurd h₂ (Nat.not_lt_zero _)
  | _ :: clock₁, _ :: clock₂, state, cs, h₁, h₂ => by
    rw [iterateFor, iterateFor]
    split
    · rfl
    · rfl
    · next state' rest hs =>
      have hlt := h hs
      simp only [List.length_cons] at h₁ h₂
      exact iterateFor_congr h state' (by omega) (by omega)

/-- A loop is its first turn, followed by the loop from the state and the text that are left. -/
theorem iterate_eq {σ α : Type} {step : σ → Read (Turn σ α)} (h : Consuming step) (state : σ)
    (cs : List Char) :
    iterate step state cs =
      match step state cs with
      | .error e => .error e
      | .ok (.done a, rest) => .ok (a, rest)
      | .ok (.next state', rest) => iterate step state' rest := by
  rw [iterate, iterateFor]
  split
  · rfl
  · rfl
  · next state' rest hs => exact iterateFor_congr h state' (h hs) (Nat.lt_succ_self _)

/-- The turns of a loop from a state in front of a text to its result; a turn that goes on leaves less
text. -/
inductive Turns {σ α : Type} (step : σ → Read (Turn σ α)) : σ → List Char → α → List Char → Prop where
  | done {state : σ} {cs rest : List Char} {a : α} : step state cs = .ok (.done a, rest) →
      Turns step state cs a rest
  | next {state state' : σ} {cs mid rest : List Char} {a : α} : step state cs = .ok (.next state', mid) →
      mid.length < cs.length → Turns step state' mid a rest → Turns step state cs a rest

/-- A loop gives what its turns come to. -/
theorem Turns.iterate_eq {σ α : Type} {step : σ → Read (Turn σ α)} {state : σ} {cs rest : List Char} {a : α}
    (h : Turns step state cs a rest) : iterate step state cs = .ok (a, rest) := by
  have hfor : ∀ clock : List Char, cs.length < clock.length →
      iterateFor step clock state cs = .ok (a, rest) := by
    induction h with
    | done hs =>
      rintro (_ | ⟨_, clock⟩) hlt
      · exact absurd hlt (Nat.not_lt_zero _)
      · rw [iterateFor, hs]
    | next hs hmid _ ih =>
      rintro (_ | ⟨_, clock⟩) hlt
      · exact absurd hlt (Nat.not_lt_zero _)
      · rw [iterateFor, hs]
        exact ih clock (Nat.lt_of_lt_of_le hmid (Nat.le_of_lt_succ hlt))
  exact hfor _ (Nat.lt_succ_self _)

/-- Space, line feed, carriage return and tab. -/
def isBlank (c : Char) : Bool := c == ' ' || c == '\n' || c == '\r' || c == '\t'

def skipBlanks (cs : List Char) : List Char := cs.dropWhile isBlank

theorem skipBlanks_cons_of_not_blank {c : Char} {cs : List Char} (h : isBlank c = false) :
    skipBlanks (c :: cs) = c :: cs := by
  simp [skipBlanks, h]

/-- The characters of `word`, which ends too early or differs. -/
def expectWord : List Char → Read Unit
  | [], cs => .ok ((), cs)
  | _ :: _, [] => .error .endOfText
  | w :: word, c :: cs => if c = w then expectWord word cs else .error .malformed

/-! ### Strings -/

def hexValue? (c : Char) : Option Nat :=
  if '0' ≤ c ∧ c ≤ '9' then some (c.toNat - '0'.toNat)
  else if 'a' ≤ c ∧ c ≤ 'f' then some (c.toNat - 'a'.toNat + 10)
  else if 'A' ≤ c ∧ c ≤ 'F' then some (c.toNat - 'A'.toNat + 10)
  else none

/-- The bytes of a text in UTF-8. -/
def byteLength : List Char → Nat
  | [] => 0
  | c :: cs => c.utf8Size + byteLength cs

/-- Four hexadecimal digits; with fewer than four bytes left the text ends too early. -/
def fourHex : Read Nat := fun cs =>
  if byteLength (cs.take 4) < 4 then .error .endOfText
  else match cs with
    | a :: b :: c :: d :: rest =>
      match hexValue? a, hexValue? b, hexValue? c, hexValue? d with
      | some w, some x, some y, some z => .ok (((w * 16 + x) * 16 + y) * 16 + z, rest)
      | _, _, _, _ => .error .malformed
    | _ => .error .malformed

/-- An element of a string: its closing quote, a character, or a UTF-16 unit given by number. -/
inductive StringItem where
  | close
  | char (c : Char)
  | unit (n : Nat)

def escapedChar? : Char → Option Char
  | '"' => some '"'
  | '\\' => some '\\'
  | '/' => some '/'
  | 'b' => some '\x08'
  | 'f' => some '\x0c'
  | 'n' => some '\n'
  | 'r' => some '\r'
  | 't' => some '\t'
  | _ => none

def stringItem : Read StringItem
  | [] => .error .endOfText
  | c :: rest =>
    if c = '"' then .ok (.close, rest)
    else if c = '\\' then
      match rest with
      | [] => .error .endOfText
      | e :: rest =>
        if e = 'u' then (fourHex rest).map fun (n, rest) => (.unit n, rest)
        else match escapedChar? e with
          | some c => .ok (.char c, rest)
          | none => .error .malformed
    else if c.toNat < 0x20 then .error .malformed
    else .ok (.char c, rest)

/-- The unit that must follow the first half of a surrogate pair. -/
def secondHalf : Read Nat := fun cs => do
  let ((), cs) ← expectWord ['\\', 'u'] cs
  let (n, cs) ← fourHex cs
  if 0xDC00 ≤ n ∧ n ≤ 0xDFFF then .ok (n, cs) else .error .malformed

/-- The character that a UTF-16 unit begins; the second half of a pair may not come first. -/
def unitChar (n : Nat) : Read Char := fun cs =>
  if 0xDC00 ≤ n ∧ n ≤ 0xDFFF then .error .malformed
  else if 0xD800 ≤ n ∧ n ≤ 0xDBFF then
    (secondHalf cs).map fun (m, cs) => (Char.ofNat (0x10000 + (n - 0xD800) * 0x400 + (m - 0xDC00)), cs)
  else .ok (Char.ofNat n, cs)

/-- The characters so far, last first. -/
def stringStep (acc : List Char) : Read (Turn (List Char) (List Char)) := fun cs =>
  match stringItem cs with
  | .error e => .error e
  | .ok (.close, rest) => .ok (.done acc.reverse, rest)
  | .ok (.char c, rest) => .ok (.next (c :: acc), rest)
  | .ok (.unit n, rest) => (unitChar n rest).map fun (c, rest) => (.next (c :: acc), rest)

/-- The rest of a string behind its opening quote. -/
def stringBody : Read String := fun cs =>
  (iterate stringStep [] cs).map fun (s, rest) => (String.ofList s, rest)

/-! ### Numbers -/

/-- Significands stay below this. -/
def significandLimit : Nat := 0x10000000000000000

/-- Appends digits to a significand while it stays in range; the number of digits left out. -/
def absorb (significand : Nat) : List Char → Nat × Nat
  | [] => (significand, 0)
  | d :: ds =>
    let next := 10 * significand + Binary64.digitValue d
    if next < significandLimit then absorb next ds else (significand, ds.length + 1)

/-- `f / 10 ^ k`, in steps of at most 308 powers, each rounded. -/
def shrink (k : Nat) (f : Binary64) : Binary64 :=
  if k ≤ 308 then f.div (.ofNat (Nat.pow 10 k))
  else if f.magnitude.val = 0 then f
  else shrink (k - 308) (f.div (.ofNat (Nat.pow 10 308)))
termination_by k

/-- The number with a decimal significand and exponent: the significand rounded, then scaled by a
power of ten.  A number that is too large is refused. -/
def scaled (negative : Bool) (significand : Nat) (exponent : Int) : Except Failure Binary64 :=
  let f := Binary64.ofNat significand
  let signed (x : Binary64) : Binary64 := if negative then x.neg else x
  if exponent < 0 then .ok (signed (shrink (-exponent).toNat f))
  else if exponent ≤ 308 then
    let x := f.mul (.ofNat (Nat.pow 10 exponent.toNat))
    if x.isFinite then .ok (signed x) else .error .malformed
  else if significand = 0 then .ok (signed f)
  else .error .malformed

/-- The digits of an exponent behind `e`, with their sign. -/
def exponentDigits : Read (Bool × List Char) := fun cs =>
  let (negative, cs) := match cs with
    | '-' :: r => (true, r)
    | '+' :: r => (false, r)
    | r => (false, r)
  match cs with
  | [] => .error .endOfText
  | c :: _ =>
    if c.isDigit then .ok ((negative, cs.takeWhile Char.isDigit), cs.dropWhile Char.isDigit)
    else .error .malformed

/-- Exponents stay below this. -/
def exponentLimit : Nat := 0x80000000

/-- A number whose exponent part, if there is one, comes next. -/
def exponentPart (negative : Bool) (significand : Nat) (exponent : Int) : Read Number := fun cs =>
  match cs with
  | c :: rest =>
    if c = 'e' ∨ c = 'E' then do
      let ((down, digits), rest) ← exponentDigits rest
      let e := Binary64.naturalOf digits
      if exponentLimit ≤ e then
        if significand ≠ 0 ∧ !down then .error .malformed
        else .ok (.real (.zero negative), rest)
      else
        let x ← scaled negative significand (if down then exponent - e else exponent + e)
        .ok (.real x, rest)
    else (scaled negative significand exponent).map fun x => (.real x, cs)
  | [] => (scaled negative significand exponent).map fun x => (.real x, cs)

/-- A number whose fraction, if there is one, comes next, `left` digits being left out so far. -/
def fractionPart (negative : Bool) (significand left : Nat) : Read Number := fun cs =>
  match cs with
  | '.' :: rest =>
    match rest.takeWhile Char.isDigit, rest.dropWhile Char.isDigit with
    | [], [] => .error .endOfText
    | [], _ :: _ => .error .malformed
    | digits, rest =>
      let (s, out) := absorb significand digits
      exponentPart negative s (left + out - digits.length : Int) rest
  | _ => exponentPart negative significand left cs

/-- Whether a number goes on behind its whole part. -/
def continues : List Char → Bool
  | c :: _ => c == '.' || c == 'e' || c == 'E'
  | [] => false

/-- An integer without fraction and exponent: kept exactly within 64 bits, minus zero apart. -/
def wholeNumber (negative : Bool) (significand left : Nat) : Except Failure Number :=
  if left ≠ 0 then (scaled negative significand left).map .real
  else if !negative then .ok (.integer significand)
  else if 0 < significand ∧ significand ≤ 0x8000000000000000 then .ok (.integer (-significand))
  else .ok (.real (Binary64.ofNat significand).neg)

/-- A number behind its sign. -/
def numberBody (negative : Bool) : Read Number := fun cs =>
  match cs.takeWhile Char.isDigit, cs.dropWhile Char.isDigit with
  | [], [] => .error .endOfText
  | [], _ :: _ => .error .malformed
  | '0' :: _ :: _, _ => .error .malformed
  | digits, rest =>
    let (s, left) := absorb 0 digits
    if continues rest then fractionPart negative s left rest
    else (wholeNumber negative s left).map fun n => (n, rest)

end TemplateLinker.Json
