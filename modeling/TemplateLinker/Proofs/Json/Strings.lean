import Mathlib.Tactic.SplitIfs
import TemplateLinker.Json.Token
import TemplateLinker.Text.Quoted

/-!
# Proofs.Json.Strings — quoted strings read back

Each escape is read as the character it was written for (`stringItem_jsonEscape`, `unitChar_hex`), so
the reader takes a quoted text back whatever stands behind it (`stringBody_quoted`); two texts in quotes
in front of other text never look the same (`json_append_inj`).
-/

namespace TemplateLinker.Json

open Text.Quoted

/-! ### Hexadecimal digits -/

theorem hexValue?_digitChar : ∀ n < 16, hexValue? (Nat.digitChar n) = some n := by
  decide

theorem utf8Size_digitChar : ∀ n < 16, (Nat.digitChar n).utf8Size = 1 := by
  decide

theorem hexValue?_hexDigit (n : Nat) : hexValue? (hexDigit n) = some (n % 16) :=
  hexValue?_digitChar _ (Nat.mod_lt _ (by omega))

theorem utf8Size_hexDigit (n : Nat) : (hexDigit n).utf8Size = 1 :=
  utf8Size_digitChar _ (Nat.mod_lt _ (by omega))

theorem fourHex_hexDigits (a b c d : Nat) (rest : List Char) :
    fourHex (hexDigit a :: hexDigit b :: hexDigit c :: hexDigit d :: rest) =
      .ok (((a % 16 * 16 + b % 16) * 16 + c % 16) * 16 + d % 16, rest) := by
  have hbytes : byteLength [hexDigit a, hexDigit b, hexDigit c, hexDigit d] = 4 := by
    simp only [byteLength, utf8Size_hexDigit]
  unfold fourHex
  rw [show List.take 4 (hexDigit a :: hexDigit b :: hexDigit c :: hexDigit d :: rest) =
    [hexDigit a, hexDigit b, hexDigit c, hexDigit d] from rfl, hbytes, if_neg (by omega)]
  simp only [hexValue?_hexDigit]

/-! ### Escapes -/

theorem unitChar_control {c : Char} (hc : c.toNat < 0x20) (rest : List Char) :
    unitChar c.toNat rest = .ok (c, rest) := by
  unfold unitChar
  rw [if_neg (by omega), if_neg (by omega), Char.ofNat_toNat]

/-- **Each escape is read as the character it was written for.** -/
theorem stringStep_jsonEscape (acc : List Char) (c : Char) (rest : List Char) :
    stringStep acc (jsonEscape c ++ rest) = .ok (.next (c :: acc), rest) := by
  unfold jsonEscape
  split_ifs with hquote hslash hb hf hn hr ht hcontrol
  · rw [hquote]; rfl
  · rw [hslash]; rfl
  · rw [hb]; rfl
  · rw [hf]; rfl
  · rw [hn]; rfl
  · rw [hr]; rfl
  · rw [ht]; rfl
  · -- the other controls are given by number
    have hread : stringItem (['\\', 'u', '0', '0', hexDigit (c.toNat / 16), hexDigit c.toNat] ++ rest) =
        .ok (.unit c.toNat, rest) := by
      have hfour := fourHex_hexDigits 0 0 (c.toNat / 16) c.toNat rest
      have hvalue : ((0 % 16 * 16 + 0 % 16) * 16 + c.toNat / 16 % 16) * 16 + c.toNat % 16 = c.toNat := by
        omega
      rw [hvalue] at hfour
      show Except.map _ (fourHex ('0' :: '0' :: hexDigit (c.toNat / 16) :: hexDigit c.toNat :: rest)) = _
      rw [show ('0' : Char) = hexDigit 0 from rfl, hfour]
      rfl
    unfold stringStep
    rw [hread]
    simp only [unitChar_control hcontrol, Except.map]
  · have hread : stringItem (c :: rest) = .ok (.char c, rest) := by
      simp only [stringItem, if_neg hquote, if_neg hslash, if_neg hcontrol]
    unfold stringStep
    rw [List.singleton_append, hread]

theorem stringStep_close (acc rest : List Char) :
    stringStep acc ('"' :: rest) = .ok (.done acc.reverse, rest) := rfl

/-! ### Strings -/

section Escaped

variable {escape : Char → List Char} {close : Char} {step : List Char → Read (Turn (List Char) (List Char))}

/-- A turn for each character that was escaped, and one for the closing quote. -/
theorem turns_escaped (hne : ∀ c, escape c ≠ [])
    (hstep : ∀ acc c rest, step acc (escape c ++ rest) = .ok (.next (c :: acc), rest))
    (hclose : ∀ acc rest, step acc (close :: rest) = .ok (.done acc.reverse, rest)) (rest : List Char) :
    ∀ s acc : List Char, Turns step acc (s.flatMap escape ++ close :: rest) (acc.reverse ++ s) rest
  | [], acc => by
    rw [List.flatMap_nil, List.nil_append, List.append_nil]
    exact .done (hclose acc rest)
  | c :: s, acc => by
    have hc : 0 < (escape c).length := List.length_pos_iff.2 (hne c)
    have hrest := turns_escaped hne hstep hclose rest s (c :: acc)
    rw [List.reverse_cons, List.append_assoc] at hrest
    rw [List.flatMap_cons, List.append_assoc]
    refine .next (hstep acc c _) ?_ hrest
    simp only [List.length_append]
    omega

/-- **A loop whose step undoes the escapes reads an escaped text back**, whatever stands behind the
closing quote. -/
theorem iterate_escaped (hne : ∀ c, escape c ≠ [])
    (hstep : ∀ acc c rest, step acc (escape c ++ rest) = .ok (.next (c :: acc), rest))
    (hclose : ∀ acc rest, step acc (close :: rest) = .ok (.done acc.reverse, rest))
    (s rest : List Char) :
    iterate step [] (s.flatMap escape ++ close :: rest) = .ok (s, rest) :=
  (turns_escaped hne hstep hclose rest s []).iterate_eq

end Escaped

theorem jsonEscape_ne_nil (c : Char) : jsonEscape c ≠ [] := by
  unfold jsonEscape
  split_ifs <;> exact List.cons_ne_nil _ _

/-- **A quoted text reads back**, whatever stands behind it. -/
theorem stringBody_quoted (s : String) (rest : List Char) :
    stringBody (s.toList.flatMap jsonEscape ++ '"' :: rest) = .ok (s, rest) := by
  have hread := iterate_escaped jsonEscape_ne_nil stringStep_jsonEscape stringStep_close s.toList rest
  unfold stringBody
  rw [hread]
  simp only [Except.map, String.ofList_toList]

/-- Quoted texts are told apart, and from what stands behind them. -/
theorem json_append_inj {s t : String} {r₁ r₂ : List Char}
    (h : json s.toList ++ r₁ = json t.toList ++ r₂) : s = t ∧ r₁ = r₂ := by
  have hbody : s.toList.flatMap jsonEscape ++ '"' :: r₁ = t.toList.flatMap jsonEscape ++ '"' :: r₂ := by
    rw [json_append, json_append] at h
    exact (List.cons.inj h).2
  have hread := stringBody_quoted s r₁
  rw [hbody, stringBody_quoted t r₂] at hread
  cases hread
  exact ⟨rfl, rfl⟩

end TemplateLinker.Json
