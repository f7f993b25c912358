import TemplateLinker.Json.Printer
import TemplateLinker.Proofs.Decimal.Numeral
import TemplateLinker.Proofs.Json.Strings

/-!
# Proofs.Json.UniqueReading — the compact text of a value has one reading

A value that is written in front of some text can be told from the text behind it, and is the only value
written that way (`write_inj`).  Words, brackets and quotes mark their own end; a number goes on as far
as the characters of numerals do, so what stands behind it must begin with another one, as the comma, the
closing brackets and the end of the text do (`Ends`).
-/

namespace TemplateLinker.Json

open Binary64 (Stops isNumeralChar span_run stops_nil)

/-! ### Values with a text of their own -/

/-- No number that is not finite. -/
def Number.IsFinite : Number → Prop
  | .integer _ => True
  | .real x => x.isFinite

mutual

/-- No number in it that is not finite. -/
def IsFinite : Json → Prop
  | .number n => n.IsFinite
  | .array xs => ItemsFinite xs
  | .object ms => MembersFinite ms
  | _ => True

def ItemsFinite : List Json → Prop
  | [] => True
  | x :: xs => IsFinite x ∧ ItemsFinite xs

def MembersFinite : List (String × Json) → Prop
  | [] => True
  | (_, v) :: ms => IsFinite v ∧ MembersFinite ms

end

/-! ### Numbers -/

theorem toDigits_injective {m n : ℕ} (h : Nat.toDigits 10 m = Nat.toDigits 10 n) : m = n := by
  rw [← Binary64.naturalOf_toDigits m, h, Binary64.naturalOf_toDigits]

theorem not_mem_toDigits {c : Char} (hc : c.isDigit = false) (n : ℕ) : c ∉ Nat.toDigits 10 n := by
  intro h
  rw [Binary64.isDigit_of_mem_toDigits h] at hc
  cases hc

theorem integerText_injective {m n : ℤ} (h : integerText m = integerText n) : m = n := by
  have hminus : ∀ {k : ℕ} {s : List Char}, Nat.toDigits 10 k ≠ '-' :: s := fun {k s} he =>
    not_mem_toDigits (c := '-') (by decide) k (by rw [he]; exact List.mem_cons_self)
  unfold integerText at h
  split_ifs at h with hm hn hn
  · have := toDigits_injective (List.cons.inj h).2
    omega
  · exact absurd h.symm hminus
  · exact absurd h hminus
  · have := toDigits_injective h
    omega

theorem isNumeralChar_of_mem_integerText {n : ℤ} {c : Char} (hc : c ∈ integerText n) :
    isNumeralChar c := by
  have hdigit : c ∈ Nat.toDigits 10 n.natAbs → isNumeralChar c := fun h =>
    Binary64.isNumeralChar_of_isDigit (Binary64.isDigit_of_mem_toDigits h)
  unfold integerText at hc
  split_ifs at hc
  · rcases List.mem_cons.mp hc with rfl | h
    · decide
    · exact hdigit h
  · exact hdigit hc

/-- Integers have neither a point nor an exponent. -/
theorem integerText_ne_render (n : ℤ) {x : Binary64} (hx : x.isFinite) :
    integerText n ≠ x.render := by
  have hnot : ∀ c, c.isDigit = false → c ≠ '-' → c ∉ integerText n := fun c hc hm h => by
    unfold integerText at h
    split_ifs at h
    · exact (List.mem_cons.mp h).elim hm (not_mem_toDigits hc _)
    · exact not_mem_toDigits hc _ h
  intro h
  rcases Binary64.exists_mem_render hx with hmem | hmem
  · exact hnot '.' (by decide) (by decide) (by rw [h]; exact hmem)
  · exact hnot 'e' (by decide) (by decide) (by rw [h]; exact hmem)

theorem Number.render_injective : ∀ {m n : Number}, m.IsFinite → n.IsFinite →
    m.render = n.render → m = n
  | .integer _, .integer _, _, _, h => congrArg _ (integerText_injective h)
  | .integer _, .real _, _, hy, h => absurd h (integerText_ne_render _ hy)
  | .real _, .integer _, hx, _, h => absurd h.symm (integerText_ne_render _ hx)
  | .real _, .real _, hx, hy, h => congrArg _ (Binary64.render_injective hx hy h)

theorem Number.isNumeralChar_of_mem_render : ∀ {n : Number}, n.IsFinite → ∀ c ∈ n.render, isNumeralChar c
  | .integer _, _, _, hc => isNumeralChar_of_mem_integerText hc
  | .real _, hx, _, hc => Binary64.isNumeralChar_of_mem_render hx hc

theorem Number.render_ne_nil : ∀ {n : Number}, n.IsFinite → n.render ≠ []
  | .integer n, _ => by
    show integerText n ≠ []
    unfold integerText
    split_ifs <;> simp
  | .real x, hx => by
    intro h
    rcases Binary64.exists_mem_render hx with hmem | hmem <;>
      · rw [show x.render = [] from h] at hmem
        cases hmem

theorem Number.render_append_inj {m n : Number} {r₁ r₂ : List Char} (hm : m.IsFinite)
    (hn : n.IsFinite) (h₁ : Stops isNumeralChar r₁) (h₂ : Stops isNumeralChar r₂)
    (h : m.render ++ r₁ = n.render ++ r₂) : m = n ∧ r₁ = r₂ := by
  obtain ⟨htake₁, hdrop₁⟩ := span_run (Number.isNumeralChar_of_mem_render hm) h₁
  obtain ⟨htake₂, hdrop₂⟩ := span_run (Number.isNumeralChar_of_mem_render hn) h₂
  rw [h] at htake₁ hdrop₁
  exact ⟨Number.render_injective hm hn (htake₁.symm.trans htake₂), hdrop₁.symm.trans hdrop₂⟩

/-! ### How a value begins -/

/-- The character that a value of its kind begins with, `0` for the numbers. -/
def opening : Json → Char
  | .null => 'n'
  | .bool true => 't'
  | .bool false => 'f'
  | .number _ => '0'
  | .string _ => '"'
  | .array _ => '['
  | .object _ => '\x7b'

/-- The kind of value that a character begins. -/
def openedBy (c : Char) : Char := if isNumeralChar c then '0' else c

theorem write_head : ∀ {v : Json}, v.IsFinite → ∀ rest,
    (v.write rest).head?.map openedBy = some v.opening
  | .null, _, _ => rfl
  | .bool true, _, _ => rfl
  | .bool false, _, _ => rfl
  | .string _, _, _ => rfl
  | .array [], _, _ => rfl
  | .array (_ :: _), _, _ => rfl
  | .object [], _, _ => rfl
  | .object ((_, _) :: _), _, _ => rfl
  | .number n, hn, rest => by
    have hn : n.IsFinite := hn
    obtain ⟨c, cs, hc⟩ := List.exists_cons_of_ne_nil (Number.render_ne_nil hn)
    have hnumeral : isNumeralChar c := Number.isNumeralChar_of_mem_render hn c (by simp [hc])
    simp [write, hc, openedBy, hnumeral, opening]

/-- Values that begin with the same character. -/
inductive SameKind : Json → Json → Prop where
  | null : SameKind .null .null
  | bool (b : Bool) : SameKind (.bool b) (.bool b)
  | number (m n : Number) : SameKind (.number m) (.number n)
  | string (s t : String) : SameKind (.string s) (.string t)
  | array (xs ys : List Json) : SameKind (.array xs) (.array ys)
  | object (ms ns : List (String × Json)) : SameKind (.object ms) (.object ns)

theorem sameKind_of_opening {v w : Json} (h : v.opening = w.opening) : SameKind v w := by
  rcases v with _ | (_ | _) | _ | _ | _ | _ <;> rcases w with _ | (_ | _) | _ | _ | _ | _ <;>
    first
      | constructor
      | simp [opening] at h

/-- One text in front of other text is of values of one kind. -/
theorem sameKind_of_write {v w : Json} {r₁ r₂ : List Char} (hv : v.IsFinite) (hw : w.IsFinite)
    (h : v.write r₁ = w.write r₂) : SameKind v w := by
  have hhead := write_head hv r₁
  rw [h, write_head hw r₂] at hhead
  exact sameKind_of_opening (Option.some.inj hhead).symm

theorem write_ne_bracket {v : Json} (hv : v.IsFinite) (rest tail : List Char) :
    v.write rest ≠ ']' :: tail := by
  intro h
  have hhead := write_head hv rest
  rw [h] at hhead
  have hopen : v.opening = ']' := (Option.some.inj hhead).symm
  rcases v with _ | (_ | _) | _ | _ | _ | _ <;> simp [opening] at hopen

/-! ### What stands behind a value -/

/-- What may stand behind a value: nothing, a comma or a closing bracket. -/
inductive Ends : List Char → Prop where
  | nil : Ends []
  | comma (tail : List Char) : Ends (',' :: tail)
  | bracket (tail : List Char) : Ends (']' :: tail)
  | brace (tail : List Char) : Ends ('\x7d' :: tail)

/-- None of them goes on with a character of numerals. -/
theorem Ends.stops {rest : List Char} (h : Ends rest) : Stops isNumeralChar rest := by
  cases h with
  | nil => exact stops_nil _
  | comma | bracket | brace =>
    rintro c ⟨⟩
    decide

theorem ends_writeItems (xs : List Json) (rest : List Char) : Ends (writeItems xs rest) := by
  cases xs with
  | nil => exact .bracket rest
  | cons x xs => exact .comma _

theorem ends_writeMembers (ms : List (String × Json)) (rest : List Char) : Ends (writeMembers ms rest) := by
  rcases ms with _ | ⟨⟨k, v⟩, ms⟩
  · exact .brace rest
  · exact .comma _

/-! ### Unique reading -/

mutual

/-- **A value in front of other text has one reading.** -/
theorem write_inj : ∀ {v w : Json} {r₁ r₂ : List Char}, v.IsFinite → w.IsFinite →
    Ends r₁ → Ends r₂ → v.write r₁ = w.write r₂ → v = w ∧ r₁ = r₂
  | .null, _, _, _, hv, hw, _, _, h => by
    cases sameKind_of_write hv hw h
    simpa [write] using h
  | .bool true, _, _, _, hv, hw, _, _, h => by
    cases sameKind_of_write hv hw h
    simpa [write] using h
  | .bool false, _, _, _, hv, hw, _, _, h => by
    cases sameKind_of_write hv hw h
    simpa [write] using h
  | .number _, _, _, _, hv, hw, h₁, h₂, h => by
    cases sameKind_of_write hv hw h
    obtain ⟨rfl, hrest⟩ := Number.render_append_inj hv hw h₁.stops h₂.stops h
    exact ⟨rfl, hrest⟩
  | .string _, _, _, _, hv, hw, _, _, h => by
    cases sameKind_of_write hv hw h
    obtain ⟨rfl, hrest⟩ := json_append_inj h
    exact ⟨rfl, hrest⟩
  | .array [], _, r₁, _, hv, hw, _, _, h => by
    cases sameKind_of_write hv hw h with
    | array _ ys =>
      match ys with
      | [] => exact ⟨rfl, (List.cons.inj (List.cons.inj h).2).2⟩
      | _ :: _ => exact absurd (List.cons.inj h).2.symm (write_ne_bracket hw.1 _ r₁)
  | .array (_ :: xs), _, _, r₂, hv, hw, _, _, h => by
    cases sameKind_of_write hv hw h with
    | array _ ys =>
      match ys with
      | [] => exact absurd (List.cons.inj h).2 (write_ne_bracket hv.1 _ r₂)
      | _ :: ys =>
        obtain ⟨rfl, hitems⟩ := write_inj hv.1 hw.1 (ends_writeItems xs _) (ends_writeItems ys _)
          (List.cons.inj h).2
        obtain ⟨rfl, hrest⟩ := writeItems_inj hv.2 hw.2 hitems
        exact ⟨rfl, hrest⟩
  | .object [], _, _, _, hv, hw, _, _, h => by
    cases sameKind_of_write hv hw h with
    | object _ ns =>
      match ns with
      | [] => exact ⟨rfl, (List.cons.inj (List.cons.inj h).2).2⟩
      | (_, _) :: _ => exact absurd (List.cons.inj (List.cons.inj h).2).1 (by decide)
  | .object ((_, _) :: ms), _, _, _, hv, hw, _, _, h => by
    cases sameKind_of_write hv hw h with
    | object _ ns =>
      match ns with
      | [] => exact absurd (List.cons.inj (List.cons.inj h).2).1 (by decide)
      | (_, _) :: ns =>
        obtain ⟨rfl, hvalue⟩ := json_append_inj (List.cons.inj h).2
        obtain ⟨rfl, hmembers⟩ := write_inj hv.1 hw.1 (ends_writeMembers ms _)
          (ends_writeMembers ns _) (List.cons.inj hvalue).2
        obtain ⟨rfl, hrest⟩ := writeMembers_inj hv.2 hw.2 hmembers
        exact ⟨rfl, hrest⟩

theorem writeItems_inj : ∀ {xs ys : List Json} {r₁ r₂ : List Char}, ItemsFinite xs → ItemsFinite ys →
    writeItems xs r₁ = writeItems ys r₂ → xs = ys ∧ r₁ = r₂
  | [], [], _, _, _, _, h => ⟨rfl, (List.cons.inj h).2⟩
  | [], _ :: _, _, _, _, _, h => absurd (List.cons.inj h).1 (by decide)
  | _ :: _, [], _, _, _, _, h => absurd (List.cons.inj h).1 (by decide)
  | _ :: xs, _ :: ys, _, _, hx, hy, h => by
    obtain ⟨rfl, hitems⟩ := write_inj hx.1 hy.1 (ends_writeItems xs _) (ends_writeItems ys _)
      (List.cons.inj h).2
    obtain ⟨rfl, hrest⟩ := writeItems_inj hx.2 hy.2 hitems
    exact ⟨rfl, hrest⟩

theorem writeMembers_inj : ∀ {ms ns : List (String × Json)} {r₁ r₂ : List Char}, MembersFinite ms →
    MembersFinite ns → writeMembers ms r₁ = writeMembers ns r₂ → ms = ns ∧ r₁ = r₂
  | [], [], _, _, _, _, h => ⟨rfl, (List.cons.inj h).2⟩
  | [], (_, _) :: _, _, _, _, _, h => absurd (List.cons.inj h).1 (by decide)
  | (_, _) :: _, [], _, _, _, _, h => absurd (List.cons.inj h).1 (by decide)
  | (_, _) :: ms, (_, _) :: ns, _, _, hm, hn, h => by
    obtain ⟨rfl, hvalue⟩ := json_append_inj (List.cons.inj h).2
    obtain ⟨rfl, hmembers⟩ := write_inj hm.1 hn.1 (ends_writeMembers ms _) (ends_writeMembers ns _)
      (List.cons.inj hvalue).2
    obtain ⟨rfl, hrest⟩ := writeMembers_inj hm.2 hn.2 hmembers
    exact ⟨rfl, hrest⟩

end

/-- **Values of one compact text are one value.** -/
theorem text_injective {v w : Json} (hv : v.IsFinite) (hw : w.IsFinite) (h : v.text = w.text) :
    v = w := by
  have hrender : v.write [] = w.write [] := String.ofList_injective h
  exact (write_inj hv hw .nil .nil hrender).1

end TemplateLinker.Json
