import TemplateLinker.Json.Reader
import TemplateLinker.Proofs.Json.UniqueReading

/-!
# Proofs.Json.Integers — integers of 64 bits read back

A natural number is written without a zero in front (`head?_toDigits_ne_zero`), and below the limit of
significands its digits are absorbed one after another until they come to it (`absorb_toDigits`).  So an
integer from `-2 ^ 63` to `2 ^ 64 - 1` is read back from its text in front of whatever may stand behind a
value (`scalar?_integerText`).
-/

namespace TemplateLinker.Json

open Binary64 (Stops isNumeralChar span_run digitValue naturalOf naturalOf_toDigits isDigit_of_mem_toDigits)

/-- The integers that are kept exactly. -/
def IsExact (n : ℤ) : Prop := -2 ^ 63 ≤ n ∧ n < 2 ^ 64

instance (n : ℤ) : Decidable (IsExact n) := inferInstanceAs (Decidable (_ ∧ _))

/-! ### Digits -/

theorem digitChar_ne_zero : ∀ n < 10, 0 < n → Nat.digitChar n ≠ '0' := by
  decide

/-- No number but zero is written with a zero in front. -/
theorem head?_toDigits_ne_zero (n : ℕ) (h : 0 < n) : (Nat.toDigits 10 n).head? ≠ some '0' := by
  induction n using Nat.strongRecOn with
  | ind n ih =>
    by_cases hn : n < 10
    · rw [Nat.toDigits_of_lt_base hn, List.head?_cons, Option.some_inj.ne]
      exact digitChar_ne_zero n hn h
    · rw [Nat.toDigits_of_base_le (by omega) (Nat.le_of_not_lt hn),
        List.head?_append_of_ne_nil _ Nat.toDigits_ne_nil]
      exact ih (n / 10) (by omega) (by omega)

theorem le_foldl_digits (ds : List Char) (n : ℕ) : n ≤ ds.foldl (fun n c => 10 * n + digitValue c) n := by
  induction ds generalizing n with
  | nil => exact Nat.le_refl n
  | cons d ds ih => exact Nat.le_trans (by omega) (ih (10 * n + digitValue d))

/-- Digits are absorbed as long as what they come to is in range. -/
theorem absorb_eq_foldl {ds : List Char} {n : ℕ}
    (h : ds.foldl (fun n c => 10 * n + digitValue c) n < significandLimit) :
    absorb n ds = (ds.foldl (fun n c => 10 * n + digitValue c) n, 0) := by
  induction ds generalizing n with
  | nil => rfl
  | cons d ds ih =>
    have hnext : 10 * n + digitValue d < significandLimit := Nat.lt_of_le_of_lt (le_foldl_digits ds _) h
    rw [absorb, if_pos hnext]
    exact ih h

theorem absorb_toDigits {n : ℕ} (h : n < significandLimit) : absorb 0 (Nat.toDigits 10 n) = (n, 0) := by
  have hvalue : (Nat.toDigits 10 n).foldl (fun n c => 10 * n + digitValue c) 0 = n := naturalOf_toDigits n
  have habsorb : absorb 0 (Nat.toDigits 10 n) = _ := absorb_eq_foldl (hvalue.symm ▸ h)
  rwa [hvalue] at habsorb

/-! ### Numbers -/

theorem Ends.isDigit_stops {rest : List Char} (h : Ends rest) : Stops Char.isDigit rest := fun c hc => by
  have hnumeral : isNumeralChar c = false := h.stops c hc
  exact (Bool.or_eq_false_iff.1 hnumeral).1

theorem Ends.continues_eq_false {rest : List Char} (h : Ends rest) : continues rest = false := by
  cases h <;> rfl

/-- The digits of a natural number are read as a number without fraction and exponent. -/
theorem numberBody_toDigits (negative : Bool) {n : ℕ} (hn : n < significandLimit) {rest : List Char}
    (hrest : Ends rest) :
    numberBody negative (Nat.toDigits 10 n ++ rest) = (wholeNumber negative n 0).map fun x => (x, rest) := by
  have hdigits : ∀ c ∈ Nat.toDigits 10 n, c.isDigit := fun c hc => isDigit_of_mem_toDigits hc
  obtain ⟨htake, hdrop⟩ := span_run hdigits hrest.isDigit_stops
  unfold numberBody
  rw [htake, hdrop]
  split
  · next h => exact absurd h Nat.toDigits_ne_nil
  · next h => exact absurd h Nat.toDigits_ne_nil
  · next h =>
    -- two digits or more: not the number zero, which has one
    rcases Nat.eq_zero_or_pos n with rfl | hpos
    · cases h
    · exact absurd (congrArg List.head? h) (head?_toDigits_ne_zero n hpos)
  · rw [absorb_toDigits hn, hrest.continues_eq_false]
    rfl

theorem wholeNumber_neg {n : ℕ} (hpos : 0 < n) (hn : n ≤ 2 ^ 63) :
    wholeNumber true n 0 = .ok (.integer (-n)) := by
  have hrange : 0 < n ∧ n ≤ 0x8000000000000000 := ⟨hpos, hn⟩
  unfold wholeNumber
  rw [if_neg (by decide), if_neg (by decide), if_pos hrange]

theorem ne_of_isDigit {c d : Char} (hc : c.isDigit) (hd : d.isDigit = false) : c ≠ d := by
  rintro rfl
  rw [hd] at hc
  cases hc

theorem isBlank_of_isDigit {c : Char} (hc : c.isDigit) : isBlank c = false := by
  have hne : ∀ d : Char, d.isDigit = false → (c == d) = false := fun d hd =>
    beq_false_of_ne (ne_of_isDigit hc hd)
  simp only [isBlank, hne ' ' rfl, hne '\n' rfl, hne '\r' rfl, hne '\t' rfl, Bool.or_self]

theorem scalar?_of_isDigit {c : Char} (hc : c.isDigit) (cs : List Char) :
    scalar? c cs = some ((numberBody false (c :: cs)).map fun (n, rest) => (.number n, rest)) := by
  have hne : ∀ d : Char, d.isDigit = false → c ≠ d := fun d hd => ne_of_isDigit hc hd
  unfold scalar?
  rw [if_neg (hne 'n' rfl), if_neg (hne 't' rfl), if_neg (hne 'f' rfl), if_neg (hne '-' rfl), if_pos hc]

/-- **An integer of 64 bits reads back.** -/
theorem scalar?_integerText {n : ℤ} (hn : IsExact n) {rest : List Char} (hrest : Ends rest) :
    ∃ c cs, integerText n ++ rest = c :: cs ∧ isBlank c = false ∧
      scalar? c cs = some (.ok (.integer n, rest)) := by
  obtain ⟨hlow, hhigh⟩ := hn
  have hlimit : n.natAbs < significandLimit := by
    unfold significandLimit
    omega
  unfold integerText
  by_cases hneg : n < 0
  · rw [if_pos hneg]
    refine ⟨'-', Nat.toDigits 10 n.natAbs ++ rest, rfl, by decide, ?_⟩
    have hread : scalar? '-' (Nat.toDigits 10 n.natAbs ++ rest) =
        some ((numberBody true (Nat.toDigits 10 n.natAbs ++ rest)).map fun (n, rest) => (.number n, rest)) :=
      rfl
    have hvalue : -(n.natAbs : ℤ) = n := by omega
    rw [hread, numberBody_toDigits true hlimit hrest, wholeNumber_neg (by omega) (by omega), hvalue]
    rfl
  · rw [if_neg hneg]
    obtain ⟨d, ds, hdigits⟩ := List.exists_cons_of_ne_nil (Nat.toDigits_ne_nil (n := n.natAbs) (b := 10))
    have hd : d.isDigit := isDigit_of_mem_toDigits (hdigits ▸ List.mem_cons_self)
    have hvalue : (n.natAbs : ℤ) = n := by omega
    have hbody := numberBody_toDigits false hlimit hrest
    have hwhole : wholeNumber false n.natAbs 0 = .ok (.integer n.natAbs) := rfl
    rw [hdigits, List.cons_append, hwhole, hvalue] at hbody
    refine ⟨d, ds ++ rest, by rw [hdigits, List.cons_append], isBlank_of_isDigit hd, ?_⟩
    rw [scalar?_of_isDigit hd, hbody]
    rfl

end TemplateLinker.Json
