import TemplateLinker.Proofs.Decimal.Shortest

/-!
# Proofs.Decimal.Numeral — the text of a finite number reads back

Both layouts of `render` are numerals of the same value (`unsigned?_positional`,
`unsigned?_scientific`), zero being the digit `0` in positional notation.  So `parse?` undoes `render`
(`parse?_render`), and finite numbers never share their text.
-/

namespace TemplateLinker.Binary64

/-! ### Runs of digits -/

theorem naturalOf_append_zeros (ds : List Char) (k : ℕ) :
    naturalOf (ds ++ List.replicate k '0') = naturalOf ds * 10 ^ k := by
  rw [mul_comm]
  show Nat.ofDigitChars 10 _ 0 = 10 ^ k * Nat.ofDigitChars 10 ds 0
  rw [Nat.ofDigitChars_append, Nat.ofDigitChars_replicate_zero]

theorem naturalOf_zeros_append (k : ℕ) (ds : List Char) :
    naturalOf (List.replicate k '0' ++ ds) = naturalOf ds := by
  show Nat.ofDigitChars 10 _ 0 = Nat.ofDigitChars 10 ds 0
  rw [Nat.ofDigitChars_append, Nat.ofDigitChars_replicate_zero, Nat.mul_zero]

theorem naturalOf_toDigits (n : ℕ) : naturalOf (Nat.toDigits 10 n) = n :=
  Nat.ofDigitChars_ten_toDigits

theorem isDigit_of_mem_toDigits {n : ℕ} {c : Char} (h : c ∈ Nat.toDigits 10 n) : c.isDigit :=
  Nat.isDigit_of_mem_toDigits (by omega) (by omega) h

theorem isDigit_of_mem_zeros {k : ℕ} {c : Char} (h : c ∈ List.replicate k '0') : c.isDigit := by
  rw [List.eq_of_mem_replicate h]
  decide

/-- The zeros at the end of a run of digits stand behind what `trimZeros` leaves. -/
theorem trimZeros_append (ds : List Char) :
    ∃ k, ds = trimZeros ds ++ List.replicate k '0' := by
  refine ⟨(ds.reverse.takeWhile (· == '0')).length, ?_⟩
  have hzeros : ds.reverse.takeWhile (· == '0') =
      List.replicate (ds.reverse.takeWhile (· == '0')).length '0' :=
    List.eq_replicate_iff.mpr ⟨rfl, fun c hc =>
      eq_of_beq (List.all_eq_true.mp (List.all_takeWhile (p := (· == '0')) (l := ds.reverse)) c hc)⟩
  have hsplit := congrArg List.reverse
    (List.takeWhile_append_dropWhile (p := (· == '0')) (l := ds.reverse))
  rw [List.reverse_append, List.reverse_reverse, hzeros, List.reverse_replicate] at hsplit
  exact hsplit.symm

/-! ### Reading a numeral -/

/-- A text that does not go on with such a character. -/
def Stops (p : Char → Bool) (s : List Char) : Prop := ∀ c ∈ s.head?, p c = false

theorem stops_nil (p : Char → Bool) : Stops p [] := by
  rintro c ⟨⟩

theorem span_run {p : Char → Bool} {run rest : List Char} (hrun : ∀ c ∈ run, p c)
    (hrest : Stops p rest) :
    (run ++ rest).takeWhile p = run ∧ (run ++ rest).dropWhile p = rest := by
  rw [List.takeWhile_append_of_pos hrun, List.dropWhile_append_of_pos hrun]
  cases rest with
  | nil => simp
  | cons c cs =>
    have hc : p c = false := hrest c rfl
    simp [hc]

/-- A numeral without a point. -/
theorem unsigned?_whole (negative : Bool) {whole tail : List Char} (hwhole : ∀ c ∈ whole, c.isDigit)
    (hne : whole ≠ []) (htail : Stops Char.isDigit tail) (hpoint : tail.head? ≠ some '.') :
    unsigned? negative (whole ++ tail) = (exponentOf? tail).map fun e =>
      ofRat negative (naturalOf whole * (10 : ℚ) ^ e) := by
  obtain ⟨htake, hdrop⟩ := span_run hwhole htail
  unfold unsigned?
  dsimp only
  rw [htake, hdrop]
  split
  · exact absurd rfl hpoint
  · rw [if_neg (by simp [hne])]
    simp [nearest_eq_ofDecimal, ofDecimal_eq_ofRat, Decimal.value]

/-- A numeral with a point. -/
theorem unsigned?_point (negative : Bool) {whole fraction tail : List Char}
    (hwhole : ∀ c ∈ whole, c.isDigit) (hne : whole ≠ []) (hfraction : ∀ c ∈ fraction, c.isDigit)
    (htail : Stops Char.isDigit tail) :
    unsigned? negative (whole ++ '.' :: (fraction ++ tail)) = (exponentOf? tail).map fun e =>
      ofRat negative (naturalOf (whole ++ fraction) * (10 : ℚ) ^ (e - (fraction.length : ℤ))) := by
  have hpoint : Stops Char.isDigit ('.' :: (fraction ++ tail)) := by
    rintro c ⟨⟩
    decide
  obtain ⟨htake, hdrop⟩ := span_run hwhole hpoint
  obtain ⟨htake', hdrop'⟩ := span_run hfraction htail
  unfold unsigned?
  dsimp only
  rw [htake, hdrop]
  split
  · rename_i r hr
    cases hr
    rw [htake', hdrop', if_neg (by simp [hne])]
    simp [nearest_eq_ofDecimal, ofDecimal_eq_ofRat, Decimal.value]
  · rename_i hno
    exact absurd rfl (hno _)

/-- A numeral with a point and no exponent. -/
theorem unsigned?_fixed (negative : Bool) {whole fraction : List Char}
    (hwhole : ∀ c ∈ whole, c.isDigit) (hne : whole ≠ []) (hfraction : ∀ c ∈ fraction, c.isDigit) :
    unsigned? negative (whole ++ '.' :: fraction) =
      some (ofRat negative (naturalOf (whole ++ fraction) * (10 : ℚ) ^ (-(fraction.length : ℤ)))) := by
  have hread := unsigned?_point negative hwhole hne hfraction (stops_nil _)
  rw [List.append_nil] at hread
  rw [hread, exponentOf?, Option.map_some, zero_sub]

/-- The exponent of scientific notation. -/
def exponentText (lead : ℤ) : List Char :=
  'e' :: (if lead < 0 then '-' else '+') :: Nat.toDigits 10 lead.natAbs

theorem exponentOf?_exponentText (lead : ℤ) : exponentOf? (exponentText lead) = some lead := by
  have hall : (Nat.toDigits 10 lead.natAbs).all Char.isDigit = true :=
    List.all_eq_true.mpr fun c hc => isDigit_of_mem_toDigits hc
  unfold exponentOf? exponentText
  by_cases hlead : lead < 0
  · simp [hlead, hall, naturalOf_toDigits, abs_of_neg hlead]
  · simp [hlead, hall, naturalOf_toDigits, abs_of_nonneg (not_lt.mp hlead)]

/-- A character that numerals are made of. -/
def isNumeralChar (c : Char) : Bool := c.isDigit || ['.', 'e', '+', '-'].contains c

theorem isNumeralChar_of_isDigit {c : Char} (h : c.isDigit) : isNumeralChar c := by
  simp [isNumeralChar, h]

/-! ### The layouts -/

section Layouts

variable (negative : Bool) {digits : List Char} (hdigits : ∀ c ∈ digits, c.isDigit) (hne : digits ≠ [])

include hdigits hne

/-- Positional notation keeps the value. -/
theorem unsigned?_positional (lead : ℤ) : unsigned? negative (positional digits lead) =
    some (ofRat negative (naturalOf digits * (10 : ℚ) ^ (lead + 1 - (digits.length : ℤ)))) := by
  unfold positional
  dsimp only
  split_ifs with hlead hshort
  · -- zeros before the digits
    generalize hz : (-lead - 1).toNat = z
    have hfraction : ∀ c ∈ List.replicate z '0' ++ digits, c.isDigit := fun c hc =>
      (List.mem_append.mp hc).elim isDigit_of_mem_zeros (hdigits c)
    have hread := unsigned?_fixed negative (fun _ => isDigit_of_mem_zeros (k := 1)) (by simp) hfraction
    have hnat : naturalOf (List.replicate 1 '0' ++ (List.replicate z '0' ++ digits)) =
        naturalOf digits := naturalOf_zeros_append (z + 1) digits
    have hexp : -((List.replicate z '0' ++ digits).length : ℤ) = lead + 1 - digits.length := by
      rw [List.length_append, List.length_replicate]
      omega
    rw [hnat, hexp] at hread
    exact hread
  · -- zeros behind the digits
    generalize hz : lead.toNat + 1 - digits.length = z
    have hwhole : ∀ c ∈ digits ++ List.replicate z '0', c.isDigit := fun c hc =>
      (List.mem_append.mp hc).elim (hdigits c) isDigit_of_mem_zeros
    have hread := unsigned?_fixed negative hwhole (by simp [hne]) (fun _ => isDigit_of_mem_zeros (k := 1))
    have hnat : naturalOf (digits ++ List.replicate z '0' ++ List.replicate 1 '0') =
        naturalOf digits * 10 ^ (z + 1) := by
      rw [List.append_assoc, List.replicate_append_replicate, naturalOf_append_zeros]
    have hexp : lead + 1 - digits.length = (z + 1 : ℕ) + -((List.replicate 1 '0').length : ℤ) := by
      rw [List.length_replicate]
      omega
    rw [hexp, zpow_add₀ (by norm_num), zpow_natCast, ← mul_assoc]
    rw [hnat] at hread
    push_cast at hread ⊢
    exact hread
  · -- a point between the digits
    have htake : ∀ c ∈ digits.take (lead.toNat + 1), c.isDigit := fun c hc =>
      hdigits c (List.mem_of_mem_take hc)
    have hdrop : ∀ c ∈ digits.drop (lead.toNat + 1), c.isDigit := fun c hc =>
      hdigits c (List.mem_of_mem_drop hc)
    have hread := unsigned?_fixed negative htake (by simp [hne]) hdrop
    have hexp : -((digits.drop (lead.toNat + 1)).length : ℤ) = lead + 1 - digits.length := by
      rw [List.length_drop]
      omega
    rw [List.take_append_drop, hexp] at hread
    rw [List.append_assoc]
    exact hread

/-- Scientific notation keeps the value. -/
theorem unsigned?_scientific (lead : ℤ) : unsigned? negative (scientific digits lead) =
    some (ofRat negative (naturalOf digits * (10 : ℚ) ^ (lead + 1 - (digits.length : ℤ)))) := by
  have htail : Stops Char.isDigit (exponentText lead) := by
    rintro c ⟨⟩
    decide
  unfold scientific
  match digits, hne, hdigits with
  | [d], _, hdigits =>
    have hread := unsigned?_whole negative hdigits (by simp) htail (by simp [exponentText])
    rw [exponentOf?_exponentText, Option.map_some] at hread
    simpa [exponentText] using hread
  | d :: e :: rest, _, hdigits =>
    obtain ⟨hd, hrest⟩ := List.forall_mem_cons.mp hdigits
    have hwhole : ∀ c ∈ [d], c.isDigit := by simpa using hd
    have hread := unsigned?_point negative hwhole (by simp) hrest htail
    have hexp : lead - ((e :: rest).length : ℤ) = lead + 1 - ((d :: e :: rest).length : ℤ) := by
      simp only [List.length_cons]
      omega
    rw [exponentOf?_exponentText, Option.map_some, hexp] at hread
    simpa [exponentText] using hread

omit hne in
theorem isNumeralChar_of_mem_positional {lead : ℤ} {c : Char} (hc : c ∈ positional digits lead) :
    isNumeralChar c := by
  have hdigit : c ∈ digits → isNumeralChar c := fun h => isNumeralChar_of_isDigit (hdigits c h)
  have hzero : ∀ k, c ∈ List.replicate k '0' → isNumeralChar c := fun _ h =>
    isNumeralChar_of_isDigit (isDigit_of_mem_zeros h)
  have hconst : c = '0' ∨ c = '.' → isNumeralChar c := by
    rintro (rfl | rfl) <;> decide
  unfold positional at hc
  dsimp only at hc
  split_ifs at hc
  · simp only [List.mem_append, List.mem_cons, List.not_mem_nil, or_false] at hc
    rcases hc with (h | h) | h
    exacts [hconst h, hzero _ h, hdigit h]
  · simp only [List.mem_append, List.mem_cons, List.not_mem_nil, or_false] at hc
    rcases hc with (h | h) | h
    exacts [hdigit h, hzero _ h, hconst h.symm]
  · simp only [List.mem_append, List.mem_cons, List.not_mem_nil, or_false] at hc
    rcases hc with (h | h) | h
    exacts [hdigit (List.mem_of_mem_take h), hconst (.inr h), hdigit (List.mem_of_mem_drop h)]

omit hne in
theorem isNumeralChar_of_mem_scientific {lead : ℤ} {c : Char} (hc : c ∈ scientific digits lead) :
    isNumeralChar c := by
  have hdigit : c ∈ digits → isNumeralChar c := fun h => isNumeralChar_of_isDigit (hdigits c h)
  have hsign : c = 'e' ∨ c = (if lead < 0 then '-' else '+') → isNumeralChar c := by
    rintro (rfl | rfl)
    · decide
    · split <;> decide
  unfold scientific at hc
  rw [List.mem_append, List.mem_append] at hc
  rcases hc with (h | h) | h
  · split at h
    · rcases List.mem_cons.mp h with rfl | h
      · exact hdigit (by simp)
      · rcases List.mem_cons.mp h with rfl | h
        · decide
        · exact hdigit (List.mem_cons_of_mem _ h)
    · exact hdigit h
  · exact hsign (by simpa using h)
  · exact isNumeralChar_of_isDigit (isDigit_of_mem_toDigits h)

theorem positional_head (lead : ℤ) :
    ∃ c cs, positional digits lead = c :: cs ∧ c.isDigit := by
  obtain ⟨d, ds, rfl⟩ := List.exists_cons_of_ne_nil hne
  have hd := hdigits d (by simp)
  unfold positional
  dsimp only
  split_ifs
  · exact ⟨'0', _, rfl, by decide⟩
  · exact ⟨d, _, rfl, hd⟩
  · exact ⟨d, _, rfl, hd⟩

theorem scientific_head (lead : ℤ) :
    ∃ c cs, scientific digits lead = c :: cs ∧ c.isDigit := by
  unfold scientific
  match digits, hne, hdigits with
  | [d], _, hdigits => exact ⟨d, _, rfl, hdigits d (by simp)⟩
  | d :: e :: rest, _, hdigits => exact ⟨d, _, rfl, hdigits d (by simp)⟩

end Layouts

theorem point_mem_positional (digits : List Char) (lead : ℤ) : '.' ∈ positional digits lead := by
  unfold positional
  dsimp only
  split_ifs <;> simp

theorem e_mem_scientific (digits : List Char) (lead : ℤ) : 'e' ∈ scientific digits lead := by
  simp [scientific]

/-! ### The text of a number -/

/-- The digits and the leading exponent that `x` is written by. -/
structure Written (x : Binary64) (digits : List Char) (lead : ℤ) : Prop where
  isDigit : ∀ c ∈ digits, c.isDigit
  ne_nil : digits ≠ []
  text : x.renderMagnitude = positional digits lead ∨ x.renderMagnitude = scientific digits lead
  value : ofRat x.negative (naturalOf digits * (10 : ℚ) ^ (lead + 1 - (digits.length : ℤ))) = x

theorem written_of_zero {x : Binary64} (hx : x.isFinite) (hs : x.significand = 0) :
    Written x ['0'] 0 where
  isDigit c hc := by
    rw [List.mem_singleton.mp hc]
    decide
  ne_nil := by simp
  text := .inl (by simp [renderMagnitude, hs, positional])
  value := by
    have hsize : x.size = 0 := by simp [size, hs]
    have hself := ofRat_size x hx
    rw [hsize] at hself
    have hnat : naturalOf ['0'] = 0 := rfl
    simpa [hnat] using hself

theorem written_of_ne_zero {x : Binary64} (hx : x.isFinite) (hs : x.significand ≠ 0) :
    ∃ digits lead, Written x digits lead := by
  have hback := ofDecimal_shortest x hx
  rw [ofDecimal_eq_ofRat] at hback
  obtain ⟨k, hk⟩ := trimZeros_append (Nat.toDigits 10 x.shortest.digits)
  have hnat := naturalOf_append_zeros (trimZeros (Nat.toDigits 10 x.shortest.digits)) k
  have hlen := congrArg List.length hk
  rw [← hk, naturalOf_toDigits] at hnat
  rw [List.length_append, List.length_replicate] at hlen
  refine ⟨trimZeros (Nat.toDigits 10 x.shortest.digits),
    x.shortest.exponent + (Nat.toDigits 10 x.shortest.digits).length - 1, ?_, ?_, ?_, ?_⟩
  · intro c hc
    refine isDigit_of_mem_toDigits (n := x.shortest.digits) ?_
    rw [hk]
    exact List.mem_append_left _ hc
  · -- without digits the number would be zero
    intro hnil
    rw [hnil, show naturalOf [] = 0 from rfl, Nat.zero_mul] at hnat
    rw [Decimal.value, hnat, Nat.cast_zero, zero_mul, ofRat, if_pos rfl] at hback
    refine hs ((significand_eq_zero_iff x).mpr ?_)
    rw [← hback]
    rfl
  · unfold renderMagnitude
    rw [if_neg hs]
    dsimp only
    split_ifs
    · exact .inl rfl
    · exact .inr rfl
  · have hexp : x.shortest.exponent + (Nat.toDigits 10 x.shortest.digits).length - 1 + 1 -
        (trimZeros (Nat.toDigits 10 x.shortest.digits)).length = k + x.shortest.exponent := by
      omega
    rw [hexp, zpow_add₀ (by norm_num), zpow_natCast, ← mul_assoc]
    rw [Decimal.value, hnat] at hback
    push_cast at hback
    exact hback

theorem exists_written {x : Binary64} (hx : x.isFinite) : ∃ digits lead, Written x digits lead := by
  by_cases hs : x.significand = 0
  · exact ⟨_, _, written_of_zero hx hs⟩
  · exact written_of_ne_zero hx hs

namespace Written

variable {x : Binary64} {digits : List Char} {lead : ℤ} (h : Written x digits lead)

include h

theorem unsigned? : unsigned? x.negative x.renderMagnitude = some x := by
  rcases h.text with ht | ht
  · rw [ht, unsigned?_positional _ h.isDigit h.ne_nil, h.value]
  · rw [ht, unsigned?_scientific _ h.isDigit h.ne_nil, h.value]

theorem head : ∃ c cs, x.renderMagnitude = c :: cs ∧ c.isDigit := by
  rcases h.text with ht | ht
  · rw [ht]
    exact positional_head h.isDigit h.ne_nil lead
  · rw [ht]
    exact scientific_head h.isDigit h.ne_nil lead

end Written

theorem parse?_of_digit {c : Char} (cs : List Char) (hc : c.isDigit) :
    parse? (c :: cs) = unsigned? false (c :: cs) := by
  unfold parse?
  split
  case h_6 => rfl
  all_goals
    rename_i heq
    cases heq
    exact absurd hc (by decide)

theorem parse?_of_minus {c : Char} (cs : List Char) (hc : c.isDigit) :
    parse? ('-' :: c :: cs) = unsigned? true (c :: cs) := by
  unfold parse?
  split
  case h_3 heq =>
    cases heq
    exact absurd hc (by decide)
  case h_4 heq =>
    cases heq
    rfl
  case h_6 hminus _ => exact absurd rfl (hminus _)
  all_goals
    rename_i heq
    exact absurd heq (by simp)

/-- **The text of a finite number reads back.** -/
theorem parse?_render {x : Binary64} (hx : x.isFinite) : parse? x.render = some x := by
  obtain ⟨digits, lead, hw⟩ := exists_written hx
  obtain ⟨c, cs, htext, hc⟩ := hw.head
  have hread := hw.unsigned?
  rw [htext] at hread
  unfold render
  rw [htext]
  cases hsign : x.negative <;> rw [hsign] at hread
  · rw [if_neg (by simp), parse?_of_digit cs hc, hread]
  · rw [if_pos rfl, parse?_of_minus cs hc, hread]

/-- Finite numbers with one text are one number. -/
theorem render_injective {x y : Binary64} (hx : x.isFinite) (hy : y.isFinite)
    (h : x.render = y.render) : x = y := by
  have := parse?_render hx
  rw [h, parse?_render hy] at this
  exact (Option.some.inj this).symm

/-! ### What tells the text of a number from other text -/

theorem isNumeralChar_of_mem_render {x : Binary64} (hx : x.isFinite) {c : Char} (hc : c ∈ x.render) :
    isNumeralChar c := by
  obtain ⟨digits, lead, hw⟩ := exists_written hx
  have hmagnitude : c ∈ x.renderMagnitude → isNumeralChar c := fun h => by
    rcases hw.text with ht | ht <;> rw [ht] at h
    · exact isNumeralChar_of_mem_positional hw.isDigit h
    · exact isNumeralChar_of_mem_scientific hw.isDigit h
  unfold render at hc
  split at hc
  · rcases List.mem_cons.mp hc with rfl | h
    · decide
    · exact hmagnitude h
  · exact hmagnitude hc

/-- A point or an exponent tells a double-precision number from an integer. -/
theorem exists_mem_render {x : Binary64} (hx : x.isFinite) : '.' ∈ x.render ∨ 'e' ∈ x.render := by
  obtain ⟨digits, lead, hw⟩ := exists_written hx
  have hmem : ∀ c ∈ x.renderMagnitude, c ∈ x.render := fun c hc => by
    unfold render
    split
    · exact List.mem_cons_of_mem _ hc
    · exact hc
  rcases hw.text with ht | ht
  · refine .inl (hmem _ ?_)
    rw [ht]
    exact point_mem_positional digits lead
  · refine .inr (hmem _ ?_)
    rw [ht]
    exact e_mem_scientific digits lead

end TemplateLinker.Binary64
