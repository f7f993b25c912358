import TemplateLinker.Proofs.Decimal.Numeral
import TemplateLinker.Proofs.Json.Locality

/-!
# Proofs.Json.LocalReaders — every reader of values takes its value in front of any delimiter

Words and strings mark their own end, so what stands behind them is free; a number goes on as far as its
characters do, but none of them is a delimiter.  Lists, maps and records take what they hold and their closing
bracket: they are local if the readers of what they hold are (`local_list`, `local_map`, `Record.local_reader`).
-/

namespace TemplateLinker.Json

open Binary64 (Stops span_run)

variable {α β : Type} {MayEnd : List Char → Prop}

/-! ### Words and strings -/

theorem takes_expectWord : ∀ word : List Char, Takes MayEnd (expectWord word)
  | [] => .pure ()
  | w :: word => by
    refine (Consumes.of_cons (fun _ h => by cases h) fun c => ?_).takes
    unfold expectWord
    exact .branch (takes_expectWord word) (.error _)

theorem takes_fourHex : Takes MayEnd fourHex := by
  intro cs n rest h
  unfold fourHex at h
  split at h
  · cases h
  · next hlength =>
    split at h
    · next a b c d tail =>
      split at h
      · next hw hx hy hz =>
        cases h
        refine ⟨[a, b, c, d], rfl, fun rest' _ => ?_⟩
        unfold fourHex
        rw [if_neg (show ¬byteLength (([a, b, c, d] ++ rest').take 4) < 4 from hlength)]
        simp only [List.cons_append, List.nil_append, hw, hx, hy, hz]
      · cases h
    · cases h

theorem consumes_stringItem : Consumes MayEnd stringItem := by
  refine .of_cons nofun fun c => ?_
  unfold stringItem
  refine .branch (.pure _) (.branch (Consumes.takes (.of_cons nofun fun e => ?_)) (.branch (.error _) (.pure _)))
  refine .branch (takes_fourHex.map StringItem.unit) ?_
  cases escapedChar? e with
  | none => exact .error _
  | some c => exact .pure _

theorem takes_secondHalf : Takes MayEnd secondHalf := by
  unfold secondHalf
  exact (takes_expectWord _).bind fun _ => takes_fourHex.bind fun _ => .branch (.pure _) (.error _)

theorem takes_unitChar (n : ℕ) : Takes MayEnd (unitChar n) := by
  unfold unitChar
  refine .branch (.error _) (.branch ?_ (.pure _))
  exact takes_secondHalf.map fun m => Char.ofNat (0x10000 + (n - 0xD800) * 0x400 + (m - 0xDC00))

/-- What follows when an element of a string has been read. -/
def stringTurn (acc : List Char) : StringItem → Read (Turn (List Char) (List Char))
  | .close, rest => .ok (.done acc.reverse, rest)
  | .char c, rest => .ok (.next (c :: acc), rest)
  | .unit n, rest => (unitChar n rest).map fun (c, rest) => (.next (c :: acc), rest)

theorem stringStep_eq (acc cs : List Char) :
    stringStep acc cs = stringItem cs >>= fun (item, rest) => stringTurn acc item rest := by
  unfold stringStep
  rcases stringItem cs with _ | ⟨_ | _ | _, _⟩ <;> rfl

theorem consumes_stringStep (acc : List Char) : Consumes MayEnd (stringStep acc) := by
  refine (consumes_stringItem.bind fun item => ?_).congr fun cs x => by rw [stringStep_eq]
  cases item with
  | close => exact .pure _
  | char c => exact .pure _
  | unit n => exact (takes_unitChar n).map fun c => Turn.next (c :: acc)

theorem consumes_stringBody : Consumes MayEnd stringBody :=
  (Consumes.iterate consumes_stringStep []).map String.ofList

/-- What follows when an element of a string has been passed over. -/
def skipTurn : StringItem → Turn Unit Unit
  | .close => .done ()
  | _ => .next ()

theorem consumes_skipStringStep (state : Unit) : Consumes MayEnd (skipStringStep state) := by
  refine (consumes_stringItem.map skipTurn).congr fun cs x => ?_
  unfold skipStringStep
  rcases stringItem cs with _ | ⟨_ | _ | _, _⟩ <;> rfl

theorem consumes_skipString : Consumes MayEnd skipString := .iterate consumes_skipStringStep ()

/-! ### Numbers -/

theorem takes_digits :
    Takes Delimits fun cs => .ok (cs.takeWhile Char.isDigit, cs.dropWhile Char.isDigit) := by
  intro cs ds rest h
  cases h
  have hdigits : ∀ c ∈ cs.takeWhile Char.isDigit, c.isDigit := fun _ hc =>
    List.all_eq_true.1 List.all_takeWhile _ hc
  have hstops : Stops Char.isDigit (cs.dropWhile Char.isDigit) := fun c hc => by
    simpa [Option.mem_def.1 hc] using List.head?_dropWhile_not Char.isDigit cs
  refine ⟨_, List.takeWhile_append_dropWhile.symm, fun rest' hrest => ?_⟩
  have hstops' : Stops Char.isDigit rest' := by
    rcases hrest with hhead | hdelimits
    · rwa [Stops, hhead]
    · exact hdelimits.stops (by decide)
  obtain ⟨htake, hdrop⟩ := span_run hdigits hstops'
  simp only [htake, hdrop]

/-- At least one digit. -/
def digits1 : Read (List Char)
  | [] => .error .endOfText
  | c :: cs =>
    if c.isDigit then .ok (c :: cs.takeWhile Char.isDigit, cs.dropWhile Char.isDigit) else .error .malformed

theorem consumes_digits1 : Consumes Delimits digits1 := by
  refine .of_cons nofun fun c => ?_
  unfold digits1
  exact .branch (takes_digits.map (c :: ·)) (.error _)

theorem exponentDigits_cons (c : Char) (tail : List Char) : exponentDigits (c :: tail) =
    if c = '-' then (digits1 tail).map fun (ds, rest) => ((true, ds), rest)
    else if c = '+' then (digits1 tail).map fun (ds, rest) => ((false, ds), rest)
    else (digits1 (c :: tail)).map fun (ds, rest) => ((false, ds), rest) := by
  have hdigits1 : ∀ (negative : Bool) (cs : List Char),
      (match cs with
        | [] => .error .endOfText
        | c :: _ =>
          if c.isDigit then .ok ((negative, cs.takeWhile Char.isDigit), cs.dropWhile Char.isDigit)
          else .error .malformed) =
      (digits1 cs).map fun (ds, rest) => ((negative, ds), rest) := by
    intro negative cs
    cases cs with
    | nil => rfl
    | cons c cs =>
      by_cases hc : c.isDigit <;> simp [digits1, hc, Except.map]
  unfold exponentDigits
  split_ifs with hminus hplus
  · rw [hminus]
    exact hdigits1 true tail
  · rw [hplus]
    exact hdigits1 false tail
  · rw [← hdigits1]
    split
    next heq =>
      split at heq
      · simp_all
      · simp_all
      · obtain ⟨rfl, rfl⟩ := Prod.mk.inj heq
        rfl

theorem consumes_exponentDigits : Consumes Delimits exponentDigits := by
  refine .of_cons nofun fun c => ?_
  simp only [exponentDigits_cons]
  exact .branch (consumes_digits1.takes.map _) (.branch (consumes_digits1.takes.map _)
    ((consumes_digits1.tail c).map _))

theorem takes_scaled (negative : Bool) (significand : ℕ) (exponent : ℤ) :
    Takes MayEnd fun cs => (scaled negative significand exponent).map fun x => (Number.real x, cs) :=
  .result _ _

def isExponentMark (c : Char) : Bool := c == 'e' || c == 'E'

theorem isExponentMark_iff {c : Char} : isExponentMark c = true ↔ c = 'e' ∨ c = 'E' := by
  simp only [isExponentMark, Bool.or_eq_true, beq_iff_eq]

theorem not_exponentMark {c : Char} {tail : List Char} (h : Stops isExponentMark (c :: tail)) :
    ¬(c = 'e' ∨ c = 'E') := fun hc =>
  Bool.false_ne_true ((h c rfl).symm.trans (isExponentMark_iff.2 hc))

/-- A number whose exponent has been read. -/
def withExponent (negative : Bool) (significand : ℕ) (exponent : ℤ) : Bool × List Char → Read Number
  | (down, digits), rest =>
    if exponentLimit ≤ Binary64.naturalOf digits then
      if significand ≠ 0 ∧ !down then .error .malformed else .ok (.real (.zero negative), rest)
    else do
      let e := Binary64.naturalOf digits
      let x ← scaled negative significand (if down then exponent - e else exponent + e)
      .ok (.real x, rest)

theorem takes_exponentPart_cons (negative : Bool) (significand : ℕ) (exponent : ℤ) {c : Char}
    (hc : isExponentMark c = true) :
    Takes Delimits fun tail => exponentPart negative significand exponent (c :: tail) := by
  have heq : ∀ tail, exponentPart negative significand exponent (c :: tail) =
      exponentDigits tail >>= fun (ds, rest) => withExponent negative significand exponent ds rest :=
    fun _ => if_pos (isExponentMark_iff.1 hc)
  simp only [heq]
  refine consumes_exponentDigits.takes.bind fun ds => ?_
  exact .branch (.branch (.error _) (.pure _)) (.bind_result _ fun x => .pure (Number.real x))

theorem takes_exponentPart (negative : Bool) (significand : ℕ) (exponent : ℤ) :
    Takes Delimits (exponentPart negative significand exponent) := by
  refine .peek isExponentMark _ (by decide) (fun c hc => takes_exponentPart_cons _ _ _ hc)
    (takes_scaled negative significand exponent) fun cs hcs => ?_
  cases cs with
  | nil => rfl
  | cons c tail => exact if_neg (not_exponentMark hcs)

theorem fractionPart_point (negative : Bool) (significand left : ℕ) (tail : List Char) :
    fractionPart negative significand left ('.' :: tail) = digits1 tail >>= fun (ds, rest) =>
      exponentPart negative (absorb significand ds).1 (left + (absorb significand ds).2 - ds.length : ℤ) rest := by
  unfold fractionPart
  cases tail with
  | nil => rfl
  | cons c tail => by_cases hc : c.isDigit <;> simp [digits1, hc, bind, Except.bind]

theorem takes_fractionPart_point (negative : Bool) (significand left : ℕ) :
    Takes Delimits fun tail => fractionPart negative significand left ('.' :: tail) := by
  simp only [fractionPart_point]
  refine consumes_digits1.takes.bind fun ds => ?_
  dsimp only
  exact takes_exponentPart ..

/-- Whether a whole part begins with a zero that it may not begin with. -/
def hasLeadingZero : List Char → Bool
  | '0' :: _ :: _ => true
  | _ => false

/-- A number whose whole part has been read. -/
def withWhole (negative : Bool) (digits : List Char) : Read Number := fun rest =>
  if continues rest then fractionPart negative (absorb 0 digits).1 (absorb 0 digits).2 rest
  else (wholeNumber negative (absorb 0 digits).1 (absorb 0 digits).2).map fun n => (n, rest)

theorem numberBody_eq (negative : Bool) (cs : List Char) :
    numberBody negative cs = digits1 cs >>= fun (ds, rest) =>
      if hasLeadingZero ds then .error .malformed else withWhole negative ds rest := by
  unfold numberBody
  cases cs with
  | nil => rfl
  | cons c cs =>
    by_cases hc : c.isDigit
    · simp only [digits1, hc, if_true, bind, Except.bind, List.takeWhile_cons_of_pos, List.dropWhile_cons_of_pos]
      split
      · next h _ => cases h
      · next h _ => cases h
      · next h => rw [h]; rfl
      · next hzero _ _ =>
        rw [hasLeadingZero, if_neg Bool.false_ne_true]
        · rfl
        · exact hzero
    · simp [digits1, hc, bind, Except.bind]

/-- A number behind whose whole part no fraction comes. -/
def withoutFraction (negative : Bool) (digits : List Char) : Read Number := fun rest =>
  if rest.head?.any isExponentMark then exponentPart negative (absorb 0 digits).1 (absorb 0 digits).2 rest
  else (wholeNumber negative (absorb 0 digits).1 (absorb 0 digits).2).map fun n => (n, rest)

theorem takes_withoutFraction (negative : Bool) (digits : List Char) :
    Takes Delimits (withoutFraction negative digits) := by
  refine .peek isExponentMark _ (by decide) (fun c hc => ?_)
    (.result (wholeNumber negative (absorb 0 digits).1 (absorb 0 digits).2) id) fun cs hcs => ?_
  · simp only [withoutFraction, List.head?_cons, Option.any_some, hc, if_true]
    exact takes_exponentPart_cons _ _ _ hc
  · cases cs with
    | nil => rfl
    | cons c tail => exact if_neg (ne_true_of_eq_false (hcs c rfl))

theorem continues_eq (cs : List Char) :
    continues cs = (cs.head?.any (· == '.') || cs.head?.any isExponentMark) := by
  cases cs with
  | nil => rfl
  | cons c tail => exact Bool.or_assoc ..

-- `continues` looks for either mark at once, but what is read behind a point and behind an exponent mark are
-- different rests, so that the point is peeked at first and the exponent mark only where no point comes.
theorem takes_withWhole (negative : Bool) (digits : List Char) : Takes Delimits (withWhole negative digits) := by
  refine .peek (· == '.') _ (by decide) (fun c hc => ?_) (takes_withoutFraction negative digits) fun cs hcs => ?_
  · obtain rfl : c = '.' := eq_of_beq hc
    exact takes_fractionPart_point ..
  · have hpoint : cs.head?.any (· == '.') = false := (Option.any_eq_false _ _).2 hcs
    rw [withWhole, withoutFraction, continues_eq, hpoint, Bool.false_or]
    congr 1
    unfold fractionPart
    split
    · exact absurd (hcs '.' rfl) (by decide)
    · rfl

theorem consumes_numberBody (negative : Bool) : Consumes Delimits (numberBody negative) :=
  (consumes_digits1.bind fun ds => .branch (.error _) (takes_withWhole negative ds)).congr
    fun cs x => by rw [numberBody_eq]

/-! ### Numbers that are passed over -/

theorem skipDigits1_eq_ok {cs : List Char} {x : Unit × List Char} :
    skipDigits1 cs = .ok x ↔ (digits1 cs).map (fun (_, rest) => ((), rest)) = .ok x := by
  cases cs with
  | nil => exact ⟨nofun, nofun⟩
  | cons c cs => by_cases hc : c.isDigit <;> simp [skipDigits1, digits1, skipDigits, hc, Except.map]

theorem consumes_skipDigits1 : Consumes Delimits skipDigits1 :=
  (consumes_digits1.map fun _ => ()).congr fun _ _ => skipDigits1_eq_ok

theorem skipExponent_sign {c : Char} (hc : isExponentMark c = true) (sign : Char) (tail : List Char) :
    skipExponent (c :: sign :: tail) =
      if sign = '+' ∨ sign = '-' then skipDigits1 tail else skipDigits1 (sign :: tail) := by
  have hmark : skipExponent (c :: sign :: tail) = _ := if_pos (isExponentMark_iff.1 hc)
  rw [hmark]
  by_cases hplus : sign = '+'
  · subst hplus
    rfl
  by_cases hminus : sign = '-'
  · subst hminus
    rfl
  rw [if_neg (not_or.2 ⟨hplus, hminus⟩)]
  split
  · next h => exact absurd (List.cons.inj h).1 hplus
  · next h => exact absurd (List.cons.inj h).1 hminus
  · rfl

theorem takes_skipExponent_cons {c : Char} (hc : isExponentMark c = true) :
    Takes Delimits fun tail => skipExponent (c :: tail) := by
  have hnil : skipExponent [c] = .error .malformed := if_pos (isExponentMark_iff.1 hc)
  refine (Consumes.of_cons (fun x h => ?_) fun sign => ?_).takes
  · rw [hnil] at h
    cases h
  · simp only [skipExponent_sign hc]
    exact .branch consumes_skipDigits1.takes (consumes_skipDigits1.tail sign)

theorem takes_skipExponent : Takes Delimits skipExponent := by
  refine .peek isExponentMark _ (by decide) (fun c hc => takes_skipExponent_cons hc) (.pure ()) fun cs hcs => ?_
  cases cs with
  | nil => rfl
  | cons c tail => exact if_neg (not_exponentMark hcs)

theorem skipFraction_of_stops {cs : List Char} (h : Stops (· == '.') cs) : skipFraction cs = skipExponent cs := by
  unfold skipFraction
  split
  · exact absurd (h '.' rfl) (by decide)
  · rfl

theorem takes_skipFraction : Takes Delimits skipFraction := by
  refine .peek (· == '.') _ (by decide) (fun c hc => ?_) takes_skipExponent fun cs => skipFraction_of_stops
  obtain rfl : c = '.' := eq_of_beq hc
  exact consumes_skipDigits1.takes.bind fun _ => takes_skipExponent

theorem takes_skipDigits : Takes Delimits fun cs => .ok ((), skipDigits cs) := takes_digits.map fun _ => ()

theorem skipNumber_of_ne_zero {c : Char} (hzero : c ≠ '0') (tail : List Char) : skipNumber (c :: tail) =
    if c.isDigit then skipFraction (skipDigits tail) else .error .malformed := by
  unfold skipNumber
  split
  · next h => exact absurd (List.cons.inj h).1 hzero
  · next h => cases h; rfl
  · next h => cases h

theorem consumes_skipNumber : Consumes Delimits skipNumber := by
  refine .of_cons nofun fun c => ?_
  by_cases hzero : c = '0'
  · subst hzero
    refine .peek Char.isDigit _ (by decide) (fun d hd => ?_) takes_skipFraction fun cs hcs => ?_
    · simp only [skipNumber, hd, if_true]
      exact .error _
    · cases cs with
      | nil => rfl
      | cons d tail => exact if_neg (ne_true_of_eq_false (hcs d rfl))
  · simp only [skipNumber_of_ne_zero hzero]
    have hdigits : Takes Delimits fun tail => skipFraction (skipDigits tail) :=
      @Takes.bind _ _ _ _ (fun x => skipFraction x.2) takes_skipDigits fun _ => takes_skipFraction
    exact .branch hdigits (.error _)

/-! ### Punctuation -/

theorem consumes_colon : Consumes MayEnd colon :=
  consumes_afterBlanks fun _ => .branch (.pure ()) (.error _)

theorem consumes_closeArray : Consumes MayEnd closeArray :=
  consumes_afterBlanks fun _ => .branch (.pure ()) (.error _)

theorem consumes_closeObject : Consumes MayEnd closeObject :=
  consumes_afterBlanks fun _ => .branch (.pure ()) (.error _)

-- What decides is looked at and left in place, so that no other text may stand there than one that begins with
-- the same character; `Takes.bind_consumes` makes up for it once that character has been taken.
theorem takes_nextItem (first : Bool) : Takes (fun _ => False) (nextItem first) := by
  have hcomma : Takes (fun _ => False) (afterBlanks fun d rest =>
      if d = ']' then .error .malformed else .ok (true, d :: rest)) := by
    refine takes_afterBlanks fun d => ?_
    by_cases hd : d = ']'
    · exact .inr (by simpa only [if_pos hd] using .error _)
    · exact .inl ⟨true, fun _ => if_neg hd⟩
  refine takes_afterBlanks fun c => ?_
  by_cases hclose : c = ']'
  · exact .inl ⟨false, fun _ => if_pos hclose⟩
  · cases first with
    | true => exact .inl ⟨true, fun _ => if_neg hclose⟩
    | false => exact .inr (.of_not hclose (.of_not Bool.false_ne_true (.branch hcomma (.error _))))

theorem takes_nextKey (first : Bool) : Takes (fun _ => False) (nextKey first) := by
  have hkey : Takes (fun _ => False) fun cs => (stringBody cs).map fun x => (some x.1, x.2) :=
    consumes_stringBody.takes.map some
  have hcomma : Takes (fun _ => False) (afterBlanks fun d rest =>
      if d = '"' then (stringBody rest).map fun x => (some x.1, x.2) else .error .malformed) :=
    (consumes_afterBlanks fun _ => .branch hkey (.error _)).takes
  refine takes_afterBlanks fun c => ?_
  by_cases hclose : c = '\x7d'
  · exact .inl ⟨none, fun _ => if_pos hclose⟩
  · exact .inr (.of_not hclose (.branch (.branch hkey (.error _)) (.branch hcomma (.error _))))

/-! ### Values that are passed over -/

theorem consumes_skipHead (enclosing : List Bracket) : Consumes Delimits (skipHead enclosing) := by
  have hwhole : ∀ {read : Read Unit}, Takes Delimits read → Takes Delimits fun cs =>
      (read cs).map fun x => (SkipState.afterValue enclosing, x.2) :=
    fun h => h.map fun _ => SkipState.afterValue enclosing
  refine consumes_afterBlanks fun c => ?_
  exact .branch (hwhole (takes_expectWord _)) (.branch (hwhole (takes_expectWord _))
    (.branch (hwhole (takes_expectWord _)) (.branch (hwhole consumes_skipNumber.takes)
    (.branch (hwhole (consumes_skipNumber.tail c)) (.branch (hwhole consumes_skipString.takes)
    (.branch (.pure _) (.branch (.pure _) (.error _))))))))

theorem skipKey_quote (tail : List Char) :
    skipKey .object ('"' :: tail) = skipString tail >>= fun x => colon x.2 := by
  have hskip : skipBlanks ('"' :: tail) = '"' :: tail := skipBlanks_cons_of_not_blank (by decide)
  simp only [skipKey, hskip]
  congr 1
  funext x
  unfold colon
  rcases skipBlanks x.2 with _ | ⟨c, rest⟩
  · rfl
  · by_cases hc : c = ':'
    · subst hc
      rfl
    · refine Eq.trans ?_ (if_neg hc).symm
      split
      · next h => exact absurd (List.cons.inj h).1 hc
      · rfl
      · next h => cases h

theorem skipKey_object (cs : List Char) : skipKey .object cs = afterBlanks (fun c rest =>
    if c = '"' then skipString rest >>= fun x => colon x.2 else .error .malformed) cs := by
  have hskip : skipKey .object cs = skipKey .object (skipBlanks cs) := by
    simp only [skipKey, skipBlanks_skipBlanks]
  rw [hskip, afterBlanks]
  cases hcs : skipBlanks cs with
  | nil => rfl
  | cons c rest =>
    by_cases hc : c = '"'
    · subst hc
      exact (skipKey_quote rest).trans (if_pos rfl).symm
    · refine Eq.trans ?_ (if_neg hc).symm
      simp only [skipKey, skipBlanks_cons_of_not_blank (isBlank_of_skipBlanks_eq hcs)]
      split
      · next h => cases h
      · next h => exact absurd (List.cons.inj h).1 hc
      · rfl

theorem takes_skipKey : ∀ b : Bracket, Takes MayEnd (skipKey b)
  | .array => .pure ()
  | .object => by
    have hquote : Takes MayEnd fun cs => skipString cs >>= fun x => colon x.2 :=
      consumes_skipString.takes.bind fun _ => consumes_colon.takes
    exact (consumes_afterBlanks fun _ => .branch hquote (.error _)).takes.congr fun cs x => by
      rw [skipKey_object]

/-- The head of an item or member inside the bracket `b`. -/
def skipEntry (b : Bracket) (bs : List Bracket) : Read (Turn SkipState Unit) := fun cs => do
  let ((), cs) ← skipKey b cs
  skipHead (b :: bs) cs

theorem consumes_skipEntry (b : Bracket) (bs : List Bracket) : Consumes Delimits (skipEntry b bs) :=
  (takes_skipKey b).bind_consumes fun _ => consumes_skipHead (b :: bs)

theorem consumes_skipStep (state : SkipState) : Consumes Delimits (skipStep state) := by
  cases state with
  | value enclosing => exact consumes_skipHead enclosing
  | opened b bs => exact consumes_afterBlanks fun c => .branch (.pure _) ((consumes_skipEntry b bs).tail c)
  | item b bs =>
    exact consumes_afterBlanks fun c => .branch (.pure _) (.branch (consumes_skipEntry b bs).takes (.error _))

theorem consumes_skipValue : Consumes Delimits skipValue := .iterate consumes_skipStep _

/-! ### Texts, lists and maps -/

theorem refuse_ne_ok (expected : Expected) (cs : List Char) (x : α × List Char) :
    refuse expected cs ≠ .ok x := by
  unfold refuse
  cases skipBlanks cs with
  | nil => exact nofun
  | cons c rest =>
    dsimp only
    split
    · exact nofun
    · exact nofun
    · split_ifs <;> exact nofun

/-- A reader of values that begin with one character, and that refuses all others. -/
theorem Local.of_opening (expected : Expected) {read inside : Read α} {o : Char} (ho : o ≠ ']')
    (hinside : Takes Delimits inside) (hyes : ∀ cs tail, skipBlanks cs = o :: tail → read cs = inside tail)
    (hno : ∀ cs, (∀ tail, skipBlanks cs ≠ o :: tail) → read cs = refuse expected cs) : Local read := by
  have hopened : Local (Json.afterBlanks fun c rest => if c = o then inside rest else .error .malformed) :=
    .afterBlanks (fun _ => .branch hinside (.error _)) fun tail x h => by
      rw [if_neg ho.symm] at h
      cases h
  have hrefused : ∀ cs x, (∀ tail, skipBlanks cs ≠ o :: tail) → read cs ≠ .ok x := fun cs x h =>
    hno cs h ▸ refuse_ne_ok expected cs x
  refine hopened.congr fun cs x => ?_
  unfold Json.afterBlanks
  cases hcs : skipBlanks cs with
  | nil => exact ⟨fun h => absurd h (hrefused cs x fun tail => by rw [hcs]; exact nofun), nofun⟩
  | cons c tail =>
    by_cases hc : c = o
    · subst hc
      simp only [if_true, hyes cs tail hcs]
    · simp only [if_neg hc, reduceCtorEq, iff_false]
      exact hrefused cs x fun tail' h => hc (List.cons.inj (hcs.symm.trans h)).1

theorem local_string (room : ℕ) : Local (Decode.string room) := by
  refine .of_opening .string (o := '"') (by decide) consumes_stringBody.takes (fun cs tail h => ?_) fun cs h => ?_
  · simp only [Decode.string, h]
  · unfold Decode.string
    split
    · next hcs => exact absurd hcs (h _)
    · rfl

theorem local_unit (room : ℕ) : Local (Decode.unit room) := by
  refine .of_opening .unit (o := 'n') (by decide) (takes_expectWord ['u', 'l', 'l']) (fun cs tail h => ?_)
    fun cs h => ?_
  · simp only [Decode.unit, h]
  · unfold Decode.unit
    split
    · next hcs => exact absurd hcs (h _)
    · rfl

theorem consumes_items {item : Read α} (hitem : Consumes Delimits item) : Consumes Delimits (items item) := by
  refine .iterate (fun state => ?_) _
  refine (takes_nextItem _).bind_consumes fun more => ?_
  cases more with
  | true => exact hitem.bind fun _ => .pure _
  | false => exact consumes_closeArray.bind fun _ => .pure _

theorem consumes_members {member : Read α} (hmember : Consumes Delimits member) :
    Consumes Delimits (members member) := by
  refine .iterate (fun state => ?_) _
  refine (takes_nextKey _).bind_consumes fun key => ?_
  cases key with
  | some k => exact consumes_colon.bind fun _ => hmember.takes.bind fun _ => .pure _
  | none => exact consumes_closeObject.bind fun _ => .pure _

/-- What stands behind an opening bracket, if one more may be opened. -/
def withinBracket (inside : Reader α) : Reader α
  | 0, _ => .error .malformed
  | room + 1, cs => inside room cs

theorem takes_withinBracket {inside : Reader α} (h : ∀ room, Takes MayEnd (inside room)) :
    ∀ room, Takes MayEnd (withinBracket inside room)
  | 0 => .error _
  | room + 1 => h room

theorem local_list {item : Reader α} (hitem : ∀ room, Local (item room)) (room : ℕ) :
    Local (Decode.list item room) := by
  refine .of_opening .sequence (o := '[') (by decide)
    (takes_withinBracket (fun room => (consumes_items (hitem room).consumes).takes) room) (fun cs tail h => ?_)
    fun cs h => ?_
  · simp only [Decode.list, h]
    cases room <;> rfl
  · unfold Decode.list
    split
    · next hcs => exact absurd hcs (h _)
    · rfl

theorem local_map {member : Reader α} (hmember : ∀ room, Local (member room)) (room : ℕ) :
    Local (Decode.map member room) := by
  refine .of_opening .map (o := '\x7b') (by decide)
    (takes_withinBracket (fun room => (consumes_members (hmember room).consumes).takes) room)
    (fun cs tail h => ?_) fun cs h => ?_
  · simp only [Decode.map, h]
    cases room <;> rfl
  · unfold Decode.map
    split
    · next hcs => exact absurd hcs (h _)
    · rfl

/-! ### Choices -/

theorem takes_variantName (variants : Entries α) : Takes MayEnd (Decode.variantName variants) := by
  refine consumes_stringBody.takes.bind fun name => ?_
  dsimp only
  cases Entries.get? name variants with
  | some a => exact .pure a
  | none => exact .error _

/-- The object form of a choice behind the opening quote of its key. -/
def quotedMember (variants : Entries α) (room : ℕ) : Read α := fun cs => do
  let (a, cs) ← Decode.variantName variants cs
  let ((), cs) ← colon cs
  let ((), cs) ← Decode.unit room cs
  let ((), cs) ← closeObject cs
  .ok (a, cs)

theorem takes_quotedMember (variants : Entries α) (room : ℕ) : Takes Delimits (quotedMember variants room) :=
  (takes_variantName variants).bind fun _ => consumes_colon.takes.bind fun _ =>
    (local_unit room).consumes.takes.bind fun _ => consumes_closeObject.takes.bind fun _ => .pure _

theorem variantMember_eq (variants : Entries α) (room : ℕ) (cs : List Char) :
    Decode.variantMember variants room cs = afterBlanks (fun c rest =>
      if c = '"' then quotedMember variants room rest else .error .malformed) cs := by
  unfold Decode.variantMember afterBlanks
  split
  · next h => rw [h]
  · next h => rw [h]; rfl
  · next hnil hquote =>
    rcases hcs : skipBlanks cs with _ | ⟨c, rest⟩
    · exact absurd hcs hnil
    · have hc : c ≠ '"' := fun hc => hquote rest (hc ▸ hcs)
      simp only [if_neg hc]

theorem takes_variantMember (variants : Entries α) (room : ℕ) :
    Takes Delimits (Decode.variantMember variants room) :=
  (consumes_afterBlanks fun _ => .branch (takes_quotedMember variants room) (.error _)).takes.congr fun cs x => by
    rw [variantMember_eq]

theorem choice_eq (variants : Entries α) (room : ℕ) (cs : List Char) :
    Decode.choice variants room cs = afterBlanks (fun c rest =>
      if c = '"' then Decode.variantName variants rest
      else if c = '\x7b' then withinBracket (Decode.variantMember variants) room rest
      else .error .malformed) cs := by
  unfold Decode.choice afterBlanks
  split
  · next h => rw [h]
  · next h => rw [h]; rfl
  · next h => rw [h]; cases room <;> rfl
  · next hnil hquote hopen =>
    rcases hcs : skipBlanks cs with _ | ⟨c, rest⟩
    · exact absurd hcs hnil
    · have hc : c ≠ '"' := fun hc => hquote rest (hc ▸ hcs)
      have hc' : c ≠ '\x7b' := fun hc => hopen rest (hc ▸ hcs)
      simp only [if_neg hc, if_neg hc']

theorem local_choice (variants : Entries α) (room : ℕ) : Local (Decode.choice variants room) := by
  refine (Local.afterBlanks (fun _ => ?_) fun tail x => ?_).congr fun cs x => by rw [choice_eq]
  · exact .branch (takes_variantName variants)
      (.branch (takes_withinBracket (takes_variantMember variants) room) (.error _))
  · exact nofun

/-! ### Values of any shape -/

/-- A character begins no scalar, or one that a local reader reads. -/
theorem scalar?_cases (c : Char) : (∀ rest, scalar? c rest = none) ∨
    ∃ read, Takes Delimits read ∧ ∀ rest, scalar? c rest = some (read rest) := by
  unfold scalar?
  split_ifs
  · exact .inr ⟨_, (takes_expectWord _).map fun _ => Json.null, fun _ => rfl⟩
  · exact .inr ⟨_, (takes_expectWord _).map fun _ => Json.bool true, fun _ => rfl⟩
  · exact .inr ⟨_, (takes_expectWord _).map fun _ => Json.bool false, fun _ => rfl⟩
  · exact .inr ⟨_, (consumes_numberBody true).takes.map Json.number, fun _ => rfl⟩
  · exact .inr ⟨_, ((consumes_numberBody false).tail c).map Json.number, fun _ => rfl⟩
  · exact .inr ⟨_, consumes_stringBody.takes.map Json.string, fun _ => rfl⟩
  · exact .inl fun _ => rfl

/-- An array or object of any shape behind its opening bracket, which is `c`. -/
def bracketBody (c : Char) : Reader Json := fun room cs =>
  if c = '[' then (items (value room) cs).map fun (xs, rest) => (.array xs, rest)
  else if c = '\x7b' then (members (value room) cs).map fun (ms, rest) => (.object ms.entries, rest)
  else .error .malformed

theorem value_eq (room : ℕ) (cs : List Char) : value room cs = afterBlanks (fun c rest =>
    match scalar? c rest with
    | some r => r
    | none => withinBracket (bracketBody c) room rest) cs := by
  unfold value afterBlanks
  cases room <;> rfl

theorem takes_bracketBody {room : ℕ} (h : Local (value room)) (c : Char) :
    Takes Delimits (bracketBody c room) :=
  .branch ((consumes_items h.consumes).takes.map Json.array)
    (.branch ((consumes_members h.consumes).takes.map fun ms => Json.object ms.entries) (.error _))

theorem local_value (room : ℕ) : Local (value room) := by
  -- what stands inside a bracket has less room
  have hinside : ∀ c, Takes Delimits (withinBracket (bracketBody c) room) := by
    cases room with
    | zero => exact fun _ => .error _
    | succ room => exact takes_bracketBody (local_value room)
  refine (Local.afterBlanks (fun c => ?_) fun tail x => ?_).congr fun cs x => by rw [value_eq]
  · rcases scalar?_cases c with hnone | ⟨read, hread, hsome⟩
    · simp only [hnone]
      exact hinside c
    · simp only [hsome]
      exact hread
  · cases room <;> exact nofun

/-! ### Records -/

namespace Record

variable {σ : Type} (r : Record σ α)

theorem consumes_memberStep (hfields : ∀ f ∈ r.fields, ∀ room, Local (f.reader room)) (room : ℕ)
    (state : Bool × σ) : Consumes Delimits (r.memberStep room state) := by
  refine (takes_nextKey _).bind_consumes fun key => ?_
  cases key with
  | none =>
    dsimp only
    split
    · exact .error _
    · exact consumes_closeObject.bind fun _ => .pure _
  | some k =>
    dsimp only
    split
    · exact consumes_colon.bind fun _ => consumes_skipValue.takes.bind fun _ => .pure _
    · next f hf =>
      have hreader := hfields f (List.mem_of_find?_eq_some hf) room
      split
      · exact .error _
      · exact consumes_colon.bind fun _ => hreader.consumes.takes.bind fun v => .pure (Turn.next (true, f.set v state.2))

theorem consumes_objectForm (hfields : ∀ f ∈ r.fields, ∀ room, Local (f.reader room)) (room : ℕ) :
    Consumes Delimits (r.objectForm room) :=
  .iterate (r.consumes_memberStep hfields room) _

theorem takes_fieldValues (room : ℕ) : ∀ {fs : List (Field σ)}, (∀ f ∈ fs, ∀ room, Local (f.reader room)) →
    ∀ (index : ℕ) (draft : σ), Takes (fun _ => False) (r.fieldValues room fs index draft)
  | [], _, _, draft => .pure draft
  | f :: fs, hfields, index, draft => by
    refine (takes_nextItem _).bind fun more => ?_
    cases more with
    | true =>
      have hvalue := (hfields f List.mem_cons_self room).consumes.takes.weaken
      exact hvalue.bind fun v =>
        takes_fieldValues room (fun g hg => hfields g (List.mem_cons_of_mem f hg)) (index + 1) (f.set v draft)
    | false =>
      simp only [Bool.false_eq_true, if_false]
      split
      · exact .error _
      · exact .pure draft

theorem consumes_arrayForm (hfields : ∀ f ∈ r.fields, ∀ room, Local (f.reader room)) (room : ℕ) :
    Consumes Delimits (r.arrayForm room) :=
  (r.takes_fieldValues room hfields 0 r.blank).bind_consumes fun _ => consumes_closeArray.bind fun _ => .pure _

/-- A record behind its opening bracket, which is `c`. -/
def bracketBody (c : Char) : Reader α := fun room cs =>
  if c = '\x7b' then (r.objectForm room cs).map fun (draft, rest) => (r.finish draft, rest)
  else if c = '[' then (r.arrayForm room cs).map fun (draft, rest) => (r.finish draft, rest)
  else .error .malformed

theorem reader_eq_ok (room : ℕ) (cs : List Char) (x : α × List Char) : r.reader room cs = .ok x ↔
    afterBlanks (fun c rest => withinBracket (r.bracketBody c) room rest) cs = .ok x := by
  unfold reader afterBlanks
  split
  · next h => rw [h]; cases room <;> rfl
  · next h => rw [h]; cases room <;> rfl
  · next hobject harray =>
    simp only [refuse_ne_ok, false_iff]
    rcases hcs : skipBlanks cs with _ | ⟨c, rest⟩
    · exact nofun
    · have hc : c ≠ '\x7b' := fun hc => hobject rest (hc ▸ hcs)
      have hc' : c ≠ '[' := fun hc => harray rest (hc ▸ hcs)
      cases room with
      | zero => exact nofun
      | succ room =>
        simp only [withinBracket, bracketBody, if_neg hc, if_neg hc']
        exact nofun

theorem takes_bracketBody (hfields : ∀ f ∈ r.fields, ∀ room, Local (f.reader room)) (c : Char) (room : ℕ) :
    Takes Delimits (r.bracketBody c room) :=
  .branch ((r.consumes_objectForm hfields room).takes.map r.finish)
    (.branch ((r.consumes_arrayForm hfields room).takes.map r.finish) (.error _))

theorem local_reader (hfields : ∀ f ∈ r.fields, ∀ room, Local (f.reader room)) (room : ℕ) :
    Local (r.reader room) := by
  refine (Local.afterBlanks (fun c => ?_) fun tail x => ?_).congr fun cs x => r.reader_eq_ok room cs x
  · exact takes_withinBracket (r.takes_bracketBody hfields c) room
  · cases room <;> exact nofun

end Record

end TemplateLinker.Json
