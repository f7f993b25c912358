import TemplateLinker.Proofs.Json.Integers
import TemplateLinker.Proofs.Json.LocalReaders

/-!
# Proofs.Json.Grammar — the values of JSON by their grammar, and passing over them

`IsValue` is the grammar of values: literals, numbers of any size, strings with escapes for any UTF-16 units,
and arrays and objects that nest to any depth.  `skipValue` passes over each of them, and stops right behind
it (`skipValue_of_isValue`).  The proof follows the grammar; what is shown of a part of a value is that the
loop comes from its beginning to the state behind it, whatever happens there (`goOn`).
-/

namespace TemplateLinker.Json

open Binary64 (Stops span_run)

/-! ### The grammar -/

def IsHexDigit (c : Char) : Prop := ('0' ≤ c ∧ c ≤ '9') ∨ ('a' ≤ c ∧ c ≤ 'f') ∨ ('A' ≤ c ∧ c ≤ 'F')

instance : DecidablePred IsHexDigit := fun _ => inferInstanceAs (Decidable (_ ∨ _ ∨ _))

/-- The characters of a string between its quotes. -/
inductive IsStringBody : List Char → Prop where
  | nil : IsStringBody []
  | char {c : Char} {cs : List Char} : c ≠ '"' → c ≠ '\\' → 0x20 ≤ c.toNat → IsStringBody cs →
      IsStringBody (c :: cs)
  | escape {e : Char} {cs : List Char} : e ∈ ['"', '\\', '/', 'b', 'f', 'n', 'r', 't'] → IsStringBody cs →
      IsStringBody ('\\' :: e :: cs)
  | unit {a b c d : Char} {cs : List Char} : IsHexDigit a → IsHexDigit b → IsHexDigit c → IsHexDigit d →
      IsStringBody cs → IsStringBody ('\\' :: 'u' :: a :: b :: c :: d :: cs)

def IsDigits (ds : List Char) : Prop := ds ≠ [] ∧ ∀ d ∈ ds, d.isDigit

inductive IsExponent : List Char → Prop where
  | none : IsExponent []
  | some {mark : Char} {sign ds : List Char} : mark = 'e' ∨ mark = 'E' → sign ∈ [[], ['+'], ['-']] →
      IsDigits ds → IsExponent (mark :: (sign ++ ds))

inductive IsFraction : List Char → Prop where
  | none : IsFraction []
  | some {ds : List Char} : IsDigits ds → IsFraction ('.' :: ds)

/-- A number without its sign; only a single zero begins with a zero. -/
inductive IsMagnitude : List Char → Prop where
  | zero {fraction exponent : List Char} : IsFraction fraction → IsExponent exponent →
      IsMagnitude ('0' :: (fraction ++ exponent))
  | digits {d : Char} {ds fraction exponent : List Char} : d.isDigit → d ≠ '0' → (∀ c ∈ ds, c.isDigit) →
      IsFraction fraction → IsExponent exponent → IsMagnitude (d :: (ds ++ (fraction ++ exponent)))

inductive IsScalar : List Char → Prop where
  | null : IsScalar ['n', 'u', 'l', 'l']
  | true : IsScalar ['t', 'r', 'u', 'e']
  | false : IsScalar ['f', 'a', 'l', 's', 'e']
  | number {m : List Char} : IsMagnitude m → IsScalar m
  | minus {m : List Char} : IsMagnitude m → IsScalar ('-' :: m)
  | string {s : List Char} : IsStringBody s → IsScalar ('"' :: (s ++ ['"']))

def Bracket.opening : Bracket → Char
  | .array => '['
  | .object => '\x7b'

/-- What stands before a value inside a bracket. -/
inductive IsLabel : Bracket → List Char → Prop where
  | item : IsLabel .array []
  | key {gap key gap' : List Char} : IsGap gap → IsStringBody key → IsGap gap' →
      IsLabel .object (gap ++ '"' :: (key ++ '"' :: (gap' ++ [':'])))

mutual

inductive IsValue : List Char → Prop where
  | scalar {v : List Char} : IsScalar v → IsValue v
  | empty (b : Bracket) {gap : List Char} : IsGap gap → IsValue (b.opening :: (gap ++ [b.closing]))
  | entries {b : Bracket} {es : List Char} : IsEntries b es → IsValue (b.opening :: (es ++ [b.closing]))

/-- The items of an array or the members of an object, at least one, with the commas between them. -/
inductive IsEntries : Bracket → List Char → Prop where
  | last {b : Bracket} {label gap v gap' : List Char} : IsLabel b label → IsGap gap → IsValue v → IsGap gap' →
      IsEntries b (label ++ (gap ++ (v ++ gap')))
  | cons {b : Bracket} {label gap v gap' es : List Char} : IsLabel b label → IsGap gap → IsValue v → IsGap gap' →
      IsEntries b es → IsEntries b (label ++ (gap ++ (v ++ (gap' ++ ',' :: es))))

end

/-! ### Strings -/

theorem exists_hexValue? {c : Char} (h : IsHexDigit c) : ∃ n, hexValue? c = some n := by
  unfold hexValue?
  rcases h with h | h | h
  · exact ⟨_, if_pos h⟩
  · split_ifs <;> exact ⟨_, rfl⟩
  · split_ifs <;> exact ⟨_, rfl⟩

theorem exists_fourHex {a b c d : Char} (ha : IsHexDigit a) (hb : IsHexDigit b) (hc : IsHexDigit c)
    (hd : IsHexDigit d) (rest : List Char) : ∃ n, fourHex (a :: b :: c :: d :: rest) = .ok (n, rest) := by
  obtain ⟨w, hw⟩ := exists_hexValue? ha
  obtain ⟨x, hx⟩ := exists_hexValue? hb
  obtain ⟨y, hy⟩ := exists_hexValue? hc
  obtain ⟨z, hz⟩ := exists_hexValue? hd
  have hbytes : ¬byteLength [a, b, c, d] < 4 := by
    have := a.utf8Size_pos
    have := b.utf8Size_pos
    have := c.utf8Size_pos
    have := d.utf8Size_pos
    simp only [byteLength]
    omega
  refine ⟨((w * 16 + x) * 16 + y) * 16 + z, ?_⟩
  unfold fourHex
  rw [if_neg (show ¬byteLength ((a :: b :: c :: d :: rest).take 4) < 4 from hbytes)]
  simp only [hw, hx, hy, hz]

/-- A string is passed over one element after another. -/
theorem skipString_eq (cs : List Char) : skipString cs = stringItem cs >>= fun (item, rest) =>
    match item with
    | .close => .ok ((), rest)
    | _ => skipString rest := by
  unfold skipString
  rw [iterate_eq (consuming_of_consumes (@consumes_skipStringStep Delimits)), skipStringStep]
  rcases stringItem cs with _ | ⟨_ | _ | _, _⟩ <;> rfl

theorem skipString_append {s : List Char} (h : IsStringBody s) (rest : List Char) :
    skipString (s ++ '"' :: rest) = .ok ((), rest) := by
  induction h with
  | nil =>
    rw [skipString_eq]
    rfl
  | @char c cs hquote hslash hcontrol _ ih =>
    have hitem : stringItem (c :: (cs ++ '"' :: rest)) = .ok (.char c, cs ++ '"' :: rest) := by
      simp only [stringItem, if_neg hquote, if_neg hslash, if_neg (Nat.not_lt.2 hcontrol)]
    rw [List.cons_append, skipString_eq, hitem]
    exact ih
  | @escape e cs he _ ih =>
    have hitem : ∃ c, stringItem ('\\' :: e :: (cs ++ '"' :: rest)) = .ok (.char c, cs ++ '"' :: rest) := by
      simp only [List.mem_cons, List.not_mem_nil, or_false] at he
      rcases he with rfl | rfl | rfl | rfl | rfl | rfl | rfl | rfl <;> exact ⟨_, rfl⟩
    obtain ⟨c, hitem⟩ := hitem
    rw [List.cons_append, List.cons_append, skipString_eq, hitem]
    exact ih
  | @unit a b c d cs ha hb hc hd _ ih =>
    obtain ⟨n, hfour⟩ := exists_fourHex ha hb hc hd (cs ++ '"' :: rest)
    have hitem : stringItem ('\\' :: 'u' :: a :: b :: c :: d :: (cs ++ '"' :: rest)) =
        .ok (.unit n, cs ++ '"' :: rest) := by
      show (fourHex _).map _ = _
      rw [hfour]
      rfl
    simp only [List.cons_append]
    rw [skipString_eq, hitem]
    exact ih

/-! ### Numbers -/

theorem skipDigits_append {ds rest : List Char} (hds : ∀ d ∈ ds, d.isDigit) (hrest : Stops Char.isDigit rest) :
    skipDigits (ds ++ rest) = rest :=
  (span_run hds hrest).2

theorem skipDigits1_append {ds rest : List Char} (hds : IsDigits ds) (hrest : Stops Char.isDigit rest) :
    skipDigits1 (ds ++ rest) = .ok ((), rest) := by
  obtain ⟨hne, hds⟩ := hds
  cases ds with
  | nil => exact absurd rfl hne
  | cons d ds =>
    rw [List.forall_mem_cons] at hds
    rw [List.cons_append, skipDigits1, if_pos hds.1, skipDigits_append hds.2 hrest]

theorem stops_exponent {p : Char → Bool} (hmark : p 'e' = false ∧ p 'E' = false)
    (hp : delimiters.any p = false) {exponent rest : List Char} (h : IsExponent exponent)
    (hrest : Delimits rest) : Stops p (exponent ++ rest) := by
  cases h with
  | none => exact hrest.stops hp
  | some hc _ _ =>
    rintro c ⟨⟩
    rcases hc with rfl | rfl
    · exact hmark.1
    · exact hmark.2

theorem skipExponent_append {exponent rest : List Char} (h : IsExponent exponent) (hrest : Delimits rest) :
    skipExponent (exponent ++ rest) = .ok ((), rest) := by
  cases h with
  | none =>
    cases rest with
    | nil => rfl
    | cons c rest =>
      exact if_neg (not_exponentMark (hrest.stops (by decide)))
  | @some mark sign ds hmark hsign hds =>
    have hdigits := skipDigits1_append hds (hrest.stops (by decide))
    have hsigned := skipExponent_sign (isExponentMark_iff.2 hmark)
    simp only [List.mem_cons, List.not_mem_nil, or_false] at hsign
    rcases hsign with rfl | rfl | rfl
    · obtain ⟨d, ds, rfl⟩ := List.exists_cons_of_ne_nil hds.1
      have hd : d.isDigit := hds.2 d List.mem_cons_self
      refine (hsigned d (ds ++ rest)).trans ((if_neg fun h => ?_).trans hdigits)
      rcases h with rfl | rfl <;> cases hd
    · exact (hsigned '+' (ds ++ rest)).trans hdigits
    · exact (hsigned '-' (ds ++ rest)).trans hdigits

theorem skipFraction_append {fraction exponent rest : List Char} (h : IsFraction fraction)
    (hexponent : IsExponent exponent) (hrest : Delimits rest) :
    skipFraction (fraction ++ (exponent ++ rest)) = .ok ((), rest) := by
  have htail := skipExponent_append hexponent hrest
  cases h with
  | none =>
    rw [List.nil_append, skipFraction_of_stops (stops_exponent (by decide) (by decide) hexponent hrest)]
    exact htail
  | @some ds hds =>
    have hdigits := skipDigits1_append hds (stops_exponent (by decide) (by decide) hexponent hrest)
    show (skipDigits1 (ds ++ (exponent ++ rest)) >>= fun x => skipExponent x.2) = _
    rw [hdigits]
    exact htail

theorem stops_fraction {fraction exponent rest : List Char} (h : IsFraction fraction)
    (hexponent : IsExponent exponent) (hrest : Delimits rest) :
    Stops Char.isDigit (fraction ++ (exponent ++ rest)) := by
  cases h with
  | none =>
    rw [List.nil_append]
    exact stops_exponent (by decide) (by decide) hexponent hrest
  | some _ =>
    rintro c ⟨⟩
    decide

theorem skipNumber_append {m : List Char} (h : IsMagnitude m) {rest : List Char} (hrest : Delimits rest) :
    skipNumber (m ++ rest) = .ok ((), rest) := by
  cases h with
  | @zero fraction exponent hfraction hexponent =>
    have htail := skipFraction_append hfraction hexponent hrest
    have hstops := stops_fraction hfraction hexponent hrest
    rw [List.cons_append, List.append_assoc]
    generalize fraction ++ (exponent ++ rest) = tail at htail hstops
    cases tail with
    | nil => exact htail
    | cons c tail => exact (if_neg (ne_true_of_eq_false (hstops c rfl))).trans htail
  | @digits d ds fraction exponent hd hzero hds hfraction hexponent =>
    have htail := skipFraction_append hfraction hexponent hrest
    have hrun := skipDigits_append hds (stops_fraction hfraction hexponent hrest)
    rw [List.cons_append, List.append_assoc, List.append_assoc, skipNumber_of_ne_zero hzero, if_pos hd, hrun]
    exact htail

/-! ### How a value begins -/

theorem exists_of_isMagnitude {m : List Char} (h : IsMagnitude m) : ∃ c tail, m = c :: tail ∧ c.isDigit := by
  cases h with
  | zero => exact ⟨_, _, rfl, by decide⟩
  | digits hd => exact ⟨_, _, rfl, hd⟩

theorem exists_of_isValue {v : List Char} (h : IsValue v) :
    ∃ c tail, v = c :: tail ∧ isBlank c = false ∧ c ∉ delimiters := by
  cases h with
  | scalar h =>
    cases h with
    | null | true | false | minus | string => exact ⟨_, _, rfl, by decide, by decide⟩
    | number h =>
      obtain ⟨c, tail, rfl, hc⟩ := exists_of_isMagnitude h
      have hdelimiter : delimiters.any Char.isDigit = false := by decide
      exact ⟨c, tail, rfl, isBlank_of_isDigit hc, fun hmem => List.any_eq_false.1 hdelimiter c hmem hc⟩
  | empty b => cases b <;> exact ⟨_, _, rfl, by decide, by decide⟩
  | @entries b => cases b <;> exact ⟨_, _, rfl, by decide, by decide⟩

theorem closing_mem_delimiters (b : Bracket) : b.closing ∈ delimiters := by
  cases b <;> decide

theorem isBlank_closing (b : Bracket) : isBlank b.closing = false := by
  cases b <;> decide

theorem exists_of_isEntries {b : Bracket} {es : List Char} (h : IsEntries b es) :
    ∃ gap c tail, IsGap gap ∧ isBlank c = false ∧ c ≠ b.closing ∧ es = gap ++ c :: tail := by
  have hbegins : ∀ {label gap v more : List Char}, IsLabel b label → IsGap gap → IsValue v →
      ∃ gap' c tail, IsGap gap' ∧ isBlank c = false ∧ c ≠ b.closing ∧
        label ++ (gap ++ (v ++ more)) = gap' ++ c :: tail := by
    intro label gap v more hlabel hgap hv
    cases hlabel with
    | item =>
      obtain ⟨c, tail, rfl, hc, hmem⟩ := exists_of_isValue hv
      exact ⟨gap, c, tail ++ more, hgap, hc, fun h => hmem (h ▸ closing_mem_delimiters _), rfl⟩
    | @key gap' key gap'' hgap' _ _ =>
      exact ⟨gap', '"', _, hgap', by decide, by decide, List.append_assoc ..⟩
  cases h with
  | last hlabel hgap hv _ => exact hbegins hlabel hgap hv
  | cons hlabel hgap hv _ _ => exact hbegins hlabel hgap hv

/-! ### Values -/

theorem skipKey_label {b : Bracket} {label : List Char} (h : IsLabel b label) (cs : List Char) :
    skipKey b (label ++ cs) = .ok ((), cs) := by
  cases h with
  | item => rfl
  | @key gap key gap' hgap hkey hgap' =>
    have hcolon : colon (gap' ++ ':' :: cs) = .ok ((), cs) :=
      afterBlanks_append hgap' (by decide) cs
    have htext : gap ++ '"' :: (key ++ '"' :: (gap' ++ [':'])) ++ cs =
        gap ++ '"' :: (key ++ '"' :: (gap' ++ ':' :: cs)) := by
      simp only [List.append_assoc, List.cons_append, List.nil_append]
    rw [htext, skipKey_object, afterBlanks_append hgap (by decide), if_pos rfl, skipString_append hkey]
    exact hcolon

theorem skipHead_gap {enclosing : List Bracket} {gap : List Char} (hgap : IsGap gap) (cs : List Char) :
    skipHead enclosing (gap ++ cs) = skipHead enclosing cs :=
  afterBlanks_gap hgap cs

theorem skipEntry_gap {b : Bracket} {bs : List Bracket} {gap : List Char} (hgap : IsGap gap) (cs : List Char) :
    skipEntry b bs (gap ++ cs) = skipEntry b bs cs := by
  cases b with
  | array => exact skipHead_gap hgap cs
  | object =>
    unfold skipEntry
    rw [skipKey_object, skipKey_object, afterBlanks_gap hgap]

theorem skipHead_magnitude {enclosing : List Bracket} {m rest : List Char} (h : IsMagnitude m)
    (hrest : Delimits rest) : skipHead enclosing (m ++ rest) = .ok (SkipState.afterValue enclosing, rest) := by
  obtain ⟨c, tail, rfl, hc⟩ := exists_of_isMagnitude h
  have hnumber := skipNumber_append h hrest
  rw [List.cons_append] at hnumber ⊢
  unfold skipHead
  rw [skipBlanks_cons_of_not_blank (isBlank_of_isDigit hc)]
  have hne : ∀ d : Char, d.isDigit = false → c ≠ d := fun d hd => ne_of_isDigit hc hd
  simp only [if_neg (hne 'n' rfl), if_neg (hne 't' rfl), if_neg (hne 'f' rfl), if_neg (hne '-' rfl), if_pos hc,
    hnumber]
  rfl

theorem skipHead_scalar {enclosing : List Bracket} {v rest : List Char} (h : IsScalar v)
    (hrest : Delimits rest) : skipHead enclosing (v ++ rest) = .ok (SkipState.afterValue enclosing, rest) := by
  cases h with
  | null | true | false => rfl
  | number h => exact skipHead_magnitude h hrest
  | @minus m h =>
    show (skipNumber (m ++ rest)).map _ = _
    rw [skipNumber_append h hrest]
    rfl
  | @string s h =>
    rw [List.cons_append, List.append_assoc]
    show (skipString (s ++ '"' :: rest)).map _ = _
    rw [skipString_append h]
    rfl

theorem skipHead_opening (enclosing : List Bracket) (b : Bracket) (tail : List Char) :
    skipHead enclosing (b.opening :: tail) = .ok (.next (.opened b enclosing), tail) := by
  cases b <;> rfl

/-- What a turn of passing over comes to: the end, or the loop from the next state. -/
def goOn : Turn SkipState Unit × List Char → Except Failure (Unit × List Char)
  | (.done (), rest) => .ok ((), rest)
  | (.next state, rest) => iterate skipStep state rest

theorem iterate_skipStep (state : SkipState) (cs : List Char) :
    iterate skipStep state cs = skipStep state cs >>= goOn := by
  rw [iterate_eq (consuming_of_consumes consumes_skipStep)]
  rcases skipStep state cs with _ | ⟨_ | _, _⟩ <;> rfl

/-- A closing bracket leads behind what it closes, from either state inside. -/
theorem goOn_closing {state : SkipState} {b : Bracket} {bs : List Bracket}
    (hstate : state = .opened b bs ∨ state = .item b bs) {gap : List Char} (hgap : IsGap gap)
    (rest : List Char) :
    goOn (.next state, gap ++ b.closing :: rest) = goOn (SkipState.afterValue bs, rest) := by
  have hstep : skipStep state (gap ++ b.closing :: rest) = .ok (SkipState.afterValue bs, rest) := by
    rcases hstate with rfl | rfl
    all_goals exact (afterBlanks_append hgap (isBlank_closing b) rest).trans (if_pos rfl)
  rw [goOn, iterate_skipStep, hstep]
  rfl

theorem goOn_item_comma {b : Bracket} {bs : List Bracket} {gap : List Char} (hgap : IsGap gap)
    (rest : List Char) :
    goOn (.next (.item b bs), gap ++ ',' :: rest) = skipEntry b bs rest >>= goOn := by
  have hstep : skipStep (.item b bs) (gap ++ ',' :: rest) = skipEntry b bs rest := by
    refine (afterBlanks_append hgap (by decide) rest).trans ((if_neg ?_).trans (if_pos rfl))
    cases b <;> decide
  rw [goOn, iterate_skipStep, hstep]

theorem goOn_opened_entries {b : Bracket} {bs : List Bracket} {es : List Char} (h : IsEntries b es)
    (rest : List Char) : goOn (.next (.opened b bs), es ++ rest) = skipEntry b bs (es ++ rest) >>= goOn := by
  obtain ⟨gap, c, tail, hgap, hc, hclosing, rfl⟩ := exists_of_isEntries h
  have hstep : skipStep (.opened b bs) (gap ++ c :: (tail ++ rest)) = skipEntry b bs (c :: (tail ++ rest)) :=
    (afterBlanks_append hgap hc _).trans (if_neg hclosing)
  rw [List.append_assoc, List.cons_append, goOn, iterate_skipStep, hstep, skipEntry_gap hgap]

theorem skipEntry_label {b : Bracket} {bs : List Bracket} {label : List Char} (h : IsLabel b label)
    (cs : List Char) : skipEntry b bs (label ++ cs) = skipHead (b :: bs) cs := by
  rw [skipEntry, skipKey_label h]
  rfl

theorem delimits_closing (b : Bracket) (rest : List Char) : Delimits (b.closing :: rest) := by
  rintro c ⟨⟩
  exact closing_mem_delimiters b

theorem delimits_comma (rest : List Char) : Delimits (',' :: rest) := by
  rintro c ⟨⟩
  decide

mutual

/-- From the head of a value the loop comes to the state behind the value. -/
theorem goOn_value : ∀ {v : List Char}, IsValue v → ∀ {enclosing : List Bracket} {gap rest : List Char},
    IsGap gap → Delimits rest →
      (skipHead enclosing (gap ++ (v ++ rest)) >>= goOn) = goOn (SkipState.afterValue enclosing, rest)
  | v, .scalar h, enclosing, gap, rest, hgap, hrest => by
    rw [skipHead_gap hgap, skipHead_scalar h hrest]
    rfl
  | _, .empty b hgap', enclosing, gap, rest, hgap, _ => by
    rw [skipHead_gap hgap, List.cons_append, List.append_assoc, skipHead_opening]
    exact goOn_closing (.inl rfl) hgap' rest
  | _, .entries h, enclosing, gap, rest, hgap, _ => by
    rw [skipHead_gap hgap, List.cons_append, List.append_assoc, skipHead_opening]
    exact (goOn_opened_entries h _).trans (goOn_entries h)

/-- From the head of the entries inside a bracket the loop comes to the state behind the bracket that closes
it. -/
theorem goOn_entries : ∀ {b : Bracket} {es : List Char}, IsEntries b es → ∀ {bs : List Bracket} {rest : List Char},
    (skipEntry b bs (es ++ b.closing :: rest) >>= goOn) = goOn (SkipState.afterValue bs, rest)
  | b, _, .last hlabel hgap hv hgap', bs, rest => by
    have hrest := hgap'.delimits_append (delimits_closing b rest)
    simp only [List.append_assoc]
    rw [skipEntry_label hlabel, goOn_value hv hgap hrest]
    exact goOn_closing (.inr rfl) hgap' rest
  | b, _, .cons hlabel hgap hv hgap' hes, bs, rest => by
    simp only [List.append_assoc, List.cons_append]
    rw [skipEntry_label hlabel, goOn_value hv hgap (hgap'.delimits_append (delimits_comma _))]
    exact (goOn_item_comma hgap' _).trans (goOn_entries hes)

end

/-- **Passing over takes exactly one value.** -/
theorem skipValue_of_isValue {v gap rest : List Char} (hv : IsValue v) (hgap : IsGap gap) (hrest : Delimits rest) :
    skipValue (gap ++ (v ++ rest)) = .ok ((), rest) := by
  rw [skipValue, iterate_skipStep]
  exact goOn_value hv hgap hrest

end TemplateLinker.Json
