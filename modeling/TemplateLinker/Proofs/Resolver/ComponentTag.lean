import Mathlib.Computability.Language
import TemplateLinker.Resolver.ComponentTag
import TemplateLinker.Text.Blank
import TemplateLinker.Text.Pieces

/-!
# Proofs.Resolver.ComponentTag — which tags look like components

The reader of tags is compared with two descriptions of what it accepts: a regular expression (`pattern`), and
the pieces of a tag cut at `::` or at dashes (`IsQualified`, `IsDashed`).  Both are extended to all states of
the reader; what a state takes behind a character is what the next state takes (`accepts_foldl_iff`).
-/

namespace TemplateLinker.ComponentTag

open Text
open scoped Computability

def isAlphanumeric (c : Char) : Bool := isUpper c || isLower c || isDigit c

def isWordChar (c : Char) : Bool := isLower c || isDigit c

/-! ### Classes of characters -/

theorem isUpper_iff {c : Char} : isUpper c = true ↔ 65 ≤ c.toNat ∧ c.toNat ≤ 90 := by
  simp [isUpper, Char.le_def, UInt32.le_iff_toNat_le, ← Char.toNat_val]

theorem isLower_iff {c : Char} : isLower c = true ↔ 97 ≤ c.toNat ∧ c.toNat ≤ 122 := by
  simp [isLower, Char.le_def, UInt32.le_iff_toNat_le, ← Char.toNat_val]

theorem isDigit_iff {c : Char} : isDigit c = true ↔ 48 ≤ c.toNat ∧ c.toNat ≤ 57 := by
  simp [isDigit, Char.le_def, UInt32.le_iff_toNat_le, ← Char.toNat_val]

theorem isLower_eq_false {c : Char} (h : isUpper c = true) : isLower c = false := by
  rw [Bool.eq_false_iff, ne_eq, isLower_iff]
  rw [isUpper_iff] at h
  omega

/-- The characters that may stand in a tag. -/
def isTagChar (c : Char) : Bool := isAlphanumeric c || c == ':' || c == '-'

/-- A tag has neither blanks nor anything else that would end it in a template. -/
theorem plain_of_isTagChar {c : Char} (h : isTagChar c = true) :
    c.toNat < 128 ∧ isBlank c = false ∧ c ∉ ['\n', '.', '@', '/'] := by
  have hrange : 45 ≤ c.toNat ∧ c.toNat ≤ 122 ∧ c.toNat ≠ 46 ∧ c.toNat ≠ 47 ∧ c.toNat ≠ 64 := by
    simp only [isTagChar, isAlphanumeric, Bool.or_eq_true, isUpper_iff, isLower_iff, isDigit_iff,
      beq_iff_eq] at h
    rcases h with (((h | h) | h) | rfl) | rfl
    · omega
    · omega
    · omega
    · decide
    · decide
  have hne (d : Char) (hd : c.toNat ≠ d.toNat) : c ≠ d := fun h => hd (congrArg Char.toNat h)
  refine ⟨by omega, ?_, ?_⟩
  · simp [isBlank, blankRanges]
    omega
  · simp only [List.mem_cons, List.not_mem_nil, or_false, not_or]
    refine ⟨hne _ ?_, hne _ ?_, hne _ ?_, hne _ ?_⟩
    · have : '\n'.toNat = 10 := rfl
      omega
    · exact hrange.2.2.1
    · exact hrange.2.2.2.2
    · exact hrange.2.2.2.1

/-! ### What each state takes -/

/-- A description of the tags that each state takes to the end, told by their first character. -/
structure Describes (Takes : State → List Char → Prop) : Prop where
  nil : ∀ q : State, Takes q [] ↔ q.accepts = true
  start : ∀ c s, Takes .start (c :: s) ↔
    isUpper c = true ∧ Takes .name s ∨ isLower c = true ∧ Takes .firstWord s
  name : ∀ c s, Takes .name (c :: s) ↔ isAlphanumeric c = true ∧ Takes .name s ∨ c = ':' ∧ Takes .colon s
  colon : ∀ c s, Takes .colon (c :: s) ↔ c = ':' ∧ Takes .colons s
  colons : ∀ c s, Takes .colons (c :: s) ↔ isUpper c = true ∧ Takes .name s
  firstWord : ∀ c s, Takes .firstWord (c :: s) ↔
    isWordChar c = true ∧ Takes .firstWord s ∨ c = '-' ∧ Takes .dash s
  dash : ∀ c s, Takes .dash (c :: s) ↔ isWordChar c = true ∧ Takes .word s
  word : ∀ c s, Takes .word (c :: s) ↔ isWordChar c = true ∧ Takes .word s ∨ c = '-' ∧ Takes .dash s
  refused : ∀ s, ¬ Takes .refused s

namespace Describes

variable {Takes : State → List Char → Prop}

theorem cons (h : Describes Takes) (q : State) (c : Char) (s : List Char) :
    Takes q (c :: s) ↔ Takes (step q c) s := by
  have hcolon : isAlphanumeric ':' = false := by decide
  have hdash : isWordChar '-' = false := by decide
  cases q with
  | start =>
    rw [h.start, step]
    by_cases hupper : isUpper c = true
    · simp [hupper, isLower_eq_false hupper]
    · by_cases hlower : isLower c = true
      · simp [hupper, hlower]
      · simp [hupper, hlower, h.refused]
  | name =>
    rw [h.name, step, ← isAlphanumeric]
    by_cases hc : c = ':'
    · simp [hc, hcolon]
    · by_cases hinside : isAlphanumeric c = true
      · simp [hinside, hc]
      · simp [hinside, hc, h.refused]
  | colon =>
    rw [h.colon, step]
    by_cases hc : c = ':'
    · simp [hc]
    · simp [hc, h.refused]
  | colons =>
    rw [h.colons, step]
    by_cases hupper : isUpper c = true
    · simp [hupper]
    · simp [hupper, h.refused]
  | firstWord =>
    rw [h.firstWord, step, ← isWordChar]
    by_cases hc : c = '-'
    · simp [hc, hdash]
    · by_cases hinside : isWordChar c = true
      · simp [hinside, hc]
      · simp [hinside, hc, h.refused]
  | dash =>
    rw [h.dash, step, ← isWordChar]
    by_cases hinside : isWordChar c = true
    · simp [hinside]
    · simp [hinside, h.refused]
  | word =>
    rw [h.word, step, ← isWordChar]
    by_cases hc : c = '-'
    · simp [hc, hdash]
    · by_cases hinside : isWordChar c = true
      · simp [hinside, hc]
      · simp [hinside, hc, h.refused]
  | refused => exact iff_of_false (h.refused _) (h.refused s)

theorem accepts_iff (h : Describes Takes) (q : State) (s : List Char) :
    (s.foldl step q).accepts = true ↔ Takes q s := by
  induction s generalizing q with
  | nil => exact (h.nil q).symm
  | cons c s ih => rw [List.foldl_cons, ih, h.cons]

end Describes

/-! ### Cutting a tag -/

/-- A text cut at every `::`, from left to right. -/
def atColons : List Char → List (List Char)
  | ':' :: ':' :: rest => [] :: atColons rest
  | c :: rest => extendFirst c (atColons rest)
  | [] => [[]]

/-- A letter in upper case, then letters and digits. -/
def isName : List Char → Bool
  | [] => false
  | c :: rest => isUpper c && rest.all isAlphanumeric

/-- Letters in lower case and digits, at least one. -/
def isWord : List Char → Bool
  | [] => false
  | c :: rest => isWordChar c && rest.all isWordChar

/-- Names with `::` between them. -/
def IsQualified (s : List Char) : Prop := ∀ p ∈ atColons s, isName p = true

/-- At least two words with dashes between them, the first one beginning with a letter. -/
structure IsDashed (s : List Char) : Prop where
  two_le_length : 2 ≤ (pieces '-' s).length
  isWord_of_mem : ∀ p ∈ pieces '-' s, isWord p = true
  exists_head : ∃ c p ps, pieces '-' s = (c :: p) :: ps ∧ isLower c = true

/-- Pieces of which the first one has begun already: characters of `inside` up to its end, and whole pieces. -/
def Continues (inside : Char → Bool) (whole : List Char → Bool) : List (List Char) → Prop
  | [] => False
  | p :: ps => p.all inside = true ∧ ∀ q ∈ ps, whole q = true

theorem continues_extendFirst {inside : Char → Bool} {whole : List Char → Bool} (c : Char)
    {ps : List (List Char)} (h : ps ≠ []) :
    Continues inside whole (extendFirst c ps) ↔ inside c = true ∧ Continues inside whole ps := by
  cases ps with
  | nil => exact absurd rfl h
  | cons p ps => simp [extendFirst, Continues, and_assoc]

theorem isName_extendFirst (c : Char) {ps : List (List Char)} (h : ps ≠ []) :
    (∀ p ∈ extendFirst c ps, isName p = true) ↔
      isUpper c = true ∧ Continues isAlphanumeric isName ps := by
  cases ps with
  | nil => exact absurd rfl h
  | cons p ps => simp [extendFirst, Continues, isName, and_assoc]

theorem isWord_extendFirst (c : Char) {ps : List (List Char)} (h : ps ≠ []) :
    (∀ p ∈ extendFirst c ps, isWord p = true) ↔
      isWordChar c = true ∧ Continues isWordChar isWord ps := by
  cases ps with
  | nil => exact absurd rfl h
  | cons p ps => simp [extendFirst, Continues, isWord, and_assoc]

theorem atColons_ne_nil (s : List Char) : atColons s ≠ [] := by
  fun_induction atColons s with
  | case1 rest ih => simp
  | case2 c rest h ih => cases hrest : atColons rest <;> simp [extendFirst]
  | case3 => simp

theorem atColons_cons {c : Char} {s : List Char} (h : c = ':' → ∀ t, s ≠ ':' :: t) :
    atColons (c :: s) = extendFirst c (atColons s) := by
  rw [atColons]
  exact fun t hc hs => h hc t hs

theorem pieces_cons {c : Char} (h : c ≠ '-') (s : List Char) :
    pieces '-' (c :: s) = extendFirst c (pieces '-' s) := by
  rw [pieces, if_neg h]

theorem isQualified_cons (c : Char) (s : List Char) :
    IsQualified (c :: s) ↔ isUpper c = true ∧ Continues isAlphanumeric isName (atColons s) := by
  by_cases h : c = ':' ∧ ∃ t, s = ':' :: t
  · obtain ⟨rfl, t, rfl⟩ := h
    have hcolon : isUpper ':' = false := by decide
    simp [IsQualified, atColons, isName, hcolon]
  · rw [IsQualified, atColons_cons fun hc t hs => h ⟨hc, t, hs⟩, isName_extendFirst c (atColons_ne_nil s)]

theorem continues_atColons_cons (c : Char) (s : List Char) :
    Continues isAlphanumeric isName (atColons (c :: s)) ↔
      isAlphanumeric c = true ∧ Continues isAlphanumeric isName (atColons s) ∨
        c = ':' ∧ ∃ t, s = ':' :: t ∧ IsQualified t := by
  have hcolon : isAlphanumeric ':' = false := by decide
  by_cases h : c = ':' ∧ ∃ t, s = ':' :: t
  · obtain ⟨rfl, t, rfl⟩ := h
    simp [atColons, Continues, hcolon, IsQualified]
  · rw [atColons_cons fun hc t hs => h ⟨hc, t, hs⟩, continues_extendFirst c (atColons_ne_nil s)]
    refine ⟨.inl, fun hcs => hcs.resolve_right ?_⟩
    rintro ⟨hc, t, hs, -⟩
    exact h ⟨hc, t, hs⟩

theorem words_cons (c : Char) (s : List Char) :
    (∀ p ∈ pieces '-' (c :: s), isWord p = true) ↔
      isWordChar c = true ∧ Continues isWordChar isWord (pieces '-' s) := by
  by_cases hc : c = '-'
  · have hdash : isWordChar '-' = false := by decide
    simp [pieces, hc, isWord, hdash]
  · rw [pieces_cons hc, isWord_extendFirst c (pieces_ne_nil '-' s)]

theorem continues_pieces_cons (c : Char) (s : List Char) :
    Continues isWordChar isWord (pieces '-' (c :: s)) ↔
      isWordChar c = true ∧ Continues isWordChar isWord (pieces '-' s) ∨
        c = '-' ∧ ∀ p ∈ pieces '-' s, isWord p = true := by
  by_cases hc : c = '-'
  · have hdash : isWordChar '-' = false := by decide
    simp [pieces, hc, Continues, hdash]
  · rw [pieces_cons hc, continues_extendFirst c (pieces_ne_nil '-' s)]
    simp [hc]

theorem isDashed_cons (c : Char) (s : List Char) :
    IsDashed (c :: s) ↔ isLower c = true ∧ Continues isWordChar isWord (pieces '-' s) ∧
      2 ≤ (pieces '-' s).length := by
  obtain ⟨p, ps, hp⟩ := List.exists_cons_of_ne_nil (pieces_ne_nil '-' s)
  by_cases hc : c = '-'
  · have hdash : isLower '-' = false := by decide
    have hnot : ¬ IsDashed (c :: s) := fun h => by
      obtain ⟨d, q, qs, hq, -⟩ := h.exists_head
      rw [pieces, if_pos hc] at hq
      cases hq
    rw [iff_false_left hnot]
    simp [hc, hdash]
  · have hcons := pieces_cons hc s
    have hlength := length_extendFirst c (pieces_ne_nil '-' s)
    constructor
    · rintro ⟨htwo, hword, d, q, qs, hq, hd⟩
      rw [hcons, hp, extendFirst] at hq
      obtain rfl : c = d := by injection hq with hq; injection hq
      exact ⟨hd, ((words_cons c s).1 hword).2, by rwa [hcons, hlength] at htwo⟩
    · rintro ⟨hlower, hcontinues, htwo⟩
      have hword : isWordChar c = true := by simp [isWordChar, hlower]
      exact ⟨by rwa [hcons, hlength], (words_cons c s).2 ⟨hword, hcontinues⟩, c, p, ps,
        by rw [hcons, hp, extendFirst], hlower⟩

/-- What each state takes, by the pieces. -/
def TakesPieces : State → List Char → Prop
  | .start, s => IsQualified s ∨ IsDashed s
  | .name, s => Continues isAlphanumeric isName (atColons s)
  | .colon, s => ∃ t, s = ':' :: t ∧ IsQualified t
  | .colons, s => IsQualified s
  | .firstWord, s => Continues isWordChar isWord (pieces '-' s) ∧ 2 ≤ (pieces '-' s).length
  | .dash, s => ∀ p ∈ pieces '-' s, isWord p = true
  | .word, s => Continues isWordChar isWord (pieces '-' s)
  | .refused, _ => False

theorem takesPieces_nil (q : State) : TakesPieces q [] ↔ q.accepts = true := by
  cases q with
  | start =>
    have hdashed : ¬ IsDashed [] := fun h => absurd h.two_le_length (by decide)
    simp [TakesPieces, State.accepts, IsQualified, atColons, isName, hdashed]
  | _ => simp [TakesPieces, State.accepts, IsQualified, atColons, pieces, Continues, isName, isWord]

/-- One more word is in front of at least one. -/
theorem takesPieces_firstWord_cons (c : Char) (s : List Char) :
    TakesPieces .firstWord (c :: s) ↔
      isWordChar c = true ∧ TakesPieces .firstWord s ∨ c = '-' ∧ TakesPieces .dash s := by
  have hlength : 2 ≤ (pieces '-' ('-' :: s)).length := by
    rw [length_pieces, List.count_cons_self]
    omega
  have hdash : isWordChar '-' = false := by decide
  by_cases hc : c = '-'
  · simp only [TakesPieces, continues_pieces_cons]
    simp [hc, hdash, hlength]
  · simp only [TakesPieces, continues_pieces_cons]
    simp [hc, pieces_cons, length_extendFirst c (pieces_ne_nil '-' s), and_assoc]

theorem describes_takesPieces : Describes TakesPieces where
  nil := takesPieces_nil
  start c s := or_congr (isQualified_cons c s) (isDashed_cons c s)
  name := continues_atColons_cons
  colon c s := by simp [TakesPieces]
  colons := isQualified_cons
  firstWord := takesPieces_firstWord_cons
  dash := words_cons
  word := continues_pieces_cons
  refused _ := id

/-! ### The regular expression -/

/-- The texts of one character of a class. -/
def one (p : Char → Bool) : Language Char := {s | ∃ c, p c = true ∧ s = [c]}

section Language

variable {p : Char → Bool} {L : Language Char} {c : Char} {s : List Char}

theorem nil_mem_one_mul : [] ∉ one p * L := by
  rintro ⟨a, ⟨c, -, rfl⟩, b, -, hb⟩
  cases hb

theorem cons_mem_one_mul : c :: s ∈ one p * L ↔ p c = true ∧ s ∈ L := by
  constructor
  · rintro ⟨a, ⟨d, hd, rfl⟩, b, hb, hab⟩
    obtain ⟨rfl, rfl⟩ := List.cons.inj hab
    exact ⟨hd, hb⟩
  · rintro ⟨hc, hs⟩
    exact ⟨[c], ⟨c, hc, rfl⟩, s, hs, rfl⟩

theorem cons_mem_kstar : c :: s ∈ L∗ ↔ c :: s ∈ L * L∗ := by
  conv_lhs => rw [← Language.one_add_self_mul_kstar_eq_kstar, Language.mem_add, Language.mem_one]
  exact or_iff_right (List.cons_ne_nil c s)

theorem kstar_mul (K L : Language Char) : K∗ * L = L + K * (K∗ * L) := by
  conv_lhs => rw [← Language.one_add_self_mul_kstar_eq_kstar, add_mul, one_mul, mul_assoc]

theorem nil_mem_kstar_mul : [] ∈ (one p)∗ * L ↔ [] ∈ L := by
  rw [kstar_mul, Language.mem_add]
  exact or_iff_left nil_mem_one_mul

theorem cons_mem_kstar_mul : c :: s ∈ (one p)∗ * L ↔ p c = true ∧ s ∈ (one p)∗ * L ∨ c :: s ∈ L := by
  conv_lhs => rw [kstar_mul, Language.mem_add, cons_mem_one_mul]
  exact or_comm

end Language

/-- A letter in upper case, then letters and digits. -/
def oneName : Language Char := one isUpper * (one isAlphanumeric)∗

/-- Letters in lower case and digits, at least one. -/
def oneWord : Language Char := one isWordChar * (one isWordChar)∗

/-- A double colon and a name. -/
def furtherName : Language Char := one (· == ':') * (one (· == ':') * oneName)

/-- A dash and a word. -/
def furtherWord : Language Char := one (· == '-') * oneWord

/-- A name and any number of further ones, or a word that begins with a letter and at least one further
word. -/
def pattern : Language Char :=
  oneName * furtherName∗ + one isLower * (one isWordChar)∗ * (furtherWord * furtherWord∗)

/-- What each state takes, by the regular expression. -/
def rest : State → Language Char
  | .start => pattern
  | .name => (one isAlphanumeric)∗ * furtherName∗
  | .colon => one (· == ':') * (oneName * furtherName∗)
  | .colons => oneName * furtherName∗
  | .firstWord => (one isWordChar)∗ * (furtherWord * furtherWord∗)
  | .dash => oneWord * furtherWord∗
  | .word => (one isWordChar)∗ * furtherWord∗
  | .refused => 0

theorem cons_mem_furtherName_mul {c : Char} {s : List Char} :
    c :: s ∈ furtherName * furtherName∗ ↔ c = ':' ∧ s ∈ rest .colon := by
  rw [furtherName, mul_assoc, cons_mem_one_mul, mul_assoc, beq_iff_eq]
  rfl

theorem cons_mem_furtherWord_mul {c : Char} {s : List Char} :
    c :: s ∈ furtherWord * furtherWord∗ ↔ c = '-' ∧ s ∈ rest .dash := by
  rw [furtherWord, mul_assoc, cons_mem_one_mul, beq_iff_eq]
  rfl

theorem nil_mem_rest (q : State) : [] ∈ rest q ↔ q.accepts = true := by
  cases q with
  | start =>
    rw [rest, pattern, Language.mem_add, oneName, mul_assoc, mul_assoc]
    exact iff_of_false (not_or.2 ⟨nil_mem_one_mul, nil_mem_one_mul⟩) Bool.false_ne_true
  | name => simp [rest, nil_mem_kstar_mul, Language.nil_mem_kstar, State.accepts]
  | colon => simp [rest, nil_mem_one_mul, State.accepts]
  | colons => simp [rest, oneName, mul_assoc, nil_mem_one_mul, State.accepts]
  | firstWord => simp [rest, nil_mem_kstar_mul, furtherWord, mul_assoc, nil_mem_one_mul, State.accepts]
  | dash => simp [rest, oneWord, mul_assoc, nil_mem_one_mul, State.accepts]
  | word => simp [rest, nil_mem_kstar_mul, Language.nil_mem_kstar, State.accepts]
  | refused => simp [rest, Language.notMem_zero, State.accepts]

theorem describes_rest : Describes fun q s => s ∈ rest q where
  nil := nil_mem_rest
  start c s := by
    show c :: s ∈ pattern ↔ _
    rw [pattern, Language.mem_add, oneName, mul_assoc, mul_assoc, cons_mem_one_mul, cons_mem_one_mul]
    rfl
  name c s := by
    show c :: s ∈ (one isAlphanumeric)∗ * furtherName∗ ↔ _
    rw [cons_mem_kstar_mul, cons_mem_kstar, cons_mem_furtherName_mul]
    rfl
  colon c s := by
    show c :: s ∈ one (· == ':') * (oneName * furtherName∗) ↔ _
    rw [cons_mem_one_mul, beq_iff_eq]
    rfl
  colons c s := by
    show c :: s ∈ oneName * furtherName∗ ↔ _
    rw [oneName, mul_assoc, cons_mem_one_mul]
    rfl
  firstWord c s := by
    show c :: s ∈ (one isWordChar)∗ * (furtherWord * furtherWord∗) ↔ _
    rw [cons_mem_kstar_mul, cons_mem_furtherWord_mul]
    rfl
  dash c s := by
    show c :: s ∈ oneWord * furtherWord∗ ↔ _
    rw [oneWord, mul_assoc, cons_mem_one_mul]
    rfl
  word c s := by
    show c :: s ∈ (one isWordChar)∗ * furtherWord∗ ↔ _
    rw [cons_mem_kstar_mul, cons_mem_kstar, cons_mem_furtherWord_mul]
    rfl
  refused s := Language.notMem_zero s

/-! ### What is accepted -/

/-- No state goes on behind another character. -/
theorem step_of_not_isTagChar {c : Char} (hc : isTagChar c = false) (q : State) :
    step q c = .refused := by
  simp only [isTagChar, isAlphanumeric, Bool.or_eq_false_iff, beq_eq_false_iff_ne] at hc
  obtain ⟨⟨⟨⟨hupper, hlower⟩, hdigit⟩, hcolon⟩, hdash⟩ := hc
  cases q <;> simp [step, hupper, hlower, hdigit, hcolon, hdash]

theorem foldl_step_of_mem {c : Char} {s : List Char} (hmem : c ∈ s) (hc : isTagChar c = false) (q : State) :
    s.foldl step q = .refused := by
  induction s generalizing q with
  | nil => exact absurd hmem List.not_mem_nil
  | cons d s ih =>
    rw [List.foldl_cons]
    rcases List.mem_cons.1 hmem with rfl | hmem
    · rw [step_of_not_isTagChar hc, foldl_step_refused]
    · exact ih hmem _

theorem IsQualified.exists_head {s : List Char} (h : IsQualified s) :
    ∃ c t, s = c :: t ∧ isUpper c = true := by
  cases s with
  | nil => exact absurd (h [] List.mem_cons_self) (by decide)
  | cons c s => exact ⟨c, s, rfl, ((isQualified_cons c s).1 h).1⟩

theorem IsDashed.exists_cons {s : List Char} (h : IsDashed s) :
    ∃ c t, s = c :: t ∧ isLower c = true := by
  cases s with
  | nil => exact absurd h.two_le_length (by decide)
  | cons c s => exact ⟨c, s, rfl, ((isDashed_cons c s).1 h).1⟩

end TemplateLinker.ComponentTag

namespace TemplateLinker

open ComponentTag Text

/-- **Which tags look like components.**  A tag does if and only if its pieces between `::` are names, or its
pieces between dashes are at least two words of which the first begins with a letter; this is the regular
expression of the two forms.  No tag has both forms, their characters are of ASCII and neither blanks nor
dots, signs or slashes, and a tag without a letter in upper case and without a dash has neither form. -/
theorem looksLikeComponent_forms (tag : String) :
    (looksLikeComponent tag = true ↔ IsQualified tag.toList ∨ IsDashed tag.toList) ∧
    (looksLikeComponent tag = true ↔ tag.toList ∈ pattern) ∧
    ¬ (IsQualified tag.toList ∧ IsDashed tag.toList) ∧
    (looksLikeComponent tag = true → ∀ c ∈ tag.toList,
      c.toNat < 128 ∧ isBlank c = false ∧ c ∉ ['\n', '.', '@', '/']) ∧
    ((∀ c ∈ tag.toList, isUpper c = false) → '-' ∉ tag.toList → looksLikeComponent tag = false) := by
  have hpieces : looksLikeComponent tag = true ↔ IsQualified tag.toList ∨ IsDashed tag.toList :=
    describes_takesPieces.accepts_iff .start tag.toList
  refine ⟨hpieces, describes_rest.accepts_iff .start tag.toList, ?_, fun h c hc => ?_, fun hupper hdash => ?_⟩
  · rintro ⟨hqualified, hdashed⟩
    obtain ⟨c, t, ht, hupper⟩ := hqualified.exists_head
    obtain ⟨d, u, hu, hlower⟩ := hdashed.exists_cons
    rw [ht] at hu
    obtain ⟨rfl, -⟩ := List.cons.inj hu
    rw [isLower_eq_false hupper] at hlower
    exact absurd hlower Bool.false_ne_true
  · refine plain_of_isTagChar (Bool.eq_true_of_not_eq_false fun hno => ?_)
    rw [looksLikeComponent, foldl_step_of_mem hc hno] at h
    exact absurd h (by decide)
  · refine Bool.eq_false_iff.2 fun h => ?_
    rcases hpieces.1 h with hqualified | hdashed
    · obtain ⟨c, t, ht, hc⟩ := hqualified.exists_head
      have hfalse := hupper c (ht ▸ List.mem_cons_self)
      rw [hc] at hfalse
      exact absurd hfalse (by decide)
    · have htwo := hdashed.two_le_length
      rw [length_pieces, List.count_eq_zero.2 hdash] at htwo
      exact absurd htwo (by decide)

end TemplateLinker
