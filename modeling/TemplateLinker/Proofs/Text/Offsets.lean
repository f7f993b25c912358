import Mathlib.Data.List.Induction
import TemplateLinker.Proofs.Text.Lines

/-!
# Proofs.Text.Offsets — every offset has one line and one column

A text shorter than `2 ^ 32` bytes keeps its line starts in words of 32 bits without loss (`map_toNat_words`).
Of the search for a line only the contract is used (`Search.Answers`): whatever it answers, the line that is
read off it is the one that bisection finds (`LineMap.line?_of_answers`).  The line begins right behind the last
newline in front of the offset (`startsLine_lineOf`), so that an offset is located where counting newlines and
bytes puts it (`locate_eq_positionAt`), and positions keep the order of offsets (`before_of_lt`).
-/

namespace TemplateLinker

/-! ### Searching an increasing list -/

/-- What a search answers: the place of the value, or the place where it would have to be inserted. -/
inductive Search where
  | found (index : Nat)
  | missing (index : Nat)
  deriving DecidableEq, Repr

namespace Search

/-- The line that is read off an answer about line starts: the one found, or the one in front of the place of
insertion; there is none in front of the first place. -/
def line? : Search → Option Nat
  | found i => some i
  | missing 0 => none
  | missing (i + 1) => some i

/-- The answers that a search for `x` in an increasing list may give. -/
inductive Answers {α : Type} [LT α] (l : List α) (x : α) : Search → Prop
  | found {i : Nat} (hi : l[i]? = some x) : Answers l x (.found i)
  | missing {before after : List α} (hl : l = before ++ after) (hbefore : ∀ a ∈ before, a < x)
      (hafter : ∀ a ∈ after, x < a) : Answers l x (.missing before.length)

/-- There is one answer, given by the last entry that is not above `x`. -/
theorem Answers.eq_of_increasing {l : List Nat} (hl : l.Pairwise (· < ·)) {x i : Nat} (hi : i < l.length)
    (hle : l[i] ≤ x) (hlt : ∀ hi : i + 1 < l.length, x < l[i + 1]) {answer : Search}
    (h : Answers l x answer) : answer = if l[i] = x then .found i else .missing (i + 1) := by
  have hcount : l.countP (· ≤ x) = i + 1 := countP_le_of_pairwise hl hi hle hlt
  cases h with
  | @found j hj =>
    obtain ⟨hj, hjx⟩ := List.getElem?_eq_some_iff.1 hj
    have hcountj : l.countP (· ≤ x) = j + 1 :=
      countP_le_of_pairwise hl hj (Nat.le_of_eq hjx) fun hj' =>
        hjx ▸ List.pairwise_iff_getElem.1 hl j (j + 1) hj hj' (Nat.lt_succ_self j)
    obtain rfl : i = j := by omega
    rw [if_pos hjx]
  | @missing before after hsplit hbefore hafter =>
    subst hsplit
    have hbeforecount : before.countP (· ≤ x) = before.length :=
      List.countP_eq_length.2 fun a ha => by simpa using Nat.le_of_lt (hbefore a ha)
    have haftercount : after.countP (· ≤ x) = 0 :=
      List.countP_eq_zero.2 fun a ha => by simpa using hafter a ha
    have hlen : before.length = i + 1 := by
      rw [List.countP_append, hbeforecount, haftercount] at hcount
      omega
    have hlast : (before ++ after)[i] < x := by
      rw [List.getElem_append_left (by omega)]
      exact hbefore _ (List.getElem_mem _)
    rw [if_neg (Nat.ne_of_lt hlast), hlen]

theorem Answers.toNat {l : List UInt32} {x : UInt32} {answer : Search} (h : Answers l x answer) :
    Answers (l.map UInt32.toNat) x.toNat answer := by
  cases h with
  | found hi => exact .found (by simp [hi])
  | @missing before after hsplit hbefore hafter =>
    have hmap : l.map UInt32.toNat = before.map UInt32.toNat ++ after.map UInt32.toNat := by
      rw [hsplit, List.map_append]
    have hlen : before.length = (before.map UInt32.toNat).length := by rw [List.length_map]
    rw [hlen]
    refine .missing hmap (fun a ha => ?_) fun a ha => ?_
    · obtain ⟨w, hw, rfl⟩ := List.mem_map.1 ha
      exact UInt32.lt_iff_toNat_lt.1 (hbefore w hw)
    · obtain ⟨w, hw, rfl⟩ := List.mem_map.1 ha
      exact UInt32.lt_iff_toNat_lt.1 (hafter w hw)

theorem exists_answers {l : List UInt32} (hl : l.Pairwise (· < ·)) (x : UInt32) :
    ∃ answer, Answers l x answer := by
  by_cases hx : x ∈ l
  · obtain ⟨i, hi⟩ := List.getElem?_of_mem hx
    exact ⟨_, .found hi⟩
  · suffices ∃ before after, l = before ++ after ∧ (∀ a ∈ before, a < x) ∧ ∀ a ∈ after, x < a by
      obtain ⟨before, after, hsplit, hbefore, hafter⟩ := this
      exact ⟨_, .missing hsplit hbefore hafter⟩
    induction l with
    | nil => exact ⟨[], [], rfl, by simp, by simp⟩
    | cons a l ih =>
      obtain ⟨ha, hl⟩ := List.pairwise_cons.1 hl
      obtain ⟨hxa, hx⟩ := not_or.1 (mt List.mem_cons.2 hx)
      by_cases hax : a < x
      · obtain ⟨before, after, rfl, hbefore, hafter⟩ := ih hl hx
        refine ⟨a :: before, after, rfl, fun b hb => ?_, hafter⟩
        rcases List.mem_cons.1 hb with rfl | hb
        · exact hax
        · exact hbefore b hb
      · have hxa : x < a := by
          have hne : a.toNat ≠ x.toNat := fun h => hxa (UInt32.toNat_inj.1 h).symm
          rw [UInt32.lt_iff_toNat_lt] at hax ⊢
          omega
        refine ⟨[], a :: l, rfl, by simp, fun b hb => ?_⟩
        rcases List.mem_cons.1 hb with rfl | hb
        · exact hxa
        · exact UInt32.lt_trans hxa (ha b hb)

end Search

/-! ### Where the line of an offset begins -/

namespace Text

/-- `start` is the offset right behind the last newline in front of `pos`, or 0 if there is none. -/
structure StartsLine (bs : List UInt8) (pos start : Nat) : Prop where
  start_le : start ≤ pos
  behind_newline : start = 0 ∨ ∃ i, start = i + 1 ∧ bs[i]? = some newline
  no_newline : ∀ i, start ≤ i → i < pos → bs[i]? ≠ some newline

/-- Bytes are whole lines and a part of the next one. -/
theorem exists_lines_append (bs : List UInt8) :
    ∃ lines part, bs = lines ++ part ∧ (lines = [] ∨ ∃ ls, lines = ls ++ [newline]) ∧ newline ∉ part := by
  induction bs using List.reverseRecOn with
  | nil => exact ⟨[], [], rfl, .inl rfl, List.not_mem_nil⟩
  | append_singleton bs b ih =>
    by_cases hb : b = newline
    · subst hb
      exact ⟨bs ++ [newline], [], by simp, .inr ⟨bs, rfl⟩, List.not_mem_nil⟩
    · obtain ⟨lines, part, rfl, hlines, hpart⟩ := ih
      exact ⟨lines, part ++ [b], by simp, hlines, by simp [hpart, Ne.symm hb]⟩

theorem startsLine_of_take {bs lines part : List UInt8} {pos : Nat} (h : bs.take pos = lines ++ part)
    (hlines : lines = [] ∨ ∃ ls, lines = ls ++ [newline]) (hpart : newline ∉ part) :
    StartsLine bs pos lines.length where
  start_le := by
    have hlen := congrArg List.length h
    rw [List.length_take, List.length_append] at hlen
    omega
  behind_newline := by
    rcases hlines with rfl | ⟨ls, rfl⟩
    · exact .inl rfl
    · have hget : (bs.take pos)[ls.length]? = some newline := by simp [h]
      rw [List.getElem?_take] at hget
      exact .inr ⟨ls.length, by simp, (ite_eq_iff.1 hget).elim And.right fun h => nomatch h.2⟩
  no_newline := by
    intro i hle hlt hget
    have htake : (lines ++ part)[i]? = some newline := by rw [← h, List.getElem?_take_of_lt hlt, hget]
    rw [List.getElem?_append_right hle] at htake
    exact hpart (List.mem_of_getElem? htake)

/-- The line and the column of an offset, counted in bytes: the newlines below it, and how far it is behind the
lines that they end. -/
def positionAt (bs : List UInt8) (pos : Nat) : Position :=
  let before := bs.take pos
  ⟨before.count newline, pos - (before.reverse.dropWhile (· ≠ newline)).length⟩

theorem positionAt_of_lines {bs lines part : List UInt8} {pos : Nat} (h : bs.take pos = lines ++ part)
    (hlines : lines = [] ∨ ∃ ls, lines = ls ++ [newline]) (hpart : newline ∉ part) :
    positionAt bs pos = ⟨lines.count newline, pos - lines.length⟩ := by
  -- read from the end, the part is dropped as a whole and the lines begin with a newline
  have hwhole : (lines ++ part).reverse.dropWhile (· ≠ newline) = lines.reverse := by
    have hdrop : ∀ b ∈ part.reverse, decide (b ≠ newline) = true := fun b hb =>
      decide_eq_true fun h => hpart (h ▸ List.mem_reverse.1 hb)
    rw [List.reverse_append, List.dropWhile_append_of_pos hdrop]
    rcases hlines with rfl | ⟨ls, rfl⟩
    · rfl
    · rw [List.reverse_append, List.reverse_singleton, List.singleton_append,
        List.dropWhile_cons_of_neg (by simp)]
  simp only [positionAt, h, hwhole, List.count_append, List.count_eq_zero.2 hpart, List.length_reverse,
    Nat.add_zero]

theorem le_of_mem_breaksFrom {pos start : Nat} {bs : List UInt8} (h : start ∈ breaksFrom pos bs) :
    start ≤ pos + bs.length := by
  induction bs generalizing pos with
  | nil => simp [breaksFrom] at h
  | cons b bs ih =>
    rw [breaksFrom] at h
    rw [List.length_cons]
    split at h
    · rcases List.mem_cons.1 h with rfl | h
      · omega
      · have := ih h
        omega
    · have := ih h
      omega

end Text

namespace LineMap

open Text

/-- **An offset is located at its line and column.** -/
theorem locate_eq_positionAt (bs : List UInt8) (pos : Nat) : (ofBytes bs).locate pos = positionAt bs pos := by
  obtain ⟨lines, part, htake, hlines, hpart⟩ := exists_lines_append (bs.take pos)
  rw [locate_ofBytes htake hlines hpart, positionAt_of_lines htake hlines hpart]

theorem startsLine_lineOf (bs : List UInt8) (pos : Nat) :
    StartsLine bs pos ((ofBytes bs).start ((ofBytes bs).lineOf pos)) := by
  obtain ⟨lines, part, htake, hlines, hpart⟩ := exists_lines_append (bs.take pos)
  rw [lineOf_of_lines htake hpart, start_of_lines htake hlines]
  exact startsLine_of_take htake hlines hpart

/-! ### Line starts in words -/

/-- The line starts in words of 32 bits. -/
def words (m : LineMap) : List UInt32 := m.starts.toList.map UInt32.ofNat

/-- The word in which the line of an offset begins; offsets being words, it is exact. -/
theorem exists_word (bs : List UInt8) (pos : UInt32) :
    ∃ start : UInt32, (ofBytes bs).words[(ofBytes bs).lineOf pos.toNat]? = some start ∧
      start.toNat = (ofBytes bs).start ((ofBytes bs).lineOf pos.toNat) := by
  obtain ⟨hline, hle, -⟩ := lineOf_spec bs pos.toNat
  rw [length_starts] at hline
  rw [start_ofBytes, List.getD_eq_getElem _ 0 hline] at hle ⊢
  refine ⟨_, ?_, UInt32.toNat_ofNat_of_lt' (Nat.lt_of_le_of_lt hle pos.toNat_lt)⟩
  rw [words, List.getElem?_map]
  exact congrArg _ (List.getElem?_eq_getElem hline)

section Words

variable {bs : List UInt8} (hsize : bs.length < UInt32.size)

include hsize

theorem toNat_ofNat_of_mem {start : Nat} (h : start ∈ 0 :: breaksFrom 0 bs) :
    (UInt32.ofNat start).toNat = start := by
  refine UInt32.toNat_ofNat_of_lt' (Nat.lt_of_le_of_lt ?_ hsize)
  rcases List.mem_cons.1 h with rfl | h
  · exact Nat.zero_le _
  · simpa using le_of_mem_breaksFrom h

/-- Words keep the line starts of a text that is not too long. -/
theorem map_toNat_words : (ofBytes bs).words.map UInt32.toNat = 0 :: breaksFrom 0 bs := by
  rw [words, List.map_map]
  exact (List.map_congr_left fun start h => toNat_ofNat_of_mem hsize h).trans (List.map_id _)

theorem pairwise_words : (ofBytes bs).words.Pairwise (· < ·) := by
  have h := pairwise_starts bs
  rw [← map_toNat_words hsize, List.pairwise_map] at h
  exact h.imp UInt32.lt_iff_toNat_lt.2

/-- What the search for an offset answers: its line if the line begins there, and otherwise the next one,
which is never the first. -/
theorem answers_words_iff {pos start : UInt32}
    (hstart : start.toNat = (ofBytes bs).start ((ofBytes bs).lineOf pos.toNat)) (answer : Search) :
    Search.Answers (ofBytes bs).words pos answer ↔
      answer = if start = pos then .found ((ofBytes bs).lineOf pos.toNat)
        else .missing ((ofBytes bs).lineOf pos.toNat + 1) := by
  have hunique {answer : Search} (h : Search.Answers (ofBytes bs).words pos answer) :
      answer = if start = pos then .found ((ofBytes bs).lineOf pos.toNat)
        else .missing ((ofBytes bs).lineOf pos.toNat + 1) := by
    obtain ⟨hline, hle, hlt⟩ := lineOf_spec bs pos.toNat
    have hanswers := h.toNat
    rw [map_toNat_words hsize] at hanswers
    rw [length_starts] at hline hlt
    rw [start_ofBytes, List.getD_eq_getElem _ 0 hline] at hle hstart
    have hanswer := hanswers.eq_of_increasing (pairwise_starts bs) hline hle fun h => by
      rcases hlt with hlt | hlt
      · omega
      · rwa [start_ofBytes, List.getD_eq_getElem _ 0 h] at hlt
    simpa only [← hstart, UInt32.toNat_inj] using hanswer
  constructor
  · exact hunique
  · rintro rfl
    obtain ⟨answer, hanswer⟩ := Search.exists_answers (pairwise_words hsize) pos
    rwa [hunique hanswer] at hanswer

/-- Whatever the search answers, the line of the offset is read off it. -/
theorem line?_of_answers {pos : UInt32} {answer : Search}
    (h : Search.Answers (ofBytes bs).words pos answer) :
    answer.line? = some ((ofBytes bs).lineOf pos.toNat) := by
  obtain ⟨start, -, hstart⟩ := exists_word bs pos
  rw [(answers_words_iff hsize hstart answer).1 h]
  by_cases hfound : start = pos
  · rw [if_pos hfound]
    rfl
  · rw [if_neg hfound]
    rfl

end Words

end LineMap

/-! ### The order of positions -/

/-- Lines first, then columns. -/
def Position.Before (p q : Position) : Prop := p.line < q.line ∨ p.line = q.line ∧ p.column < q.column

theorem Position.Before.ne {p q : Position} (h : p.Before q) : p ≠ q := by
  rintro rfl
  rcases h with h | h
  · exact Nat.lt_irrefl _ h
  · exact Nat.lt_irrefl _ h.2

namespace LineMap

open Text

theorem before_of_lt (bs : List UInt8) {p q : Nat} (h : p < q) :
    ((ofBytes bs).locate p).Before ((ofBytes bs).locate q) := by
  have hle : (ofBytes bs).lineOf p ≤ (ofBytes bs).lineOf q := by
    rw [lineOf_ofBytes, lineOf_ofBytes]
    exact (List.take_sublist_take_left (Nat.le_of_lt h)).count_le _
  rcases Nat.lt_or_eq_of_le hle with hlt | heq
  · exact .inl hlt
  · have hstart := (startsLine_lineOf bs p).start_le
    have hcolumn : p - (ofBytes bs).start ((ofBytes bs).lineOf p) <
        q - (ofBytes bs).start ((ofBytes bs).lineOf q) := by
      rw [← heq]
      omega
    exact .inr ⟨heq, hcolumn⟩

/-- **Every offset has its line and its column.**  A text shorter than `2 ^ 32` bytes has one line more than
newlines.  The line of an offset, which may lie inside a character or behind the text, is the number of
newlines below it; its column counts from the offset right behind the last of them.  The search for the
line answers this line or the place behind it, so never the place in front of the first one, and this line
is read off every answer that it may give.  Positions increase with offsets. -/
theorem locates_offsets (text : String) (hsize : (bytes text).length < UInt32.size) :
    (ofText text).lineCount = (bytes text).count newline + 1 ∧
    (∀ pos : UInt32,
      let line := (ofText text).lineOf pos.toNat
      line = ((bytes text).take pos.toNat).count newline ∧ line < (ofText text).lineCount ∧
      line < UInt32.size ∧
      ∃ start : UInt32,
        (ofText text).words[line]? = some start ∧ StartsLine (bytes text) pos.toNat start.toNat ∧
        (ofText text).locate pos.toNat = ⟨line, (pos - start).toNat⟩ ∧
        start.toNat + (pos - start).toNat = pos.toNat ∧
        (∀ answer, Search.Answers (ofText text).words pos answer ↔
          answer = if start = pos then .found line else .missing (line + 1)) ∧
        ∀ answer, Search.Answers (ofText text).words pos answer → answer.line? = some line) ∧
    (∀ p q : UInt32, p < q → ((ofText text).locate p.toNat).Before ((ofText text).locate q.toNat)) ∧
    Function.Injective fun p : UInt32 => (ofText text).locate p.toNat := by
  unfold ofText
  generalize bytes text = bs at hsize ⊢
  have hbefore (p q : UInt32) (h : p < q) :
      ((ofBytes bs).locate p.toNat).Before ((ofBytes bs).locate q.toNat) :=
    before_of_lt bs (UInt32.lt_iff_toNat_lt.1 h)
  refine ⟨lineCount_ofBytes bs, fun pos => ?_, hbefore, fun p q heq => ?_⟩
  · obtain ⟨start, hword, hstart⟩ := exists_word bs pos
    have hstarts := startsLine_lineOf bs pos.toNat
    have hle : start.toNat ≤ pos.toNat := hstart ▸ hstarts.start_le
    have hsub : (pos - start).toNat = pos.toNat - start.toNat := UInt32.toNat_sub_of_le _ _ hle
    have hfits : (ofBytes bs).lineOf pos.toNat < UInt32.size := by
      rw [lineOf_ofBytes]
      exact Nat.lt_of_le_of_lt (Nat.le_trans List.count_le_length (List.length_take_le' _ _)) hsize
    refine ⟨lineOf_ofBytes bs pos.toNat, (lineOf_spec bs pos.toNat).1, hfits, start, hword,
      hstart ▸ hstarts, ?_, by omega, answers_words_iff hsize hstart, fun _ => line?_of_answers hsize⟩
    rw [hsub, hstart]
    rfl
  · rcases Nat.lt_trichotomy p.toNat q.toNat with h | h | h
    · exact absurd heq (hbefore p q (UInt32.lt_iff_toNat_lt.2 h)).ne
    · exact UInt32.toNat_inj.1 h
    · exact absurd heq.symm (hbefore q p (UInt32.lt_iff_toNat_lt.2 h)).ne

/-- An empty line, a newline at the end, an offset inside a character and one behind the text. -/
theorem locates_offsets_of_empty_line :
    let text := "é\n\nx\n"
    (bytes text).length < UInt32.size ∧ (ofText text).lineCount = 4 ∧ (ofText text).lineOf 9 = 3 ∧
      ((ofText text).locate 1).Before ((ofText text).locate 9) := by
  intro text
  have hsize : (bytes text).length < UInt32.size := by decide
  obtain ⟨hcount, hline, hbefore, -⟩ := locates_offsets text hsize
  have hnewlines : (bytes text).count newline = 3 ∧ ((bytes text).take 9).count newline = 3 := by decide
  exact ⟨hsize, by rw [hcount, hnewlines.1], (hline 9).1.trans hnewlines.2, hbefore 1 9 (by decide)⟩

end LineMap

end TemplateLinker
