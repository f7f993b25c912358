import Mathlib.Data.List.GetD
import Mathlib.Tactic.SplitIfs
import TemplateLinker.Text.LineMap
import TemplateLinker.Text.Pieces

/-!
# Proofs.Text.Lines — where a line map locates the end of a text

Bisection finds the last line that begins at or before an offset (`bisect_spec`), so the line of an offset
is the number of newlines below it (`lineOf_ofBytes`).  The offset right behind a text is located at the
line and column at which the text ends (`locate_ofText`), and that is where, in the lines of the source,
the text that follows stands (`standsAt_endOf`).
-/

namespace TemplateLinker

/-! ### Lines of bytes -/

namespace Text

theorem breaksFrom_append (pos : Nat) (bs cs : List UInt8) :
    breaksFrom pos (bs ++ cs) = breaksFrom pos bs ++ breaksFrom (pos + bs.length) cs := by
  induction bs generalizing pos with
  | nil => rfl
  | cons b bs ih =>
    have hpos : pos + (b :: bs).length = pos + 1 + bs.length := by
      rw [List.length_cons]
      omega
    rw [List.cons_append, breaksFrom, breaksFrom, ih, hpos]
    split
    · rfl
    · rfl

/-- Among the lines of the bytes from `base` on, those that begin at or before `pos` are as many as the
newlines before it. -/
theorem countP_breaksFrom (base pos : Nat) (bs : List UInt8) :
    (breaksFrom base bs).countP (· ≤ pos) = (bs.take (pos - base)).count newline := by
  induction bs generalizing base with
  | nil => simp [breaksFrom]
  | cons b bs ih =>
    rw [breaksFrom]
    by_cases hpos : pos ≤ base
    · -- no byte is before the offset
      have hbreaks : (breaksFrom (base + 1) bs).countP (· ≤ pos) = 0 := by
        rw [ih, show pos - (base + 1) = 0 by omega]
        rfl
      rw [show pos - base = 0 by omega]
      split
      · rw [List.countP_cons_of_neg (by simp; omega), hbreaks]
        rfl
      · rw [hbreaks]
        rfl
    · obtain ⟨k, hk⟩ : ∃ k, pos - base = k + 1 := ⟨pos - base - 1, by omega⟩
      have hrest := ih (base + 1)
      rw [show pos - (base + 1) = k by omega] at hrest
      rw [hk, List.take_succ_cons]
      split
      · next hb => rw [List.countP_cons_of_pos (by simp; omega), hrest, hb, List.count_cons_self]
      · next hb => rw [hrest, List.count_cons_of_ne hb]

end Text

/-- The entries of an increasing list up to a bound, when the last of them is known. -/
theorem countP_le_of_pairwise {l : List Nat} (h : l.Pairwise (· < ·)) {i pos : Nat} (hi : i < l.length)
    (hle : l[i] ≤ pos) (hlt : ∀ hi : i + 1 < l.length, pos < l[i + 1]) :
    l.countP (· ≤ pos) = i + 1 := by
  induction l generalizing i with
  | nil => exact absurd hi (Nat.not_lt_zero i)
  | cons a l ih =>
    obtain ⟨ha, hl⟩ := List.pairwise_cons.1 h
    cases i with
    | zero =>
      have hrest : l.countP (· ≤ pos) = 0 := by
        cases l with
        | nil => rfl
        | cons b l =>
          have hb : pos < b := hlt (by simp)
          refine List.countP_eq_zero.2 fun c hc => ?_
          rcases List.mem_cons.1 hc with rfl | hc
          · simpa using hb
          · have hbc : b < c := (List.pairwise_cons.1 hl).1 c hc
            simp
            omega
      rw [List.countP_cons_of_pos (by simpa using hle), hrest]
    | succ i =>
      have hi' : i < l.length := Nat.lt_of_succ_lt_succ hi
      have hai : a < l[i] := ha _ (List.getElem_mem hi')
      have hle' : l[i] ≤ pos := hle
      have hrest := ih hl hi' hle' fun h' => hlt (Nat.succ_lt_succ h')
      rw [List.countP_cons_of_pos (by simp; omega), hrest]

namespace LineMap

open Text

/-- **Bisection finds the last line that begins at or before an offset.** -/
theorem bisect_spec (m : LineMap) {pos low high : Nat} (hlow : low < high) (hsize : high ≤ m.lineCount)
    (hstart : m.start low ≤ pos) (hhigh : high = m.lineCount ∨ pos < m.start high) :
    m.bisect pos low high < m.lineCount ∧ m.start (m.bisect pos low high) ≤ pos ∧
      (m.bisect pos low high + 1 = m.lineCount ∨ pos < m.start (m.bisect pos low high + 1)) := by
  fun_induction bisect m pos low high with
  | case1 low high h mid hmid ih => exact ih (by omega) hsize hmid hhigh
  | case2 low high h mid hmid ih => exact ih (by omega) (by omega) hstart (.inr (by omega))
  | case3 low high h =>
    have hlast : low + 1 = high := by omega
    exact ⟨by omega, hstart, hlast ▸ hhigh⟩

theorem start_ofBytes (bs : List UInt8) (i : Nat) : (ofBytes bs).start i = (0 :: breaksFrom 0 bs).getD i 0 := by
  simp [start, ofBytes]

theorem length_starts (bs : List UInt8) : (ofBytes bs).lineCount = (0 :: breaksFrom 0 bs).length := rfl

theorem pairwise_starts (bs : List UInt8) : (0 :: breaksFrom 0 bs).Pairwise (· < ·) :=
  List.pairwise_cons.2 ⟨fun _ h => lt_of_mem_breaksFrom h, pairwise_breaksFrom 0 bs⟩

/-- The line of an offset is the last one that begins at or before it. -/
theorem lineOf_spec (bs : List UInt8) (pos : Nat) :
    (ofBytes bs).lineOf pos < (ofBytes bs).lineCount ∧
      (ofBytes bs).start ((ofBytes bs).lineOf pos) ≤ pos ∧
      ((ofBytes bs).lineOf pos + 1 = (ofBytes bs).lineCount ∨
        pos < (ofBytes bs).start ((ofBytes bs).lineOf pos + 1)) := by
  have hpos : 0 < (ofBytes bs).lineCount := by
    rw [lineCount_ofBytes]
    omega
  have hfirst : (ofBytes bs).start 0 ≤ pos := Nat.zero_le pos
  exact (ofBytes bs).bisect_spec hpos Nat.le.refl hfirst (.inl rfl)

/-- **The line of an offset is the number of newlines below it.** -/
theorem lineOf_ofBytes (bs : List UInt8) (pos : Nat) :
    (ofBytes bs).lineOf pos = (bs.take pos).count newline := by
  obtain ⟨hline, hle, hlt⟩ := lineOf_spec bs pos
  rw [length_starts] at hline hlt
  rw [start_ofBytes, List.getD_eq_getElem _ 0 hline] at hle
  have hcount := countP_le_of_pairwise (pairwise_starts bs) hline hle fun h => by
    rcases hlt with hlt | hlt
    · omega
    · rwa [start_ofBytes, List.getD_eq_getElem _ 0 h] at hlt
  rw [List.countP_cons_of_pos (by simp), countP_breaksFrom, Nat.sub_zero] at hcount
  omega

theorem start_behind_break (bs cs : List UInt8) :
    (ofBytes (bs ++ newline :: cs)).start (bs.count newline + 1) = bs.length + 1 := by
  have hlen : (breaksFrom 0 bs).length = bs.count newline := length_breaksFrom 0 bs
  rw [start_ofBytes, List.getD_cons_succ, breaksFrom_append, ← hlen]
  simp [breaksFrom]

section Lines

variable {bs lines part : List UInt8} {pos : Nat}

theorem lineOf_of_lines (h : bs.take pos = lines ++ part) (hpart : newline ∉ part) :
    (ofBytes bs).lineOf pos = lines.count newline := by
  rw [lineOf_ofBytes, h, List.count_append, List.count_eq_zero.2 hpart, Nat.add_zero]

theorem start_of_lines (h : bs.take pos = lines ++ part)
    (hlines : lines = [] ∨ ∃ ls, lines = ls ++ [newline]) :
    (ofBytes bs).start (lines.count newline) = lines.length := by
  rcases hlines with rfl | ⟨ls, rfl⟩
  · rfl
  · have hbs : bs = ls ++ newline :: (part ++ bs.drop pos) := by
      have hsplit := List.take_append_drop pos bs
      rw [h] at hsplit
      simpa using hsplit.symm
    rw [hbs, List.count_append, List.count_singleton_self, start_behind_break]
    simp

/-- An offset behind whole lines and a part of the next one. -/
theorem locate_ofBytes (h : bs.take pos = lines ++ part)
    (hlines : lines = [] ∨ ∃ ls, lines = ls ++ [newline]) (hpart : newline ∉ part) :
    (ofBytes bs).locate pos = ⟨lines.count newline, pos - lines.length⟩ := by
  simp only [locate, lineOf_of_lines h hpart, start_of_lines h hlines]

end Lines

end LineMap

/-! ### Lines of characters -/

namespace Text

theorem bytes_ofList (s : List Char) : bytes (String.ofList s) = s.flatMap String.utf8EncodeChar := by
  simp [bytes, List.utf8Encode]

theorem bytes_append (s t : List Char) :
    bytes (String.ofList (s ++ t)) = bytes (String.ofList s) ++ bytes (String.ofList t) := by
  simp only [bytes_ofList, List.flatMap_append]

/-- The number of bytes of a text. -/
def size (s : List Char) : Nat := (bytes (String.ofList s)).length

@[simp] theorem size_nil : size [] = 0 := rfl

theorem size_append (s t : List Char) : size (s ++ t) = size s + size t := by
  simp only [size, bytes_append, List.length_append]

theorem size_cons (c : Char) (s : List Char) : size (c :: s) = c.utf8Size + size s := by
  have hc : size [c] = c.utf8Size := by
    rw [size, bytes_ofList, List.flatMap_singleton, String.length_utf8EncodeChar]
  rw [← List.singleton_append, size_append, hc]

theorem bytes_newline : bytes (String.ofList ['\n']) = [newline] := by
  rw [bytes_ofList]
  rfl

/-- Only the newline character has a newline byte. -/
theorem newline_mem_utf8EncodeChar {c : Char} : newline ∈ String.utf8EncodeChar c ↔ c = '\n' := by
  constructor
  · intro h
    -- the bytes of the longer forms are at least 128
    have hbyte {n : Nat} (hn : newline = UInt8.ofNat n) : n % 256 = 10 := by
      have := congrArg UInt8.toNat hn
      simpa [newline] using this.symm
    have hval : c.val.toNat = 10 := by
      unfold String.utf8EncodeChar at h
      dsimp only at h
      split_ifs at h
      · have h₁ := hbyte (List.mem_singleton.1 h)
        omega
      · simp only [List.mem_cons, List.not_mem_nil, or_false] at h
        rcases h with h | h <;> have := hbyte h <;> omega
      · simp only [List.mem_cons, List.not_mem_nil, or_false] at h
        rcases h with h | h | h <;> have := hbyte h <;> omega
      · simp only [List.mem_cons, List.not_mem_nil, or_false] at h
        rcases h with h | h | h | h <;> have := hbyte h <;> omega
    exact Char.ext (UInt32.toNat_inj.1 hval)
  · rintro rfl
    decide

theorem newline_mem_bytes {s : List Char} : newline ∈ bytes (String.ofList s) ↔ '\n' ∈ s := by
  simp [bytes_ofList, newline_mem_utf8EncodeChar]

theorem count_newline_bytes (s : List Char) : (bytes (String.ofList s)).count newline = s.count '\n' := by
  induction s with
  | nil => rfl
  | cons c s ih =>
    rw [← List.singleton_append, bytes_append, List.count_append, ih, List.count_append]
    congr 1
    by_cases hc : c = '\n'
    · subst hc
      decide
    · rw [List.count_eq_zero.2, List.count_eq_zero.2]
      · simpa using Ne.symm hc
      · rw [newline_mem_bytes]
        simpa using Ne.symm hc

/-- The characters behind the last newline. -/
def lastLine (s : List Char) : List Char := (s.reverse.takeWhile (· ≠ '\n')).reverse

/-- The position right behind a text. -/
def endOf (s : List Char) : Position := ⟨s.count '\n', size (lastLine s)⟩

theorem newline_not_mem_lastLine (s : List Char) : '\n' ∉ lastLine s := by
  intro h
  have := List.all_eq_true.1 List.all_takeWhile '\n' (List.mem_reverse.1 h)
  simp at this

/-- A text is whole lines and its last line. -/
theorem exists_append_lastLine (s : List Char) :
    ∃ lines, s = lines ++ lastLine s ∧ (lines = [] ∨ ∃ ls, lines = ls ++ ['\n']) := by
  refine ⟨(s.reverse.dropWhile (· ≠ '\n')).reverse, ?_, ?_⟩
  · rw [lastLine, ← List.reverse_append, List.takeWhile_append_dropWhile, List.reverse_reverse]
  · cases h : s.reverse.dropWhile (· ≠ '\n') with
    | nil => exact .inl rfl
    | cons c rest =>
      have hc : c = '\n' := by
        have hhead := List.head?_dropWhile_not (· ≠ '\n') s.reverse
        rw [h] at hhead
        simpa using hhead
      exact .inr ⟨rest.reverse, by rw [List.reverse_cons, hc]⟩

/-- **The offset right behind a text is located where the text ends.** -/
theorem locate_ofText (s t : List Char) :
    (LineMap.ofText (String.ofList (s ++ t))).locate (size s) = endOf s := by
  obtain ⟨lines, hs, hlines⟩ := exists_append_lastLine s
  have hbytes : bytes (String.ofList s) =
      bytes (String.ofList lines) ++ bytes (String.ofList (lastLine s)) := by
    rw [← bytes_append, ← hs]
  have htake : (bytes (String.ofList (s ++ t))).take (size s) =
      bytes (String.ofList lines) ++ bytes (String.ofList (lastLine s)) := by
    rw [bytes_append, size, List.take_left, hbytes]
  have hbreak : bytes (String.ofList lines) = [] ∨
      ∃ ls, bytes (String.ofList lines) = ls ++ [newline] := by
    rcases hlines with rfl | ⟨ls, rfl⟩
    · exact .inl rfl
    · exact .inr ⟨bytes (String.ofList ls), by rw [bytes_append, bytes_newline]⟩
  have hpart : newline ∉ bytes (String.ofList (lastLine s)) :=
    fun h => newline_not_mem_lastLine s (newline_mem_bytes.1 h)
  have hcount : s.count '\n' = lines.count '\n' := by
    have := congrArg (List.count '\n') hs
    rwa [List.count_append, List.count_eq_zero.2 (newline_not_mem_lastLine s)] at this
  unfold LineMap.ofText endOf
  rw [LineMap.locate_ofBytes htake hbreak hpart, count_newline_bytes, hcount, size, hbytes,
    List.length_append, Nat.add_sub_cancel_left, size]

/-- Line number `p.line` of a source, without its first `p.column` bytes, begins with `token`. -/
def StandsAt (source token : List Char) (p : Position) : Prop :=
  ∃ line, (pieces '\n' source)[p.line]? = some line ∧
    bytes (String.ofList token) <+: (bytes (String.ofList line)).drop p.column

/-- The line in which a text ends goes on with the line that follows. -/
theorem getElem?_pieces_append (s t : List Char) :
    ∃ first rest, pieces '\n' t = first :: rest ∧
      (pieces '\n' (s ++ t))[s.count '\n']? = some (lastLine s ++ first) := by
  obtain ⟨lines, hs, hlines⟩ := exists_append_lastLine s
  have hlast : '\n' ∉ lastLine s := newline_not_mem_lastLine s
  generalize lastLine s = last at hs hlast
  obtain ⟨first, rest, hfirst, hpieces⟩ := exists_pieces_append hlast t
  refine ⟨first, rest, hfirst, ?_⟩
  rcases hlines with rfl | ⟨ls, rfl⟩
  · have hcount : s.count '\n' = 0 := by rw [hs, List.nil_append, List.count_eq_zero.2 hlast]
    rw [hcount, hs, List.nil_append, hpieces]
    rfl
  · have hcount : s.count '\n' = (pieces '\n' ls).length := by
      rw [hs, List.count_append, List.count_eq_zero.2 hlast, List.count_append, List.count_singleton_self,
        length_pieces]
    have hsplit : s ++ t = ls ++ '\n' :: (last ++ t) := by simp [hs]
    rw [hcount, hsplit, pieces_append_cons, hpieces, List.getElem?_append_right Nat.le.refl, Nat.sub_self]
    rfl

/-- **What follows a text stands where the text ends**, up to the end of its line. -/
theorem standsAt_endOf {s token t : List Char} (h : '\n' ∉ token) :
    StandsAt (s ++ (token ++ t)) token (endOf s) := by
  obtain ⟨first, rest, hfirst, hline⟩ := getElem?_pieces_append s (token ++ t)
  obtain ⟨q, qs, -, hpieces⟩ := exists_pieces_append h t
  refine ⟨_, hline, ?_⟩
  rw [hfirst] at hpieces
  rw [bytes_append]
  show bytes _ <+: List.drop (bytes (String.ofList (lastLine s))).length _
  rw [List.drop_left, (List.cons.inj hpieces).1, bytes_append]
  exact List.prefix_append _ _

end Text

end TemplateLinker
