import Mathlib.Data.List.Forall2
import TemplateLinker.Proofs.Source.Tokens

/-!
# Proofs.Source.Coverage — the stretches of words cover a source

The words that the scan finds are the runs that can be extended on neither side (`Runs.mem_iff`), one behind
the other with a blank between each two (`Runs.pairwise_before`), and each character stands in the stretch of
one of them unless it is blank (`Runs.countP_holds`).  Every word but the empty mustache has its statement
(`Means`), so the statements of a parsed source have these stretches (`parse_covers`).
-/

namespace TemplateLinker.Words

open Text

/-! ### Runs that can be extended on neither side -/

/-- A run of `s` between blanks or the ends of `s`, with its stretch, when `s` begins at the offset `pos`. -/
inductive IsRun (pos : Nat) : List Char → Word → Prop
  | intro {pre run post : List Char} {start stop : Nat} : run ≠ [] → (∀ c ∈ run, isBlank c = false) →
      (∀ c ∈ pre.getLast?, isBlank c = true) → (∀ c ∈ post.head?, isBlank c = true) →
      start = pos + size pre → stop = start + size run →
      IsRun pos (pre ++ (run ++ post)) ⟨run, ⟨start, stop⟩⟩

theorem size_pos {s : List Char} (h : s ≠ []) : 0 < size s := by
  obtain ⟨c, s, rfl⟩ := List.exists_cons_of_ne_nil h
  rw [size_cons]
  exact Nat.lt_add_right _ c.utf8Size_pos

namespace IsRun

variable {pos : Nat} {s : List Char} {w : Word}

theorem start_lt_stop (h : IsRun pos s w) : w.span.start < w.span.stop := by
  cases h with
  | intro hne _ _ _ _ hstop =>
    rw [hstop]
    exact Nat.lt_add_of_pos_right (size_pos hne)

theorem stop_le (h : IsRun pos s w) : w.span.stop ≤ pos + size s := by
  cases h with
  | @intro pre run post start stop _ _ _ _ hstart hstop =>
    show stop ≤ _
    rw [hstop, hstart, size_append, size_append]
    omega

/-- The bytes of the stretch are the characters of the word. -/
theorem bytes_slice (h : IsRun 0 s w) :
    ((bytes (String.ofList s)).take w.span.stop).drop w.span.start = bytes (String.ofList w.chars) := by
  cases h with
  | @intro pre run post start stop _ _ _ _ hstart hstop =>
    have hsize (t : List Char) : size t = (bytes (String.ofList t)).length := rfl
    have htake : (bytes (String.ofList (pre ++ (run ++ post)))).take stop =
        bytes (String.ofList pre) ++ bytes (String.ofList run) := by
      rw [← List.append_assoc, bytes_append, bytes_append, hstop, hstart, Nat.zero_add, hsize, hsize,
        ← List.length_append, List.take_left]
    rw [htake, hstart, Nat.zero_add, hsize, List.drop_left]

/-- What stands in front moves a run. -/
theorem append_left {pos' : Nat} {front : List Char} (hpos : pos' = pos + size front)
    (hfront : ∀ c ∈ s.head?, isBlank c = true) (h : IsRun pos' s w) : IsRun pos (front ++ s) w := by
  cases h with
  | @intro pre run post start stop hne hrun hpre hpost hstart hstop =>
    rw [← List.append_assoc]
    refine .intro hne hrun (fun c hc => ?_) hpost (by rw [hstart, hpos, size_append, Nat.add_assoc]) hstop
    cases pre with
    | nil =>
      -- nothing stands between the front and the run, which does not begin with a blank
      obtain ⟨d, run, rfl⟩ := List.exists_cons_of_ne_nil hne
      have hd := hfront d rfl
      rw [hrun d List.mem_cons_self] at hd
      cases hd
    | cons d pre =>
      rw [List.getLast?_append_of_ne_nil _ (List.cons_ne_nil d pre)] at hc
      exact hpre c hc

end IsRun

/-! ### The words are the runs -/

theorem eq_of_run_append {run run' rest rest' : List Char} (hrun : ∀ c ∈ run, isBlank c = false)
    (hrun' : ∀ c ∈ run', isBlank c = false) (hrest : ∀ c ∈ rest.head?, isBlank c = true)
    (hrest' : ∀ c ∈ rest'.head?, isBlank c = true) (h : run ++ rest = run' ++ rest') : run = run' := by
  have htake : ∀ {run rest : List Char}, (∀ c ∈ run, isBlank c = false) →
      (∀ c ∈ rest.head?, isBlank c = true) → (run ++ rest).takeWhile (! isBlank ·) = run := by
    intro run rest hrun hrest
    rw [List.takeWhile_append_of_pos fun c hc => by rw [hrun c hc]; rfl]
    cases rest with
    | nil => exact List.append_nil run
    | cons b rest => rw [List.takeWhile_cons_of_neg (by rw [hrest b rfl]; decide), List.append_nil]
  rw [← htake hrun hrest, h, htake hrun' hrest']

/-- A run begins behind all blanks that stand in front of it. -/
theorem exists_behind {gap rest pre run post : List Char} (h : gap ++ rest = pre ++ (run ++ post))
    (hgap : ∀ c ∈ gap, isBlank c = true) (hne : run ≠ []) (hrun : ∀ c ∈ run, isBlank c = false) :
    ∃ left, pre = gap ++ left ∧ rest = left ++ (run ++ post) := by
  rcases List.append_eq_append_iff.1 h with ⟨left, hpre, hrest⟩ | ⟨more, rfl, hmore⟩
  · exact ⟨left, hpre, hrest⟩
  · cases more with
    | nil => exact ⟨[], by simp, hmore.symm⟩
    | cons b more =>
      obtain ⟨c, run, rfl⟩ := List.exists_cons_of_ne_nil hne
      have hb := hgap b (List.mem_append_right pre List.mem_cons_self)
      rw [← (List.cons.inj hmore).1, hrun c List.mem_cons_self] at hb
      cases hb

namespace Runs

variable {pos : Nat} {s : List Char} {ws : List Word} {w : Word}

theorem isRun_of_mem (h : Runs pos s ws) (hw : w ∈ ws) : IsRun pos s w := by
  induction h with
  | blanks => cases hw
  | @run pos start stop gap run rest ws hgap hne hrun hrest hstart hstop _ ih =>
    rcases List.mem_cons.1 hw with rfl | hw
    · exact .intro hne hrun (fun c hc => hgap c (List.mem_of_getLast? hc)) hrest hstart hstop
    · rw [← List.append_assoc]
      refine (ih hw).append_left ?_ hrest
      rw [hstop, hstart, size_append, Nat.add_assoc]

theorem mem_of_isRun (h : Runs pos s ws) (hw : IsRun pos s w) : w ∈ ws := by
  induction h with
  | @blanks pos s hblank =>
    cases hw with
    | @intro pre run post _ _ hne hrun =>
      obtain ⟨c, run, rfl⟩ := List.exists_cons_of_ne_nil hne
      have hc := hblank c (by simp)
      rw [hrun c List.mem_cons_self] at hc
      cases hc
  | @run pos start stop gap run rest ws hgap hne hrun hrest hstart hstop _ ih =>
    generalize hs : gap ++ (run ++ rest) = s at hw
    cases hw with
    | @intro pre run' post start' stop' hne' hrun' hpre hpost hstart' hstop' =>
      obtain ⟨left, rfl, hsplit⟩ := exists_behind hs hgap hne' hrun'
      by_cases hleft : left = []
      · -- the run stands right behind the gap
        subst hleft
        have heq : run = run' := eq_of_run_append hrun hrun' hrest hpost hsplit
        rw [List.append_nil] at hstart'
        rw [hstop', hstop, hstart', hstart, heq]
        exact List.mem_cons_self
      · have hlast : isBlank (left.getLast hleft) = true := hpre _ (by
          rw [List.getLast?_append_of_ne_nil _ hleft, List.getLast?_eq_getLast_of_ne_nil hleft]
          rfl)
        rcases List.append_eq_append_iff.1 hsplit with ⟨between, rfl, rfl⟩ | ⟨tail, rfl, -⟩
        · refine List.mem_cons_of_mem _ (ih ?_)
          refine .intro hne' hrun' (fun c hc => ?_) hpost ?_ hstop'
          · cases between with
            | nil => cases hc
            | cons b between =>
              refine hpre c ?_
              rw [List.getLast?_append_of_ne_nil _ hleft,
                List.getLast?_append_of_ne_nil _ (List.cons_ne_nil b between)]
              exact hc
          · rw [hstart', hstop, hstart, size_append, size_append]
            omega
        · rw [hrun _ (List.mem_append_left tail (List.getLast_mem hleft))] at hlast
          cases hlast

theorem mem_iff (h : Runs pos s ws) : w ∈ ws ↔ IsRun pos s w := ⟨h.isRun_of_mem, h.mem_of_isRun⟩

/-! ### Blanks between the words -/

/-- Where a blank stands in front, all words stand behind it. -/
theorem exists_blank (h : Runs pos s ws) (hblank : ∀ c ∈ s.head?, isBlank c = true) (hw : w ∈ ws) :
    ∃ b tail, s = b :: tail ∧ isBlank b = true ∧ pos + b.utf8Size ≤ w.span.start := by
  cases h.isRun_of_mem hw with
  | @intro pre run post start stop hne hrun _ _ hstart _ =>
    cases pre with
    | nil =>
      obtain ⟨c, run, rfl⟩ := List.exists_cons_of_ne_nil hne
      have hc := hblank c rfl
      rw [hrun c List.mem_cons_self] at hc
      cases hc
    | cons b pre =>
      refine ⟨b, pre ++ (run ++ post), rfl, hblank b rfl, ?_⟩
      show _ ≤ start
      rw [hstart, size_cons]
      omega

end Runs

/-- A word ends in front of another one, and a blank of the source stands between them. -/
def Before (source : List Char) (v w : Word) : Prop :=
  v.span.stop < w.span.start ∧ ∃ pre b post, source = pre ++ b :: post ∧ isBlank b = true ∧
    v.span.stop ≤ size pre ∧ size pre + b.utf8Size ≤ w.span.start

theorem Runs.pairwise_before {pos : Nat} {s : List Char} {ws : List Word} (h : Runs pos s ws) :
    ∀ {front : List Char}, pos = size front → ws.Pairwise (Before (front ++ s)) := by
  induction h with
  | blanks => exact fun _ => .nil
  | @run pos start stop gap run rest ws hgap hne hrun hrest hstart hstop h ih =>
    intro front hpos
    have hbehind : stop = size (front ++ (gap ++ run)) := by
      rw [hstop, hstart, hpos, size_append, size_append, Nat.add_assoc]
    have hsource : front ++ (gap ++ (run ++ rest)) = front ++ (gap ++ run) ++ rest := by simp
    rw [hsource]
    refine .cons (fun w hw => ?_) (ih hbehind)
    obtain ⟨b, tail, rfl, hb, hstart'⟩ := h.exists_blank hrest hw
    refine ⟨Nat.lt_of_lt_of_le (Nat.lt_add_of_pos_right b.utf8Size_pos) hstart',
      front ++ (gap ++ run), b, tail, rfl, hb, Nat.le_of_eq hbehind, ?_⟩
    rwa [← hbehind]

/-! ### The characters of the words -/

/-- Whether a character at the offset `pos` stands in a stretch as a whole. -/
def holds (pos : Nat) (c : Char) (span : Span) : Bool :=
  span.start ≤ pos && pos + c.utf8Size ≤ span.stop

theorem holds_iff {pos : Nat} {c : Char} {span : Span} :
    holds pos c span = true ↔ span.start ≤ pos ∧ pos + c.utf8Size ≤ span.stop := by
  simp [holds]

/-- A character of two texts stands in the first one or behind it. -/
theorem split_cases {first second pre post : List Char} {c : Char}
    (h : first ++ second = pre ++ c :: post) :
    (∃ tail, first = pre ++ c :: tail) ∨ ∃ left, pre = first ++ left ∧ second = left ++ c :: post := by
  rcases List.append_eq_append_iff.1 h with ⟨left, hpre, hsecond⟩ | ⟨more, hfirst, hmore⟩
  · exact .inr ⟨left, hpre, hsecond⟩
  · cases more with
    | nil => exact .inr ⟨[], by simp [hfirst], hmore.symm⟩
    | cons d more =>
      obtain ⟨rfl, -⟩ := List.cons.inj hmore
      exact .inl ⟨more, hfirst⟩

namespace Runs

variable {pos : Nat} {s : List Char} {ws : List Word}

theorem le_start {w : Word} (h : Runs pos s ws) (hw : w ∈ ws) : pos ≤ w.span.start := by
  cases h.isRun_of_mem hw with
  | intro _ _ _ _ hstart _ =>
    rw [hstart]
    exact Nat.le_add_right _ _

/-- No word holds a character that stands in front of all of them. -/
theorem countP_holds_eq_zero (h : Runs pos s ws) {before : Nat} (hbefore : before < pos) (c : Char) :
    ws.countP (fun w => holds before c w.span) = 0 := by
  refine List.countP_eq_zero.2 fun w hw hholds => ?_
  have hstart := h.le_start hw
  have hle := (holds_iff.1 hholds).1
  omega

/-- **A blank stands in the stretch of no word, any other character in that of one.** -/
theorem countP_holds (h : Runs pos s ws) : ∀ {pre post : List Char} {c : Char}, s = pre ++ c :: post →
    ws.countP (fun w => holds (pos + size pre) c w.span) = if isBlank c = true then 0 else 1 := by
  induction h with
  | @blanks pos s hblank =>
    intro pre post c hs
    rw [if_pos (hblank c (by simp [hs]))]
    rfl
  | @run pos start stop gap run rest ws hgap hne hrun hrest hstart hstop h ih =>
    intro pre post c hs
    have hc := c.utf8Size_pos
    have hfirst (n : Nat) : holds n c (⟨run, ⟨start, stop⟩⟩ : Word).span = true ↔
        start ≤ n ∧ n + c.utf8Size ≤ stop := holds_iff
    rcases split_cases hs with ⟨tail, rfl⟩ | ⟨left, rfl, hsplit⟩
    · -- in the gap
      have hblank : isBlank c = true := hgap c (by simp)
      have hlt : pos + size pre < start := by
        rw [hstart, size_append, size_cons]
        omega
      have hlt' : pos + size pre < stop := Nat.lt_of_lt_of_le hlt (by omega)
      rw [List.countP_cons_of_neg (by rw [hfirst]; omega), h.countP_holds_eq_zero hlt', if_pos hblank]
    · rcases split_cases hsplit with ⟨tail, rfl⟩ | ⟨between, rfl, hrest'⟩
      · -- in the first word
        have hchar : isBlank c = false := hrun c (by simp)
        have hpos : pos + size (gap ++ left) = start + size left := by
          rw [hstart, size_append]
          omega
        have hin : start + size left + c.utf8Size ≤ stop := by
          rw [hstop, size_append, size_cons]
          omega
        rw [hpos, List.countP_cons_of_pos (by rw [hfirst]; omega), h.countP_holds_eq_zero (by omega),
          if_neg (by rw [hchar]; decide)]
      · -- behind the first word
        have hpos : pos + size (gap ++ (run ++ between)) = stop + size between := by
          rw [hstop, hstart, size_append, size_append]
          omega
        rw [hpos, List.countP_cons_of_neg (by rw [hfirst]; omega), ih hrest']

end Runs

/-! ### Statements of words -/

/-- What a word means: a mustache, an element that closes itself, or text. -/
inductive Means : Word → Statement → Prop
  | mustache {name : List Char} {span : Span} : name ≠ [] →
      Means ⟨['\x7b', '\x7b'] ++ (name ++ ['\x7d', '\x7d']), span⟩
        (.mustache ⟨⟨.path (.ofText (String.ofList name) span), [], []⟩, false, span⟩)
  | element {tag : List Char} {slashes : Nat} {span : Span} : tag.getLast? ≠ some '/' →
      Means ⟨['<'] ++ ((tag ++ List.replicate slashes '/') ++ ['>']), span⟩
        (.element ⟨String.ofList tag, [], [], ⟨[], [], span⟩, true, span⟩)
  | text {chars : List Char} {span : Span} :
      (∀ name, chars ≠ ['\x7b', '\x7b'] ++ (name ++ ['\x7d', '\x7d'])) →
      (∀ tag, chars ≠ ['<'] ++ (tag ++ ['>'])) → Means ⟨chars, span⟩ (.text ⟨String.ofList chars, span⟩)

theorem Means.span_eq {w : Word} {s : Statement} (h : Means w s) : s.span = w.span := by
  cases h with
  | mustache _ => rfl
  | element _ => rfl
  | text _ _ => rfl

theorem means_of_statement? {w : Word} {s : Statement} (h : statement? w = some s) : Means w s := by
  obtain ⟨chars, span⟩ := w
  revert h
  unfold statement?
  dsimp only
  rcases hm : mustacheName? chars with _ | ⟨_ | ⟨c, name⟩⟩
  · have hno : ∀ name, chars ≠ ['\x7b', '\x7b'] ++ (name ++ ['\x7d', '\x7d']) := fun name hname => by
      rw [mustacheName?_eq_some_iff.2 hname] at hm
      cases hm
    rcases ht : elementTag? chars with _ | tag
    · rintro ⟨⟩
      refine .text hno fun tag htag => ?_
      rw [elementTag?_eq_some_iff.2 ⟨tag, htag, rfl⟩] at ht
      cases ht
    · rintro ⟨⟩
      obtain ⟨inner, rfl, rfl⟩ := elementTag?_eq_some_iff.1 ht
      obtain ⟨slashes, hinner, hlast⟩ := exists_trimSlashes_append inner
      have hmeans : Means ⟨['<'] ++ ((trimSlashes inner ++ List.replicate slashes '/') ++ ['>']), span⟩
          (elementOf (String.ofList (trimSlashes inner)) span) := .element hlast
      rwa [← hinner] at hmeans
  · rintro ⟨⟩
  · rintro ⟨⟩
    rw [mustacheName?_eq_some_iff.1 hm]
    exact .mustache (List.cons_ne_nil c name)

theorem forall₂_means_of_statements? {ws : List Word} {ss : List Statement} (h : statements? ws = some ss) :
    List.Forall₂ Means ws ss := by
  induction ws generalizing ss with
  | nil =>
    cases h
    exact .nil
  | cons w ws ih =>
    rw [statements?] at h
    split at h
    · next s ss' hs hss =>
      cases h
      exact .cons (means_of_statement? hs) (ih hss)
    · cases h

theorem map_span_eq {ws : List Word} {ss : List Statement} (h : List.Forall₂ Means ws ss) :
    ss.map Statement.span = ws.map Word.span := by
  induction h with
  | nil => rfl
  | cons hs _ ih => rw [List.map_cons, List.map_cons, ih, hs.span_eq]

/-! ### Sources -/

theorem parse_cases (module : ModuleName) (source : String) :
    (emptyMustache ∈ tokens source.toList ∧
      parse module source = .error (.parse module "empty mustache")) ∨
    (emptyMustache ∉ tokens source.toList ∧ ∃ ss, List.Forall₂ Means (words source.toList) ss ∧
      parse module source = .ok ⟨⟨ss, [], .zero⟩⟩) := by
  unfold parse
  rcases ht : template? source.toList with _ | t
  · exact .inl ⟨template?_eq_none_iff.1 ht, rfl⟩
  · have hempty : emptyMustache ∉ tokens source.toList := fun h => by
      rw [template?_eq_none_iff.2 h] at ht
      cases ht
    obtain ⟨ss, hss, rfl⟩ := Option.map_eq_some_iff.1 ht
    exact .inr ⟨hempty, ss, forall₂_means_of_statements? hss, rfl⟩

/-- A token is what a run is. -/
theorem mem_tokens_iff {source token : List Char} :
    token ∈ tokens source ↔ ∃ w, IsRun 0 source w ∧ w.chars = token := by
  rw [(runs_words source).tokens_eq, List.mem_map]
  simp only [(runs_words source).mem_iff]

/-- **The statements of a source cover it exactly.**  Parsing fails exactly if a run of the source, that is
a run of characters that are not blank between blanks or the ends of the source, is an empty mustache.  Else
the statements are those of the runs, one for each, in order and with their stretches: a stretch is not empty,
lies in the source, begins and ends where its run does, and the bytes in it are those of the run.  Each ends
before the next begins, with a blank between the two, and a character stands in exactly one stretch, or in
none if it is blank. -/
theorem parse_covers (module : ModuleName) (source : String) :
    let s := source.toList
    ((∃ e, parse module source = .error e) ↔ ∃ w, IsRun 0 s w ∧ w.chars = emptyMustache) ∧
    ∀ t, parse module source = .ok t → t.body.params = [] ∧ ∃ ws : List Word,
      List.Forall₂ Means ws t.body.statements ∧
      t.body.statements.map Statement.span = ws.map Word.span ∧
      (∀ w, w ∈ ws ↔ IsRun 0 s w) ∧
      (∀ w ∈ ws, w.span.start < w.span.stop ∧ w.span.stop ≤ size s ∧
        ((bytes source).take w.span.stop).drop w.span.start = bytes (String.ofList w.chars)) ∧
      ws.Pairwise (Before s) ∧
      ∀ pre c post, s = pre ++ c :: post →
        (t.body.statements.map Statement.span).countP (holds (size pre) c) =
          if isBlank c = true then 0 else 1 := by
  intro s
  have hruns := runs_words s
  rcases parse_cases module source with ⟨hempty, hparse⟩ | ⟨hempty, ss, hss, hparse⟩
  · refine ⟨iff_of_true ⟨_, hparse⟩ (mem_tokens_iff.1 hempty), fun t ht => ?_⟩
    rw [hparse] at ht
    cases ht
  · refine ⟨iff_of_false ?_ fun h => hempty (mem_tokens_iff.2 h), fun t ht => ?_⟩
    · rintro ⟨e, he⟩
      rw [hparse] at he
      cases he
    · rw [hparse] at ht
      cases ht
      have hbefore : (words s).Pairwise (Before ([] ++ s)) := hruns.pairwise_before rfl
      refine ⟨rfl, words s, hss, map_span_eq hss, fun w => hruns.mem_iff, fun w hw => ?_,
        hbefore, fun pre c post hs => ?_⟩
      · have hrun := hruns.isRun_of_mem hw
        have hstop := hrun.stop_le
        have hbytes := hrun.bytes_slice
        rw [Nat.zero_add] at hstop
        rw [String.ofList_toList] at hbytes
        exact ⟨hrun.start_lt_stop, hstop, hbytes⟩
      · have hcount := hruns.countP_holds hs
        rw [Nat.zero_add] at hcount
        rw [map_span_eq hss, List.countP_map]
        exact hcount

/-- Delimiters that overlap, blanks of three bytes, and a run at the end of the source. -/
theorem parse_covers_of_overlapping_delimiters :
    let source := "é <//>\u3000\x7b\x7b\x7d \x7b\x7b\x7bx\x7d\x7d\x7d\t<>\u2003z"
    ∃ t, parse "m" source = .ok t ∧
      t.body.statements.map Statement.span =
        [⟨0, 2⟩, ⟨3, 7⟩, ⟨10, 13⟩, ⟨14, 21⟩, ⟨22, 24⟩, ⟨27, 28⟩] ∧
      ∃ ws, List.Forall₂ Means ws t.body.statements ∧ (∀ w, w ∈ ws ↔ IsRun 0 source.toList w) ∧
        ws.Pairwise (Before source.toList) := by
  intro source
  obtain ⟨-, hcovers⟩ := parse_covers "m" source
  rcases parse_cases "m" source with ⟨hempty, -⟩ | ⟨-, ss, hss, hparse⟩
  · exact absurd hempty (by decide +kernel)
  · obtain ⟨-, ws, hmeans, -, hruns, -, hbefore, -⟩ := hcovers _ hparse
    refine ⟨_, hparse, ?_, ws, hmeans, hruns, hbefore⟩
    show ss.map Statement.span = _
    rw [map_span_eq hss]
    decide +kernel

end TemplateLinker.Words
