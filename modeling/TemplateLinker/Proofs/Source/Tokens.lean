import Mathlib.Data.List.TakeWhile
import TemplateLinker.Proofs.Linking.References
import TemplateLinker.Proofs.Text.Lines
import TemplateLinker.Source.Words

/-!
# Proofs.Source.Tokens — the words of a source and what they refer to

`Text.tokens` cuts a text at every blank.  The words that the scan finds are the tokens of the source,
each with the bytes that it takes up (`Runs`, `runs_words`); a token refers to the name of a mustache or
to the tag of an element (`reference?_eq_some_iff`), and the references of the parsed template are those
of its words (`refs_of_template?`).
-/

namespace TemplateLinker

namespace Text

/-- The runs of characters that are not blank. -/
def tokens (s : List Char) : List (List Char) := (s.splitOnP isBlank).filter (· ≠ [])

theorem tokens_append_blank {b : Char} (hb : isBlank b = true) (s t : List Char) :
    tokens (s ++ b :: t) = tokens s ++ tokens t := by
  unfold tokens
  rw [List.splitOnP_append_cons s t hb, List.filter_append]

theorem tokens_cons_blank {b : Char} (hb : isBlank b = true) (s : List Char) :
    tokens (b :: s) = tokens s := tokens_append_blank hb [] s

theorem tokens_of_blank {gap : List Char} (h : ∀ c ∈ gap, isBlank c = true) (s : List Char) :
    tokens (gap ++ s) = tokens s := by
  induction gap with
  | nil => rfl
  | cons b gap ih =>
    rw [List.cons_append, tokens_cons_blank (h b List.mem_cons_self),
      ih fun c hc => h c (List.mem_cons_of_mem b hc)]

/-- A run in front of a blank, or of nothing, is the first token. -/
theorem tokens_of_run {run rest : List Char} (hne : run ≠ []) (hrun : ∀ c ∈ run, isBlank c = false)
    (hrest : ∀ c ∈ rest.head?, isBlank c = true) : tokens (run ++ rest) = run :: tokens rest := by
  have hself : tokens run = [run] := by
    unfold tokens
    rw [List.splitOnP_eq_singleton hrun]
    simp [hne]
  cases rest with
  | nil =>
    rw [List.append_nil, hself]
    rfl
  | cons b rest =>
    have hb : isBlank b = true := hrest b rfl
    rw [tokens_append_blank hb, hself, tokens_cons_blank hb, List.singleton_append]

end Text

namespace Words

open Text

/-! ### The words of a source -/

/-- `ws` are the runs of `s` in order, each with its stretch, when `s` begins at the offset `pos`. -/
inductive Runs : Nat → List Char → List Word → Prop
  | blanks {pos : Nat} {s : List Char} : (∀ c ∈ s, isBlank c = true) → Runs pos s []
  | run {pos start stop : Nat} {gap run rest : List Char} {ws : List Word} :
      (∀ c ∈ gap, isBlank c = true) → run ≠ [] → (∀ c ∈ run, isBlank c = false) →
      (∀ c ∈ rest.head?, isBlank c = true) → start = pos + size gap → stop = start + size run →
      Runs stop rest ws → Runs pos (gap ++ (run ++ rest)) (⟨run, ⟨start, stop⟩⟩ :: ws)

/-- A blank in front moves everything behind it. -/
theorem Runs.cons_blank {pos : Nat} {b : Char} {s : List Char} {ws : List Word} (hb : isBlank b = true)
    (h : Runs (pos + b.utf8Size) s ws) : Runs pos (b :: s) ws := by
  cases h with
  | blanks h => exact .blanks (List.forall_mem_cons.2 ⟨hb, h⟩)
  | @run _ start stop gap run rest ws hgap hne hrun hrest hstart hstop h =>
    have hstart' : start = pos + size (b :: gap) := by
      rw [hstart, size_cons]
      omega
    have hruns : Runs pos ((b :: gap) ++ (run ++ rest)) (⟨run, ⟨start, stop⟩⟩ :: ws) :=
      .run (List.forall_mem_cons.2 ⟨hb, hgap⟩) hne hrun hrest hstart' hstop h
    exact hruns

/-- A word that has been begun takes all characters up to the next blank. -/
theorem scan_pending (start : Nat) (s : List Char) : ∀ (pos : Nat) (acc : List Char),
    scan pos (some (start, acc)) s =
      ⟨acc.reverse ++ s.takeWhile (! isBlank ·),
        ⟨start, pos + size (s.takeWhile (! isBlank ·))⟩⟩ ::
        scan (pos + size (s.takeWhile (! isBlank ·))) none (s.dropWhile (! isBlank ·)) := by
  induction s with
  | nil =>
    intro pos acc
    simp [scan, flush]
  | cons c s ih =>
    intro pos acc
    by_cases hc : isBlank c = true
    · simp [scan, flush, hc]
    · have hc' : isBlank c = false := Bool.eq_false_iff.2 hc
      rw [scan, if_neg hc, extend, ih]
      simp [hc', size_cons, Nat.add_assoc]

theorem runs_scan (pos : Nat) : ∀ s : List Char, Runs pos s (scan pos none s)
  | [] => .blanks nofun
  | c :: s => by
    by_cases hc : isBlank c = true
    · have hscan : scan pos none (c :: s) = scan (pos + c.utf8Size) none s := by simp [scan, flush, hc]
      rw [hscan]
      exact (runs_scan (pos + c.utf8Size) s).cons_blank hc
    · have hc' : isBlank c = false := Bool.eq_false_iff.2 hc
      have hshorter : (s.dropWhile (! isBlank ·)).length ≤ s.length :=
        (List.dropWhile_sublist _).length_le
      have hrun : ∀ d ∈ c :: s.takeWhile (! isBlank ·), isBlank d = false := by
        refine List.forall_mem_cons.2 ⟨hc', fun d hd => ?_⟩
        simpa using List.all_eq_true.1 List.all_takeWhile d hd
      have hrest : ∀ d ∈ (s.dropWhile (! isBlank ·)).head?, isBlank d = true := by
        intro d hd
        have hhead := List.head?_dropWhile_not (! isBlank ·) s
        rw [Option.mem_def.1 hd] at hhead
        simpa using hhead
      have hscan : scan pos none (c :: s) = scan (pos + c.utf8Size) (some (pos, [c])) s := by
        rw [scan, if_neg hc, extend]
      have hsplit : c :: s = [] ++ (c :: s.takeWhile (! isBlank ·) ++ s.dropWhile (! isBlank ·)) := by
        rw [List.nil_append, List.cons_append, List.takeWhile_append_dropWhile]
      rw [hscan, scan_pending, hsplit]
      refine .run nofun (List.cons_ne_nil _ _) hrun hrest ?_ ?_ (runs_scan _ _)
      · rw [size_nil, Nat.add_zero]
      · rw [size_cons]
        omega
  termination_by s => s.length

/-- **The words of a source are its runs.** -/
theorem runs_words (source : List Char) : Runs 0 source (words source) := runs_scan 0 source

theorem Runs.tokens_eq {pos : Nat} {s : List Char} {ws : List Word} (h : Runs pos s ws) :
    tokens s = ws.map Word.chars := by
  induction h with
  | @blanks _ s h =>
    have hall := tokens_of_blank h []
    rw [List.append_nil] at hall
    rw [hall]
    rfl
  | run hgap hne hrun hrest _ _ _ ih => rw [tokens_of_blank hgap, tokens_of_run hne hrun hrest, ih, List.map_cons]

/-- What stands around a word. -/
theorem Runs.exists_around {before after : List Word} {w : Word} :
    ∀ {pos : Nat} {s : List Char}, Runs pos s (before ++ w :: after) →
      ∃ pre post, s = pre ++ (w.chars ++ post) ∧
        w.span = ⟨pos + size pre, pos + size pre + size w.chars⟩ ∧
        tokens pre = before.map Word.chars ∧ tokens post = after.map Word.chars ∧
        ∀ c ∈ w.chars, isBlank c = false := by
  induction before with
  | nil =>
    intro pos s h
    cases h with
    | @run _ start stop gap run rest _ hgap hne hrun hrest hstart hstop h =>
      have hgap' := tokens_of_blank hgap []
      rw [List.append_nil] at hgap'
      subst hstart hstop
      exact ⟨gap, rest, rfl, rfl, hgap', h.tokens_eq, hrun⟩
  | cons v before ih =>
    intro pos s h
    cases h with
    | @run _ start stop gap run rest _ hgap hne hrun hrest hstart hstop h =>
      obtain ⟨pre, post, rfl, hspan, hpre, hpost, hw⟩ := ih h
      have hhead : ∀ c ∈ pre.head?, isBlank c = true := by
        intro c hc
        refine hrest c ?_
        cases pre with
        | nil => cases hc
        | cons d pre => exact hc
      refine ⟨gap ++ (run ++ pre), post, by simp, ?_, ?_, hpost, hw⟩
      · rw [hspan, hstop, hstart]
        simp only [size_append, Nat.add_assoc]
      · rw [tokens_of_blank hgap, tokens_of_run hne hrun hhead, hpre, List.map_cons]

/-! ### References of tokens -/

theorem between?_eq_some_iff {before after s m : List Char} :
    between? before after s = some m ↔ s = before ++ (m ++ after) := by
  unfold between?
  constructor
  · intro h
    split at h
    · next hbefore =>
      obtain ⟨rest, rfl⟩ := hbefore
      dsimp only at h
      rw [List.drop_left] at h
      split at h
      · next hafter =>
        obtain ⟨m', rfl⟩ := hafter
        have hm := Option.some.inj h
        rw [List.length_append, Nat.add_sub_cancel, List.take_left] at hm
        rw [hm]
      · cases h
    · cases h
  · rintro rfl
    simp

/-- The token of a mustache without a name. -/
def emptyMustache : List Char := ['\x7b', '\x7b', '\x7d', '\x7d']

/-- What a token refers to: the name of a mustache, or the tag of an element. -/
def reference? (token : List Char) : Option (ReferenceKind × String) :=
  match mustacheName? token with
  | some name => if name = [] then none else some (.mustache, String.ofList name)
  | none => (elementTag? token).map fun tag => (.element, String.ofList tag)

theorem mustacheName?_eq_some_iff {token name : List Char} :
    mustacheName? token = some name ↔ token = ['\x7b', '\x7b'] ++ (name ++ ['\x7d', '\x7d']) :=
  between?_eq_some_iff

theorem elementTag?_eq_some_iff {token tag : List Char} :
    elementTag? token = some tag ↔ ∃ inner, token = ['<'] ++ (inner ++ ['>']) ∧ trimSlashes inner = tag := by
  unfold elementTag?
  rw [Option.map_eq_some_iff]
  simp only [between?_eq_some_iff]

theorem reference?_of_mustacheName? {token name : List Char} (h : mustacheName? token = some name) :
    reference? token = if name = [] then none else some (.mustache, String.ofList name) := by
  unfold reference?
  rw [h]

theorem reference?_of_elementTag? {token tag : List Char} (h : mustacheName? token = none)
    (htag : elementTag? token = some tag) : reference? token = some (.element, String.ofList tag) := by
  unfold reference?
  rw [h, htag, Option.map_some]

theorem reference?_eq_none {token : List Char} (h : mustacheName? token = none)
    (htag : elementTag? token = none) : reference? token = none := by
  unfold reference?
  rw [h, htag, Option.map_none]

theorem exists_trimSlashes_append (s : List Char) :
    ∃ n, s = trimSlashes s ++ List.replicate n '/' ∧ (trimSlashes s).getLast? ≠ some '/' := by
  refine ⟨(s.reverse.takeWhile (· == '/')).length, ?_, ?_⟩
  · have hslashes : s.reverse.takeWhile (· == '/') =
        List.replicate (s.reverse.takeWhile (· == '/')).length '/' :=
      List.eq_replicate_of_mem fun c hc => by simpa using List.mem_takeWhile_imp hc
    rw [← List.reverse_replicate, ← hslashes, trimSlashes, ← List.reverse_append,
      List.takeWhile_append_dropWhile, List.reverse_reverse]
  · intro h
    rw [trimSlashes, List.getLast?_reverse] at h
    have hhead := List.head?_dropWhile_not (· == '/') s.reverse
    rw [h] at hhead
    simp at hhead

theorem trimSlashes_append {tag : List Char} (h : tag.getLast? ≠ some '/') (n : ℕ) :
    trimSlashes (tag ++ List.replicate n '/') = tag := by
  have hslashes : ∀ c ∈ List.replicate n '/', (c == '/') = true := fun c hc =>
    beq_iff_eq.2 (List.eq_of_mem_replicate hc)
  have hlast : tag.reverse.dropWhile (· == '/') = tag.reverse := by
    rw [← List.head?_reverse] at h
    cases htag : tag.reverse with
    | nil => rfl
    | cons c rest =>
      rw [htag, List.head?_cons] at h
      exact List.dropWhile_cons_of_neg fun hc => h (congrArg some (eq_of_beq hc))
  rw [trimSlashes, List.reverse_append, List.reverse_replicate, List.dropWhile_append_of_pos hslashes, hlast,
    List.reverse_reverse]

/-- What a token refers to, by its form: the name between two braces and two braces, or the tag between angle
brackets without the slashes at its end. -/
inductive Refers : List Char → ReferenceKind → String → Prop
  | mustache {name : List Char} : name ≠ [] →
      Refers (['\x7b', '\x7b'] ++ (name ++ ['\x7d', '\x7d'])) .mustache (String.ofList name)
  | element {tag : List Char} {slashes : ℕ} : tag.getLast? ≠ some '/' →
      Refers (['<'] ++ ((tag ++ List.replicate slashes '/') ++ ['>'])) .element (String.ofList tag)

/-- **The reference of a token is told by its form.** -/
theorem reference?_eq_some_iff {token : List Char} {kind : ReferenceKind} {name : String} :
    reference? token = some (kind, name) ↔ Refers token kind name := by
  constructor
  · intro h
    rcases hm : mustacheName? token with _ | inner
    · rcases ht : elementTag? token with _ | tag
      · rw [reference?_eq_none hm ht] at h
        cases h
      · rw [reference?_of_elementTag? hm ht] at h
        obtain ⟨inner, rfl, rfl⟩ := elementTag?_eq_some_iff.1 ht
        obtain ⟨slashes, hinner, hlast⟩ := exists_trimSlashes_append inner
        cases h
        have hrefers : Refers (['<'] ++ ((trimSlashes inner ++ List.replicate slashes '/') ++ ['>'])) .element
            (String.ofList (trimSlashes inner)) := .element hlast
        rwa [← hinner] at hrefers
    · rw [reference?_of_mustacheName? hm] at h
      split at h
      · cases h
      · next hne =>
        cases h
        rw [mustacheName?_eq_some_iff.1 hm]
        exact .mustache hne
  · intro h
    cases h with
    | @mustache name hne => rw [reference?_of_mustacheName? (mustacheName?_eq_some_iff.2 rfl), if_neg hne]
    | @element tag slashes hlast =>
      have hm : mustacheName? (['<'] ++ ((tag ++ List.replicate slashes '/') ++ ['>'])) = none := by
        rw [Option.eq_none_iff_forall_ne_some]
        intro name hname
        have htoken := mustacheName?_eq_some_iff.1 hname
        simp at htoken
      exact reference?_of_elementTag? hm (elementTag?_eq_some_iff.2 ⟨_, rfl, trimSlashes_append hlast slashes⟩)

/-! ### The template of a source -/

theorem statement?_eq_none_iff {w : Word} : statement? w = none ↔ w.chars = emptyMustache := by
  have hempty : mustacheName? w.chars = some [] ↔ w.chars = emptyMustache := mustacheName?_eq_some_iff
  rw [← hempty]
  unfold statement?
  rcases mustacheName? w.chars with _ | ⟨_ | ⟨c, name⟩⟩
  · rcases elementTag? w.chars with _ | tag
    · simp
    · simp
  · simp
  · simp

/-- The reference of a word, to which no name is bound. -/
def Word.reference? (w : Word) : Option Reference :=
  (Words.reference? w.chars).map fun x => ⟨x.1, x.2, w.span, []⟩

theorem refer_unbound (kind : ReferenceKind) (name : String) (span : Span) :
    refer [] kind name span = [⟨kind, name, span, []⟩] :=
  refer_of_free (by simp)

theorem refs_of_statement? {w : Word} {s : Statement} (h : statement? w = some s) :
    s.refs [] = w.reference?.toList := by
  revert h
  unfold statement? Word.reference? Words.reference?
  rcases mustacheName? w.chars with _ | ⟨_ | ⟨c, name⟩⟩
  · rcases elementTag? w.chars with _ | tag
    · rintro ⟨⟩
      rfl
    · rintro ⟨⟩
      exact refer_unbound .element (String.ofList tag) w.span
  · rintro ⟨⟩
  · rintro ⟨⟩
    exact refer_unbound .mustache (String.ofList (c :: name)) w.span

theorem statements?_eq_none_iff {ws : List Word} :
    statements? ws = none ↔ ∃ w ∈ ws, statement? w = none := by
  induction ws with
  | nil => simp [statements?]
  | cons w ws ih =>
    have hmem : (∃ v ∈ w :: ws, statement? v = none) ↔
        statement? w = none ∨ ∃ v ∈ ws, statement? v = none := by simp
    rw [statements?, hmem, ← ih]
    rcases statement? w with _ | s
    · simp
    · rcases statements? ws with _ | ss
      · simp
      · simp

theorem listRefs_of_statements? {ws : List Word} {ss : List Statement} (h : statements? ws = some ss) :
    Statement.listRefs [] ss = ws.filterMap Word.reference? := by
  induction ws generalizing ss with
  | nil =>
    cases h
    rfl
  | cons w ws ih =>
    rw [statements?] at h
    rcases hw : statement? w with _ | s
    · simp [hw] at h
    · rcases hws : statements? ws with _ | ss'
      · simp [hws] at h
      · simp only [hw, hws, Option.some.injEq] at h
        subst h
        rw [Statement.listRefs, refs_of_statement? hw, ih hws, List.filterMap_cons]
        rcases w.reference? with _ | r
        · rfl
        · rfl

/-- A source has a template unless one of its tokens is an empty mustache. -/
theorem template?_eq_none_iff {source : List Char} :
    template? source = none ↔ emptyMustache ∈ tokens source := by
  unfold template?
  rw [Option.map_eq_none_iff, statements?_eq_none_iff, (runs_words source).tokens_eq]
  simp only [statement?_eq_none_iff, List.mem_map]

/-- The references of the template of a source are those of its words. -/
theorem refs_of_template? {source : List Char} {t : Template} (h : template? source = some t) :
    t.refs = (words source).filterMap Word.reference? := by
  obtain ⟨ss, hss, rfl⟩ := Option.map_eq_some_iff.1 h
  exact listRefs_of_statements? hss

end Words

end TemplateLinker
