import TemplateLinker.Proofs.Scope.Brackets
import TemplateLinker.Scope.Guard

/-!
# Proofs.Scope.Guards — the open scopes after any steps

The steps on a tracker come down to brackets: an entry for each scope entered, a pop for each exit and for
each guard that is dropped while it is held.  A pop leaves the innermost scope, whichever guard is dropped,
so that the open scopes are the entries without pop.  One step keeps a tracker in agreement with its steps
(`Follows.step`), so every run does (`follows_after`, `scopes_after`).  If guards are dropped in the reverse
of the order in which they were obtained, the open scopes are those of the guards that are held
(`LastInFirstOut`).
-/

namespace TemplateLinker.GuardedTracker

open ScopeBracket (push pending pending_concat)

/-! ### Steps and their brackets -/

/-- The steps, each with those before it. -/
def moments (past : List Step) : List Step → List (List Step × Step)
  | [] => []
  | s :: rest => (past, s) :: moments (past ++ [s]) rest

/-- The number of guards obtained. -/
def guards (steps : List Step) : Nat :=
  steps.countP fun
    | .enter _ => true
    | _ => false

/-- The number of scopes entered. -/
def entries (steps : List Step) : Nat :=
  steps.countP fun
    | .enter names => names ≠ []
    | _ => false

/-- The scopes whose guards are held after one more step: a guard obtained for some names is held until
it is dropped. -/
def hold (past : List Step) (hs : List Opening) : Step → List Opening
  | .enter names => if names = [] then hs else hs ++ [⟨guards past, names⟩]
  | .drop i => hs.filter (·.guard ≠ i)
  | .exit => hs
  | .bound _ => hs

def held (steps : List Step) : List Opening := (moments [] steps).foldl (fun hs m => hold m.1 hs m.2) []

/-- What a step is after the steps `past`, as a bracket. -/
def bracket? (past : List Step) : Step → Option ScopeBracket
  | .enter names => if names = [] then none else some (.enter ⟨guards past, names⟩)
  | .drop i => if i ∈ (held past).map Opening.guard then some .pop else none
  | .exit => some .pop
  | .bound _ => none

def brackets (steps : List Step) : List ScopeBracket :=
  (moments [] steps).filterMap fun m => bracket? m.1 m.2

/-- The tracker after some steps. -/
def after (steps : List Step) : GuardedTracker := steps.foldl (fun g s => (g.step s).2) {}

/-- The number of pops that left a scope. -/
def pops (steps : List Step) : Nat :=
  (moments [] steps).countP fun m =>
    bracket? m.1 m.2 = some .pop ∧ ((after m.1).step m.2).1 ≠ .unmatchedExit

/-- A guard that is dropped while it is held is the last one obtained of those held. -/
def DropsLast (past : List Step) : Step → Prop
  | .drop i => i ∈ (held past).map Opening.guard → ∀ o ∈ held past, o.guard ≤ i
  | .enter _ => True
  | .exit => True
  | .bound _ => True

instance (past : List Step) : (s : Step) → Decidable (DropsLast past s)
  | .drop i => inferInstanceAs (Decidable (i ∈ (held past).map Opening.guard → ∀ o ∈ held past, o.guard ≤ i))
  | .enter _ => isTrue trivial
  | .exit => isTrue trivial
  | .bound _ => isTrue trivial

/-- Scopes are left by their guards only, and the guards are dropped in the reverse of the order in which
they were obtained. -/
structure LastInFirstOut (steps : List Step) : Prop where
  no_exit : .exit ∉ steps
  drops_last : ∀ m ∈ moments [] steps, DropsLast m.1 m.2

theorem bracket?_enter_nil (past : List Step) : bracket? past (.enter []) = none := rfl

theorem bracket?_enter {names : List String} (past : List Step) (h : names ≠ []) :
    bracket? past (.enter names) = some (.enter ⟨guards past, names⟩) := if_neg h

theorem bracket?_drop_of_mem {past : List Step} {i : Nat} (hi : i ∈ (held past).map Opening.guard) :
    bracket? past (.drop i) = some .pop := if_pos hi

theorem bracket?_drop_of_not_mem {past : List Step} {i : Nat} (hi : i ∉ (held past).map Opening.guard) :
    bracket? past (.drop i) = none := if_neg hi

theorem moments_append (past steps rest : List Step) :
    moments past (steps ++ rest) = moments past steps ++ moments (past ++ steps) rest := by
  induction steps generalizing past with
  | nil => simp [moments]
  | cons s steps ih => simp [moments, ih]

theorem moments_concat (steps : List Step) (s : Step) :
    moments [] (steps ++ [s]) = moments [] steps ++ [(steps, s)] := moments_append [] steps [s]

theorem exists_of_mem_moments {past steps : List Step} {m : List Step × Step} (h : m ∈ moments past steps) :
    ∃ before rest, steps = before ++ m.2 :: rest ∧ m.1 = past ++ before := by
  induction steps generalizing past with
  | nil => exact absurd h List.not_mem_nil
  | cons s steps ih =>
    rcases List.mem_cons.1 h with rfl | h
    · exact ⟨[], steps, rfl, (List.append_nil past).symm⟩
    · obtain ⟨before, rest, hsplit, hpast⟩ := ih h
      exact ⟨s :: before, rest, by rw [hsplit, List.cons_append], by rw [hpast, List.append_assoc]; rfl⟩

theorem held_concat (steps : List Step) (s : Step) : held (steps ++ [s]) = hold steps (held steps) s := by
  simp [held, moments_concat]

theorem brackets_concat_of_none {steps : List Step} {s : Step} (h : bracket? steps s = none) :
    brackets (steps ++ [s]) = brackets steps := by
  rw [brackets, moments_concat, List.filterMap_append, ← brackets]
  simp [h]

theorem brackets_concat_of_some {steps : List Step} {s : Step} {b : ScopeBracket}
    (h : bracket? steps s = some b) : brackets (steps ++ [s]) = brackets steps ++ [b] := by
  rw [brackets, moments_concat, List.filterMap_append, ← brackets]
  simp [h]

theorem after_concat (steps : List Step) (s : Step) : after (steps ++ [s]) = ((after steps).step s).2 := by
  simp [after]

theorem guards_append (steps rest : List Step) : guards (steps ++ rest) = guards steps + guards rest :=
  List.countP_append

theorem guards_lt_guards (past : List Step) (names : List String) (rest : List Step) :
    guards past < guards (past ++ .enter names :: rest) := by
  simp [guards]

theorem entries_append (steps rest : List Step) : entries (steps ++ rest) = entries steps + entries rest :=
  List.countP_append

/-- A run shows, for each step, the reply to it and the tracker behind it. -/
theorem run_after (past steps : List Step) :
    run (after past) steps =
      (moments past steps).map fun m => (((after m.1).step m.2).1, (after (m.1 ++ [m.2])).tracker) := by
  induction steps generalizing past with
  | nil => rfl
  | cons s steps ih =>
    have hnext := ih (past ++ [s])
    rw [after_concat] at hnext
    rw [run, moments, List.map_cons, after_concat, hnext]

/-! ### Guards that are held -/

theorem mem_hold_iff {past : List Step} {hs : List Opening} {s : Step} {o : Opening} :
    o ∈ hold past hs s ↔ (o ∈ hs ∧ s ≠ .drop o.guard) ∨
      (s = .enter o.names ∧ o.names ≠ [] ∧ guards past = o.guard) := by
  obtain ⟨guard, names'⟩ := o
  cases s with
  | enter names =>
    by_cases hnames : names = []
    · subst hnames
      rw [hold, if_pos rfl]
      constructor
      · exact fun h => .inl ⟨h, nofun⟩
      · rintro (⟨h, -⟩ | ⟨h, hne, -⟩)
        · exact h
        · exact absurd (Step.enter.inj h).symm hne
    · rw [hold, if_neg hnames, List.mem_append, List.mem_singleton]
      constructor
      · rintro (h | h)
        · exact .inl ⟨h, nofun⟩
        · cases h
          exact .inr ⟨rfl, hnames, rfl⟩
      · rintro (⟨h, -⟩ | ⟨h, -, hguard⟩)
        · exact .inl h
        · cases h
          exact .inr (by rw [hguard])
  | drop i =>
    rw [hold, List.mem_filter, decide_eq_true_eq]
    constructor
    · exact fun ⟨h, hne⟩ => .inl ⟨h, fun heq => hne (Step.drop.inj heq).symm⟩
    · rintro (⟨h, hne⟩ | ⟨h, -⟩)
      · exact ⟨h, fun heq => hne (congrArg Step.drop heq.symm)⟩
      · exact nomatch h
  | exit => simp [hold]
  | bound names => simp [hold]

/-- The scopes whose guards are held are those entered and not dropped by their guards since. -/
theorem mem_held_iff {steps : List Step} {o : Opening} :
    o ∈ held steps ↔ ∃ before behind, steps = before ++ .enter o.names :: behind ∧ o.names ≠ [] ∧
      guards before = o.guard ∧ .drop o.guard ∉ behind := by
  induction steps using List.reverseRecOn with
  | nil => simp [held, moments]
  | append_singleton steps s ih =>
    rw [held_concat, mem_hold_iff, ih]
    constructor
    · rintro (⟨⟨before, behind, rfl, hnames, hguard, hdrop⟩, hs⟩ | ⟨rfl, hnames, hguard⟩)
      · refine ⟨before, behind ++ [s], by simp, hnames, hguard, ?_⟩
        simp [hdrop, Ne.symm hs]
      · exact ⟨steps, [], rfl, hnames, hguard, List.not_mem_nil⟩
    · rintro ⟨before, behind, heq, hnames, hguard, hdrop⟩
      rcases List.eq_nil_or_concat' behind with rfl | ⟨behind, s', rfl⟩
      · obtain ⟨rfl, hs⟩ := List.append_inj' heq rfl
        exact .inr ⟨List.singleton_inj.1 hs, hnames, hguard⟩
      · rw [← List.cons_append, ← List.append_assoc] at heq
        obtain ⟨rfl, hs⟩ := List.append_inj' heq rfl
        obtain rfl : s = s' := List.singleton_inj.1 hs
        simp only [List.mem_append, List.mem_singleton, not_or] at hdrop
        exact .inl ⟨⟨before, behind, rfl, hnames, hguard, hdrop.1⟩, Ne.symm hdrop.2⟩

theorem guard_lt_guards {steps : List Step} {o : Opening} (h : o ∈ held steps) : o.guard < guards steps := by
  obtain ⟨before, behind, rfl, -, hguard, -⟩ := mem_held_iff.1 h
  rw [← hguard]
  exact guards_lt_guards before o.names behind

/-- Guards are held in the order in which they were obtained. -/
theorem pairwise_held (steps : List Step) : (held steps).Pairwise (·.guard < ·.guard) := by
  induction steps using List.reverseRecOn with
  | nil => exact .nil
  | append_singleton steps s ih =>
    rw [held_concat]
    cases s with
    | enter names =>
      rw [hold]
      split
      · exact ih
      · refine List.pairwise_append.2 ⟨ih, List.pairwise_singleton .., fun o ho o' ho' => ?_⟩
        rw [List.mem_singleton.1 ho']
        exact guard_lt_guards ho
    | drop i => exact ih.filter _
    | exit => exact ih
    | bound names => exact ih

theorem mem_guards_drop {past : List Step} {hs : List Opening} {i j : Nat} :
    j ∈ (hold past hs (.drop i)).map Opening.guard ↔ j ≠ i ∧ j ∈ hs.map Opening.guard := by
  simp only [hold, List.mem_map, List.mem_filter, decide_eq_true_eq]
  constructor
  · rintro ⟨o, ⟨ho, hne⟩, rfl⟩
    exact ⟨hne, o, ho, rfl⟩
  · rintro ⟨hne, o, ho, rfl⟩
    exact ⟨o, ⟨ho, hne⟩, rfl⟩

/-- Dropping a guard that is not held changes nothing. -/
theorem hold_drop_of_not_mem {past : List Step} {hs : List Opening} {i : Nat}
    (h : i ∉ hs.map Opening.guard) : hold past hs (.drop i) = hs :=
  List.filter_eq_self.2 fun _ ho => decide_eq_true fun hi => h (hi ▸ List.mem_map_of_mem ho)

/-- Dropping the guard that was obtained last takes the last scope. -/
theorem hold_drop_of_last {past : List Step} {hs : List Opening} {i : Nat}
    (hordered : hs.Pairwise (·.guard < ·.guard)) (hi : i ∈ hs.map Opening.guard)
    (hlast : ∀ o ∈ hs, o.guard ≤ i) : hold past hs (.drop i) = hs.dropLast := by
  rcases List.eq_nil_or_concat' hs with rfl | ⟨hs, o, rfl⟩
  · exact absurd hi List.not_mem_nil
  · have hbelow : ∀ o' ∈ hs, o'.guard < o.guard := fun o' ho' =>
      (List.pairwise_append.1 hordered).2.2 o' ho' o (List.mem_singleton_self o)
    have hle : o.guard ≤ i := hlast o (List.mem_append_right _ (List.mem_singleton_self o))
    have hguard : o.guard = i := by
      obtain ⟨o', ho', rfl⟩ := List.mem_map.1 hi
      rcases List.mem_append.1 ho' with ho' | ho'
      · exact absurd (hbelow o' ho') (Nat.not_lt.2 hle)
      · rw [List.mem_singleton.1 ho']
    have hkeep : i ∉ hs.map Opening.guard := by
      rintro hi
      obtain ⟨o', ho', heq⟩ := List.mem_map.1 hi
      exact absurd (hbelow o' ho') (by omega)
    have hdrop : [o].filter (fun o => o.guard ≠ i) = [] := by simp [hguard]
    have hfilter : hold past hs (.drop i) = hs := hold_drop_of_not_mem hkeep
    rw [hold] at hfilter ⊢
    rw [List.filter_append, hfilter, hdrop, List.append_nil, List.dropLast_concat]

/-! ### Leaving a scope -/

theorem scopes_leave (g : GuardedTracker) : g.leave.2.tracker.scopes = g.tracker.scopes.tail := by
  unfold leave ScopeTracker.exit?
  rcases h : g.tracker.scopes with _ | ⟨s, rest⟩
  · simp [h]
  · rfl

theorem active_leave (g : GuardedTracker) : g.leave.2.active = g.active := by
  unfold leave
  split
  · rfl
  · rfl

theorem leave_eq_unmatchedExit_iff (g : GuardedTracker) :
    g.leave.1 = .unmatchedExit ↔ g.tracker.scopes = [] := by
  unfold leave ScopeTracker.exit?
  rcases h : g.tracker.scopes with _ | ⟨s, rest⟩
  · simp
  · simp

/-! ### Guards that are active -/

theorem getElem?_concat_eq_true {active : List Bool} {b : Bool} {i : Nat} :
    (active ++ [b])[i]? = some true ↔ active[i]? = some true ∨ (i = active.length ∧ b = true) := by
  rw [List.getElem?_append]
  split
  · next hi => simp [hi, Nat.ne_of_lt hi]
  · next hi =>
    have hnone : active[i]? = none := List.getElem?_eq_none (Nat.not_lt.1 hi)
    have hzero : i - active.length = 0 ↔ i = active.length := by omega
    rw [hnone, List.getElem?_singleton]
    simp [hzero]

theorem getElem?_set_false_eq_true {active : List Bool} {i j : Nat} :
    (active.set i false)[j]? = some true ↔ j ≠ i ∧ active[j]? = some true := by
  rw [List.getElem?_set]
  split
  · next hij => simp [hij]
  · next hij => simp [Ne.symm hij]

/-! ### A step keeps the tracker in agreement with its steps -/

/-- A tracker on which these steps were made. -/
structure Follows (g : GuardedTracker) (steps : List Step) : Prop where
  size : g.active.length = guards steps
  active : ∀ i, g.active[i]? = some true ↔ i ∈ (held steps).map Opening.guard
  scopes : g.tracker.scopes = ((pending (brackets steps)).map fun o => ⟨o.names⟩).reverse

namespace Follows

variable {g : GuardedTracker} {steps : List Step}

theorem initial : Follows {} [] := ⟨rfl, by simp [held, moments], rfl⟩

theorem scopes_eq_nil_iff (h : Follows g steps) :
    g.tracker.scopes = [] ↔ pending (brackets steps) = [] := by
  rw [h.scopes, List.reverse_eq_nil_iff, List.map_eq_nil_iff]

theorem enter (h : Follows g steps) (names : List String) :
    Follows (g.step (.enter names)).2 (steps ++ [.enter names]) where
  size := by
    rw [guards_append, ← h.size]
    simp [GuardedTracker.step, guards]
  active i := by
    rw [held_concat]
    show (g.active ++ [!names.isEmpty])[i]? = some true ↔ _
    rw [getElem?_concat_eq_true, h.active, h.size, hold]
    by_cases hnames : names = []
    · simp [hnames]
    · simp [hnames]
  scopes := by
    by_cases hnames : names = []
    · subst hnames
      rw [brackets_concat_of_none (bracket?_enter_nil steps)]
      exact h.scopes
    · rw [brackets_concat_of_some (bracket?_enter steps hnames), pending_concat, push, List.map_append,
        List.reverse_append, ← h.scopes]
      exact ScopeTracker.scopes_enter g.tracker hnames

/-- Leaving a scope is a pop, whatever guards are active then. -/
theorem leave (h : Follows g steps) (active : List Bool) :
    ({ g with active := active } : GuardedTracker).leave.2.tracker.scopes =
      ((pending (brackets steps ++ [.pop])).map fun o => ⟨o.names⟩).reverse := by
  rw [scopes_leave, h.scopes, pending_concat, push, List.tail_reverse, List.map_dropLast]

theorem step_drop_of_mem (h : Follows g steps) {i : Nat} (hi : i ∈ (held steps).map Opening.guard) :
    g.step (.drop i) = GuardedTracker.leave { g with active := g.active.set i false } :=
  if_pos ((h.active i).2 hi)

theorem step_drop_of_not_mem (h : Follows g steps) {i : Nat} (hi : i ∉ (held steps).map Opening.guard) :
    g.step (.drop i) = (.done, g) :=
  if_neg fun hactive => hi ((h.active i).1 hactive)

theorem drop (h : Follows g steps) (i : Nat) : Follows (g.step (.drop i)).2 (steps ++ [.drop i]) := by
  have hsize : guards (steps ++ [.drop i]) = guards steps := guards_append steps [.drop i]
  by_cases hi : i ∈ (held steps).map Opening.guard
  · rw [h.step_drop_of_mem hi]
    refine ⟨?_, fun j => ?_, ?_⟩
    · rw [active_leave, List.length_set, hsize, h.size]
    · rw [active_leave, held_concat, mem_guards_drop, ← h.active, getElem?_set_false_eq_true]
    · rw [brackets_concat_of_some (bracket?_drop_of_mem hi)]
      exact h.leave _
  · rw [h.step_drop_of_not_mem hi]
    refine ⟨h.size.trans hsize.symm, fun j => ?_, ?_⟩
    · rw [held_concat, hold_drop_of_not_mem hi]
      exact h.active j
    · rw [brackets_concat_of_none (bracket?_drop_of_not_mem hi)]
      exact h.scopes

theorem exit (h : Follows g steps) : Follows (g.step .exit).2 (steps ++ [.exit]) where
  size := (congrArg List.length (active_leave g)).trans (h.size.trans (guards_append steps [.exit]).symm)
  active i := by
    rw [held_concat]
    show g.leave.2.active[i]? = some true ↔ _
    rw [active_leave]
    exact h.active i
  scopes := by
    rw [brackets_concat_of_some rfl]
    exact h.leave g.active

theorem bound (h : Follows g steps) (names : List String) :
    Follows (g.step (.bound names)).2 (steps ++ [.bound names]) where
  size := h.size.trans (guards_append steps [.bound names]).symm
  active i := by
    rw [held_concat]
    exact h.active i
  scopes := by
    rw [brackets_concat_of_none rfl]
    exact h.scopes

/-- **One step.** -/
theorem step (h : Follows g steps) (s : Step) : Follows (g.step s).2 (steps ++ [s]) := by
  cases s with
  | enter names => exact h.enter names
  | drop i => exact h.drop i
  | exit => exact h.exit
  | bound names => exact h.bound names

/-- An exit is unmatched if and only if it is a pop that no scope is open for. -/
theorem step_eq_unmatchedExit_iff (h : Follows g steps) (s : Step) :
    (g.step s).1 = .unmatchedExit ↔
      bracket? steps s = some .pop ∧ pending (brackets steps) = [] := by
  rw [← h.scopes_eq_nil_iff]
  cases s with
  | enter names =>
    by_cases hnames : names = []
    · subst hnames
      exact iff_of_false nofun nofun
    · rw [bracket?_enter steps hnames]
      exact iff_of_false nofun nofun
  | drop i =>
    by_cases hi : i ∈ (held steps).map Opening.guard
    · rw [h.step_drop_of_mem hi, leave_eq_unmatchedExit_iff, bracket?_drop_of_mem hi]
      exact (and_iff_right rfl).symm
    · rw [h.step_drop_of_not_mem hi, bracket?_drop_of_not_mem hi]
      simp
  | exit => exact (leave_eq_unmatchedExit_iff g).trans (and_iff_right rfl).symm
  | bound names => simp [GuardedTracker.step, bracket?]

end Follows

theorem follows_after (steps : List Step) : Follows (after steps) steps := by
  induction steps using List.reverseRecOn with
  | nil => exact .initial
  | append_singleton steps s ih =>
    rw [after_concat]
    exact ih.step s

/-! ### Counting entries and pops -/

theorem pops_concat (steps : List Step) (s : Step) :
    pops (steps ++ [s]) = pops steps +
      if bracket? steps s = some .pop ∧ pending (brackets steps) ≠ [] then 1 else 0 := by
  have hpop : (bracket? steps s = some .pop ∧ ((after steps).step s).1 ≠ .unmatchedExit) ↔
      (bracket? steps s = some .pop ∧ pending (brackets steps) ≠ []) :=
    and_congr_right fun hpop => not_congr (((follows_after steps).step_eq_unmatchedExit_iff s).trans
      (and_iff_right hpop))
  rw [pops, moments_concat, List.countP_append, ← pops, List.countP_singleton]
  simp only [decide_eq_true_eq, hpop]

/-- A step counts as an entry if and only if its bracket is one. -/
theorem entries_singleton (steps : List Step) (s : Step) :
    entries [s] = match bracket? steps s with
      | some (.enter _) => 1
      | _ => 0 := by
  cases s with
  | enter names =>
    by_cases hnames : names = []
    · subst hnames
      rfl
    · rw [bracket?_enter steps hnames]
      simp [entries, hnames]
  | drop i =>
    by_cases hi : i ∈ (held steps).map Opening.guard
    · rw [bracket?_drop_of_mem hi]
      rfl
    · rw [bracket?_drop_of_not_mem hi]
      rfl
  | exit => rfl
  | bound names => rfl

/-- Every entry is open or was left. -/
theorem length_pending_add_pops (steps : List Step) :
    (pending (brackets steps)).length + pops steps = entries steps := by
  induction steps using List.reverseRecOn with
  | nil => rfl
  | append_singleton steps s ih =>
    rw [pops_concat, entries_append, entries_singleton steps s, ← ih]
    rcases hbracket : bracket? steps s with _ | ⟨o⟩ | _
    · rw [brackets_concat_of_none hbracket, if_neg nofun]
      rfl
    · rw [brackets_concat_of_some hbracket, if_neg nofun, pending_concat, push, List.length_append,
        List.length_singleton]
      dsimp only
      omega
    · rw [brackets_concat_of_some hbracket, pending_concat, push, List.length_dropLast]
      rcases hnil : pending (brackets steps) with _ | ⟨o, us⟩
      · rfl
      · simp only [List.length_cons, Nat.add_one_sub_one, ne_eq, reduceCtorEq, not_false_eq_true, and_self,
          if_true]
        omega

/-! ### Guards that are not held -/

/-- The guard of an entry without names is never held. -/
theorem not_held_of_inert (past rest : List Step) :
    guards past ∉ (held (past ++ .enter [] :: rest)).map Opening.guard := by
  intro hheld
  obtain ⟨o, ho, hguard⟩ := List.mem_map.1 hheld
  obtain ⟨before, behind, hsplit, hnames, hbefore, -⟩ := mem_held_iff.1 ho
  rcases List.append_eq_append_iff.1 hsplit with ⟨mid, rfl, hmid⟩ | ⟨mid, rfl, hmid⟩
  · cases mid with
    | nil => exact hnames (Step.enter.inj (List.cons.inj hmid).1).symm
    | cons s mid =>
      obtain ⟨rfl, -⟩ := List.cons.inj hmid
      exact absurd (hbefore.trans hguard) (Nat.ne_of_gt (guards_lt_guards past [] mid))
  · cases mid with
    | nil => exact hnames (Step.enter.inj (List.cons.inj hmid).1)
    | cons s mid =>
      obtain ⟨rfl, -⟩ := List.cons.inj hmid
      exact absurd (hbefore.trans hguard) (Nat.ne_of_lt (guards_lt_guards before o.names mid))

/-- A guard is not held anymore once it was dropped. -/
theorem not_held_of_dropped {past : List Step} {i : Nat} (rest : List Step) (hi : i < guards past) :
    i ∉ (held (past ++ .drop i :: rest)).map Opening.guard := by
  intro hheld
  obtain ⟨o, ho, rfl⟩ := List.mem_map.1 hheld
  obtain ⟨before, behind, hsplit, -, hbefore, hdrop⟩ := mem_held_iff.1 ho
  rcases List.append_eq_append_iff.1 hsplit with ⟨mid, rfl, -⟩ | ⟨mid, rfl, hmid⟩
  · rw [guards_append] at hbefore
    omega
  · cases mid with
    | nil => cases (List.cons.inj hmid).1
    | cons s mid =>
      obtain ⟨-, rfl⟩ := List.cons.inj hmid
      exact hdrop (List.mem_append_right mid List.mem_cons_self)

/-! ### Guards dropped in reverse order -/

namespace LastInFirstOut

variable {steps past rest : List Step}

theorem of_append (h : LastInFirstOut (past ++ rest)) : LastInFirstOut past where
  no_exit hexit := h.no_exit (List.mem_append_left _ hexit)
  drops_last m hm := h.drops_last m (by rw [moments_append]; exact List.mem_append_left _ hm)

theorem pending_eq_held (h : LastInFirstOut steps) : pending (brackets steps) = held steps := by
  induction steps using List.reverseRecOn with
  | nil => rfl
  | append_singleton steps s ih =>
    have hpast := ih h.of_append
    have hs : DropsLast steps s :=
      h.drops_last (steps, s) (by rw [moments_concat]; exact List.mem_append_right _ (List.mem_singleton_self _))
    rw [held_concat]
    cases s with
    | enter names =>
      by_cases hnames : names = []
      · subst hnames
        rw [brackets_concat_of_none (bracket?_enter_nil steps), hpast, hold, if_pos rfl]
      · rw [brackets_concat_of_some (bracket?_enter steps hnames), pending_concat, hpast, push, hold,
          if_neg hnames]
    | drop i =>
      by_cases hi : i ∈ (held steps).map Opening.guard
      · rw [brackets_concat_of_some (bracket?_drop_of_mem hi), pending_concat, hpast, push,
          hold_drop_of_last (pairwise_held steps) hi (hs hi)]
      · rw [brackets_concat_of_none (bracket?_drop_of_not_mem hi), hpast, hold_drop_of_not_mem hi]
    | exit => exact absurd (List.mem_append_right steps (List.mem_singleton_self Step.exit)) h.no_exit
    | bound names => rw [brackets_concat_of_none rfl, hpast, hold]

/-- No exit is unmatched. -/
theorem step_ne_unmatchedExit {s : Step} (h : LastInFirstOut (past ++ s :: rest)) :
    ((after past).step s).1 ≠ .unmatchedExit := by
  rw [Ne, (follows_after past).step_eq_unmatchedExit_iff, h.of_append.pending_eq_held]
  rintro ⟨hpop, hnil⟩
  cases s with
  | enter names =>
    rw [bracket?] at hpop
    split at hpop
    · cases hpop
    · cases hpop
  | drop i => simp [bracket?, hnil] at hpop
  | exit => exact h.no_exit (List.mem_append_right past List.mem_cons_self)
  | bound names => cases hpop

theorem unmatchedExit_not_mem_run (h : LastInFirstOut steps) :
    .unmatchedExit ∉ (run {} steps).map Prod.fst := by
  have hrun : run {} steps = _ := run_after [] steps
  rw [hrun, List.map_map]
  intro hmem
  obtain ⟨m, hm, hreply⟩ := List.mem_map.1 hmem
  obtain ⟨before, rest, rfl, hbefore⟩ := exists_of_mem_moments hm
  have hpanic : ((after m.1).step m.2).1 = .unmatchedExit := hreply
  rw [hbefore] at hpanic
  exact step_ne_unmatchedExit h hpanic

end LastInFirstOut

/-! ### The open scopes -/

/-- The scopes that are open after some steps, outermost first. -/
structure OpenScopes (steps : List Step) (opens : List Opening) : Prop where
  scopes : (after steps).tracker.scopes = (opens.map fun o => ⟨o.names⟩).reverse
  depth : (after steps).tracker.depth = opens.length
  depth_add_pops : (after steps).tracker.depth + pops steps = entries steps
  isEmpty : (after steps).tracker.isEmpty = true ↔ (after steps).tracker.depth = 0
  isBound : ∀ name, (after steps).tracker.isBound name = true ↔ ∃ o ∈ opens, name ∈ o.names
  unmatchedExit : ∀ s,
    ((after steps).step s).1 = .unmatchedExit ↔ bracket? steps s = some .pop ∧ opens = []

theorem openScopes_pending (steps : List Step) : OpenScopes steps (pending (brackets steps)) := by
  have hfollows := follows_after steps
  have hdepth : (after steps).tracker.depth = (pending (brackets steps)).length := by
    rw [ScopeTracker.depth, hfollows.scopes, List.length_reverse, List.length_map]
  refine ⟨hfollows.scopes, hdepth, ?_, ?_, fun name => ?_, hfollows.step_eq_unmatchedExit_iff⟩
  · rw [hdepth, length_pending_add_pops]
  · rw [ScopeTracker.isEmpty, beq_iff_eq]
  · rw [ScopeTracker.isBound_iff, hfollows.scopes]
    simp

-- The guard of the outer scope is dropped first, and leaves the inner scope.
example : (after [.enter ["a"], .enter ["b"], .drop 0]).tracker.scopes = [⟨["a"]⟩] := by decide

/-- **The open scopes after any steps** are those entered whose brackets have no pop. -/
theorem scopes_after (steps : List Step) :
    run {} steps =
      (moments [] steps).map (fun m => (((after m.1).step m.2).1, (after (m.1 ++ [m.2])).tracker)) ∧
    (∃ opens, (∀ us, Unmatched (brackets steps) us ↔ us = opens) ∧ OpenScopes steps opens) ∧
    (∀ o, o ∈ held steps ↔ ∃ before behind, steps = before ++ .enter o.names :: behind ∧ o.names ≠ [] ∧
      guards before = o.guard ∧ .drop o.guard ∉ behind) ∧
    -- an unmatched exit, and a guard that was dropped, by one or not
    (∀ s, ((after steps).step s).1 = .unmatchedExit → (after (steps ++ [s])).tracker.scopes = []) ∧
    (∀ i, (after (steps ++ [.drop i])).active[i]? ≠ some true) ∧
    -- what changes nothing
    after (steps ++ [.enter []]) = { after steps with active := (after steps).active ++ [false] } ∧
    (∀ past rest, steps = past ++ .enter [] :: rest →
      (after steps).step (.drop (guards past)) = (.done, after steps)) ∧
    (∀ past rest i, steps = past ++ .drop i :: rest → i < guards past →
      (after steps).step (.drop i) = (.done, after steps)) ∧
    -- guards that are dropped in the reverse of their order
    (LastInFirstOut steps →
      (∀ past rest, steps = past ++ rest →
        Unmatched (brackets past) (held past) ∧ OpenScopes past (held past)) ∧
      .unmatchedExit ∉ (run {} steps).map Prod.fst) := by
  have hfollows := follows_after steps
  refine ⟨run_after [] steps, ⟨_, fun _ => unmatched_iff, openScopes_pending steps⟩, fun _ => mem_held_iff,
    fun s hs => ?_, fun i hi => ?_, ?_, ?_, ?_, fun h => ⟨?_, h.unmatchedExit_not_mem_run⟩⟩
  · obtain ⟨hpop, hnil⟩ := (hfollows.step_eq_unmatchedExit_iff s).1 hs
    rw [(follows_after (steps ++ [s])).scopes_eq_nil_iff, brackets_concat_of_some hpop, pending_concat, hnil,
      push, List.dropLast_nil]
  · have hheld := ((follows_after (steps ++ [.drop i])).active i).1 hi
    rw [held_concat, mem_guards_drop] at hheld
    exact hheld.1 rfl
  · rw [after_concat, step, ScopeTracker.enter_nil]
    rfl
  · rintro past rest rfl
    exact hfollows.step_drop_of_not_mem (not_held_of_inert past rest)
  · rintro past rest i rfl hi
    exact hfollows.step_drop_of_not_mem (not_held_of_dropped rest hi)
  · rintro past rest rfl
    rw [← h.of_append.pending_eq_held]
    exact ⟨unmatched_pending _, openScopes_pending past⟩

/-- Two scopes, one inside the other, and between them an entry without names. -/
theorem scopes_after_nested :
    let steps := [Step.enter ["a"], .enter [], .enter ["b"], .drop 2, .drop 1, .drop 0]
    OpenScopes (steps.take 3) [⟨0, ["a"]⟩, ⟨2, ["b"]⟩] ∧ OpenScopes (steps.take 5) [⟨0, ["a"]⟩] ∧
      .unmatchedExit ∉ (run {} steps).map Prod.fst ∧
      (after steps).step (.drop 1) = (.done, after steps) ∧
      (after steps).step (.drop 2) = (.done, after steps) ∧
      (after (steps ++ [.exit])).tracker.scopes = [] := by
  intro steps
  obtain ⟨-, -, -, hunmatched, -, -, hinert, hagain, hnested⟩ := scopes_after steps
  have hlifo : LastInFirstOut steps := ⟨by decide, by decide⟩
  obtain ⟨hopen, hquiet⟩ := hnested hlifo
  exact ⟨(hopen (steps.take 3) (steps.drop 3) rfl).2, (hopen (steps.take 5) (steps.drop 5) rfl).2, hquiet,
    hinert (steps.take 1) (steps.drop 2) rfl, hagain (steps.take 3) (steps.drop 4) 2 rfl (by decide),
    hunmatched .exit (by decide)⟩

end TemplateLinker.GuardedTracker
