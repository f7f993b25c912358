import Mathlib.Data.List.Basic
import Mathlib.Data.List.Induction

/-!
# Proofs.Scope.Brackets — entries matched with pops

Entering a scope and leaving one are brackets.  A pop is matched with the latest entry before it that is
not yet matched, so that what stands between the two is balanced; a pop without such an entry is stray.
`Unmatched` says which entries of a sequence are left without a pop.  These are the scopes on a stack onto
which entries are pushed and from which pops take the top, if there is one (`unmatched_iff`).
-/

namespace TemplateLinker

/-- A scope that was entered: the number of its guard, and its names. -/
structure Opening where
  guard : Nat
  names : List String
  deriving DecidableEq, Repr

inductive ScopeBracket where
  | enter (o : Opening)
  | pop
  deriving DecidableEq, Repr

/-- Every entry has its pop, and every pop its entry. -/
inductive Balanced : List ScopeBracket → Prop where
  | nil : Balanced []
  | pair {inner rest : List ScopeBracket} (o : Opening) (hinner : Balanced inner) (hrest : Balanced rest) :
      Balanced (.enter o :: (inner ++ .pop :: rest))

/-- The entries that have no pop, in order. -/
inductive Unmatched : List ScopeBracket → List Opening → Prop where
  | nil : Unmatched [] []
  | enter {w : List ScopeBracket} {us : List Opening} (o : Opening) (h : Unmatched w us) :
      Unmatched (w ++ [.enter o]) (us ++ [o])
  /-- A pop and the entry that it is matched with. -/
  | pop {w inner : List ScopeBracket} {us : List Opening} (o : Opening) (h : Unmatched w us)
      (hinner : Balanced inner) : Unmatched (w ++ .enter o :: (inner ++ [.pop])) us
  /-- A pop that no entry is left for. -/
  | stray {w : List ScopeBracket} (h : Unmatched w []) : Unmatched (w ++ [.pop]) []

theorem Balanced.append {v w : List ScopeBracket} (hv : Balanced v) (hw : Balanced w) :
    Balanced (v ++ w) := by
  induction hv with
  | nil => exact hw
  | pair o hinner _ _ ih =>
    rw [List.cons_append, List.append_assoc, List.cons_append]
    exact .pair o hinner ih

/-- Behind the last entry without a pop, the brackets are balanced. -/
theorem Unmatched.split {w : List ScopeBracket} {us vs : List Opening} {o : Opening} (h : Unmatched w us)
    (hus : us = vs ++ [o]) :
    ∃ before inner, w = before ++ .enter o :: inner ∧ Balanced inner ∧ Unmatched before vs := by
  induction h with
  | nil => simp at hus
  | @enter w us o' h _ =>
    obtain ⟨rfl, hlast⟩ := List.append_inj' hus rfl
    obtain rfl : o' = o := List.singleton_inj.1 hlast
    exact ⟨w, [], rfl, .nil, h⟩
  | pop o' _ hinner ih =>
    obtain ⟨before, behind, rfl, hbehind, hbefore⟩ := ih hus
    refine ⟨before, behind ++ .enter o' :: (_ ++ [.pop]), ?_, hbehind.append (.pair o' hinner .nil), hbefore⟩
    rw [List.append_assoc, List.cons_append]
  | stray => simp at hus

/-! ### The stack of the entries -/

namespace ScopeBracket

/-- An entry is pushed, a pop takes the last one. -/
def push (us : List Opening) : ScopeBracket → List Opening
  | .enter o => us ++ [o]
  | .pop => us.dropLast

def pending (w : List ScopeBracket) : List Opening := w.foldl push []

theorem pending_concat (w : List ScopeBracket) (b : ScopeBracket) :
    pending (w ++ [b]) = push (pending w) b := by
  simp [pending]

end ScopeBracket

open ScopeBracket

theorem Balanced.foldl_push {w : List ScopeBracket} (h : Balanced w) (us : List Opening) :
    w.foldl push us = us := by
  induction h generalizing us with
  | nil => rfl
  | pair o _ _ hinner hrest =>
    rw [List.foldl_cons, List.foldl_append, hinner, List.foldl_cons, hrest]
    exact List.dropLast_concat

theorem Unmatched.eq_pending {w : List ScopeBracket} {us : List Opening} (h : Unmatched w us) :
    us = pending w := by
  induction h with
  | nil => rfl
  | enter o _ ih => rw [pending_concat, ← ih, push]
  | @pop w inner us o _ hinner ih =>
    have hpair : Balanced (.enter o :: (inner ++ [.pop])) := .pair o hinner .nil
    rw [pending, List.foldl_append, hpair.foldl_push]
    exact ih
  | stray _ ih => rw [pending_concat, ← ih, push, List.dropLast_nil]

theorem unmatched_pending (w : List ScopeBracket) : Unmatched w (pending w) := by
  induction w using List.reverseRecOn with
  | nil => exact .nil
  | append_singleton w b ih =>
    rw [pending_concat]
    cases b with
    | enter o => exact .enter o ih
    | pop =>
      rcases List.eq_nil_or_concat' (pending w) with hnil | ⟨us, o, hlast⟩
      · rw [hnil] at ih ⊢
        exact .stray ih
      · obtain ⟨before, inner, rfl, hinner, hbefore⟩ := ih.split hlast
        rw [hlast, push, List.dropLast_concat, List.append_assoc, List.cons_append]
        exact .pop o hbefore hinner

/-- **The stack holds the entries that have no pop.** -/
theorem unmatched_iff {w : List ScopeBracket} {us : List Opening} : Unmatched w us ↔ us = pending w :=
  ⟨Unmatched.eq_pending, fun h => h ▸ unmatched_pending w⟩

end TemplateLinker
