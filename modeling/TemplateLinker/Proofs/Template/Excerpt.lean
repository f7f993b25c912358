import TemplateLinker.Proofs.Template.Trace
import TemplateLinker.Template.Path

/-!
# Proofs.Template.Excerpt — traces that leave events out

A visitor that notes in fewer hooks leaves out the events of the others, and no more
(`trace_of_fewer_hooks`).  A walk that is stopped by its `n`-th event ends with that event, wherever in
the template it is noted: what is pending, closing events included, is left out
(`trace_stopped`).
-/

namespace TemplateLinker

namespace Tracing

/-- Noting events in front of the `n`-th does not stop; noting the `n`-th does. -/
theorem noteAll_some {n : Nat} (es : List Event) (noted : Array Event) (hn : noted.size < n) :
    noteAll (some n) es noted =
      if n ≤ noted.size + es.length then (.error n, noted ++ (es.take (n - noted.size)).toArray)
      else (.ok (), noted ++ es.toArray) := by
  induction es generalizing noted with
  | nil =>
    have hfew : ¬n ≤ noted.size + 0 := by omega
    show (Except.ok (), noted) = _
    rw [List.length_nil, if_neg hfew, Array.append_empty]
  | cons e es ih =>
    rw [noteAll_cons_apply, List.length_cons]
    by_cases hlast : n = noted.size + 1
    · have hmany : n ≤ noted.size + (es.length + 1) := by omega
      have htake : n - noted.size = 1 := by omega
      rw [if_pos (congrArg some hlast), if_pos hmany, htake, hlast]
      simp
    · have hsize : (noted.push e).size = noted.size + 1 := Array.size_push ..
      have hbefore : (noted.push e).size < n := by omega
      have hcount : (noted.push e).size + es.length = noted.size + (es.length + 1) := by omega
      have htake : n - noted.size = (n - (noted.push e).size) + 1 := by omega
      rw [if_neg (fun h => hlast (Option.some.inj h)), ih _ hbefore, hcount, htake]
      simp

end Tracing

namespace Visitor

/-- **Fewer hooks only hide events.**  The visitor of every node notes the events of the template.  The
visitors of leaves and of paths note those of their hooks among them, in the same order; the visitor
without hooks notes none.  The same holds of any choice of hooks. -/
theorem trace_of_fewer_hooks (t : Template) :
    (full none).trace t = (none, t.events) ∧
    (leaves none).trace t = (none, t.events.filter (·.hook ∈ [.text, .comment, .path])) ∧
    (paths none).trace t = (none, t.events.filter (·.hook = .path)) ∧
    silent.trace t = (none, []) ∧
    ∀ on : Hook → Bool, (noting on none).trace t = (none, t.events.filter fun e => on e.hook) := by
  refine ⟨trace_full t, ?_, ?_, ?_, fun on => trace_noting on t⟩
  · rw [leaves_eq_noting, trace_noting]
  · rw [paths_eq_noting, trace_noting]
  · rw [silent_eq_noting none, trace_noting]
    simp

/-- The trace of a walk that is to stop at its `n`-th event. -/
theorem trace_noting_some (on : Hook → Bool) (t : Template) {n : Nat} (hn : 1 ≤ n) :
    (noting on (some n)).trace t =
      if n ≤ (t.events.filter fun e => on e.hook).length then
        (some n, (t.events.filter fun e => on e.hook).take n)
      else (none, t.events.filter fun e => on e.hook) := by
  have hwalk : (noting on (some n)).visitTemplate t = _ := notes_visitTemplate t
  have hrun : ((noting on (some n)).visitTemplate t).run #[] = _ :=
    (congrFun hwalk #[]).trans (Tracing.noteAll_some _ #[] hn)
  rw [trace, hrun, Array.size_empty, Nat.zero_add, Nat.sub_zero, Array.empty_append, Array.empty_append]
  by_cases hmany : n ≤ (t.events.filter fun e => on e.hook).length
  · rw [if_pos hmany, if_pos hmany]
  · rw [if_neg hmany, if_neg hmany]

/-- **A failing hook ends the walk at once.**  Each visitor notes the events of its hooks.  If the walk is to
stop at the `n`-th of them and there are as many, it fails there, having noted the first `n` and no other;
if there are fewer, it is the walk that is not stopped. -/
theorem trace_stopped (t : Template) {n : Nat} (hn : 1 ≤ n) :
    ∀ visitor events,
      (visitor, events) ∈ [(full, t.events), (leaves, t.events.filter (·.hook ∈ [.text, .comment, .path])),
        (paths, t.events.filter (·.hook = .path))] →
      (visitor none).trace t = (none, events) ∧
      (n ≤ events.length → (visitor (some n)).trace t = (some n, events.take n)) ∧
      (events.length < n → (visitor (some n)).trace t = (none, events)) := by
  have hnoting (on : Hook → Bool) (events : List Event) (hevents : events = t.events.filter fun e => on e.hook) :
      (noting on none).trace t = (none, events) ∧
      (n ≤ events.length → (noting on (some n)).trace t = (some n, events.take n)) ∧
      (events.length < n → (noting on (some n)).trace t = (none, events)) := by
    subst hevents
    refine ⟨trace_noting on t, fun hmany => ?_, fun hfew => ?_⟩
    · rw [trace_noting_some on t hn, if_pos hmany]
    · rw [trace_noting_some on t hn, if_neg (Nat.not_le.2 hfew)]
  have hall : t.events = t.events.filter fun _ => true := (List.filter_eq_self.2 fun _ _ => rfl).symm
  intro visitor events hvisitor
  rcases hvisitor with _ | ⟨_, _ | ⟨_, _ | ⟨_, ⟨⟩⟩⟩⟩
  · exact hnoting (fun _ => true) _ hall
  · exact hnoting (· ∈ [.text, .comment, .path]) _ rfl
  · exact hnoting (· = .path) _ rfl

/-- A closing event fails: those of the block and of the template are not noted.  Of the paths there are
not as many events, so that they are all noted. -/
theorem trace_stopped_by_closing_event :
    let t : Template := ⟨⟨[.mustache ⟨⟨.path (Path.ofText "name" .zero), [], []⟩, false, .zero⟩], [], .zero⟩⟩
    let path : Event := .path "name" false false ["name"] .zero
    (full (some 8)).trace t = (some 8, [.template, .block [] false .zero, .statement .zero,
      .mustache (some "name") false .zero, .expression (some "name") .zero, path, .hash [] true,
      .close .mustache]) ∧ (paths (some 8)).trace t = (none, [path]) := by
  intro t path
  constructor
  · obtain ⟨-, hstop, -⟩ := trace_stopped t (n := 8) (by decide) full t.events (by simp)
    rw [hstop (by decide +kernel)]
    decide +kernel
  · obtain ⟨-, -, hrun⟩ := trace_stopped t (n := 8) (by decide) paths _ (.tail _ (.tail _ (.head _)))
    rw [hrun (by decide +kernel)]
    decide +kernel

end Visitor

end TemplateLinker
