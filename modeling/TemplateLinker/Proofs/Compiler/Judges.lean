import TemplateLinker.Compiler.LoggedPass

/-!
# Proofs.Compiler.Judges — passes that judge a template

A pass `Judges` when its verdict depends on the module and the template alone: it reads nothing of the
build and adds nothing to it but the lines it notes.  A run of judges ends with the first rejection, and
the passes behind it do not run (`runPasses_judges`).
-/

namespace TemplateLinker

namespace Pass

/-- What a pass says of a template when nothing has been built before. -/
def verdict (module : ModuleName) (t : Template) (p : Pass) : Except TransformError Unit :=
  (p.run module t {}).1

/-- The lines a pass notes about a template when nothing has been built before. -/
def lines (module : ModuleName) (t : Template) (p : Pass) : List String := (p.run module t {}).2.notes

def Judges (p : Pass) : Prop :=
  ∀ module t (b : Build),
    p.run module t b = (p.verdict module t, { b with notes := b.notes ++ p.lines module t })

theorem judges_ofVerdict (name : String) (v : ModuleName → Template → Except TransformError Unit) :
    (ofVerdict name v).Judges := by
  intro module t b
  simp [ofVerdict, verdict, lines]

/-- Noting does not keep a pass from judging. -/
theorem judges_logged (name : String) (j : Judgement) : (logged name j).Judges := by
  intro module t b
  simp [logged, verdict, lines, Build.note]

variable (module : ModuleName) (t : Template)

def accepts (p : Pass) : Bool := (p.verdict module t).isOk

def rejection? (p : Pass) : Option TransformError :=
  match p.verdict module t with
  | .ok () => none
  | .error e => some e

/-- The passes up to and including the first that rejects the template. -/
def upToRejection (ps : List Pass) : List Pass := ps.take ((ps.takeWhile (accepts module t)).length + 1)

end Pass

open Pass

theorem runPasses_judges (module : ModuleName) (t : Template) {ps : List Pass}
    (h : ∀ p ∈ ps, p.Judges) (b : Build) :
    runPasses module t ps b =
      ((match ps.findSome? (rejection? module t) with
        | some e => .error e
        | none => .ok ()),
        { b with notes := b.notes ++ (upToRejection module t ps).flatMap (lines module t) }) := by
  induction ps generalizing b with
  | nil => simp [runPasses, upToRejection]
  | cons p ps ih =>
    have hp := h p List.mem_cons_self module t b
    have hps := ih fun q hq => h q (List.mem_cons_of_mem p hq)
    rw [runPasses, hp]
    rcases hv : p.verdict module t with e | ⟨⟩
    · simp [hv, rejection?, upToRejection, accepts, Except.isOk, Except.toBool]
    · simp [hv, hps, rejection?, upToRejection, accepts, Except.isOk, Except.toBool]

end TemplateLinker
