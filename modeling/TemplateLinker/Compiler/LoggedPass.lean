import TemplateLinker.Transform

/-!
# Compiler.LoggedPass — passes that note when they are made and run
-/

namespace TemplateLinker

/-- How a logged pass judges a template. -/
inductive Judgement where
  | accept
  | reject (message : String) (span : Option Span)
  /-- Rejects a template that has this text as a statement, at the first such statement. -/
  | rejectText (chars message : String)

namespace Judgement

/-- The span of the first statement that is the text `chars`. -/
def spanOfText? (chars : String) : List Statement → Option Span
  | [] => none
  | .text n :: rest => if n.chars = chars then some n.span else spanOfText? chars rest
  | _ :: rest => spanOfText? chars rest

def verdict (name : String) (t : Template) : Judgement → Except TransformError Unit
  | .accept => .ok ()
  | .reject message span => .error (.rejected name message span)
  | .rejectText chars message =>
    match spanOfText? chars t.body.statements with
    | some span => .error (.rejected name message (some span))
    | none => .ok ()

end Judgement

/-- Notes that it is made for a module and that it runs, and judges the template. -/
def Pass.logged (name : String) (j : Judgement) : Pass where
  name := name
  run module t b :=
    (j.verdict name t, (b.note ("create " ++ name ++ " for " ++ module)).note ("run " ++ name))

end TemplateLinker
