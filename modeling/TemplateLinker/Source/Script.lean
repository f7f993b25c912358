import TemplateLinker.Source.Words

/-!
# Source.Script — a parser that follows a script

It notes what it parses, wants some keywords, notes whether some features are enabled, and gives the
tree of the script, or the words of the source if the script has none.
-/

namespace TemplateLinker

structure Script where
  required : List String := []
  features : List String := []
  tree : Option Template := none

namespace Script

def featureNote (e : Environment) (name : String) : String :=
  "feature " ++ name ++ ": " ++ (if e.isEnabled name then "true" else "false")

def parser (script : Script) : Parser := fun r =>
  let first := "parse " ++ r.module ++ ": " ++ r.source
  match script.required.find? (fun k => !r.hasKeyword k) with
  | some keyword => ([first], .error (.parse r.module ("unknown keyword " ++ keyword)))
  | none =>
    (first :: script.features.map (featureNote r.environment),
      match script.tree with
      | some t => .ok t
      | none => Words.parse r.module r.source)

end Script

end TemplateLinker
