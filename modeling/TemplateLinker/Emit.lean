import TemplateLinker.Config
import TemplateLinker.Text.Pieces

/-!
# Emit — the text of a compiled module

Each module spec gives an import under a binding of its own, the prefix and a number counting from 0, and
behind it a registration that returns the binding; the compiled template is exported last.  Equal imports
are not merged.
-/

namespace TemplateLinker.EmitOptions

variable (o : EmitOptions)

/-- The `k`-th binding. -/
def binding (k : Nat) : List Char := o.bindingPrefix.toList ++ Nat.toDigits 10 k

def importLine (k : Nat) (s : ModuleSpec) : List Char :=
  "import ".toList ++ o.binding k ++ " from ".toList ++ Text.Quoted.json s.path.toList ++ [';']

def registrationLine (k : Nat) (s : ModuleSpec) : List Char :=
  o.registryCallee.toList ++ ['('] ++ Text.Quoted.registered s.runtimeName.toList
    ++ ", function()\x7b return ".toList ++ o.binding k ++ "\x7d);".toList

def exportLine (code : String) : List Char :=
  "export default ".toList ++ o.templateFactory.toList ++ ['('] ++ code.toList ++ ");".toList

theorem exists_importLine_eq (k : Nat) (s : ModuleSpec) : ∃ t, o.importLine k s = 'i' :: t := by
  have himport : "import ".toList = 'i' :: "mport ".toList := by decide +kernel
  unfold importLine
  rw [himport]
  exact ⟨_, rfl⟩

theorem exists_exportLine_eq (code : String) : ∃ t, o.exportLine code = 'e' :: t := by
  have hexport : "export default ".toList = 'e' :: "xport default ".toList := by decide +kernel
  unfold exportLine
  rw [hexport]
  exact ⟨_, rfl⟩

/-- The lines of `specs`, the first one having number `k`. -/
def specLines (k : Nat) : List ModuleSpec → List (List Char)
  | [] => []
  | s :: rest => o.importLine k s :: o.registrationLine k s :: specLines (k + 1) rest

theorem length_specLines (k : Nat) (specs : List ModuleSpec) :
    (o.specLines k specs).length = 2 * specs.length := by
  induction specs generalizing k with
  | nil => rfl
  | cons s specs ih =>
    simp only [specLines, List.length_cons, ih]
    omega

/-- All module specs of some resolutions, in order. -/
def specsOf (dependencies : Option (List Resolution)) : List ModuleSpec :=
  (dependencies.getD []).flatMap Resolution.modules

def lines (code : String) (dependencies : Option (List Resolution)) : List (List Char) :=
  o.specLines 0 (specsOf dependencies) ++ [o.exportLine code]

/-- The text of a module with this compiled template and these dependencies. -/
def assemble (code : String) (dependencies : Option (List Resolution)) : String :=
  String.ofList (Text.join '\n' (o.lines code dependencies))

end TemplateLinker.EmitOptions
