import TemplateLinker.Compiler.Host
import TemplateLinker.Emit
import TemplateLinker.Linking
import TemplateLinker.Text.Mark

/-!
# Compiler.Session — compiling modules one after another

Starting a session registers the plugins of a set, then the linking pass, with a host, and merges
overrides into the host's environment.  Compiling strips a byte-order mark, lets the host compile, and
assembles its code with the dependencies that the module then has.
-/

namespace TemplateLinker

structure Session (H : Type) where
  host : H
  dependencies : DependencyMap := {}
  emit : EmitOptions := {}

/-- What compiling a module gives: its text or an error, the references asked and the lines noted. -/
structure Compilation where
  result : Except CompileError String
  queries : List Query
  notes : List String

namespace Session

variable {H : Type} [Host H]

/-- Registers plugins, first to last. -/
def registerAll (host : H) (plugins : List Plugin) : H := plugins.foldl Host.register host

def start (host : H) (resolver : Resolver) (overrides : Json) (plugins : PluginSet) : Session H :=
  let host := registerAll host (plugins.toList ++ [.pass (.linking resolver)])
  { host := Host.withEnvironment host ((Host.environment host).merge overrides) }

def startFromConfig (host : H) (config : Config) (plugins : PluginSet) : Session H :=
  { start host config.resolver.resolver config.env plugins with emit := config.emit }

def withEmit (s : Session H) (o : EmitOptions) : Session H := { s with emit := o }

def compile (s : Session H) (module : ModuleName) (contents : String) : Compilation × Session H :=
  let ended := Host.compile s.host ⟨module, Text.stripMark contents, contents⟩
    { dependencies := s.dependencies }
  let text := ended.1.map fun code =>
    s.emit.assemble code (ended.2.dependencies.lookup module)
  (⟨text, ended.2.queries, ended.2.notes⟩, { s with dependencies := ended.2.dependencies })

def dependenciesOf (s : Session H) (module : ModuleName) : Option (List Resolution) :=
  s.dependencies.lookup module

end Session

end TemplateLinker
