import TemplateLinker.Dependencies.Map

/-!
# Dependencies.Store — collectors that write into dependency maps

Starting a module gives a collector, numbered from 0, that records resolutions of the module in the map
it was started in.  Clones of a map share its entries, so going on with a clone changes nothing; after
going on with a fresh map, the earlier collectors still write to the map they belong to.
-/

namespace TemplateLinker

/-- A collector: the number of its map, and its module. -/
structure Collector where
  map : Nat
  module : ModuleName
  deriving DecidableEq, Repr

/-- All maps so far, the one in use being the last, and all collectors. -/
structure DependencyStore where
  earlier : List DependencyMap := []
  current : DependencyMap := {}
  collectors : List Collector := []

namespace DependencyStore

instance : Inhabited DependencyStore := ⟨{}⟩

inductive Step where
  | start (module : ModuleName)
  | record (collector : Nat) (resolution : Resolution)
  | lookup (module : ModuleName)
  | inspect (module : ModuleName)
  | clone
  | fresh
  deriving DecidableEq, Repr

inductive Reply where
  | collector (number : Nat)
  | recorded (module : ModuleName)
  | list (resolutions : Option (List Resolution))
  /-- The number of resolutions, and of the empty ones among them. -/
  | counts (counts : Option (Nat × Nat))
  | cloned
  | fresh
  | unknownCollector
  deriving DecidableEq, Repr

/-- Records in the map with a number. -/
def recordIn (s : DependencyStore) (c : Collector) (r : Resolution) : DependencyStore :=
  if c.map = s.earlier.length then { s with current := s.current.record c.module r }
  else { s with earlier := s.earlier.modify c.map (·.record c.module r) }

def step (s : DependencyStore) : Step → Reply × DependencyStore
  | .start module =>
    (.collector s.collectors.length,
      { s with
        current := s.current.start module
        collectors := s.collectors ++ [⟨s.earlier.length, module⟩] })
  | .record i r =>
    match s.collectors[i]? with
    | some c => (.recorded c.module, s.recordIn c r)
    | none => (.unknownCollector, s)
  | .lookup module => (.list (s.current.lookup module), s)
  | .inspect module =>
    (.counts (s.current.withList module fun list? =>
      list?.map fun rs => (rs.length, rs.countP Resolution.isEmpty)), s)
  | .clone => (.cloned, s)
  | .fresh => (.fresh, { s with earlier := s.earlier ++ [s.current], current := {} })

/-- The replies to a sequence of steps, each with the map in use after it. -/
def run (s : DependencyStore) : List Step → List (Reply × DependencyMap)
  | [] => []
  | x :: rest =>
    let next := s.step x
    (next.1, next.2.current) :: run next.2 rest

end DependencyStore

end TemplateLinker
