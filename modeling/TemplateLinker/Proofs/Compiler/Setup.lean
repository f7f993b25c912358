import TemplateLinker.Compiler.Session
import TemplateLinker.Proofs.Compiler.Judges
import TemplateLinker.Proofs.Linking.Lexical
import TemplateLinker.Proofs.Text.Offsets

/-!
# Proofs.Compiler.Setup — one compilation in a session over the wire host

A `Setup` is what a session is started from when all passes of the user are judges.  `compile_apply` says
all that compiling a module does, whatever the dependencies are before: what it gives
(`Setup.compilation`) does not depend on them, and the list of the module is refilled if the linking pass
is reached (`Setup.reached?`).
-/

namespace TemplateLinker

/-! ### Registering plugins with the wire host -/

/-- The passes among some plugins. -/
def Plugin.passesOf (ps : List Plugin) : List Pass :=
  ps.filterMap fun
    | .pass p => some p
    | .syntaxExtension _ => none

/-- The syntax extensions among some plugins. -/
def Plugin.extensionsOf (ps : List Plugin) : List SyntaxExtension :=
  ps.filterMap fun
    | .pass _ => none
    | .syntaxExtension e => some e

theorem Session.registerAll_wireHost (h : WireHost) (ps : List Plugin) :
    registerAll h ps =
      { h with
        passes := h.passes ++ Plugin.passesOf ps
        extensions := h.extensions ++ Plugin.extensionsOf ps } := by
  induction ps generalizing h with
  | nil => simp [registerAll, Plugin.passesOf, Plugin.extensionsOf]
  | cons p ps ih =>
    have hp : registerAll h (p :: ps) = registerAll (h.register p) ps := rfl
    rw [hp, ih]
    cases p with
    | pass p => simp [WireHost.register, Plugin.passesOf, Plugin.extensionsOf]
    | syntaxExtension e => simp [WireHost.register, Plugin.passesOf, Plugin.extensionsOf]

/-! ### Setups -/

/-- What a session is started from: a host that may have plugins already, a resolver, overrides of the
environment, more plugins, and emit options.  All passes among the plugins judge. -/
structure Setup where
  host : WireHost
  resolver : Resolver
  overrides : Json
  plugins : PluginSet
  emit : EmitOptions
  judges : ∀ p ∈ host.passes ++ Plugin.passesOf plugins.toList, p.Judges

namespace Setup

variable (S : Setup)

def session : Session WireHost :=
  (Session.start S.host S.resolver S.overrides S.plugins).withEmit S.emit

/-- The passes in front of the linking pass, in the order of their registration. -/
def passes : List Pass := S.host.passes ++ Plugin.passesOf S.plugins.toList

/-- What the parser makes of a source. -/
def parse (module : ModuleName) (source : String) : List String × Except CompileError Template :=
  S.host.parser ⟨module, source, S.host.extensions ++ Plugin.extensionsOf S.plugins.toList,
    S.host.environment.merge S.overrides⟩

theorem host_session :
    S.session.host =
      { parser := S.host.parser
        passes := S.passes ++ [.linking S.resolver]
        extensions := S.host.extensions ++ Plugin.extensionsOf S.plugins.toList
        environment := S.host.environment.merge S.overrides } := by
  have hr := Session.registerAll_wireHost S.host (S.plugins.toList ++ [.pass (.linking S.resolver)])
  unfold session Session.start Session.withEmit
  simp only [hr]
  simp [Host.withEnvironment, Host.environment, passes, Plugin.passesOf, Plugin.extensionsOf]

/-! ### What compiling a module gives -/

/-- The template that the linking pass gets: there is one if the source can be parsed and all passes in
front accept what it parses to. -/
def reached? (module : ModuleName) (source : String) : Option Template :=
  match (S.parse module source).2 with
  | .ok t => if S.passes.all (Pass.accepts module t) then some t else none
  | .error _ => none

/-- The first rejection of a template, the linking pass being the last to be run. -/
def rejection? (module : ModuleName) (t : Template) : Option TransformError :=
  (S.passes.findSome? (Pass.rejection? module t)).or
    (t.refs.findSome? (Reference.failure? S.resolver module))

/-- The list of a module after linking a template. -/
def recorded (module : ModuleName) (t : Template) : List Resolution :=
  Reference.answers S.resolver module t.refs

/-- Where an error is reported: at the line and column at which its span begins, or at the beginning of the
source if it has none. -/
def positionOf (source : String) (e : TransformError) : Position :=
  match e.span? with
  | some span => Text.positionAt (Text.bytes source) span.start
  | none => ⟨0, 0⟩

theorem ofTransform_eq (module : ModuleName) (source : String) (e : TransformError) :
    CompileError.ofTransform module source e = .transform module (positionOf source e) e := by
  unfold CompileError.ofTransform positionOf
  rcases e.span? with _ | span
  · rfl
  · exact congrArg (CompileError.transform module · e) (LineMap.locate_eq_positionAt _ _)

/-- The text of the compiled module, or why there is none, a rejection being reported at `position`. -/
def resultAt (position : TransformError → Position) (module : ModuleName) (source : String) :
    Except CompileError String :=
  match (S.parse module source).2 with
  | .error e => .error e
  | .ok t =>
    match S.rejection? module t with
    | some e => .error (.transform module (position e) e)
    | none =>
      let code := (Json.object [("moduleName", .string module), ("block", t.body.toJson)]).text
      .ok (S.emit.assemble code (some (S.recorded module t)))

/-- The text of the compiled module, or why there is none and where. -/
def result (module : ModuleName) (source : String) : Except CompileError String :=
  S.resultAt (positionOf source) module source

/-- The references asked. -/
def queries (module : ModuleName) (source : String) : List Query :=
  match S.reached? module source with
  | some t => (Reference.consulted S.resolver module t.refs).map (Reference.query module)
  | none => []

/-- The lines noted, those of the passes up to the first rejection. -/
def notes (module : ModuleName) (source : String) : List String :=
  match S.parse module source with
  | (lines, .ok t) => lines ++ (Pass.upToRejection module t S.passes).flatMap (Pass.lines module t)
  | (lines, .error _) => lines

/-- What compiling a module with this source gives. -/
def compilation (module : ModuleName) (source : String) : Compilation :=
  ⟨S.result module source, S.queries module source, S.notes module source⟩

theorem all_accepts_iff {module : ModuleName} {t : Template} {ps : List Pass} :
    ps.all (Pass.accepts module t) = true ↔ ps.findSome? (Pass.rejection? module t) = none := by
  rw [List.findSome?_eq_none_iff, List.all_eq_true]
  refine forall₂_congr fun p _ => ?_
  unfold Pass.accepts Pass.rejection?
  rcases p.verdict module t with e | ⟨⟩
  · simp [Except.isOk, Except.toBool]
  · simp [Except.isOk, Except.toBool]

theorem runPasses_singleton (module : ModuleName) (t : Template) (p : Pass) (b : Build) :
    runPasses module t [p] b = p.run module t b := by
  rw [runPasses]
  rcases p.run module t b with ⟨_ | _, b'⟩
  · rfl
  · rfl

/-- The dependencies after compiling a module. -/
def dependencies (d : DependencyMap) (module : ModuleName) (source : String) : DependencyMap :=
  match S.reached? module source with
  | some t => d.refill module (S.recorded module t)
  | none => d

/-- The linking pass runs when no other pass of the session rejects the template. -/
theorem runPasses_session (module : ModuleName) (t : Template) (b : Build) :
    runPasses module t (S.passes ++ [.linking S.resolver]) b =
      let noted := { b with
        notes := b.notes ++ (Pass.upToRejection module t S.passes).flatMap (Pass.lines module t) }
      match S.passes.findSome? (Pass.rejection? module t) with
      | some e => (.error e, noted)
      | none => Build.link S.resolver module t noted := by
  have hj : ∀ p ∈ S.passes, p.Judges := S.judges
  rw [runPasses_append, runPasses_judges module t hj]
  rcases S.passes.findSome? (Pass.rejection? module t) with _ | e
  · exact runPasses_singleton module t _ _
  · rfl

/-- What the wire host of the session does with a source. -/
theorem compile_host (d : DependencyMap) (module : ModuleName) (source contents : String) :
    Host.compile S.session.host ⟨module, source, contents⟩ { dependencies := d } =
      match S.parse module source with
      | (lines, .error e) => (.error e, { dependencies := d, notes := lines })
      | (lines, .ok t) =>
        match runPasses module t (S.passes ++ [.linking S.resolver])
          { dependencies := d, notes := lines } with
        | (.error e, b) => (.error (.transform module (positionOf source e) e), b)
        | (.ok (), b) => (.ok (WireHost.code module t), b) := by
  have hparse : S.session.host.parse ⟨module, source, contents⟩ = S.parse module source := by
    rw [host_session]
    rfl
  have hpasses : S.session.host.passes = S.passes ++ [.linking S.resolver] := by rw [host_session]
  show WireHost.compile S.session.host _ _ = _
  unfold WireHost.compile
  rw [hparse, hpasses]
  rcases S.parse module source with ⟨lines, e | t⟩
  · rfl
  · have hwrapped : ∀ r : Except TransformError Unit × Build,
        (match r with
          | (.error e, b) => (Except.error (CompileError.ofTransform module source e), b)
          | (.ok (), b) => (.ok (WireHost.code module t), b)) =
        match r with
          | (.error e, b) => (.error (.transform module (positionOf source e) e), b)
          | (.ok (), b) => (.ok (WireHost.code module t), b) := by
      rintro ⟨e | ⟨⟩, b⟩
      · exact congrArg (fun e => (Except.error e, b)) (ofTransform_eq module source e)
      · rfl
    exact hwrapped _

/-- **One compilation.**  What it gives does not depend on the dependencies before it. -/
theorem compile_apply (d : DependencyMap) (module : ModuleName) (contents : String) :
    Session.compile { S.session with dependencies := d } module contents =
      (S.compilation module (Text.stripMark contents),
        { S.session with dependencies := S.dependencies d module (Text.stripMark contents) }) := by
  obtain ⟨source, hsource⟩ : ∃ source, source = Text.stripMark contents := ⟨_, rfl⟩
  have hemit : S.session.emit = S.emit := rfl
  unfold Session.compile
  simp only [← hsource, compile_host, hemit]
  unfold compilation result resultAt queries notes dependencies reached? rejection?
  rcases hp : S.parse module source with ⟨lines, e | t⟩
  · rfl
  · simp only [runPasses_session]
    rcases hr : S.passes.findSome? (Pass.rejection? module t) with _ | e
    · have ha : S.passes.all (Pass.accepts module t) = true := all_accepts_iff.2 hr
      simp only [ha, Build.link_apply, Reference.outcome, Option.none_or]
      rcases t.refs.findSome? (Reference.failure? S.resolver module) with _ | e
      · simp [DependencyMap.lookup_refill, recorded, WireHost.code, Except.map]
      · simp [recorded, Except.map]
    · have ha : S.passes.all (Pass.accepts module t) = false := by
        rw [← Bool.not_eq_true, all_accepts_iff, hr]
        simp
      simp [ha, Except.map]

end Setup

end TemplateLinker
