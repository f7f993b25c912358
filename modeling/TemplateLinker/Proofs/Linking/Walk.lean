import TemplateLinker.Proofs.Linking.References

/-!
# Proofs.Linking.Walk — the linking walk consults the resolver on the free references

`consultAll` hands references to the resolver, first to last, up to the first that it fails on.  A walk
`Consults` the references listed for its node when, from any state, it does what `consultAll` does with
the references that the node has inside the open scopes.  There is one rule for each way to build a walk
(`Consults.bind`, `Consults.withScope`, …), and from these one lemma for each kind of node.
-/

namespace TemplateLinker

variable {resolver : Resolver} {module : ModuleName}

namespace Linking

theorem pure_apply (s : LinkState) : (pure () : Linking Unit) s = (.ok (), s) := rfl

theorem bind_apply (a b : Linking Unit) (s : LinkState) :
    (a >>= fun _ => b) s =
      match a s with
      | (.ok (), s') => b s'
      | (.error e, s') => (.error e, s') := by
  simp only [bind, ExceptT.bind, ExceptT.mk, ExceptT.bindCont, StateT.bind]
  rcases h : a s with ⟨_ | _, s'⟩
  · rfl
  · rfl

end Linking

/-! ### Handing references to the resolver -/

namespace Reference

def query (module : ModuleName) (r : Reference) : Query := ⟨r.kind, r.name, module⟩

def asked (module : ModuleName) (r : Reference) : Asked := ⟨r.query module, r.scopes⟩

/-- Hands a reference to the resolver, and records what it is resolved to. -/
def consult (resolver : Resolver) (module : ModuleName) (r : Reference) : Linking Unit := fun s =>
  let asked := { s with asked := s.asked ++ [r.asked module] }
  match resolver r.kind r.name module with
  | .error e => (.error (.resolve r.name r.span e), asked)
  | .ok none => (.ok (), asked)
  | .ok (some x) => (.ok (), asked.record module x)

def consultAll (resolver : Resolver) (module : ModuleName) : List Reference → Linking Unit
  | [] => pure ()
  | r :: rs => do
    r.consult resolver module
    consultAll resolver module rs

theorem consultAll_append (rs ts : List Reference) (s : LinkState) :
    consultAll resolver module (rs ++ ts) s =
      (consultAll resolver module rs >>= fun _ => consultAll resolver module ts) s := by
  induction rs generalizing s with
  | nil => rfl
  | cons r rs ih =>
    simp only [List.cons_append, consultAll, Linking.bind_apply]
    rcases r.consult resolver module s with ⟨_ | _, s'⟩
    · rfl
    · simp only [ih, Linking.bind_apply]

/-- The open scopes play no part. -/
theorem consult_withTracker (r : Reference) (s : LinkState) (t : ScopeTracker) :
    r.consult resolver module { s with tracker := t } =
      ((r.consult resolver module s).1, { (r.consult resolver module s).2 with tracker := t }) := by
  unfold consult
  rcases resolver r.kind r.name module with e | _ | x
  · rfl
  · rfl
  · rfl

theorem tracker_consult (resolver : Resolver) (module : ModuleName) (r : Reference) (s : LinkState) :
    (r.consult resolver module s).2.tracker = s.tracker := by
  unfold consult
  rcases resolver r.kind r.name module with e | _ | x
  · rfl
  · rfl
  · rfl

theorem consultAll_withTracker (rs : List Reference) (s : LinkState) (t : ScopeTracker) :
    consultAll resolver module rs { s with tracker := t } =
      ((consultAll resolver module rs s).1,
        { (consultAll resolver module rs s).2 with tracker := t }) := by
  induction rs generalizing s with
  | nil => rfl
  | cons r rs ih =>
    simp only [consultAll, Linking.bind_apply, consult_withTracker]
    rcases r.consult resolver module s with ⟨_ | _, s'⟩
    · rfl
    · exact ih s'

theorem tracker_consultAll (resolver : Resolver) (module : ModuleName) (rs : List Reference)
    (s : LinkState) :
    (consultAll resolver module rs s).2.tracker = s.tracker := by
  induction rs generalizing s with
  | nil => rfl
  | cons r rs ih =>
    have hr := tracker_consult resolver module r s
    simp only [consultAll, Linking.bind_apply]
    rcases h : r.consult resolver module s with ⟨_ | _, s'⟩
    · rwa [h] at hr
    · rw [h] at hr
      exact (ih s').trans hr

end Reference

/-! ### Walks that consult the references of a node -/

/-- From any state, `walk` does what handing over the references that `refs` gives for the open scopes
does. -/
def Consults (resolver : Resolver) (module : ModuleName) (walk : Linking Unit)
    (refs : List Scope → List Reference) : Prop :=
  ∀ s, walk s = Reference.consultAll resolver module (refs s.tracker.scopes) s

namespace Consults

theorem leave_enter_of_tracker {names : List String} {s : LinkState} {t : ScopeTracker}
    (h : names ≠ []) (ht : s.tracker = t) :
    LinkState.leave { s with tracker := t.enter names } = s := by
  subst ht
  exact LinkState.leave_enter s h

variable {a b : Linking Unit} {f g : List Scope → List Reference}

theorem pure : Consults resolver module (Pure.pure ()) fun _ => [] := fun _ => rfl

theorem bind (ha : Consults resolver module a f) (hb : Consults resolver module b g) :
    Consults resolver module (a >>= fun _ => b) fun B => f B ++ g B := by
  intro s
  have ht := Reference.tracker_consultAll resolver module (f s.tracker.scopes) s
  rw [Reference.consultAll_append, Linking.bind_apply, Linking.bind_apply, ha s]
  rcases h : Reference.consultAll resolver module (f s.tracker.scopes) s with ⟨_ | _, s'⟩
  · rfl
  · rw [h] at ht
    show b s' = _
    rw [hb s', ht]

theorem resolve (kind : ReferenceKind) (name : String) (span : Span) :
    Consults resolver module (Linking.resolve resolver module kind name span)
      fun B => refer B kind name span := by
  intro s
  show Linking.resolve resolver module kind name span s =
    Reference.consultAll resolver module (refer s.tracker.scopes kind name span) s
  unfold Linking.resolve
  by_cases h : s.tracker.isBound name = true
  · rw [if_pos h, refer_of_bound (ScopeTracker.isBound_iff.1 h)]
    rfl
  · rw [if_neg h, refer_of_free (fun hs => h (ScopeTracker.isBound_iff.2 hs)), Reference.consultAll,
      Linking.bind_apply]
    unfold Reference.consult
    rcases resolver kind name module with e | _ | x
    · rfl
    · rfl
    · rfl

theorem resolveCallee (kind : ReferenceKind) (c : Call) :
    Consults resolver module (Linking.resolveCallee resolver module kind c)
      fun B => c.calleeRefs B kind := by
  unfold Linking.resolveCallee Call.calleeRefs Call.name?
  cases c.callee with
  | path p => exact resolve kind p.text p.span
  | sub call span => exact pure
  | literal value span => exact pure

theorem withScope (ha : Consults resolver module a f) (names : List String) :
    Consults resolver module (Linking.withScope names a) fun B => f (addScope names B) := by
  intro s
  by_cases h : names = []
  · subst h
    exact ha s
  · have ht := Reference.tracker_consultAll resolver module (f (addScope names s.tracker.scopes)) s
    unfold Linking.withScope
    rw [if_neg h, ha]
    simp only [ScopeTracker.scopes_enter s.tracker h, Reference.consultAll_withTracker]
    rw [← addScope_of_ne_nil h]
    exact Prod.ext rfl (leave_enter_of_tracker h ht)

end Consults

/-! ### One lemma for each kind of node -/

namespace Linking

mutual

theorem consults_visitExpr : ∀ e : Expr,
    Consults resolver module ((visitor resolver module).visitExpr e) (Expr.refs · e)
  | .path _ => .pure
  | .sub call _ => (Consults.resolveCallee .subExpression call).bind (consults_walkCall call)
  | .literal _ _ => .pure

theorem consults_walkCall : ∀ c : Call,
    Consults resolver module ((visitor resolver module).walkCall c) (Call.refs · c)
  | ⟨callee, params, hash⟩ =>
    (consults_visitExpr callee).bind ((consults_visitExprs params).bind (consults_visitValues hash))

theorem consults_visitExprs : ∀ es : List Expr,
    Consults resolver module ((visitor resolver module).visitExprs es) (Expr.listRefs · es)
  | [] => .pure
  | e :: es => (consults_visitExpr e).bind (consults_visitExprs es)

theorem consults_visitValues : ∀ ns : List Named,
    Consults resolver module ((visitor resolver module).visitValues ns) (Named.listRefs · ns)
  | [] => .pure
  | ⟨_, value⟩ :: ns => (consults_visitExpr value).bind (consults_visitValues ns)

end

theorem consults_visitMustache (m : Mustache) :
    Consults resolver module ((visitor resolver module).visitMustache m) (Mustache.refs · m) :=
  (Consults.resolveCallee .mustache m.call).bind (consults_walkCall m.call)

theorem consults_visitParts (ps : List ConcatPart) :
    Consults resolver module ((visitor resolver module).visitParts ps)
      fun B => ps.flatMap (ConcatPart.refs B) := by
  induction ps with
  | nil => exact .pure
  | cons p ps ih =>
    cases p with
    | text n => exact Consults.pure.bind ih
    | mustache m => exact (consults_visitMustache m).bind ih

theorem consults_visitAttribute (a : Attribute) :
    Consults resolver module ((visitor resolver module).visitAttribute a) (Attribute.refs · a) := by
  obtain ⟨name, value, span⟩ := a
  cases value with
  | text n => exact .pure
  | mustache m => exact consults_visitMustache m
  | concat parts _ => exact consults_visitParts parts

theorem consults_visitAttributes (as : List Attribute) :
    Consults resolver module ((visitor resolver module).visitAttributes as)
      fun B => as.flatMap (Attribute.refs B) := by
  induction as with
  | nil => exact .pure
  | cons a as ih => exact (consults_visitAttribute a).bind ih

theorem consults_visitModifiers (ms : List Modifier) :
    Consults resolver module ((visitor resolver module).visitModifiers ms)
      fun B => ms.flatMap (Modifier.refs B) := by
  induction ms with
  | nil => exact .pure
  | cons m ms ih => exact (consults_walkCall m.call).bind ih

mutual

theorem consults_visitStatement : ∀ s : Statement,
    Consults resolver module ((visitor resolver module).visitStatement s) (Statement.refs · s)
  | .mustache m => consults_visitMustache m
  | .block b => consults_visitBlockStatement b
  | .element e => consults_visitElement e
  | .text _ => .pure
  | .mustacheComment _ => .pure
  | .comment _ => .pure

theorem consults_visitBlockStatement : ∀ b : BlockStatement,
    Consults resolver module ((visitor resolver module).visitBlockStatement b)
      (BlockStatement.refs · b)
  | ⟨call, program, inverse, _⟩ =>
    (consults_walkCall call).bind ((consults_visitBlock program).bind (consults_visitInverse inverse))

theorem consults_visitElement : ∀ e : Element,
    Consults resolver module ((visitor resolver module).visitElement e) (Element.refs · e)
  | ⟨tag, attributes, modifiers, ⟨statements, _, _⟩, _, span⟩ =>
    (Consults.resolve .element tag span).bind ((consults_visitAttributes attributes).bind
      ((consults_visitModifiers modifiers).bind (consults_visitStatements statements)))

theorem consults_visitBlock : ∀ b : Block,
    Consults resolver module ((visitor resolver module).visitBlock b) (Block.refs · b)
  | ⟨statements, params, _⟩ => (consults_visitStatements statements).withScope params

theorem consults_visitInverse : ∀ b : Option Block,
    Consults resolver module ((visitor resolver module).visitInverse b) (Block.optionRefs · b)
  | none => .pure
  | some b => consults_visitBlock b

theorem consults_visitStatements : ∀ ss : List Statement,
    Consults resolver module ((visitor resolver module).visitStatements ss) (Statement.listRefs · ss)
  | [] => .pure
  | s :: ss => (consults_visitStatement s).bind (consults_visitStatements ss)

end

/-- A walk hands over the references of its template inside the scopes that are open. -/
theorem walk_eq_consultAll (resolver : Resolver) (module : ModuleName) (t : Template) (s : LinkState) :
    walk resolver module t s =
      Reference.consultAll resolver module (t.body.refs s.tracker.scopes) s :=
  consults_visitBlock t.body s

end Linking

end TemplateLinker
