import Mathlib.Data.List.Induction
import TemplateLinker.Resolver.Table

/-!
# Proofs.Resolver.Registrations — a table answers by its last registrations

A registration writes to one slot: a helper, a component or the policy.  What stands in a slot after some
registrations is what the last one for it wrote, or what the table held at first (`view_registerAll`); an
answer is a function of the two entries of its name and of the policy (`resolver_congr`).  So registrations
that write to other slots never show in it, nor does the order of two of different slots
(`answers_by_last_registration`).
-/

namespace TemplateLinker

/-- The error of the same reference in another module. -/
def ResolveError.inModule (module : ModuleName) : ResolveError → ResolveError
  | .unresolved kind name _ => .unresolved kind name module
  | .other message => .other message

namespace ResolverTable

/-! ### Registrations -/

inductive Registration where
  | helper (name runtimeName path : String)
  | component (name : String) (modules : List ModuleSpec)
  | policy (p : MissingPolicy)
  deriving DecidableEq, Repr

/-- What a registration writes to. -/
inductive Slot where
  | helper (name : String)
  | component (name : String)
  | policy
  deriving DecidableEq, Repr

namespace Registration

def slot : Registration → Slot
  | .helper name _ _ => .helper name
  | .component name _ => .component name
  | .policy _ => .policy

/-- The modules of a helper called `name`. -/
def helper? (name : String) : Registration → Option (List ModuleSpec)
  | .helper n runtimeName path => if n = name then some [⟨runtimeName, path⟩] else none
  | _ => none

/-- The modules of a component called `name`. -/
def component? (name : String) : Registration → Option (List ModuleSpec)
  | .component n modules => if n = name then some modules else none
  | _ => none

def policy? : Registration → Option MissingPolicy
  | .policy p => some p
  | _ => none

variable {r r₁ r₂ : Registration}

theorem slot_of_helper? {name : String} (h : r.helper? name ≠ none) : r.slot = .helper name := by
  cases r with
  | helper n _ _ => simp_all [helper?, slot]
  | component _ _ => exact absurd rfl h
  | policy _ => exact absurd rfl h

theorem slot_of_component? {name : String} (h : r.component? name ≠ none) : r.slot = .component name := by
  cases r with
  | helper _ _ _ => exact absurd rfl h
  | component n _ => simp_all [component?, slot]
  | policy _ => exact absurd rfl h

theorem slot_of_policy? (h : r.policy? ≠ none) : r.slot = .policy := by
  cases r with
  | helper _ _ _ => exact absurd rfl h
  | component _ _ => exact absurd rfl h
  | policy _ => rfl

/-- What is written to one slot only is not written by two registrations of different slots. -/
theorem eq_none_or_eq_none {α : Type} {f : Registration → Option α} {s : Slot}
    (hf : ∀ {r}, f r ≠ none → r.slot = s) (h : r₁.slot ≠ r₂.slot) : f r₁ = none ∨ f r₂ = none := by
  by_contra hboth
  rw [not_or] at hboth
  exact h ((hf hboth.1).trans (hf hboth.2).symm)

end Registration

variable (t : ResolverTable)

def register : Registration → ResolverTable
  | .helper name runtimeName path => t.withHelper name runtimeName path
  | .component name modules => t.withComponent name modules
  | .policy p => t.withPolicy p

/-- The table after some registrations. -/
def registerAll (rs : List Registration) : ResolverTable := rs.foldl register t

theorem registerAll_concat (rs : List Registration) (r : Registration) :
    t.registerAll (rs ++ [r]) = (t.registerAll rs).register r := by
  simp [registerAll]

/-! ### The last registration of a slot -/

/-- What the last registration that writes `f` wrote. -/
def last? {α : Type} (f : Registration → Option α) (rs : List Registration) : Option α :=
  (rs.filterMap f).getLast?

section Last

variable {α : Type} {f : Registration → Option α}

theorem last?_concat (rs : List Registration) (r : Registration) :
    last? f (rs ++ [r]) = (f r).or (last? f rs) := by
  unfold last?
  rw [List.filterMap_append]
  cases h : f r with
  | none => simp [h]
  | some a => simp [h]

theorem last?_insert {r : Registration} (h : f r = none) (pre post : List Registration) :
    last? f (pre ++ r :: post) = last? f (pre ++ post) := by
  unfold last?
  rw [List.filterMap_append, List.filterMap_append, List.filterMap_cons_none h]

/-- Two registrations of which only one writes `f` may come in either order. -/
theorem last?_swap {r₁ r₂ : Registration} (h : f r₁ = none ∨ f r₂ = none) (pre post : List Registration) :
    last? f (pre ++ r₁ :: r₂ :: post) = last? f (pre ++ r₂ :: r₁ :: post) := by
  unfold last?
  rw [List.filterMap_append, List.filterMap_append]
  rcases h with h | h
  · rw [List.filterMap_cons_none h, List.filterMap_cons, List.filterMap_cons, List.filterMap_cons_none h]
  · rw [List.filterMap_cons, List.filterMap_cons_none h, List.filterMap_cons_none h, List.filterMap_cons]

/-- **A part of the table to which every registration writes `f` holds what the last one wrote.** -/
theorem view_registerAll (view : ResolverTable → Option α)
    (hstep : ∀ (t : ResolverTable) (r : Registration), view (t.register r) = (f r).or (view t))
    (rs : List Registration) : view (t.registerAll rs) = (last? f rs).or (view t) := by
  induction rs using List.reverseRecOn with
  | nil => rfl
  | append_singleton rs r ih => rw [registerAll_concat, hstep, ih, last?_concat, Option.or_assoc]

end Last

/-- The modules of the helper `name` after some registrations. -/
def helperAfter (rs : List Registration) (name : String) : Option (List ModuleSpec) :=
  (last? (Registration.helper? name) rs).or (OrderedMap.get? t.helpers name)

/-- The modules of the component `name` after some registrations. -/
def componentAfter (rs : List Registration) (name : String) : Option (List ModuleSpec) :=
  (last? (Registration.component? name) rs).or (OrderedMap.get? t.components name)

def policyAfter (rs : List Registration) : MissingPolicy := (last? Registration.policy? rs).getD t.onMissing

section Views

variable (rs : List Registration) (name : String)

theorem get?_helpers_registerAll : OrderedMap.get? (t.registerAll rs).helpers name = t.helperAfter rs name := by
  refine t.view_registerAll (fun t => OrderedMap.get? t.helpers name) (fun t r => ?_) rs
  cases r with
  | helper n runtimeName path =>
    refine (OrderedMap.get?_insert t.helpers n name _).trans ?_
    simp only [Registration.helper?]
    split
    · rfl
    · rfl
  | component n modules => rfl
  | policy p => rfl

theorem get?_components_registerAll :
    OrderedMap.get? (t.registerAll rs).components name = t.componentAfter rs name := by
  refine t.view_registerAll (fun t => OrderedMap.get? t.components name) (fun t r => ?_) rs
  cases r with
  | helper n runtimeName path => rfl
  | component n modules =>
    refine (OrderedMap.get?_insert t.components n name _).trans ?_
    simp only [Registration.component?]
    split
    · rfl
    · rfl
  | policy p => rfl

theorem onMissing_registerAll : (t.registerAll rs).onMissing = t.policyAfter rs := by
  have hstep : ∀ (t : ResolverTable) (r : Registration),
      some (t.register r).onMissing = r.policy?.or (some t.onMissing) := by
    intro t r
    cases r with
    | helper _ _ _ => rfl
    | component _ _ => rfl
    | policy p => rfl
  have hview := t.view_registerAll (fun t => some t.onMissing) hstep rs
  unfold policyAfter
  cases h : last? Registration.policy? rs with
  | none =>
    rw [h] at hview
    exact Option.some.inj hview
  | some p =>
    rw [h] at hview
    exact Option.some.inj hview

end Views

/-! ### Answers -/

section Answers

variable {t} {u : ResolverTable} {name : String}

theorem resolver_subExpression (module : ModuleName) :
    t.resolver .subExpression name module = .ok ((OrderedMap.get? t.helpers name).map Resolution.mk) := by
  unfold resolver lookup ModuleTable.resolve refuses
  cases OrderedMap.get? t.helpers name with
  | none => rfl
  | some modules => rfl

theorem resolver_mustache (module : ModuleName) :
    t.resolver .mustache name module =
      .ok (((OrderedMap.get? t.helpers name).or (OrderedMap.get? t.components name)).map Resolution.mk) := by
  unfold resolver lookup ModuleTable.resolve refuses
  cases OrderedMap.get? t.helpers name with
  | none =>
    cases OrderedMap.get? t.components name with
    | none => rfl
    | some modules => rfl
  | some modules => rfl

theorem resolver_element (module : ModuleName) :
    t.resolver .element name module =
      match OrderedMap.get? t.components name with
      | some modules => .ok (some ⟨modules⟩)
      | none =>
        if t.onMissing = .error ∧ looksLikeComponent name = true then
          .error (.unresolved .element name module)
        else .ok none := by
  unfold resolver lookup ModuleTable.resolve refuses
  cases OrderedMap.get? t.components name with
  | none => simp
  | some modules => rfl

/-- An answer is a function of the entries of the name that its kind reads, and of the policy. -/
theorem resolver_congr {kind : ReferenceKind}
    (hhelper : kind ≠ .element → OrderedMap.get? t.helpers name = OrderedMap.get? u.helpers name)
    (hcomponent : kind ≠ .subExpression → (kind = .mustache → OrderedMap.get? u.helpers name = none) →
      OrderedMap.get? t.components name = OrderedMap.get? u.components name)
    (hpolicy : kind = .element → OrderedMap.get? u.components name = none → t.onMissing = u.onMissing)
    (module : ModuleName) : t.resolver kind name module = u.resolver kind name module := by
  cases kind with
  | subExpression => rw [resolver_subExpression, resolver_subExpression, hhelper nofun]
  | mustache =>
    rw [resolver_mustache, resolver_mustache, hhelper nofun]
    cases h : OrderedMap.get? u.helpers name with
    | none => rw [hcomponent nofun fun _ => h]
    | some modules => rfl
  | element =>
    rw [resolver_element, resolver_element, hcomponent nofun nofun]
    cases h : OrderedMap.get? u.components name with
    | none => rw [hpolicy rfl h]
    | some modules => rfl

/-- Of the module only the error tells. -/
theorem resolver_inModule (kind : ReferenceKind) (m m' : ModuleName) :
    t.resolver kind name m' = (t.resolver kind name m).mapError (ResolveError.inModule m') := by
  unfold resolver
  split
  · rfl
  · split <;> rfl

end Answers

/-- The answer about a name reads nothing of what a registration writes, if the others are `rs`. -/
def Unread (rs : List Registration) (kind : ReferenceKind) (name : String) : Registration → Prop
  | .helper n _ _ => kind = .element ∨ name ≠ n
  | .component n _ =>
    kind = .subExpression ∨ name ≠ n ∨ kind = .mustache ∧ t.helperAfter rs name ≠ none
  | .policy _ => kind ≠ .element ∨ t.componentAfter rs name ≠ none

theorem resolver_of_unread {pre post : List Registration} {r : Registration} {kind : ReferenceKind}
    {name : String} (h : t.Unread (pre ++ post) kind name r) (module : ModuleName) :
    (t.registerAll (pre ++ r :: post)).resolver kind name module =
      (t.registerAll (pre ++ post)).resolver kind name module := by
  refine resolver_congr (fun hkind => ?_) (fun hkind hhelper => ?_) (fun hkind hcomponent => ?_) module
  · rw [get?_helpers_registerAll, get?_helpers_registerAll, helperAfter, helperAfter, last?_insert]
    cases r with
    | helper n _ _ => exact if_neg (Ne.symm (h.resolve_left hkind))
    | component _ _ => rfl
    | policy _ => rfl
  · rw [get?_components_registerAll, get?_components_registerAll, componentAfter, componentAfter, last?_insert]
    cases r with
    | helper _ _ _ => rfl
    | component n _ =>
      rcases h.resolve_left hkind with hne | ⟨hmustache, hsome⟩
      · exact if_neg (Ne.symm hne)
      · rw [← get?_helpers_registerAll] at hsome
        exact absurd (hhelper hmustache) hsome
    | policy _ => rfl
  · rw [onMissing_registerAll, onMissing_registerAll, policyAfter, policyAfter, last?_insert]
    cases r with
    | helper _ _ _ => rfl
    | component _ _ => rfl
    | policy _ =>
      rw [get?_components_registerAll] at hcomponent
      rcases h with h | h
      · exact absurd hkind h
      · exact absurd hcomponent h

theorem resolver_swap {r₁ r₂ : Registration} (h : r₁.slot ≠ r₂.slot) (pre post : List Registration) :
    (t.registerAll (pre ++ r₁ :: r₂ :: post)).resolver = (t.registerAll (pre ++ r₂ :: r₁ :: post)).resolver := by
  funext kind name module
  refine resolver_congr (fun _ => ?_) (fun _ _ => ?_) (fun _ _ => ?_) module
  · rw [get?_helpers_registerAll, get?_helpers_registerAll, helperAfter, helperAfter,
      last?_swap (Registration.eq_none_or_eq_none Registration.slot_of_helper? h)]
  · rw [get?_components_registerAll, get?_components_registerAll, componentAfter, componentAfter,
      last?_swap (Registration.eq_none_or_eq_none Registration.slot_of_component? h)]
  · rw [onMissing_registerAll, onMissing_registerAll, policyAfter, policyAfter,
      last?_swap (Registration.eq_none_or_eq_none Registration.slot_of_policy? h)]

/-- **A table answers by its last registrations.**  A sub-expression is answered by the last helper of its
name, a mustache by that or else by the last component, an element by the last component; an element without
one is an error exactly if the last policy is strict and its tag looks like a component.  The module shows in
that error alone.  A helper shows in no element and in no other name; a component in no sub-expression, in no
other name, and in no mustache that a helper answers.  Two registrations of different slots, one behind the
other, may change places. -/
theorem answers_by_last_registration :
    (∀ (rs : List Registration) (name : String) (module : ModuleName),
      let answer := fun kind => (t.registerAll rs).resolver kind name module
      answer .subExpression = .ok ((t.helperAfter rs name).map Resolution.mk) ∧
      answer .mustache = .ok (((t.helperAfter rs name).or (t.componentAfter rs name)).map Resolution.mk) ∧
      answer .element =
        match t.componentAfter rs name with
        | some modules => .ok (some ⟨modules⟩)
        | none =>
          if t.policyAfter rs = .error ∧ looksLikeComponent name = true then
            .error (.unresolved .element name module)
          else .ok none) ∧
    (∀ (rs : List Registration) (kind : ReferenceKind) (name : String) (m m' : ModuleName),
      (t.registerAll rs).resolver kind name m' =
        ((t.registerAll rs).resolver kind name m).mapError (ResolveError.inModule m')) ∧
    (∀ (pre post : List Registration) (r : Registration) (kind : ReferenceKind) (name : String)
      (module : ModuleName), t.Unread (pre ++ post) kind name r →
      (t.registerAll (pre ++ r :: post)).resolver kind name module =
        (t.registerAll (pre ++ post)).resolver kind name module) ∧
    ∀ (pre post : List Registration) (r₁ r₂ : Registration), r₁.slot ≠ r₂.slot →
      (t.registerAll (pre ++ r₁ :: r₂ :: post)).resolver =
        (t.registerAll (pre ++ r₂ :: r₁ :: post)).resolver := by
  refine ⟨fun rs name module => ⟨?_, ?_, ?_⟩, fun rs kind name m m' => resolver_inModule kind m m',
    fun pre post r kind name module h => t.resolver_of_unread h module,
    fun pre post r₁ r₂ h => t.resolver_swap h pre post⟩
  · rw [← get?_helpers_registerAll]
    exact resolver_subExpression module
  · rw [← get?_helpers_registerAll, ← get?_components_registerAll]
    exact resolver_mustache module
  · rw [← get?_components_registerAll, ← onMissing_registerAll]
    exact resolver_element module

/-- A name in both tables, registered again in one of them, between registrations of another slot and of
another name; a strict policy that a lenient one follows. -/
theorem answers_by_last_registration_of_both_tables :
    let t : ResolverTable := { components := .ofEntries [("x-y", [⟨"old", "o"⟩])], onMissing := .error }
    let first : Registration := .component "x-y" [⟨"c", "d"⟩]
    let second : Registration := .helper "x-y" "h" "p"
    let rs := [second, first, .helper "z" "z" "z", .policy .ignore]
    first.slot ≠ second.slot ∧ t.Unread [second, .helper "z" "z" "z", .policy .ignore] .mustache "x-y" first ∧
      (t.registerAll rs).resolver .mustache "x-y" "m" = .ok (some ⟨[⟨"h", "p"⟩]⟩) ∧
      (t.registerAll [first, second, .helper "z" "z" "z", .policy .ignore]).resolver =
        (t.registerAll rs).resolver ∧
      (t.registerAll rs).resolver .element "x-y" "m" = .ok (some ⟨[⟨"c", "d"⟩]⟩) := by
  intro t first second rs
  have hslot : first.slot ≠ second.slot := by decide
  have hunread : t.Unread [second, .helper "z" "z" "z", .policy .ignore] .mustache "x-y" first :=
    .inr (.inr ⟨rfl, by decide⟩)
  obtain ⟨hanswers, -, hinsert, hswap⟩ := t.answers_by_last_registration
  refine ⟨hslot, hunread, ?_, hswap [] _ first second hslot, (hanswers rs "x-y" "m").2.2⟩
  exact (hinsert [second] _ first .mustache "x-y" "m" hunread).trans (hanswers _ "x-y" "m").2.1

end ResolverTable

end TemplateLinker
