import TemplateLinker.Proofs.Json.Grammar
import TemplateLinker.Proofs.Json.RoundTrip

/-!
# Proofs.Json.Records — records in any form

A draft says which fields of a record are given, and with which values.  `Record.ObjectText` are the object
texts that give these: a member for each given field, in any order, and members under other keys wherever one
likes.  `Record.ArrayText` are the array texts that give all fields.  Either way the record is read as what
the draft finishes as (`Record.readText_object`, `Record.readText_array`), and a field that is given again is
reported at its key, whatever follows (`Record.readText_repeated`).
-/

namespace TemplateLinker.Json

/-! ### Object texts -/

/-- The text of a key behind its opening quote, with its closing quote. -/
def IsKey (name : String) (key : List Char) : Prop := stringBody key = .ok (name, [])

/-- What stands in front of an item or a member: a comma in front of all but the first one. -/
inductive Separates : Bool → List Char → Prop where
  | first {gap : List Char} : IsGap gap → Separates false gap
  | comma {gap gap' : List Char} : IsGap gap → IsGap gap' → Separates true (gap ++ ',' :: gap')

namespace Record

section Texts

variable {σ α : Type} (r : Record σ α) (room : ℕ) (d : σ)

/-- A member with the value of a given field, or with any value under a key that is the name of no field. -/
inductive MemberText : Option (Field σ) → List Char → Prop where
  | field {f : Field σ} {a : f.Value} {key gap gap' v : List Char} : f ∈ r.fields → f.get d = some a →
      IsKey f.name key → IsGap gap → IsGap gap' → f.reader room v = .ok (a, []) →
      MemberText (some f) ('"' :: (key ++ (gap ++ ':' :: (gap' ++ v))))
  | other {name : String} {key gap gap' v : List Char} : (∀ f ∈ r.fields, f.name ≠ name) →
      IsKey name key → IsGap gap → IsGap gap' → IsValue v →
      MemberText none ('"' :: (key ++ (gap ++ ':' :: (gap' ++ v))))

/-- Members one after another, and the fields that they give; whether a member stands before them, and
whether one stands before what follows. -/
inductive MembersText : Bool → List (Field σ) → List Char → Bool → Prop where
  | nil {begun : Bool} : MembersText begun [] [] begun
  | cons {begun begun' : Bool} {field : Option (Field σ)} {fs : List (Field σ)} {sep m ms : List Char} :
      Separates begun sep → r.MemberText room d field m → MembersText true fs ms begun' →
      MembersText begun (field.toList ++ fs) (sep ++ (m ++ ms)) begun'

/-- An object that gives each field of the draft once. -/
inductive ObjectText : List Char → Prop where
  | mk {fs : List (Field σ)} {ms gap : List Char} {begun : Bool} : r.MembersText room d false fs ms begun →
      fs.Nodup → (∀ f ∈ r.fields, (f.get d).isSome → f ∈ fs) → IsGap gap →
      ObjectText ('\x7b' :: (ms ++ (gap ++ ['\x7d'])))

/-- Values of fields one after another. -/
inductive ValuesText : Bool → List (Field σ) → List Char → Prop where
  | nil {begun : Bool} : ValuesText begun [] []
  | cons {begun : Bool} {f : Field σ} {a : f.Value} {fs : List (Field σ)} {sep v vs : List Char} :
      Separates begun sep → f.get d = some a → f.reader room v = .ok (a, []) → ValuesText true fs vs →
      ValuesText begun (f :: fs) (sep ++ (v ++ vs))

/-- An array that gives all fields in their declared order. -/
inductive ArrayText : List Char → Prop where
  | mk {vs gap : List Char} : ValuesText room d false r.fields vs → IsGap gap →
      ArrayText ('[' :: (vs ++ (gap ++ [']'])))

/-- An object up to the second key of a field, and anything behind that. -/
inductive RepeatedText : Field σ → List Char → Prop where
  | mk {fs : List (Field σ)} {f : Field σ} {ms sep key rest : List Char} {begun : Bool} :
      r.MembersText room d false fs ms begun → fs.Nodup → f ∈ fs → Separates begun sep → IsKey f.name key →
      RepeatedText f ('\x7b' :: (ms ++ (sep ++ '"' :: (key ++ rest))))

end Texts

/-! ### Lawful records -/

/-- The fields have different names and slots that do not depend on each other, which make up the draft. -/
structure Lawful {σ α : Type} (r : Record σ α) : Prop where
  nodup_names : (r.fields.map Field.name).Nodup
  get_blank : ∀ f ∈ r.fields, f.get r.blank = none
  get_set : ∀ f ∈ r.fields, ∀ a s, f.get (f.set a s) = some a
  get_set_of_ne : ∀ f ∈ r.fields, ∀ g ∈ r.fields, f.name ≠ g.name → ∀ a s, g.get (f.set a s) = g.get s
  ext : ∀ s t, (∀ f ∈ r.fields, f.get s = f.get t) → s = t
  local_fields : ∀ f ∈ r.fields, ∀ room, Local (f.reader room)

section Reading

variable {σ α : Type} {r : Record σ α} {room : ℕ} {d : σ}

/-- The draft `t` is `s` with the values of `d` in the slots of `fs`. -/
structure Gathers (r : Record σ α) (d : σ) (fs : List (Field σ)) (s t : σ) : Prop where
  given : ∀ f ∈ fs, f.get t = f.get d
  others : ∀ f ∈ r.fields, f ∉ fs → f.get t = f.get s

theorem Gathers.nil (s : σ) : r.Gathers d [] s s where
  given := nofun
  others _ _ _ := rfl

theorem Gathers.cons (hr : r.Lawful) {f : Field σ} {fs : List (Field σ)} {a : f.Value} {s t : σ}
    (hf : f ∈ r.fields) (hfs : f ∉ fs) (ha : f.get d = some a) (h : r.Gathers d fs (f.set a s) t) :
    r.Gathers d (f :: fs) s t where
  given g hg := by
    rcases List.mem_cons.1 hg with rfl | hg
    · rw [h.others g hf hfs, hr.get_set g hf, ha]
    · exact h.given g hg
  others g hg hne := by
    rw [List.mem_cons, not_or] at hne
    have hname : f.name ≠ g.name := fun hname =>
      hne.1 (List.inj_on_of_nodup_map hr.nodup_names hg hf hname.symm)
    rw [h.others g hg hne.2, hr.get_set_of_ne f hf g hg hname]

/-- A draft that was gathered from the blank one is the draft it was gathered from. -/
theorem Gathers.eq (hr : r.Lawful) {fs : List (Field σ)} {t : σ} (h : r.Gathers d fs r.blank t)
    (hfs : ∀ f ∈ r.fields, (f.get d).isSome → f ∈ fs) : t = d := by
  refine hr.ext t d fun f hf => ?_
  by_cases hmem : f ∈ fs
  · exact h.given f hmem
  · rw [h.others f hf hmem, hr.get_blank f hf]
    have hnone : ¬(f.get d).isSome := fun hsome => hmem (hfs f hf hsome)
    exact (Option.not_isSome_iff_eq_none.1 hnone).symm

/-! ### Objects -/

theorem nextKey_append {begun : Bool} {sep key : List Char} {name : String} (hsep : Separates begun sep)
    (hkey : IsKey name key) (rest : List Char) :
    nextKey (!begun) (sep ++ '"' :: (key ++ rest)) = .ok (some name, rest) := by
  have hbody : stringBody (key ++ rest) = .ok (name, rest) := by
    obtain ⟨used, rfl, htakes⟩ := (@consumes_stringBody fun _ => True).takes hkey
    rw [List.append_nil]
    exact htakes rest (.inr trivial)
  cases hsep with
  | first hgap =>
    unfold nextKey
    rw [hgap.skipBlanks_append, skipBlanks_cons_of_not_blank (by decide)]
    show (stringBody (key ++ rest)).map _ = _
    rw [hbody]
    rfl
  | @comma gap gap' hgap hgap' =>
    unfold nextKey
    rw [List.append_assoc, hgap.skipBlanks_append, List.cons_append, skipBlanks_cons_of_not_blank (by decide)]
    simp only [hgap'.skipBlanks_append, skipBlanks_cons_of_not_blank (by decide : isBlank '"' = false)]
    show (stringBody (key ++ rest)).map _ = _
    rw [hbody]
    rfl

theorem colon_append {gap : List Char} (hgap : IsGap gap) (cs : List Char) :
    colon (gap ++ ':' :: cs) = .ok ((), cs) :=
  afterBlanks_append hgap (by decide) cs

theorem consuming_memberStep (hr : r.Lawful) (room : ℕ) : Consuming (r.memberStep room) :=
  consuming_of_consumes (r.consumes_memberStep hr.local_fields room)

theorem memberStep_field (hr : r.Lawful) {begun : Bool} {s : σ} {f : Field σ} {a : f.Value}
    {sep key gap gap' v rest : List Char} (hsep : Separates begun sep) (hf : f ∈ r.fields)
    (hempty : f.get s = none) (hkey : IsKey f.name key) (hgap : IsGap gap) (hgap' : IsGap gap')
    (hv : f.reader room v = .ok (a, [])) (hrest : Delimits rest) :
    r.memberStep room (begun, s) (sep ++ '"' :: (key ++ (gap ++ ':' :: (gap' ++ (v ++ rest))))) =
      .ok (.next (true, f.set a s), rest) := by
  have hread := (hr.local_fields f hf room).read_between hv hgap' hrest
  unfold memberStep
  simp only [nextKey_append hsep hkey, bind, Except.bind, find?_name hr.nodup_names hf, hempty,
    colon_append hgap, hread]
  rfl

theorem memberStep_other {begun : Bool} {s : σ} {name : String}
    {sep key gap gap' v rest : List Char} (hsep : Separates begun sep) (hname : ∀ f ∈ r.fields, f.name ≠ name)
    (hkey : IsKey name key) (hgap : IsGap gap) (hgap' : IsGap gap') (hv : IsValue v) (hrest : Delimits rest) :
    r.memberStep room (begun, s) (sep ++ '"' :: (key ++ (gap ++ ':' :: (gap' ++ (v ++ rest))))) =
      .ok (.next (true, s), rest) := by
  have hfind : r.fields.find? (·.name == name) = none :=
    List.find?_eq_none.2 fun f hf h => hname f hf (eq_of_beq h)
  unfold memberStep
  simp only [nextKey_append hsep hkey, bind, Except.bind, hfind, colon_append hgap,
    skipValue_of_isValue hv hgap' hrest]

theorem delimits_separator {sep : List Char} (h : Separates true sep) (rest : List Char) :
    Delimits (sep ++ rest) := by
  cases h with
  | comma hgap _ =>
    rw [List.append_assoc]
    exact hgap.delimits_append (delimits_comma _)

theorem MembersText.delimits_append {fs : List (Field σ)} {ms rest : List Char} {begun' : Bool}
    (h : r.MembersText room d true fs ms begun') (hrest : Delimits rest) : Delimits (ms ++ rest) := by
  cases h with
  | nil => exact hrest
  | cons hsep _ _ =>
    rw [List.append_assoc]
    exact delimits_separator hsep _

theorem MembersText.begun_of_mem {fs : List (Field σ)} {ms : List Char} {begun begun' : Bool}
    (h : r.MembersText room d begun fs ms begun') (hbegun : begun = true ∨ ∃ f, f ∈ fs) : begun' = true := by
  induction h with
  | nil => exact hbegun.resolve_right fun ⟨_, hf⟩ => nomatch hf
  | cons _ _ _ ih => exact ih (.inl rfl)

theorem MembersText.exists_get {fs : List (Field σ)} {ms : List Char} {begun begun' : Bool}
    (h : r.MembersText room d begun fs ms begun') : ∀ f ∈ fs, f ∈ r.fields ∧ ∃ a, f.get d = some a := by
  induction h with
  | nil => exact nofun
  | cons _ hmember _ ih =>
    cases hmember with
    | field hf ha =>
      intro g hg
      rcases List.mem_cons.1 hg with rfl | hg
      · exact ⟨hf, _, ha⟩
      · exact ih g hg
    | other => exact ih

/-- The loop over the members gathers the values that they give, in whichever order they come. -/
theorem iterate_members (hr : r.Lawful) {begun begun' : Bool} {fs : List (Field σ)} {ms : List Char}
    (h : r.MembersText room d begun fs ms begun') (hnodup : fs.Nodup) {rest : List Char} (hrest : Delimits rest) :
    ∀ {s : σ}, (∀ f ∈ fs, f.get s = none) → ∃ t, r.Gathers d fs s t ∧
      iterate (r.memberStep room) (begun, s) (ms ++ rest) = iterate (r.memberStep room) (begun', t) rest := by
  induction h with
  | nil => exact fun {s} _ => ⟨s, .nil s, rfl⟩
  | @cons begun begun' field fs sep m ms hsep hmember hms ih =>
    intro s hempty
    have hmore := hms.delimits_append hrest
    simp only [List.append_assoc]
    cases hmember with
    | @field f a key gap gap' v hf ha hkey hgap hgap' hv =>
      obtain ⟨hfs, hnodup⟩ := List.nodup_cons.1 hnodup
      have hslots : ∀ g ∈ fs, g.get (f.set a s) = none := fun g hg => by
        have hg' : g ∈ r.fields := (hms.exists_get g hg).1
        have hname : f.name ≠ g.name := fun hname =>
          hfs (List.inj_on_of_nodup_map hr.nodup_names hf hg' hname ▸ hg)
        rw [hr.get_set_of_ne f hf g hg' hname]
        exact hempty g (List.mem_cons_of_mem f hg)
      obtain ⟨t, ht, hloop⟩ := ih hnodup hslots
      refine ⟨t, .cons hr hf hfs ha ht, ?_⟩
      have hstep := memberStep_field hr hsep hf (hempty f List.mem_cons_self) hkey hgap hgap' hv hmore
      simp only [List.cons_append, List.append_assoc] at hstep ⊢
      rw [iterate_of_next (consuming_memberStep hr room) hstep]
      exact hloop
    | other hname hkey hgap hgap' hv =>
      obtain ⟨t, ht, hloop⟩ := ih hnodup hempty
      refine ⟨t, ht, ?_⟩
      have hstep : r.memberStep room (begun, s) _ = _ :=
        memberStep_other hsep hname hkey hgap hgap' hv hmore
      simp only [List.cons_append, List.append_assoc] at hstep ⊢
      rw [iterate_of_next (consuming_memberStep hr room) hstep]
      exact hloop

/-- Whether all required fields are given. -/
def IsComplete (r : Record σ α) (d : σ) : Prop := ∀ f ∈ r.fields, f.required → (f.get d).isSome

theorem isComplete_of_defaults (h : ∀ f ∈ r.fields, f.required = false) : r.IsComplete d :=
  fun f hf hrequired => absurd (h f hf) (ne_false_of_eq_true hrequired)

theorem find?_isMissing (h : r.IsComplete d) : r.fields.find? (isMissing d) = none := by
  refine List.find?_eq_none.2 fun f hf hmissing => ?_
  rw [isMissing, Bool.and_eq_true, Option.isNone_iff_eq_none] at hmissing
  have hsome := h f hf hmissing.1
  rw [hmissing.2] at hsome
  cases hsome

theorem memberStep_close (h : r.IsComplete d) (begun : Bool) {gap : List Char} (hgap : IsGap gap)
    (rest : List Char) :
    r.memberStep room (begun, d) (gap ++ '\x7d' :: rest) = .ok (.done d, rest) := by
  have hkey : nextKey (!begun) (gap ++ '\x7d' :: rest) = .ok (none, '\x7d' :: rest) :=
    afterBlanks_append hgap (by decide) rest
  unfold memberStep
  simp only [hkey, bind, Except.bind, find?_isMissing h]
  rfl

theorem objectForm_append (hr : r.Lawful) (hcomplete : r.IsComplete d) {fs : List (Field σ)} {ms gap : List Char}
    {begun : Bool} (hms : r.MembersText room d false fs ms begun) (hnodup : fs.Nodup)
    (hfs : ∀ f ∈ r.fields, (f.get d).isSome → f ∈ fs) (hgap : IsGap gap) (rest : List Char) :
    r.objectForm room (ms ++ (gap ++ '\x7d' :: rest)) = .ok (d, rest) := by
  have hclose : Delimits (gap ++ '\x7d' :: rest) := hgap.delimits_append (delimits_closing .object rest)
  have hblank : ∀ f ∈ fs, f.get r.blank = none := fun f hf => hr.get_blank f (hms.exists_get f hf).1
  obtain ⟨t, ht, hloop⟩ := iterate_members hr hms hnodup hclose hblank
  obtain rfl := ht.eq hr hfs
  rw [objectForm, hloop, iterate_eq (consuming_memberStep hr room), memberStep_close hcomplete begun hgap]

theorem objectForm_repeated (hr : r.Lawful) {fs : List (Field σ)} {f : Field σ} {ms sep key : List Char}
    {begun : Bool} (hms : r.MembersText room d false fs ms begun) (hnodup : fs.Nodup) (hf : f ∈ fs)
    (hsep : Separates begun sep) (hkey : IsKey f.name key) (rest : List Char) :
    r.objectForm room (ms ++ (sep ++ '"' :: (key ++ rest))) = .error (.mismatch (.duplicateField f.name)) := by
  have hblank : ∀ f ∈ fs, f.get r.blank = none := fun f hf => hr.get_blank f (hms.exists_get f hf).1
  obtain ⟨hmem, a, ha⟩ := hms.exists_get f hf
  have hbegun : begun = true := hms.begun_of_mem (.inr ⟨f, hf⟩)
  subst hbegun
  have hcomma : Delimits (sep ++ '"' :: (key ++ rest)) := delimits_separator hsep _
  obtain ⟨t, ht, hloop⟩ := iterate_members hr hms hnodup hcomma hblank
  have hgiven : (f.get t).isSome = true := by rw [ht.given f hf, ha, Option.isSome_some]
  have hstep : r.memberStep room (true, t) (sep ++ '"' :: (key ++ rest)) =
      .error (.mismatch (.duplicateField f.name)) := by
    unfold memberStep
    simp only [nextKey_append hsep hkey, bind, Except.bind, find?_name hr.nodup_names hmem, hgiven]
    rfl
  rw [objectForm, hloop, iterate_eq (consuming_memberStep hr room), hstep]

/-! ### Arrays -/

theorem nextItem_append {begun : Bool} {sep gap tail : List Char} {c : Char} (hsep : Separates begun sep)
    (hgap : IsGap gap) (hc : isBlank c = false) (hclose : c ≠ ']') :
    nextItem (!begun) (sep ++ (gap ++ c :: tail)) = .ok (true, c :: tail) := by
  cases hsep with
  | first hgap' =>
    unfold nextItem
    rw [hgap'.skipBlanks_append, hgap.skipBlanks_append, skipBlanks_cons_of_not_blank hc]
    exact if_neg hclose
  | @comma gap' gap'' hgap' hgap'' =>
    unfold nextItem
    rw [List.append_assoc, hgap'.skipBlanks_append, List.cons_append, skipBlanks_cons_of_not_blank (by decide)]
    simp only [hgap''.skipBlanks_append, hgap.skipBlanks_append, skipBlanks_cons_of_not_blank hc, if_neg hclose]
    rfl

theorem ValuesText.delimits_append {fs : List (Field σ)} {vs rest : List Char}
    (h : ValuesText room d true fs vs) (hrest : Delimits rest) : Delimits (vs ++ rest) := by
  cases h with
  | nil => exact hrest
  | cons hsep _ _ _ =>
    rw [List.append_assoc]
    exact delimits_separator hsep _

theorem fieldValues_append (hr : r.Lawful) {begun : Bool} {fs : List (Field σ)} {vs : List Char}
    (h : ValuesText room d begun fs vs) (hfs : fs ⊆ r.fields) (hnodup : fs.Nodup) {rest : List Char}
    (hrest : Delimits rest) : ∀ {index : ℕ} {s : σ}, (index == 0) = !begun →
      ∃ t, r.Gathers d fs s t ∧ r.fieldValues room fs index s (vs ++ rest) = .ok (t, rest) := by
  induction h with
  | nil => exact fun {_ s} _ => ⟨s, .nil s, rfl⟩
  | @cons begun f a fs sep v vs hsep ha hv hvs ih =>
    intro index s hindex
    obtain ⟨hf, hfs⟩ := List.cons_subset.1 hfs
    obtain ⟨hmem, hnodup⟩ := List.nodup_cons.1 hnodup
    have hlocal := hr.local_fields f hf room
    obtain ⟨t, ht, hloop⟩ : ∃ t, r.Gathers d fs (f.set a s) t ∧
        r.fieldValues room fs (index + 1) (f.set a s) (vs ++ rest) = .ok (t, rest) := ih hfs hnodup rfl
    refine ⟨t, .cons hr hf hmem ha ht, ?_⟩
    -- the blanks in front of the value are passed over with the comma
    obtain ⟨gap, c, tail, hgap, hc, hclose, rfl⟩ := hlocal.exists_of_read hv
    have hread := hlocal.read_between ((hlocal.read_gap hgap).1 hv) .nil (hvs.delimits_append hrest)
    have hitem : nextItem (!begun) (sep ++ (gap ++ c :: (tail ++ (vs ++ rest)))) = _ :=
      nextItem_append hsep hgap hc hclose
    simp only [List.append_assoc, List.cons_append, List.nil_append] at hread ⊢
    rw [fieldValues, hindex, hitem]
    show (f.reader room (c :: (tail ++ (vs ++ rest))) >>= _) = _
    rw [hread]
    exact hloop

theorem arrayForm_append (hr : r.Lawful) {vs gap : List Char} (hvs : ValuesText room d false r.fields vs)
    (hgap : IsGap gap) (rest : List Char) :
    r.arrayForm room (vs ++ (gap ++ ']' :: rest)) = .ok (d, rest) := by
  have hclose : Delimits (gap ++ ']' :: rest) := hgap.delimits_append (delimits_closing .array rest)
  have hnodup : r.fields.Nodup := List.Nodup.of_map _ hr.nodup_names
  obtain ⟨t, ht, hvalues⟩ : ∃ t, r.Gathers d r.fields r.blank t ∧
      r.fieldValues room r.fields 0 r.blank (vs ++ (gap ++ ']' :: rest)) = .ok (t, gap ++ ']' :: rest) :=
    fieldValues_append hr hvs (List.Subset.refl _) hnodup hclose rfl
  obtain rfl := ht.eq hr fun f hf _ => hf
  have hbracket : closeArray (gap ++ ']' :: rest) = .ok ((), rest) := afterBlanks_append hgap (by decide) rest
  unfold arrayForm
  rw [hvalues]
  show (closeArray (gap ++ ']' :: rest) >>= _) = _
  rw [hbracket]
  rfl

/-! ### Whole texts -/

theorem reader_opening_brace {lead : List Char} (hlead : IsGap lead) (cs : List Char) :
    r.reader (room + 1) (lead ++ '\x7b' :: cs) =
      (r.objectForm room cs).map fun (draft, rest) => (r.finish draft, rest) := by
  unfold reader
  rw [hlead.skipBlanks_append, skipBlanks_cons_of_not_blank (by decide)]
  rfl

theorem reader_opening_bracket {lead : List Char} (hlead : IsGap lead) (cs : List Char) :
    r.reader (room + 1) (lead ++ '[' :: cs) =
      (r.arrayForm room cs).map fun (draft, rest) => (r.finish draft, rest) := by
  unfold reader
  rw [hlead.skipBlanks_append, skipBlanks_cons_of_not_blank (by decide)]
  rfl

theorem readText_eq_ok {reader : Reader α} {a : α} {cs trail : List Char} (htrail : IsGap trail)
    (h : reader maxDepth cs = .ok (a, trail)) : readText reader (String.ofList cs) = .ok a := by
  have hskip : skipBlanks trail = [] := by
    have hgap := htrail.skipBlanks_append []
    rwa [List.append_nil] at hgap
  unfold readText
  rw [String.toList_ofList, h]
  exact if_pos hskip

variable {lead body trail : List Char}

/-- **An object is read as what it gives**, in whichever order and among whatever other members. -/
theorem readText_object (hr : r.Lawful) (hcomplete : r.IsComplete d) (hlead : IsGap lead)
    (hbody : r.ObjectText (maxDepth - 1) d body) (htrail : IsGap trail) :
    readText r.reader (String.ofList (lead ++ (body ++ trail))) = .ok (r.finish d) := by
  cases hbody with
  | mk hms hnodup hfs hgap =>
    refine readText_eq_ok htrail ?_
    have hform := objectForm_append hr hcomplete hms hnodup hfs hgap trail
    simp only [List.append_assoc, List.cons_append, List.nil_append]
    rw [show maxDepth = maxDepth - 1 + 1 from rfl, reader_opening_brace hlead, hform]
    rfl

/-- **An array with a value for each field is read as what it gives.** -/
theorem readText_array (hr : r.Lawful) (hlead : IsGap lead) (hbody : r.ArrayText (maxDepth - 1) d body)
    (htrail : IsGap trail) :
    readText r.reader (String.ofList (lead ++ (body ++ trail))) = .ok (r.finish d) := by
  cases hbody with
  | mk hvs hgap =>
    refine readText_eq_ok htrail ?_
    have hform := arrayForm_append hr hvs hgap trail
    simp only [List.append_assoc, List.cons_append, List.nil_append]
    rw [show maxDepth = maxDepth - 1 + 1 from rfl, reader_opening_bracket hlead, hform]
    rfl

/-- **A field that is given again is reported**, whatever follows its second key. -/
theorem readText_repeated (hr : r.Lawful) {f : Field σ} (hlead : IsGap lead)
    (hbody : r.RepeatedText (maxDepth - 1) d f body) :
    readText r.reader (String.ofList (lead ++ body)) = .error (.mismatch (.duplicateField f.name)) := by
  cases hbody with
  | mk hms hnodup hf hsep hkey =>
    have hform := objectForm_repeated hr hms hnodup hf hsep hkey
    unfold readText
    rw [String.toList_ofList, show maxDepth = maxDepth - 1 + 1 from rfl, reader_opening_brace hlead, hform]
    rfl

end Reading

/-- How a text is read that is a record in any form.  `result` says which drafts are a whole record, and which
record they are. -/
structure ReadsInAnyForm {σ α : Type} (r : Record σ α) (parse : String → Except Failure α)
    (result : σ → Option α) : Prop where
  object : ∀ {d : σ} {a : α} {lead body trail : List Char}, result d = some a → IsGap lead →
    r.ObjectText (maxDepth - 1) d body → IsGap trail → parse (String.ofList (lead ++ (body ++ trail))) = .ok a
  array : ∀ {d : σ} {a : α} {lead body trail : List Char}, result d = some a → IsGap lead →
    r.ArrayText (maxDepth - 1) d body → IsGap trail → parse (String.ofList (lead ++ (body ++ trail))) = .ok a
  repeated : ∀ {d : σ} {f : Field σ} {lead body : List Char}, IsGap lead →
    r.RepeatedText (maxDepth - 1) d f body →
    parse (String.ofList (lead ++ body)) = .error (.mismatch (.duplicateField f.name))

theorem Lawful.readsInAnyForm {σ α : Type} {r : Record σ α} (hr : r.Lawful) {result : σ → Option α}
    (hresult : ∀ d a, result d = some a → r.IsComplete d ∧ r.finish d = a) :
    r.ReadsInAnyForm (readText r.reader) result where
  object {d a lead body trail} h hlead hbody htrail := by
    obtain ⟨hcomplete, rfl⟩ := hresult d a h
    exact readText_object hr hcomplete hlead hbody htrail
  array {d a lead body trail} h hlead hbody htrail := by
    obtain ⟨-, rfl⟩ := hresult d a h
    exact readText_array hr hlead hbody htrail
  repeated hlead hbody := readText_repeated hr hlead hbody

end Record

end TemplateLinker.Json
