import Mathlib.Data.List.Forall2
import TemplateLinker.Json.Decoder
import TemplateLinker.Proofs.Json.Integers

/-!
# Proofs.Json.RoundTrip — readers that take back what was written

`Reads reader v a` says that the reader takes the text of `v` as `a` wherever its brackets have room and
whatever stands behind it.  There is a rule for each way in which a reader is made of others: lists
(`Reads.list`), maps (`Reads.map`), choices (`reads_choice`) and records (`Record.reads`).  The reader of
values of any shape takes back the values whose numbers are integers of 64 bits and whose objects have no
key twice (`reads_value`).
-/

namespace TemplateLinker.Json

open Text.Quoted

/-! ### Nesting -/

mutual

/-- The number of arrays and objects that are open at once in the text of a value. -/
def depth : Json → ℕ
  | .array xs => itemsDepth xs + 1
  | .object ms => membersDepth ms + 1
  | _ => 0

def itemsDepth : List Json → ℕ
  | [] => 0
  | x :: xs => max x.depth (itemsDepth xs)

def membersDepth : List (String × Json) → ℕ
  | [] => 0
  | (_, v) :: ms => max v.depth (membersDepth ms)

end

theorem itemsDepth_le_iff {n : ℕ} {xs : List Json} : itemsDepth xs ≤ n ↔ ∀ x ∈ xs, x.depth ≤ n := by
  induction xs with
  | nil => simp [itemsDepth]
  | cons x xs ih => rw [itemsDepth, Nat.max_le, ih, List.forall_mem_cons]

theorem membersDepth_le_iff {n : ℕ} {ms : Entries Json} : membersDepth ms ≤ n ↔ ∀ m ∈ ms, m.2.depth ≤ n := by
  induction ms with
  | nil => simp [membersDepth]
  | cons m ms ih => rw [membersDepth, Nat.max_le, ih, List.forall_mem_cons]

/-! ### Readers of written values -/

/-- The reader takes the text of `v` as `a`, in front of whatever may stand behind a value. -/
structure Reads {α : Type} (reader : Reader α) (v : Json) (a : α) : Prop where
  isFinite : v.IsFinite
  read : ∀ {room : ℕ} {rest : List Char}, v.depth ≤ room → Ends rest →
    reader room (v.write rest) = .ok (a, rest)

theorem isBlank_opening (v : Json) : isBlank v.opening = false := by
  rcases v with _ | (_ | _) | _ | _ | _ | _ <;> rfl

/-- A value begins with a character that is no blank and closes no array. -/
theorem exists_write_eq {v : Json} (hv : v.IsFinite) (rest : List Char) :
    ∃ c cs, v.write rest = c :: cs ∧ isBlank c = false ∧ c ≠ ']' := by
  have hhead := write_head hv rest
  rcases h : v.write rest with _ | ⟨c, cs⟩
  · rw [h] at hhead
    cases hhead
  · refine ⟨c, cs, rfl, ?_, fun hc => write_ne_bracket hv rest cs (hc ▸ h)⟩
    rw [h] at hhead
    have hopen : openedBy c = v.opening := Option.some.inj hhead
    cases hc : isBlank c with
    | false => rfl
    | true =>
      -- no numeral goes on with a blank, so a blank would open the value itself
      have hself : openedBy c = c := by
        simp only [isBlank, Bool.or_eq_true, beq_iff_eq] at hc
        rcases hc with ((rfl | rfl) | rfl) | rfl <;> rfl
      rw [← hself, hopen, isBlank_opening] at hc
      cases hc

theorem length_lt_write {v : Json} (hv : v.IsFinite) (rest : List Char) :
    rest.length < (v.write rest).length := by
  obtain ⟨c, cs, h, -⟩ := exists_write_eq hv []
  rw [write_eq_render_append, render, h]
  simp only [List.length_append, List.length_cons]
  omega

/-- The whole text of a value is taken. -/
theorem Reads.readText {α : Type} {reader : Reader α} {v : Json} {a : α} (h : Reads reader v a)
    (hdepth : v.depth ≤ maxDepth) : readText reader v.text = .ok a := by
  have hread : reader maxDepth (v.write []) = .ok (a, []) := h.read hdepth .nil
  unfold Json.readText
  rw [text, String.toList_ofList, render, hread]
  rfl

/-- A bracket takes one place of the room, whatever stands behind the value. -/
theorem reads_of_bracket {α : Type} {reader : Reader α} {v : Json} {a : α} (hv : v.IsFinite) {inner : ℕ}
    (hdepth : v.depth = inner + 1)
    (h : ∀ room rest, inner ≤ room → reader (room + 1) (v.write rest) = .ok (a, rest)) :
    Reads reader v a where
  isFinite := hv
  read {room rest} hroom _ := by
    rw [hdepth] at hroom
    cases room with
    | zero => exact absurd hroom (Nat.not_succ_le_zero _)
    | succ room => exact h room rest (Nat.le_of_succ_le_succ hroom)

/-! ### Strings and choices -/

theorem write_string (s : String) (rest : List Char) :
    (Json.string s).write rest = '"' :: (s.toList.flatMap jsonEscape ++ '"' :: rest) := by
  rw [write, json_append]

theorem reads_string (s : String) : Reads Decode.string (.string s) s where
  isFinite := trivial
  read {room rest} _ _ := by
    rw [write_string]
    show stringBody _ = _
    exact stringBody_quoted s rest

theorem reads_choice {α : Type} {variants : Entries α} {name : String} {a : α}
    (h : Entries.get? name variants = some a) : Reads (Decode.choice variants) (.string name) a where
  isFinite := trivial
  read {room rest} _ _ := by
    rw [write_string]
    show Decode.variantName variants _ = _
    unfold Decode.variantName
    rw [stringBody_quoted]
    simp only [bind, Except.bind, h]

/-! ### Lists -/

section Items

variable {α : Type} {item : Reader α}

/-- The text of the items that are left, behind the opening bracket or behind an item. -/
def itemsText : Bool → List Json → List Char → List Char
  | false, x :: xs, rest => x.write (writeItems xs rest)
  | _, xs, rest => writeItems xs rest

theorem write_array (xs : List Json) (rest : List Char) :
    (Json.array xs).write rest = '[' :: itemsText false xs rest := by
  cases xs <;> rfl

theorem nextItem_itemsText_nil (begun : Bool) (rest : List Char) :
    nextItem (!begun) (itemsText begun [] rest) = .ok (false, ']' :: rest) := by
  cases begun <;> rfl

theorem nextItem_itemsText_cons {x : Json} (hx : x.IsFinite) (begun : Bool) (xs : List Json)
    (rest : List Char) : nextItem (!begun) (itemsText begun (x :: xs) rest) =
      .ok (true, x.write (writeItems xs rest)) := by
  obtain ⟨c, cs, h, hblank, hclose⟩ := exists_write_eq hx (writeItems xs rest)
  cases begun with
  | false =>
    show nextItem true (x.write (writeItems xs rest)) = _
    unfold nextItem
    rw [h, skipBlanks_cons_of_not_blank hblank]
    simp only [if_neg hclose, if_true]
  | true =>
    show nextItem false (',' :: x.write (writeItems xs rest)) = _
    unfold nextItem
    rw [h, skipBlanks_cons_of_not_blank (by decide)]
    simp only [skipBlanks_cons_of_not_blank hblank, if_neg hclose]
    rfl

theorem length_lt_itemsText {x : Json} (hx : x.IsFinite) (begun : Bool) (xs : List Json)
    (rest : List Char) : (writeItems xs rest).length < (itemsText begun (x :: xs) rest).length := by
  have hlt := length_lt_write hx (writeItems xs rest)
  cases begun with
  | false => exact hlt
  | true => exact Nat.lt_succ_of_lt hlt

theorem turns_items {room : ℕ} {vs : List Json} {as : List α} (h : List.Forall₂ (Reads item) vs as)
    (hdepth : itemsDepth vs ≤ room) (rest : List Char) : ∀ (begun : Bool) (acc : List α),
      Turns (itemsStep (item room)) (begun, acc) (itemsText begun vs rest) (acc.reverse ++ as) rest := by
  induction h with
  | nil =>
    intro begun acc
    refine .done ?_
    unfold itemsStep
    rw [nextItem_itemsText_nil, List.append_nil]
    rfl
  | @cons v a vs as hv hvs ih =>
    intro begun acc
    rw [itemsDepth, Nat.max_le] at hdepth
    have hread := hv.read hdepth.1 (ends_writeItems vs rest)
    have hstep : itemsStep (item room) (begun, acc) (itemsText begun (v :: vs) rest) =
        .ok (.next (true, a :: acc), itemsText true vs rest) := by
      unfold itemsStep
      simp only [nextItem_itemsText_cons hv.isFinite, bind, Except.bind, if_true, hread]
      rfl
    have hrest := ih hdepth.2 true (a :: acc)
    rw [List.reverse_cons, List.append_assoc] at hrest
    exact .next hstep (length_lt_itemsText hv.isFinite begun vs rest) hrest

theorem itemsFinite_of_reads {vs : List Json} {as : List α} (h : List.Forall₂ (Reads item) vs as) :
    ItemsFinite vs := by
  induction h with
  | nil => trivial
  | cons hv _ ih => exact ⟨hv.isFinite, ih⟩

/-- A list is read as what its items are read as. -/
theorem Reads.list {vs : List Json} {as : List α} (h : List.Forall₂ (Reads item) vs as) :
    Reads (Decode.list item) (.array vs) as :=
  reads_of_bracket (itemsFinite_of_reads h) rfl fun room rest hroom => by
    rw [write_array]
    exact (turns_items h hroom rest false []).iterate_eq

theorem Reads.list_map {f : α → Json} (h : ∀ x, Reads item (f x) x) (xs : List α) :
    Reads (Decode.list item) (.array (xs.map f)) xs :=
  .list (List.forall₂_map_left_iff.2 (List.forall₂_same.2 fun x _ => h x))

theorem depth_array_map_le {f : α → Json} {n : ℕ} (h : ∀ x, (f x).depth ≤ n) (xs : List α) :
    (Json.array (xs.map f)).depth ≤ n + 1 :=
  Nat.succ_le_succ (itemsDepth_le_iff.2 (List.forall_mem_map.2 fun x _ => h x))

end Items

/-! ### Objects -/

/-- The text of the members that are left, behind the opening brace or behind a member. -/
def membersText : Bool → Entries Json → List Char → List Char
  | false, (k, v) :: ms, rest => json k.toList ++ ':' :: v.write (writeMembers ms rest)
  | _, ms, rest => writeMembers ms rest

theorem write_object (ms : Entries Json) (rest : List Char) :
    (Json.object ms).write rest = '\x7b' :: membersText false ms rest := by
  rcases ms with _ | ⟨⟨_, _⟩, _⟩ <;> rfl

theorem nextKey_membersText_nil (begun : Bool) (rest : List Char) :
    nextKey (!begun) (membersText begun [] rest) = .ok (none, '\x7d' :: rest) := by
  cases begun <;> rfl

theorem nextKey_membersText_cons (begun : Bool) (k : String) (v : Json) (ms : Entries Json)
    (rest : List Char) : nextKey (!begun) (membersText begun ((k, v) :: ms) rest) =
      .ok (some k, ':' :: v.write (writeMembers ms rest)) := by
  have hbody := stringBody_quoted k (':' :: v.write (writeMembers ms rest))
  cases begun with
  | false =>
    show nextKey true (json k.toList ++ ':' :: v.write (writeMembers ms rest)) = _
    rw [json_append]
    show Except.map _ (stringBody _) = _
    rw [hbody]
    rfl
  | true =>
    show nextKey false (',' :: (json k.toList ++ ':' :: v.write (writeMembers ms rest))) = _
    rw [json_append]
    show Except.map _ (stringBody _) = _
    rw [hbody]
    rfl

theorem colon_cons (cs : List Char) : colon (':' :: cs) = .ok ((), cs) := rfl

theorem length_lt_membersText (begun : Bool) {k : String} {v : Json} (hv : v.IsFinite)
    (ms : Entries Json) (rest : List Char) :
    (writeMembers ms rest).length < (membersText begun ((k, v) :: ms) rest).length := by
  have hlt := length_lt_write hv (writeMembers ms rest)
  cases begun with
  | false =>
    show _ < (json k.toList ++ ':' :: v.write (writeMembers ms rest)).length
    simp only [List.length_append, List.length_cons]
    omega
  | true =>
    show _ < (',' :: (json k.toList ++ ':' :: v.write (writeMembers ms rest))).length
    simp only [List.length_append, List.length_cons]
    omega

section Members

variable {α : Type} {member : Reader α}

/-- The member is read as the entry. -/
def ReadsMember (member : Reader α) (m : String × Json) (e : String × α) : Prop :=
  m.1 = e.1 ∧ Reads member m.2 e.2

theorem turns_members {room : ℕ} {ms : Entries Json} {es : Entries α}
    (h : List.Forall₂ (ReadsMember member) ms es) (hdepth : membersDepth ms ≤ room) (rest : List Char) :
    ∀ (begun : Bool) (acc out : OrderedMap α), out.entries = acc.entries ++ es →
      Turns (membersStep (member room)) (begun, acc) (membersText begun ms rest) out rest := by
  induction h with
  | nil =>
    intro begun acc out hout
    rw [List.append_nil] at hout
    refine .done ?_
    unfold membersStep
    rw [nextKey_membersText_nil, OrderedMap.ext hout]
    rfl
  | @cons m e ms es hm hms ih =>
    intro begun acc out hout
    obtain ⟨k, v⟩ := m
    obtain ⟨_, a⟩ := e
    obtain ⟨rfl, hv⟩ := hm
    rw [membersDepth, Nat.max_le] at hdepth
    -- the keys of the result differ, so this one stands in none of the entries so far
    have hnew : k ∉ Entries.keys acc.entries := fun hk => by
      have hnodup := out.nodup_keys
      rw [hout, Entries.keys_append, Entries.keys_cons, List.nodup_append] at hnodup
      exact hnodup.2.2 k hk k List.mem_cons_self rfl
    have hread := hv.read hdepth.1 (ends_writeMembers ms rest)
    have hstep : membersStep (member room) (begun, acc) (membersText begun ((k, v) :: ms) rest) =
        .ok (.next (true, acc.insert k a), membersText true ms rest) := by
      unfold membersStep
      simp only [nextKey_membersText_cons, bind, Except.bind, colon_cons, hread]
      rfl
    have hinsert : (acc.insert k a).entries = acc.entries ++ [(k, a)] := Entries.put_of_not_mem hnew a
    refine .next hstep (length_lt_membersText begun hv.isFinite ms rest) (ih hdepth.2 true _ out ?_)
    rw [hout, hinsert, List.append_assoc, List.singleton_append]

theorem membersFinite_of_reads {ms : Entries Json} {es : Entries α}
    (h : List.Forall₂ (ReadsMember member) ms es) : MembersFinite ms := by
  induction h with
  | nil => trivial
  | cons hm _ ih => exact ⟨hm.2.isFinite, ih⟩

/-- A map is read with its keys in their order. -/
theorem Reads.map {ms : Entries Json} {out : OrderedMap α}
    (h : List.Forall₂ (ReadsMember member) ms out.entries) :
    Reads (Decode.map member) (.object ms) out :=
  reads_of_bracket (membersFinite_of_reads h) rfl fun room rest hroom => by
    rw [write_object]
    exact (turns_members h hroom rest false .empty out rfl).iterate_eq

theorem Reads.map_entries {f : α → Json} (h : ∀ x, Reads member (f x) x) (m : OrderedMap α) :
    Reads (Decode.map member) (.object (m.entries.map fun e => (e.1, f e.2))) m :=
  .map (List.forall₂_map_left_iff.2 (List.forall₂_same.2 fun e _ => ⟨rfl, h e.2⟩))

theorem depth_object_map_le {f : α → Json} {n : ℕ} (h : ∀ x, (f x).depth ≤ n) (es : Entries α) :
    (Json.object (es.map fun e => (e.1, f e.2))).depth ≤ n + 1 :=
  Nat.succ_le_succ (membersDepth_le_iff.2 (List.forall_mem_map.2 fun e _ => h e.2))

end Members

/-! ### Values of any shape -/

mutual

/-- Integers of 64 bits for numbers, and no key twice in an object. -/
def IsStorable : Json → Prop
  | .number (.integer n) => IsExact n
  | .number (.real _) => False
  | .array xs => ItemsStorable xs
  | .object ms => (Entries.keys ms).Nodup ∧ MembersStorable ms
  | _ => True

def ItemsStorable : List Json → Prop
  | [] => True
  | x :: xs => IsStorable x ∧ ItemsStorable xs

def MembersStorable : List (String × Json) → Prop
  | [] => True
  | (_, v) :: ms => IsStorable v ∧ MembersStorable ms

end

theorem reads_scalar {v : Json} (hv : v.IsFinite)
    (h : ∀ rest, Ends rest → ∃ c cs, v.write rest = c :: cs ∧ isBlank c = false ∧
      scalar? c cs = some (.ok (v, rest))) : Reads value v v where
  isFinite := hv
  read {room rest} _ hrest := by
    obtain ⟨c, cs, hwrite, hblank, hread⟩ := h rest hrest
    unfold value
    rw [hwrite, skipBlanks_cons_of_not_blank hblank]
    simp only [hread]

theorem reads_array {xs : List Json} (h : List.Forall₂ (Reads value) xs xs) :
    Reads value (.array xs) (.array xs) :=
  reads_of_bracket (itemsFinite_of_reads h) rfl fun room rest hroom => by
    have hitems : items (value room) _ = _ := (turns_items h hroom rest false []).iterate_eq
    rw [write_array]
    show Except.map _ (items (value room) _) = _
    rw [hitems]
    rfl

theorem reads_object {ms : Entries Json} (hkeys : (Entries.keys ms).Nodup)
    (h : List.Forall₂ (ReadsMember value) ms ms) : Reads value (.object ms) (.object ms) :=
  reads_of_bracket (membersFinite_of_reads h) rfl fun room rest hroom => by
    have hmembers : members (value room) _ = _ :=
      (turns_members h hroom rest false .empty ⟨ms, hkeys⟩ rfl).iterate_eq
    rw [write_object]
    show Except.map _ (members (value room) _) = _
    rw [hmembers]
    rfl

mutual

/-- **Values of any shape read back.** -/
theorem reads_value : ∀ {v : Json}, v.IsStorable → Reads value v v
  | .null, _ => reads_scalar trivial fun _ _ => ⟨'n', _, rfl, rfl, rfl⟩
  | .bool true, _ => reads_scalar trivial fun _ _ => ⟨'t', _, rfl, rfl, rfl⟩
  | .bool false, _ => reads_scalar trivial fun _ _ => ⟨'f', _, rfl, rfl, rfl⟩
  | .number (.integer _), hn => reads_scalar trivial fun _ hrest => scalar?_integerText hn hrest
  | .string s, _ => reads_scalar trivial fun rest _ => ⟨'"', _, write_string s rest, rfl, by
      show some (Except.map _ (stringBody _)) = _
      rw [stringBody_quoted]
      rfl⟩
  | .array _, h => reads_array (reads_items h)
  | .object _, h => reads_object h.1 (reads_members h.2)

theorem reads_items : ∀ {xs : List Json}, ItemsStorable xs → List.Forall₂ (Reads value) xs xs
  | [], _ => .nil
  | _ :: _, h => .cons (reads_value h.1) (reads_items h.2)

theorem reads_members : ∀ {ms : Entries Json}, MembersStorable ms →
    List.Forall₂ (ReadsMember value) ms ms
  | [], _ => .nil
  | (_, _) :: _, h => .cons ⟨rfl, reads_value h.1⟩ (reads_members h.2)

end

/-! ### Records -/

/-- Values for some fields, first to last, fill the empty slots of a draft. -/
inductive Fills {σ : Type} : List (Field σ) → σ → Entries Json → σ → Prop where
  | nil {draft : σ} : Fills [] draft [] draft
  | cons {draft out : σ} {f : Field σ} {fs : List (Field σ)} {v : Json} {a : f.Value} {ms : Entries Json} :
      f.get draft = none → Reads f.reader v a → Fills fs (f.set a draft) ms out →
      Fills (f :: fs) draft ((f.name, v) :: ms) out

theorem Fills.membersFinite {σ : Type} {fs : List (Field σ)} {draft out : σ} {ms : Entries Json}
    (h : Fills fs draft ms out) : MembersFinite ms := by
  induction h with
  | nil => trivial
  | cons _ hv _ ih => exact ⟨hv.isFinite, ih⟩

theorem find?_name {σ : Type} {f : Field σ} {fs : List (Field σ)} (hnames : (fs.map Field.name).Nodup)
    (hf : f ∈ fs) : fs.find? (·.name == f.name) = some f := by
  induction fs with
  | nil => cases hf
  | cons g gs ih =>
    rw [List.map_cons, List.nodup_cons] at hnames
    rcases List.mem_cons.1 hf with rfl | hf
    · exact List.find?_cons_of_pos (beq_self_eq_true f.name)
    · have hne : g.name ≠ f.name := fun h => hnames.1 (h ▸ List.mem_map_of_mem hf)
      rw [List.find?_cons_of_neg (by rwa [beq_iff_eq]), ih hnames.2 hf]

namespace Record

variable {σ α : Type} (r : Record σ α)

theorem turns_fills (hnames : (r.fields.map Field.name).Nodup) {fs : List (Field σ)} {draft out : σ}
    {ms : Entries Json} (h : Fills fs draft ms out) (hfs : fs ⊆ r.fields)
    (hfull : r.fields.find? (isMissing out) = none) {room : ℕ} (hdepth : membersDepth ms ≤ room)
    (rest : List Char) : ∀ begun : Bool,
      Turns (r.memberStep room) (begun, draft) (membersText begun ms rest) out rest := by
  induction h with
  | nil =>
    intro begun
    refine .done ?_
    unfold memberStep
    simp only [nextKey_membersText_nil, bind, Except.bind, hfull]
    rfl
  | @cons draft out f fs v a ms hslot hv _ ih =>
    intro begun
    rw [membersDepth, Nat.max_le] at hdepth
    obtain ⟨hmem, hfs⟩ := List.cons_subset.1 hfs
    have hfield := find?_name hnames hmem
    have hread := hv.read hdepth.1 (ends_writeMembers ms rest)
    have hempty : (f.get draft).isSome = false := by rw [hslot, Option.isSome_none]
    have hstep : r.memberStep room (begun, draft) (membersText begun ((f.name, v) :: ms) rest) =
        .ok (.next (true, f.set a draft), membersText true ms rest) := by
      unfold memberStep
      simp only [nextKey_membersText_cons, bind, Except.bind, hfield, hempty, colon_cons, hread]
      rfl
    exact .next hstep (length_lt_membersText begun hv.isFinite ms rest) (ih hfs hfull hdepth.2 true)

/-- **A record with a value for each of its fields is read as what they fill its draft with.** -/
theorem reads (out : σ) (hnames : (r.fields.map Field.name).Nodup)
    (hfull : r.fields.find? (isMissing out) = none) {ms : Entries Json}
    (h : Fills r.fields r.blank ms out) : Reads r.reader (.object ms) (r.finish out) :=
  reads_of_bracket h.membersFinite rfl fun room rest hroom => by
    have hdraft : r.objectForm room _ = _ :=
      (r.turns_fills hnames h (List.Subset.refl _) hfull hroom rest false).iterate_eq
    rw [write_object]
    show Except.map _ (r.objectForm room _) = _
    rw [hdraft]
    rfl

end Record

end TemplateLinker.Json
