import Mathlib.Tactic.SplitIfs
import TemplateLinker.Json.Reader

/-!
# Proofs.Json.DistinctKeys — no key stands twice in what is read

A repeated key keeps its place and takes the last value, so in a value that was read, no object has a key
twice, however deep it stands (`hasDistinctKeys_of_parse`).  What the turns of a loop keep, its result has
(`of_iterate_eq_ok`).
-/

namespace TemplateLinker.Json

mutual

/-- No object in a value has a key twice. -/
def HasDistinctKeys : Json → Prop
  | .array xs => ItemsHaveDistinctKeys xs
  | .object ms => (Entries.keys ms).Nodup ∧ MembersHaveDistinctKeys ms
  | _ => True

def ItemsHaveDistinctKeys : List Json → Prop
  | [] => True
  | x :: xs => HasDistinctKeys x ∧ ItemsHaveDistinctKeys xs

def MembersHaveDistinctKeys : List (String × Json) → Prop
  | [] => True
  | (_, v) :: ms => HasDistinctKeys v ∧ MembersHaveDistinctKeys ms

end

theorem itemsHaveDistinctKeys_iff {xs : List Json} :
    ItemsHaveDistinctKeys xs ↔ ∀ x ∈ xs, x.HasDistinctKeys := by
  induction xs with
  | nil => simp [ItemsHaveDistinctKeys]
  | cons x xs ih => simp [ItemsHaveDistinctKeys, ih]

theorem membersHaveDistinctKeys_iff {ms : Entries Json} :
    MembersHaveDistinctKeys ms ↔ ∀ m ∈ ms, m.2.HasDistinctKeys := by
  induction ms with
  | nil => simp [MembersHaveDistinctKeys]
  | cons m ms ih => simp [MembersHaveDistinctKeys, ih]

/-- The keys of an object, none of any other value. -/
def keys (v : Json) : List String := Entries.keys (v.members?.getD [])

theorem HasDistinctKeys.nodup_keys {v : Json} (h : v.HasDistinctKeys) : v.keys.Nodup := by
  cases v with
  | object ms => exact h.1
  | _ => exact List.nodup_nil

theorem HasDistinctKeys.get? {v w : Json} {k : String} (h : v.HasDistinctKeys) (hw : v.get? k = some w) :
    w.HasDistinctKeys := by
  cases v with
  | object ms => exact membersHaveDistinctKeys_iff.1 h.2 _ (Entries.mem_of_get?_eq_some hw)
  | _ => cases hw

/-! ### Loops -/

theorem bind_eq_ok {α β : Type} {x : Except Failure α} {f : α → Except Failure β} {b : β} :
    x >>= f = .ok b ↔ ∃ a, x = .ok a ∧ f a = .ok b := by
  cases x with
  | error e => simp [bind, Except.bind]
  | ok a => simp [bind, Except.bind]

theorem map_eq_ok {α β : Type} {x : Except Failure α} {f : α → β} {b : β} :
    x.map f = .ok b ↔ ∃ a, x = .ok a ∧ f a = b := by
  cases x with
  | error e => simp [Except.map]
  | ok a => simp [Except.map]

/-- What the turns of a loop keep, its result has. -/
theorem of_iterate_eq_ok {σ α : Type} {step : σ → Read (Turn σ α)} (Kept : σ → Prop) (Has : α → Prop)
    (hnext : ∀ {state state' : σ} {cs mid : List Char}, Kept state →
      step state cs = .ok (.next state', mid) → Kept state')
    (hdone : ∀ {state : σ} {cs rest : List Char} {a : α}, Kept state →
      step state cs = .ok (.done a, rest) → Has a)
    {state : σ} (hstate : Kept state) {cs rest : List Char} {a : α}
    (h : iterate step state cs = .ok (a, rest)) : Has a := by
  unfold iterate at h
  generalize ' ' :: cs = clock at h
  induction clock generalizing state cs with
  | nil => cases h
  | cons _ clock ih =>
    rw [iterateFor] at h
    split at h
    · cases h
    · next b mid hs =>
      cases h
      exact hdone hstate hs
    · next state' mid hs => exact ih (hnext hstate hs) h

section Loops

variable {α : Type} {read : Read α} {cs rest : List Char}

theorem itemsStep_cases {state : Bool × List α} {turn : Turn (Bool × List α) (List α)}
    (h : itemsStep read state cs = .ok (turn, rest)) :
    (∃ x mid, read mid = .ok (x, rest) ∧ turn = .next (true, x :: state.2)) ∨
      turn = .done state.2.reverse := by
  obtain ⟨⟨more, mid⟩, -, h⟩ := bind_eq_ok.1 h
  cases more with
  | true =>
    obtain ⟨⟨x, mid'⟩, hx, h⟩ := bind_eq_ok.1 h
    cases h
    exact .inl ⟨x, mid, hx, rfl⟩
  | false =>
    obtain ⟨⟨_, mid'⟩, -, h⟩ := bind_eq_ok.1 h
    cases h
    exact .inr rfl

theorem membersStep_cases {state : Bool × OrderedMap α} {turn : Turn (Bool × OrderedMap α) (OrderedMap α)}
    (h : membersStep read state cs = .ok (turn, rest)) :
    (∃ k v mid, read mid = .ok (v, rest) ∧ turn = .next (true, state.2.insert k v)) ∨
      turn = .done state.2 := by
  obtain ⟨⟨key, mid⟩, -, h⟩ := bind_eq_ok.1 h
  cases key with
  | some k =>
    obtain ⟨⟨_, mid'⟩, -, h⟩ := bind_eq_ok.1 h
    obtain ⟨⟨v, mid''⟩, hv, h⟩ := bind_eq_ok.1 h
    cases h
    exact .inl ⟨k, v, mid', hv, rfl⟩
  | none =>
    obtain ⟨⟨_, mid'⟩, -, h⟩ := bind_eq_ok.1 h
    cases h
    exact .inr rfl

variable {Good : α → Prop}
  (hread : ∀ {cs : List Char} {a : α} {rest : List Char}, read cs = .ok (a, rest) → Good a)

include hread

theorem good_of_items {xs : List α} (h : items read cs = .ok (xs, rest)) : ∀ x ∈ xs, Good x := by
  refine of_iterate_eq_ok (fun state : Bool × List α => ∀ x ∈ state.2, Good x) (fun xs => ∀ x ∈ xs, Good x)
    ?_ ?_ (fun x hx => absurd hx List.not_mem_nil) h
  · intro state state' cs mid hstate h
    rcases itemsStep_cases h with ⟨x, _, hx, hturn⟩ | hturn
    · cases hturn
      exact List.forall_mem_cons.2 ⟨hread hx, hstate⟩
    · cases hturn
  · intro state cs rest xs hstate h
    rcases itemsStep_cases h with ⟨_, _, _, hturn⟩ | hturn
    · cases hturn
    · cases hturn
      exact fun x hx => hstate x (List.mem_reverse.1 hx)

theorem good_of_members {ms : OrderedMap α} (h : members read cs = .ok (ms, rest)) :
    ∀ m ∈ ms.entries, Good m.2 := by
  refine of_iterate_eq_ok (fun state : Bool × OrderedMap α => ∀ m ∈ state.2.entries, Good m.2)
    (fun ms => ∀ m ∈ ms.entries, Good m.2) ?_ ?_ (fun m hm => absurd hm List.not_mem_nil) h
  · intro state state' cs mid hstate h
    rcases membersStep_cases h with ⟨k, v, _, hv, hturn⟩ | hturn
    · cases hturn
      intro m hm
      rcases Entries.mem_put hm with rfl | hm
      · exact hread hv
      · exact hstate m hm
    · cases hturn
  · intro state cs rest xs hstate h
    rcases membersStep_cases h with ⟨_, _, _, _, hturn⟩ | hturn
    · cases hturn
    · cases hturn
      exact hstate

end Loops

/-! ### Values -/

theorem hasDistinctKeys_of_scalar? {c : Char} {cs rest : List Char} {v : Json}
    (h : scalar? c cs = some (.ok (v, rest))) : v.HasDistinctKeys := by
  unfold scalar? at h
  split_ifs at h
  all_goals
    obtain ⟨a, -, ha⟩ := map_eq_ok.1 (Option.some.inj h)
    cases ha
    trivial

/-- A value is a scalar, or an array or object inside which one bracket less may be opened. -/
theorem value_cases {room : Nat} {cs rest : List Char} {v : Json} (h : value room cs = .ok (v, rest)) :
    (∃ c mid, scalar? c mid = some (.ok (v, rest))) ∨
      (∃ n xs mid, room = n + 1 ∧ items (value n) mid = .ok (xs, rest) ∧ v = .array xs) ∨
        ∃ n ms mid, room = n + 1 ∧ members (value n) mid = .ok (ms, rest) ∧ v = .object ms.entries := by
  unfold value at h
  split at h
  · cases h
  · next c mid _ =>
    split at h
    · next hscalar => exact .inl ⟨c, mid, hscalar.trans (congrArg some h)⟩
    · split at h
      · cases h
      · next n =>
        split_ifs at h
        · obtain ⟨⟨xs, _⟩, hxs, hv⟩ := map_eq_ok.1 h
          cases hv
          exact .inr (.inl ⟨n, xs, mid, rfl, hxs, rfl⟩)
        · obtain ⟨⟨ms, _⟩, hms, hv⟩ := map_eq_ok.1 h
          cases hv
          exact .inr (.inr ⟨n, ms, mid, rfl, hms, rfl⟩)

theorem hasDistinctKeys_of_value {room : Nat} {cs rest : List Char} {v : Json}
    (h : value room cs = .ok (v, rest)) : v.HasDistinctKeys := by
  induction room generalizing cs v rest with
  | zero =>
    obtain ⟨c, mid, hscalar⟩ | ⟨n, _, _, hn, -⟩ | ⟨n, _, _, hn, -⟩ := value_cases h
    · exact hasDistinctKeys_of_scalar? hscalar
    · cases hn
    · cases hn
  | succ room ih =>
    obtain ⟨c, mid, hscalar⟩ | ⟨n, xs, mid, hn, hxs, rfl⟩ | ⟨n, ms, mid, hn, hms, rfl⟩ := value_cases h
    · exact hasDistinctKeys_of_scalar? hscalar
    · cases hn
      exact itemsHaveDistinctKeys_iff.2 (good_of_items ih hxs)
    · cases hn
      exact ⟨ms.nodup_keys, membersHaveDistinctKeys_iff.2 (good_of_members ih hms)⟩

/-- **Values that are read have distinct keys.** -/
theorem hasDistinctKeys_of_parse {text : String} {v : Json} (h : parse text = .ok v) :
    v.HasDistinctKeys := by
  obtain ⟨⟨w, rest⟩, hw, h⟩ := bind_eq_ok.1 h
  simp only at h
  split_ifs at h
  cases h
  exact hasDistinctKeys_of_value hw

end TemplateLinker.Json
