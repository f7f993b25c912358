/-!
# OrderedMap — keyed entries in the order of their first insertion

`Entries.put` replaces a value where its key stands and appends a new key at the end; `OrderedMap`
holds entries in which no key occurs twice.  The two views are `keys` (what the order is) and `get?`
(what a key holds): `keys_put` and `get?_put` say what a write does to each.
-/

namespace TemplateLinker

universe u

/-- Keyed values in order. -/
abbrev Entries (α : Type u) := List (String × α)

namespace Entries

variable {α : Type u}

def keys (es : Entries α) : List String := es.map Prod.fst

/-- The value of the first entry under `k`. -/
def get? (k : String) : Entries α → Option α
  | [] => none
  | (k', v) :: es => if k' = k then some v else get? k es

/-- Replaces the value of `k` where it stands; a new key goes to the end. -/
def put (k : String) (v : α) : Entries α → Entries α
  | [] => [(k, v)]
  | (k', v') :: es => if k' = k then (k, v) :: es else (k', v') :: put k v es

/-- Changes the value under `k`, if there is one. -/
def modify (k : String) (f : α → α) (es : Entries α) : Entries α :=
  match get? k es with
  | some v => put k (f v) es
  | none => es

/-- Writes all of `new` into `es`, first to last. -/
def putAll (new es : Entries α) : Entries α := new.foldl (fun acc e => put e.1 e.2 acc) es

@[simp] theorem keys_nil : keys ([] : Entries α) = [] := rfl

@[simp] theorem keys_cons (e : String × α) (es : Entries α) : keys (e :: es) = e.1 :: keys es := rfl

@[simp] theorem keys_append (es fs : Entries α) : keys (es ++ fs) = keys es ++ keys fs :=
  List.map_append

@[simp] theorem get?_nil (k : String) : get? k ([] : Entries α) = none := rfl

theorem get?_cons (k : String) (e : String × α) (es : Entries α) :
    get? k (e :: es) = if e.1 = k then some e.2 else get? k es := rfl

theorem get?_eq_none_iff {k : String} {es : Entries α} : get? k es = none ↔ k ∉ keys es := by
  induction es with
  | nil => simp
  | cons e es ih =>
    rw [get?_cons]
    by_cases h : e.1 = k
    · simp [h]
    · simp [h, ih, Ne.symm h]

theorem mem_of_get?_eq_some {k : String} {v : α} {es : Entries α} (h : get? k es = some v) : (k, v) ∈ es := by
  induction es with
  | nil => cases h
  | cons e es ih =>
    rw [get?_cons] at h
    split at h
    · next hk =>
      rw [← hk, ← Option.some.inj h]
      exact List.mem_cons_self
    · exact List.mem_cons_of_mem e (ih h)

theorem get?_append_of_not_mem {k : String} {es : Entries α} (h : k ∉ keys es) (fs : Entries α) :
    get? k (es ++ fs) = get? k fs := by
  induction es with
  | nil => rfl
  | cons e es ih =>
    rw [keys_cons, List.mem_cons, not_or] at h
    rw [List.cons_append, get?_cons, if_neg (Ne.symm h.1), ih h.2]

theorem get?_filter_ne (k k' : String) (es : Entries α) :
    get? k (es.filter fun e => e.1 ≠ k') = if k = k' then none else get? k es := by
  induction es with
  | nil => simp
  | cons e es ih =>
    by_cases he : e.1 = k'
    · rw [List.filter_cons_of_neg (by simpa using he), ih, get?_cons]
      by_cases hk : k = k'
      · rw [if_pos hk, if_pos hk]
      · rw [if_neg hk, if_neg hk, if_neg fun h => hk (h.symm.trans he)]
    · rw [List.filter_cons_of_pos (by simpa using he), get?_cons, get?_cons, ih]
      by_cases hk : k = k'
      · rw [if_pos hk, if_pos hk, if_neg fun h => he (h.trans hk)]
      · rw [if_neg hk, if_neg hk]

theorem keys_put (k : String) (v : α) (es : Entries α) :
    keys (put k v es) = if k ∈ keys es then keys es else keys es ++ [k] := by
  induction es with
  | nil => simp [put]
  | cons e es ih =>
    obtain ⟨k', v'⟩ := e
    by_cases h : k' = k
    · simp [put, h]
    · have h' : k ≠ k' := Ne.symm h
      by_cases hk : k ∈ keys es
      · simp [put, h, h', ih, hk]
      · simp [put, h, h', ih, hk]

theorem put_of_not_mem {k : String} {es : Entries α} (h : k ∉ keys es) (v : α) :
    put k v es = es ++ [(k, v)] := by
  induction es with
  | nil => rfl
  | cons e es ih =>
    rw [keys_cons, List.mem_cons, not_or] at h
    rw [put, if_neg (Ne.symm h.1), ih h.2, List.cons_append]

theorem get?_put (k k' : String) (v : α) (es : Entries α) :
    get? k' (put k v es) = if k = k' then some v else get? k' es := by
  induction es with
  | nil => simp [put, get?_cons]
  | cons e es ih =>
    obtain ⟨k₁, v₁⟩ := e
    by_cases h : k₁ = k
    · subst h
      by_cases hk : k₁ = k' <;> simp [put, get?_cons, hk]
    · by_cases hk : k₁ = k'
      · subst hk
        simp [put, get?_cons, h, Ne.symm h]
      · simp [put, get?_cons, h, hk, ih]

theorem mem_put {k : String} {v : α} {e : String × α} {es : Entries α} (h : e ∈ put k v es) :
    e = (k, v) ∨ e ∈ es := by
  induction es with
  | nil => exact .inl (List.mem_singleton.1 h)
  | cons e' es ih =>
    rw [put] at h
    split at h
    · exact (List.mem_cons.1 h).imp_right (List.mem_cons_of_mem e')
    · rcases List.mem_cons.1 h with rfl | h
      · exact .inr List.mem_cons_self
      · exact (ih h).imp_right (List.mem_cons_of_mem e')

theorem nodup_keys_put {k : String} {v : α} {es : Entries α} (h : (keys es).Nodup) :
    (keys (put k v es)).Nodup := by
  rw [keys_put]
  split
  · exact h
  · next hk =>
    rw [List.nodup_append]
    refine ⟨h, by simp, ?_⟩
    intro a ha b hb hab
    simp only [List.mem_singleton] at hb
    exact hk (hb ▸ hab ▸ ha)

theorem nodup_keys_putAll {new es : Entries α} (h : (keys es).Nodup) :
    (keys (putAll new es)).Nodup := by
  induction new generalizing es with
  | nil => exact h
  | cons e new ih => exact ih (nodup_keys_put h)

/-- Keys in their order and the value of each key are all there is. -/
theorem eq_of_get?_eq {es fs : Entries α} (hes : (keys es).Nodup) (hkeys : keys es = keys fs)
    (hget : ∀ k, get? k es = get? k fs) : es = fs := by
  induction es generalizing fs with
  | nil => exact (List.map_eq_nil_iff.1 hkeys.symm).symm
  | cons e es ih =>
    cases fs with
    | nil => cases hkeys
    | cons f fs =>
      rw [keys_cons, keys_cons] at hkeys
      obtain ⟨hkey, hkeys⟩ := List.cons.inj hkeys
      obtain ⟨he, hes⟩ := List.nodup_cons.1 hes
      have hvalue : some e.2 = some f.2 := by
        have h := hget e.1
        rwa [get?_cons, get?_cons, if_pos rfl, if_pos hkey.symm] at h
      have hrest : es = fs := ih hes hkeys fun k => by
        by_cases hk : e.1 = k
        · subst hk
          have hf : e.1 ∉ keys fs := hkeys ▸ he
          rw [get?_eq_none_iff.2 he, get?_eq_none_iff.2 hf]
        · have h := hget k
          rwa [get?_cons, get?_cons, if_neg hk, if_neg (hkey ▸ hk)] at h
      rw [Prod.ext hkey (Option.some.inj hvalue), hrest]

/-- New keys go to the end in their order. -/
theorem keys_putAll {new : Entries α} (h : (keys new).Nodup) (es : Entries α) :
    keys (putAll new es) = keys es ++ (keys new).filter (· ∉ keys es) := by
  induction new generalizing es with
  | nil => simp [putAll]
  | cons e new ih =>
    obtain ⟨he, hnew⟩ := List.nodup_cons.1 h
    have hput : putAll (e :: new) es = putAll new (put e.1 e.2 es) := rfl
    rw [hput, ih hnew, keys_put]
    by_cases hmem : e.1 ∈ keys es
    · simp [hmem]
    · have hfilter : (keys new).filter (· ∉ keys es ++ [e.1]) = (keys new).filter (· ∉ keys es) := by
        refine List.filter_congr fun k hk => ?_
        have hne : k ≠ e.1 := fun h => he (h ▸ hk)
        simp [hne]
      rw [if_neg hmem, hfilter]
      simp [hmem]

/-- What is written covers what was there. -/
theorem get?_putAll {new : Entries α} (h : (keys new).Nodup) (k : String) (es : Entries α) :
    get? k (putAll new es) = (get? k new).or (get? k es) := by
  induction new generalizing es with
  | nil => rfl
  | cons e new ih =>
    obtain ⟨he, hnew⟩ := List.nodup_cons.1 h
    have hput : putAll (e :: new) es = putAll new (put e.1 e.2 es) := rfl
    rw [hput, ih hnew, get?_put, get?_cons]
    by_cases hk : e.1 = k
    · subst hk
      rw [if_pos rfl, if_pos rfl, get?_eq_none_iff.2 he]
      rfl
    · rw [if_neg hk, if_neg hk]

end Entries

/-- A map that keeps its keys in the order of their first insertion. -/
structure OrderedMap (α : Type u) where
  entries : Entries α
  nodup_keys : (Entries.keys entries).Nodup

namespace OrderedMap

variable {α : Type u}

theorem ext {m n : OrderedMap α} (h : m.entries = n.entries) : m = n := by
  cases m
  cases n
  subst h
  rfl

def empty : OrderedMap α := ⟨[], List.nodup_nil⟩

instance : Inhabited (OrderedMap α) := ⟨empty⟩

instance : EmptyCollection (OrderedMap α) := ⟨empty⟩

def keys (m : OrderedMap α) : List String := Entries.keys m.entries

def size (m : OrderedMap α) : Nat := m.entries.length

def isEmpty (m : OrderedMap α) : Bool := m.entries.isEmpty

def get? (m : OrderedMap α) (k : String) : Option α := Entries.get? k m.entries

def insert (m : OrderedMap α) (k : String) (v : α) : OrderedMap α :=
  ⟨Entries.put k v m.entries, Entries.nodup_keys_put m.nodup_keys⟩

/-- Inserts the entries of `es`, first to last. -/
def insertAll (m : OrderedMap α) (es : Entries α) : OrderedMap α :=
  ⟨Entries.putAll es m.entries, Entries.nodup_keys_putAll m.nodup_keys⟩

def ofEntries (es : Entries α) : OrderedMap α := empty.insertAll es

theorem keys_insert (m : OrderedMap α) (k : String) (v : α) :
    (m.insert k v).keys = if k ∈ m.keys then m.keys else m.keys ++ [k] :=
  Entries.keys_put k v m.entries

theorem get?_insert (m : OrderedMap α) (k k' : String) (v : α) :
    (m.insert k v).get? k' = if k = k' then some v else m.get? k' :=
  Entries.get?_put k k' v m.entries

theorem get?_eq_none_iff {m : OrderedMap α} {k : String} : m.get? k = none ↔ k ∉ m.keys :=
  Entries.get?_eq_none_iff

theorem eq_of_get?_eq {m n : OrderedMap α} (hkeys : m.keys = n.keys) (hget : ∀ k, m.get? k = n.get? k) :
    m = n :=
  ext (Entries.eq_of_get?_eq m.nodup_keys hkeys hget)

section insertAll

variable {es : Entries α} (h : (Entries.keys es).Nodup) (m : OrderedMap α)

include h

theorem keys_insertAll : (m.insertAll es).keys = m.keys ++ (Entries.keys es).filter (· ∉ m.keys) :=
  Entries.keys_putAll h m.entries

theorem get?_insertAll (k : String) : (m.insertAll es).get? k = (Entries.get? k es).or (m.get? k) :=
  Entries.get?_putAll h k m.entries

/-- Inserting the same entries once more changes nothing, nor does it move a key. -/
theorem insertAll_insertAll : (m.insertAll es).insertAll es = m.insertAll es := by
  refine eq_of_get?_eq ?_ fun k => ?_
  · have hnone : (Entries.keys es).filter (· ∉ (m.insertAll es).keys) = [] := by
      refine List.filter_eq_nil_iff.2 fun k hk => ?_
      rw [keys_insertAll h]
      by_cases hmem : k ∈ m.keys
      · simp [hmem]
      · simp [hmem, hk]
    rw [keys_insertAll h, hnone, List.append_nil]
  · rw [get?_insertAll h, get?_insertAll h, ← Option.or_assoc, Option.or_self]

end insertAll

end OrderedMap

end TemplateLinker
