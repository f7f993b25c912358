import TemplateLinker.Proofs.Json.UniqueReading
import Mathlib.Data.List.Forall2

/-!
# Proofs.Json.Objects — the objects of a value, in the order of its text

`objects` lists the objects of a value, each in front of those inside it.  A scan of a text stops at the
braces that open outside strings (`Scan.openings`).  Strings, with all that they quote, and numerals are
passed over, so what the scan of the compact text of a value stops at are the objects of the value, one
for one and in order (`begins_openings_text`).
-/

namespace TemplateLinker.Json

open Text.Quoted

/-! ### The objects of a value -/

mutual

/-- The members of the objects of a value, an object in front of those inside it. -/
def objects : Json → List (Entries Json)
  | .array items => itemObjects items
  | .object ms => ms :: memberObjects ms
  | _ => []

def itemObjects : List Json → List (Entries Json)
  | [] => []
  | x :: xs => objects x ++ itemObjects xs

def memberObjects : Entries Json → List (Entries Json)
  | [] => []
  | (_, v) :: ms => objects v ++ memberObjects ms

end

theorem memberObjects_append (ms ns : Entries Json) :
    memberObjects (ms ++ ns) = memberObjects ms ++ memberObjects ns := by
  induction ms with
  | nil => rfl
  | cons m ms ih => rw [List.cons_append, memberObjects, memberObjects, ih, List.append_assoc]

theorem itemObjects_map {α : Type} (f : α → Json) (xs : List α) :
    itemObjects (xs.map f) = xs.flatMap fun x => (f x).objects := by
  induction xs with
  | nil => rfl
  | cons x xs ih => rw [List.map_cons, itemObjects, ih, List.flatMap_cons]

theorem objects_strings (ss : List String) : (Json.strings ss).objects = [] := by
  have hnone : ∀ s ∈ ss, (Json.string s).objects = [] := fun _ _ => rfl
  rw [strings, objects, itemObjects_map, List.flatMap_eq_nil_iff]
  exact hnone

/-! ### Scanning a text for braces -/

/-- Where a scan stands: outside strings, inside one, or there behind a backslash. -/
inductive Scan where
  | outside
  | inString
  | escaped
  deriving DecidableEq

namespace Scan

def step : Scan → Char → Scan
  | .outside, c => if c = '"' then .inString else .outside
  | .inString, c => if c = '"' then .outside else if c = '\\' then .escaped else .inString
  | .escaped, _ => .inString

/-- The ends of a text that begin with a brace outside strings. -/
def openings : Scan → List Char → List (List Char)
  | _, [] => []
  | s, c :: cs =>
    if s = .outside ∧ c = '\x7b' then (c :: cs) :: openings (s.step c) cs else openings (s.step c) cs

/-- No character that opens an object or begins a string. -/
def Passed (s : List Char) : Prop := ∀ c ∈ s, c ≠ '"' ∧ c ≠ '\x7b'

instance (s : List Char) : Decidable (Passed s) := List.decidableBAll _ s

theorem openings_passed {s : List Char} (hs : Passed s) (rest : List Char) :
    openings .outside (s ++ rest) = openings .outside rest := by
  induction s with
  | nil => rfl
  | cons c s ih =>
    obtain ⟨hquote, hbrace⟩ := hs c List.mem_cons_self
    rw [List.cons_append, openings, if_neg (fun h => hbrace h.2), step, if_neg hquote]
    exact ih fun d hd => hs d (List.mem_cons_of_mem c hd)

/-- Inside a string, what is neither its end nor a backslash is passed over. -/
theorem openings_quoted_char {c : Char} (hquote : c ≠ '"') (hslash : c ≠ '\\') (cs : List Char) :
    openings .inString (c :: cs) = openings .inString cs := by
  rw [openings, if_neg (fun h => nomatch h.1), step, if_neg hquote, if_neg hslash]

theorem digitChar_ne_quote : ∀ n < 16, Nat.digitChar n ≠ '"' ∧ Nat.digitChar n ≠ '\\' := by
  decide

theorem openings_hexDigit (n : ℕ) (cs : List Char) :
    openings .inString (hexDigit n :: cs) = openings .inString cs := by
  obtain ⟨hquote, hslash⟩ := digitChar_ne_quote (n % 16) (Nat.mod_lt _ (by omega))
  exact openings_quoted_char hquote hslash cs

/-- Whatever is escaped inside a string, the scan stays inside. -/
theorem openings_jsonEscape (c : Char) (rest : List Char) :
    openings .inString (jsonEscape c ++ rest) = openings .inString rest := by
  unfold jsonEscape
  split_ifs with hquote hslash
  · rfl
  · rfl
  · rfl
  · rfl
  · rfl
  · rfl
  · rfl
  · -- the two zeros are plain, the other two digits are those of the code point
    have hzeros : ∀ cs, openings .inString ('\\' :: 'u' :: '0' :: '0' :: cs) = openings .inString cs :=
      fun _ => rfl
    simp only [List.cons_append, List.nil_append, hzeros, openings_hexDigit]
  · exact openings_quoted_char hquote hslash rest

theorem openings_json (s rest : List Char) : openings .outside (json s ++ rest) = openings .outside rest := by
  have hbody : openings .inString (s.flatMap jsonEscape ++ '"' :: rest) = openings .outside rest := by
    induction s with
    | nil => rfl
    | cons c s ih => rw [List.flatMap_cons, List.append_assoc, openings_jsonEscape, ih]
  have hopen : openings .outside ('"' :: (s.flatMap jsonEscape ++ '"' :: rest)) =
      openings .inString (s.flatMap jsonEscape ++ '"' :: rest) := rfl
  rw [json_append]
  exact hopen.trans hbody

end Scan

/-! ### Where the objects of a value begin -/

/-- The text begins with the object that has these members. -/
def Begins (text : List Char) (ms : Entries Json) : Prop := ∃ rest, text = (Json.object ms).write rest

/-- In front of `rest`, the scan of `text` stops where these objects begin. -/
def Opens (text rest : List Char) (objs : List (Entries Json)) : Prop :=
  ∃ starts, Scan.openings .outside text = starts ++ Scan.openings .outside rest ∧
    List.Forall₂ Begins starts objs

namespace Opens

variable {text mid rest : List Char} {objs ns : List (Entries Json)}

theorem nil : Opens rest rest [] := ⟨[], rfl, .nil⟩

theorem passed (s : List Char) (hs : Scan.Passed s) :
    Opens text rest objs → Opens (s ++ text) rest objs := by
  rintro ⟨starts, ht, h⟩
  exact ⟨starts, (Scan.openings_passed hs text).trans ht, h⟩

theorem string (s : List Char) : Opens text rest objs → Opens (json s ++ text) rest objs := by
  rintro ⟨starts, hs, h⟩
  exact ⟨starts, (Scan.openings_json s text).trans hs, h⟩

theorem trans : Opens text mid objs → Opens mid rest ns → Opens text rest (objs ++ ns) := by
  rintro ⟨starts, hs, h⟩ ⟨more, hm, hn⟩
  refine ⟨starts ++ more, ?_, List.rel_append h hn⟩
  rw [hs, hm, List.append_assoc]

theorem object {ms : Entries Json} (hb : Begins ('\x7b' :: text) ms) :
    Opens text rest objs → Opens ('\x7b' :: text) rest (ms :: objs) := by
  rintro ⟨starts, hs, h⟩
  have hopen : Scan.openings .outside ('\x7b' :: text) =
      ('\x7b' :: text) :: Scan.openings .outside text := rfl
  refine ⟨('\x7b' :: text) :: starts, ?_, .cons hb h⟩
  rw [hopen, hs, List.cons_append]

theorem number {n : Number} (hn : n.IsFinite) : Opens (n.render ++ rest) rest [] := by
  have hpassed : Scan.Passed n.render := by
    intro c hc
    have hnumeral := Number.isNumeralChar_of_mem_render hn c hc
    refine ⟨?_, ?_⟩
    · rintro rfl
      exact absurd hnumeral (by decide)
    · rintro rfl
      exact absurd hnumeral (by decide)
  exact .passed _ hpassed .nil

end Opens

mutual

theorem opens_write : ∀ {v : Json} {rest : List Char}, v.IsFinite → Opens (v.write rest) rest v.objects
  | .null, _, _ => .passed ['n', 'u', 'l', 'l'] (by decide) .nil
  | .bool true, _, _ => .passed ['t', 'r', 'u', 'e'] (by decide) .nil
  | .bool false, _, _ => .passed ['f', 'a', 'l', 's', 'e'] (by decide) .nil
  | .number _, _, hv => .number hv
  | .string s, _, _ => .string s.toList .nil
  | .array [], _, _ => .passed ['[', ']'] (by decide) .nil
  | .array (_ :: _), _, hv => .passed ['['] (by decide) ((opens_write hv.1).trans (opens_writeItems hv.2))
  | .object [], rest, _ => .object ⟨rest, rfl⟩ (.passed ['\x7d'] (by decide) .nil)
  | .object ((k, _) :: _), rest, hv => .object ⟨rest, rfl⟩ (.string k.toList
      (.passed [':'] (by decide) ((opens_write hv.1).trans (opens_writeMembers hv.2))))

theorem opens_writeItems : ∀ {xs : List Json} {rest : List Char}, ItemsFinite xs →
    Opens (writeItems xs rest) rest (itemObjects xs)
  | [], _, _ => .passed [']'] (by decide) .nil
  | _ :: _, _, hx => .passed [','] (by decide) ((opens_write hx.1).trans (opens_writeItems hx.2))

theorem opens_writeMembers : ∀ {ms : Entries Json} {rest : List Char}, MembersFinite ms →
    Opens (writeMembers ms rest) rest (memberObjects ms)
  | [], _, _ => .passed ['\x7d'] (by decide) .nil
  | (k, _) :: _, _, hm => .passed [','] (by decide) (.string k.toList
      (.passed [':'] (by decide) ((opens_write hm.1).trans (opens_writeMembers hm.2))))

end

/-- **The objects of a value open in its text one after another, in the order in which they are listed.** -/
theorem begins_openings_text {v : Json} (hv : v.IsFinite) :
    List.Forall₂ Begins (Scan.openings .outside v.text.toList) v.objects := by
  have hopens : Opens (v.write []) [] v.objects := opens_write hv
  obtain ⟨starts, hs, h⟩ := hopens
  have hstarts : Scan.openings .outside v.text.toList = starts := by
    rw [text, String.toList_ofList, render, hs, Scan.openings, List.append_nil]
  rw [hstarts]
  exact h

example : (Scan.openings .outside "[\x7b\"\x7b\\\"\":\x7b\x7d\x7d]".toList).length = 2 := by
  decide +kernel

end TemplateLinker.Json
