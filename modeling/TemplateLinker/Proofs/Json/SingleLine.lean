import TemplateLinker.Proofs.Json.UniqueReading

/-!
# Proofs.Json.SingleLine — the compact text of a value stands on one line

Control characters stand in no compact text: strings escape them, and nothing else that is written has
any (`noControl_render`).  So the text of a value has no line break, whatever strings the value holds.
-/

namespace TemplateLinker

/-- No character below the space. -/
def NoControl (s : List Char) : Prop := ∀ c ∈ s, 0x20 ≤ c.toNat

instance (s : List Char) : Decidable (NoControl s) := List.decidableBAll _ s

namespace NoControl

theorem nil : NoControl [] := fun _ hc => absurd hc List.not_mem_nil

theorem cons {c : Char} {s : List Char} (hc : 0x20 ≤ c.toNat) (hs : NoControl s) : NoControl (c :: s) := by
  intro d hd
  rcases List.mem_cons.1 hd with rfl | hd
  · exact hc
  · exact hs d hd

theorem append {s t : List Char} (hs : NoControl s) (ht : NoControl t) : NoControl (s ++ t) := by
  intro c hc
  rcases List.mem_append.1 hc with hc | hc
  · exact hs c hc
  · exact ht c hc

theorem newline_not_mem {s : List Char} (h : NoControl s) : '\n' ∉ s := by
  intro hn
  have hle : 0x20 ≤ '\n'.toNat := h '\n' hn
  exact absurd hle (by decide)

end NoControl

namespace Json

open Text.Quoted

/-! ### Strings -/

theorem space_le_digitChar : ∀ n < 16, 0x20 ≤ (Nat.digitChar n).toNat := by
  decide

theorem space_le_hexDigit (n : ℕ) : 0x20 ≤ (hexDigit n).toNat :=
  space_le_digitChar _ (Nat.mod_lt _ (by omega))

/-- No escape has a control character, and what is not escaped is none. -/
theorem noControl_jsonEscape (c : Char) : NoControl (jsonEscape c) := by
  unfold jsonEscape
  split_ifs with _ _ _ _ _ _ _ hcontrol
  · decide
  · decide
  · decide
  · decide
  · decide
  · decide
  · decide
  · have hfixed : NoControl ['\\', 'u', '0', '0'] := by decide
    exact hfixed.append (.cons (space_le_hexDigit _) (.cons (space_le_hexDigit _) .nil))
  · exact .cons (Nat.le_of_not_lt hcontrol) .nil

theorem noControl_quoted (s : List Char) : NoControl (json s) := by
  have hbody : NoControl (s.flatMap jsonEscape) := by
    intro c hc
    obtain ⟨d, -, hd⟩ := List.mem_flatMap.1 hc
    exact noControl_jsonEscape d c hd
  exact .cons (by decide) (hbody.append (.cons (by decide) .nil))

/-! ### Values -/

theorem space_le_of_isNumeralChar {c : Char} (h : Binary64.isNumeralChar c) : 0x20 ≤ c.toNat := by
  rcases Bool.or_eq_true _ _ ▸ h with hdigit | hsign
  · have hzero : '0'.toNat ≤ c.toNat := (Char.isDigit_iff_toNat.1 hdigit).1
    have hspace : 0x20 ≤ '0'.toNat := by decide
    omega
  · have hmem : c = '.' ∨ c = 'e' ∨ c = '+' ∨ c = '-' := by
      simpa using List.contains_iff_mem.1 hsign
    rcases hmem with rfl | rfl | rfl | rfl <;> decide

mutual

theorem noControl_write : ∀ {v : Json} {rest : List Char}, v.IsFinite → NoControl rest →
    NoControl (v.write rest)
  | .null, _, _, h => .append (s := ['n', 'u', 'l', 'l']) (by decide) h
  | .bool true, _, _, h => .append (s := ['t', 'r', 'u', 'e']) (by decide) h
  | .bool false, _, _, h => .append (s := ['f', 'a', 'l', 's', 'e']) (by decide) h
  | .number _, _, hv, h => by
    have hnumber : NoControl (Number.render _) := fun c hc =>
      space_le_of_isNumeralChar (Number.isNumeralChar_of_mem_render hv c hc)
    exact hnumber.append h
  | .string s, _, _, h => (noControl_quoted s.toList).append h
  | .array [], _, _, h => .append (s := ['[', ']']) (by decide) h
  | .array (_ :: _), _, hv, h => .cons (by decide) (noControl_write hv.1 (noControl_writeItems hv.2 h))
  | .object [], _, _, h => .append (s := ['\x7b', '\x7d']) (by decide) h
  | .object ((k, _) :: _), _, hv, h => .cons (by decide) ((noControl_quoted k.toList).append
      (.cons (by decide) (noControl_write hv.1 (noControl_writeMembers hv.2 h))))

theorem noControl_writeItems : ∀ {xs : List Json} {rest : List Char}, ItemsFinite xs → NoControl rest →
    NoControl (writeItems xs rest)
  | [], _, _, h => .cons (by decide) h
  | _ :: _, _, hx, h => .cons (by decide) (noControl_write hx.1 (noControl_writeItems hx.2 h))

theorem noControl_writeMembers : ∀ {ms : List (String × Json)} {rest : List Char}, MembersFinite ms →
    NoControl rest → NoControl (writeMembers ms rest)
  | [], _, _, h => .cons (by decide) h
  | (k, _) :: _, _, hm, h => .cons (by decide) ((noControl_quoted k.toList).append
      (.cons (by decide) (noControl_write hm.1 (noControl_writeMembers hm.2 h))))

end

/-- **The compact text of a value has no control character**, so no line break either. -/
theorem noControl_render {v : Json} (hv : v.IsFinite) : NoControl v.render :=
  noControl_write hv .nil

end Json

end TemplateLinker
