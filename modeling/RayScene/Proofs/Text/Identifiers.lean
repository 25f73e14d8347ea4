import RayScene.Sdl.Identifier
set_option autoImplicit false

namespace RayScene.Sdl

/-- An identifier of the scene language: letters and digits of ASCII and underscores, at least one
of them, and no digit first. -/
def IsIdentifier (name : String) : Prop :=
  (∃ c ∈ name.toList.head?, c.isAlpha = true ∨ c = '_') ∧
    ∀ c ∈ name.toList, c.isAlphanum = true ∨ c = '_'

def identifierChar (c : Char) : Char := if isIdentifierChar c then c else '_'

section Identifiers

variable {c : Char} {name : String}

theorem isIdentifierChar_iff : isIdentifierChar c = true ↔ c.isAlphanum = true ∨ c = '_' := by
  simp [isIdentifierChar]

theorem isIdentifierChar_of_isDigit (h : c.isDigit = true) : isIdentifierChar c = true := by
  simp [isIdentifierChar, Char.isAlphanum, h]

theorem not_isDigit_of_isAlpha (h : c.isAlpha = true) : ¬c.isDigit = true := by
  intro hdigit
  obtain ⟨_, hnine⟩ := Char.isDigit_iff_toNat.mp hdigit
  have hletter : 'A'.toNat ≤ c.toNat := by
    rcases Bool.or_eq_true_iff.mp h with hupper | hlower
    · exact (show 'A'.toNat ≤ c.toNat ∧ c.toNat ≤ 'Z'.toNat from of_decide_eq_true hupper).1
    · have hsmall : 'a'.toNat ≤ c.toNat := of_decide_eq_true (Bool.and_eq_true_iff.mp hlower).1
      exact Nat.le_trans (by decide) hsmall
  exact absurd (Nat.le_trans hletter hnine) (by decide)

theorem isAlpha_or_underscore_iff (h : c.isAlphanum = true ∨ c = '_') :
    c.isAlpha = true ∨ c = '_' ↔ ¬c.isDigit = true := by
  constructor
  · rintro (halpha | rfl)
    · exact not_isDigit_of_isAlpha halpha
    · decide
  · intro hdigit
    exact h.imp_left fun halnum => (Bool.or_eq_true_iff.mp halnum).resolve_right hdigit

theorem identifierChar_of_isIdentifierChar (h : isIdentifierChar c = true) :
    identifierChar c = c := if_pos h

theorem isIdentifierChar_identifierChar (c : Char) :
    isIdentifierChar (identifierChar c) = true := by
  by_cases hchar : isIdentifierChar c = true
  · rwa [identifierChar_of_isIdentifierChar hchar]
  · rw [identifierChar, if_neg hchar]
    rfl

theorem isDigit_identifierChar (c : Char) : (identifierChar c).isDigit = c.isDigit := by
  by_cases hchar : isIdentifierChar c = true
  · rw [identifierChar_of_isIdentifierChar hchar]
  · have hdigit : ¬c.isDigit = true := fun h => hchar (isIdentifierChar_of_isDigit h)
    rw [identifierChar, if_neg hchar, Bool.eq_false_iff.mpr hdigit]
    rfl

/-- An underscore comes in front of an empty label and of one that begins with a digit, and nothing
else changes the number of characters. -/
theorem sanitizeChars_eq (label : List Char) : sanitizeChars label =
    (if label = [] ∨ label.head?.any Char.isDigit = true then ['_'] else []) ++
      label.map identifierChar := by
  cases label with
  | nil => rfl
  | cons c cs =>
    have hcons : sanitizeChars (c :: cs) = if (identifierChar c).isDigit
      then '_' :: (c :: cs).map identifierChar
      else (c :: cs).map identifierChar := rfl
    rw [hcons, isDigit_identifierChar]
    by_cases hdigit : c.isDigit = true <;> simp [hdigit]

theorem isIdentifierChar_of_mem_sanitize {label : String} (h : c ∈ (sanitize label).toList) :
    isIdentifierChar c = true := by
  rw [sanitize, String.toList_ofList, sanitizeChars_eq, List.mem_append] at h
  rcases h with hlead | hmap
  · split at hlead
    · rw [List.mem_singleton.mp hlead]
      rfl
    · cases hlead
  · obtain ⟨d, _, rfl⟩ := List.mem_map.mp hmap
    exact isIdentifierChar_identifierChar d

theorem isIdentifierChar_of_mem_meshIdentifier {label : String}
    (h : c ∈ (meshIdentifier label).toList) :
    isIdentifierChar c = true := by
  rw [meshIdentifier, String.toList_append, List.mem_append] at h
  rcases h with h | h
  · exact isIdentifierChar_of_mem_sanitize h
  · have hsuffix : "_mesh".toList.all isIdentifierChar = true := by decide
    exact List.all_eq_true.mp hsuffix c h

theorem map_suffix_sanitizeChars (label : List Char) :
    label.map identifierChar <:+ sanitizeChars label := by
  rw [sanitizeChars_eq]
  exact List.suffix_append _ _

theorem toList_sanitize_underscore (label : String) :
    (sanitize ("_" ++ label)).toList = '_' :: label.toList.map identifierChar := by
  simp [sanitize, sanitizeChars_eq, identifierChar, isIdentifierChar]

theorem length_sanitize (label : String) : (sanitize label).length =
    label.length + if label = "" ∨ label.toList.head?.any Char.isDigit = true then 1 else 0 := by
  simp only [sanitize, String.length_ofList, sanitizeChars_eq, List.length_append, List.length_map,
    String.length_toList, String.toList_eq_nil_iff]
  split <;> simp [Nat.add_comm]

theorem isIdentifier_iff : IsIdentifier name ↔ (∀ c ∈ name.toList, isIdentifierChar c = true) ∧
    ¬(name.toList = [] ∨ name.toList.head?.any Char.isDigit = true) := by
  simp only [IsIdentifier, isIdentifierChar_iff]
  cases name.toList with
  | nil => simp
  | cons c cs =>
    constructor
    · rintro ⟨⟨_, ⟨⟩, hc⟩, hall⟩
      refine ⟨hall, ?_⟩
      simpa using (isAlpha_or_underscore_iff (hall c List.mem_cons_self)).mp hc
    · rintro ⟨hall, hc⟩
      refine ⟨⟨c, rfl, (isAlpha_or_underscore_iff (hall c List.mem_cons_self)).mpr ?_⟩, hall⟩
      simpa using hc

theorem isIdentifier_sanitize (label : String) : IsIdentifier (sanitize label) := by
  refine isIdentifier_iff.mpr ⟨fun _ => isIdentifierChar_of_mem_sanitize, ?_⟩
  rw [sanitize, String.toList_ofList, sanitizeChars_eq]
  split
  · simp
  · rename_i hlead
    cases hlabel : label.toList with
    | nil => exact absurd (.inl hlabel) hlead
    | cons c cs =>
      rw [hlabel] at hlead
      simpa [isDigit_identifierChar] using hlead

theorem sanitize_eq_self_iff : sanitize name = name ↔ IsIdentifier name := by
  constructor
  · intro h
    rw [← h]
    exact isIdentifier_sanitize name
  · intro h
    obtain ⟨hchars, hlead⟩ := isIdentifier_iff.mp h
    have hmap : name.toList.map identifierChar = name.toList.map id :=
      List.map_congr_left fun c hc => identifierChar_of_isIdentifierChar (hchars c hc)
    rw [sanitize, sanitizeChars_eq, if_neg hlead, hmap, List.map_id, List.nil_append,
      String.ofList_toList]

end Identifiers

/-- Every label is made an identifier. One that is an identifier stays, so nothing comes of doing it
again. An underscore is put in front of the empty label and of digits; otherwise each character
gives one. The identifiers of meshes tell labels apart as far as these identifiers do. -/
theorem labels_become_identifiers (label : String) :
    IsIdentifier (sanitize label) ∧ (sanitize label = label ↔ IsIdentifier label) ∧
      sanitize (sanitize label) = sanitize label ∧
      ((sanitize label).length =
        label.length + if label = "" ∨ label.toList.head?.any Char.isDigit = true then 1 else 0) ∧
      ∀ other : String, meshIdentifier label = meshIdentifier other ↔
      sanitize label = sanitize other := by
  refine ⟨isIdentifier_sanitize label, sanitize_eq_self_iff,
    sanitize_eq_self_iff.mpr (isIdentifier_sanitize label),
    length_sanitize label, fun other => ?_⟩
  rw [meshIdentifier, meshIdentifier, String.append_left_inj]

example : sanitize "é1" = "_1" ∧ sanitize "1é" = "_1_" := by decide

end RayScene.Sdl
