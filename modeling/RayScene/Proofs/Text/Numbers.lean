import RayScene.Sdl.Number
set_option autoImplicit false

namespace RayScene.Sdl

def isNumberChar (c : Char) : Bool := c.isDigit || ['.', '-', 'N', 'a', 'i', 'n', 'f'].contains c

variable {c : Char}

theorem isNumberChar_of_isDigit (h : c.isDigit = true) : isNumberChar c = true := by
  simp [isNumberChar, h]

theorem isNumberChar_of_mem_toDigits {n : Nat} (h : c ∈ Nat.toDigits 10 n) :
    isNumberChar c = true :=
  isNumberChar_of_isDigit (Nat.isDigit_of_mem_toDigits (by decide) (by decide) h)

theorem isNumberChar_of_mem_zeros {k n : Nat} (h : c ∈ List.replicate k '0' ++ Nat.toDigits 10 n) :
    isNumberChar c = true := by
  rcases List.mem_append.mp h with h | h
  · rw [List.eq_of_mem_replicate h]
    rfl
  · exact isNumberChar_of_mem_toDigits h

theorem isNumberChar_of_mem_plain {d : Decimal} (h : c ∈ d.plain) : isNumberChar c = true := by
  unfold Decimal.plain at h
  dsimp only at h
  split at h
  · rcases List.mem_append.mp h with h | h
    · exact isNumberChar_of_mem_toDigits h
    · rw [List.eq_of_mem_replicate h]
      rfl
  · split at h
    · rcases List.mem_append.mp h with h | h
      · exact isNumberChar_of_mem_toDigits (List.mem_of_mem_take h)
      · rcases List.mem_cons.mp h with rfl | h
        · rfl
        · exact isNumberChar_of_mem_toDigits (List.mem_of_mem_drop h)
    · rw [List.mem_cons, List.mem_cons] at h
      rcases h with rfl | rfl | h
      · rfl
      · rfl
      · exact isNumberChar_of_mem_zeros h

theorem isNumberChar_of_mem_sign {negative : Bool} (h : c ∈ if negative then ['-'] else []) :
    isNumberChar c = true := by
  split at h
  · rw [List.mem_singleton.mp h]
    rfl
  · cases h

theorem isNumberChar_of_mem_layout {b : BinaryNumber} (h : c ∈ layout.text b) :
    isNumberChar c = true := by
  have hplain : ∀ d : Decimal, layout.magnitudeText d = d.plain := by
    intro d
    simp [DecimalLayout.magnitudeText, layout]
  unfold DecimalLayout.text at h
  rw [hplain] at h
  rcases List.mem_append.mp h with h | h
  · exact isNumberChar_of_mem_sign h
  · exact isNumberChar_of_mem_plain h

theorem isNumberChar_of_mem_fixedPlaces {places : Nat} {b : BinaryNumber}
    (h : c ∈ fixedPlaces places b) : isNumberChar c = true := by
  unfold fixedPlaces at h
  dsimp only at h
  rcases List.mem_append.mp h with h | h
  · rcases List.mem_append.mp h with h | h
    · exact isNumberChar_of_mem_sign h
    · exact isNumberChar_of_mem_zeros (List.mem_of_mem_take h)
  · split at h
    · cases h
    · rcases List.mem_cons.mp h with rfl | h
      · rfl
      · exact isNumberChar_of_mem_zeros (List.mem_of_mem_drop h)

theorem isNumberChar_of_mem_text {finite : BinaryNumber → List Char}
    (hfinite : ∀ b, ∀ c ∈ finite b, isNumberChar c = true) {word : BinaryWord}
    (h : c ∈ word.text finite) : isNumberChar c = true := by
  have hspelled : ∀ word : List Char, word.all isNumberChar = true → c ∈ word →
      isNumberChar c = true := fun _ hall hc => List.all_eq_true.mp hall c hc
  unfold BinaryWord.text at h
  split at h
  · exact hspelled _ (by decide) h
  · exact hspelled _ (by decide) h
  · exact hspelled _ (by decide) h
  · exact hfinite _ c h

theorem isNumberChar_of_mem_number {x : Float} (h : c ∈ (number x).toList) :
    isNumberChar c = true := by
  unfold number at h
  split at h
  · rw [digits, String.toList_ofList] at h
    exact isNumberChar_of_mem_text (fun _ _ => isNumberChar_of_mem_layout) h
  · rw [List.mem_singleton.mp h]
    rfl

theorem isNumberChar_of_mem_natural {n : Nat} (h : c ∈ (natural n).toList) :
    isNumberChar c = true := by
  rw [natural, String.toList_ofList] at h
  exact isNumberChar_of_mem_toDigits h

theorem isNumberChar_of_mem_fixed {places : Nat} {x : Float} (h : c ∈ (fixed places x).toList) :
    isNumberChar c = true := by
  rw [fixed, String.toList_ofList] at h
  exact isNumberChar_of_mem_text (fun _ _ => isNumberChar_of_mem_fixedPlaces) h

theorem isNumberChar_of_mem_fixedSingle {places : Nat} {x : Float32}
    (h : c ∈ (fixedSingle places x).toList) : isNumberChar c = true := by
  rw [fixedSingle, String.toList_ofList] at h
  exact isNumberChar_of_mem_text (fun _ _ => isNumberChar_of_mem_fixedPlaces) h

theorem not_mem_of_number {text : List Char} (hc : isNumberChar c = false)
    (htext : ∀ d ∈ text, isNumberChar d = true) : c ∉ text :=
  fun h => Bool.false_ne_true (hc.symm.trans (htext c h))

theorem not_mem_digits (hc : isNumberChar c = false) (n : Nat) : c ∉ Nat.toDigits 10 n :=
  not_mem_of_number hc fun _ => isNumberChar_of_mem_toDigits

theorem not_mem_natural (hc : isNumberChar c = false) (n : Nat) : c ∉ (natural n).toList :=
  not_mem_of_number hc fun _ => isNumberChar_of_mem_natural

theorem not_mem_number (hc : isNumberChar c = false) (x : Float) : c ∉ (number x).toList :=
  not_mem_of_number hc fun _ => isNumberChar_of_mem_number

end RayScene.Sdl
