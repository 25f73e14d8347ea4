import Mathlib.Data.List.Infix
import Mathlib.Data.List.TakeWhile
import RayScene.Sdl.Solid
set_option autoImplicit false

namespace RayScene

namespace Text

theorem holds_iff {text needle : List Char} : holds text needle = true ↔ needle <:+: text := by
  unfold holds
  induction text with
  | nil => by_cases h : needle = [] <;> simp [cut?, h]
  | cons c cs ih =>
    rw [List.infix_cons_iff, ← List.isPrefixOf_iff_prefix, ← ih]
    cases hp : needle.isPrefixOf (c :: cs) <;> simp [cut?, hp]

theorem substitute_cons_self (c : Char) (by_ text : List Char) :
    substitute c by_ (c :: text) = by_ ++ substitute c by_ text := by
  rw [substitute, List.flatMap_cons, if_pos rfl]
  rfl

theorem substitute_cons_ne {c d : Char} (h : d ≠ c) (by_ text : List Char) :
    substitute c by_ (d :: text) = d :: substitute c by_ text := by
  rw [substitute, List.flatMap_cons, if_neg h]
  rfl

theorem substitute_append (c : Char) (by_ a b : List Char) :
    substitute c by_ (a ++ b) = substitute c by_ a ++ substitute c by_ b :=
  List.flatMap_append

theorem substitute_of_not_mem {c : Char} {text : List Char} (by_ : List Char) (h : c ∉ text) :
    substitute c by_ text = text := by
  induction text with
  | nil => rfl
  | cons d text ih =>
    obtain ⟨hd, ht⟩ := List.ne_and_not_mem_of_not_mem_cons h
    rw [substitute, List.flatMap_cons, if_neg (Ne.symm hd)]
    exact congrArg (d :: ·) (ih ht)

theorem substitute_infix_substitute (c : Char) (by_ : List Char) {piece text : List Char}
    (h : piece <:+: text) : substitute c by_ piece <:+: substitute c by_ text := by
  obtain ⟨before, after, rfl⟩ := h
  rw [substitute_append, substitute_append]
  exact ⟨_, _, rfl⟩

theorem infix_substitute {c : Char} {by_ text needle : List Char} (h : c ∉ needle)
    (hpiece : needle <:+: text) : needle <:+: substitute c by_ text := by
  have hsame := substitute_infix_substitute c by_ hpiece
  rwa [substitute_of_not_mem by_ h] at hsame

theorem infix_substitute_cons {c : Char} {by_ text needle : List Char} (h : c ∉ needle)
    (hpiece : c :: needle <:+: text) : by_ ++ needle <:+: substitute c by_ text := by
  have hsame := substitute_infix_substitute c by_ hpiece
  rwa [substitute, List.flatMap_cons, if_pos rfl, ← substitute,
    substitute_of_not_mem by_ h] at hsame

section Runs

variable {p : Char → Bool} {a b n m : List Char}

theorem takeWhile_append_of_stop (hn : ∀ c ∈ n, p c = true) (ha : ∀ c ∈ a.head?, p c = false) :
    (n ++ a).takeWhile p = n := by
  rw [List.takeWhile_append_of_pos hn]
  cases a with
  | nil => simp
  | cons c a => simp [ha c rfl]

theorem eq_of_append_eq (hn : ∀ c ∈ n, p c = true) (hm : ∀ c ∈ m, p c = true)
    (ha : ∀ c ∈ a.head?, p c = false) (hb : ∀ c ∈ b.head?, p c = false) (h : n ++ a = m ++ b) :
    n = m ∧ a = b := by
  have hsame : n = m := by rw [← takeWhile_append_of_stop hn ha, h, takeWhile_append_of_stop hm hb]
  exact ⟨hsame, List.append_cancel_left (hsame ▸ h)⟩

end Runs

theorem byteLength_append (a b : List Char) :
    byteLength (a ++ b) = byteLength a + byteLength b := by
  induction a with
  | nil => simp [byteLength]
  | cons c a ih =>
    simp only [byteLength, List.cons_append, List.foldr_cons] at ih ⊢
    omega

theorem eq_of_toLower {c d : Char} (hd : d.isLower = false) (h : c.toLower = d) : c = d := by
  unfold Char.toLower at h
  split at h
  · rename_i hc
    subst h
    simp [UInt32.le_iff_toNat_le] at hc
    unfold Char.isLower at hd
    simp [UInt32.le_iff_toNat_le, UInt32.toNat_add] at hd
    omega
  · exact h

theorem mem_of_mem_afterLast {c d : Char} {text ending : List Char}
    (h : afterLast? c text = some ending) (hd : d ∈ ending) : d ∈ text := by
  unfold afterLast? at h
  split at h
  · cases h
    rw [List.mem_reverse] at hd
    exact List.mem_reverse.mp (List.takeWhile_subset _ hd)
  · cases h

end Text

namespace Sdl

theorem shift_append (lead : List Char) (a b : String) :
    shift lead (a ++ b) = shift lead a ++ shift lead b := by
  simp [shift, Text.substitute_append]

theorem shift_of_not_mem {s : String} (hs : '\n' ∉ s.toList) (lead : List Char) :
    shift lead s = s := by
  rw [shift, Text.substitute_of_not_mem _ hs, String.ofList_toList]

theorem not_mem_imageFormat {d : Char} {file : String} (hd : d.isLower = false)
    (h : d ∉ file.toList) : d ∉ (imageFormat file).toList := by
  have hword : ∀ word : List Char, word.all Char.isLower = true → d ∉ word :=
    fun word hall hmem => Bool.false_ne_true (hd.symm.trans (List.all_eq_true.mp hall d hmem))
  unfold imageFormat
  dsimp only
  split
  · exact hword _ (by decide)
  split
  · exact hword _ (by decide)
  · rw [String.toList_ofList]
    intro hmem
    obtain ⟨c, hc, hcd⟩ := List.mem_map.mp hmem
    cases hlast : Text.afterLast? '.' file.toList with
    | none => simp [hlast] at hc
    | some ending =>
      rw [hlast] at hc
      exact h (Text.eq_of_toLower hd hcd ▸ Text.mem_of_mem_afterLast hlast hc)

end Sdl

section Pieces

variable {a b text needle : String} {pieces : List String}

theorem contains_iff : contains text needle = true ↔ needle.toList <:+: text.toList :=
  Text.holds_iff

theorem contains_empty (h : needle ≠ "") : contains "" needle = false := by
  rw [Bool.eq_false_iff, Ne, contains_iff]
  intro hpiece
  exact h (String.toList_inj.mp (List.infix_nil.mp hpiece))

theorem contains_append_left (b : String) (h : contains a needle = true) :
    contains (a ++ b) needle = true := by
  rw [contains_iff] at h ⊢
  rw [String.toList_append]
  exact h.trans (List.prefix_append _ _).isInfix

theorem contains_append_right (a : String) (h : contains b needle = true) :
    contains (a ++ b) needle = true := by
  rw [contains_iff] at h ⊢
  rw [String.toList_append]
  exact h.trans (List.suffix_append _ _).isInfix

theorem Text.join_of_append {P : String → Prop} (hempty : P "")
    (happend : ∀ s t, P s → P t → P (s ++ t))
    (h : ∀ s ∈ pieces, P s) : P (String.join pieces) := by
  induction pieces with
  | nil => exact hempty
  | cons s pieces ih =>
    obtain ⟨hs, hpieces⟩ := List.forall_mem_cons.mp h
    rw [String.join_cons]
    exact happend s _ hs (ih hpieces)

theorem Text.intercalate_of_append {P : String → Prop} {sep : String} (hempty : P "")
    (happend : ∀ s t, P s → P t → P (s ++ t)) (hsep : P sep) (h : ∀ s ∈ pieces, P s) :
    P (sep.intercalate pieces) := by
  induction pieces with
  | nil => exact hempty
  | cons s pieces ih =>
    obtain ⟨hs, hpieces⟩ := List.forall_mem_cons.mp h
    cases pieces with
    | nil => rwa [String.intercalate_singleton]
    | cons t pieces =>
      rw [String.intercalate_cons_of_ne_nil (List.cons_ne_nil t pieces)]
      exact happend _ _ (happend s sep hs hsep) (ih hpieces)

theorem contains_join (hmem : a ∈ pieces) (h : contains a needle = true) :
    contains (String.join pieces) needle = true := by
  obtain ⟨before, after, rfl⟩ := List.append_of_mem hmem
  rw [String.join_append, String.join_cons]
  exact contains_append_right _ (contains_append_left _ h)

theorem contains_indent (hline : '\n' ∉ needle.toList) (h : contains text needle = true) :
    contains (Sdl.indent text) needle = true := by
  rw [contains_iff] at h ⊢
  rw [Sdl.indent, Sdl.shift, String.toList_ofList]
  exact Text.infix_substitute hline h

end Pieces

end RayScene
