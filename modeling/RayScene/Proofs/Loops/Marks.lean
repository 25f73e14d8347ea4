import Mathlib.Data.List.Infix
import RayScene.Proofs.Fragments.Quiet
import RayScene.Proofs.Text.Counting
/-!
The loop directives of a text, in their order. Texts that are put together have the directives of
the one and then those of the other, wherever no directive is cut in two.
-/
set_option autoImplicit false

namespace RayScene.Loops

open Sdl

def marks : List Char → List Bool
  | [] => []
  | c :: t =>
    if c = '#' then
      if ['w', 'h', 'i', 'l', 'e'].isPrefixOf t then true :: marks t
      else if ['e', 'n', 'd'].isPrefixOf t then false :: marks t
      else marks t
    else marks t

/-- Every loop that ends has begun before, and every loop that begins ends. -/
def Nested (l : List Bool) : Prop :=
  (∀ a ∈ l.inits, a.count false ≤ a.count true) ∧ l.count false = l.count true

instance (l : List Bool) : Decidable (Nested l) := by
  unfold Nested
  infer_instance

/-- The text has these directives, whatever stands behind it. -/
def Marks (s : String) (l : List Bool) : Prop := ∀ b, marks (s.toList ++ b) = l ++ marks b

section Nesting

variable {l m a : List Bool}

theorem Nested.count_le (h : Nested l) (ha : a <+: l) : a.count false ≤ a.count true :=
  h.1 a ((List.mem_inits a l).mpr ha)

theorem Nested.append (hl : Nested l) (hm : Nested m) : Nested (l ++ m) := by
  refine ⟨fun a ha => ?_, by rw [List.count_append, List.count_append, hl.2, hm.2]⟩
  rw [List.inits_append, List.mem_append] at ha
  rcases ha with ha | ha
  · exact hl.1 a ha
  · obtain ⟨b, hb, rfl⟩ := List.mem_map.mp ha
    rw [List.count_append, List.count_append, hl.2]
    exact Nat.add_le_add_left (hm.1 b (List.mem_of_mem_tail hb)) _

end Nesting

section Marking

variable {s t : String} {l m : List Bool} {c : Char} {text quiet needle lead : List Char}

theorem marks_cons_ne (hc : c ≠ '#') (text : List Char) : marks (c :: text) = marks text := by
  rw [marks, if_neg hc]

theorem marks_hash (text : List Char) : marks ('#' :: text) =
    if ['w', 'h', 'i', 'l', 'e'] <+: text then true :: marks text
    else if ['e', 'n', 'd'] <+: text then false :: marks text
    else marks text := by
  rw [marks, if_pos rfl]
  simp only [List.isPrefixOf_iff_prefix]

theorem not_both_begin {d : Char} {xs ys : List Char} (hcd : c ≠ d) (h : c :: xs <+: text) :
    ¬d :: ys <+: text := by
  obtain ⟨rest, rfl⟩ := h
  rw [List.cons_append, List.cons_prefix_cons]
  exact fun h => hcd h.1.symm

theorem marks_append_of_not_mem (h : '#' ∉ quiet) (text : List Char) :
    marks (quiet ++ text) = marks text := by
  induction quiet with
  | nil => rfl
  | cons c quiet ih =>
    obtain ⟨hc, hrest⟩ := List.ne_and_not_mem_of_not_mem_cons h
    rw [List.cons_append, marks_cons_ne hc.symm, ih hrest]

theorem Marks.literal {cs : List Char} (h : ∀ b, marks (cs ++ b) = l ++ marks b) :
    Marks (String.ofList cs) l := by
  unfold Marks
  rw [String.toList_ofList]
  exact h

theorem Marks.append (hs : Marks s l) (ht : Marks t m) : Marks (s ++ t) (l ++ m) := by
  intro b
  rw [String.toList_append, List.append_assoc, hs, ht, List.append_assoc]

theorem Marks.skip (hs : Marks s []) (ht : Marks t l) : Marks (s ++ t) l := hs.append ht

theorem Marks.ite {p : Prop} [Decidable p] (hs : Marks s l) (ht : Marks t l) :
    Marks (if p then s else t) l :=
  iteInduction (motive := (Marks · l)) (fun _ => hs) fun _ => ht

theorem Marks.of_not_mem (h : '#' ∉ s.toList) : Marks s [] :=
  fun b => marks_append_of_not_mem h b

theorem Marks.of_quiet (h : Quiet s) : Marks s [] :=
  .of_not_mem fun hmem => absurd (h.unmarked _ hmem) (by decide)

theorem prefix_substitute_iff (hneedle : '\n' ∉ needle) (lead text b : List Char) :
    needle <+: Text.substitute '\n' ('\n' :: lead) text ++ b ↔ needle <+: text ++ b := by
  induction text generalizing needle with
  | nil => exact Iff.rfl
  | cons c text ih =>
    cases needle with
    | nil => exact iff_of_true List.nil_prefix List.nil_prefix
    | cons d needle =>
      obtain ⟨hd, hrest⟩ := List.ne_and_not_mem_of_not_mem_cons hneedle
      by_cases hc : c = '\n'
      · subst hc
        simp [Text.substitute_cons_self, List.cons_prefix_cons, hd.symm]
      · simp [Text.substitute_cons_ne hc, List.cons_prefix_cons, ih hrest]

theorem marks_substitute (hlead : '#' ∉ lead) (text b : List Char) :
    marks (Text.substitute '\n' ('\n' :: lead) text ++ b) = marks (text ++ b) := by
  induction text with
  | nil => rfl
  | cons c text ih =>
    by_cases hn : c = '\n'
    · have hquiet : '#' ∉ '\n' :: lead := by simp [hlead]
      rw [hn, Text.substitute_cons_self, List.append_assoc, marks_append_of_not_mem hquiet, ih]
      exact (marks_cons_ne (by decide) _).symm
    rw [Text.substitute_cons_ne hn, List.cons_append, List.cons_append]
    by_cases hc : c = '#'
    · have hwhile : '\n' ∉ ['w', 'h', 'i', 'l', 'e'] := by decide
      have hend : '\n' ∉ ['e', 'n', 'd'] := by decide
      rw [hc, marks_hash, marks_hash, ih]
      simp only [prefix_substitute_iff hwhile, prefix_substitute_iff hend]
    · rw [marks_cons_ne hc, marks_cons_ne hc, ih]

theorem Marks.shift (hlead : '#' ∉ lead) (h : Marks s l) : Marks (shift lead s) l := by
  intro b
  unfold Sdl.shift
  rw [String.toList_ofList, marks_substitute hlead, h]

theorem Marks.indent (h : Marks s l) : Marks (indent s) l := h.shift (by decide)

theorem Marks.toList_eq (h : Marks s l) : marks s.toList = l := by
  have hwhole := h []
  rwa [List.append_nil, marks, List.append_nil] at hwhole

end Marking

section Counting

variable {text a : List Char}

theorem count_true_marks (text : List Char) :
    (marks text).count true = Text.count ['#', 'w', 'h', 'i', 'l', 'e'] text := by
  induction text with
  | nil => exact (Text.count_nil (by decide)).symm
  | cons c text ih =>
    rw [Text.count_cons (by decide), ← ih]
    by_cases hc : c = '#'
    · rw [hc, marks_hash]
      split
      · rename_i hwhile
        rw [if_pos ⟨rfl, hwhile⟩, List.count_cons_self, Nat.add_comm]
      · rename_i hwhile
        simp only [hwhile, and_false, if_false, Nat.zero_add]
        split <;> simp
    · rw [if_neg fun h => hc h.1, marks_cons_ne hc, Nat.zero_add]

theorem count_false_marks (text : List Char) :
    (marks text).count false = Text.count ['#', 'e', 'n', 'd'] text := by
  induction text with
  | nil => exact (Text.count_nil (by decide)).symm
  | cons c text ih =>
    rw [Text.count_cons (by decide), ← ih]
    by_cases hc : c = '#'
    · rw [hc, marks_hash]
      split
      · rename_i hwhile
        rw [if_neg fun h => not_both_begin (by decide) hwhile h.2, Nat.zero_add]
        simp
      split
      · rename_i hend
        rw [if_pos ⟨rfl, hend⟩, List.count_cons_self, Nat.add_comm]
      · rename_i hend
        rw [if_neg fun h => hend h.2, Nat.zero_add]
    · rw [if_neg fun h => hc h.1, marks_cons_ne hc, Nat.zero_add]

/-- Where a text is broken off, a directive that is cut in two is lost and no other. -/
theorem prefix_marks (h : a <+: text) : marks a <+: marks text := by
  induction a generalizing text with
  | nil => exact List.nil_prefix
  | cons c a ih =>
    obtain ⟨b, rfl⟩ := h
    have hrest : marks a <+: marks (a ++ b) := ih (List.prefix_append a b)
    rw [List.cons_append]
    by_cases hc : c = '#'
    · rw [hc, marks_hash, marks_hash]
      have hcut {word : List Char} (hword : '#' ∉ word) (hw : word <+: a ++ b) (hwa : ¬word <+: a) :
          marks a = [] := by
        have hpre : a <+: word :=
          (List.prefix_or_prefix_of_prefix hw (List.prefix_append a b)).resolve_left hwa
        have hnot : '#' ∉ a := fun hmem => hword (hpre.subset hmem)
        rw [← List.append_nil a, marks_append_of_not_mem hnot, marks]
      have hmore {word : List Char} (hw : word <+: a) : word <+: a ++ b :=
        hw.trans (List.prefix_append a b)
      by_cases hw : ['w', 'h', 'i', 'l', 'e'] <+: a ++ b
      · have he : ¬['e', 'n', 'd'] <+: a := fun he =>
          not_both_begin (by decide) hw (hmore he)
        by_cases hwa : ['w', 'h', 'i', 'l', 'e'] <+: a
        · simpa only [hw, hwa, if_true, List.cons_prefix_cons, true_and] using hrest
        · simp only [hwa, he, if_false, hcut (by decide) hw hwa, List.nil_prefix]
      have hwa : ¬['w', 'h', 'i', 'l', 'e'] <+: a := fun hwa => hw (hmore hwa)
      by_cases he : ['e', 'n', 'd'] <+: a ++ b
      · by_cases hea : ['e', 'n', 'd'] <+: a
        · simpa only [hw, hwa, he, hea, if_true, if_false, List.cons_prefix_cons, true_and]
            using hrest
        · simp only [hwa, hea, if_false, hcut (by decide) he hea, List.nil_prefix]
      · have hea : ¬['e', 'n', 'd'] <+: a := fun hea => he (hmore hea)
        simpa only [hw, hwa, he, hea, if_false] using hrest
    · rw [marks_cons_ne hc, marks_cons_ne hc]
      exact hrest

end Counting

end RayScene.Loops
