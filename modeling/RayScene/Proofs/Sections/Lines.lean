import Mathlib.Data.List.Chain
import RayScene.Proofs.Fragments.Quiet
import RayScene.Proofs.Text.Counting
set_option autoImplicit false

namespace RayScene.Sections

open Sdl

def Follows (a b : Char) : Prop := a = '\n' → b ≠ '/'

instance (a b : Char) : Decidable (Follows a b) := by
  unfold Follows
  infer_instance

/-- No line begins with a slash, the first one included. -/
def Tidy (s : String) : Prop := ('\n' :: s.toList).IsChain Follows

section Putting

variable {s t : String} {lead text : List Char} {pieces : List String}

theorem Tidy.literal {cs : List Char} (h : decide (('\n' :: cs).IsChain Follows) = true) :
    Tidy (String.ofList cs) := by
  unfold Tidy
  rw [String.toList_ofList]
  exact of_decide_eq_true h

theorem Tidy.empty : Tidy "" := .literal rfl

theorem Tidy.append (hs : Tidy s) (ht : Tidy t) : Tidy (s ++ t) := by
  unfold Tidy
  rw [String.toList_append, ← List.cons_append]
  refine List.IsChain.append hs ht.tail ?_
  intro _ _ b hb _
  exact ht.rel_head? hb rfl

theorem Tidy.ite {p : Prop} [Decidable p] (hs : Tidy s) (ht : Tidy t) :
    Tidy (if p then s else t) :=
  iteInduction (fun _ => hs) fun _ => ht

theorem isChain_of_not_mem (h : '/' ∉ text) : text.IsChain Follows := by
  induction text with
  | nil => exact .nil
  | cons c text ih =>
    obtain ⟨_, hrest⟩ := List.ne_and_not_mem_of_not_mem_cons h
    refine List.isChain_cons.mpr ⟨fun d hd _ => ?_, ih hrest⟩
    rintro rfl
    exact hrest (List.mem_of_mem_head? hd)

theorem Tidy.of_unmarked (h : Unmarked s) : Tidy s := by
  apply isChain_of_not_mem
  intro hmem
  rcases List.mem_cons.mp hmem with heq | hmem
  · exact absurd heq (by decide)
  · exact absurd (h _ hmem) (by decide)

theorem Tidy.of_quiet (h : Quiet s) : Tidy s := .of_unmarked h.unmarked

theorem tidy_join (h : ∀ s ∈ pieces, Tidy s) : Tidy (String.join pieces) :=
  Text.join_of_append .empty (fun _ _ => .append) h

theorem isChain_substitute (hlead : ∀ c ∈ lead, c ≠ '\n' ∧ c ≠ '/') (hne : lead ≠ [])
    (text : List Char) : (Text.substitute '\n' ('\n' :: lead) text).IsChain Follows := by
  induction text with
  | nil => exact .nil
  | cons c text ih =>
    by_cases hc : c = '\n'
    · rw [hc, Text.substitute_cons_self]
      have hfirst : ('\n' :: lead).IsChain Follows := by
        apply isChain_of_not_mem
        simpa using fun hmem => (hlead '/' hmem).2 rfl
      refine hfirst.append ih fun a ha b _ hend => ?_
      rw [List.getLast?_cons_of_ne_nil hne] at ha
      exact absurd hend (hlead a (List.mem_of_getLast? ha)).1
    · rw [Text.substitute_cons_ne hc]
      exact List.isChain_cons.mpr ⟨fun _ _ hend => absurd hend hc, ih⟩

theorem head?_substitute (lead text : List Char) :
    (Text.substitute '\n' ('\n' :: lead) text).head? = text.head? := by
  cases text with
  | nil => rfl
  | cons c text =>
    by_cases hc : c = '\n'
    · rw [hc, Text.substitute_cons_self]
      rfl
    · rw [Text.substitute_cons_ne hc]
      rfl

theorem tidy_shift (hlead : ∀ c ∈ lead, c ≠ '\n' ∧ c ≠ '/') (hne : lead ≠ [])
    (hs : s.toList.head? ≠ some '/') : Tidy (shift lead s) := by
  unfold Tidy Sdl.shift
  rw [String.toList_ofList]
  refine List.isChain_cons.mpr ⟨fun b hb _ => ?_, isChain_substitute hlead hne s.toList⟩
  rintro rfl
  rw [head?_substitute] at hb
  exact hs hb

theorem tidy_indent (hs : s.toList.head? ≠ some '/') : Tidy (indent s) :=
  tidy_shift (by simp) (by simp) hs

theorem head?_append_ne {c : Char} {cs : List Char} (hc : c ≠ '/') (t : String) :
    (String.ofList (c :: cs) ++ t).toList.head? ≠ some '/' := by
  rw [String.toList_append, String.toList_ofList]
  simpa using hc

theorem Tidy.head?_ne (h : Tidy s) : s.toList.head? ≠ some '/' :=
  fun hs => h.rel_head? hs rfl rfl

theorem Tidy.isChain (h : Tidy s) : s.toList.IsChain Follows := h.tail

theorem isChain_append_of_not_mem {line : List Char} (hline : '\n' ∉ line)
    (h : text.IsChain Follows) : (line ++ text).IsChain Follows := by
  induction line with
  | nil => exact h
  | cons c line ih =>
    obtain ⟨hc, hrest⟩ := List.ne_and_not_mem_of_not_mem_cons hline
    exact List.isChain_cons.mpr ⟨fun _ _ hend => absurd hend.symm hc, ih hrest⟩

theorem not_infix_of_isChain (h : text.IsChain Follows) : ¬['\n', '/'] <:+: text := by
  intro hpiece
  have hpair := h.infix hpiece
  exact (List.isChain_cons_cons.mp hpair).1 rfl rfl

theorem cut?_append_of_isChain {tail skipped : List Char} (h : skipped.IsChain Follows)
    (htext : text.head? ≠ some '/') : Text.cut? ('\n' :: '/' :: tail) (skipped ++ text) =
      (Text.cut? ('\n' :: '/' :: tail) text).map fun (before, after) =>
      (skipped ++ before, after) := by
  induction skipped with
  | nil => simp
  | cons c skipped ih =>
    obtain ⟨hfollows, hrest⟩ := List.isChain_cons.mp h
    have hnot : ¬ '\n' :: '/' :: tail <+: c :: (skipped ++ text) := by
      intro hpre
      obtain ⟨hend, hslash⟩ := List.cons_prefix_cons.mp hpre
      cases skipped with
      | nil =>
        obtain ⟨rest, rfl⟩ := hslash
        exact htext rfl
      | cons d skipped => exact hfollows d rfl hend.symm (List.cons_prefix_cons.mp hslash).1.symm
    rw [List.cons_append, Text.cut?_cons_of_later hnot, ih hrest, Option.map_map]
    rfl

end Putting

end RayScene.Sections
