import Mathlib.Logic.Relation
import RayScene.Proofs.Compilation.Agreement
set_option autoImplicit false

namespace RayScene

open Relation

variable {α : Type} [DecidableEq α] {next : α → List α} {finite stack seen : List α}
  {within : α → Prop}

theorem not_mem_seen_of_mem_walk {a : α} (ha : a ∈ walk next finite stack seen) : a ∉ seen := by
  fun_induction walk next finite stack seen with
  | case1 => simp at ha
  | case2 _ _ _ _ ih => exact ih ha
  | case3 seen b stack hb _ ih =>
    rcases List.mem_cons.mp ha with rfl | ha
    · exact hb
    · exact fun h => ih ha (List.mem_cons_of_mem _ h)
  | case4 seen b stack hb _ ih =>
    rcases List.mem_cons.mp ha with rfl | ha
    · exact hb
    · exact fun h => ih ha (List.mem_cons_of_mem _ h)

theorem nodup_walk (next : α → List α) (finite stack seen : List α) :
    (walk next finite stack seen).Nodup := by
  fun_induction walk next finite stack seen with
  | case1 => exact List.nodup_nil
  | case2 _ _ _ _ ih => exact ih
  | case3 _ _ _ _ _ ih =>
    exact List.nodup_cons.mpr ⟨fun h => not_mem_seen_of_mem_walk h List.mem_cons_self, ih⟩
  | case4 _ _ _ _ _ ih =>
    exact List.nodup_cons.mpr ⟨fun h => not_mem_seen_of_mem_walk h List.mem_cons_self, ih⟩

/-- As long as the successors of what has been seen are seen or wait on the stack, no successor is
lost. -/
theorem next_subset_walk (hclosed : ∀ a, within a → ∀ b ∈ next a, within b)
    (hfinite : ∀ a, within a → a ∉ finite → next a = []) (hstack : ∀ a ∈ stack, within a)
    (hseen : ∀ a ∈ seen, ∀ b ∈ next a, b ∈ seen ∨ b ∈ stack) {a b : α}
    (ha : a ∈ seen ∨ a ∈ walk next finite stack seen) (hb : b ∈ next a) :
    b ∈ seen ∨ b ∈ walk next finite stack seen := by
  fun_induction walk next finite stack seen with
  | case1 seen =>
    have hmem : a ∈ seen := by simpa using ha
    exact hseen a hmem b hb
  | case2 seen c stack hc ih =>
    obtain ⟨_, hrest⟩ := List.forall_mem_cons.mp hstack
    refine ih hrest (fun x hx y hy => ?_) ha
    rcases hseen x hx y hy with h | h
    · exact .inl h
    · rcases List.mem_cons.mp h with rfl | h
      · exact .inl hc
      · exact .inr h
  | case3 seen c stack hc hf ih =>
    obtain ⟨hin, hrest⟩ := List.forall_mem_cons.mp hstack
    have hmore := List.forall_mem_append.mpr ⟨hclosed c hin, hrest⟩
    have hgrown : ∀ x ∈ c :: seen, ∀ y ∈ next x, y ∈ c :: seen ∨ y ∈ next c ++ stack := by
      intro x hx y hy
      rcases List.mem_cons.mp hx with rfl | hx
      · exact .inr (List.mem_append_left _ hy)
      · have := hseen x hx y hy
        simp only [List.mem_cons, List.mem_append] at this ⊢
        tauto
    have hstep := ih hmore hgrown (by simp only [List.mem_cons] at ha ⊢; tauto)
    simp only [List.mem_cons] at hstep ⊢
    tauto
  | case4 seen c stack hc hf ih =>
    obtain ⟨hin, hrest⟩ := List.forall_mem_cons.mp hstack
    have hgrown : ∀ x ∈ c :: seen, ∀ y ∈ next x, y ∈ c :: seen ∨ y ∈ stack := by
      intro x hx y hy
      rcases List.mem_cons.mp hx with rfl | hx
      · rw [hfinite x hin hf] at hy
        cases hy
      · have := hseen x hx y hy
        simp only [List.mem_cons] at this ⊢
        tauto
    have hstep := ih hrest hgrown (by simp only [List.mem_cons] at ha ⊢; tauto)
    simp only [List.mem_cons] at hstep ⊢
    tauto

/-- A walk takes exactly what its stack leads to, apart from what has been seen before. -/
theorem mem_walk_iff (hclosed : ∀ a, within a → ∀ b ∈ next a, within b)
    (hfinite : ∀ a, within a → a ∉ finite → next a = []) (hstack : ∀ a ∈ stack, within a)
    (hseen : ∀ a ∈ seen, ∀ b ∈ next a, b ∈ seen ∨ b ∈ stack) (a : α) :
    a ∈ walk next finite stack seen ↔
      a ∉ seen ∧ ∃ s ∈ stack, ReflTransGen (fun x y => y ∈ next x) s a := by
  constructor
  · intro ha
    have hreach : ∀ b, (∃ s ∈ stack, ReflTransGen (fun x y => y ∈ next x) s b) → ∀ c ∈ next b,
        ∃ s ∈ stack, ReflTransGen (fun x y => y ∈ next x) s c := by
      rintro b ⟨s, hs, hsb⟩ c hc
      exact ⟨s, hs, hsb.tail hc⟩
    exact ⟨not_mem_seen_of_mem_walk ha,
      within_of_mem_walk hreach (fun s hs => ⟨s, hs, .refl⟩) a ha⟩
  · rintro ⟨hnot, s, hs, hsa⟩
    have hreached : a ∈ seen ∨ a ∈ walk next finite stack seen := by
      clear hnot
      induction hsa with
      | refl =>
        by_cases h : s ∈ seen
        · exact .inl h
        · exact .inr (mem_walk_of_mem_stack next finite hs h)
      | tail _ hbc ih => exact next_subset_walk hclosed hfinite hstack hseen ih hbc
    exact hreached.resolve_left hnot

end RayScene
