/-!
Depth-first walks. The walk takes nodes from a stack, passes over those it has seen, and puts the
successors of a new node on top. Only a finite list of nodes may have successors.
-/
set_option autoImplicit false

namespace RayScene

variable {α : Type} [DecidableEq α]

theorem unseen_length_lt {finite seen : List α} {a : α} (hf : a ∈ finite) (hs : a ∉ seen) :
    (finite.filter (· ∉ a :: seen)).length < (finite.filter (· ∉ seen)).length := by
  induction finite with
  | nil => simp at hf
  | cons b bs ih =>
    have hle : (bs.filter (· ∉ a :: seen)).length ≤ (bs.filter (· ∉ seen)).length := by
      rw [← List.countP_eq_length_filter, ← List.countP_eq_length_filter]
      apply List.countP_mono_left
      intro x _ h
      simp at h ⊢
      exact h.2
    by_cases hb : b = a
    · subst hb
      simp only [List.filter_cons, List.mem_cons, true_or, not_true_eq_false, decide_false,
        hs, not_false_eq_true, decide_true, if_true, List.length_cons]
      simp only [List.mem_cons] at hle
      exact Nat.lt_succ_of_le hle
    · have hm : a ∈ bs := by
        rcases List.mem_cons.mp hf with h | h
        · exact absurd h.symm hb
        · exact h
      have := ih hm
      by_cases hbs : b ∈ seen
      · simpa [List.filter_cons, hb, hbs] using this
      · simpa [List.filter_cons, hb, hbs] using this

theorem unseen_length_eq {finite seen : List α} {a : α} (hf : a ∉ finite) :
    (finite.filter (· ∉ a :: seen)).length = (finite.filter (· ∉ seen)).length := by
  congr 1
  apply List.filter_congr
  intro x hx
  have : x ≠ a := fun h => hf (h ▸ hx)
  simp [this]

/-- The nodes that a stack leads to, each once, in the order in which they are taken. -/
def walk (next : α → List α) (finite : List α) (stack seen : List α) : List α :=
  match stack with
  | [] => []
  | a :: stack =>
    if a ∈ seen then walk next finite stack seen
    else if a ∈ finite then a :: walk next finite (next a ++ stack) (a :: seen)
    else a :: walk next finite stack (a :: seen)
termination_by ((finite.filter (· ∉ seen)).length, stack.length)
decreasing_by
  · exact Prod.Lex.right _ (by simp)
  · rename_i hs hf
    exact Prod.Lex.left _ _ (unseen_length_lt hf hs)
  · rename_i hf
    rw [unseen_length_eq hf]
    exact Prod.Lex.right _ (by simp)

end RayScene
