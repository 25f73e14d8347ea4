import RayScene.Proofs.Documents.Walks
/-!
Depth-first searches. A walk takes its nodes in the order in which a recursive search meets them for
the first time: what waits on the stack below the successors of a node is looked at when all that
these lead to has been met. Nodes on the stack may be seen before their turn comes.
-/
set_option autoImplicit false

namespace RayScene

open Relation

section Searches

variable {α : Type} {next : α → List α} {finite seen roots stack met : List α}
  {s : List α × List α}

/-- What a recursive search from some nodes, from left to right, meets for the first time. A node
that has been seen is passed over; of a new one the successors are searched before the nodes beside
it. -/
inductive DepthFirst (next : α → List α) : List α → List α → List α → Prop
  | done {seen : List α} : DepthFirst next seen [] []
  | pass {seen roots met : List α} {a : α} :
      a ∈ seen → DepthFirst next seen roots met → DepthFirst next seen (a :: roots) met
  | meet {seen roots below met : List α} {a : α} :
      a ∉ seen → DepthFirst next (a :: seen) (next a) below →
      DepthFirst next (below.reverse ++ a :: seen) roots met →
      DepthFirst next seen (a :: roots) (a :: below ++ met)

/-- One round of a walk, on the stack and on what has been seen: the node on top is taken away, and
if it is new its successors come in its place. -/
inductive Round (next : α → List α) : List α × List α → List α × List α → Prop
  | pass {seen stack : List α} {a : α} : a ∈ seen → Round next (a :: stack, seen) (stack, seen)
  | take {seen stack : List α} {a : α} :
      a ∉ seen → Round next (a :: stack, seen) (next a ++ stack, a :: seen)

theorem round_rightUnique (next : α → List α) : Relator.RightUnique (Round next) := by
  intro s t u ht hu
  cases ht with
  | pass ha =>
    cases hu with
    | pass _ => rfl
    | take hb => exact absurd ha hb
  | take ha =>
    cases hu with
    | pass hb => exact absurd hb ha
    | take _ => rfl

variable [DecidableEq α]

theorem rounds_walk (hfinite : ∀ a ∉ finite, next a = []) (stack seen : List α) :
    ReflTransGen (Round next) (stack, seen) ([], (walk next finite stack seen).reverse ++
      seen) := by
  fun_induction walk next finite stack seen with
  | case1 seen => exact .refl
  | case2 seen a stack ha ih => exact ih.head (.pass ha)
  | case3 seen a stack ha hf ih =>
    rw [List.reverse_cons, List.append_assoc]
    exact ih.head (.take ha)
  | case4 seen a stack ha hf ih =>
    have htake : Round next (a :: stack, seen) (next a ++ stack, a :: seen) := .take ha
    rw [hfinite a hf, List.nil_append] at htake
    rw [List.reverse_cons, List.append_assoc]
    exact ih.head htake

/-- No round leads astray: from wherever some rounds have led, the others lead to the end. -/
theorem rounds_finish (hfinite : ∀ a ∉ finite, next a = [])
    (h : ReflTransGen (Round next) (stack, seen) s) :
    ReflTransGen (Round next) s ([], (walk next finite stack seen).reverse ++ seen) := by
  have hend := rounds_walk hfinite stack seen
  rcases ReflTransGen.total_of_right_unique (round_rightUnique next) h hend with hrest | hback
  · exact hrest
  · rcases ReflTransGen.cases_head hback with heq | ⟨_, hround, _⟩
    · rw [← heq]
    · cases hround

theorem DepthFirst.walk_append (hfinite : ∀ a ∉ finite, next a = [])
    (h : DepthFirst next seen roots met) (stack : List α) :
    walk next finite (roots ++ stack) seen =
      met ++ walk next finite stack (met.reverse ++ seen) := by
  induction h generalizing stack with
  | done => rfl
  | pass ha _ ih =>
    rw [List.cons_append, walk_cons hfinite, if_pos ha]
    exact ih stack
  | @meet seen roots below met a ha _ _ ihBelow ihMet =>
    rw [List.cons_append, walk_cons hfinite, if_neg ha, ihBelow, ihMet]
    simp

theorem unseen_length_append_le (finite more seen : List α) :
    (finite.filter (· ∉ more ++ seen)).length ≤ (finite.filter (· ∉ seen)).length := by
  rw [← List.countP_eq_length_filter, ← List.countP_eq_length_filter]
  apply List.countP_mono_left
  intro x _ hx
  simp only [List.mem_append, not_or, decide_eq_true_eq] at hx ⊢
  exact hx.2

/-- The search comes to an end although a node may lead back to nodes before it: each node that it
meets leaves fewer unseen ones. -/
theorem exists_depthFirst (hfinite : ∀ a ∉ finite, next a = []) (roots seen : List α) :
    ∃ met, DepthFirst next seen roots met := by
  match roots with
  | [] => exact ⟨[], .done⟩
  | a :: roots =>
    by_cases ha : a ∈ seen
    · obtain ⟨met, hmet⟩ := exists_depthFirst hfinite roots seen
      exact ⟨met, .pass ha hmet⟩
    by_cases hf : a ∈ finite
    · obtain ⟨below, hbelow⟩ := exists_depthFirst hfinite (next a) (a :: seen)
      obtain ⟨met, hmet⟩ := exists_depthFirst hfinite roots (below.reverse ++ a :: seen)
      exact ⟨_, .meet ha hbelow hmet⟩
    · have hbelow : DepthFirst next (a :: seen) (next a) [] := by
        rw [hfinite a hf]
        exact .done
      obtain ⟨met, hmet⟩ := exists_depthFirst hfinite roots (a :: seen)
      exact ⟨_, .meet ha hbelow hmet⟩
termination_by ((finite.filter (· ∉ seen)).length, roots.length)
decreasing_by
  · exact Prod.Lex.right _ (by simp)
  · exact Prod.Lex.left _ _ (unseen_length_lt hf ha)
  · have hmore := unseen_length_append_le finite below.reverse (a :: seen)
    exact Prod.Lex.left _ _ (Nat.lt_of_le_of_lt hmore (unseen_length_lt hf ha))
  · rw [unseen_length_eq hf]
    exact Prod.Lex.right _ (by simp)

/-- The search from the nodes on a stack meets what the walk takes, in the same order. -/
theorem depthFirst_iff_walk (hfinite : ∀ a ∉ finite, next a = []) :
    DepthFirst next seen stack met ↔ met = walk next finite stack seen := by
  have hwalk : ∀ {met}, DepthFirst next seen stack met → met = walk next finite stack seen := by
    intro met h
    have happend := h.walk_append hfinite []
    rw [List.append_nil] at happend
    rw [happend, walk, List.append_nil]
  constructor
  · exact hwalk
  · rintro rfl
    obtain ⟨met, h⟩ := exists_depthFirst hfinite stack seen
    exact hwalk h ▸ h

end Searches

namespace Document

/-- The collection of all that a node depends on comes to an end, without a repetition and without
the node itself. It has exactly the other ids that one or more references lead to, those of missing
nodes included, in the order in which a recursive search from the node meets them after it. -/
theorem outListRecursive_is_depthFirst (d : Document) (id : NodeId) :
    (∀ s, ReflTransGen (Round d.outList) (d.outList id, [id]) s →
      ReflTransGen (Round d.outList) s ([], (d.outListRecursive id).reverse ++ [id])) ∧
    (d.outListRecursive id).Nodup ∧ id ∉ d.outListRecursive id ∧
    (∀ a, a ∈ d.outListRecursive id ↔ a ≠ id ∧ TransGen d.Refers id a) ∧
    ∀ met, DepthFirst d.outList [] [id] met ↔ met = id :: d.outListRecursive id := by
  have hfinite : ∀ a ∉ d.liveIds, d.outList a = [] := fun _ => outList_of_not_mem_liveIds
  refine ⟨fun s h => rounds_finish hfinite h, nodup_walk _ _ _ _, ?_, fun a => ?_, fun met => ?_⟩
  · exact fun h => not_mem_seen_of_mem_walk h List.mem_cons_self
  · have hclosed : ∀ x, d.Needs id x → ∀ y ∈ d.outList x, d.Needs id y := fun _ hx _ hy =>
      hx.tail hy
    have hstart : ∀ x ∈ [id], ∀ y ∈ d.outList x, y ∈ [id] ∨ y ∈ d.outList id :=
      fun x hx y hy => .inr (List.mem_singleton.mp hx ▸ hy)
    unfold outListRecursive
    rw [mem_walk_iff hclosed (fun a _ => hfinite a) (fun _ ha => .single ha) hstart,
      TransGen.head'_iff, List.mem_singleton]
    rfl
  · rw [depthFirst_iff_walk hfinite, walk_cons hfinite, if_neg List.not_mem_nil, List.append_nil]
    rfl

end Document

end RayScene
