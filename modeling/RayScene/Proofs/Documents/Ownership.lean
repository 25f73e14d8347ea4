import Mathlib.Data.List.Perm.Subperm
import RayScene.Proofs.Documents.Walks
/-!
Containment and ownership. A node is inside of another one when a chain of children leads from there
to it, whatever cycles, shared children and missing nodes there are. The roots of a document are the
listed nodes that are visible, no folders, and inside of no body or part.
-/
set_option autoImplicit false

namespace RayScene.Document

open Relation

variable {d : Document} {id a b : NodeId} {n : Node}

def HasChild (d : Document) (a b : NodeId) : Prop := ∃ n, (a, n) ∈ d.entries ∧ b ∈ n.children

/-- A chain of one or more children leads from a listed node of some kind to an id. -/
def IsInside (d : Document) (p : Kind → Bool) (id : NodeId) : Prop :=
  ∃ a n, (a, n) ∈ d.entries ∧ p n.kind = true ∧ TransGen d.HasChild a id

theorem mem_entries_iff : (id, n) ∈ d.entries ↔ id ∈ d.order ∧ d.get? id = some n := by
  simp only [entries, List.mem_filterMap, Option.map_eq_some_iff, Prod.mk.injEq]
  constructor
  · rintro ⟨_, hid, _, hn, rfl, rfl⟩
    exact ⟨hid, hn⟩
  · rintro ⟨hid, hn⟩
    exact ⟨id, hid, n, hn, rfl, rfl⟩

theorem mem_parents_iff : a ∈ d.parents b ↔ d.HasChild a b := by
  simp [parents, HasChild]

theorem mem_liveIds_of_hasChild (h : d.HasChild a b) : a ∈ d.liveIds := by
  obtain ⟨n, hn, _⟩ := h
  exact mem_liveIds_of_get? (mem_entries_iff.mp hn).2

def liveIdsFrom (k : Nat) : List Slot → List NodeId
  | [] => []
  | s :: slots => (s.node?.map fun _ => ⟨k, s.generation⟩).toList ++ liveIdsFrom (k + 1) slots

theorem liveIds_eq_liveIdsFrom (d : Document) : d.liveIds = liveIdsFrom 0 d.slots.toList := by
  unfold liveIds
  generalize d.slots.toList = slots
  generalize 0 = k
  induction slots generalizing k with
  | nil => rfl
  | cons s slots ih => cases hs : s.node? <;> simp [liveIdsFrom, hs, ih]

theorem length_liveIdsFrom (slots : List Slot) (k : Nat) :
    (liveIdsFrom k slots).length = (slots.filterMap Slot.node?).length := by
  induction slots generalizing k with
  | nil => rfl
  | cons s slots ih => cases hs : s.node? <;> simp [liveIdsFrom, hs, ih]

theorem length_liveIds (d : Document) : d.liveIds.length = d.size := by
  rw [liveIds_eq_liveIdsFrom, length_liveIdsFrom, size]

theorem mem_ancestors_iff : a ∈ d.ancestors id ↔ TransGen d.HasChild a id := by
  have hlive : ∀ x, ∀ y ∈ d.parents x, y ∈ d.liveIds := fun x y hy =>
    mem_liveIds_of_hasChild (mem_parents_iff.mp hy)
  have hclosed : ∀ x, x ∈ d.liveIds → ∀ y ∈ d.parents x, y ∈ d.liveIds := fun x _ => hlive x
  have hswap : (fun x y => y ∈ d.parents x) = Function.swap d.HasChild := by
    funext x y
    exact propext mem_parents_iff
  unfold ancestors
  rw [mem_walk_iff hclosed (fun _ h hnot => absurd h hnot) (hlive id)
    (fun _ h => absurd h List.not_mem_nil), hswap, TransGen.tail'_iff]
  simp only [List.not_mem_nil, not_false_eq_true, true_and, reflTransGen_swap, mem_parents_iff]
  exact exists_congr fun _ => and_comm

theorem length_ancestors_le (d : Document) (id : NodeId) : (d.ancestors id).length ≤ d.size := by
  have hsub : d.ancestors id ⊆ d.liveIds := by
    intro a ha
    obtain ⟨b, hab, _⟩ := TransGen.head'_iff.mp (mem_ancestors_iff.mp ha)
    exact mem_liveIds_of_hasChild hab
  rw [← length_liveIds]
  exact (List.subperm_of_subset (nodup_walk _ _ _ _) hsub).length_le

theorem isOwned_of_parents_eq_nil (h : d.parents id = []) : d.isOwned id = false := by
  simp [isOwned, hasAncestor, ancestors, h, walk]

theorem roots_of_parents_eq_nil (h : ∀ e ∈ d.entries, d.parents e.1 = []) :
    d.roots = (d.entries.filter fun (_, n) => n.visible && !n.kind.isGroup).map (·.1) := by
  apply List.filter_eq_self.mpr
  intro id hid
  obtain ⟨e, he, rfl⟩ := List.mem_map.mp hid
  have hentry := List.mem_of_mem_filter he
  rw [isOwned_of_parents_eq_nil (h e hentry)]
  rfl

theorem hasAncestor_eq_true_iff {p : Kind → Bool} :
    d.hasAncestor id p = true ↔ d.IsInside p id := by
  simp only [hasAncestor, List.any_eq_true, mem_ancestors_iff, Option.any_eq_true]
  constructor
  · rintro ⟨a, hchain, n, hn, hp⟩
    obtain ⟨_, ⟨m, hm, _⟩, _⟩ := TransGen.head'_iff.mp hchain
    exact ⟨a, n, mem_entries_iff.mpr ⟨(mem_entries_iff.mp hm).1, hn⟩, hp, hchain⟩
  · rintro ⟨a, n, ha, hp, hchain⟩
    exact ⟨a, hchain, n, (mem_entries_iff.mp ha).2, hp⟩

instance (d : Document) (p : Kind → Bool) (id : NodeId) : Decidable (d.IsInside p id) :=
  decidable_of_iff (d.hasAncestor id p = true) hasAncestor_eq_true_iff

/-- A search from a node finds the kinds of all listed nodes that the node is inside of, takes none
of them twice, and comes to an end. The roots are the listed nodes, in their order, that are
visible, no folders, and inside of no body or part. -/
theorem roots_are_unowned (d : Document) :
    (∀ id p, d.hasAncestor id p = true ↔ d.IsInside p id) ∧
    (∀ id, (d.ancestors id).Nodup ∧ (d.ancestors id).length ≤ d.size) ∧
    d.roots = (d.entries.filter fun e =>
      e.2.visible ∧ ¬e.2.kind.isGroup ∧ ¬d.IsInside Kind.isOwner e.1).map (·.1) := by
  refine ⟨fun id p => hasAncestor_eq_true_iff, fun id => ⟨?_, d.length_ancestors_le id⟩, ?_⟩
  · exact nodup_walk _ _ _ _
  · unfold roots isOwned
    rw [List.filter_map, List.filter_filter]
    congr 2
    funext e
    rw [Bool.eq_iff_iff]
    simp only [Function.comp_apply, Bool.and_eq_true, Bool.not_eq_true', decide_eq_true_eq,
      ← hasAncestor_eq_true_iff, Bool.not_eq_true]
    tauto

end RayScene.Document
