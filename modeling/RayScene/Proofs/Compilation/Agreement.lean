import Mathlib.Logic.Relation
import RayScene.Proofs.Compilation.Steps
/-!
Documents that agree on a node and on everything that it depends on. What is looked up on behalf of
the node is in this set, and edits of other nodes stay outside of it.
-/
set_option autoImplicit false

namespace RayScene

section Walks

variable {α : Type} [DecidableEq α] {next next' : α → List α} {finite finite' stack seen : List α}
  {within : α → Prop}

theorem walk_cons (hfinite : ∀ a ∉ finite, next a = []) (a : α) (stack seen : List α) :
    walk next finite (a :: stack) seen =
      if a ∈ seen then walk next finite stack seen
      else a :: walk next finite (next a ++ stack) (a :: seen) := by
  rw [walk]
  split
  · rfl
  · split
    · rfl
    · rename_i hf
      rw [hfinite a hf, List.nil_append]

/-- A walk does not leave a set that is closed, and nothing outside of it matters. -/
theorem walk_congr (hnext : ∀ a, within a → next' a = next a)
    (hclosed : ∀ a, within a → ∀ b ∈ next a, within b) (hfinite : ∀ a ∉ finite, next a = [])
    (hfinite' : ∀ a ∉ finite', next' a = []) (hstack : ∀ a ∈ stack, within a) :
    walk next' finite' stack seen = walk next finite stack seen := by
  fun_induction walk next finite stack seen with
  | case1 seen => rw [walk]
  | case2 seen a stack ha ih =>
    obtain ⟨_, hrest⟩ := List.forall_mem_cons.mp hstack
    rw [walk_cons hfinite', if_pos ha, ih hrest]
  | case3 seen a stack ha hf ih =>
    obtain ⟨hin, hrest⟩ := List.forall_mem_cons.mp hstack
    rw [walk_cons hfinite', if_neg ha, hnext a hin]
    rw [ih (List.forall_mem_append.mpr ⟨hclosed a hin, hrest⟩)]
  | case4 seen a stack ha hf ih =>
    obtain ⟨hin, hrest⟩ := List.forall_mem_cons.mp hstack
    rw [walk_cons hfinite', if_neg ha, hnext a hin, hfinite a hf, List.nil_append, ih hrest]

theorem within_of_mem_walk (hclosed : ∀ a, within a → ∀ b ∈ next a, within b)
    (hstack : ∀ a ∈ stack, within a) : ∀ a ∈ walk next finite stack seen, within a := by
  fun_induction walk next finite stack seen with
  | case1 => exact List.forall_mem_nil _
  | case2 seen a stack ha ih => exact ih (List.forall_mem_cons.mp hstack).2
  | case3 seen a stack ha hf ih =>
    obtain ⟨hin, hrest⟩ := List.forall_mem_cons.mp hstack
    have hmore := List.forall_mem_append.mpr ⟨hclosed a hin, hrest⟩
    exact List.forall_mem_cons.mpr ⟨hin, ih hmore⟩
  | case4 seen a stack ha hf ih =>
    obtain ⟨hin, hrest⟩ := List.forall_mem_cons.mp hstack
    exact List.forall_mem_cons.mpr ⟨hin, ih hrest⟩

end Walks

namespace Document

def Refers (d : Document) (a b : NodeId) : Prop := b ∈ d.outList a

def Needs (d : Document) : NodeId → NodeId → Prop := Relation.ReflTransGen d.Refers

/-- The same nodes in a set that contains the dependencies of all its nodes. -/
structure AgreeOn (d d' : Document) (within : NodeId → Prop) : Prop where
  get?_eq : ∀ id, within id → d'.get? id = d.get? id
  closed : ∀ id, within id → ∀ r ∈ d.outList id, within r

/-- The same nodes at an id and at all its dependencies, where those that are missing in one
document are missing in the other one too. -/
def AgreeBelow (d d' : Document) (id : NodeId) : Prop :=
  ∀ m, d.Needs id m → d'.get? m = d.get? m

section Agreement

variable {d d' : Document} {within : NodeId → Prop} {id r : NodeId} {n : Node}

theorem AgreeBelow.agreeOn (h : d.AgreeBelow d' id) : d.AgreeOn d' (d.Needs id) :=
  ⟨h, fun _ hm _ hr => hm.tail hr⟩

theorem Needs.mem_of_closed {ids : List NodeId} (h : d.Needs id r)
    (hclosed : ∀ m ∈ ids, ∀ b ∈ d.outList m, b ∈ ids) (hid : id ∈ ids) : r ∈ ids := by
  induction h with
  | refl => exact hid
  | tail _ hr ih => exact hclosed _ ih _ hr

theorem mem_outList_of_mem_children (hn : d.get? id = some n) (hr : r ∈ n.children) :
    r ∈ d.outList id := by
  simp only [outList, hn]
  exact mem_foldl_insert (.inl hr)

theorem mem_liveIds_of_get? (hn : d.get? id = some n) : id ∈ d.liveIds := by
  unfold get? at hn
  split at hn
  · rename_i g m hs
    split at hn
    · rename_i hg
      unfold liveIds
      rw [List.mem_filterMap]
      refine ⟨(.occupied g m, id.index), ?_, ?_⟩
      · rw [List.mem_zipIdx_iff_getElem?, Array.getElem?_toList]
        exact hs
      · subst hg
        rfl
    · cases hn
  · cases hn

theorem outList_of_not_mem_liveIds (h : id ∉ d.liveIds) : d.outList id = [] := by
  cases hn : d.get? id with
  | none => simp [outList, hn]
  | some n => exact absurd (mem_liveIds_of_get? hn) h

namespace AgreeOn

variable (h : d.AgreeOn d' within)

include h

theorem within_of_mem_children (hid : within id) (hn : d.get? id = some n) (hr : r ∈ n.children) :
    within r := h.closed id hid r (mem_outList_of_mem_children hn hr)

theorem within_of_mem_references (hid : within id) (hn : d.get? id = some n)
    (hr : r ∈ n.kind.references) : within r :=
  h.closed id hid r (mem_outList_of_mem_references hn hr)

theorem contains_eq (hid : within id) : d'.contains id = d.contains id := by
  unfold contains
  rw [h.get?_eq id hid]

theorem sketch?_eq (hid : within id) : d'.sketch? id = d.sketch? id := by
  unfold sketch?
  rw [h.get?_eq id hid]

theorem outList_eq (hid : within id) : d'.outList id = d.outList id := by
  unfold outList
  rw [h.get?_eq id hid]

theorem outListRecursive_eq (hid : within id) :
    d'.outListRecursive id = d.outListRecursive id := by
  unfold outListRecursive
  rw [h.outList_eq hid]
  exact walk_congr (fun _ => h.outList_eq) h.closed (fun _ => outList_of_not_mem_liveIds)
    (fun _ => outList_of_not_mem_liveIds) (h.closed id hid)

theorem supportsBody_eq (hid : within id) : d'.supportsBody id = d.supportsBody id := by
  have hdeps : ∀ dep ∈ d.outListRecursive id, within dep :=
    within_of_mem_walk h.closed (h.closed id hid)
  unfold supportsBody
  rw [h.outListRecursive_eq hid, Bool.eq_iff_iff, List.all_eq_true, List.all_eq_true]
  exact forall₂_congr fun dep hdep => by rw [h.get?_eq dep (hdeps dep hdep)]

theorem hasSupportedSketch_eq (hid : within id) :
    d'.hasSupportedSketch id = d.hasSupportedSketch id := by
  unfold hasSupportedSketch
  rw [h.sketch?_eq hid]

end AgreeOn

end Agreement

inductive Edit (d : Document) : NodeId → Document → Prop
  | added (n : Node) : Edit d d.nextId (d.add n)
  | changed (id : NodeId) (f : Node → Node) : Edit d id (d.modify id f)
  | removed (id : NodeId) : Edit d id (d.remove id)

section Edits

variable {d d' : Document} {id m : NodeId} {n : Node}

theorem getElem?_of_get? (h : d.get? m = some n) :
    d.slots[m.index]? = some (.occupied m.generation n) := by
  unfold get? at h
  split at h
  · rename_i g n' hs
    split at h
    · rename_i hg
      cases h
      rw [hs, hg]
    · cases h
  · cases h

theorem get?_eq_none (h : ∀ n, d.slots[m.index]? ≠ some (.occupied m.generation n)) :
    d.get? m = none := by
  cases hn : d.get? m with
  | none => rfl
  | some n => exact absurd (getElem?_of_get? hn) (h n)

theorem generation_ne (h : m ≠ id) (hi : id.index = m.index) : id.generation ≠ m.generation := by
  intro hg
  apply h
  cases m
  cases id
  simp_all

theorem get?_eq_none_of_index (hn : d.get? id = some n) (h : m ≠ id) (hi : id.index = m.index) :
    d.get? m = none := by
  apply get?_eq_none
  intro n' hs
  rw [← hi, getElem?_of_get? hn] at hs
  simp only [Option.some.injEq, Slot.occupied.injEq] at hs
  exact generation_ne h hi hs.1

theorem get?_setIfInBounds {i : Nat} {slot : Slot} (h : d'.slots = d.slots.setIfInBounds i slot)
    (hsame : i = m.index → d.get? m = none ∧ ∀ n, slot ≠ .occupied m.generation n) :
    d'.get? m = d.get? m := by
  by_cases hi : i = m.index
  · obtain ⟨hnone, hslot⟩ := hsame hi
    rw [hnone]
    apply get?_eq_none
    intro n hs
    rw [h, hi, Array.getElem?_setIfInBounds_self] at hs
    split at hs
    · exact hslot n (Option.some.inj hs)
    · cases hs
  · unfold get?
    rw [h, Array.getElem?_setIfInBounds_ne hi]

theorem get?_add (h : m ≠ d.nextId) (n : Node) : (d.add n).get? m = d.get? m := by
  unfold add
  cases hfree : d.free with
  | nil =>
    have hnext : d.nextId = ⟨d.slots.size, 0⟩ := by simp [nextId, hfree]
    rw [hnext] at h
    by_cases hi : d.slots.size = m.index
    · have hbefore : d.get? m = none := get?_eq_none fun n hs => by
        rw [← hi, Array.getElem?_eq_none (Nat.le_refl _)] at hs
        cases hs
      rw [hbefore]
      apply get?_eq_none
      intro n' hs
      rw [← hi, Array.getElem?_push_size] at hs
      simp only [Option.some.injEq, Slot.occupied.injEq] at hs
      exact generation_ne h hi hs.1
    · unfold get?
      dsimp only
      rw [Array.getElem?_push, if_neg (Ne.symm hi)]
  | cons i rest =>
    apply get?_setIfInBounds rfl
    intro hi
    have hindex : d.nextId.index = m.index := by simp [nextId, hfree, hi]
    have hg := generation_ne h hindex
    refine ⟨get?_eq_none fun n hs => hg ?_, fun n hslot => ?_⟩
    · rw [← hi] at hs
      simp [nextId, hfree, hs, Slot.generation]
    · simp only [Slot.occupied.injEq] at hslot
      exact hg hslot.1

theorem get?_modify (h : m ≠ id) (f : Node → Node) : (d.modify id f).get? m = d.get? m := by
  unfold modify
  cases hn : d.get? id with
  | none => rfl
  | some n =>
    apply get?_setIfInBounds rfl
    intro hi
    refine ⟨get?_eq_none_of_index hn h hi, fun n' hslot => ?_⟩
    simp only [Slot.occupied.injEq] at hslot
    exact generation_ne h hi hslot.1

theorem get?_remove (h : m ≠ id) : (d.remove id).get? m = d.get? m := by
  unfold remove
  dsimp only
  split
  · rename_i hc
    obtain ⟨n, hn⟩ := contains_eq_true_iff.mp hc
    rw [getElem?_of_get? hn]
    apply get?_setIfInBounds rfl
    intro hi
    refine ⟨get?_eq_none_of_index hn h hi, fun n' hslot => ?_⟩
    simp [Slot.vacated] at hslot
  · rfl

theorem Edit.get?_eq (h : d.Edit id d') (hm : m ≠ id) : d'.get? m = d.get? m := by
  cases h with
  | added n => exact get?_add hm n
  | changed _ f => exact get?_modify hm f
  | removed => exact get?_remove hm

theorem Edit.agreeBelow {root : NodeId} (h : d.Edit id d') (hid : ¬d.Needs root id) :
    d.AgreeBelow d' root := by
  intro m hm
  apply h.get?_eq
  rintro rfl
  exact hid hm

end Edits

end Document

end RayScene
