import Mathlib.Algebra.GroupWithZero.Nat
import RayScene.Proofs.Compilation.Agreement
set_option autoImplicit false

namespace RayScene

def Node.normalized (n : Node) : Node :=
  { n with placement := { n.placement with rotation := n.placement.rotation.normalized } }

namespace Document

/-- The version of a place, which is odd while a node lives there. -/
def version? (d : Document) (i : Nat) : Option Nat := (d.slots[i]?).map Slot.version

section Places

variable {d : Document} {id m : NodeId} {n : Node} {i : Nat}

theorem exists_slot_of_get? (h : d.get? id = some n) :
    ∃ g, Slot.occupied g n ∈ d.slots.toList :=
  ⟨_, Array.mem_toList_iff.mpr (Array.mem_of_getElem? (getElem?_of_get? h))⟩

theorem version?_of_get? (h : d.get? id = some n) : d.version? id.index = some id.version := by
  simp [version?, getElem?_of_get? h, Slot.version, NodeId.version]

theorem contains_iff_version? : d.contains id = true ↔ d.version? id.index = some id.version := by
  constructor
  · intro h
    obtain ⟨n, hn⟩ := contains_eq_true_iff.mp h
    exact version?_of_get? hn
  · intro h
    obtain ⟨s, hs, hv⟩ := Option.map_eq_some_iff.mp h
    cases s with
    | vacant g => simp only [Slot.version, NodeId.version] at hv; omega
    | occupied g n =>
      have hg : g = id.generation := by
        apply BitVec.eq_of_toNat_eq
        simp only [Slot.version, NodeId.version] at hv
        omega
      exact contains_eq_true_iff.mpr ⟨n, by simp [get?, hs, hg]⟩

theorem lt_size_of_version? {v : Nat} (h : d.version? i = some v) : i < d.slots.size := by
  obtain ⟨s, hs, _⟩ := Option.map_eq_some_iff.mp h
  exact (Array.getElem?_eq_some_iff.mp hs).1

theorem version?_nextId (hfree : ∀ i ∈ d.free, ∃ v, d.version? i = some v ∧ v % 2 = 0) :
    (d.version? d.nextId.index = none ∧ d.nextId.generation = 0) ∨
      d.version? d.nextId.index = some (2 * d.nextId.generation.toNat) := by
  cases hf : d.free with
  | nil => simp [nextId, hf, version?]
  | cons i rest =>
    obtain ⟨v, hv, heven⟩ := hfree i (by simp [hf])
    obtain ⟨s, hs, hsv⟩ := Option.map_eq_some_iff.mp hv
    cases s with
    | vacant g => simp [nextId, hf, version?, hs, Slot.generation, Slot.version]
    | occupied g n => simp only [Slot.version] at hsv; omega

theorem getElem?_add (hfree : ∀ i ∈ d.free, i < d.slots.size) (n : Node) (i : Nat) :
    (d.add n).slots[i]? =
      if i = d.nextId.index then some (.occupied d.nextId.generation n) else d.slots[i]? := by
  cases hf : d.free with
  | nil => simp [add, nextId, hf, Array.getElem?_push]
  | cons k rest =>
    have hk := hfree k (by simp [hf])
    simp only [add, hf, Array.getElem?_setIfInBounds, hk, if_true]
    simp only [nextId, hf, eq_comm]

theorem getElem?_remove (hn : d.get? id = some n) (i : Nat) : (d.remove id).slots[i]? =
    if i = id.index then some (.vacant (id.generation + 1)) else d.slots[i]? := by
  have hs := getElem?_of_get? hn
  have hlt := (Array.getElem?_eq_some_iff.mp hs).1
  simp only [remove, contains, hn, Option.isSome_some, if_true, hs, Slot.vacated,
    Array.getElem?_setIfInBounds, hlt, eq_comm (a := i)]

theorem getElem?_modify (hn : d.get? id = some n) (f : Node → Node) (i : Nat) :
    (d.modify id f).slots[i]? =
      if i = id.index then some (.occupied id.generation (f n)) else d.slots[i]? := by
  have hlt := (Array.getElem?_eq_some_iff.mp (getElem?_of_get? hn)).1
  simp only [modify, hn, Array.getElem?_setIfInBounds, hlt, if_true, eq_comm (a := i)]

theorem version?_add (hfree : ∀ i ∈ d.free, i < d.slots.size) (n : Node) (i : Nat) :
    (d.add n).version? i = if i = d.nextId.index then some d.nextId.version else d.version? i := by
  unfold version?
  rw [getElem?_add hfree]
  split <;> rfl

/-- Removal goes one version on, and past the last one starts over. -/
theorem version?_remove (hn : d.get? id = some n) (i : Nat) : (d.remove id).version? i =
    if i = id.index then some ((id.version + 1) % 2 ^ 32) else d.version? i := by
  unfold version?
  rw [getElem?_remove hn]
  split
  · simp only [Option.map_some, Slot.version, NodeId.version, BitVec.toNat_add, Option.some.injEq]
    have : (1 : BitVec 31).toNat = 1 := rfl
    omega
  · rfl

theorem version?_modify (id : NodeId) (f : Node → Node) (i : Nat) :
    (d.modify id f).version? i = d.version? i := by
  cases hn : d.get? id with
  | none => simp [modify, hn]
  | some n =>
    unfold version?
    rw [getElem?_modify hn]
    split
    · rename_i hi
      simp [hi, getElem?_of_get? hn, Slot.version]
    · rfl

theorem version?_normalizeRotations (i : Nat) :
    d.normalizeRotations.version? i = d.version? i := by
  unfold version? normalizeRotations
  rw [Array.getElem?_map, Option.map_map]
  congr 1
  funext s
  cases s <;> rfl

theorem get?_empty (id : NodeId) : empty.get? id = none := by
  apply get?_eq_none
  intro n hn
  have hlt := (Array.getElem?_eq_some_iff.mp hn).1
  obtain ⟨i, g⟩ := id
  obtain rfl : i = 0 := by simpa [empty] using hlt
  simp [empty] at hn

theorem get?_add_self (hfree : ∀ i ∈ d.free, i < d.slots.size) (n : Node) :
    (d.add n).get? d.nextId = some n := by
  unfold get?
  rw [getElem?_add hfree]
  simp

theorem mem_slots_add {s : Slot} (h : s ∈ (d.add n).slots.toList) :
    s ∈ d.slots.toList ∨ ∃ g, s = .occupied g n := by
  unfold add at h
  split at h
  · rw [Array.toList_setIfInBounds] at h
    rcases List.mem_or_eq_of_mem_set h with hold | rfl
    · exact .inl hold
    · exact .inr ⟨_, rfl⟩
  · rw [Array.toList_push] at h
    rcases List.mem_append.mp h with hold | hnew
    · exact .inl hold
    · exact .inr ⟨_, List.mem_singleton.mp hnew⟩

theorem mem_of_get?_foldl_add {nodes : List Node} (h : (nodes.foldl add empty).get? id = some n) :
    n ∈ nodes := by
  have hslots : ∀ (d : Document) (nodes : List Node) (g : BitVec 31),
      .occupied g n ∈ (nodes.foldl add d).slots.toList → .occupied g n ∈ d.slots.toList ∨
          n ∈ nodes := by
    intro d nodes g
    induction nodes generalizing d with
    | nil => exact .inl
    | cons m nodes ih =>
      intro hmem
      rcases ih _ hmem with hadd | hrest
      · rcases mem_slots_add hadd with hold | ⟨_, hnew⟩
        · exact .inl hold
        · cases hnew
          exact .inr List.mem_cons_self
      · exact .inr (List.mem_cons_of_mem _ hrest)
  obtain ⟨g, hg⟩ := exists_slot_of_get? h
  exact (hslots _ _ g hg).resolve_left (by simp [empty])

def ImageFiles (P : String → Prop) (d : Document) : Prop :=
  ∀ id n file x y, d.get? id = some n → n.kind = .imagePlane file x y → P file

theorem ImageFiles.of_foldl_add {nodes : List Node} {P : String → Prop}
    (hnodes : ∀ m ∈ nodes, ∀ file x y, m.kind ≠ .imagePlane file x y) :
    (nodes.foldl add empty).ImageFiles P :=
  fun _ m file x y hm hk => absurd hk (hnodes m (mem_of_get?_foldl_add hm) file x y)

theorem get?_remove_self (d : Document) (id : NodeId) : (d.remove id).get? id = none := by
  cases hn : d.get? id with
  | none =>
    simp only [remove, contains, hn]
    exact hn
  | some n =>
    unfold get?
    rw [getElem?_remove hn]
    simp

theorem get?_modify_self (d : Document) (id : NodeId) (f : Node → Node) :
    (d.modify id f).get? id = (d.get? id).map f := by
  cases hn : d.get? id with
  | none => simp [modify, hn]
  | some n =>
    unfold get?
    rw [getElem?_modify hn]
    simp

theorem get?_normalizeRotations (id : NodeId) :
    d.normalizeRotations.get? id = (d.get? id).map Node.normalized := by
  unfold get? normalizeRotations
  rw [Array.getElem?_map]
  cases d.slots[id.index]? with
  | none => rfl
  | some s =>
    cases s with
    | vacant g => rfl
    | occupied g n => by_cases hg : g = id.generation <;> simp [hg, Node.normalized]

theorem free_add (d : Document) (n : Node) : (d.add n).free = d.free.tail := by
  unfold add
  cases d.free <;> rfl

theorem order_add (d : Document) (n : Node) : (d.add n).order = d.order ++ [d.nextId] := by
  unfold add
  cases d.free <;> rfl

theorem free_remove (hn : d.get? id = some n) : (d.remove id).free = id.index :: d.free := by
  simp [remove, contains, hn, getElem?_of_get? hn]

theorem order_remove (d : Document) (id : NodeId) :
    (d.remove id).order = d.order.filter (· ≠ id) := by
  cases hn : d.get? id with
  | none => simp [remove, contains, hn]
  | some n => simp [remove, contains, hn, getElem?_of_get? hn]

theorem free_modify (d : Document) (id : NodeId) (f : Node → Node) :
    (d.modify id f).free = d.free := by
  unfold modify
  split <;> rfl

theorem order_modify (d : Document) (id : NodeId) (f : Node → Node) :
    (d.modify id f).order = d.order := by
  unfold modify
  split <;> rfl

theorem remove_of_get?_eq_none (hn : d.get? id = none) :
    d.remove id = { d with order := d.order.filter (· ≠ id) } := by
  simp [remove, contains, hn]

theorem remove_of_not_mem_order (hn : d.get? id = none) (ho : id ∉ d.order) :
    d.remove id = d := by
  have hfilter : d.order.filter (· ≠ id) = d.order :=
    List.filter_eq_self.mpr fun m hm => by simpa using fun h : m = id => ho (h ▸ hm)
  rw [remove_of_get?_eq_none hn, hfilter]

end Places

/-- The first place is never used, and all other places that are free or listed are there. -/
structure Arranged (d : Document) : Prop where
  first : d.version? 0 = some 0
  free : ∀ i ∈ d.free, 0 < i ∧ d.version? i ≠ none
  order : ∀ id ∈ d.order, d.version? id.index ≠ none

namespace Arranged

variable {d : Document} {n : Node} {i : Nat}

theorem empty : Document.empty.Arranged :=
  ⟨rfl, List.forall_mem_nil _, List.forall_mem_nil _⟩

variable (h : d.Arranged)

include h

theorem getElem?_zero : d.slots[0]? = some (.vacant 0) := by
  obtain ⟨s, hs, hv⟩ := Option.map_eq_some_iff.mp h.first
  cases s with
  | vacant g =>
    have hg : g = 0 := by
      apply BitVec.eq_of_toNat_eq
      simp only [Slot.version] at hv
      change g.toNat = 0
      omega
    rw [hs, hg]
  | occupied g n => simp [Slot.version] at hv

theorem free_lt : ∀ i ∈ d.free, i < d.slots.size := by
  intro i hi
  obtain ⟨v, hv⟩ := Option.ne_none_iff_exists'.mp (h.free i hi).2
  exact lt_size_of_version? hv

theorem index_lt {id : NodeId} (hid : id ∈ d.order) : id.index < d.slots.size := by
  obtain ⟨v, hv⟩ := Option.ne_none_iff_exists'.mp (h.order id hid)
  exact lt_size_of_version? hv

theorem index_nextId_pos : 0 < d.nextId.index := by
  unfold nextId
  split
  · rename_i i rest hf
    exact (h.free i (by simp [hf])).1
  · exact lt_size_of_version? h.first

theorem add (n : Node) : (d.add n).Arranged := by
  have hversion := version?_add h.free_lt n
  have hkept : ∀ i, d.version? i ≠ none → (d.add n).version? i ≠ none := by
    intro i hi
    rw [hversion]
    split
    · exact Option.some_ne_none _
    · exact hi
  constructor
  · rw [hversion, if_neg (Nat.ne_of_lt h.index_nextId_pos), h.first]
  · intro i hi
    rw [free_add] at hi
    obtain ⟨hpos, hthere⟩ := h.free i (List.mem_of_mem_tail hi)
    exact ⟨hpos, hkept i hthere⟩
  · intro id hid
    rw [order_add] at hid
    rcases List.mem_append.mp hid with hid | hid
    · exact hkept _ (h.order id hid)
    · rw [List.mem_singleton.mp hid, hversion, if_pos rfl]
      exact Option.some_ne_none _

theorem congr {d' : Document} (hversion : ∀ i, d'.version? i = d.version? i)
    (hfree : d'.free = d.free) (horder : d'.order = d.order) : d'.Arranged := by
  constructor
  · exact (hversion 0).trans h.first
  · simpa only [hversion, hfree] using h.free
  · simpa only [hversion, horder] using h.order

theorem remove (id : NodeId) : (d.remove id).Arranged := by
  cases hn : d.get? id with
  | none =>
    rw [remove_of_get?_eq_none hn]
    exact ⟨h.first, h.free, fun m hm => h.order m (List.mem_of_mem_filter hm)⟩
  | some n =>
    have hbefore := version?_of_get? hn
    have hversion := version?_remove hn
    have hpos : 0 < id.index := by
      apply Nat.pos_of_ne_zero
      intro hzero
      rw [hzero, h.first, NodeId.version, Option.some.injEq] at hbefore
      omega
    have hkept : ∀ i, d.version? i ≠ none → (d.remove id).version? i ≠ none := by
      intro i hi
      rw [hversion]
      split
      · exact Option.some_ne_none _
      · exact hi
    constructor
    · rw [hversion, if_neg (Nat.ne_of_lt hpos), h.first]
    · intro i hi
      rw [free_remove hn] at hi
      rcases List.mem_cons.mp hi with rfl | hi
      · exact ⟨hpos, hkept _ (hbefore ▸ Option.some_ne_none _)⟩
      · exact ⟨(h.free i hi).1, hkept i (h.free i hi).2⟩
    · intro m hm
      rw [order_remove] at hm
      exact hkept _ (h.order m (List.mem_of_mem_filter hm))

end Arranged

end Document

end RayScene
