import Mathlib.Data.List.Perm.Subperm
import Mathlib.Logic.Function.Basic
import RayScene.Proofs.Documents.Arena
import RayScene.Proofs.Documents.Ownership
/-!
Histories of a document, from the empty one on. The versions of the places tell how often each of
them has been used, so that an id that is given out is new, and the id of a node that is gone never
leads to another node. The order lists exactly the nodes that are there.
-/
set_option autoImplicit false

namespace RayScene

inductive Change where
  | add (n : Node)
  | remove (id : NodeId)
  | modify (id : NodeId) (f : Node → Node)
  | normalize

/-- A document with the ids that it has given out, oldest first, and with the node that has been
stored last under each id and not taken out since. -/
structure History where
  document : Document
  issued : List NodeId
  stored : NodeId → Option Node

namespace History

def start : History := ⟨Document.empty, [], fun _ => none⟩

def extend (h : History) : Change → History
  | .add n => ⟨h.document.add n, h.issued ++ [h.document.nextId],
      Function.update h.stored h.document.nextId (some n)⟩
  | .remove id => ⟨h.document.remove id, h.issued, Function.update h.stored id none⟩
  | .modify id f => ⟨h.document.modify id f, h.issued,
      Function.update h.stored id ((h.stored id).map f)⟩
  | .normalize => ⟨h.document.normalizeRotations, h.issued,
      fun id => (h.stored id).map Node.normalized⟩

def after (h : History) (changes : List Change) : History := changes.foldl extend h

def of (changes : List Change) : History := start.after changes

def uses (h : History) (i : Nat) : Nat := h.issued.countP (·.index = i)

/-- No place has been used more often than there are versions for it. -/
def Unworn (h : History) : Prop := ∀ i, h.uses i ≤ 2 ^ 31

/-- Versions count the uses of their places, and free are the places with an even version. -/
structure Sound (h : History) : Prop where
  first : h.document.version? 0 = some 0
  nodup_free : h.document.free.Nodup
  mem_free : ∀ i, i ∈ h.document.free ↔ 0 < i ∧ ∃ v, h.document.version? i = some v ∧ v % 2 = 0
  uses_eq : ∀ i v, 0 < i → h.document.version? i = some v →
    (v + 1) / 2 % 2 ^ 31 = h.uses i % 2 ^ 31
  unused : ∀ i, h.document.version? i = none → h.uses i = 0
  generation_lt : ∀ id ∈ h.issued, id.generation.toNat < h.uses id.index
  nodup_issued : h.issued.Nodup
  mem_issued : ∀ id, h.document.contains id = true → id ∈ h.issued
  stored_eq : ∀ id, h.document.get? id = h.stored id
  order_eq : h.document.order = h.issued.filter h.document.contains

variable {h : History}

theorem sound_start : start.Sound where
  first := rfl
  nodup_free := List.nodup_nil
  mem_free i := by
    cases i with
    | zero => simp [start, Document.empty]
    | succ i => simp [start, Document.empty, Document.version?]
  uses_eq i v hi hv := by
    have hlt := Document.lt_size_of_version? hv
    simp only [start, Document.empty, List.size_toArray, List.length_singleton] at hlt
    omega
  unused i _ := rfl
  generation_lt := nofun
  nodup_issued := List.nodup_nil
  mem_issued id hid := by
    rw [Document.contains_iff_version?] at hid
    have hlt := Document.lt_size_of_version? hid
    simp only [start, Document.empty, List.size_toArray, List.length_singleton] at hlt
    obtain ⟨i, g⟩ := id
    obtain rfl : i = 0 := by simpa using hlt
    simp [start, Document.empty, Document.version?, Slot.version, NodeId.version] at hid
  stored_eq := Document.get?_empty
  order_eq := rfl

theorem uses_extend_add (h : History) (n : Node) (i : Nat) :
    (h.extend (.add n)).uses i = h.uses i + if i = h.document.nextId.index then 1 else 0 := by
  simp [uses, extend, List.countP_append, List.countP_singleton, eq_comm]

theorem uses_nextId_lt {n : Node} (hu : (h.extend (.add n)).Unworn) :
    h.uses h.document.nextId.index < 2 ^ 31 := by
  have hle := hu h.document.nextId.index
  rw [uses_extend_add, if_pos rfl] at hle
  omega

namespace Sound

variable (hs : h.Sound)

include hs

theorem arranged : h.document.Arranged where
  first := hs.first
  free i hi := by
    obtain ⟨hpos, v, hv, _⟩ := (hs.mem_free i).mp hi
    exact ⟨hpos, hv ▸ Option.some_ne_none v⟩
  order id hid := by
    rw [hs.order_eq, List.mem_filter, Document.contains_iff_version?] at hid
    exact hid.2 ▸ Option.some_ne_none _

/-- While places are not worn out, the generation of the next id is how often its place has been
used. -/
theorem generation_nextId (hu : h.uses h.document.nextId.index < 2 ^ 31) :
    h.document.nextId.generation.toNat = h.uses h.document.nextId.index := by
  have hlt := h.document.nextId.generation.isLt
  have hfree : ∀ i ∈ h.document.free, ∃ v, h.document.version? i = some v ∧ v % 2 = 0 :=
    fun i hi => ((hs.mem_free i).mp hi).2
  rcases Document.version?_nextId hfree with ⟨hnone, hg⟩ | hv
  · rw [hs.unused _ hnone, hg]
    rfl
  · have huses := hs.uses_eq _ _ hs.arranged.index_nextId_pos hv
    omega

theorem nextId_not_mem (hu : h.uses h.document.nextId.index < 2 ^ 31) :
    h.document.nextId ∉ h.issued := by
  intro hmem
  have hlt := hs.generation_lt _ hmem
  rw [hs.generation_nextId hu] at hlt
  omega

theorem mem_tail_free (i : Nat) :
    i ∈ h.document.free.tail ↔ i ∈ h.document.free ∧ i ≠ h.document.nextId.index := by
  cases hf : h.document.free with
  | nil => simp
  | cons k rest =>
    have hk : k ∉ rest := (List.nodup_cons.mp (hf ▸ hs.nodup_free)).1
    have hindex : h.document.nextId.index = k := by simp [Document.nextId, hf]
    rw [List.tail_cons, hindex, List.mem_cons]
    constructor
    · exact fun hi => ⟨.inr hi, fun h => hk (h ▸ hi)⟩
    · exact fun hi => hi.1.resolve_left hi.2

theorem congr (h' : History) (hversion : ∀ i, h'.document.version? i = h.document.version? i)
    (hfree : h'.document.free = h.document.free) (horder : h'.document.order = h.document.order)
    (hissued : h'.issued = h.issued) (hstored : ∀ id, h'.document.get? id = h'.stored id) :
    h'.Sound := by
  have huses : ∀ i, h'.uses i = h.uses i := fun i => by rw [uses, hissued, uses]
  have hcontains : h'.document.contains = h.document.contains := by
    funext id
    rw [Bool.eq_iff_iff, Document.contains_iff_version?, Document.contains_iff_version?, hversion]
  constructor
  · exact (hversion 0).trans hs.first
  · exact hfree ▸ hs.nodup_free
  · simpa only [hfree, hversion] using hs.mem_free
  · simpa only [hversion, huses] using hs.uses_eq
  · simpa only [hversion, huses] using hs.unused
  · simpa only [hissued, huses] using hs.generation_lt
  · exact hissued ▸ hs.nodup_issued
  · simpa only [hissued, hcontains] using hs.mem_issued
  · exact hstored
  · rw [horder, hissued, hcontains, hs.order_eq]

section Add

variable (n : Node)

theorem mem_free_add (i : Nat) : i ∈ (h.document.add n).free ↔
    0 < i ∧ ∃ v, (h.document.add n).version? i = some v ∧ v % 2 = 0 := by
  rw [Document.free_add, hs.mem_tail_free, hs.mem_free, Document.version?_add hs.arranged.free_lt]
  by_cases hi : i = h.document.nextId.index
  · simp only [hi, ne_eq, not_true_eq_false, and_false, if_true, Option.some.injEq, false_iff]
    rintro ⟨_, v, rfl, heven⟩
    simp only [NodeId.version] at heven
    omega
  · simp [hi]

theorem uses_eq_add (hroom : h.uses h.document.nextId.index < 2 ^ 31) {i v : Nat} (hi : 0 < i)
    (hv : (h.document.add n).version? i = some v) :
    (v + 1) / 2 % 2 ^ 31 = (h.extend (.add n)).uses i % 2 ^ 31 := by
  rw [Document.version?_add hs.arranged.free_lt] at hv
  rw [uses_extend_add]
  split at hv
  · rename_i hk
    cases hv
    rw [if_pos hk, hk, ← hs.generation_nextId hroom, NodeId.version]
    omega
  · rename_i hk
    rw [if_neg hk, Nat.add_zero]
    exact hs.uses_eq i v hi hv

theorem order_eq_add (hnew : h.document.nextId ∉ h.issued) : (h.document.add n).order =
    (h.issued ++ [h.document.nextId]).filter (h.document.add n).contains := by
  have hold : ∀ id ∈ h.issued, (h.document.add n).contains id = h.document.contains id := by
    intro id hid
    have hne : id ≠ h.document.nextId := fun hk => hnew (hk ▸ hid)
    rw [Document.contains, Document.get?_add hne, Document.contains]
  have hlast : (h.document.add n).contains h.document.nextId = true := by
    rw [Document.contains, Document.get?_add_self hs.arranged.free_lt, Option.isSome_some]
  simp only [Document.order_add, List.filter_append, List.filter_congr hold, hs.order_eq,
    List.filter_cons_of_pos hlast, List.filter_nil]

theorem add (hu : (h.extend (.add n)).Unworn) : (h.extend (.add n)).Sound where
  first := by
    have hpos := hs.arranged.index_nextId_pos
    rw [History.extend, Document.version?_add hs.arranged.free_lt, if_neg (by omega), hs.first]
  nodup_free := by
    rw [History.extend, Document.free_add]
    exact hs.nodup_free.tail
  mem_free := hs.mem_free_add n
  uses_eq _ _ := hs.uses_eq_add n (uses_nextId_lt hu)
  unused i hv := by
    rw [History.extend, Document.version?_add hs.arranged.free_lt] at hv
    split at hv
    · cases hv
    · rename_i hk
      rw [uses_extend_add, if_neg hk, hs.unused i hv]
  generation_lt id hid := by
    rw [uses_extend_add]
    rcases List.mem_append.mp hid with hid | hid
    · have hlt := hs.generation_lt id hid
      omega
    · rw [List.mem_singleton.mp hid, if_pos rfl, hs.generation_nextId (uses_nextId_lt hu)]
      omega
  nodup_issued := by
    refine List.nodup_append.mpr ⟨hs.nodup_issued, by simp, ?_⟩
    intro a ha b hb hab
    rw [hab, List.mem_singleton.mp hb] at ha
    exact hs.nextId_not_mem (uses_nextId_lt hu) ha
  mem_issued id hid := by
    rw [History.extend, List.mem_append, List.mem_singleton]
    by_cases hk : id = h.document.nextId
    · exact .inr hk
    · rw [History.extend, Document.contains, Document.get?_add hk] at hid
      exact .inl (hs.mem_issued id hid)
  stored_eq id := by
    by_cases hk : id = h.document.nextId
    · simp [History.extend, hk, Document.get?_add_self hs.arranged.free_lt]
    · simp [History.extend, hk, Document.get?_add hk, hs.stored_eq]
  order_eq := hs.order_eq_add n (hs.nextId_not_mem (uses_nextId_lt hu))

end Add

section Remove

variable {id : NodeId} {n : Node}

theorem extend_remove_of_get?_eq_none (hn : h.document.get? id = none) :
    h.extend (.remove id) = h := by
  have horder : id ∉ h.document.order := by
    rw [hs.order_eq, List.mem_filter, Document.contains, hn]
    simp
  have hstored : Function.update h.stored id none = h.stored := by
    rw [← hn, hs.stored_eq, Function.update_eq_self]
  rw [History.extend, Document.remove_of_not_mem_order hn horder, hstored]

theorem index_ne_zero (hn : h.document.get? id = some n) : id.index ≠ 0 := by
  intro hzero
  have hversion := Document.version?_of_get? hn
  rw [hzero, hs.first, NodeId.version, Option.some.injEq] at hversion
  omega

theorem nodup_free_remove (hn : h.document.get? id = some n) :
    (h.document.remove id).free.Nodup := by
  rw [Document.free_remove hn]
  refine List.nodup_cons.mpr ⟨fun hi => ?_, hs.nodup_free⟩
  obtain ⟨_, v, hv, heven⟩ := (hs.mem_free _).mp hi
  rw [Document.version?_of_get? hn, NodeId.version, Option.some.injEq] at hv
  omega

theorem mem_free_remove (hn : h.document.get? id = some n) (i : Nat) :
    i ∈ (h.document.remove id).free ↔
      0 < i ∧ ∃ v, (h.document.remove id).version? i = some v ∧ v % 2 = 0 := by
  rw [Document.free_remove hn, List.mem_cons, hs.mem_free, Document.version?_remove hn]
  by_cases hi : i = id.index
  · have hne := hs.index_ne_zero hn
    simp only [hi, true_or, if_true, Option.some.injEq, true_iff]
    refine ⟨by omega, _, rfl, ?_⟩
    rw [NodeId.version]
    omega
  · simp [hi]

theorem uses_eq_remove (hn : h.document.get? id = some n) {i v : Nat} (hi : 0 < i)
    (hv : (h.document.remove id).version? i = some v) :
    (v + 1) / 2 % 2 ^ 31 = h.uses i % 2 ^ 31 := by
  rw [Document.version?_remove hn] at hv
  split at hv
  · rename_i hk
    have huses := hs.uses_eq _ _ (hk ▸ hi) (Document.version?_of_get? hn)
    have hlt := id.generation.isLt
    cases hv
    rw [hk]
    simp only [NodeId.version] at huses ⊢
    omega
  · exact hs.uses_eq i v hi hv

theorem order_eq_remove :
    (h.document.remove id).order = h.issued.filter (h.document.remove id).contains := by
  simp only [Document.order_remove, hs.order_eq, List.filter_filter]
  apply List.filter_congr
  intro m _
  by_cases hk : m = id
  · simp [hk, Document.contains, Document.get?_remove_self]
  · simp [hk, Document.contains, Document.get?_remove hk]

theorem remove_of_get? (hn : h.document.get? id = some n) : (h.extend (.remove id)).Sound where
  first := by
    rw [History.extend, Document.version?_remove hn, if_neg (hs.index_ne_zero hn).symm, hs.first]
  nodup_free := hs.nodup_free_remove hn
  mem_free := hs.mem_free_remove hn
  uses_eq _ _ := hs.uses_eq_remove hn
  unused i hv := by
    rw [History.extend, Document.version?_remove hn] at hv
    split at hv
    · cases hv
    · exact hs.unused i hv
  generation_lt := hs.generation_lt
  nodup_issued := hs.nodup_issued
  mem_issued m hm := by
    by_cases hk : m = id
    · rw [hk, History.extend, Document.contains, Document.get?_remove_self] at hm
      cases hm
    · rw [History.extend, Document.contains, Document.get?_remove hk] at hm
      exact hs.mem_issued m hm
  stored_eq m := by
    by_cases hk : m = id
    · simp [History.extend, hk, Document.get?_remove_self]
    · simp [History.extend, hk, Document.get?_remove hk, hs.stored_eq]
  order_eq := hs.order_eq_remove

theorem remove (id : NodeId) : (h.extend (.remove id)).Sound := by
  cases hn : h.document.get? id with
  | none => exact (hs.extend_remove_of_get?_eq_none hn).symm ▸ hs
  | some n => exact hs.remove_of_get? hn

end Remove

theorem modify (id : NodeId) (f : Node → Node) : (h.extend (.modify id f)).Sound := by
  apply hs.congr (h.extend (.modify id f)) (Document.version?_modify id f)
    (Document.free_modify _ id f) (Document.order_modify _ id f) rfl
  intro m
  by_cases hk : m = id
  · simp [extend, hk, Document.get?_modify_self, hs.stored_eq]
  · simp [extend, hk, Document.get?_modify hk, hs.stored_eq]

theorem normalize : (h.extend .normalize).Sound := by
  apply hs.congr (h.extend .normalize) Document.version?_normalizeRotations rfl rfl rfl
  intro id
  simp [extend, Document.get?_normalizeRotations, hs.stored_eq]

theorem extend (c : Change) (hu : (h.extend c).Unworn) : (h.extend c).Sound := by
  cases c with
  | add n => exact hs.add n hu
  | remove id => exact hs.remove id
  | modify id f => exact hs.modify id f
  | normalize => exact hs.normalize

end Sound

theorem uses_le_extend (h : History) (c : Change) (i : Nat) : h.uses i ≤ (h.extend c).uses i := by
  unfold uses
  cases c with
  | add n => simp [History.extend, List.countP_append]
  | _ => exact Nat.le_refl _

theorem uses_le_after (h : History) (changes : List Change) (i : Nat) :
    h.uses i ≤ (h.after changes).uses i := by
  induction changes generalizing h with
  | nil => exact Nat.le_refl _
  | cons c changes ih => exact Nat.le_trans (h.uses_le_extend c i) (ih (h.extend c))

theorem Unworn.of_after {changes : List Change} (hu : (h.after changes).Unworn) : h.Unworn :=
  fun i => Nat.le_trans (h.uses_le_after changes i) (hu i)

theorem Sound.after {changes : List Change} (hs : h.Sound) (hu : (h.after changes).Unworn) :
    (h.after changes).Sound := by
  induction changes generalizing h with
  | nil => exact hs
  | cons c changes ih => exact ih (hs.extend c (Unworn.of_after hu)) hu

theorem mem_issued_extend {id : NodeId} (hid : id ∈ h.issued) (c : Change) :
    id ∈ (h.extend c).issued := by
  cases c with
  | add n => exact List.mem_append_left _ hid
  | _ => exact hid

theorem Sound.get?_extend_eq_none {c : Change} (hs : (h.extend c).Sound) {id : NodeId}
    (hid : id ∈ h.issued) (hn : h.document.get? id = none) :
    (h.extend c).document.get? id = none := by
  cases c with
  | add n =>
    have hnew : id ≠ h.document.nextId := by
      rintro rfl
      have hdisjoint := (List.nodup_append.mp hs.nodup_issued).2.2
      exact hdisjoint _ hid _ (List.mem_singleton_self _) rfl
    exact (Document.get?_add hnew n).trans hn
  | remove m =>
    by_cases hm : id = m
    · exact hm ▸ Document.get?_remove_self h.document id
    · exact (Document.get?_remove hm).trans hn
  | modify m f =>
    by_cases hm : id = m
    · rw [History.extend, ← hm, Document.get?_modify_self, hn]
      rfl
    · exact (Document.get?_modify hm f).trans hn
  | normalize => rw [History.extend, Document.get?_normalizeRotations, hn, Option.map_none]

theorem Sound.get?_after_eq_none {changes : List Change} (hs : h.Sound)
    (hu : (h.after changes).Unworn) {id : NodeId} (hid : id ∈ h.issued)
    (hn : h.document.get? id = none) : (h.after changes).document.get? id = none := by
  induction changes generalizing h with
  | nil => exact hn
  | cons c changes ih =>
    have hstep := hs.extend c (Unworn.of_after hu)
    exact ih hstep hu (mem_issued_extend hid c) (hstep.get?_extend_eq_none hid hn)

theorem arranged_extend (hd : h.document.Arranged) (c : Change) :
    (h.extend c).document.Arranged := by
  cases c with
  | add n => exact hd.add n
  | remove id => exact hd.remove id
  | modify id f =>
    exact hd.congr (Document.version?_modify id f) (Document.free_modify _ id f)
      (Document.order_modify _ id f)
  | normalize => exact hd.congr Document.version?_normalizeRotations rfl rfl

/-- However often places are used, their arrangement stays in order. -/
theorem arranged_after (hd : h.document.Arranged) (changes : List Change) :
    (h.after changes).document.Arranged := by
  induction changes generalizing h with
  | nil => exact hd
  | cons c changes ih => exact ih (arranged_extend hd c)

end History

namespace Document

variable {d : Document} {id : NodeId}

theorem mem_liveIds_iff : id ∈ d.liveIds ↔ d.contains id = true := by
  constructor
  · intro h
    obtain ⟨⟨s, i⟩, hs, hid⟩ := List.mem_filterMap.mp h
    rw [List.mem_zipIdx_iff_getElem?, Array.getElem?_toList] at hs
    obtain ⟨n, hn, rfl⟩ := Option.map_eq_some_iff.mp hid
    cases s with
    | vacant g => cases hn
    | occupied g n => simp [contains, get?, hs, Slot.generation]
  · intro h
    obtain ⟨n, hn⟩ := contains_eq_true_iff.mp h
    exact mem_liveIds_of_get? hn

theorem le_index_of_mem_liveIdsFrom {slots : List Slot} {k : Nat} (h : id ∈ liveIdsFrom k slots) :
    k ≤ id.index := by
  induction slots generalizing k with
  | nil => cases h
  | cons s slots ih =>
    rcases List.mem_append.mp h with hhere | hlater
    · obtain ⟨_, _, rfl⟩ := Option.map_eq_some_iff.mp (Option.mem_toList.mp hhere)
      exact Nat.le_refl k
    · exact Nat.le_of_succ_le (ih hlater)

theorem nodup_liveIdsFrom (slots : List Slot) (k : Nat) : (liveIdsFrom k slots).Nodup := by
  induction slots generalizing k with
  | nil => exact List.nodup_nil
  | cons s slots ih =>
    cases hs : s.node? with
    | none => simpa [liveIdsFrom, hs] using ih (k + 1)
    | some n =>
      simp only [liveIdsFrom, hs, Option.map_some, Option.toList_some, List.singleton_append]
      exact List.nodup_cons.mpr
        ⟨fun hmem => Nat.not_succ_le_self k (le_index_of_mem_liveIdsFrom hmem), ih (k + 1)⟩

theorem nodup_liveIds (d : Document) : d.liveIds.Nodup := by
  rw [liveIds_eq_liveIdsFrom]
  exact nodup_liveIdsFrom _ _

theorem length_order (hnodup : d.order.Nodup)
    (hmem : ∀ id, id ∈ d.order ↔ d.contains id = true) : d.size = d.order.length := by
  have hperm : d.liveIds.Perm d.order :=
    (List.perm_ext_iff_of_nodup d.nodup_liveIds hnodup).mpr fun id => by rw [mem_liveIds_iff, hmem]
  rw [← d.length_liveIds, hperm.length_eq]

theorem map_fst_entries (h : ∀ id ∈ d.order, d.contains id = true) :
    d.entries.map (·.1) = d.order := by
  have hids : ∀ ids : List NodeId, (∀ id ∈ ids, d.contains id = true) →
      (ids.filterMap fun id => (d.get? id).map (id, ·)).map (·.1) = ids := by
    intro ids
    induction ids with
    | nil => exact fun _ => rfl
    | cons id ids ih =>
      intro hlive
      obtain ⟨hid, hrest⟩ := List.forall_mem_cons.mp hlive
      obtain ⟨n, hn⟩ := contains_eq_true_iff.mp hid
      simp [hn, ih hrest]
  exact hids d.order h

theorem find?_eq {ids : List NodeId} (horder : d.order = ids.filter d.contains) (name : String) :
    d.find? name = ids.find? fun id => (d.get? id).any (·.name = name) := by
  have hfirst : ∀ ids : List NodeId,
      (((ids.filter d.contains).filterMap fun id => (d.get? id).map (id, ·)).find?
        (·.2.name = name)).map (·.1) =
          ids.find? fun id => (d.get? id).any (·.name = name) := by
    intro ids
    induction ids with
    | nil => rfl
    | cons id ids ih =>
      cases hn : d.get? id with
      | none =>
        rw [List.filter_cons_of_neg (by simp [contains, hn]), ih,
          List.find?_cons_of_neg (by simp [hn])]
      | some n =>
        rw [List.filter_cons_of_pos (by simp [contains, hn]),
          List.filterMap_cons_some (b := (id, n)) (by simp [hn])]
        by_cases hname : n.name = name
        · simp [hn, hname]
        · rw [List.find?_cons_of_neg (by simpa using hname), ih,
            List.find?_cons_of_neg (by simp [hn, hname])]
  unfold find? entries
  rw [horder]
  exact hfirst ids

end Document

open History in
/-- Changes from the empty document on, in which no place is used again after its last version. The
order lists the nodes that are there, each once and in the order in which they were added. No id is
given out twice; an id leads to the node that was stored last under it, and once the node is taken
out, to nothing ever after. What is not there cannot be taken out, and a name leads to the first of
its nodes. -/
theorem order_lists_arena {changes : List Change} (hu : (History.of changes).Unworn) :
    let h := History.of changes
    (h.document.order.Nodup ∧ (∀ id, id ∈ h.document.order ↔ h.document.contains id = true) ∧
      h.document.order = h.issued.filter h.document.contains) ∧
    (h.document.entries.map (·.1) = h.document.order ∧
      h.document.size = h.document.entries.length) ∧
    h.issued.Nodup ∧
    ((∀ id, h.document.get? id = h.stored id) ∧
      ∀ earlier later, changes = earlier ++ later → ∀ id ∈ (History.of earlier).issued,
        (History.of earlier).document.get? id = none → h.document.get? id = none) ∧
    (∀ id, h.document.contains id = false → h.document.remove id = h.document) ∧
    ∀ name, h.document.find? name = h.issued.find? fun id => (h.stored id).any (·.name = name) := by
  intro h
  have hs : h.Sound := sound_start.after hu
  have hnodup : h.document.order.Nodup := hs.order_eq ▸ hs.nodup_issued.filter _
  have hmem : ∀ id, id ∈ h.document.order ↔ h.document.contains id = true := by
    intro id
    rw [hs.order_eq, List.mem_filter]
    exact ⟨And.right, fun hid => ⟨hs.mem_issued id hid, hid⟩⟩
  have hids := Document.map_fst_entries fun id => (hmem id).mp
  refine ⟨⟨hnodup, hmem, hs.order_eq⟩, ⟨hids, ?_⟩, hs.nodup_issued, ⟨hs.stored_eq, ?_⟩, ?_, ?_⟩
  · rw [Document.length_order hnodup hmem, ← hids, List.length_map]
  · rintro earlier later rfl id hid hn
    have hsplit : History.of (earlier ++ later) = (History.of earlier).after later :=
      List.foldl_append ..
    rw [hsplit] at hu
    change (History.of (earlier ++ later)).document.get? id = none
    rw [hsplit]
    exact (sound_start.after (Unworn.of_after hu)).get?_after_eq_none hu hid hn
  · intro id hid
    have hnone : h.document.get? id = none := by simpa [Document.contains] using hid
    apply Document.remove_of_not_mem_order hnone
    rw [hmem, hid]
    exact Bool.false_ne_true
  · intro name
    rw [Document.find?_eq hs.order_eq]
    simp only [hs.stored_eq]

/-- A box takes the place of one that has been taken out. The old id leads to nothing, also when a
node is taken out under it, and the name of the new box leads to the ball, which was there
before. -/
theorem order_after_reuse :
    let box := Node.ofKind "Box" (.box 1 1 1)
    let changes : List Change := [.add box, .add (Node.ofKind "Ball" (.sphere 1)), .remove ⟨1, 0⟩,
      .add box, .remove ⟨1, 0⟩, .modify ⟨2, 0⟩ fun n => { n with name := "Box" }]
    let d := (History.of changes).document
    d.order = [⟨2, 0⟩, ⟨1, 1⟩] ∧ d.order.Nodup ∧ d.size = d.entries.length ∧
      d.get? ⟨1, 0⟩ = none ∧ d.get? ⟨1, 1⟩ = some box ∧ d.remove ⟨1, 0⟩ = d ∧
      d.find? "Box" = some ⟨2, 0⟩ := by
  intro box changes d
  have hissued : (History.of changes).issued = [⟨1, 0⟩, ⟨2, 0⟩, ⟨1, 1⟩] := rfl
  have hu : (History.of changes).Unworn := by
    intro i
    have hle : (History.of changes).uses i ≤ 3 := by
      rw [History.uses, hissued]
      exact List.countP_le_length
    omega
  obtain ⟨⟨hnodup, _, _⟩, ⟨_, hsize⟩, _, ⟨hstored, _⟩, hremove, hfind⟩ := order_lists_arena hu
  have hgone : d.get? ⟨1, 0⟩ = none := (hstored _).trans rfl
  exact ⟨rfl, hnodup, hsize, hgone, (hstored _).trans rfl,
    hremove _ (congrArg Option.isSome hgone), (hfind _).trans rfl⟩

end RayScene
