import RayScene.Export.Assembly
import RayScene.Proofs.Compilation.Depth
import RayScene.Proofs.Documents.Arena
import RayScene.Proofs.Documents.Ownership
set_option autoImplicit false

namespace RayScene

def Context.mend (c : Context) (n : Node) : Node :=
  if c.settings.repairRotation then n.normalized else n

section Mending

variable (c : Context) (n : Node)

@[simp] theorem Context.mend_children : (c.mend n).children = n.children := by
  unfold mend
  split <;> rfl

@[simp] theorem Context.mend_kind : (c.mend n).kind = n.kind := by
  unfold mend
  split <;> rfl

@[simp] theorem Context.mend_label : (c.mend n).label = n.label := by
  unfold mend
  split <;> rfl

@[simp] theorem Context.mend_name : (c.mend n).name = n.name := by
  unfold mend
  split <;> rfl

@[simp] theorem Context.mend_visible : (c.mend n).visible = n.visible := by
  unfold mend
  split <;> rfl

theorem Context.get?_repaired_eq (d : Document) (id : NodeId) :
    (c.repaired d).get? id = (d.get? id).map c.mend := by
  unfold repaired mend
  split
  · exact Document.get?_normalizeRotations id
  · simp

end Mending

theorem Context.kind_of_get?_repaired {c : Context} {d : Document} {id : NodeId} {n : Node}
    (hn : (c.repaired d).get? id = some n) : ∃ m, d.get? id = some m ∧ m.kind = n.kind := by
  rw [c.get?_repaired_eq, Option.map_eq_some_iff] at hn
  obtain ⟨m, hm, rfl⟩ := hn
  exact ⟨m, hm, (c.mend_kind m).symm⟩

namespace Document

variable {c : Context} {d : Document} {id a b : NodeId} {n : Node}

theorem ImageFiles.repaired {P : String → Prop} (h : d.ImageFiles P) :
    (c.repaired d).ImageFiles P := by
  intro id n file x y hn hk
  obtain ⟨m, hm, hkind⟩ := Context.kind_of_get?_repaired hn
  exact h id m file x y hm (hkind.trans hk)

theorem order_repaired (c : Context) (d : Document) : (c.repaired d).order = d.order := by
  unfold Context.repaired
  split <;> rfl

theorem contains_repaired (c : Context) (d : Document) (id : NodeId) :
    (c.repaired d).contains id = d.contains id := by
  unfold contains
  rw [c.get?_repaired_eq, Option.isSome_map]

theorem isVisible_repaired (c : Context) (d : Document) (id : NodeId) :
    ((c.repaired d).get? id).any (·.visible) = (d.get? id).any (·.visible) := by
  rw [c.get?_repaired_eq]
  cases d.get? id <;> simp

theorem entries_repaired (c : Context) (d : Document) :
    (c.repaired d).entries = d.entries.map fun e => (e.1, c.mend e.2) := by
  unfold entries
  rw [order_repaired, List.map_filterMap]
  apply List.filterMap_congr
  intro id _
  rw [c.get?_repaired_eq]
  cases d.get? id <;> rfl

theorem liveIds_normalizeRotations (d : Document) : d.normalizeRotations.liveIds = d.liveIds := by
  rw [liveIds_eq_liveIdsFrom, liveIds_eq_liveIdsFrom, normalizeRotations, Array.toList_map]
  generalize d.slots.toList = slots
  generalize 0 = k
  induction slots generalizing k with
  | nil => rfl
  | cons s slots ih => cases s <;> simp [liveIdsFrom, Slot.node?, Slot.generation, ih]

theorem liveIds_repaired (c : Context) (d : Document) : (c.repaired d).liveIds = d.liveIds := by
  unfold Context.repaired
  split
  · exact d.liveIds_normalizeRotations
  · rfl

theorem hasChild_repaired : (c.repaired d).HasChild = d.HasChild := by
  funext a b
  simp only [HasChild, entries_repaired, List.mem_map, Prod.mk.injEq, eq_iff_iff]
  constructor
  · rintro ⟨_, ⟨e, he, rfl, rfl⟩, hb⟩
    exact ⟨e.2, he, by simpa using hb⟩
  · rintro ⟨n, hn, hb⟩
    exact ⟨c.mend n, ⟨(a, n), hn, rfl, rfl⟩, by simpa using hb⟩

theorem isInside_repaired (p : Kind → Bool) : (c.repaired d).IsInside p id ↔ d.IsInside p id := by
  simp only [IsInside, hasChild_repaired, entries_repaired, List.mem_map, Prod.mk.injEq]
  constructor
  · rintro ⟨a, _, ⟨e, he, rfl, rfl⟩, hp, hchain⟩
    exact ⟨e.1, e.2, he, by simpa using hp, hchain⟩
  · rintro ⟨a, n, hn, hp, hchain⟩
    exact ⟨a, c.mend n, ⟨(a, n), hn, rfl, rfl⟩, by simpa using hp, hchain⟩

theorem isOwned_repaired (c : Context) (d : Document) (id : NodeId) :
    (c.repaired d).isOwned id = d.isOwned id := by
  unfold isOwned
  rw [Bool.eq_iff_iff, hasAncestor_eq_true_iff, hasAncestor_eq_true_iff, isInside_repaired]

theorem roots_repaired (c : Context) (d : Document) : (c.repaired d).roots = d.roots := by
  unfold roots
  simp only [entries_repaired, List.filter_map, List.map_map, Function.comp_def,
    Context.mend_visible, Context.mend_kind, isOwned_repaired]

theorem outList_repaired (c : Context) (d : Document) : (c.repaired d).outList = d.outList := by
  funext id
  unfold outList
  rw [c.get?_repaired_eq]
  cases d.get? id <;> simp

theorem sketch?_repaired (c : Context) (d : Document) : (c.repaired d).sketch? = d.sketch? := by
  funext id
  unfold sketch?
  rw [c.get?_repaired_eq]
  cases d.get? id <;> simp

theorem supportsBody_repaired (c : Context) (d : Document) (id : NodeId) :
    (c.repaired d).supportsBody id = d.supportsBody id := by
  unfold supportsBody outListRecursive
  rw [outList_repaired, liveIds_repaired]
  congr 1
  funext dep
  rw [c.get?_repaired_eq]
  cases d.get? dep <;> simp

theorem hasPrism_repaired (c : Context) (d : Document) (p : Feature) :
    (c.repaired d).hasPrism p = d.hasPrism p := by
  unfold hasPrism supportsFeature hasSupportedSketch hasProfile
  rw [sketch?_repaired]

theorem steps_repaired (c : Context) (d : Document) (id : NodeId) (n : Node) :
    (c.repaired d).steps id (c.mend n) = d.steps id n := by
  unfold steps hasLoops
  simp only [Context.mend_kind, Context.mend_children, contains_repaired, isVisible_repaired,
    hasPrism_repaired, supportsBody_repaired, funext (contains_repaired c d)]

theorem leads_repaired (c : Context) (d : Document) : (c.repaired d).Leads = d.Leads := by
  funext a b
  simp only [Leads, c.get?_repaired_eq, Option.map_eq_some_iff, eq_iff_iff]
  constructor
  · rintro ⟨_, ⟨n, hn, rfl⟩, hb⟩
    exact ⟨n, hn, by rwa [steps_repaired] at hb⟩
  · rintro ⟨n, hn, hb⟩
    exact ⟨c.mend n, ⟨n, hn, rfl⟩, by rwa [steps_repaired]⟩

end Document

theorem Sdl.Workshop.rootSteps_assembling (t : Tessellator) (c : Context) (d : Document) :
    (assembling t c d).rootSteps = d.roots.map (⟨·, Flags.all⟩) := by
  unfold rootSteps assembling
  rw [Document.roots_repaired]

end RayScene
