import RayScene.Proofs.Documents.Histories
import RayScene.Proofs.Workbench.Calls
/-!
The names of a workbench. From the empty bench on, every call keeps the names and the nodes of the
document in step, whether it succeeds or fails, and no name that leads to a node ever leads to
another one.
-/
set_option autoImplicit false

namespace RayScene

namespace Bench

/-- The names lead to the nodes that have them. No place of the document has been freed, and the
nodes are the ones that are listed. -/
structure Consistent (b : Bench) : Prop where
  free : b.document.free = []
  mem_order : ∀ id, id ∈ b.document.order ↔ b.document.contains id = true
  lookup : ∀ name id, b.names.lookup name = some id ↔
    ∃ n, b.document.get? id = some n ∧ n.name = name

def Extends (b b' : Bench) : Prop :=
  b.Consistent → b'.Consistent ∧
    ∀ name id, b.names.lookup name = some id → b'.names.lookup name = some id

variable {b b' b'' : Bench} {id : NodeId} {n : Node}

theorem consistent_empty : Bench.empty.Consistent where
  free := rfl
  mem_order id := by
    have hnone : Bench.empty.document.get? id = none := Document.get?_empty id
    have horder : Bench.empty.document.order = [] := rfl
    simp [Document.contains, hnone, horder]
  lookup name id := by
    have hnone : Bench.empty.document.get? id = none := Document.get?_empty id
    have hnames : Bench.empty.names = [] := rfl
    simp [hnone, hnames]

namespace Consistent

variable (h : b.Consistent)

include h

theorem get?_nextId : b.document.get? b.document.nextId = none := by
  have hnext : b.document.nextId = ⟨b.document.slots.size, 0⟩ := by simp [Document.nextId, h.free]
  simp [hnext, Document.get?]

theorem get?_add (n : Node) (id : NodeId) :
    (b.document.add n).get? id = if id = b.document.nextId then some n else b.document.get? id := by
  split
  · rename_i hid
    rw [hid, Document.get?_add_self (by simp [h.free])]
  · rename_i hid
    exact Document.get?_add hid n

theorem add (hnew : b.names.lookup n.name = none) : (b.add n).Consistent where
  free := by
    rw [Bench.add, Document.free_add, h.free, List.tail_nil]
  mem_order id := by
    simp only [Bench.add, Document.order_add, Document.contains, h.get?_add, List.mem_append,
      List.mem_singleton, h.mem_order]
    by_cases hid : id = b.document.nextId <;> simp [hid]
  lookup name id := by
    simp only [Bench.add, List.lookup_cons, h.get?_add]
    by_cases hname : name = n.name
    · have hold : ∀ m, b.document.get? id = some m → m.name ≠ n.name := by
        intro m hm hmn
        have hlookup := (h.lookup n.name id).mpr ⟨m, hm, hmn⟩
        rw [hnew] at hlookup
        cases hlookup
      by_cases hid : id = b.document.nextId
      · simp [hname, hid]
      · simp only [hname, hid, beq_self_eq_true, if_false, Option.some.injEq, eq_comm, false_iff]
        rintro ⟨m, hm, hmn⟩
        exact hold m hm.symm hmn.symm
    · have hbeq : (name == n.name) = false := by simpa using hname
      by_cases hid : id = b.document.nextId
      · simp only [hbeq, hid, if_true, h.lookup, h.get?_nextId, Option.some.injEq]
        simp [eq_comm, hname]
      · simp only [hbeq, hid, if_false, h.lookup]

theorem congr {b' : Bench} (hfree : b'.document.free = b.document.free)
    (horder : b'.document.order = b.document.order) (hnames : b'.names = b.names)
    (hget : ∀ id, ∃ f : Node → Node, (∀ n, (f n).name = n.name) ∧
      b'.document.get? id = (b.document.get? id).map f) : b'.Consistent where
  free := hfree.trans h.free
  mem_order id := by
    obtain ⟨f, -, hf⟩ := hget id
    rw [horder, h.mem_order, Document.contains, Document.contains, hf, Option.isSome_map]
  lookup name id := by
    obtain ⟨f, hname, hf⟩ := hget id
    rw [hnames, h.lookup, hf]
    simp only [Option.map_eq_some_iff]
    constructor
    · rintro ⟨n, hn, rfl⟩
      exact ⟨f n, ⟨n, hn, rfl⟩, hname n⟩
    · rintro ⟨_, ⟨n, hn, rfl⟩, rfl⟩
      exact ⟨n, hn, (hname n).symm⟩

theorem find?_eq (name : String) : b.document.find? name = b.names.lookup name := by
  have hall : b.document.order = b.document.order.filter b.document.contains :=
    (List.filter_eq_self.mpr fun id => (h.mem_order id).mp).symm
  have hfound : ∀ id, (b.document.get? id).any (·.name = name) = true ↔
      b.names.lookup name = some id := by
    intro id
    rw [h.lookup]
    simp [Option.any_eq_true]
  rw [Document.find?_eq hall]
  cases hfind : b.document.order.find? fun id => (b.document.get? id).any (·.name = name) with
  | some id =>
    have hid := List.find?_some hfind
    exact ((hfound id).mp hid).symm
  | none =>
    cases hlookup : b.names.lookup name with
    | none => rfl
    | some id =>
      have hany := (hfound id).mpr hlookup
      obtain ⟨n, hn, -⟩ := (Option.any_eq_true ..).mp hany
      have hlisted : id ∈ b.document.order :=
        (h.mem_order id).mpr (Document.contains_eq_true_iff.mpr ⟨n, hn⟩)
      exact absurd hany (List.find?_eq_none.mp hfind id hlisted)

end Consistent

namespace Extends

theorem refl (b : Bench) : b.Extends b := fun h => ⟨h, fun _ _ hid => hid⟩

theorem trans (h : b.Extends b') (h' : b'.Extends b'') : b.Extends b'' := by
  intro hb
  obtain ⟨hb', hold⟩ := h hb
  obtain ⟨hb'', hold'⟩ := h' hb'
  exact ⟨hb'', fun name id hid => hold' name id (hold name id hid)⟩

theorem of_document_eq (hdocument : b'.document = b.document) (hnames : b'.names = b.names) :
    b.Extends b' := by
  intro hb
  refine ⟨hb.congr (by rw [hdocument]) (by rw [hdocument]) hnames fun id =>
    ⟨fun n => n, fun _ => rfl, ?_⟩, ?_⟩
  · rw [hdocument, Option.map_id']
  · exact fun name id hid => hnames ▸ hid

theorem hide (b : Bench) (ids : List NodeId) : b.Extends (b.hide ids) := by
  intro hb
  refine ⟨hb.congr (Document.free_hide _ ids) (Document.order_hide _ ids) rfl fun id =>
    ⟨_, ?_, Document.get?_hide _ ids id⟩, fun _ _ hid => hid⟩
  intro n
  split <;> rfl

theorem add (b : Bench) (hnew : b.names.lookup n.name = none) : b.Extends (b.add n) := by
  intro hb
  refine ⟨hb.add hnew, fun name id hid => ?_⟩
  have hne : (name == n.name) = false := by
    rw [beq_eq_false_iff_ne]
    rintro rfl
    rw [hnew] at hid
    cases hid
  rw [Bench.add, List.lookup_cons, hne]
  exact hid

theorem modify (b : Bench) {f : Node → Node} (hf : ∀ n, (f n).name = n.name) (id : NodeId) :
    b.Extends { b with document := b.document.modify id f } := by
  intro hb
  refine ⟨hb.congr (Document.free_modify _ id f) (Document.order_modify _ id f) rfl fun m =>
    ⟨_, ?_, Document.get?_modify_eq_ite _ id m f⟩, fun _ _ hid => hid⟩
  intro n
  split
  · exact hf n
  · rfl

end Extends

end Bench

namespace Building

/-- Whether the action succeeds or fails, names keep leading to their nodes. -/
def Keeps {α : Type} (x : Building α) : Prop := ∀ b : Bench, b.Extends (x.run.run b).2

variable {α β : Type} {x : Building α} {g : α → Building β} {name : String}

namespace Keeps

open Bench

theorem pure (a : α) : Keeps (Pure.pure a : Building α) := Extends.refl

theorem throw (e : BenchError) : Keeps (MonadExcept.throw e : Building α) := Extends.refl

theorem bind (hx : Keeps x) (hg : ∀ a, Keeps (g a)) : Keeps (x >>= g) := by
  intro b
  have hb := hx b
  rw [run_bind]
  rcases hr : x.run.run b with ⟨e | a, b'⟩
  all_goals rw [hr] at hb
  · exact hb
  · exact hb.trans (hg a b')

theorem get_bind {g : Bench → Building β} (hg : ∀ b, Keeps (g b)) : Keeps (get >>= g) :=
  fun b => hg b b

theorem map (f : α → β) (hx : Keeps x) : Keeps (f <$> x) := by
  rw [map_eq_pure_bind]
  exact hx.bind fun a => .pure (f a)

theorem id (name : String) : Keeps (id name) := fun b => by
  rw [run_id]
  exact Extends.refl b

theorem ids (names : List String) : Keeps (ids names) := fun b => by
  rw [run_ids]
  exact Extends.refl b

theorem hideAll (ids : List NodeId) : Keeps (hideAll ids) := fun b => Extends.hide b ids

theorem addWithChildren {kind : Kind} {children : List NodeId} :
    Keeps (addWithChildren name kind children) := by
  intro b
  rw [run_addWithChildren]
  split
  · exact Extends.refl b
  · rename_i hnew
    exact Extends.add b (Option.not_isSome_iff_eq_none.mp hnew)

theorem edit {f : Node → Node} (hf : ∀ n, (f n).name = n.name) : Keeps (edit name f) := by
  intro b
  rw [run_edit]
  cases b.resolve name with
  | error e => exact Extends.refl b
  | ok id =>
    dsimp only
    split
    · exact Extends.modify b hf id
    · exact Extends.refl b

theorem derived {base : String} {kind : NodeId → Kind} : Keeps (derived name base kind) :=
  .bind (.id base) fun id => .bind (.hideAll [id]) fun _ => .addWithChildren

theorem pocket {sketch : String} {length : Float} {into : Option String} :
    Keeps (pocket name sketch length into) := by
  refine .bind (.id sketch) fun profile => .bind (.hideAll [profile]) fun _ => .bind ?_ fun _ =>
    .addWithChildren
  cases into with
  | none => exact .pure none
  | some base => exact (Keeps.id base).map some

theorem node (name : String) : Keeps (node name) := by
  refine .bind (.id name) fun id => .get_bind fun b => ?_
  split
  · exact .pure _
  · exact .throw _

theorem record (requests : List Request) : Keeps (record requests) :=
  fun _ => Extends.of_document_eq rfl rfl

theorem export_ : Keeps export_ := by
  refine .get_bind fun b => .bind (.record _) fun _ => ?_
  split
  · exact .pure _
  · exact .throw _

theorem compileNode (name : String) : Keeps (compileNode name) := by
  refine .bind (.id name) fun id => .get_bind fun b => .bind (.record _) fun _ => ?_
  split
  · exact .pure _
  · exact .throw _

end Keeps

end Building

namespace Bench

/-- A call that is made on a workbench, whatever its answer. A project file that is loaded starts a
bench of its own. -/
inductive Call where
  | edit (c : Edit)
  | settings (f : Settings → Settings)
  | camera (pose : Camera)
  | user (source : String)
  | textures (source : String)
  | tessellator (book : ShapeBook) (records : List RequestRecord)
  | id (name : String)
  | node (name : String)
  | export_
  | compileNode (name : String)
  | check
  | report
  | save (metadata : Metadata)

def Call.run : Call → Building Unit
  | .edit c => c.run
  | .settings f => modify fun b => { b with settings := f b.settings }
  | .camera pose => modify fun b => { b with camera := pose }
  | .user source => modify fun b => { b with user := Sdl.Include.load source }
  | .textures source => modify fun b => { b with textures := Sdl.Include.load source }
  | .tessellator book records => modify fun b => { b with book := book, records := records }
  | .id name => discard (Building.id name)
  | .node name => discard (Building.node name)
  | .export_ => discard Building.export_
  | .compileNode name => discard (Building.compileNode name)
  | .check => discard Building.check
  | .report => discard Building.report
  | .save metadata => discard (Building.save metadata)

def after (b : Bench) (calls : List Call) : Bench :=
  calls.foldl (fun b c => (c.run.run.run b).2) b

open Building

theorem Edit.keeps (c : Edit) : Keeps c.run := by
  cases c with
  | add => exact Keeps.addWithChildren.map _
  | boolean => exact (Keeps.bind (.bind (.ids _) fun ids => .bind (.hideAll ids) fun _ => .pure ids)
      fun _ => .addWithChildren).map _
  | part | group | clone => exact (Keeps.bind (.ids _) fun _ => .addWithChildren).map _
  | polarArray | orthoArray | otherArray | extrude | pad => exact Keeps.derived.map _
  | pocket => exact Keeps.pocket.map _
  | body => exact (Keeps.bind (.ids _) fun _ => .bind (.id _) fun _ => .addWithChildren).map _
  | place | hide | paint | relabel => exact .edit fun _ => rfl
  | link => exact .bind (.id _) fun _ => .edit fun _ => rfl

theorem Call.keeps (c : Call) : Keeps c.run := by
  cases c with
  | edit c => exact c.keeps
  | settings | camera | user | textures | tessellator => exact fun _ => .of_document_eq rfl rfl
  | id name => exact (Keeps.id name).map _
  | node name => exact (Keeps.node name).map _
  | export_ => exact Keeps.export_.map _
  | compileNode name => exact (Keeps.compileNode name).map _
  | check => exact (Keeps.export_.bind fun _ => .pure _).map _
  | report => exact (Keeps.export_.bind fun _ => .get_bind fun _ => .pure _).map _
  | save => exact (Keeps.get_bind fun _ => .pure _).map _

theorem extends_after (b : Bench) (calls : List Call) : b.Extends (b.after calls) := by
  induction calls generalizing b with
  | nil => exact .refl b
  | cons c calls ih => exact (c.keeps b).trans (ih _)

/-- After any calls on an empty workbench a name leads to a node exactly when that is its name, so
that each node has exactly one name that leads to it, and the document finds the same node by a
name. A name that leads to a node leads to it after all further calls. -/
theorem names_lead_to_nodes (calls : List Call) :
    let b := Bench.empty.after calls
    (∀ name id, b.names.lookup name = some id ↔ ∃ n, b.document.get? id = some n ∧ n.name = name) ∧
    (∀ id, b.document.contains id = true → ∃! name, b.names.lookup name = some id) ∧
    (∀ name, b.document.find? name = b.names.lookup name) ∧
    ∀ later name id, b.names.lookup name = some id →
      (b.after later).names.lookup name = some id := by
  intro b
  have hb : b.Consistent := (extends_after Bench.empty calls consistent_empty).1
  refine ⟨hb.lookup, fun id hid => ?_, hb.find?_eq, fun later => (extends_after b later hb).2⟩
  obtain ⟨n, hn⟩ := Document.contains_eq_true_iff.mp hid
  refine ⟨n.name, (hb.lookup n.name id).mpr ⟨n, hn, rfl⟩, fun name hname => ?_⟩
  obtain ⟨m, hm, rfl⟩ := (hb.lookup name id).mp hname
  rw [hn, Option.some.injEq] at hm
  rw [hm]

end Bench

end RayScene
