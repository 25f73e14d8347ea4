import RayScene.Proofs.Stored.Records
import RayScene.Stored.Document
set_option autoImplicit false

namespace RayScene

open Json

/-- Places are numbered in thirty-two bits. The last number stands for no place and has one id
only. -/
structure NodeId.IsKey (id : NodeId) : Prop where
  lt : id.index < 2 ^ 32
  last : id.index = 2 ^ 32 - 1 → id.generation = 0

instance (id : NodeId) : Decidable id.IsKey :=
  decidable_of_iff (id.index < 2 ^ 32 ∧ (id.index = 2 ^ 32 - 1 → id.generation = 0))
    ⟨fun h => ⟨h.1, h.2⟩, fun h => ⟨h.lt, h.last⟩⟩

def Node.HasKeys (n : Node) : Prop := ∀ r ∈ n.children ++ n.kind.references, r.IsKey

instance (n : Node) : Decidable n.HasKeys :=
  inferInstanceAs (Decidable (∀ r ∈ n.children ++ n.kind.references, r.IsKey))

section Ids

variable {id : NodeId}

theorem NodeId.isKey_of_lt (h : id.index < 2 ^ 32 - 1) : id.IsKey := ⟨by omega, by omega⟩

theorem NodeId.version_lt (id : NodeId) : id.version < 2 ^ 32 := by
  have hlt := id.generation.isLt
  unfold version
  omega

theorem NodeId.IsKey.ofVersion_eq (h : id.IsKey) : ofVersion id.index id.version = id := by
  have hhalf : id.version / 2 = id.generation.toNat := by
    unfold version
    omega
  unfold ofVersion
  split
  · rename_i hlast
    rw [← h.last hlast]
  · rw [hhalf, BitVec.ofNat_toNat, BitVec.setWidth_eq]

theorem NodeId.IsKey.reads (h : id.IsKey) : Reads NodeId.ofJson? id.toJson id := by
  apply reads_record ["idx", "version"] rfl (by decide)
  intro index hindex version hversion
  simp [ComeBack, required, reads_word h.lt index hindex,
    reads_word id.version_lt version hversion, h.ofVersion_eq]

theorem NodeId.reads_all {ids : List NodeId} (h : ∀ id ∈ ids, id.IsKey) :
    Reads (list? NodeId.ofJson?) (.array (ids.map NodeId.toJson)) ids :=
  reads_list fun id hid => (h id hid).reads

theorem NodeId.reads_option {id? : Option NodeId} (h : ∀ id ∈ id?.toList, id.IsKey) :
    Reads (option? NodeId.ofJson?) (optionJson NodeId.toJson id?) id? := by
  apply Json.reads_option rfl
  rintro id rfl
  exact (h id (by simp)).reads

end Ids

section Choices

theorem BooleanOp.reads (nested : Bool) (op : BooleanOp) :
    Reads (choice? nested choices) (nameIn choices op) op :=
  reads_choice (by decide) (by cases op <;> decide) nested

theorem DatumKind.reads (nested : Bool) (d : DatumKind) :
    Reads (choice? nested choices) (nameIn choices d) d :=
  reads_choice (by decide) (by cases d <;> decide) nested

theorem ExtrusionDirection.reads (nested : Bool) (d : ExtrusionDirection) :
    Reads (choice? nested choices) (nameIn choices d) d :=
  reads_choice (by decide) (by cases d <;> decide) nested

theorem LengthType.reads (nested : Bool) (t : LengthType) :
    Reads (choice? nested choices) (nameIn choices t) t :=
  reads_choice (by decide) (by cases t <;> decide) nested

end Choices

section Parameters

theorem Extrusion.reads {e : Extrusion} (h : e.base.IsKey) :
    Reads Extrusion.ofJson? (.object e.members) e := by
  apply reads_record ["base", "length_fwd", "length_rev", "symmetric", "reversed", "dir_mode",
    "taper_angle", "taper_angle_rev"] rfl (by decide)
  intro base hbase forward hforward reverse hreverse symmetric hsymmetric reversed hreversed
    direction hdirection taper htaper taperReverse htaperReverse
  simp [ComeBack, required, defaulted, h.reads base hbase, reads_double _ forward hforward,
    reads_double _ reverse hreverse, reads_bool _ symmetric hsymmetric,
    reads_bool _ reversed hreversed, e.direction.reads true direction hdirection,
    reads_double _ taper htaper, reads_double _ taperReverse htaperReverse]

theorem Feature.reads {f : Feature} (h : ∀ r ∈ f.profile :: f.baseFeature.toList, r.IsKey) :
    Reads Feature.ofJson? (.object f.members) f := by
  obtain ⟨hprofile, hbase⟩ := List.forall_mem_cons.mp h
  apply reads_record ["profile", "length", "midplane", "reversed", "length_type",
    "base_feature"] rfl (by decide)
  intro profile hp length hlength midplane hmidplane reversed hreversed lengthType htype base hb
  simp [ComeBack, required, defaulted, hprofile.reads profile hp, reads_double _ length hlength,
    reads_bool _ midplane hmidplane, reads_bool _ reversed hreversed,
    f.lengthType.reads true lengthType htype, NodeId.reads_option hbase base hb]

theorem ArrayLayout.reads (layout : ArrayLayout) :
    Reads ArrayLayout.ofJson? layout.toJson layout := by
  cases layout with
  | polar p =>
    apply reads_tagged true (by decide) (by simp)
    apply reads_record ["center", "axis", "interval_axis", "count", "angle"] rfl (by decide)
    intro center hcenter axis haxis interval hinterval count hcount angle hangle
    simp [ComeBack, required, p.center.reads center hcenter, p.axis.reads axis haxis,
      p.interval.reads interval hinterval, reads_uint32 _ count hcount, reads_double _ angle hangle]
  | ortho o =>
    apply reads_tagged true (by decide) (by simp)
    apply reads_record ["interval_x", "interval_y", "interval_z", "number_x", "number_y",
      "number_z"] rfl (by decide)
    intro x hx y hy z hz nx hnx ny hny nz hnz
    simp [ComeBack, required, o.intervalX.reads x hx, o.intervalY.reads y hy,
      o.intervalZ.reads z hz, reads_uint32 _ nx hnx, reads_uint32 _ ny hny, reads_uint32 _ nz hnz]
  | other arrayType =>
    apply reads_tagged true (by decide) (by simp)
    apply reads_record ["array_type"] rfl (by decide)
    intro name hname
    simp [ComeBack, required, reads_string arrayType name hname]

theorem NodeArray.reads {a : NodeArray} (h : a.base.IsKey) :
    Reads NodeArray.ofJson? (.object a.members) a := by
  apply reads_record ["base", "layout"] rfl (by decide)
  intro base hbase layout hlayout
  simp [ComeBack, required, h.reads base hbase, a.layout.reads layout hlayout]

end Parameters

theorem reads_map {α β : Type} {read : Json → Option α} {j : Json} {a : α} (h : Reads read j a)
    (f : α → β) : Reads (fun k => (read k).map f) j (f a) := by
  intro k hk
  exact congrArg (Option.map f) (h k hk)

theorem reads_tip {tip : Option NodeId} (h : ∀ id ∈ tip.toList, id.IsKey) :
    Reads tip? (.object [("tip", optionJson NodeId.toJson tip)]) tip := by
  intro k hk
  obtain ⟨ns, rfl, _⟩ := exists_of_readsAs_object hk
  refine reads_record ["tip"] rfl (by decide) ?_ _ hk
  intro id hid
  exact NodeId.reads_option h id hid

theorem Kind.reads (k : Kind) (h : ∀ r ∈ k.references, r.IsKey) :
    Reads Kind.ofJson? k.toJson k := by
  cases k with
  | box l w h =>
    apply reads_tagged false (by decide) (by simp)
    apply reads_record ["length", "width", "height"] rfl (by decide)
    intro length hlength width hwidth height hheight
    simp [ComeBack, required, reads_double _ length hlength, reads_double _ width hwidth,
      reads_double _ height hheight]
  | sphere r =>
    apply reads_tagged false (by decide) (by simp)
    apply reads_record ["radius"] rfl (by decide)
    intro radius hradius
    simp [ComeBack, required, reads_double _ radius hradius]
  | ellipsoid a b c =>
    apply reads_tagged false (by decide) (by simp)
    apply reads_record ["radius1", "radius2", "radius3"] rfl (by decide)
    intro first hfirst second hsecond third hthird
    simp [ComeBack, required, reads_double _ first hfirst, reads_double _ second hsecond,
      reads_double _ third hthird]
  | cone a b h =>
    apply reads_tagged false (by decide) (by simp)
    apply reads_record ["radius1", "radius2", "height"] rfl (by decide)
    intro first hfirst second hsecond height hheight
    simp [ComeBack, required, reads_double _ first hfirst, reads_double _ second hsecond,
      reads_double _ height hheight]
  | cylinder r h =>
    apply reads_tagged false (by decide) (by simp)
    apply reads_record ["radius", "height"] rfl (by decide)
    intro radius hradius height hheight
    simp [ComeBack, required, reads_double _ radius hradius, reads_double _ height hheight]
  | torus a b =>
    apply reads_tagged false (by decide) (by simp)
    apply reads_record ["radius1", "radius2"] rfl (by decide)
    intro first hfirst second hsecond
    simp [ComeBack, required, reads_double _ first hfirst, reads_double _ second hsecond]
  | plane l w =>
    apply reads_tagged false (by decide) (by simp)
    apply reads_record ["length", "width"] rfl (by decide)
    intro length hlength width hwidth
    simp [ComeBack, required, reads_double _ length hlength, reads_double _ width hwidth]
  | imagePlane file x y =>
    apply reads_tagged false (by decide) (by simp)
    apply reads_record ["image_file", "x_size", "y_size"] rfl (by decide)
    intro image himage width hwidth height hheight
    simp [ComeBack, required, reads_string _ image himage, reads_double _ width hwidth,
      reads_double _ height hheight]
  | boolean op =>
    apply reads_tagged false (by decide) (by simp)
    apply reads_record ["op"] rfl (by decide)
    intro name hname
    simp [ComeBack, required, op.reads true name hname]
  | part =>
    apply reads_tagged false (by decide) (by simp)
    apply reads_record [] rfl (by decide)
    simp [ComeBack]
  | group =>
    apply reads_tagged false (by decide) (by simp)
    apply reads_record [] rfl (by decide)
    simp [ComeBack]
  | array a =>
    apply reads_tagged false (by decide) (by simp [NodeArray.members])
    exact reads_map (NodeArray.reads (h _ (by simp [references]))) Kind.array
  | clone ids scale =>
    apply reads_tagged false (by decide) (by simp)
    apply reads_record ["sources", "scale"] rfl (by decide)
    intro sources hsources factors hfactors
    have hids : ∀ id ∈ ids, id.IsKey := h
    simp [ComeBack, required, NodeId.reads_all hids sources hsources, scale.reads factors hfactors]
  | extrusion e =>
    apply reads_tagged false (by decide) (by simp [Extrusion.members])
    exact reads_map (Extrusion.reads (h _ (by simp [references]))) Kind.extrusion
  | sketch s =>
    apply reads_tagged false (by decide) (by simp [Sketch.members])
    exact reads_map (s.reads true) Kind.sketch
  | pad f =>
    apply reads_tagged false (by decide) (by simp [Feature.members])
    exact reads_map (Feature.reads h) Kind.pad
  | pocket f =>
    apply reads_tagged false (by decide) (by simp [Feature.members])
    exact reads_map (Feature.reads h) Kind.pocket
  | body tip =>
    apply reads_tagged false (by decide) (by simp)
    exact reads_map (reads_tip h) Kind.body
  | datum d =>
    apply reads_tagged false (by decide) (by simp)
    apply reads_record ["datum"] rfl (by decide)
    intro name hname
    simp [ComeBack, required, d.reads true name hname]
  | pointLight l =>
    apply reads_tagged false (by decide) (by simp [Light.members])
    exact reads_map l.reads Kind.pointLight
  | areaLight l =>
    apply reads_tagged false (by decide) (by simp [AreaLight.members])
    exact reads_map l.reads Kind.areaLight
  | spotLight l =>
    apply reads_tagged false (by decide) (by simp [SpotLight.members])
    exact reads_map l.reads Kind.spotLight
  | mesh m =>
    apply reads_tagged false (by decide) (by simp [TriMesh.members])
    exact reads_map m.reads Kind.mesh
  | other typeId =>
    apply reads_tagged false (by decide) (by simp)
    apply reads_record ["type_id"] rfl (by decide)
    intro name hname
    simp [ComeBack, required, reads_string _ name hname]

theorem Node.reads {n : Node} (h : n.HasKeys) : Reads Node.ofJson? n.toJson n := by
  obtain ⟨hchildren, hkind⟩ := List.forall_mem_append.mp h
  apply reads_record ["name", "label", "placement", "visible", "children", "kind", "view"] rfl
    (by decide)
  intro name hname label hlabel placement hplacement visible hvisible children hids kind hk
    view hview
  simp [ComeBack, required, defaulted, reads_string _ name hname, reads_string _ label hlabel,
    n.placement.reads placement hplacement, reads_bool _ visible hvisible,
    NodeId.reads_all hchildren children hids, n.kind.reads hkind kind hk,
    n.view.reads view hview]

section Documents

theorem Slot.ofVersion?_version (s : Slot) : ofVersion? s.version s.node? = some s := by
  cases s with
  | vacant g =>
    have heven : 2 * g.toNat % 2 = 0 := by omega
    have hhalf : 2 * g.toNat / 2 = g.toNat := by omega
    simp [ofVersion?, version, node?, heven, hhalf]
  | occupied g n =>
    have hodd : (2 * g.toNat + 1) % 2 = 1 := by omega
    have hhalf : (2 * g.toNat + 1) / 2 = g.toNat := by omega
    simp [ofVersion?, version, node?, hodd, hhalf]

theorem Slot.version_lt (s : Slot) : s.version < 2 ^ 32 := by
  have hlt := s.generation.isLt
  cases s with
  | vacant g =>
    change 2 * g.toNat < 2 ^ 32
    simp only [generation] at hlt
    omega
  | occupied g n =>
    change 2 * g.toNat + 1 < 2 ^ 32
    simp only [generation] at hlt
    omega

theorem Slot.reads {s : Slot} (h : ∀ n, s.node? = some n → n.HasKeys) :
    Reads Slot.ofJson? s.toJson s := by
  apply reads_record ["value", "version"] rfl (by decide)
  intro value hvalue version hversion
  have hnode := reads_option rfl (fun n hn => Node.reads (h n hn)) value hvalue
  simp [ComeBack, required, defaulted, hnode, reads_word s.version_lt version hversion,
    s.ofVersion?_version]

structure Document.HasKeys (d : Document) : Prop where
  order : ∀ id ∈ d.order, id.IsKey
  nodes : ∀ s ∈ d.slots, ∀ n, s.node? = some n → n.HasKeys

/-- A document is read with the same places and the same order; which place is used next depends on
the places alone. -/
theorem Document.reads {d : Document} (hfirst : d.slots[0]? = some (.vacant 0)) (h : d.HasKeys) :
    Reads Document.ofJson? d.toJson { d with free := freePlaces d.slots.toList } := by
  apply reads_record ["nodes", "order"] rfl (by decide)
  intro nodes hnodes order horder
  have hslots := reads_list (fun s hs => Slot.reads (h.nodes s (Array.mem_toList_iff.mp hs)))
    nodes hnodes
  have harena : arena? d.slots.toList = some d.slots.toList := by
    rw [← Array.getElem?_toList] at hfirst
    cases hd : d.slots.toList with
    | nil => simp [hd] at hfirst
    | cons s rest =>
      obtain rfl : s = .vacant 0 := by simpa [hd] using hfirst
      rfl
  simp [ComeBack, required, hslots, harena, NodeId.reads_all h.order order horder]

end Documents

end RayScene
