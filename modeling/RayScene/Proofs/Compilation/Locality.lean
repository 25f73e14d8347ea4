import RayScene.Proofs.Compilation.Agreement
import RayScene.Proofs.Compilation.References
import RayScene.Proofs.Compilation.Transfer
set_option autoImplicit false

namespace RayScene.Sdl

variable {d d' : Document} {within : NodeId → Prop} {id : NodeId} {n : Node}

section Placement

theorem axisTurn_eq (h : d.AgreeOn d' within) (hid : within id) (hn : d.get? id = some n) :
    axisTurn d' n.kind = axisTurn d n.kind := by
  have hrefs : ∀ r ∈ n.kind.references, d'.get? r = d.get? r := fun r hr =>
    h.get?_eq r (h.within_of_mem_references hid hn hr)
  cases hk : n.kind with
  | clone sources scale =>
    cases sources with
    | nil => rfl
    | cons r sources =>
      rw [hk] at hrefs
      simp only [axisTurn, hrefs r List.mem_cons_self]
  | _ => rfl

theorem rotation_eq (h : d.AgreeOn d' within) (hid : within id) (hn : d.get? id = some n) :
    rotation d' n = rotation d n := by
  unfold rotation angles
  rw [axisTurn_eq h hid hn]

theorem inverseRotation_eq (h : d.AgreeOn d' within) (hid : within id)
    (hn : d.get? id = some n) : inverseRotation d' n = inverseRotation d n := by
  unfold inverseRotation angles
  rw [axisTurn_eq h hid hn]

end Placement

namespace Surroundings

variable {c : Context} {f : Flags}

theorem trailing_eq (h : d.AgreeOn d' within) (hid : within id) (hn : d.get? id = some n) :
    trailing ⟨d', c⟩ n f = trailing ⟨d, c⟩ n f := by
  unfold trailing
  rw [rotation_eq h hid hn]

theorem profile?_eq (h : d.AgreeOn d' within) (hid : within id) :
    profile? ⟨d', c⟩ id = profile? ⟨d, c⟩ id := by
  unfold profile?
  rw [h.get?_eq id hid, h.sketch?_eq hid]

theorem get?_of_profile? {p : Profile} (h : profile? ⟨d, c⟩ id = some (n, p)) :
    d.get? id = some n := by
  unfold profile? at h
  split at h
  · split at h
    · cases h
      assumption
    · cases h
  · cases h

theorem extrusion_eq (h : d.AgreeOn d' within) (hid : within id) (hn : d.get? id = some n)
    {e : Extrusion} (he : within e.base) :
    extrusion ⟨d', c⟩ n f e = extrusion ⟨d, c⟩ n f e := by
  unfold extrusion Document.supportsExtrusion simple
  rw [h.hasSupportedSketch_eq he, profile?_eq h he, trailing_eq h hid hn]
  cases hp : profile? ⟨d, c⟩ e.base with
  | none => rfl
  | some found =>
    obtain ⟨sketch, p⟩ := found
    dsimp only
    rw [rotation_eq h he (get?_of_profile? hp)]

theorem feature_eq (h : d.AgreeOn d' within) {p : Feature} (hp : within p.profile)
    (pocket : Bool) : feature ⟨d', c⟩ f p pocket = feature ⟨d, c⟩ f p pocket := by
  unfold feature Document.supportsFeature
  rw [h.hasSupportedSketch_eq hp, profile?_eq h hp]
  cases hprofile : profile? ⟨d, c⟩ p.profile with
  | none => rfl
  | some found =>
    obtain ⟨sketch, profile⟩ := found
    dsimp only
    rw [rotation_eq h hp (get?_of_profile? hprofile)]

theorem array_eq (h : d.AgreeOn d' within) (hid : within id) (hn : d.get? id = some n)
    {a : NodeArray} (ha : within a.base) : array ⟨d', c⟩ n f a = array ⟨d, c⟩ n f a := by
  unfold array loops polarLoop orthoLoop
  rw [h.get?_eq a.base ha]
  simp only [trailing_eq h hid hn, rotation_eq h hid hn]
  rfl

theorem boolean_eq (h : d.AgreeOn d' within) (hid : within id) (hn : d.get? id = some n)
    (op : BooleanOp) : boolean ⟨d', c⟩ n f op = boolean ⟨d, c⟩ n f op := by
  have hfilter : n.children.filter d'.contains = n.children.filter d.contains :=
    List.filter_congr fun r hr => h.contains_eq (h.within_of_mem_children hid hn hr)
  unfold boolean
  rw [hfilter, trailing_eq h hid hn]

theorem container_eq (h : d.AgreeOn d' within) (hid : within id) (hn : d.get? id = some n) :
    container ⟨d', c⟩ n f = container ⟨d, c⟩ n f := by
  have hfilter : (n.children.filter fun r => (d'.get? r).any (·.visible)) =
      n.children.filter fun r => (d.get? r).any (·.visible) := by
    apply List.filter_congr
    intro r hr
    rw [h.get?_eq r (h.within_of_mem_children hid hn hr)]
  unfold container
  rw [hfilter, trailing_eq h hid hn]

theorem clone_eq (h : d.AgreeOn d' within) (hid : within id) (hn : d.get? id = some n)
    {sources : List NodeId} (hsources : ∀ r ∈ sources, within r) (scale : Vec3) :
    clone ⟨d', c⟩ n f sources scale = clone ⟨d, c⟩ n f sources scale := by
  have hfilter : sources.filter d'.contains = sources.filter d.contains :=
    List.filter_congr fun r hr => h.contains_eq (hsources r hr)
  unfold clone
  rw [hfilter, trailing_eq h hid hn]

theorem body_eq (h : d.AgreeOn d' within) (hid : within id) (hn : d.get? id = some n)
    (tip : Option NodeId) : body ⟨d', c⟩ id n f tip = body ⟨d, c⟩ id n f tip := by
  unfold body
  rw [h.supportsBody_eq hid, trailing_eq h hid hn]

/-- The plan of a node reads nothing but what the node needs. -/
theorem plan_eq (h : d.AgreeOn d' within) (hid : within id) (hn : d.get? id = some n) (f : Flags) :
    plan ⟨d', c⟩ id n f = plan ⟨d, c⟩ id n f := by
  have hrefs : ∀ r ∈ n.kind.references, within r := fun r => h.within_of_mem_references hid hn
  unfold plan
  cases hk : n.kind with
  | boolean op => exact boolean_eq h hid hn op
  | part => exact container_eq h hid hn
  | group => exact container_eq h hid hn
  | array a => exact array_eq h hid hn (hrefs _ (by simp [hk, Kind.references]))
  | clone sources scale =>
    rw [hk] at hrefs
    exact clone_eq h hid hn hrefs scale
  | extrusion e => exact extrusion_eq h hid hn (hrefs _ (by simp [hk, Kind.references]))
  | pad p => exact feature_eq h (hrefs _ (by simp [hk, Kind.references])) false
  | pocket p => exact feature_eq h (hrefs _ (by simp [hk, Kind.references])) true
  | body tip => exact body_eq h hid hn tip
  | _ => simp only [simple, trailing_eq h hid hn]

theorem node_mem_of_mem_map {ids : List NodeId} {inner : Flags} {t : Step}
    (ht : t ∈ ids.map (⟨·, inner⟩)) : t.node ∈ ids := by
  obtain ⟨r, hr, rfl⟩ := List.mem_map.mp ht
  exact hr

theorem node_mem_of_mem_filter {ids : List NodeId} {p : NodeId → Bool} {inner : Flags} {t : Step}
    (ht : t ∈ (ids.filter p).map (⟨·, inner⟩)) : t.node ∈ ids :=
  List.mem_of_mem_filter (node_mem_of_mem_map ht)

theorem node_mem_of_mem_feature {s : Surroundings} {p : Feature} {pocket : Bool} {t : Step}
    (ht : t ∈ (s.feature f p pocket).steps) : t.node ∈ p.baseFeature.toList := by
  rw [feature_steps] at ht
  split at ht
  · exact node_mem_of_mem_map ht
  · cases ht

theorem node_mem_of_mem_steps (s : Surroundings) (id : NodeId) (n : Node) (f : Flags) {t : Step}
    (ht : t ∈ (s.plan id n f).steps) : t.node ∈ n.children ∨ t.node ∈ n.kind.references := by
  unfold plan at ht
  cases hk : n.kind with
  | boolean op =>
    rw [hk] at ht
    exact .inl (node_mem_of_mem_filter ht)
  | part =>
    rw [hk] at ht
    exact .inl (node_mem_of_mem_filter ht)
  | group =>
    rw [hk] at ht
    exact .inl (node_mem_of_mem_filter ht)
  | array a =>
    simp only [hk, array_steps] at ht
    split at ht
    · exact .inr (List.mem_singleton.mpr (by rw [List.mem_singleton.mp ht]))
    · cases ht
  | clone sources scale =>
    rw [hk] at ht
    exact .inr (node_mem_of_mem_filter ht)
  | extrusion e =>
    simp only [hk, extrusion_steps] at ht
    cases ht
  | pad p =>
    simp only [hk] at ht
    exact .inr (List.mem_cons_of_mem _ (node_mem_of_mem_feature ht))
  | pocket p =>
    simp only [hk] at ht
    exact .inr (List.mem_cons_of_mem _ (node_mem_of_mem_feature ht))
  | body tip =>
    simp only [hk, body_steps] at ht
    split at ht
    · exact .inr (node_mem_of_mem_map ht)
    · cases ht
  | _ =>
    rw [hk] at ht
    cases ht

end Surroundings

def Ledger.extended (l : Ledger) (requests : List Request) (blocks : List MeshBlock) : Ledger :=
  ⟨l.requests ++ requests, ⟨l.meshes.blocks ++ blocks⟩⟩

theorem Ledger.extended_nil (l : Ledger) : l.extended [] [] = l := by simp [Ledger.extended]

namespace Workshop

variable {w w' : Workshop} {l l' : Ledger}

/-- Two tessellators with a past of their own that give the same answers from now on, as long as
they are asked about the nodes in a set only. -/
def AnswersAlike (w w' : Workshop) (l l' : Ledger) (within : NodeId → Prop) : Prop :=
  ∀ since r, (∀ q ∈ since, within q.node) → within r.node →
    w'.tessellator (l'.requests ++ since) w'.document r =
      w.tessellator (l.requests ++ since) w.document r

def GrownAlike (l l' : Ledger) (within : NodeId → Prop) (l₁ l₁' : Ledger) : Prop :=
  ∃ requests blocks, (∀ q ∈ requests, within q.node) ∧ l₁ = l.extended requests blocks ∧
    l₁' = l'.extended requests blocks

theorem plan_eq_of_agreeOn (h : w.document.AgreeOn w'.document within)
    (hcontext : w'.context = w.context) (hid : within id) (hn : w.document.get? id = some n)
    (f : Flags) : w'.plan id n f = w.plan id n f := by
  have hsurroundings : w'.toSurroundings = ⟨w'.document, w.context⟩ := by rw [← hcontext]
  rw [hsurroundings]
  exact Surroundings.plan_eq h hid hn f

theorem meshReference_eq_of_agreeOn (h : w.document.AgreeOn w'.document within)
    (hcontext : w'.context = w.context) (hid : within id) (hn : w.document.get? id = some n)
    (f : Flags) : w'.meshReference n f = w.meshReference n f := by
  unfold Surroundings.meshReference
  rw [inverseRotation_eq h hid hn, hcontext]

theorem meshOf?_grown (halike : w.AnswersAlike w' l l' within) (hid : within id)
    {requests : List Request} (hrequests : ∀ q ∈ requests, within q.node)
    (blocks : List MeshBlock) :
    ∃ m? more, (∀ q ∈ more, within q.node) ∧
      (w.meshOf? id n).run (l.extended requests blocks) =
        (m?, l.extended (requests ++ more) blocks) ∧
      (w'.meshOf? id n).run (l'.extended requests blocks) =
        (m?, l'.extended (requests ++ more) blocks) := by
  unfold meshOf?
  split
  · exact ⟨_, [], nofun, by rw [List.append_nil]; rfl, by rw [List.append_nil]; rfl⟩
  · have hanswer := halike requests (request id n) hrequests hid
    refine ⟨(w.tessellator (l.requests ++ requests) w.document (request id n)).toOption,
      [request id n], List.forall_mem_singleton.mpr hid, ?_, ?_⟩
    · exact Prod.ext rfl (by simp [StateT.run, Ledger.extended])
    · rw [← hanswer]
      exact Prod.ext rfl (by simp [StateT.run, Ledger.extended])

theorem tessellated_grown (h : w.document.AgreeOn w'.document within)
    (hcontext : w'.context = w.context) (hside : l'.meshes = l.meshes)
    (halike : w.AnswersAlike w' l l' within) (hid : within id)
    (hn : w.document.get? id = some n) (f : Flags) {l₁ l₁' : Ledger}
    (hgrown : GrownAlike l l' within l₁ l₁') :
    ∃ code l₂ l₂', (w.tessellated id n f).run l₁ = (code, l₂) ∧
      (w'.tessellated id n f).run l₁' = (code, l₂') ∧ GrownAlike l l' within l₂ l₂' := by
  obtain ⟨requests, blocks, hrequests, rfl, rfl⟩ := hgrown
  have href := meshReference_eq_of_agreeOn h hcontext hid hn f
  rw [tessellated_run, tessellated_run, href]
  cases f.meshDef with
  | false => exact ⟨_, _, _, rfl, rfl, requests, blocks, hrequests, rfl, rfl⟩
  | true =>
    obtain ⟨m?, more, hmore, hm, hm'⟩ := meshOf?_grown (n := n) halike hid hrequests blocks
    have hall := List.forall_mem_append.mpr ⟨hrequests, hmore⟩
    rw [hm, hm']
    cases m? with
    | none => exact ⟨_, _, _, rfl, rfl, _, blocks, hall, rfl, rfl⟩
    | some m =>
      cases hempty : m.isEmpty with
      | true =>
        simp only [hempty, if_true]
        exact ⟨_, _, _, rfl, rfl, _, blocks, hall, rfl, rfl⟩
      | false =>
        obtain ⟨new, hnew⟩ := MeshFile.extends_declare ⟨l.meshes.blocks ++ blocks⟩
          (meshIdentifier n.label) id m
        rw [List.append_assoc] at hnew
        simp only [hempty, if_true, Bool.false_eq_true, if_false]
        refine ⟨_, _, _, rfl, rfl, _, blocks ++ new, hall, ?_, ?_⟩
        · exact congrArg (Ledger.mk _) (congrArg MeshFile.mk hnew)
        · simp only [Ledger.extended, hside]
          exact congrArg (Ledger.mk _) (congrArg MeshFile.mk hnew)

theorem matches_of_agreeOn (h : w.document.AgreeOn w'.document within)
    (hcontext : w'.context = w.context) (hside : l'.meshes = l.meshes)
    (halike : w.AnswersAlike w' l l' within) :
    w.Matches w' within (GrownAlike l l' within) where
  found := h.get?_eq
  plan _ _ f hid hn := plan_eq_of_agreeOn h hcontext hid hn f
  inside id n f hid hn _ ht := by
    rcases Surroundings.node_mem_of_mem_steps w.toSurroundings id n f ht with hchild | href
    · exact h.within_of_mem_children hid hn hchild
    · exact h.within_of_mem_references hid hn href
  tessellated _ _ f _ _ hid hn hgrown :=
    tessellated_grown h hcontext hside halike hid hn f hgrown

theorem compile_grown (w w' : Workshop) (h : w.document.AgreeBelow w'.document id)
    (hcontext : w'.context = w.context) (hside : l'.meshes = l.meshes)
    (halike : w.AnswersAlike w' l l' (w.document.Needs id)) (f : Flags) :
    ∃ result requests blocks, (w.compile id f).run.run l = (result, l.extended requests blocks) ∧
      (w'.compile id f).run.run l' = (result, l'.extended requests blocks) := by
  have hstart : GrownAlike l l' (w.document.Needs id) l l' :=
    ⟨[], [], nofun, l.extended_nil.symm, l'.extended_nil.symm⟩
  have hmatches := matches_of_agreeOn h.agreeOn hcontext hside halike
  obtain ⟨result, _, _, hc, hc', requests, blocks, _, rfl, rfl⟩ :=
    hmatches.compile id .refl f l l' hstart
  exact ⟨result, requests, blocks, hc, hc'⟩

theorem answersAlike_of_lookup {t : Tessellator}
    (ht : ∀ before before' d d' r, d'.get? r.node = d.get? r.node → t before' d' r = t before d r)
    (hw : w.tessellator = t) (hw' : w'.tessellator = t)
    (h : w.document.AgreeOn w'.document within) : w.AnswersAlike w' l l' within := by
  intro since r _ hr
  rw [hw, hw']
  exact ht _ _ _ _ r (h.get?_eq r.node hr)

theorem tessellator_lookup (b : ShapeBook) (before before' : List Request) (d d' : Document)
    (r : Request) (h : d'.get? r.node = d.get? r.node) :
    b.tessellator before' d' r = b.tessellator before d r := by
  unfold ShapeBook.tessellator
  rw [h]

/-- What a node compiles to depends on the node and on what it needs. Where two workshops agree on
this, the code or the error, the requests and the declarations are the same, so that no edit of
another node changes any of them. -/
theorem compile_local (w : Workshop) (id : NodeId) (f : Flags) (l : Ledger) :
    (∀ w' l', w'.context = w.context → l'.meshes = l.meshes →
      w.document.AgreeBelow w'.document id → w.AnswersAlike w' l l' (w.document.Needs id) →
      ∃ result requests blocks,
        (w.compile id f).run.run l = (result, l.extended requests blocks) ∧
        (w'.compile id f).run.run l' = (result, l'.extended requests blocks)) ∧
    ∀ other d', w.document.Edit other d' → ¬w.document.Needs id other →
      w.AnswersAlike { w with document := d' } l l (w.document.Needs id) →
      (({ w with document := d' } : Workshop).compile id f).run.run l =
        (w.compile id f).run.run l := by
  constructor
  · intro w' l' hcontext hside h halike
    exact compile_grown w w' h hcontext hside halike f
  · intro other d' hedit hother halike
    obtain ⟨result, requests, blocks, hc, hc'⟩ :=
      compile_grown w { w with document := d' } (hedit.agreeBelow hother) rfl rfl halike f
    rw [hc, hc']

/-- A wire in a group is not affected when a box outside of the group is taken out. -/
theorem compile_without_box :
    let nodes := [Node.ofKind "Wire" (.other "Part::Feature"), Node.ofKind "Box" (.box 1 1 1),
      { Node.ofKind "Group" .group with children := [⟨1, 0⟩] }]
    let w := { Workshop.standard nodes with tessellator := ShapeBook.tessellator ⟨[], [], []⟩ }
    let w' := { w with document := w.document.remove ⟨2, 0⟩ }
    w'.document.contains ⟨2, 0⟩ = false ∧
      ∃ code l', (w.compile ⟨3, 0⟩ Flags.all).run.run Ledger.empty = (.ok code, l') ∧
        l'.requests.length = 1 ∧ l'.meshes.isDeclared "Wire_mesh" = true ∧
        (w'.compile ⟨3, 0⟩ Flags.all).run.run Ledger.empty = (.ok code, l') := by
  intro nodes w w'
  refine ⟨rfl, ?_⟩
  have hrun : ∃ code l', (w.compile ⟨3, 0⟩ Flags.all).run.run Ledger.empty = (.ok code, l') ∧
      l'.requests.length = 1 ∧ l'.meshes.isDeclared "Wire_mesh" = true :=
        ⟨_, _, rfl, rfl, by decide⟩
  obtain ⟨code, l', hc, hrequests, hdeclared⟩ := hrun
  have hclosed : ∀ m ∈ [(⟨3, 0⟩ : NodeId), ⟨1, 0⟩], ∀ r ∈ w.document.outList m,
      r ∈ [(⟨3, 0⟩ : NodeId), ⟨1, 0⟩] := by decide
  have hother : ¬w.document.Needs ⟨3, 0⟩ ⟨2, 0⟩ := fun h =>
    absurd (h.mem_of_closed hclosed (by decide)) (by decide)
  have hedit := Document.Edit.removed (d := w.document) ⟨2, 0⟩
  have hagree := (hedit.agreeBelow hother).agreeOn
  obtain ⟨_, hlocal⟩ := compile_local w ⟨3, 0⟩ Flags.all Ledger.empty
  refine ⟨code, l', hc, hrequests, hdeclared, ?_⟩
  rw [hlocal _ _ hedit hother (answersAlike_of_lookup (tessellator_lookup _) rfl rfl hagree), hc]

end Workshop

end RayScene.Sdl
