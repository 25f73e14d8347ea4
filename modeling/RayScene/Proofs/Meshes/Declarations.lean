import Mathlib.Data.List.Nodup
import Mathlib.Data.List.Induction
import RayScene.Proofs.Compilation.References
import RayScene.Proofs.Compilation.Requests
import RayScene.Proofs.Compilation.Sessions
import RayScene.Proofs.Documents.Ownership
import RayScene.Proofs.Meshes.Texts
/-!
Declarations of meshes in whole runs. A node declares its own mesh, and once its identifier is its
own, it does not declare it again; so an identifier comes twice only if it belongs to two nodes.
-/
set_option autoImplicit false

namespace RayScene.Sdl

namespace MeshFile

def declareAll (f : MeshFile) (blocks : List MeshBlock) : MeshFile :=
  blocks.foldl (fun f b => f.declare b.ident b.owner b.mesh) f

variable {f : MeshFile} {b : MeshBlock} {blocks : List MeshBlock} {x : String} {owner : NodeId}

theorem declareAll_append (f : MeshFile) (blocks more : List MeshBlock) :
    f.declareAll (blocks ++ more) = (f.declareAll blocks).declareAll more := List.foldl_append ..

theorem exists_block_of_owner? (h : f.owner? x = some owner) :
    ∃ b ∈ f.blocks, b.ident = x ∧ b.owner = owner := by
  obtain ⟨b, hfind, rfl⟩ := Option.map_eq_some_iff.mp h
  have hident : b.ident = x := by simpa using List.find?_some hfind
  exact ⟨b, List.mem_reverse.mp (List.mem_of_find?_eq_some hfind), hident, rfl⟩

theorem extends_declareAll (f : MeshFile) (blocks : List MeshBlock) :
    f.Extends (f.declareAll blocks) := by
  induction blocks generalizing f with
  | nil => exact .refl f
  | cons b blocks ih => exact (extends_declare ..).trans (ih _)

theorem exists_block_declare (f : MeshFile) (b : MeshBlock) :
    ∃ b' ∈ (f.declare b.ident b.owner b.mesh).blocks, b'.ident = b.ident ∧ b'.owner = b.owner := by
  unfold declare
  split
  · rename_i howner
    exact exists_block_of_owner? howner
  · exact ⟨b, by simp, rfl, rfl⟩

theorem exists_block_declareAll (f : MeshFile) (hb : b ∈ blocks) :
    ∃ b' ∈ (f.declareAll blocks).blocks, b'.ident = b.ident ∧ b'.owner = b.owner := by
  induction blocks generalizing f with
  | nil => cases hb
  | cons c blocks ih =>
    rcases List.mem_cons.mp hb with rfl | hb
    · obtain ⟨b', hb', hsame⟩ := exists_block_declare f b
      obtain ⟨more, hmore⟩ := extends_declareAll (f.declare b.ident b.owner b.mesh) blocks
      refine ⟨b', ?_, hsame⟩
      rw [declareAll, List.foldl_cons]
      exact hmore ▸ List.mem_append_left more hb'
    · exact ih (f.declare c.ident c.owner c.mesh) hb

theorem declareAll_singleton (f : MeshFile) (b : MeshBlock) :
    f.declareAll [b] = f.declare b.ident b.owner b.mesh := rfl

theorem declare_owned {mesh : TriMesh} (h : f.owner? x = some owner) :
    f.declare x owner mesh = f := if_pos h

theorem blocks_declare (h : f.owner? b.ident ≠ some b.owner) :
    (f.declare b.ident b.owner b.mesh).blocks = f.blocks ++ [b] := by
  rw [declare, if_neg h]

end MeshFile

section Owners

variable {ids : List NodeId} {id : NodeId}

theorem eraseDups_concat (ids : List NodeId) (id : NodeId) :
    (ids ++ [id]).eraseDups = if id ∈ ids then ids.eraseDups else ids.eraseDups ++ [id] := by
  rw [List.eraseDups_append]
  by_cases hid : id ∈ ids <;> simp [List.removeAll, hid, List.eraseDups_cons]

theorem nodup_eraseDups (ids : List NodeId) : ids.eraseDups.Nodup := by
  induction ids using List.reverseRecOn with
  | nil => exact List.nodup_nil
  | append_singleton ids id ih =>
    rw [eraseDups_concat]
    split
    · exact ih
    · rename_i hid
      refine List.nodup_append.mpr ⟨ih, by simp, ?_⟩
      rintro a ha b hb rfl
      exact hid (List.mem_singleton.mp hb ▸ List.mem_eraseDups.mp ha)

def DistinctIdents (block? : NodeId → Option MeshBlock) (ids : List NodeId) : Prop :=
  ∀ id ∈ ids, ∀ id' ∈ ids, ∀ b b', block? id = some b → block? id' = some b' →
    b.ident = b'.ident → id = id'

variable {block? : NodeId → Option MeshBlock}

open MeshFile

/-- Without a collision a node stays the owner of its identifier from its first declaration on. -/
theorem blocks_declareAll (howner : ∀ id b, block? id = some b → b.owner = id)
    (h : DistinctIdents block? ids) :
    (empty.declareAll (ids.filterMap block?)).blocks = ids.eraseDups.filterMap block? := by
  induction ids using List.reverseRecOn with
  | nil => rfl
  | append_singleton ids id ih =>
    have hblocks := ih fun a ha b hb =>
      h a (List.mem_append_left _ ha) b (List.mem_append_left _ hb)
    rw [List.filterMap_append, declareAll_append, eraseDups_concat]
    generalize empty.declareAll (ids.filterMap block?) = f at hblocks ⊢
    cases hb : block? id with
    | none =>
      rw [List.filterMap_cons_none hb, apply_ite (List.filterMap block?), List.filterMap_append,
        List.filterMap_cons_none hb]
      simpa [declareAll] using hblocks
    | some b =>
      have hone : [id].filterMap block? = [b] := by simp [hb]
      have hfound : ∀ o, f.owner? b.ident = some o → id ∈ ids ∧ o = b.owner := by
        intro o ho
        obtain ⟨b', hb', hident, rfl⟩ := exists_block_of_owner? ho
        obtain ⟨id', hid', hg⟩ := List.mem_filterMap.mp (hblocks ▸ hb')
        have hmem : id' ∈ ids := List.mem_eraseDups.mp hid'
        obtain rfl := h id' (List.mem_append_left _ hmem) id (by simp) b' b hg hb hident
        exact ⟨hmem, by rw [howner _ _ hg, howner _ _ hb]⟩
      rw [hone, declareAll_singleton]
      by_cases hid : id ∈ ids
      · have hdecl : f.isDeclared b.ident = true := by
          rw [isDeclared_iff, hblocks]
          exact ⟨b, List.mem_filterMap.mpr ⟨id, List.mem_eraseDups.mpr hid, hb⟩, rfl⟩
        obtain ⟨o, ho⟩ := Option.isSome_iff_exists.mp hdecl
        obtain ⟨_, rfl⟩ := hfound o ho
        rw [if_pos hid, declare_owned ho, hblocks]
      · rw [if_neg hid, blocks_declare fun ho => hid (hfound _ ho).1, List.filterMap_append, hone,
          hblocks]

theorem nodup_idents_iff (howner : ∀ id b, block? id = some b → b.owner = id) :
    ((empty.declareAll (ids.filterMap block?)).blocks.map (·.ident)).Nodup ↔
      DistinctIdents block? ids := by
  constructor
  · intro hnodup id hid id' hid' b b' hb hb' hident
    obtain ⟨c, hc, hcident, hcowner⟩ :=
      exists_block_declareAll empty (List.mem_filterMap.mpr ⟨id, hid, hb⟩)
    obtain ⟨c', hc', hcident', hcowner'⟩ :=
      exists_block_declareAll empty (List.mem_filterMap.mpr ⟨id', hid', hb'⟩)
    have hsame : c.ident = c'.ident := by rw [hcident, hcident', hident]
    obtain rfl := List.inj_on_of_nodup_map hnodup hc hc' hsame
    rw [← howner id b hb, ← howner id' b' hb', ← hcowner, ← hcowner']
  · intro h
    rw [blocks_declareAll howner h, List.Nodup, List.pairwise_map, List.pairwise_filterMap]
    refine (nodup_eraseDups ids).imp_of_mem ?_
    intro id id' hid hid' hne b hb b' hb' hident
    exact hne (h id (List.mem_eraseDups.mp hid) id' (List.mem_eraseDups.mp hid') b b' hb hb' hident)

end Owners

namespace Workshop

variable {w : Workshop} {path : List NodeId} {id : NodeId} {n : Node} {f : Flags}
  {steps : List Step} {l l' : Ledger} {visits : List Visit} {codes : List String}

/-- The mesh that a node brings along, or what the tessellator makes of it on the first request. -/
def ownMesh? (w : Workshop) (id : NodeId) (n : Node) : Option TriMesh :=
  match n.kind with
  | .mesh m => some m
  | _ => (w.tessellator [] w.document (request id n)).toOption

/-- The block of a node for which only a mesh can stand, if the mesh is not empty. -/
def block? (w : Workshop) (id : NodeId) : Option MeshBlock :=
  match w.document.get? id with
  | none => none
  | some n =>
    if w.document.isInexpressible id n then
      ((w.ownMesh? id n).filter fun m => !m.isEmpty).map (⟨meshIdentifier n.label, id, ·⟩)
    else none

theorem meshOf?_eq_ownMesh? (h : w.tessellator.Steady) (id : NodeId) (n : Node) (l : Ledger) :
    ((w.meshOf? id n).run l).1 = w.ownMesh? id n := by
  rw [meshOf?_steady h id n l Ledger.empty]
  unfold meshOf? ownMesh?
  cases n.kind <;> rfl

theorem block?_eq_some_iff {b : MeshBlock} : w.block? id = some b ↔
    ∃ n m, w.document.get? id = some n ∧ w.document.isInexpressible id n = true ∧
      w.ownMesh? id n = some m ∧ m.isEmpty = false ∧ ⟨meshIdentifier n.label, id, m⟩ = b := by
  unfold block?
  cases w.document.get? id with
  | none => simp
  | some n => simp [Option.filter_eq_some_iff, and_assoc]

theorem block?_of_plan (hn : w.document.get? id = some n) {p : Plan} (hp : w.plan id n f = p)
    (hne : p ≠ .tessellated) : w.block? id = none := by
  have hnot := Surroundings.isInexpressible_of_plan hp hne
  simp [block?, hn, hnot]

theorem tessellated_block? (h : w.tessellator.Steady) (hf : f.meshDef = true)
    (hn : w.document.get? id = some n) (hp : w.plan id n f = .tessellated) {code : String}
    (ht : (w.tessellated id n f).run l = (code, l')) :
    l'.meshes = l.meshes.declareAll (w.block? id).toList ∧
      (code ≠ "" ↔ (w.block? id).isSome = true) := by
  have hi := Surroundings.plan_eq_tessellated_iff.mp hp
  have hown := meshOf?_eq_ownMesh? h id n l
  rw [tessellated_run, if_pos hf] at ht
  cases hm : (w.meshOf? id n).run l with
  | mk m? l₁ =>
    have hl := meshOf?_run hm
    rw [hm] at ht hown
    cases m? with
    | none =>
      cases ht
      simp [block?, hn, hi, ← hown, hl, MeshFile.declareAll]
    | some m =>
      cases hempty : m.isEmpty with
      | true =>
        simp only [hempty, if_true] at ht
        cases ht
        simp [block?, hn, hi, ← hown, hl, MeshFile.declareAll, Option.filter_some, hempty]
      | false =>
        simp only [hempty] at ht
        cases ht
        have hne := meshReference_ne_empty (w := w) n f
        simp [block?, hn, hi, ← hown, hl, MeshFile.declareAll, Option.filter_some, hempty, hne]

/-- A run declares the blocks of the nodes that it visits, one after the other. -/
theorem Runs.meshes (h : w.tessellator.Steady) (hr : w.Runs path steps l visits codes l')
    (hf : ∀ s ∈ steps, s.flags.meshDef = true) :
    l'.meshes = l.meshes.declareAll ((visits.map (·.id)).filterMap w.block?) ∧
      ∀ v ∈ visits, v.isReference w.document = (w.block? v.id).isSome := by
  induction hr with
  | done => exact ⟨rfl, List.forall_mem_nil _⟩
  | gone _ _ ih =>
    obtain ⟨_, hrest⟩ := List.forall_mem_cons.mp hf
    exact ih hrest
  | nothing he hp _ ih =>
    obtain ⟨_, hrest⟩ := List.forall_mem_cons.mp hf
    obtain ⟨hmeshes, hrefs⟩ := ih hrest
    have hnone := block?_of_plan he.found hp (by simp)
    have hnot := Surroundings.isInexpressible_of_plan hp (by simp)
    refine ⟨?_, List.forall_mem_cons.mpr ⟨?_, hrefs⟩⟩
    · rw [hmeshes, List.map_cons, List.filterMap_cons_none hnone]
    · simp [Visit.isReference, hnot, hnone]
  | meshed he hp ht _ ih =>
    obtain ⟨hfirst, hrest⟩ := List.forall_mem_cons.mp hf
    obtain ⟨hmeshes, hrefs⟩ := ih hrest
    obtain ⟨hone, hcode⟩ := tessellated_block? h hfirst he.found hp ht
    have hi := Surroundings.plan_eq_tessellated_iff.mp hp
    refine ⟨?_, List.forall_mem_cons.mpr ⟨?_, hrefs⟩⟩
    · rw [hmeshes, hone, ← MeshFile.declareAll_append, List.map_cons, List.filterMap_cons]
      cases w.block? _ <;> rfl
    · rw [Bool.eq_iff_iff, ← hcode]
      simp [Visit.isReference, hi]
  | framed he hp _ _ ihin ih =>
    obtain ⟨hfirst, hrest⟩ := List.forall_mem_cons.mp hf
    obtain ⟨hmeshes, hrefs⟩ := ih hrest
    obtain ⟨hinner, hinrefs⟩ := ihin (meshDef_of_mem_steps he.found hp hfirst)
    have hnone := block?_of_plan he.found hp (by simp)
    have hnot := Surroundings.isInexpressible_of_plan hp (by simp)
    refine ⟨?_, List.forall_mem_cons.mpr ⟨?_, List.forall_mem_append.mpr ⟨hinrefs, hrefs⟩⟩⟩
    · rw [hmeshes, hinner, ← MeshFile.declareAll_append, List.map_cons,
        List.filterMap_cons_none hnone, List.map_append, List.filterMap_append]
    · simp [Visit.isReference, hnot, hnone]

/-- No two of the nodes that a mesh stands for have one identifier. -/
def DistinctMeshes (d : Document) (visits : List Visit) : Prop :=
  ∀ v ∈ visits, ∀ v' ∈ visits, v.isReference d = true → v'.isReference d = true →
    v.meshIdent = v'.meshIdent → v.id = v'.id

theorem Runs.get?_of_mem (hr : w.Runs path steps l visits codes l') {v : Visit}
    (hv : v ∈ visits) : w.document.get? v.id = some v.node := by
  have hmet : ∀ ids met, w.document.Unrolls ids met →
      ∀ m ∈ met, w.document.get? m.1 = some m.2 := by
    intro ids met hunrolls
    induction hunrolls with
    | nil => exact List.forall_mem_nil _
    | gone _ _ ih => exact ih
    | node hn _ _ ihbelow ih =>
      exact List.forall_mem_cons.mpr ⟨hn, List.forall_mem_append.mpr ⟨ihbelow, ih⟩⟩
  exact hmet _ _ hr.unrolls v.met (List.mem_map_of_mem hv)

theorem Runs.distinctIdents_iff (h : w.tessellator.Steady)
    (hr : w.Runs path steps l visits codes l') (hf : ∀ s ∈ steps, s.flags.meshDef = true) :
    DistinctIdents w.block? (visits.map (·.id)) ↔ DistinctMeshes w.document visits := by
  obtain ⟨_, hrefs⟩ := hr.meshes h hf
  have hident : ∀ v ∈ visits, ∀ b, w.block? v.id = some b → b.ident = v.meshIdent := by
    intro v hv b hb
    obtain ⟨n, m, hn, _, _, _, rfl⟩ := block?_eq_some_iff.mp hb
    cases (hr.get?_of_mem hv).symm.trans hn
    rfl
  constructor
  · intro hdistinct v hv v' hv' href href' hsame
    rw [hrefs v hv] at href
    rw [hrefs v' hv'] at href'
    obtain ⟨b, hb⟩ := Option.isSome_iff_exists.mp href
    obtain ⟨b', hb'⟩ := Option.isSome_iff_exists.mp href'
    apply hdistinct v.id (List.mem_map_of_mem hv) v'.id (List.mem_map_of_mem hv') b b' hb hb'
    rw [hident v hv b hb, hident v' hv' b' hb', hsame]
  · intro hdistinct id hid id' hid' b b' hb hb' hsame
    obtain ⟨v, hv, rfl⟩ := List.mem_map.mp hid
    obtain ⟨v', hv', rfl⟩ := List.mem_map.mp hid'
    rw [hident v hv b hb, hident v' hv' b' hb'] at hsame
    apply hdistinct v hv v' hv' _ _ hsame
    · rw [hrefs v hv, hb, Option.isSome_some]
    · rw [hrefs v' hv', hb', Option.isSome_some]

theorem Runs.declaredIdentifiers {earlier : List Request}
    (hr : w.Runs [] steps ⟨earlier, MeshFile.empty⟩ visits codes l')
    (hf : ∀ s ∈ steps, s.flags.meshDef = true) :
    Check.declaredIdentifiers l'.meshes.text = l'.meshes.blocks.map (·.ident.toList) := by
  apply declaredIdentifiers_join
  intro b hb
  have hdecl := (hr.isDeclared_iff hf b.ident).mp (MeshFile.isDeclared_iff.mpr ⟨b, hb, rfl⟩)
  obtain hempty | ⟨v, _, _, hident⟩ := hdecl
  · simp [MeshFile.isDeclared_iff, MeshFile.empty] at hempty
  · exact ⟨v.node.label, hident.symm⟩

/-- With a tessellator whose answers do not depend on what it has been asked before, each identifier
of an export is declared once exactly when no two nodes that a mesh stands for have the same one.
Then the mesh file has one block for each of these nodes, in the order in which they are visited
first, with the mesh of the node itself. -/
theorem declared_once_iff {t : Tessellator} (ht : t.Steady) {earlier requests : List Request}
    {c : Context} {d : Document} {a : Artifacts}
    (h : assemble t earlier c d = (.ok a, requests)) :
    ∃ visits codes l', (assembling t c d).Runs [] (assembling t c d).rootSteps
        ⟨earlier, MeshFile.empty⟩ visits codes l' ∧
      (∀ v ∈ visits, v.isReference (c.repaired d) = ((assembling t c d).block? v.id).isSome) ∧
      ((Check.declaredIdentifiers a.meshes).Nodup ↔ DistinctMeshes (c.repaired d) visits) ∧
      ((Check.uniqueMeshes a.meshes).passed = true ↔ DistinctMeshes (c.repaired d) visits) ∧
      (DistinctMeshes (c.repaired d) visits → a.meshes = String.join
        (((visits.map (·.id)).eraseDups.filterMap (assembling t c d).block?).map
          MeshBlock.text)) := by
  obtain ⟨visits, codes, l', hr, _, hmeshes⟩ := runs_of_assemble h
  have hsteady : (assembling t c d).tessellator.Steady := ht
  obtain ⟨hfile, hrefs⟩ := hr.meshes hsteady meshDef_of_mem_rootSteps
  have hdistinct := hr.distinctIdents_iff hsteady meshDef_of_mem_rootSteps
  have howner : ∀ id b, (assembling t c d).block? id = some b → b.owner = id := by
    intro id b hb
    obtain ⟨_, _, _, _, _, _, rfl⟩ := block?_eq_some_iff.mp hb
    rfl
  have hnodup : (Check.declaredIdentifiers a.meshes).Nodup ↔
      DistinctMeshes (c.repaired d) visits := by
    have hidents : l'.meshes.blocks.map (·.ident.toList) =
        (l'.meshes.blocks.map (·.ident)).map String.toList := by simp
    rw [hmeshes, hr.declaredIdentifiers meshDef_of_mem_rootSteps, hidents,
      List.nodup_map_iff fun _ _ => String.toList_inj.mp, hfile, nodup_idents_iff howner]
    exact hdistinct
  refine ⟨visits, codes, l', hr, hrefs, hnodup, Check.passed_uniqueMeshes_iff.trans hnodup, ?_⟩
  intro hmesh
  rw [hmeshes, MeshFile.text, hfile]
  exact congrArg (fun blocks => String.join (List.map MeshBlock.text blocks))
    (blocks_declareAll howner (hdistinct.mpr hmesh))

/-- A wire that is there by itself and as a source of its copy is declared once. -/
theorem declared_once_of_copy :
    let wire := Node.ofKind "Wire" (.other "Part::Feature")
    let copy := Node.ofKind "Copy" (.clone [⟨1, 0⟩] ⟨1, 1, 1⟩)
    let w := Workshop.standard [wire, copy]
    let t := (ShapeBook.mk [] [] []).tessellator
    t.Steady ∧ ∃ a requests, assemble t [] w.context w.document = (.ok a, requests) ∧
      (Check.uniqueMeshes a.meshes).passed = true ∧
      a.meshes = meshText "Wire_mesh" (TriMesh.tetrahedron.placed Placement.origin) := by
  intro wire copy w t
  have ht : t.Steady := ShapeBook.steady_tessellator _
  have hsteps : (assembling t w.context w.document).rootSteps =
      [⟨⟨1, 0⟩, Flags.all⟩, ⟨⟨2, 0⟩, Flags.all⟩] := by
    have hwire : w.document.isOwned ⟨1, 0⟩ = false := Document.isOwned_of_parents_eq_nil rfl
    have hcopy : w.document.isOwned ⟨2, 0⟩ = false := Document.isOwned_of_parents_eq_nil rfl
    have hroots : w.document.roots = [⟨1, 0⟩, ⟨2, 0⟩] := by
      change [(⟨1, 0⟩ : NodeId), ⟨2, 0⟩].filter (fun id => !w.document.isOwned id) = _
      simp only [List.filter_cons, hwire, hcopy]
      rfl
    change w.document.roots.map _ = _
    rw [hroots]
    rfl
  have hrun : ∃ visits codes l', (assembling t w.context w.document).Runs []
      [⟨⟨1, 0⟩, Flags.all⟩, ⟨⟨2, 0⟩, Flags.all⟩] ⟨[], MeshFile.empty⟩ visits codes l' ∧
        visits.map (·.id) = [⟨1, 0⟩, ⟨2, 0⟩, ⟨1, 0⟩] := by
    refine ⟨_, _, _, .meshed ⟨rfl, by simp, by decide⟩ rfl rfl
      (.framed ⟨rfl, by simp, by decide⟩ rfl
        (.meshed ⟨rfl, by decide, by decide⟩ rfl rfl .done) .done), rfl⟩
  obtain ⟨visits, codes, l', hr, hids⟩ := hrun
  rw [← hsteps] at hr
  obtain ⟨a, h⟩ := assemble_of_runs hr
  obtain ⟨visits', _, _, hr', hrefs, _, hpassed, hmeshes⟩ := declared_once_iff ht h
  rw [(hr'.unique hr).1] at hrefs hpassed hmeshes
  have hwire : ∀ v ∈ visits, v.isReference w.document = true → v.id = ⟨1, 0⟩ := by
    intro v hv href
    have hsome : ((assembling t w.context w.document).block? v.id).isSome = true :=
      (hrefs v hv).symm.trans href
    have hid : v.id ∈ visits.map (·.id) := List.mem_map_of_mem hv
    rw [hids] at hid
    simp only [List.mem_cons, List.not_mem_nil, or_false] at hid
    rcases hid with hid | hid | hid
    · exact hid
    · rw [hid] at hsome
      cases hsome
    · exact hid
  have hdistinct : DistinctMeshes w.document visits := fun v hv v' hv' href href' _ =>
    (hwire v hv href).trans (hwire v' hv' href').symm
  refine ⟨ht, a, _, h, hpassed.mpr hdistinct, (hmeshes hdistinct).trans ?_⟩
  have hfirst : (visits.map (·.id)).eraseDups = [⟨1, 0⟩, ⟨2, 0⟩] := by
    rw [hids]
    decide
  have hone : (assembling t w.context w.document).block? ⟨1, 0⟩ =
      some ⟨meshIdentifier "Wire", ⟨1, 0⟩, TriMesh.tetrahedron.placed Placement.origin⟩ := rfl
  have hnone : (assembling t w.context w.document).block? ⟨2, 0⟩ = none := rfl
  have hident : meshIdentifier "Wire" = "Wire_mesh" := by decide
  rw [hfirst, List.filterMap_cons_some hone, List.filterMap_cons_none hnone, hident]
  simp [MeshBlock.text]

end Workshop

end RayScene.Sdl
