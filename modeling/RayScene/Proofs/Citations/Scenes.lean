import RayScene.Proofs.Citations.Checks
import RayScene.Proofs.Citations.Frames
import RayScene.Proofs.Citations.Head
import RayScene.Proofs.Compilation.Requests
import RayScene.Proofs.Documents.Repair
/-!
Citations of whole scenes. A scene refers to the meshes that were declared for it, and besides to
every base of an array whose identifier happens to end like that of a mesh. Such a base is not in
the mesh file.
-/
set_option autoImplicit false

namespace RayScene.Citations

open Sdl Sdl.Workshop Check

def visited (d : Document) (v : Visit) : List Citation :=
  if v.isReference d then mention v.meshIdent.toList else ownCitations d v.node

def CleanImages (d : Document) : Prop :=
  d.ImageFiles fun file => Clean file ∧ Clean (imageFormat file)

/-- Some visit refers to the mesh of this identifier. -/
def IsMesh (d : Document) (visits : List Visit) (x : String) : Prop :=
  ∃ v ∈ visits, v.isReference d = true ∧ v.meshIdent = x

/-- Some visited array declares its base under this identifier. -/
def IsBase (d : Document) (visits : List Visit) (x : String) : Prop :=
  ∃ v ∈ visits, d.arrayIdent? v.node = some x

section Names

variable {c : Char} {tail : List Char}

theorem cons_suffix_append_iff (lead rest : List Char) (hc : c ∉ tail) :
    c :: tail <:+ lead ++ c :: rest ↔ c :: tail <:+ c :: rest := by
  refine ⟨fun h => ?_, fun h => h.trans (List.suffix_append _ _)⟩
  rcases List.suffix_or_suffix_of_suffix h (List.suffix_append lead (c :: rest)) with hin | hout
  · exact hin
  · rcases List.suffix_cons_iff.mp hout with heq | hmore
    · exact heq ▸ List.suffix_refl _
    · exact absurd (hmore.subset List.mem_cons_self) hc

/-- Whether the identifier of a base ends like that of a mesh lies in its name alone. -/
theorem meshEnding_suffix_arrayIdentifier_iff (base : Node) :
    meshEnding <:+ (Surroundings.arrayIdentifier base).toList ↔
      meshEnding <:+ (sanitize ("_" ++ base.name)).toList := by
  have hsuffix : (sanitize ("_" ++ base.name)).toList <:+
      (Surroundings.arrayIdentifier base).toList := by
    have hmap := map_suffix_sanitizeChars (capitalize base.label ++ "_" ++ base.name).toList
    rw [toList_sanitize_underscore, Surroundings.arrayIdentifier, sanitize, String.toList_ofList]
    have hunderscore : identifierChar '_' = '_' := identifierChar_of_isIdentifierChar rfl
    have hend : '_' :: base.name.toList.map identifierChar <:+
        (capitalize base.label ++ "_" ++ base.name).toList.map identifierChar :=
      ⟨(capitalize base.label).toList.map identifierChar, by simp [hunderscore]⟩
    exact hend.trans hmap
  obtain ⟨lead, hlead⟩ := hsuffix
  have hnone : '_' ∉ "mesh".toList := by decide
  rw [← hlead, toList_sanitize_underscore]
  exact cons_suffix_append_iff lead _ hnone

end Names

section Visits

variable {s : Surroundings} {d : Document} {id : NodeId} {n : Node} {f : Flags} {v : Visit}
  {x : String}

theorem arrayIdent?_eq_some_iff : d.arrayIdent? n = some x ↔
    ∃ a base, n.kind = .array a ∧ d.hasLoops a = true ∧ d.get? a.base = some base ∧
      Surroundings.arrayIdentifier base = x := by
  unfold Document.arrayIdent?
  split
  · rename_i a ha
    simp [ha, ite_eq_iff]
  · rename_i hnot
    refine iff_of_false (Option.some_ne_none x).symm ?_
    rintro ⟨a, _, ha, _⟩
    exact hnot a ha

theorem arrayIdent?_of_isReference (h : v.isReference d = true) : d.arrayIdent? v.node = none := by
  rw [Option.eq_none_iff_forall_ne_some]
  intro x hx
  obtain ⟨a, base, hk, hloops, _⟩ := arrayIdent?_eq_some_iff.mp hx
  have hinexpressible : d.isInexpressible v.id v.node = true := by
    rw [Visit.isReference, Bool.and_eq_true] at h
    exact h.1
  simp [Document.isInexpressible, hk, hloops] at hinexpressible

theorem ownCitations_of_plan {p : Plan} (hp : s.plan id n f = p)
    (hne : ∀ frame, p ≠ .framed frame) :
    ownCitations s.document n = [] := by
  unfold ownCitations
  cases hx : s.document.arrayIdent? n with
  | none => rfl
  | some x =>
    obtain ⟨a, _, hk, hloops, _⟩ := arrayIdent?_eq_some_iff.mp hx
    obtain ⟨base, loop, _, heq, _⟩ := Surroundings.array_of_hasLoops (n := n) (f := f) hloops
    exact absurd (hp.symm.trans ((Surroundings.plan_of_array id f hk).trans heq)) (hne _)

theorem meshEnding_suffix_meshIdent (v : Visit) : meshEnding <:+ v.meshIdent.toList := by
  unfold Visit.meshIdent meshIdentifier
  rw [String.toList_append]
  exact List.suffix_append _ _

theorem mesh_mem_visited_iff : .mesh x ∈ visited d v ↔ v.isReference d = true ∧ v.meshIdent = x ∨
    meshEnding <:+ x.toList ∧ d.arrayIdent? v.node = some x := by
  unfold visited
  split
  · rename_i href
    rw [mem_mention_iff, and_iff_right (meshEnding_suffix_meshIdent v), String.ofList_toList]
    simp [href, arrayIdent?_of_isReference href]
  · rename_i href
    unfold ownCitations
    cases d.arrayIdent? v.node with
    | none => simp [href]
    | some ident =>
      have hsame : meshEnding <:+ ident.toList ∧ ident = x ↔ meshEnding <:+ x.toList ∧ ident = x :=
        and_congr_left fun hx => by rw [hx]
      simp [href, mem_mention_iff, hsame]

theorem file_not_mem_visited (d : Document) (v : Visit) : .file ∉ visited d v := by
  unfold visited ownCitations
  split
  · exact file_not_mem_mention _
  · cases d.arrayIdent? v.node with
    | none => exact List.not_mem_nil
    | some ident => exact file_not_mem_mention _

end Visits

section Runs

variable {w : Workshop} {path : List NodeId} {steps : List Step} {l l' : Ledger}
  {visits : List Visit} {codes : List String}

theorem cites_frame {frame : Frame} {inner : List String} {m own : List Citation}
    (hframe : CitesLast frame own) (hinner : Cites (String.join inner) m) :
    Cites (frame.code inner) (m ++ own) := by
  have hsteps := join_of_indent (P := (Cites · m)) (fun _ => .indent) hinner frame.indented
  exact (hframe.before.skip hsteps).append hframe.after

theorem cites_of_tessellated {n : Node} {f : Flags} {id : NodeId} {code : String}
    (hp : w.plan id n f = .tessellated) (ht : (w.tessellated id n f).run l = (code, l')) :
    Cites code (visited w.document ⟨id, n, f, [], code⟩) := by
  have hi := Surroundings.plan_eq_tessellated_iff.mp hp
  have hown := ownCitations_of_plan hp (by simp)
  rcases tessellated_code ht with rfl | rfl
  · have href : Visit.isReference w.document ⟨id, n, f, [], ""⟩ = false := by
      simp [Visit.isReference]
    rw [visited, href, if_neg Bool.false_ne_true, hown]
    exact .empty
  · have href : Visit.isReference w.document ⟨id, n, f, [], w.meshReference n f⟩ = true := by
      simp [Visit.isReference, hi, meshReference_ne_empty]
    rw [visited, if_pos href]
    exact cites_meshReference n f

/-- The codes of a run cite what its visits cite, the steps of a frame before the frame itself. -/
theorem cites_of_runs (h : w.Runs path steps l visits codes l') (himages : CleanImages w.document) :
    ∃ m, Cites (String.join codes) m ∧ m.Perm (visits.flatMap (visited w.document)) := by
  induction h with
  | done => exact ⟨[], .empty, .refl _⟩
  | gone _ _ ih =>
    obtain ⟨m, hm, hperm⟩ := ih
    exact ⟨m, by rwa [String.join_cons, String.empty_append], hperm⟩
  | @nothing _ s _ n _ _ _ _ _ hp _ ih =>
    obtain ⟨m, hm, hperm⟩ := ih
    have hnone : visited w.document ⟨s.node, n, s.flags, [], ""⟩ = [] := by
      simp [visited, Visit.isReference, ownCitations_of_plan hp (by simp)]
    refine ⟨m, by rwa [String.join_cons, String.empty_append], ?_⟩
    rwa [List.flatMap_cons, hnone, List.nil_append]
  | @meshed _ s _ n _ _ _ _ code _ _ hp ht _ ih =>
    obtain ⟨m, hm, hperm⟩ := ih
    refine ⟨_, ?_, hperm.append_left _⟩
    rw [String.join_cons]
    exact ((cites_marker n s.flags).skip (cites_of_tessellated hp ht)).append hm
  | @framed _ s _ n frame _ _ _ within visits inner _ he hp _ _ ihin ih =>
    obtain ⟨m, hm, hperm⟩ := ih
    obtain ⟨m', hm', hperm'⟩ := ihin
    have hframe := citesLast_of_plan hp (himages s.node n · · · he.found)
    have hown : visited w.document ⟨s.node, n, s.flags, inner, frame.code inner⟩ =
        ownCitations w.document n := by
      simp [visited, Visit.isReference, Surroundings.isInexpressible_of_plan hp (by simp)]
    refine ⟨m' ++ ownCitations w.document n ++ m, ?_, ?_⟩
    · rw [String.join_cons]
      exact ((cites_marker n s.flags).skip (cites_frame hframe hm')).append hm
    · rw [List.flatMap_cons, List.flatMap_append, hown, ← List.append_assoc]
      exact ((hperm'.append_right _).trans List.perm_append_comm).append hperm

end Runs

section Assembly

variable {t : Tessellator} {earlier : List Request} {c : Context} {d : Document} {l' : Ledger}
  {visits : List Visit} {codes : List String} {x : String}

theorem Cites.toList_eq {s : String} {l : List Citation} (h : Cites s l) :
    cites [] s.toList = l := by
  have hwhole := h [] []
  rwa [List.append_nil, cites, List.append_nil] at hwhole

theorem mem_cites_scene (hr : (assembling t c d).Runs [] (assembling t c d).rootSteps
      ⟨earlier, MeshFile.empty⟩ visits codes l')
    (himages : CleanImages d) (hsettings : CleanSettings c.settings) (y : Citation) :
    y ∈ cites [] (sceneHead c (!l'.meshes.isEmpty) ++ String.join codes).toList ↔
      y = .file ∧ l'.meshes.isEmpty = false ∨ ∃ v ∈ visits, y ∈ visited (c.repaired d) v := by
  obtain ⟨m, hm, hperm⟩ := cites_of_runs hr (Document.ImageFiles.repaired himages)
  rw [((cites_sceneHead hsettings _).append hm).toList_eq, List.mem_append, hperm.mem_iff,
    List.mem_flatMap]
  cases l'.meshes.isEmpty with
  | false => simp [assembling]
  | true => simp [assembling]

theorem isWord_meshIdent (v : Visit) : IsWord v.meshIdent :=
  fun _ => isIdentifierChar_of_mem_meshIdentifier

theorem contains_declaration_of_runs (hr : (assembling t c d).Runs [] (assembling t c d).rootSteps
      ⟨earlier, MeshFile.empty⟩ visits codes l') (hx : IsWord x) :
    contains l'.meshes.text ("#declare " ++ x ++ " =") = true ↔
      IsMesh (c.repaired d) visits x := by
  have hdeclared : ∀ y, l'.meshes.isDeclared y = true ↔ IsMesh (c.repaired d) visits y := by
    intro y
    rw [hr.isDeclared_iff meshDef_of_mem_rootSteps]
    simp [MeshFile.isDeclared_iff, MeshFile.empty, assembling, IsMesh]
  have hwords : ∀ b ∈ l'.meshes.blocks, IsWord b.ident := by
    intro b hb
    obtain ⟨v, _, _, hident⟩ := (hdeclared b.ident).mp (MeshFile.isDeclared_iff.mpr ⟨b, hb, rfl⟩)
    exact hident ▸ isWord_meshIdent v
  rw [contains_declaration_iff hx hwords, hdeclared]

/-- The references of a scene, its declarations and the include of the mesh file, by the visits of
its run. -/
theorem resolution_of_runs (hr : (assembling t c d).Runs [] (assembling t c d).rootSteps
      ⟨earlier, MeshFile.empty⟩ visits codes l')
    (himages : CleanImages d) (hsettings : CleanSettings c.settings) {a : Artifacts}
    (hscene : a.scene = sceneHead c (!l'.meshes.isEmpty) ++ String.join codes)
    (hmeshes : a.meshes = l'.meshes.text) :
    (∀ x, x ∈ meshReferences a.scene ↔
      IsMesh (c.repaired d) visits x ∨ meshEnding <:+ x.toList ∧ IsBase (c.repaired d) visits x) ∧
    (∀ x, IsWord x →
      (contains a.meshes ("#declare " ++ x ++ " =") = true ↔ IsMesh (c.repaired d) visits x)) ∧
    (contains a.scene "_mesh.inc\x22" = true ↔ a.meshes ≠ "") ∧
    ((meshesResolved a.scene a.meshes).passed = true ↔
      ∀ x, IsBase (c.repaired d) visits x → meshEnding <:+ x.toList →
        IsMesh (c.repaired d) visits x) := by
  have hreferences : ∀ x, x ∈ meshReferences a.scene ↔ IsMesh (c.repaired d) visits x ∨
      meshEnding <:+ x.toList ∧ IsBase (c.repaired d) visits x := by
    intro x
    rw [mem_meshReferences_iff, hscene, mem_cites_scene hr himages hsettings]
    simp only [reduceCtorEq, false_and, false_or, mesh_mem_visited_iff]
    constructor
    · rintro ⟨v, hv, href | ⟨hend, hident⟩⟩
      · exact .inl ⟨v, hv, href⟩
      · exact .inr ⟨hend, v, hv, hident⟩
    · rintro (⟨v, hv, href⟩ | ⟨hend, v, hv, hident⟩)
      · exact ⟨v, hv, .inl href⟩
      · exact ⟨v, hv, .inr ⟨hend, hident⟩⟩
  have hdeclarations : ∀ x, IsWord x →
      (contains a.meshes ("#declare " ++ x ++ " =") = true ↔ IsMesh (c.repaired d) visits x) :=
    fun x hx => hmeshes ▸ contains_declaration_of_runs hr hx
  have hincluded : contains a.scene "_mesh.inc\x22" = true ↔ a.meshes ≠ "" := by
    rw [contains_meshFile_iff, hscene, mem_cites_scene hr himages hsettings, hmeshes, Ne,
      MeshFile.text_eq_empty_iff]
    simp [file_not_mem_visited]
  refine ⟨hreferences, hdeclarations, hincluded, ?_⟩
  rw [passed_meshesResolved_iff, and_iff_left hincluded]
  constructor
  · intro hall x hbase hend
    have hx := (hreferences x).mpr (.inr ⟨hend, hbase⟩)
    exact (hdeclarations x (isWord_of_mem_meshReferences hx)).mp (hall x hx)
  · intro hall x hx
    refine (hdeclarations x (isWord_of_mem_meshReferences hx)).mpr ?_
    obtain hmesh | ⟨hend, hbase⟩ := (hreferences x).mp hx
    · exact hmesh
    · exact hall x hbase hend

theorem IsBase.exists_name (h : IsBase (c.repaired d) visits x) (hend : meshEnding <:+ x.toList) :
    ∃ id n, d.get? id = some n ∧ meshEnding <:+ (sanitize ("_" ++ n.name)).toList := by
  obtain ⟨v, _, hident⟩ := h
  obtain ⟨a, base, _, _, hbase, rfl⟩ := arrayIdent?_eq_some_iff.mp hident
  rw [c.get?_repaired_eq, Option.map_eq_some_iff] at hbase
  obtain ⟨n, hn, rfl⟩ := hbase
  rw [meshEnding_suffix_arrayIdentifier_iff, c.mend_name] at hend
  exact ⟨a.base, n, hn, hend⟩

end Assembly

/-- Every reference of a scene is one to a mesh, and then it is declared, or to the base of an array
whose identifier ends like that of a mesh. So the check passes exactly when all such bases share
their identifier with a mesh, and it passes when no node has a name that ends in this way. -/
theorem resolved_iff_of_assemble {t : Tessellator} {earlier requests : List Request} {c : Context}
    {d : Document} {a : Artifacts} (h : assemble t earlier c d = (.ok a, requests))
    (himages : CleanImages d) (hsettings : CleanSettings c.settings) :
    ∃ visits codes l', (assembling t c d).Runs [] (assembling t c d).rootSteps
        ⟨earlier, MeshFile.empty⟩ visits codes l' ∧
      (∀ x, x ∈ meshReferences a.scene ↔
        IsMesh (c.repaired d) visits x ∨ meshEnding <:+ x.toList ∧ IsBase (c.repaired d) visits x) ∧
      (∀ x, IsWord x →
        (contains a.meshes ("#declare " ++ x ++ " =") = true ↔ IsMesh (c.repaired d) visits x)) ∧
      (contains a.scene "_mesh.inc\x22" = true ↔ a.meshes ≠ "") ∧
      ((meshesResolved a.scene a.meshes).passed = true ↔
        ∀ x, IsBase (c.repaired d) visits x → meshEnding <:+ x.toList →
          IsMesh (c.repaired d) visits x) ∧
      ((∀ id n, d.get? id = some n → ¬meshEnding <:+ (sanitize ("_" ++ n.name)).toList) →
        (meshesResolved a.scene a.meshes).passed = true) := by
  obtain ⟨visits, codes, l', hr, hscene, hmeshes⟩ := runs_of_assemble h
  obtain ⟨hreferences, hdeclarations, hincluded, hpassed⟩ :=
    resolution_of_runs hr himages hsettings hscene hmeshes
  refine ⟨visits, codes, l', hr, hreferences, hdeclarations, hincluded, hpassed, fun hnames => ?_⟩
  refine hpassed.mpr fun x hbase hend => ?_
  obtain ⟨id, n, hn, hname⟩ := hbase.exists_name hend
  exact absurd hname (hnames id n hn)

theorem cleanSettings_standard : CleanSettings Settings.standard :=
  ⟨⟨by decide, by decide⟩, ⟨by decide, by decide⟩, fun _ hr => by cases hr⟩

/-- A grid of boxes beside a mesh: the mesh is found and the box is not taken for one. -/
theorem resolved_of_grid_and_part :
    let box := Node.ofKind "Box" (.box 1 1 1)
    let grid := Node.ofKind "Grid" (.array ⟨⟨1, 0⟩, .ortho default⟩)
    let part := Node.ofKind "Part" (.mesh .tetrahedron)
    let w := Workshop.standard [box, grid, part]
    ∃ a requests, assemble w.tessellator [] w.context w.document = (.ok a, requests) ∧
      meshReferences a.scene ≠ [] ∧ (meshesResolved a.scene a.meshes).passed = true := by
  intro box grid part w
  have hnodes : ∀ id n, w.document.get? id = some n → n = box ∨ n = grid ∨ n = part := by
    intro id n hn
    have hmem : n ∈ [box, grid, part] := Document.mem_of_get?_foldl_add hn
    simpa using hmem
  have himages : CleanImages w.document := .of_foldl_add (by simp [box, grid, part, Node.ofKind])
  have hroots : w.document.roots = [⟨1, 0⟩, ⟨2, 0⟩, ⟨3, 0⟩] :=
    Document.roots_of_parents_eq_nil (by decide)
  have hsteps : (assembling w.tessellator w.context w.document).rootSteps =
      [⟨⟨1, 0⟩, Flags.all⟩, ⟨⟨2, 0⟩, Flags.all⟩, ⟨⟨3, 0⟩, Flags.all⟩] := by
    rw [rootSteps_assembling, hroots]
    rfl
  have hrun : ∃ visits codes l', (assembling w.tessellator w.context w.document).Runs []
      [⟨⟨1, 0⟩, Flags.all⟩, ⟨⟨2, 0⟩, Flags.all⟩, ⟨⟨3, 0⟩, Flags.all⟩] ⟨[], MeshFile.empty⟩
      visits codes l' ∧
      l'.meshes.isEmpty = false :=
    ⟨_, _, _, .framed ⟨rfl, by simp, by decide⟩ rfl .done
      (.framed ⟨rfl, by simp, by decide⟩ rfl (.framed ⟨rfl, by decide, by decide⟩ rfl .done .done)
        (.meshed ⟨rfl, by simp, by decide⟩ rfl rfl .done)), rfl⟩
  rw [← hsteps] at hrun
  obtain ⟨visits, codes, l', hr, hsome⟩ := hrun
  obtain ⟨a, h⟩ := assemble_of_runs hr
  obtain ⟨_, _, _, hr', hreferences, _, _, _, hpassed⟩ :=
    resolved_iff_of_assemble h himages cleanSettings_standard
  refine ⟨a, _, h, fun hnone => ?_, hpassed fun id n hn => ?_⟩
  · rw [← (hr'.unique hr).2.2] at hsome
    refine absurd ((hr'.isEmpty_iff meshDef_of_mem_rootSteps).mpr fun v hv => ?_) (by simp [hsome])
    by_contra href
    have hmem := (hreferences v.meshIdent).mpr (.inl ⟨v, hv, Bool.of_not_eq_false href, rfl⟩)
    rw [hnone] at hmem
    cases hmem
  · rcases hnodes id n hn with rfl | rfl | rfl <;> decide

/-- A box whose name ends like a mesh and that is the base of an array is taken for a mesh. -/
theorem not_resolved_of_base :
    ¬∀ (t : Tessellator) (earlier requests : List Request) (c : Context) (d : Document)
        (a : Artifacts), assemble t earlier c d = (.ok a, requests) → CleanImages d →
      CleanSettings c.settings → (meshesResolved a.scene a.meshes).passed = true := by
  intro hall
  let box := { Node.ofKind "Box" (.box 1 1 1) with name := "mesh" }
  let grid := Node.ofKind "Grid" (.array ⟨⟨1, 0⟩, .ortho default⟩)
  let w := Workshop.standard [box, grid]
  have himages : CleanImages w.document := .of_foldl_add (by simp [box, grid, Node.ofKind])
  have hroots : w.document.roots = [⟨1, 0⟩, ⟨2, 0⟩] := Document.roots_of_parents_eq_nil (by decide)
  have hsteps : (assembling w.tessellator w.context w.document).rootSteps =
      [⟨⟨1, 0⟩, Flags.all⟩, ⟨⟨2, 0⟩, Flags.all⟩] := by
    rw [rootSteps_assembling, hroots]
    rfl
  have hrun : ∃ visits codes l', (assembling w.tessellator w.context w.document).Runs []
      [⟨⟨1, 0⟩, Flags.all⟩, ⟨⟨2, 0⟩, Flags.all⟩] ⟨[], MeshFile.empty⟩ visits codes l' ∧
      visits.map Visit.met = [(⟨1, 0⟩, box), (⟨2, 0⟩, grid), (⟨1, 0⟩, box)] :=
    ⟨_, _, _, .framed ⟨rfl, by simp, by decide⟩ rfl .done
      (.framed ⟨rfl, by simp, by decide⟩ rfl (.framed ⟨rfl, by decide, by decide⟩ rfl .done .done)
        .done), rfl⟩
  rw [← hsteps] at hrun
  obtain ⟨visits, codes, l', hr, hmet⟩ := hrun
  obtain ⟨a, h⟩ := assemble_of_runs hr
  obtain ⟨visits', codes', l'', hr', hscene, hmeshes⟩ := runs_of_assemble h
  obtain ⟨rfl, rfl, rfl⟩ := hr'.unique hr
  obtain ⟨_, _, _, hpassed⟩ := resolution_of_runs hr himages cleanSettings_standard hscene hmeshes
  have hbase : IsBase w.document visits' (Surroundings.arrayIdentifier box) := by
    have hmem : (⟨2, 0⟩, grid) ∈ visits'.map Visit.met := by simp [hmet]
    obtain ⟨v, hv, hvmet⟩ := List.mem_map.mp hmem
    refine ⟨v, hv, ?_⟩
    have hnode : v.node = grid := congrArg Prod.snd hvmet
    rw [hnode]
    exact arrayIdent?_eq_some_iff.mpr ⟨_, box, rfl, rfl, rfl, rfl⟩
  have hend := (meshEnding_suffix_arrayIdentifier_iff box).mpr (by decide)
  obtain ⟨v, hv, href, _⟩ :=
    hpassed.mp (hall _ _ _ _ _ a h himages cleanSettings_standard) _ hbase hend
  have hnone : ∀ m ∈ visits'.map Visit.met, w.document.isInexpressible m.1 m.2 = false := by
    rw [hmet]
    exact List.forall_mem_cons.mpr
      ⟨rfl, List.forall_mem_cons.mpr ⟨rfl, List.forall_mem_singleton.mpr rfl⟩⟩
  have hnot := hnone v.met (List.mem_map_of_mem hv)
  have hinexpressible : w.document.isInexpressible v.met.1 v.met.2 = true :=
    (Bool.and_eq_true_iff.mp href).1
  exact Bool.false_ne_true (hnot.symm.trans hinexpressible)

end RayScene.Citations
