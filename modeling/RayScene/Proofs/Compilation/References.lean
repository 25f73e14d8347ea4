import RayScene.Proofs.Compilation.Run
import RayScene.Proofs.Text.Identifiers
import RayScene.Proofs.Text.Lines
/-!
References to meshes and their declarations. A run declares what its visits refer to and nothing
else, and what it declares comes behind the declarations that were there.
-/
set_option autoImplicit false

namespace RayScene.Sdl

def codeLines (code : String) : List String :=
  (Text.splitOn '\n' code.toList).map fun line => String.ofList (line.dropWhile (· = '\t'))

theorem sublist_codeLines {lines : List String} {code : String}
    (h : (lines.map String.toList).Sublist (Text.innerLines code.toList)) :
    lines.Sublist (codeLines code) := by
  have hinner : (Text.innerLines code.toList).Sublist
      ((Text.splitOn '\n' code.toList).map (·.dropWhile (· = '\t'))) :=
    ((List.dropLast_sublist _).trans (List.tail_sublist _)).map _
  have hlines := (h.trans hinner).map String.ofList
  simpa [codeLines, Function.comp_def] using hlines

theorem join_map_indent (codes : List String) :
    String.join (codes.map indent) = indent (String.join codes) := by
  apply String.toList_inj.mp
  simp [indent, shift, Text.substitute, List.flatMap_map, List.flatMap_assoc]

theorem join_of_indent {P : String → Prop} {codes : List String}
    (hindent : ∀ code, P code → P (indent code)) (h : P (String.join codes)) (b : Bool) :
    P (String.join (if b then codes.map indent else codes)) := by
  split
  · rw [join_map_indent]
    exact hindent _ h
  · exact h

theorem innerLines_sublist_frame (frame : Frame) (codes : List String) :
    (Text.innerLines (String.join codes).toList).Sublist
      (Text.innerLines (frame.code codes).toList) := by
  have hindent (code : String) :
      Text.innerLines (indent code).toList = Text.innerLines code.toList := by
    rw [indent, shift, String.toList_ofList]
    exact Text.innerLines_substitute (by simp) _
  have hsteps := join_of_indent
    (P := (Text.innerLines ·.toList = Text.innerLines (String.join codes).toList))
    (fun code h => (hindent code).trans h) rfl frame.indented
  unfold Frame.code
  rw [String.toList_append, String.toList_append]
  apply Text.sublist_innerLines_of_left
  apply Text.sublist_innerLines_of_right
  rw [hsteps]

namespace MeshFile

variable {f g h : MeshFile} {ident x : String} {owner : NodeId} {mesh : TriMesh}

def Extends (f g : MeshFile) : Prop := ∃ blocks, g.blocks = f.blocks ++ blocks

theorem Extends.refl (f : MeshFile) : f.Extends f := ⟨[], (List.append_nil _).symm⟩

theorem Extends.trans (hfg : f.Extends g) (hgh : g.Extends h) : f.Extends h := by
  obtain ⟨first, hfirst⟩ := hfg
  obtain ⟨second, hsecond⟩ := hgh
  exact ⟨first ++ second, by rw [hsecond, hfirst, List.append_assoc]⟩

theorem Extends.text (hfg : f.Extends g) :
    ∃ blocks, g.text = f.text ++ String.join (List.map MeshBlock.text blocks) := by
  obtain ⟨blocks, hb⟩ := hfg
  exact ⟨blocks, by simp only [MeshFile.text, hb, List.map_append, String.join_append]⟩

theorem extends_declare (f : MeshFile) (ident : String) (owner : NodeId) (mesh : TriMesh) :
    f.Extends (f.declare ident owner mesh) := by
  unfold declare
  split
  · exact Extends.refl f
  · exact ⟨_, rfl⟩

theorem isDeclared_iff : f.isDeclared x = true ↔ ∃ b ∈ f.blocks, b.ident = x := by
  simp [isDeclared, owner?, List.find?_isSome]

theorem isDeclared_declare :
    (f.declare ident owner mesh).isDeclared x = true ↔ f.isDeclared x = true ∨ ident = x := by
  unfold declare
  split
  · rename_i howner
    have hdecl : f.isDeclared ident = true := by simp [isDeclared, howner]
    constructor
    · exact .inl
    · rintro (hx | rfl)
      · exact hx
      · exact hdecl
  · simp only [isDeclared_iff, List.mem_append, List.mem_singleton]
    constructor
    · rintro ⟨b, hb | rfl, hx⟩
      · exact .inl ⟨b, hb, hx⟩
      · exact .inr hx
    · rintro (⟨b, hb, hx⟩ | hx)
      · exact ⟨b, .inl hb, hx⟩
      · exact ⟨_, .inr rfl, hx⟩

theorem isEmpty_iff : f.isEmpty = true ↔ ∀ x, f.isDeclared x = false := by
  obtain ⟨blocks⟩ := f
  cases blocks with
  | nil => simp [isEmpty, isDeclared, owner?]
  | cons b blocks =>
    have hb : isDeclared ⟨b :: blocks⟩ b.ident = true := isDeclared_iff.mpr ⟨b, by simp, rfl⟩
    constructor
    · intro hempty
      cases hempty
    · intro hnone
      rw [hnone] at hb
      cases hb

theorem meshText_ne_empty (ident : String) (mesh : TriMesh) : meshText ident mesh ≠ "" := by
  have hstart : ∃ rest, meshText ident mesh = "#declare " ++ rest := by
    unfold meshText
    simp only [String.append_assoc]
    exact ⟨_, rfl⟩
  obtain ⟨rest, hrest⟩ := hstart
  rw [hrest]
  intro h
  exact absurd (String.append_eq_empty_iff.mp h).1 (by decide)

theorem text_eq_empty_iff : f.text = "" ↔ f.isEmpty = true := by
  obtain ⟨blocks⟩ := f
  cases blocks with
  | nil => simp [isEmpty, text]
  | cons b blocks =>
    constructor
    · intro h
      unfold text at h
      rw [List.map_cons, String.join_cons] at h
      exact absurd (String.append_eq_empty_iff.mp h).1 (meshText_ne_empty b.ident b.mesh)
    · intro h
      cases h

end MeshFile

namespace Visit

/-- Whether a mesh stands for the node: nothing else can, and there is one. -/
def isReference (d : Document) (v : Visit) : Bool :=
  d.isInexpressible v.id v.node && !v.code.isEmpty

def meshIdent (v : Visit) : String := meshIdentifier v.node.label

def meshLine (v : Visit) : String := "object \x7b " ++ v.meshIdent

end Visit

namespace Workshop

variable {w : Workshop} {path : List NodeId} {id : NodeId} {n : Node} {f : Flags}
  {steps : List Step} {l l' : Ledger} {visits : List Visit} {codes : List String}

theorem meshReference_eq (n : Node) (f : Flags) : ∃ rest,
    w.meshReference n f = "\nobject \x7b " ++ meshIdentifier n.label ++ "\n" ++ rest := by
  unfold Surroundings.meshReference
  simp only [String.append_assoc]
  exact ⟨_, rfl⟩

theorem meshReference_ne_empty (n : Node) (f : Flags) : w.meshReference n f ≠ "" := by
  obtain ⟨rest, hrest⟩ := meshReference_eq (w := w) n f
  simp only [hrest, String.append_assoc]
  intro h
  exact absurd (String.append_eq_empty_iff.mp h).1 (by decide)

theorem newline_not_mem_meshLine (v : Visit) : '\n' ∉ v.meshLine.toList := by
  unfold Visit.meshLine
  rw [String.toList_append, List.mem_append]
  rintro (h | h)
  · exact absurd h (by decide)
  · exact absurd (isIdentifierChar_of_mem_meshIdentifier h) (by decide)

theorem dropWhile_meshLine (v : Visit) :
    v.meshLine.toList.dropWhile (· = '\t') = v.meshLine.toList := by
  unfold Visit.meshLine
  rw [String.toList_append]
  rfl

theorem meshLine_sublist_innerLines (v : Visit) (f : Flags) :
    [v.meshLine.toList].Sublist (Text.innerLines (w.meshReference v.node f).toList) := by
  obtain ⟨rest, hrest⟩ := meshReference_eq (w := w) v.node f
  obtain ⟨y, ys, hy⟩ := Text.exists_splitOn_eq_cons '\n' rest.toList
  have htext : (w.meshReference v.node f).toList =
      '\n' :: (v.meshLine.toList ++ '\n' :: rest.toList) := by
    unfold Visit.meshLine Visit.meshIdent
    simp only [hrest, String.toList_append, List.append_assoc]
    rfl
  have hsplit : Text.splitOn '\n' (w.meshReference v.node f).toList =
      [] :: (v.meshLine.toList ++ []) :: y :: ys := by
    rw [htext, Text.splitOn_cons_self, Text.splitOn_append_of_not_mem (newline_not_mem_meshLine v)
      (Text.splitOn_cons_self '\n' rest.toList), hy]
  unfold Text.innerLines
  rw [hsplit, List.append_nil, List.tail_cons, List.dropLast_cons_cons, List.map_cons,
    dropWhile_meshLine]
  simp

theorem isDeclared_of_tessellated {v : Visit} (hf : v.flags.meshDef = true)
    (hp : w.plan v.id v.node v.flags = .tessellated)
    (ht : (w.tessellated v.id v.node v.flags).run l = (v.code, l')) (x : String) :
    l'.meshes.isDeclared x = true ↔
      l.meshes.isDeclared x = true ∨ v.isReference w.document = true ∧ v.meshIdent = x := by
  have hi := Surroundings.plan_eq_tessellated_iff.mp hp
  obtain ⟨_, hcases⟩ := tessellated_cases hf ht
  rcases hcases with ⟨hcode, hmeshes⟩ | ⟨m, _, hcode, hmeshes⟩
  · simp [Visit.isReference, hcode, hmeshes]
  · have hne : v.code ≠ "" := hcode ▸ meshReference_ne_empty v.node v.flags
    rw [hmeshes, MeshFile.isDeclared_declare]
    simp [Visit.isReference, hi, hne, Visit.meshIdent]

theorem meshLine_of_tessellated {v : Visit} (hf : v.flags.meshDef = true)
    (ht : (w.tessellated v.id v.node v.flags).run l = (v.code, l')) :
    (([v].filter (·.isReference w.document)).map (·.meshLine.toList)).Sublist
      (Text.innerLines v.code.toList) := by
  obtain ⟨_, ⟨hcode, _⟩ | ⟨m, _, hcode, _⟩⟩ := tessellated_cases hf ht
  · simp [Visit.isReference, hcode]
  · rw [hcode]
    have hone : (([v].filter (·.isReference w.document)).map (·.meshLine.toList)).Sublist
        [v.meshLine.toList] := (List.filter_sublist ..).map _
    exact hone.trans (meshLine_sublist_innerLines v v.flags)

theorem extends_of_tessellated {code : String} (hf : f.meshDef = true)
    (ht : (w.tessellated id n f).run l = (code, l')) : l.meshes.Extends l'.meshes := by
  obtain ⟨_, ⟨_, hmeshes⟩ | ⟨m, _, _, hmeshes⟩⟩ := tessellated_cases hf ht
  · exact hmeshes ▸ .refl _
  · exact hmeshes ▸ MeshFile.extends_declare ..

theorem Runs.extends (h : w.Runs path steps l visits codes l')
    (hf : ∀ s ∈ steps, s.flags.meshDef = true) : l.meshes.Extends l'.meshes := by
  induction h with
  | done => exact .refl _
  | gone _ _ ih =>
    obtain ⟨_, hrest⟩ := List.forall_mem_cons.mp hf
    exact ih hrest
  | nothing _ _ _ ih =>
    obtain ⟨_, hrest⟩ := List.forall_mem_cons.mp hf
    exact ih hrest
  | meshed _ _ ht _ ih =>
    obtain ⟨hfirst, hrest⟩ := List.forall_mem_cons.mp hf
    exact (extends_of_tessellated hfirst ht).trans (ih hrest)
  | framed he hp _ _ ihin ih =>
    obtain ⟨hfirst, hrest⟩ := List.forall_mem_cons.mp hf
    have hinner := meshDef_of_mem_steps he.found hp hfirst
    exact (ihin hinner).trans (ih hrest)

theorem Fails.extends {e : CompileError} (h : w.Fails path steps l e l')
    (hf : ∀ s ∈ steps, s.flags.meshDef = true) : l.meshes.Extends l'.meshes := by
  induction h with
  | cycle _ _ => exact .refl _
  | tooDeep _ _ _ => exact .refl _
  | inside he hp _ ih =>
    obtain ⟨hfirst, _⟩ := List.forall_mem_cons.mp hf
    exact ih (meshDef_of_mem_steps he.found hp hfirst)
  | later hs _ ih =>
    obtain ⟨hfirst, hrest⟩ := List.forall_mem_cons.mp hf
    exact (hs.extends (List.forall_mem_singleton.mpr hfirst)).trans (ih hrest)

theorem Runs.isDeclared_iff (h : w.Runs path steps l visits codes l')
    (hf : ∀ s ∈ steps, s.flags.meshDef = true) (x : String) :
    l'.meshes.isDeclared x = true ↔ l.meshes.isDeclared x = true ∨
      ∃ v ∈ visits, v.isReference w.document = true ∧ v.meshIdent = x := by
  induction h with
  | done => simp
  | gone _ _ ih =>
    obtain ⟨_, hrest⟩ := List.forall_mem_cons.mp hf
    exact ih hrest
  | nothing he hp _ ih =>
    obtain ⟨_, hrest⟩ := List.forall_mem_cons.mp hf
    have hnot := Surroundings.isInexpressible_of_plan hp nofun
    rw [ih hrest]
    simp [Visit.isReference, hnot]
  | meshed he hp ht _ ih =>
    obtain ⟨hfirst, hrest⟩ := List.forall_mem_cons.mp hf
    have hone := isDeclared_of_tessellated (v := ⟨_, _, _, [], _⟩) hfirst hp ht x
    rw [ih hrest, hone]
    simp [or_assoc]
  | framed he hp _ _ ihin ih =>
    obtain ⟨hfirst, hrest⟩ := List.forall_mem_cons.mp hf
    have hnot := Surroundings.isInexpressible_of_plan hp nofun
    have hinner := meshDef_of_mem_steps he.found hp hfirst
    rw [ih hrest, ihin hinner]
    simp [Visit.isReference, hnot, or_assoc, or_and_right, exists_or]

/-- The references of a run are lines of its codes, in their order. -/
theorem Runs.meshLines (h : w.Runs path steps l visits codes l')
    (hf : ∀ s ∈ steps, s.flags.meshDef = true) :
    ((visits.filter (·.isReference w.document)).map (·.meshLine.toList)).Sublist
      (Text.innerLines (String.join codes).toList) := by
  induction h with
  | done => simp
  | gone _ _ ih =>
    obtain ⟨_, hrest⟩ := List.forall_mem_cons.mp hf
    simpa using ih hrest
  | nothing _ hp _ ih =>
    obtain ⟨_, hrest⟩ := List.forall_mem_cons.mp hf
    have hnot := Surroundings.isInexpressible_of_plan hp nofun
    simpa [Visit.isReference, hnot] using ih hrest
  | @meshed _ s _ n _ _ _ visits code codes _ hp ht _ ih =>
    obtain ⟨hfirst, hrest⟩ := List.forall_mem_cons.mp hf
    have hone := meshLine_of_tessellated (v := ⟨s.node, n, s.flags, [], code⟩) hfirst ht
    rw [← List.singleton_append, List.filter_append, List.map_append, String.join_cons,
      String.toList_append, String.toList_append]
    apply Text.sublist_innerLines_append _ (ih hrest)
    exact Text.sublist_innerLines_of_right _ hone
  | @framed _ s _ n frame _ _ _ within visits inner codes he hp _ _ ihin ih =>
    obtain ⟨hfirst, hrest⟩ := List.forall_mem_cons.mp hf
    have hinner := ihin (meshDef_of_mem_steps he.found hp hfirst)
    have hnot := Surroundings.isInexpressible_of_plan hp nofun
    rw [List.filter_cons_of_neg (by simp [Visit.isReference, hnot]), List.filter_append,
      List.map_append, String.join_cons, String.toList_append, String.toList_append]
    apply Text.sublist_innerLines_append _ (ih hrest)
    apply Text.sublist_innerLines_of_right
    exact hinner.trans (innerLines_sublist_frame frame inner)

end Workshop

end Sdl

open Sdl

theorem sceneHead_eq (c : Context) : ∃ before after, ∀ withMeshes, sceneHead c withMeshes =
    before ++ (if withMeshes then includeLine (c.paths.name .meshInclude) else "") ++ after := by
  have hassoc : ∀ s m a b c d e f g h i : String,
      s ++ m ++ a ++ b ++ c ++ d ++ e ++ f ++ g ++ h ++ i =
        s ++ m ++ (a ++ b ++ c ++ d ++ e ++ f ++ g ++ h ++ i) := by
    intros
    simp only [String.append_assoc]
  exact ⟨_, _, fun _ => hassoc ..⟩

theorem sceneHead_injective (c : Context) (codes : String) {a b : Bool}
    (h : sceneHead c a ++ codes = sceneHead c b ++ codes) : a = b := by
  obtain ⟨before, after, heq⟩ := sceneHead_eq c
  have hlen := congrArg String.length h
  have hline : (includeLine (c.paths.name .meshInclude)).length ≠ 0 := by
    unfold includeLine
    have hquote : 0 < "#include \"".length := by decide
    rw [String.length_append, String.length_append]
    omega
  simp only [heq, String.length_append] at hlen
  cases a with
  | false =>
    cases b with
    | false => rfl
    | true =>
      simp only [if_true, Bool.false_eq_true, if_false, String.length_empty] at hlen
      omega
  | true =>
    cases b with
    | false =>
      simp only [if_true, Bool.false_eq_true, if_false, String.length_empty] at hlen
      omega
    | true => rfl

namespace Sdl.Workshop

theorem Runs.isEmpty_iff {w : Workshop} {steps : List Step} {earlier : List Request} {l' : Ledger}
    {visits : List Visit} {codes : List String}
    (h : w.Runs [] steps ⟨earlier, MeshFile.empty⟩ visits codes l')
    (hf : ∀ s ∈ steps, s.flags.meshDef = true) :
    l'.meshes.isEmpty = true ↔ ∀ v ∈ visits, v.isReference w.document = false := by
  have hdecl : ∀ x, l'.meshes.isDeclared x = true ↔
      ∃ v ∈ visits, v.isReference w.document = true ∧ v.meshIdent = x := by
    intro x
    rw [h.isDeclared_iff hf x]
    simp [MeshFile.isDeclared_iff, MeshFile.empty]
  rw [MeshFile.isEmpty_iff]
  constructor
  · intro hnone v hv
    cases hr : v.isReference w.document with
    | false => rfl
    | true =>
      have hx := (hdecl v.meshIdent).mpr ⟨v, hv, hr, rfl⟩
      rw [hnone] at hx
      cases hx
  · intro hnone x
    cases hx : l'.meshes.isDeclared x with
    | false => rfl
    | true =>
      obtain ⟨v, hv, hr, _⟩ := (hdecl x).mp hx
      rw [hnone v hv] at hr
      cases hr

theorem extends_of_compile {w : Workshop} {id : NodeId} {f : Flags} {l l' : Ledger}
    {r : Except CompileError String} (hf : f.meshDef = true)
    (h : (w.compile id f).run.run l = (r, l')) : l.meshes.Extends l'.meshes := by
  have hsteps : ∀ s ∈ [(⟨id, f⟩ : Step)], s.flags.meshDef = true := by simpa using hf
  cases r with
  | ok code =>
    obtain ⟨visits, hr⟩ := compile_eq_ok_iff.mp h
    exact hr.extends hsteps
  | error e => exact (compile_eq_error_iff.mp h).extends hsteps

theorem meshDef_of_mem_rootSteps {w : Workshop} : ∀ s ∈ w.rootSteps, s.flags.meshDef = true := by
  intro s hs
  rw [flags_of_mem_rootSteps s hs]
  rfl

/-- Every reference to a mesh resolves, and nothing else is declared. Declarations are appended in
whole blocks, and there is a mesh file to include exactly when something refers to it. -/
theorem meshes_of_compile {w : Workshop} {id : NodeId} {f : Flags} {l : Ledger}
    (hf : f.meshDef = true) :
    (∀ code l', (w.compile id f).run.run l = (.ok code, l') →
      ∃ visits, w.Runs [] [⟨id, f⟩] l visits [code] l' ∧
        (∀ x, l'.meshes.isDeclared x = true ↔ l.meshes.isDeclared x = true ∨
          ∃ v ∈ visits, v.isReference w.document = true ∧ v.meshIdent = x) ∧
        ((visits.filter (·.isReference w.document)).map Visit.meshLine).Sublist
          (codeLines code)) ∧
    (∀ r l', (w.compile id f).run.run l = (r, l') →
      ∃ blocks, l'.meshes.text = l.meshes.text ++ String.join (List.map MeshBlock.text blocks)) ∧
    ∀ t earlier requests c d a, assemble t earlier c d = (.ok a, requests) →
      ∃ before after visits codes l',
        (∀ withMeshes, sceneHead c withMeshes = before ++
          (if withMeshes then includeLine (c.paths.name .meshInclude) else "") ++ after) ∧
        (assembling t c d).Runs [] (assembling t c d).rootSteps ⟨earlier, MeshFile.empty⟩
          visits codes l' ∧
        (a.meshes = "" ↔ ∀ v ∈ visits, v.isReference (c.repaired d) = false) ∧
        (a.scene = sceneHead c false ++ String.join codes ↔
          ∀ v ∈ visits, v.isReference (c.repaired d) = false) ∧
        (a.scene = sceneHead c true ++ String.join codes ↔
          ∃ v ∈ visits, v.isReference (c.repaired d) = true) := by
  have hsteps : ∀ s ∈ [(⟨id, f⟩ : Step)], s.flags.meshDef = true := by simpa using hf
  refine ⟨?_, fun r l' h => (extends_of_compile hf h).text, ?_⟩
  · intro code l' h
    obtain ⟨visits, hr⟩ := compile_eq_ok_iff.mp h
    have hlines := hr.meshLines hsteps
    refine ⟨visits, hr, hr.isDeclared_iff hsteps, sublist_codeLines ?_⟩
    simpa [Function.comp_def] using hlines
  · intro t earlier requests c d a h
    obtain ⟨before, after, hhead⟩ := sceneHead_eq c
    obtain ⟨visits, codes, l', hr, hscene, hmeshes⟩ := runs_of_assemble h
    have hempty := hr.isEmpty_iff meshDef_of_mem_rootSteps
    have hscene_iff : ∀ b, a.scene = sceneHead c b ++ String.join codes ↔
        l'.meshes.isEmpty = !b := by
      intro b
      rw [hscene]
      constructor
      · intro heq
        rw [← sceneHead_injective c _ heq, Bool.not_not]
      · intro hb
        rw [hb, Bool.not_not]
    refine ⟨before, after, visits, codes, l', hhead, hr, ?_, ?_, ?_⟩
    · rw [hmeshes, MeshFile.text_eq_empty_iff]
      exact hempty
    · rw [hscene_iff]
      exact hempty
    · rw [hscene_iff, Bool.not_true, ← Bool.not_eq_true, hempty]
      simp [assembling]

theorem native_mesh_is_referred_to :
    let w := Workshop.standard [Node.ofKind "Part" (.mesh .tetrahedron)]
    ∃ code l', (w.compile ⟨1, 0⟩ Flags.all).run.run Ledger.empty = (.ok code, l') ∧
      l'.meshes.isDeclared "Part_mesh" = true ∧ "object \x7b Part_mesh" ∈ codeLines code := by
  intro w
  have hrun : ∃ code l', (w.compile ⟨1, 0⟩ Flags.all).run.run Ledger.empty = (.ok code, l') ∧
      l'.meshes.isDeclared "Part_mesh" = true := ⟨_, _, rfl, by decide⟩
  obtain ⟨code, l', h, hdecl⟩ := hrun
  obtain ⟨hok, _⟩ := @meshes_of_compile w ⟨1, 0⟩ Flags.all Ledger.empty rfl
  obtain ⟨visits, _, hiff, hlines⟩ := hok code l' h
  obtain hbefore | ⟨v, hv, hr, hident⟩ := (hiff "Part_mesh").mp hdecl
  · exact absurd hbefore (by decide)
  · refine ⟨code, l', h, hdecl, hlines.mem ?_⟩
    have hmem := List.mem_map_of_mem (f := Visit.meshLine) (List.mem_filter.mpr ⟨hv, hr⟩)
    unfold Visit.meshLine at hmem
    rw [hident] at hmem
    exact hmem

end Sdl.Workshop

end RayScene
