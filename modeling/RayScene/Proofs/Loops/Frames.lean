import RayScene.Export.Assembly
import RayScene.Proofs.Fragments.Frames
import RayScene.Proofs.Fragments.Views
import RayScene.Proofs.Loops.Marks
set_option autoImplicit false

namespace RayScene.Loops

open Sdl

def arrayWord (d : Document) (a : NodeArray) : List Bool :=
  if d.hasLoops a then
    match a.layout with
    | .polar _ => [true, false]
    | .ortho _ => [true, true, true, false, false, false]
    | .other _ => []
  else []

def word (d : Document) (n : Node) : List Bool :=
  match n.kind with
  | .array a => arrayWord d a
  | _ => []

theorem word_of_not_array (d : Document) {n : Node} (h : ∀ a, n.kind ≠ .array a) :
    word d n = [] := by
  unfold word
  split
  · rename_i a ha
    exact absurd ha (h a)
  · rfl

section Loops

variable {s : Surroundings} {n : Node} {f : Flags} {ident : String}

theorem marks_polarLoop (hident : Quiet ident) (p : PolarLayout) :
    Marks (s.polarLoop n f ident p) [true, false] := by
  have htabs : Quiet "\t\t" := .literal rfl
  have hrotation := quiet_clauseLine htabs (quiet_rotation s.document n)
  have hdisplacement := quiet_clauseLine htabs (quiet_displacement n)
  unfold Surroundings.polarLoop
  dsimp only
  simp only [String.append_assoc]
  exact .skip (.literal fun _ => rfl) <| .skip (.of_quiet (quiet_natural _)) <|
    .skip (.literal fun _ => rfl) <| .skip (.of_quiet (quiet_triple _)) <|
    .skip (.literal fun _ => rfl) <| .skip (.of_quiet (quiet_number _)) <|
    .append (l := [true]) (.literal fun _ => rfl) <| .skip (.of_quiet hident) <|
    .skip (.literal fun _ => rfl) <|
    .skip (.of_quiet (.ite (.append (.literal rfl) <| .append (quiet_triple _) <| .literal rfl)
      .empty)) <|
    .skip (.literal fun _ => rfl) <| .skip (.literal fun _ => rfl) <|
    .skip (.literal fun _ => rfl) <| .skip (.literal fun _ => rfl) <|
    .skip (.literal fun _ => rfl) <| .skip (.literal fun _ => rfl) <|
    .skip (.literal fun _ => rfl) <|
    .skip (.of_quiet (.ite (.append (.literal rfl) <| .append (quiet_triple _) <| .literal rfl)
      .empty)) <|
    .skip (.of_quiet (.ite hrotation .empty)) <|
    .skip (.of_quiet (.ite (.append (.literal rfl) <| .append (quiet_triple _) <| .literal rfl)
      .empty)) <|
    .skip (.of_quiet (.ite hdisplacement .empty)) <| .skip (.of_quiet (quiet_copyClauses n f)) <|
    .literal fun _ => rfl

theorem marks_orthoLoop (hident : Quiet ident) (o : OrthoLayout) :
    Marks (s.orthoLoop n f ident o) [true, true, true, false, false, false] := by
  have hplace := quiet_placement s.document n "\t\t\t\t" (.literal rfl)
  unfold Surroundings.orthoLoop
  simp only [String.append_assoc] at hplace ⊢
  exact .skip (.literal fun _ => rfl) <| .skip (.of_quiet (quiet_triple _)) <|
    .skip (.literal fun _ => rfl) <| .skip (.of_quiet (quiet_triple _)) <|
    .skip (.literal fun _ => rfl) <| .skip (.of_quiet (quiet_triple _)) <|
    .skip (.literal fun _ => rfl) <| .skip (.of_quiet (quiet_natural _)) <|
    .append (l := [true]) (.literal fun _ => rfl) <| .skip (.of_quiet (quiet_natural _)) <|
    .append (l := [true]) (.literal fun _ => rfl) <| .skip (.of_quiet (quiet_natural _)) <|
    .append (l := [true]) (.literal fun _ => rfl) <| .skip (.of_quiet hident) <|
    .skip (.literal fun _ => rfl) <| .skip (.literal fun _ => rfl) <|
    .skip (.of_quiet (.ite hplace .empty)) <| .skip (.of_quiet (quiet_copyClauses n f)) <|
    .append (l := [false, false]) (.literal fun _ => rfl) <| .literal fun _ => rfl

end Loops

structure Directs (frame : Frame) (l : List Bool) : Prop where
  before : Marks frame.before []
  after : Marks frame.after l

section Frames

variable {s : Surroundings} {id : NodeId} {n : Node} {f : Flags} {frame : Frame}

theorem marks_trailing (n : Node) (f : Flags) : Marks ("\n" ++ s.trailing n f) [] :=
  .skip (.literal fun _ => rfl) <| .of_quiet (quiet_trailing n f)

theorem directs_loops {base : NodeId} {inner : Flags} {ident loop : String} {l : List Bool}
    (hident : Quiet ident) (hloop : Marks loop l)
    (hp : s.loops n f base inner ident loop = .framed frame) : Directs frame l := by
  cases hp
  refine ⟨?_, ?_⟩
  · have hdeclare : Marks ("\n#declare " ++ ident ++ " = ") [] :=
      .skip (.skip (.literal fun _ => rfl) <| .of_quiet hident) <| .literal fun _ => rfl
    exact .skip (.literal fun _ => rfl) hdeclare.indent
  · intro b
    have hrest := marks_trailing (s := s) n
      { f with pigment := false, placement := false, photons := false }
    rw [String.append_assoc]
    simpa using (hloop.indent.append hrest) b

theorem directs_array {a : NodeArray} (hp : s.array n f a = .framed frame) :
    Directs frame (arrayWord s.document a) := by
  obtain ⟨hl, base, loop, _, hloops, hloop⟩ := Surroundings.loops_of_array hp
  have hident : Quiet (Surroundings.arrayIdentifier base) := quiet_sanitize _
  unfold arrayWord
  rw [if_pos hl]
  rcases hloop with ⟨p, hlayout, rfl⟩ | ⟨o, hlayout, rfl⟩
  · rw [hlayout]
    exact directs_loops hident (marks_polarLoop hident p) hloops
  · rw [hlayout]
    exact directs_loops hident (marks_orthoLoop hident o) hloops

theorem directs_of_plan (hp : s.plan id n f = .framed frame)
    (himage : ∀ file x y, n.kind = .imagePlane file x y → '#' ∉ file.toList) :
    Directs frame (word s.document n) := by
  by_cases hk : ∃ a, n.kind = .array a
  · obtain ⟨a, hk⟩ := hk
    have hword : word s.document n = arrayWord s.document a := by
      simp only [word, hk]
    rw [hword]
    exact directs_array ((Surroundings.plan_of_array id f hk).symm.trans hp)
  · have harray : ∀ a, n.kind ≠ .array a := fun a ha => hk ⟨a, ha⟩
    have hframe := inert_of_plan hp harray himage
    rw [word_of_not_array s.document harray]
    exact ⟨.of_not_mem hframe.before, .of_not_mem hframe.after⟩

theorem marks_marker (n : Node) (f : Flags) : Marks (marker n f) [] :=
  .of_not_mem (hashFree_marker n f)

end Frames

/-- No setting that is written out as it is has the sign of a directive in it. -/
structure HashFreeSettings (s : Settings) : Prop where
  projectName : '#' ∉ s.projectName.toList
  hdrPath : '#' ∉ s.environment.hdrPath.toList
  preset : ∀ r, s.radiosity = some r → '#' ∉ r.preset.toList

section Head

variable {c : Context}

theorem marks_includeLine {file : String} (h : '#' ∉ file.toList) : Marks (includeLine file) [] :=
  .skip (.skip (.literal fun _ => rfl) <| .of_not_mem h) <| .literal fun _ => rfl

theorem marks_includeOutput (h : '#' ∉ c.settings.projectName.toList) (f : OutputFile) :
    Marks (includeLine (c.paths.name f)) [] := by
  apply marks_includeLine
  have hending : '#' ∉ f.ending.toList := by cases f <;> decide
  intro hmem
  rw [OutputPaths.name, String.toList_append, List.mem_append] at hmem
  exact hmem.elim h hending

theorem marks_radiosityBlock {r : Radiosity} (h : '#' ∉ r.preset.toList) :
    Marks (radiosityBlock r) [] :=
  .skip (.skip (.skip (.literal fun _ => rfl) <| .of_not_mem h) <| .literal fun _ => rfl) <|
    .ite (.literal fun _ => rfl) <| .literal fun _ => rfl

theorem marks_cameraBlock (c : Context) : Marks (cameraBlock c) [] := by
  obtain ⟨hup, hright, hkind, hangle⟩ := quiet_projectionLines c
  unfold cameraBlock
  dsimp only
  simp only [String.append_assoc]
  exact .skip (.literal fun _ => rfl) <| .skip (.of_quiet hup) <| .skip (.literal fun _ => rfl) <|
    .skip (.of_quiet hright) <| .skip (.literal fun _ => rfl) <|
    .skip (.of_quiet (quiet_triple _)) <| .skip (.literal fun _ => rfl) <|
    .skip (.of_quiet (quiet_triple _)) <| .skip (.literal fun _ => rfl) <|
    .skip (.ite (.literal fun _ => rfl) <| .literal fun _ => rfl) <|
    .skip (.literal fun _ => rfl) <| .skip (.of_quiet hkind) <| .skip (.literal fun _ => rfl) <|
    .skip (.literal fun _ => rfl) <| .skip (.of_quiet hangle) <| .skip (.literal fun _ => rfl) <|
    .ite (.literal fun _ => rfl) <| .literal fun _ => rfl

theorem marks_imageSphere {e : Environment} (h : '#' ∉ e.hdrPath.toList) :
    Marks (imageSphere e) [] := by
  unfold imageSphere
  simp only [String.append_assoc]
  exact .ite (.literal fun _ => rfl) <| .skip (.literal fun _ => rfl) <|
    .skip (.literal fun _ => rfl) <| .skip (.of_not_mem h) <| .skip (.literal fun _ => rfl) <|
    .skip (.of_quiet (quiet_triple _)) <| .skip (.literal fun _ => rfl) <|
    .skip (.of_quiet (quiet_triple _)) <| .literal fun _ => rfl

theorem marks_background (h : '#' ∉ c.settings.environment.hdrPath.toList) :
    Marks (background c) [] := by
  unfold background
  split
  · exact marks_imageSphere h
  · exact .of_quiet (.append (.ite (quiet_backdrop c) .empty) <| quiet_skySphere c)

theorem marks_sceneHead (h : HashFreeSettings c.settings) (withMeshes : Bool) :
    Marks (sceneHead c withMeshes) [] := by
  have hinclude := marks_includeOutput h.projectName
  have hrule : Marks rule [] := .literal fun _ => rfl
  unfold sceneHead
  simp only [String.append_assoc]
  refine .skip (.literal fun _ => rfl) <| .skip (.literal fun _ => rfl) <|
    .skip (.of_quiet (quiet_color _)) <| .skip (.literal fun _ => rfl) <| .skip hrule <|
    .skip (marks_includeLine (by decide)) <| .skip (marks_includeLine (by decide)) <|
    .skip ?_ <| .skip hrule <| .skip (hinclude _) <|
    .skip (.ite (hinclude _) <| .literal fun _ => rfl) <| .skip hrule <|
    .skip (.literal fun _ => rfl) <| .skip (marks_cameraBlock c) <|
    .skip (.ite (.skip (.literal fun _ => rfl) <| .literal fun _ => rfl) <|
      .literal fun _ => rfl) <|
    .skip (.ite (.skip (.literal fun _ => rfl) <| marks_background h.hdrPath) <|
      .literal fun _ => rfl) <| .skip hrule <| .skip (.literal fun _ => rfl) <|
    .skip (hinclude _) <| .literal fun _ => rfl
  split
  · rename_i r hr
    exact marks_radiosityBlock (h.preset r hr)
  · exact .literal fun _ => rfl

end Head

end RayScene.Loops
