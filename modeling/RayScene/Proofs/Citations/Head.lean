import RayScene.Export.Assembly
import RayScene.Proofs.Citations.Scan
import RayScene.Proofs.Fragments.Views
set_option autoImplicit false

namespace RayScene.Citations

open Sdl

/-- No setting that is written out as it is has a piece of a citation in it. -/
structure CleanSettings (s : Settings) : Prop where
  projectName : Clean s.projectName
  hdrPath : Clean s.environment.hdrPath
  preset : ∀ r, s.radiosity = some r → Clean r.preset

variable {c : Context}

theorem cites_includeLine {file : String} (h : Clean file) : Cites (includeLine file) [] := by
  unfold includeLine
  rw [String.append_assoc]
  exact .around (.of_isSilent rfl) rfl (by decide) (by decide) h (resumes_quote rfl)

theorem resumes_ending (f : OutputFile) :
    Resumes (f.ending ++ "\x22\n") (if f = .meshInclude then [.file] else []) := by
  cases f <;> constructor <;> intros <;> rw [String.toList_append] <;> rfl

theorem cites_includeOutput (h : Clean c.settings.projectName) (f : OutputFile) :
    Cites (includeLine (c.paths.name f)) (if f = .meshInclude then [.file] else []) := by
  unfold includeLine OutputPaths.name
  simp only [String.append_assoc]
  exact .around (.of_isSilent rfl) rfl (by decide) (by decide) h (resumes_ending f)

theorem cites_radiosityBlock {r : Radiosity} (h : Clean r.preset) :
    Cites (radiosityBlock r) [] := by
  have hend : Resumes ", off, off)\n\t\x7d\n\x7d\n" [] :=
    (Cites.of_isSilent rfl).resumes fun _ => rfl
  have hdefault : Cites (if r.ambientToZero then "#default \x7b finish\x7b ambient 0 \x7d \x7d\n"
      else "") [] :=
    .ite (.of_isSilent rfl) .empty
  unfold radiosityBlock
  simp only [String.append_assoc]
  exact .around (.of_isSilent rfl) rfl (by decide) (by decide) h (hend.append hdefault)

theorem cites_cameraBlock (c : Context) : Cites (cameraBlock c) [] := by
  obtain ⟨hup, hright, hkind, hangle⟩ := quiet_projectionLines c
  unfold cameraBlock
  dsimp only
  simp only [String.append_assoc]
  exact .skip (.of_isSilent rfl) <| .skip hup.silent <| .skip (.of_isSilent rfl) <|
    .skip hright.silent <| .skip (.of_isSilent rfl) <| .skip (quiet_triple _).silent <|
    .skip (.of_isSilent rfl) <| .skip (quiet_triple _).silent <| .skip (.of_isSilent rfl) <|
    .skip (.ite (.of_isSilent rfl) .empty) <| .skip (.of_isSilent rfl) <| .skip hkind.silent <|
    .skip (.of_isSilent rfl) <| .skip (.of_isSilent rfl) <| .skip hangle.silent <|
    .skip (.of_isSilent rfl) <| .ite (.of_isSilent rfl) .empty

theorem cites_imageSphere {e : Environment} (h : Clean e.hdrPath) : Cites (imageSphere e) [] := by
  have hbehind : Cites (triple e.rotation ++ ("\n\ttranslate " ++ (triple e.offset ++ "\n\x7d\n")))
      [] :=
    .skip (quiet_triple _).silent <| .skip (.of_isSilent rfl) <| .skip (quiet_triple _).silent <|
      .of_isSilent rfl
  unfold imageSphere
  simp only [String.append_assoc]
  exact .ite .empty <| .skip (.of_isSilent rfl) <|
    .around (.of_isSilent rfl) rfl (by decide) (by decide) h <| (resumes_quote rfl).append hbehind

theorem cites_background (h : Clean c.settings.environment.hdrPath) : Cites (background c) [] := by
  unfold background
  split
  · exact cites_imageSphere h
  · exact .skip (.ite (quiet_backdrop c).silent .empty) (quiet_skySphere c).silent

theorem cites_sceneHead (h : CleanSettings c.settings) (withMeshes : Bool) :
    Cites (sceneHead c withMeshes) (if withMeshes then [.file] else []) := by
  have hrule : Cites rule [] := .of_isSilent rfl
  have htextures : Cites (includeLine (c.paths.name .textureInclude)) [] :=
    cites_includeOutput h.projectName _
  have huser : Cites (includeLine (c.paths.name .userInclude)) [] :=
    cites_includeOutput h.projectName _
  have hmeshes : Cites (if withMeshes then includeLine (c.paths.name .meshInclude) else "")
      (if withMeshes then [.file] else []) := by
    cases withMeshes with
    | false => exact .empty
    | true => exact cites_includeOutput h.projectName _
  have hlight : Cites (if c.settings.exportLight then
      "\n// FreeCAD Light -------------------------------------\n" ++ headlight else "") [] :=
    .ite (.skip (.of_isSilent rfl) <| .of_isSilent rfl) .empty
  have hbackground : Cites (if c.settings.environment.enabled then
      "\n// Background ------------------------------\n" ++ background c else "") [] :=
    .ite (.skip (.of_isSilent rfl) <| cites_background h.hdrPath) .empty
  unfold sceneHead
  simp only [String.append_assoc]
  refine .skip (.of_isSilent rfl) <| .skip (.of_isSilent rfl) <| .skip (quiet_color _).silent <|
    .skip (.of_isSilent rfl) <| .skip hrule <| .skip (cites_includeLine ⟨by decide, by decide⟩) <|
    .skip (cites_includeLine ⟨by decide, by decide⟩) <| .skip ?_ <| .skip hrule <|
    .skip htextures <| .trail hmeshes <| .skip hrule <| .skip (.of_isSilent rfl) <|
    .skip (cites_cameraBlock c) <| .skip hlight <| .skip hbackground <| .skip hrule <|
    .skip (.of_isSilent rfl) <| .skip huser <| .of_isSilent rfl
  split
  · rename_i r hr
    exact cites_radiosityBlock (h.preset r hr)
  · exact .empty

end RayScene.Citations
