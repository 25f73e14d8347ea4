import RayScene.Proofs.Braces.Fragments
import RayScene.Export.Assembly
set_option autoImplicit false

namespace RayScene.Braces

open Sdl

structure BraceFreeSettings (s : Settings) : Prop where
  projectName : braceFree s.projectName.toList
  hdrPath : braceFree s.environment.hdrPath.toList
  preset : ∀ r, s.radiosity = some r → braceFree r.preset.toList

theorem braceFree_append {a b : String} (ha : braceFree a.toList) (hb : braceFree b.toList) :
    braceFree (a ++ b).toList := by
  simp [braceFree, ha.1, ha.2, hb.1, hb.2]

section Head

variable {c : Context}

theorem steady_includeLine {file : String} (h : braceFree file.toList) :
    Steady (includeLine file) := by
  intro d
  obtain ⟨m, hm⟩ := scan_of_braceFree h ⟨0, d⟩
  exact .append (.append (.literal rfl) hm) <| .literal rfl

theorem steady_includeOutput (h : BraceFreeSettings c.settings) (f : OutputFile) :
    Steady (includeLine (c.paths.name f)) := by
  apply steady_includeLine
  apply braceFree_append h.projectName
  cases f <;> exact ⟨by decide, by decide⟩

theorem steady_radiosityBlock {r : Radiosity} (h : braceFree r.preset.toList) :
    Steady (radiosityBlock r) := by
  intro d
  obtain ⟨m, hm⟩ := scan_of_braceFree h ⟨0, d + 1 + 1⟩
  unfold radiosityBlock
  exact .append (.append (.append (.literal rfl) hm) <| .literal rfl) <|
    .ite (.literal rfl) <| .empty _

theorem plain_projectionLines (c : Context) :
    Plain (projectionLines c).up ∧ Plain (projectionLines c).right ∧
      Steady (projectionLines c).kind ∧ Steady (projectionLines c).angle := by
  unfold projectionLines
  split
  · refine ⟨fun _ => .literal rfl, fun _ => ?_, fun _ => .empty _, fun _ => ?_⟩
    · exact .append (.append (.literal rfl) <| plain_fixed _ _ _) <| .literal rfl
    · exact .append (.append (.literal rfl) <| plain_fixed _ _ _) <| .literal rfl
  · refine ⟨fun _ => ?_, fun _ => ?_, fun _ => .literal rfl, fun _ => .empty _⟩
    · exact .append (.append (.literal rfl) <| plain_fixed _ _ _) <| .literal rfl
    · exact .append (.append (.literal rfl) <| plain_fixed _ _ _) <| .literal rfl

theorem steady_cameraBlock (c : Context) : Steady (cameraBlock c) := by
  intro d
  obtain ⟨hup, hright, hkind, hangle⟩ := plain_projectionLines c
  have hcamera : Tracks ⟨0, d⟩ ((if c.hasUserCamera then "/*" else "") ++ "camera \x7b\n")
      ⟨0, d + 1⟩ := by
    cases c.hasUserCamera with
    | true => exact .append (.literal rfl) <| .literal rfl
    | false => exact .append (.empty _) <| .literal rfl
  unfold cameraBlock
  dsimp only
  simp only [String.append_assoc]
  exact .append (.literal rfl) <| .append (hup _) <| .append (.literal rfl) <|
    .append (hright _) <| .append (.literal rfl) <| .append (plain_triple _ _) <|
    .append (.literal rfl) <| .append (plain_triple _ _) <| .append (.literal rfl) <|
    .append_append hcamera <| .append (hkind _) <| .append (.literal rfl) <|
    .append (.literal rfl) <| .append (hangle _) <| .append (.literal rfl) <|
    .ite (.literal rfl) <| .empty _

theorem plain_packedColor (word : UInt32) : Plain (packedColor word) :=
  fun p => .append (.literal rfl) <| plain_color _ p

theorem steady_colorMap (v : Viewport) {first second third fourth : String} (h₁ : Plain first)
    (h₂ : Plain second) (h₃ : Plain third) (h₄ : Plain fourth) :
    Steady (colorMap v first second third fourth) := by
  intro d
  have hstop : ∀ position word, Plain position →
      Steady ("\t\t\t[ " ++ position ++ "  " ++ packedColor word ++ " ]\n") := by
    intro position word hposition e
    exact .append (.append (.append (.append (.literal rfl) <| hposition _) <| .literal rfl) <|
      plain_packedColor word _) <| .literal rfl
  unfold colorMap
  dsimp only
  exact .append (.append (.append (.append (.append (.append (.literal rfl) <|
    hstop _ _ h₁ _) <| hstop _ _ h₂ _) <| .ite (hstop _ _ (fun _ => .literal rfl) _) <|
    .empty _) <| hstop _ _ h₃ _) <| hstop _ _ h₄ _) <| .literal rfl

theorem steady_backdrop (c : Context) : Steady (backdrop c) := by
  intro d
  unfold backdrop
  dsimp only
  simp only [String.append_assoc]
  refine .append (.literal rfl) <| .append (plain_pair _ _) <| .append (.literal rfl) <|
    .append (plain_pair _ _) <| .append (.literal rfl) <| .append (plain_pair _ _) <|
    .append (.literal rfl) <| .append (plain_pair _ _) <| .append (.literal rfl) <|
    .append (plain_pair _ _) <| .append (.literal rfl) <| .append (q := ⟨0, d + 1⟩) ?_ <|
    .append (.literal rfl) <| .append (plain_triple _ _) <| .append (.literal rfl) <|
    .append (plain_triple _ _) <| .append (.literal rfl) <| .append (plain_triple _ _) <|
    .literal rfl
  cases c.settings.view.style with
  | simple => exact .append (.literal rfl) <| .append (plain_packedColor _ _) <| .literal rfl
  | gradient =>
    exact .append (.literal rfl) <|
      .append (steady_colorMap _ (fun _ => .literal rfl) (fun _ => .literal rfl)
        (fun _ => .literal rfl) (fun _ => .literal rfl) _) <| .append (.literal rfl) <|
      .append (plain_number _ _) <| .append (.literal rfl) <| .append (plain_number _ _) <|
      .literal rfl

theorem steady_skySphere (c : Context) : Steady (skySphere c) := by
  intro d
  unfold skySphere
  refine .append (q := ⟨0, d + 1 + 1⟩) (.append (.literal rfl) ?_) <| .literal rfl
  cases c.settings.view.style with
  | simple =>
    exact .append (.append (.literal rfl) <| plain_packedColor _ _) <| .literal rfl
  | gradient =>
    exact .append (.append (.append (.append (.literal rfl) <|
      steady_colorMap _ (fun _ => .literal rfl) (fun _ => .literal rfl)
        (fun _ => .literal rfl) (fun _ => .literal rfl) _) <| .literal rfl) <|
      plain_triple _ _) <| .literal rfl

theorem steady_imageSphere {e : Environment} (h : braceFree e.hdrPath.toList) :
    Steady (imageSphere e) := by
  intro d
  obtain ⟨m, hm⟩ := scan_of_braceFree h ⟨0, d + 1 + 1 + 1⟩
  unfold imageSphere
  simp only [String.append_assoc]
  exact .ite (.empty _) <| .append (.literal rfl) <| .append (.literal rfl) <| .append hm <|
    .append (.literal rfl) <| .append (plain_triple _ _) <| .append (.literal rfl) <|
    .append (plain_triple _ _) <| .literal rfl

theorem steady_background (h : braceFree c.settings.environment.hdrPath.toList) :
    Steady (background c) := by
  intro d
  unfold background
  split
  · exact steady_imageSphere h d
  · exact .append (.ite (steady_backdrop c d) <| .empty _) <| steady_skySphere c d

theorem steady_sceneHead (h : BraceFreeSettings c.settings) (withMeshes : Bool) :
    Steady (sceneHead c withMeshes) := by
  intro d
  have hinclude := fun f => steady_includeOutput h f d
  have hrule : Steady rule := fun _ => .literal rfl
  have hheadlight : Steady headlight := fun _ => .literal rfl
  have hcolors : Steady (includeLine "colors.inc") :=
    steady_includeLine ⟨by decide, by decide⟩
  have htextures : Steady (includeLine "textures.inc") :=
    steady_includeLine ⟨by decide, by decide⟩
  unfold sceneHead
  simp only [String.append_assoc]
  refine .append (.literal rfl) <| .append (.literal rfl) <| .append (plain_color _ _) <|
    .append (.literal rfl) <| .append (hrule _) <| .append (hcolors _) <|
    .append (htextures _) <| .append (q := ⟨0, d⟩) ?_ <| .append (hrule _) <|
    .append (hinclude _) <| .append (.ite (hinclude _) <| .empty _) <| .append (hrule _) <|
    .append (.literal rfl) <| .append (steady_cameraBlock c _) <|
    .append (.ite (.append (.literal rfl) <| hheadlight _) <| .empty _) <|
    .append (.ite (.append (.literal rfl) <| steady_background h.hdrPath _) <| .empty _) <|
    .append (hrule _) <| .append (.literal rfl) <| .append (hinclude _) <| .literal rfl
  split
  · rename_i r hr
    exact steady_radiosityBlock (h.preset r hr) d
  · exact .empty _

end Head

end RayScene.Braces
