import RayScene.Proofs.Fragments.Quiet
import RayScene.Sdl.View
set_option autoImplicit false

namespace RayScene.Sdl

theorem quiet_projectionLines (c : Context) :
    Quiet (projectionLines c).up ∧ Quiet (projectionLines c).right ∧
      Quiet (projectionLines c).kind ∧ Quiet (projectionLines c).angle := by
  unfold projectionLines
  split
  · refine ⟨.literal rfl, ?_, .empty, ?_⟩
    · exact .append (.append (.literal rfl) <| quiet_fixed _ _) <| .literal rfl
    · exact .append (.append (.literal rfl) <| quiet_fixed _ _) <| .literal rfl
  · refine ⟨?_, ?_, .literal rfl, .empty⟩
    · exact .append (.append (.literal rfl) <| quiet_fixed _ _) <| .literal rfl
    · exact .append (.append (.literal rfl) <| quiet_fixed _ _) <| .literal rfl

theorem quiet_packedColor (word : UInt32) : Quiet (packedColor word) :=
  .append (.literal rfl) <| quiet_color _

theorem quiet_colorMap (v : Viewport) {first second third fourth : String} (h₁ : Quiet first)
    (h₂ : Quiet second) (h₃ : Quiet third) (h₄ : Quiet fourth) :
    Quiet (colorMap v first second third fourth) := by
  have hstop : ∀ position word, Quiet position →
      Quiet ("\t\t\t[ " ++ position ++ "  " ++ packedColor word ++ " ]\n") := by
    intro position word hposition
    exact .append (.append (.append (.append (.literal rfl) hposition) <| .literal rfl) <|
      quiet_packedColor word) <| .literal rfl
  unfold colorMap
  dsimp only
  exact .append (.append (.append (.append (.append (.append (.literal rfl) <|
    hstop _ _ h₁) <| hstop _ _ h₂) <| .ite (hstop _ _ <| .literal rfl) .empty) <|
    hstop _ _ h₃) <| hstop _ _ h₄) <| .literal rfl

theorem quiet_backdrop (c : Context) : Quiet (backdrop c) := by
  unfold backdrop
  dsimp only
  simp only [String.append_assoc]
  refine .append (.literal rfl) <| .append (quiet_pair _) <| .append (.literal rfl) <|
    .append (quiet_pair _) <| .append (.literal rfl) <| .append (quiet_pair _) <|
    .append (.literal rfl) <| .append (quiet_pair _) <| .append (.literal rfl) <|
    .append (quiet_pair _) <| .append (.literal rfl) <| .append ?_ <|
    .append (.literal rfl) <| .append (quiet_triple _) <| .append (.literal rfl) <|
    .append (quiet_triple _) <| .append (.literal rfl) <| .append (quiet_triple _) <| .literal rfl
  cases c.settings.view.style with
  | simple => exact .append (.literal rfl) <| .append (quiet_packedColor _) <| .literal rfl
  | gradient =>
    exact .append (.literal rfl) <|
      .append (quiet_colorMap _ (.literal rfl) (.literal rfl) (.literal rfl) (.literal rfl)) <|
      .append (.literal rfl) <| .append (quiet_number _) <| .append (.literal rfl) <|
      .append (quiet_number _) <| .literal rfl

theorem quiet_skySphere (c : Context) : Quiet (skySphere c) := by
  unfold skySphere
  refine .append (.append (.literal rfl) ?_) <| .literal rfl
  cases c.settings.view.style with
  | simple => exact .append (.append (.literal rfl) <| quiet_packedColor _) <| .literal rfl
  | gradient =>
    exact .append (.append (.append (.append (.literal rfl) <|
      quiet_colorMap _ (.literal rfl) (.literal rfl) (.literal rfl) (.literal rfl)) <|
      .literal rfl) <| quiet_triple _) <| .literal rfl

end RayScene.Sdl
