import RayScene.Proofs.Compilation.Steps
import RayScene.Proofs.Sections.Lines
set_option autoImplicit false

namespace RayScene.Sections

open Sdl

structure Neat (frame : Frame) : Prop where
  before : Tidy frame.before
  after : Tidy frame.after
  bare : frame.indented = false → ∀ t ∈ frame.steps, t.flags.label = false

variable {s : Surroundings} {id : NodeId} {n : Node} {f : Flags} {frame : Frame}

theorem Neat.of_indented (hbefore : Tidy frame.before) (hafter : Tidy frame.after)
    (hindented : frame.indented = true) : Neat frame :=
  ⟨hbefore, hafter, fun hbare => absurd (hindented.symm.trans hbare) (by decide)⟩

theorem tidy_trailing (n : Node) (f : Flags) : Tidy ("\n" ++ s.trailing n f) :=
  .of_quiet (.append (.literal rfl) (quiet_trailing n f))

/-- What the file is called does not matter, because the whole map is indented. -/
theorem tidy_imagePlane (file : String) (x y : Float) : Tidy (imagePlane file x y) := by
  unfold imagePlane
  simp only [String.append_assoc]
  exact .append (.literal rfl) <| .append (.of_quiet (quiet_polygon x y)) <|
    .append (tidy_indent (head?_append_ne (by decide) _)) <| .append (.literal rfl) <|
    .append (.of_quiet (quiet_number _)) <| .append (.literal rfl) <|
    .append (.of_quiet (quiet_number _)) <| .literal rfl

theorem neat_simple {code : String} (hcode : Tidy code)
    (hp : s.simple n f code = .framed frame) : Neat frame := by
  cases hp
  exact .of_indented hcode (tidy_trailing n f) rfl

theorem neat_boolean {op : BooleanOp} (hp : s.boolean n f op = .framed frame) : Neat frame := by
  cases hp
  refine .of_indented ?_ (tidy_trailing n f) rfl
  cases op <;> exact .append (.append (.literal rfl) <| .literal rfl) <| .literal rfl

theorem neat_container (hp : s.container n f = .framed frame) : Neat frame := by
  cases hp
  exact .of_indented (.literal rfl) (tidy_trailing n { f with pigment := false }) rfl

theorem neat_loops {base : NodeId} {inner : Flags} {ident loop : String}
    (hloop : loop.toList.head? ≠ some '/')
    (hp : s.loops n f base inner ident loop = .framed frame) :
    Neat frame := by
  cases hp
  refine .of_indented ?_ ?_ rfl
  · simp only [String.append_assoc]
    exact .append (.literal rfl) <| tidy_indent (head?_append_ne (by decide) _)
  · dsimp only
    rw [String.append_assoc]
    exact (tidy_indent hloop).append <|
      tidy_trailing n { f with pigment := false, placement := false, photons := false }

theorem neat_array {a : NodeArray} (hp : s.array n f a = .framed frame) : Neat frame := by
  obtain ⟨_, base, loop, _, hloops, hloop⟩ := Surroundings.loops_of_array hp
  refine neat_loops ?_ hloops
  rcases hloop with ⟨p, _, rfl⟩ | ⟨o, _, rfl⟩
  · unfold Surroundings.polarLoop
    simp only [String.append_assoc]
    exact head?_append_ne (by decide) _
  · unfold Surroundings.orthoLoop
    simp only [String.append_assoc]
    exact head?_append_ne (by decide) _

theorem neat_clone {sources : List NodeId} {scale : Vec3}
    (hp : s.clone n f sources scale = .framed frame) : Neat frame := by
  cases hp
  refine ⟨.empty, ?_, fun _ t ht => ?_⟩
  · rw [String.append_assoc]
    exact .append (.ite (.append (.literal rfl) <| .of_quiet (quiet_triple _)) .empty) <|
      tidy_trailing n f
  · obtain ⟨_, _, rfl⟩ := List.mem_map.mp ht
    rfl

theorem head?_profileLines (p : Profile) : (profileLines p).toList.head? ≠ some '/' :=
  head?_append_ne (by decide) _

theorem neat_extrusion {e : Extrusion} (hp : s.extrusion n f e = .framed frame) : Neat frame := by
  obtain ⟨hs, sketch, p, hprofile⟩ := Surroundings.profile_of_extrusion hp
  simp only [Surroundings.extrusion, hs, hprofile, if_true] at hp
  refine neat_simple ?_ hp
  have hplace := quiet_placement s.document sketch "\t" (.literal rfl)
  simp only [String.append_assoc]
  exact .append (.literal rfl) <| .append (.of_quiet (quiet_prismHead _ _)) <|
    .append (tidy_indent (head?_profileLines p)) <| .append (.literal rfl) <| .of_quiet hplace

theorem neat_feature {p : Feature} {pocket : Bool} (hp : s.feature f p pocket = .framed frame) :
    Neat frame := by
  obtain ⟨hs, sketch, profile, hprofile⟩ := Surroundings.profile_of_feature hp
  simp only [Surroundings.feature, hs, hprofile, if_true] at hp
  cases hp
  have hplace := quiet_placement s.document sketch "\t\t" (.literal rfl)
  refine .of_indented (.ite (.literal rfl) <| .literal rfl) ?_ rfl
  simp only [String.append_assoc]
  exact .append (.literal rfl) <| .append (.of_quiet (quiet_prismHead _ _)) <|
    .append (tidy_shift (by simp) (by simp) (head?_profileLines profile)) <|
    .append (.literal rfl) <| .append (.ite (.of_quiet hplace) <| .literal rfl) <|
    .append (.literal rfl) <| .ite (.literal rfl) .empty

theorem neat_body {tip : Option NodeId} (hp : s.body id n f tip = .framed frame) : Neat frame := by
  obtain ⟨_, _, rfl⟩ := Surroundings.frame_of_body hp
  exact .of_indented (.literal rfl) (tidy_trailing n f) rfl

theorem neat_of_plan (hp : s.plan id n f = .framed frame) : Neat frame := by
  cases written_of_plan hp with
  | quiet hcode hp => exact neat_simple (.of_quiet hcode) hp
  | image hk hp => exact neat_simple (tidy_imagePlane _ _ _) hp
  | boolean hp => exact neat_boolean hp
  | container hp => exact neat_container hp
  | array hk hp => exact neat_array hp
  | clone hp => exact neat_clone hp
  | extrusion hp => exact neat_extrusion hp
  | feature hp => exact neat_feature hp
  | body hp => exact neat_body hp

end RayScene.Sections
