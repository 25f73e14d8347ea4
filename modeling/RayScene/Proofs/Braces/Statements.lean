import RayScene.Proofs.Braces.Fragments
import RayScene.Proofs.Compilation.Steps
import RayScene.Proofs.Text.Search
set_option autoImplicit false

namespace RayScene.Braces

open Sdl

section Shapes

theorem tracks_polygon (l w : Float) (d : Nat) : Tracks ⟨0, d⟩ (polygon l w) ⟨0, d + 1⟩ := by
  have hl := plain_number l
  have hw := plain_number w
  unfold polygon
  simp only [String.append_assoc]
  exact .append (.literal rfl) <| .append (hl _) <| .append (.literal rfl) <| .append (hl _) <|
    .append (.literal rfl) <| .append (hw _) <| .append (.literal rfl) <| .append (hw _) <|
    .literal rfl

theorem braceFree_imageFormat {file : String} (h : braceFree file.toList) :
    braceFree (imageFormat file).toList :=
  ⟨not_mem_imageFormat rfl h.1, not_mem_imageFormat rfl h.2⟩

/-- The name of the file is the only text of a statement that is not its own. -/
theorem opens_imagePlane {file : String} (h : braceFree file.toList) (x y : Float) :
    Opens (imagePlane file x y) := by
  intro k d
  obtain ⟨i, hformat⟩ := scan_of_braceFree (braceFree_imageFormat h) ⟨0, d + 1 + 1 + 1⟩
  obtain ⟨j, hfile⟩ := scan_of_braceFree h ⟨i, d + 1 + 1 + 1⟩
  have hmap : Tracks ⟨0, d + 1⟩ ("\npigment \x7b\n\timage_map \x7b\n\t\t" ++ imageFormat file ++
      " \"" ++ file ++ "\"\n\t\tmap_type 0\n\t\x7d\n\tscale <" ++ number x ++ ", " ++ number y ++
      ", 1>\n\x7d\n") ⟨0, d + 1⟩ := by
    simp only [String.append_assoc]
    exact .append (.literal rfl) <| .append hformat <| .append (.literal rfl) <|
      .append hfile <| .append (.literal rfl) <| .append (plain_number x _) <|
      .append (.literal rfl) <| .append (plain_number y _) <| .literal rfl
  unfold imagePlane
  dsimp only
  exact .append (.append (.append (.append (.append (.append (.append (.literal rfl) <|
    tracks_polygon x y d) hmap.indent) <| .literal rfl) <| plain_number _ _) <| .literal rfl) <|
    plain_number _ _) <| .literal rfl

theorem opens_primitive {k : Kind} {code : String} (h : primitive? k = some code)
    (himage : ∀ file x y, k = .imagePlane file x y → braceFree file.toList) : Opens code := by
  intro i d
  cases k with
  | box l w h' =>
    cases h
    exact .append (.literal rfl) <| plain_triple _ _
  | sphere r =>
    cases h
    exact .append (.literal rfl) <| plain_number _ _
  | ellipsoid r1 r2 r3 =>
    cases h
    exact .append (.literal rfl) <| plain_triple _ _
  | cone r1 r2 h' =>
    cases h
    exact .append (.append (.append (.append (.append (.literal rfl) <| plain_number _ _) <|
      .literal rfl) <| plain_number _ _) <| .literal rfl) <| plain_number _ _
  | cylinder r h' =>
    cases h
    exact .append (.append (.append (.literal rfl) <| plain_number _ _) <| .literal rfl) <|
      plain_number _ _
  | torus r1 r2 =>
    cases h
    exact .append (.append (.append (.literal rfl) <| plain_number _ _) <| .literal rfl) <|
      plain_number _ _
  | plane l w =>
    cases h
    exact .append (.literal rfl) <| tracks_polygon l w d
  | imagePlane file x y =>
    cases h
    exact opens_imagePlane (himage file x y rfl) x y i d
  | _ => cases h

theorem opens_lightSource (l : Light) {lines : String} (h : Steady lines) :
    Opens (lightSource l lines) := by
  intro k d
  unfold lightSource
  exact .append (.append (.append (.literal rfl) <| plain_triple _ _) <| h _) <|
    .ite (.append (.append (.append (.literal rfl) <| plain_number _ _) <| .literal rfl) <|
      plain_number _ _) <| .empty _

theorem steady_areaLines (a : AreaLight) : Steady (areaLines a) := by
  intro d
  unfold areaLines
  simp only [String.append_assoc]
  exact .append (.literal rfl) <| .append (plain_number _ _) <| .append (.literal rfl) <|
    .append (plain_number _ _) <| .append (.literal rfl) <| .append (plain_natural _ _) <|
    .append (.literal rfl) <| .append (plain_natural _ _) <| .append (.literal rfl) <|
    .append (plain_natural _ _) <| .append (.ite (.literal rfl) <| .empty _) <|
    .ite (.literal rfl) <| .empty _

theorem steady_spotLines (s : SpotLight) : Steady (spotLines s) := by
  intro d
  unfold spotLines
  simp only [String.append_assoc]
  exact .append (.literal rfl) <| .append (plain_number _ _) <| .append (.literal rfl) <|
    .append (plain_number _ _) <| .append (.literal rfl) <| plain_number _ _

end Shapes

section Prisms

theorem plain_prismHead (span : Float × Float) (p : Profile) : Plain (prismHead span p) := by
  intro q
  unfold prismHead
  exact .append (.append (.append (.append (plain_number _ q) <| .literal rfl) <|
    plain_number _ _) <| .literal rfl) <| plain_natural _ _

theorem plain_curveName (k : CurveKind) : Plain (curveName k) := by
  intro p
  cases k with
  | line => exact .literal rfl
  | circle => exact .literal rfl
  | arc => exact .literal rfl

theorem steady_cubicLine (c : Cubic) : Steady (cubicLine c) := by
  intro d
  have hpoints : Plain (String.intercalate ", " (c.points.map pair)) := by
    apply plain_intercalate (fun _ => .literal rfl)
    intro s hs
    obtain ⟨v, _, rfl⟩ := List.mem_map.mp hs
    exact plain_pair v
  unfold cubicLine
  exact .append (.append (.append (hpoints _) <| .literal rfl) <| plain_curveName _ _) <|
    .literal rfl

theorem steady_profileLines (p : Profile) : Steady (profileLines p) := by
  have hlines : Steady (String.join (p.cubics.map cubicLine)) := by
    apply steady_join
    intro s hs
    obtain ⟨c, _, rfl⟩ := List.mem_map.mp hs
    exact steady_cubicLine c
  exact fun d => .append (.literal rfl) <| hlines d

end Prisms

section Loops

variable {s : Surroundings} {n : Node} {f : Flags} {ident : String}

theorem steady_copyClauses (n : Node) (f : Flags) : Steady (s.copyClauses n f) := by
  intro d
  have htab : Plain "\t" := fun _ => .literal rfl
  unfold Surroundings.copyClauses
  exact .append (.ite (steady_clauseLine htab (steady_material s.context n) d) <| .empty _) <|
    .ite (steady_clauseLine htab (steady_photons s.context n) d) <| .empty _

theorem tracks_polarLoop (hident : Plain ident) (p : PolarLayout) (k d : Nat) :
    Tracks ⟨k, d⟩ (s.polarLoop n f ident p) ⟨0, d⟩ := by
  have htabs : Plain "\t\t" := fun _ => .literal rfl
  have hrotation := steady_clauseLine htabs (plain_rotation s.document n).steady
  have hdisplacement := steady_clauseLine htabs (plain_displacement n).steady
  unfold Surroundings.polarLoop
  dsimp only
  simp only [String.append_assoc]
  exact .append (.literal rfl) <| .append (plain_natural _ _) <| .append (.literal rfl) <|
    .append (plain_triple _ _) <| .append (.literal rfl) <| .append (plain_number _ _) <|
    .append (.literal rfl) <| .append (hident _) <| .append (.literal rfl) <|
    .append (.ite (.append (.literal rfl) <| .append (plain_triple _ _) <| .literal rfl) <|
      .empty _) <| .append (.literal rfl) <| .append (.literal rfl) <| .append (.literal rfl) <|
    .append (.literal rfl) <| .append (.literal rfl) <| .append (.literal rfl) <|
    .append (.literal rfl) <|
    .append (.ite (.append (.literal rfl) <| .append (plain_triple _ _) <| .literal rfl) <|
      .empty _) <| .append (.ite (hrotation _) <| .empty _) <|
    .append (.ite (.append (.literal rfl) <| .append (plain_triple _ _) <| .literal rfl) <|
      .empty _) <| .append (.ite (hdisplacement _) <| .empty _) <|
    .append (steady_copyClauses n f _) <| .literal rfl

theorem tracks_orthoLoop (hident : Plain ident) (o : OrthoLayout) (k d : Nat) :
    Tracks ⟨k, d⟩ (s.orthoLoop n f ident o) ⟨0, d⟩ := by
  have htabs : Plain "\t\t\t\t" := fun _ => .literal rfl
  have hplace := steady_placement s.document n htabs
  unfold Surroundings.orthoLoop
  simp only [String.append_assoc] at hplace ⊢
  exact .append (.literal rfl) <| .append (plain_triple _ _) <| .append (.literal rfl) <|
    .append (plain_triple _ _) <| .append (.literal rfl) <| .append (plain_triple _ _) <|
    .append (.literal rfl) <| .append (plain_natural _ _) <| .append (.literal rfl) <|
    .append (plain_natural _ _) <| .append (.literal rfl) <| .append (plain_natural _ _) <|
    .append (.literal rfl) <| .append (hident _) <| .append (.literal rfl) <|
    .append (.literal rfl) <| .append (.ite (hplace _) <| .empty _) <|
    .append (steady_copyClauses n f _) <| .append (.literal rfl) <| .literal rfl

end Loops

structure Encloses (frame : Frame) (close : Bool) : Prop where
  opens : Opens frame.before
  ends : Ends close frame.after

section Frames

variable {s : Surroundings} {id : NodeId} {n : Node} {f : Flags} {frame : Frame}

theorem ends_trailing (n : Node) (f : Flags) : Ends f.close ("\n" ++ s.trailing n f) :=
  fun _ d => .append (.literal rfl) <| tracks_trailing n f d

theorem encloses_simple {code : String} (hcode : Opens code)
    (hp : s.simple n f code = .framed frame) : Encloses frame f.close := by
  cases hp
  exact ⟨hcode, ends_trailing n f⟩

theorem encloses_boolean {op : BooleanOp} (hp : s.boolean n f op = .framed frame) :
    Encloses frame f.close := by
  cases hp
  refine ⟨fun k d => ?_, ends_trailing n f⟩
  cases op <;> exact .append (.append (.literal rfl) <| .literal rfl) <| .literal rfl

theorem encloses_container (hp : s.container n f = .framed frame) : Encloses frame f.close := by
  cases hp
  exact ⟨fun _ _ => .literal rfl, ends_trailing n { f with pigment := false }⟩

theorem encloses_array {a : NodeArray} (hp : s.array n f a = .framed frame) :
    Encloses frame f.close := by
  cases hl : s.document.hasLoops a with
  | false =>
    rw [Surroundings.array_of_not_hasLoops hl] at hp
    cases hp
  | true =>
    obtain ⟨base, loop, _, heq, hloop⟩ := Surroundings.array_of_hasLoops (n := n) (f := f) hl
    have hident : Plain (Surroundings.arrayIdentifier base) := plain_sanitize _
    have htracks : ∀ k d, Tracks ⟨k, d⟩ loop ⟨0, d⟩ := by
      intro k d
      rcases hloop with ⟨p, _, rfl⟩ | ⟨o, _, rfl⟩
      · exact tracks_polarLoop hident p k d
      · exact tracks_orthoLoop hident o k d
    rw [heq] at hp
    cases hp
    refine ⟨fun k d => ?_, fun k d => ?_⟩
    · have hdeclare : Tracks ⟨0, d + 1⟩
          ("\n#declare " ++ Surroundings.arrayIdentifier base ++ " = ") ⟨0, d + 1⟩ :=
        .append (.append (.literal rfl) <| hident _) <| .literal rfl
      exact .append (.literal rfl) hdeclare.indent
    · exact .append (.append (htracks k (d + 1)).indent <| .literal rfl) <|
        tracks_trailing n { f with pigment := false, placement := false, photons := false } d

theorem ends_clone {sources : List NodeId} {scale : Vec3}
    (hp : s.clone n f sources scale = .framed frame) :
    frame.before = "" ∧ frame.indented = false ∧ Ends f.close frame.after := by
  cases hp
  refine ⟨rfl, rfl, fun k d => ?_⟩
  dsimp only
  split
  · exact .append (.append (.append (.literal rfl) <| plain_triple _ _) <| .literal rfl) <|
      tracks_trailing n f d
  · exact .append (.append (.empty _) <| .literal rfl) <| tracks_trailing n f d

theorem tracks_clone_after {sources : List NodeId} {scale : Vec3}
    (hp : s.clone n f sources scale = .framed frame) (hf : f.close = false) (k d : Nat) :
    Tracks ⟨k, d⟩ frame.after ⟨0, d⟩ := by
  cases hp
  dsimp only
  split
  · exact .append (.append (.append (.literal rfl) <| plain_triple _ _) <| .literal rfl) <|
      steady_trailing n hf d
  · exact .append (.append (.empty _) <| .literal rfl) <| steady_trailing n hf d

theorem encloses_extrusion {e : Extrusion} (hp : s.extrusion n f e = .framed frame) :
    Encloses frame f.close := by
  obtain ⟨hs, sketch, p, hprofile⟩ := Surroundings.profile_of_extrusion hp
  simp only [Surroundings.extrusion, hs, hprofile, if_true] at hp
  apply encloses_simple (fun k d => ?_) hp
  have htab : Plain "\t" := fun _ => .literal rfl
  have hplace := steady_placement s.document sketch htab d.succ
  simp only [String.append_assoc]
  exact .append (.literal rfl) <| .append (plain_prismHead _ _ _) <|
    .append ((steady_profileLines p).indent _) <| .append (.literal rfl) hplace

theorem encloses_feature {p : Feature} {pocket : Bool}
    (hp : s.feature f p pocket = .framed frame) : Encloses frame f.close := by
  obtain ⟨hs, sketch, profile, hprofile⟩ := Surroundings.profile_of_feature hp
  simp only [Surroundings.feature, hs, hprofile, if_true] at hp
  cases hp
  refine ⟨fun k d => .ite (.literal rfl) <| .literal rfl, fun k d => ?_⟩
  have htabs : Plain "\t\t" := fun _ => .literal rfl
  have hplace := steady_placement s.document sketch htabs (d + 1 + 1)
  have hlines : Tracks ⟨0, d + 1 + 1⟩ (shift ['\t', '\t'] (profileLines profile))
      ⟨0, d + 1 + 1⟩ := (steady_profileLines profile _).shift rfl
  simp only [String.append_assoc] at hplace ⊢
  exact .append (.literal rfl) <| .append (plain_prismHead _ _ _) <| .append hlines <|
    .append (.literal rfl) <| .append (.ite hplace <| .literal rfl) <|
    .append (.literal rfl) <| tracks_close f.close d <| .literal rfl

theorem encloses_body {tip : Option NodeId} (hp : s.body id n f tip = .framed frame) :
    Encloses frame f.close := by
  obtain ⟨_, _, rfl⟩ := Surroundings.frame_of_body hp
  exact ⟨fun _ _ => .literal rfl, ends_trailing n f⟩

theorem encloses_of_plan (hp : s.plan id n f = .framed frame)
    (hclone : ∀ sources scale, n.kind ≠ .clone sources scale)
    (himage : ∀ file x y, n.kind = .imagePlane file x y → braceFree file.toList) :
    Encloses frame f.close := by
  unfold Surroundings.plan at hp
  dsimp only at hp
  cases hk : n.kind
  all_goals rw [hk] at hp
  case imagePlane file x y =>
    exact encloses_simple (f := { f with pigment := false })
      (opens_imagePlane (himage file x y hk) x y) hp
  case boolean op => exact encloses_boolean hp
  case part => exact encloses_container hp
  case group => exact encloses_container hp
  case array a => exact encloses_array hp
  case clone sources scale => exact absurd hk (hclone sources scale)
  case extrusion e => exact encloses_extrusion hp
  case pad p => exact encloses_feature hp
  case pocket p => exact encloses_feature hp
  case body tip => exact encloses_body hp
  case pointLight l =>
    exact encloses_simple (f := { f with pigment := false })
      (opens_lightSource l fun d => .empty _) hp
  case areaLight l =>
    exact encloses_simple (f := { f with pigment := false })
      (opens_lightSource l.light (steady_areaLines l)) hp
  case spotLight l =>
    exact encloses_simple (f := { f with pigment := false })
      (opens_lightSource l.light (steady_spotLines l)) hp
  case sketch k => cases hp
  case datum k => cases hp
  case mesh m => cases hp
  case other t => cases hp
  all_goals exact encloses_simple (opens_primitive (by rw [hk]; rfl) himage) hp

theorem tracks_meshReference (n : Node) (f : Flags) (k d : Nat) :
    Tracks ⟨k, d⟩ (s.meshReference n f) ⟨0, d + if f.close then 0 else 1⟩ := by
  have hempty : Plain "" := .empty
  have htab : Plain "\t" := fun _ => .literal rfl
  have hmaterial := steady_clauseLine htab (steady_material s.context n)
  have hphotons := steady_clauseLine htab (steady_photons s.context n)
  have hdisplacement := plain_displacement n
  have hinverse : Steady (String.join
      ((inverseRotation s.document n).map fun r => "\t" ++ r ++ "\n")) := by
    apply steady_join
    intro line hline
    obtain ⟨r, hr, rfl⟩ := List.mem_map.mp hline
    exact fun e => .append (.append (.literal rfl) <| plain_of_mem_inverseRotation hr _) <|
      .literal rfl
  unfold Surroundings.meshReference
  simp only [String.append_assoc]
  exact .append (.literal rfl) <| .append (plain_meshIdentifier _ _) <| .append (.literal rfl) <|
    .append (.ite (.empty _) <| .append (.ite (.empty _) <| .append (.literal rfl) <|
      .append (hdisplacement _) <| .literal rfl) <| hinverse _) <| .append (hmaterial _) <|
    .append (.ite (hphotons _) <| .empty _) <| tracks_close f.close d <| .literal rfl

end Frames

section Meshes

theorem steady_meshText {ident : String} (hident : Plain ident) (m : TriMesh) :
    Steady (meshText ident m) := by
  intro d
  have hvertices : Steady (String.join (m.vertices.map vertexLine)) := by
    apply steady_join
    intro line hline
    obtain ⟨v, _, rfl⟩ := List.mem_map.mp hline
    exact fun e => .append (.literal rfl) <| plain_triple v _
  have htriangles : Steady (String.join (m.triangles.map triangleLine)) := by
    apply steady_join
    intro line hline
    obtain ⟨t, _, rfl⟩ := List.mem_map.mp hline
    intro e
    unfold triangleLine
    exact .append (.append (.append (.append (.append (.append (.literal rfl) <|
      plain_natural _ _) <| .literal rfl) <| plain_natural _ _) <| .literal rfl) <|
      plain_natural _ _) <| .literal rfl
  unfold meshText
  simp only [String.append_assoc]
  exact .append (.literal rfl) <| .append (hident _) <| .append (.literal rfl) <|
    .append (plain_natural _ _) <| .append (hvertices _) <| .append (.literal rfl) <|
    .append (plain_natural _ _) <| .append (htriangles _) <| .literal rfl

end Meshes

end RayScene.Braces
