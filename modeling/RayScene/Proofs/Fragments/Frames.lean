import RayScene.Proofs.Braces.Statements
import RayScene.Proofs.Fragments.Quiet
set_option autoImplicit false

namespace RayScene.Sdl

def HashFree (s : String) : Prop := '#' ∉ s.toList

def EndsLine (s : String) : Prop := s.toList.getLast? = some '\n'

def Lined (s : String) : Prop := s = "" ∨ EndsLine s

section Putting

variable {s t lead clause : String} {l : List String}

theorem HashFree.literal {cs : List Char} (h : '#' ∉ cs) : HashFree (String.ofList cs) := by
  unfold HashFree
  rwa [String.toList_ofList]

theorem Unmarked.hashFree (h : Unmarked s) : HashFree s := fun hmem => absurd (h _ hmem) (by decide)

theorem Quiet.hashFree (h : Quiet s) : HashFree s := h.unmarked.hashFree

theorem HashFree.append (hs : HashFree s) (ht : HashFree t) : HashFree (s ++ t) := by
  unfold HashFree
  rw [String.toList_append, List.mem_append]
  exact fun hmem => hmem.elim hs ht

theorem HashFree.ite {p : Prop} [Decidable p] (hs : HashFree s) (ht : HashFree t) :
    HashFree (if p then s else t) :=
  iteInduction (fun _ => hs) fun _ => ht

theorem hashFree_join (h : ∀ s ∈ l, HashFree s) : HashFree (String.join l) :=
  Text.join_of_append (.literal nofun) (fun _ _ => .append) h

theorem HashFree.shift {tabs : List Char} (htabs : '#' ∉ tabs) (h : HashFree s) :
    HashFree (shift tabs s) := by
  unfold HashFree Sdl.shift
  rw [String.toList_ofList]
  intro hmem
  obtain ⟨d, hd, hcd⟩ := List.mem_flatMap.mp hmem
  split at hcd
  · exact (List.mem_cons.mp hcd).elim (by decide) htabs
  · obtain rfl := List.mem_singleton.mp hcd
    exact h hd

theorem HashFree.indent (h : HashFree s) : HashFree (indent s) := h.shift (by decide)

theorem EndsLine.append (s : String) (ht : EndsLine t) : EndsLine (s ++ t) := by
  unfold EndsLine
  rw [String.toList_append, List.getLast?_append, ht]
  rfl

theorem Lined.empty : Lined "" := .inl rfl

theorem EndsLine.lined (h : EndsLine s) : Lined s := .inr h

theorem EndsLine.append_lined (hs : EndsLine s) (ht : Lined t) : EndsLine (s ++ t) := by
  rcases ht with rfl | ht
  · rwa [String.append_empty]
  · exact ht.append s

theorem Lined.append (hs : Lined s) (ht : Lined t) : Lined (s ++ t) := by
  rcases hs with rfl | hs
  · rwa [String.empty_append]
  · exact .inr (hs.append_lined ht)

theorem Lined.ite {p : Prop} [Decidable p] (hs : Lined s) (ht : Lined t) :
    Lined (if p then s else t) :=
  iteInduction (fun _ => hs) fun _ => ht

theorem lined_join (h : ∀ s ∈ l, Lined s) : Lined (String.join l) :=
  Text.join_of_append .empty (fun _ _ => .append) h

theorem lined_clauseLine (lead clause : String) : Lined (clauseLine lead clause) := by
  have hend : EndsLine "\n" := rfl
  exact .ite .empty (hend.append _).lined

end Putting

section Shapes

theorem hashFree_imageFormat {file : String} (h : HashFree file) : HashFree (imageFormat file) :=
  not_mem_imageFormat rfl h

theorem hashFree_imagePlane {file : String} (h : HashFree file) (x y : Float) :
    HashFree (imagePlane file x y) := by
  have hmap : HashFree ("\npigment \x7b\n\timage_map \x7b\n\t\t" ++ imageFormat file ++
      " \"" ++ file ++
      "\"\n\t\tmap_type 0\n\t\x7d\n\tscale <" ++ number x ++ ", " ++ number y ++
          ", 1>\n\x7d\n") := by
    simp only [String.append_assoc]
    exact .append (.literal (by decide)) <| .append (hashFree_imageFormat h) <|
      .append (.literal (by decide)) <| .append h <| .append (.literal (by decide)) <|
      .append (quiet_number x).hashFree <| .append (.literal (by decide)) <|
      .append (quiet_number y).hashFree <| .literal (by decide)
  unfold imagePlane
  dsimp only
  exact .append (.append (.append (.append (.append (.append (.append (.literal (by decide)) <|
    (quiet_polygon x y).hashFree) hmap.indent) <| .literal (by decide)) <|
    (quiet_number _).hashFree) <| .literal (by decide)) <| (quiet_number _).hashFree) <|
      .literal (by decide)

theorem hashFree_profileLines (p : Profile) : HashFree (profileLines p) := by
  refine .append (.literal (by decide)) (hashFree_join fun line hline => ?_)
  obtain ⟨c, _, rfl⟩ := List.mem_map.mp hline
  exact .append (.append (.append (quiet_points c).hashFree <| .literal (by decide)) <|
    (quiet_curveName c.kind).hashFree) <| .literal (by decide)

end Shapes

structure Inert (frame : Frame) : Prop where
  before : HashFree frame.before
  after : HashFree frame.after
  ends : EndsLine frame.after

section Frames

variable {s : Surroundings} {id : NodeId} {n : Node} {f : Flags} {frame : Frame}

theorem lined_trailing (n : Node) (f : Flags) : Lined (s.trailing n f) :=
  .append (.append (.append (.ite (lined_clauseLine _ _) .empty) <|
    .ite (lined_clauseLine _ _) .empty) <|
    .ite (.append (lined_clauseLine _ _) <| lined_clauseLine _ _) .empty) <| .ite (.inr rfl) .empty

theorem Inert.trailing {steps : List Step} {indented : Bool} {before : String}
    (hbefore : HashFree before) : Inert ⟨before, steps, indented, "\n" ++ s.trailing n f⟩ where
  before := hbefore
  after := .append (.literal (by decide)) (quiet_trailing n f).hashFree
  ends := EndsLine.append_lined (s := "\n") rfl (lined_trailing n f)

theorem inert_simple {code : String} (hcode : HashFree code)
    (hp : s.simple n f code = .framed frame) :
    Inert frame := by
  cases hp
  exact .trailing hcode

theorem inert_boolean {op : BooleanOp} (hp : s.boolean n f op = .framed frame) : Inert frame := by
  cases hp
  refine .trailing ?_
  cases op <;> exact .append (.append (.literal (by decide)) <| .literal (by decide)) <|
    .literal (by decide)

theorem inert_container (hp : s.container n f = .framed frame) : Inert frame := by
  cases hp
  exact .trailing (.literal (by decide))

theorem inert_clone {sources : List NodeId} {scale : Vec3}
    (hp : s.clone n f sources scale = .framed frame) : Inert frame := by
  cases hp
  have hscale : HashFree (if scale.any (· != 1) then "\n\tscale " ++ triple scale else "") :=
    .ite (.append (.literal (by decide)) (quiet_triple _).hashFree) <| .literal nofun
  refine ⟨.literal nofun, .append (.append hscale <| .literal (by decide))
    (quiet_trailing n f).hashFree, ?_⟩
  have hend : EndsLine "\n" := rfl
  exact (hend.append _).append_lined (lined_trailing n f)

theorem inert_extrusion {e : Extrusion} (hp : s.extrusion n f e = .framed frame) : Inert frame := by
  obtain ⟨hs, sketch, p, hprofile⟩ := Surroundings.profile_of_extrusion hp
  simp only [Surroundings.extrusion, hs, hprofile, if_true] at hp
  apply inert_simple _ hp
  have hplace := (quiet_placement s.document sketch "\t" (.literal rfl)).hashFree
  simp only [String.append_assoc]
  exact .append (.literal (by decide)) <| .append (quiet_prismHead _ _).hashFree <|
    .append (hashFree_profileLines p).indent <| .append (.literal (by decide)) hplace

theorem inert_feature {p : Feature} {pocket : Bool} (hp : s.feature f p pocket = .framed frame) :
    Inert frame := by
  obtain ⟨hs, sketch, profile, hprofile⟩ := Surroundings.profile_of_feature hp
  simp only [Surroundings.feature, hs, hprofile, if_true] at hp
  cases hp
  have hplace := (quiet_placement s.document sketch "\t\t" (.literal rfl)).hashFree
  refine ⟨.ite (.literal (by decide)) <| .literal (by decide), ?_, ?_⟩
  · simp only [String.append_assoc]
    exact .append (.literal (by decide)) <| .append (quiet_prismHead _ _).hashFree <|
      .append ((hashFree_profileLines profile).shift (by decide)) <|
      .append (.literal (by decide)) <| .append (.ite hplace <| .literal (by decide)) <|
      .append (.literal (by decide)) <| .ite (.literal (by decide)) <| .literal (by decide)
  · have hend : EndsLine "\n\t\x7d\n" := rfl
    exact (hend.append _).append_lined (.ite (.inr rfl) .empty)

theorem inert_body {tip : Option NodeId} (hp : s.body id n f tip = .framed frame) :
    Inert frame := by
  obtain ⟨_, _, rfl⟩ := Surroundings.frame_of_body hp
  exact .trailing (.literal (by decide))

theorem inert_of_plan (hp : s.plan id n f = .framed frame) (harray : ∀ a, n.kind ≠ .array a)
    (himage : ∀ file x y, n.kind = .imagePlane file x y → '#' ∉ file.toList) : Inert frame := by
  cases written_of_plan hp with
  | quiet hcode hp => exact inert_simple hcode.hashFree hp
  | image hk hp => exact inert_simple (hashFree_imagePlane (himage _ _ _ hk) _ _) hp
  | boolean hp => exact inert_boolean hp
  | container hp => exact inert_container hp
  | array hk hp => exact absurd hk (harray _)
  | clone hp => exact inert_clone hp
  | extrusion hp => exact inert_extrusion hp
  | feature hp => exact inert_feature hp
  | body hp => exact inert_body hp

theorem endsLine_meshReference (n : Node) (f : Flags) : EndsLine (s.meshReference n f) := by
  have hend : EndsLine "\n" := rfl
  have hinverse : Lined (String.join ((inverseRotation s.document n).map fun r =>
      "\t" ++ r ++ "\n")) := by
    refine lined_join fun line hline => ?_
    obtain ⟨r, _, rfl⟩ := List.mem_map.mp hline
    exact (hend.append _).lined
  have hfactor : EndsLine " * (-1)\n" := rfl
  have hplacement : Lined (if f.placement then "" else
      (if (displacement n).isEmpty then "" else "\t" ++ displacement n ++ " * (-1)\n") ++
        String.join ((inverseRotation s.document n).map fun r => "\t" ++ r ++ "\n")) :=
    .ite .empty <| .append (.ite .empty (hfactor.append _).lined) hinverse
  exact ((((hend.append _).append_lined hplacement).append_lined
    (lined_clauseLine _ _)).append_lined
    (.ite (lined_clauseLine _ _) .empty)).append_lined (.ite (.inr rfl) .empty)

theorem hashFree_marker (n : Node) (f : Flags) : HashFree (marker n f) :=
  .ite (.append (.append (.literal (by decide)) (quiet_sanitize n.label).hashFree) <|
    .literal (by decide)) <| .literal nofun

end Frames

end RayScene.Sdl
