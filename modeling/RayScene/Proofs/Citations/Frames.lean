import RayScene.Proofs.Citations.Scan
import RayScene.Proofs.Compilation.Steps
import RayScene.Proofs.Fragments.Quiet
set_option autoImplicit false

namespace RayScene

namespace Document

def arrayIdent? (d : Document) (n : Node) : Option String :=
  match n.kind with
  | .array a => if d.hasLoops a then (d.get? a.base).map Sdl.Surroundings.arrayIdentifier else none
  | _ => none

end Document

namespace Citations

open Sdl

def ownCitations (d : Document) (n : Node) : List Citation :=
  (d.arrayIdent? n).elim [] fun ident => mention ident.toList

section Loops

variable {s : Surroundings} {n : Node} {f : Flags} {ident : String}

theorem cites_polarLoop (hident : IsWord ident) (p : PolarLayout) :
    Cites (s.polarLoop n f ident p) (mention ident.toList) := by
  have htabs : Quiet "\t\t" := .literal rfl
  have hcenter : ∀ lead, Quiet lead →
      Quiet (if p.center.isNonzero then lead ++ triple p.center ++ "\n" else "") :=
    fun lead hlead => .ite (.append (hlead.append (quiet_triple _)) <| .literal rfl) .empty
  have hinterval : Quiet (if p.interval.isNonzero then "\t\ttranslate " ++ triple p.interval ++
      " * i\n" else "") :=
    .ite (.append (.append (.literal rfl) (quiet_triple _)) <| .literal rfl) .empty
  have hplace {clause : String} (hclause : Quiet clause) :
      Quiet (if f.placement then clauseLine "\t\t" clause else "") :=
    .ite (quiet_clauseLine htabs hclause) .empty
  unfold Surroundings.polarLoop
  dsimp only
  have hback := (hcenter "\t\ttranslate -" (.literal rfl)).silent
  have hforth := (hcenter "\t\ttranslate " (.literal rfl)).silent
  have hrotation := (hplace (quiet_rotation s.document n)).silent
  have hdisplacement := (hplace (quiet_displacement n)).silent
  have hinterval := hinterval.silent
  simp only [String.append_assoc] at hback hforth hinterval ⊢
  refine .skip (.of_isSilent rfl) <| .skip (quiet_natural _).silent <| .skip (.of_isSilent rfl) <|
    .skip (quiet_triple _).silent <| .skip (.of_isSilent rfl) <| .skip (quiet_number _).silent <|
    Opens.reference (.literal fun _ _ => rfl) hident ?_ (stops_literal rfl _)
  exact .skip (.of_isSilent rfl) <| .skip hback <| .skip (.of_isSilent rfl) <|
    .skip (.of_isSilent rfl) <| .skip (.of_isSilent rfl) <| .skip (.of_isSilent rfl) <|
    .skip (.of_isSilent rfl) <| .skip (.of_isSilent rfl) <| .skip (.of_isSilent rfl) <|
    .skip hforth <| .skip hrotation <| .skip hinterval <| .skip hdisplacement <|
    .skip (quiet_copyClauses n f).silent <| .of_isSilent rfl

theorem cites_orthoLoop (hident : IsWord ident) (o : OrthoLayout) :
    Cites (s.orthoLoop n f ident o) (mention ident.toList) := by
  have hplace : Quiet (if f.placement then
      clauseLine "\t\t\t\t" (rotation s.document n) ++ clauseLine "\t\t\t\t" (displacement n)
      else "") :=
    .ite (quiet_placement s.document n "\t\t\t\t" (.literal rfl)) .empty
  unfold Surroundings.orthoLoop
  simp only [String.append_assoc]
  refine .skip (.of_isSilent rfl) <| .skip (quiet_triple _).silent <| .skip (.of_isSilent rfl) <|
    .skip (quiet_triple _).silent <| .skip (.of_isSilent rfl) <| .skip (quiet_triple _).silent <|
    .skip (.of_isSilent rfl) <| .skip (quiet_natural _).silent <| .skip (.of_isSilent rfl) <|
    .skip (quiet_natural _).silent <| .skip (.of_isSilent rfl) <| .skip (quiet_natural _).silent <|
    Opens.reference (.literal fun _ _ => rfl) hident ?_ (stops_literal rfl _)
  exact .skip (.of_isSilent rfl) <| .skip (.of_isSilent rfl) <| .skip hplace.silent <|
    .skip (quiet_copyClauses n f).silent <| .skip (.of_isSilent rfl) <| .of_isSilent rfl

end Loops

section Shapes

theorem cites_imagePlane {file : String} (hfile : Clean file) (hformat : Clean (imageFormat file))
    (x y : Float) : Cites (imagePlane file x y) [] := by
  have hmap : Cites ("\npigment \x7b\n\timage_map \x7b\n\t\t" ++ imageFormat file ++
      " \x22" ++ file ++ "\x22\n\t\tmap_type 0\n\t\x7d\n\tscale <" ++ number x ++
      ", " ++ number y ++ ", 1>\n\x7d\n") [] := by
    simp only [String.append_assoc]
    have hbehind : Cites (number x ++ (", " ++ (number y ++ ", 1>\n\x7d\n"))) [] :=
      .skip (quiet_number x).silent <| .skip (.of_isSilent rfl) <| .skip (quiet_number y).silent <|
        .of_isSilent rfl
    refine .around (.of_isSilent rfl) rfl (by decide) (by decide) hformat <|
      Cites.resumes ?_ fun after => ?_
    · exact .around (.of_isSilent rfl) rfl (by decide) (by decide) hfile <|
        (resumes_quote rfl).append hbehind
    · rw [String.toList_append, List.append_assoc]
      rfl
  unfold imagePlane
  dsimp only
  simp only [String.append_assoc] at hmap ⊢
  exact .skip (.of_isSilent rfl) <| .skip (quiet_polygon x y).silent <| .skip hmap.indent <|
    .skip (.of_isSilent rfl) <| .skip (quiet_number _).silent <| .skip (.of_isSilent rfl) <|
    .skip (quiet_number _).silent <| .of_isSilent rfl

theorem cites_join {l : List String} (h : ∀ s ∈ l, Cites s []) : Cites (String.join l) [] :=
  Text.join_of_append (P := fun s => Cites s []) .empty (fun _ _ => .skip) h

theorem cites_profileLines (p : Profile) : Cites (profileLines p) [] := by
  refine .skip (.of_isSilent rfl) <| cites_join fun line hline => ?_
  obtain ⟨c, _, rfl⟩ := List.mem_map.mp hline
  exact .skip (.skip (.skip (quiet_points c).silent <| .of_isSilent rfl)
    (quiet_curveName c.kind).silent) <| .of_isSilent rfl

end Shapes

/-- A frame cites behind its steps only. -/
structure CitesLast (frame : Frame) (l : List Citation) : Prop where
  before : Cites frame.before []
  after : Cites frame.after l

section Frames

variable {s : Surroundings} {id : NodeId} {n : Node} {f : Flags} {frame : Frame}

theorem cites_trailing (n : Node) (f : Flags) : Cites ("\n" ++ s.trailing n f) [] :=
  .skip (.of_isSilent rfl) (quiet_trailing n f).silent

theorem CitesLast.trailing {steps : List Step} {indented : Bool} {before : String}
    (hbefore : Cites before []) : CitesLast ⟨before, steps, indented, "\n" ++ s.trailing n f⟩ [] :=
  ⟨hbefore, cites_trailing n f⟩

theorem citesLast_simple {code : String} (hcode : Cites code [])
    (hp : s.simple n f code = .framed frame) : CitesLast frame [] := by
  cases hp
  exact .trailing hcode

theorem citesLast_boolean {op : BooleanOp} (hp : s.boolean n f op = .framed frame) :
    CitesLast frame [] := by
  cases hp
  refine .trailing ?_
  cases op <;> exact fun _ _ => rfl

theorem citesLast_container (hp : s.container n f = .framed frame) : CitesLast frame [] := by
  cases hp
  exact .trailing (.of_isSilent rfl)

theorem citesLast_clone {sources : List NodeId} {scale : Vec3}
    (hp : s.clone n f sources scale = .framed frame) : CitesLast frame [] := by
  cases hp
  have hscale : Quiet (if scale.any (· != 1) then "\n\tscale " ++ triple scale else "") :=
    .ite (.append (.literal rfl) (quiet_triple _)) .empty
  exact ⟨.empty, .skip (.skip hscale.silent <| .of_isSilent rfl) (quiet_trailing n f).silent⟩

theorem citesLast_extrusion {e : Extrusion} (hp : s.extrusion n f e = .framed frame) :
    CitesLast frame [] := by
  obtain ⟨hs, sketch, p, hprofile⟩ := Surroundings.profile_of_extrusion hp
  simp only [Surroundings.extrusion, hs, hprofile, if_true] at hp
  apply citesLast_simple _ hp
  have hplace := (quiet_placement s.document sketch "\t" (.literal rfl)).silent
  simp only [String.append_assoc]
  exact .skip (.of_isSilent rfl) <| .skip (quiet_prismHead _ _).silent <|
    .skip (cites_profileLines p).indent <| .skip (.of_isSilent rfl) hplace

theorem citesLast_feature {p : Feature} {pocket : Bool}
    (hp : s.feature f p pocket = .framed frame) : CitesLast frame [] := by
  obtain ⟨hs, sketch, profile, hprofile⟩ := Surroundings.profile_of_feature hp
  simp only [Surroundings.feature, hs, hprofile, if_true] at hp
  cases hp
  have hplace := (quiet_placement s.document sketch "\t\t" (.literal rfl)).silent
  refine ⟨.ite (.of_isSilent rfl) <| .of_isSilent rfl, ?_⟩
  simp only [String.append_assoc]
  exact .skip (.of_isSilent rfl) <| .skip (quiet_prismHead _ _).silent <|
    .skip ((cites_profileLines profile).shift (by simp)) <| .skip (.of_isSilent rfl) <|
    .skip (.ite hplace <| .of_isSilent rfl) <| .skip (.of_isSilent rfl) <|
    .ite (.of_isSilent rfl) .empty

theorem citesLast_body {tip : Option NodeId} (hp : s.body id n f tip = .framed frame) :
    CitesLast frame [] := by
  obtain ⟨_, _, rfl⟩ := Surroundings.frame_of_body hp
  exact .trailing (.of_isSilent rfl)

theorem citesLast_loops {base : NodeId} {inner : Flags} {ident loop : String} {l : List Citation}
    (hident : IsWord ident) (hloop : Cites loop l)
    (hp : s.loops n f base inner ident loop = .framed frame) : CitesLast frame l := by
  cases hp
  have hname : Cites ident [] := .of_not_mem (hident.not_mem rfl) (hident.not_mem rfl)
  have hdeclare : Cites ("\n#declare " ++ ident ++ " = ") [] :=
    .skip (.skip (.of_isSilent rfl) hname) <| .of_isSilent rfl
  exact ⟨.skip (.of_isSilent rfl) hdeclare.indent,
    (hloop.indent.trail (.of_isSilent rfl)).trail (quiet_trailing n _).silent⟩

theorem citesLast_array {a : NodeArray} (hk : n.kind = .array a)
    (hp : s.array n f a = .framed frame) : CitesLast frame (ownCitations s.document n) := by
  obtain ⟨hl, base, loop, hbase, hloops, hloop⟩ := Surroundings.loops_of_array hp
  have hident : IsWord (Surroundings.arrayIdentifier base) := isWord_sanitize _
  have hown : ownCitations s.document n = mention (Surroundings.arrayIdentifier base).toList := by
    simp [ownCitations, Document.arrayIdent?, hk, hl, hbase]
  rw [hown]
  rcases hloop with ⟨p, _, rfl⟩ | ⟨o, _, rfl⟩
  · exact citesLast_loops hident (cites_polarLoop hident p) hloops
  · exact citesLast_loops hident (cites_orthoLoop hident o) hloops

theorem ownCitations_of_not_array (d : Document) (h : ∀ a, n.kind ≠ .array a) :
    ownCitations d n = [] := by
  unfold ownCitations Document.arrayIdent?
  split
  · rename_i a ha
    exact absurd ha (h a)
  · rfl

theorem citesLast_of_plan (hp : s.plan id n f = .framed frame)
    (himage : ∀ file x y, n.kind = .imagePlane file x y → Clean file ∧ Clean (imageFormat file)) :
    CitesLast frame (ownCitations s.document n) := by
  by_cases hk : ∃ a, n.kind = .array a
  · obtain ⟨a, hk⟩ := hk
    exact citesLast_array hk ((Surroundings.plan_of_array id f hk).symm.trans hp)
  have harray : ∀ a, n.kind ≠ .array a := fun a ha => hk ⟨a, ha⟩
  rw [ownCitations_of_not_array s.document harray]
  cases written_of_plan hp with
  | quiet hcode hp => exact citesLast_simple hcode.silent hp
  | image hk hp =>
    obtain ⟨hfile, hformat⟩ := himage _ _ _ hk
    exact citesLast_simple (cites_imagePlane hfile hformat _ _) hp
  | boolean hp => exact citesLast_boolean hp
  | container hp => exact citesLast_container hp
  | array hk hp => exact absurd hk (harray _)
  | clone hp => exact citesLast_clone hp
  | extrusion hp => exact citesLast_extrusion hp
  | feature hp => exact citesLast_feature hp
  | body hp => exact citesLast_body hp

theorem cites_marker (n : Node) (f : Flags) : Cites (marker n f) [] :=
  .ite (.skip (.skip (.of_isSilent rfl) (quiet_sanitize n.label).silent) <| .of_isSilent rfl) .empty

theorem cites_meshReference (n : Node) (f : Flags) :
    Cites (s.meshReference n f) (mention (meshIdentifier n.label).toList) := by
  have hclauses := (quiet_referenceClauses (s := s) n f).silent
  have hident : IsWord (meshIdentifier n.label) := fun _ => isIdentifierChar_of_mem_meshIdentifier
  unfold Surroundings.meshReference
  simp only [String.append_assoc] at hclauses ⊢
  exact Opens.reference (.literal fun _ _ => rfl) hident (.skip (.of_isSilent rfl) hclauses)
    (stops_literal rfl _)

end Frames

end Citations

end RayScene
