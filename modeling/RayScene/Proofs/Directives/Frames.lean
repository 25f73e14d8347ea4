import RayScene.Proofs.Directives.Lines
import RayScene.Proofs.Loops.Scenes
set_option autoImplicit false

namespace RayScene.Directives

open Sdl

section Loops

variable {s : Surroundings} {n : Node} {f : Flags} {ident : String}

theorem leads_polarLoop (hident : Quiet ident) (p : PolarLayout) :
    Leads false false (s.polarLoop n f ident p) := by
  have htabs : Quiet "\t\t" := .literal rfl
  have hrotation := quiet_clauseLine htabs (quiet_rotation s.document n)
  have hdisplacement := quiet_clauseLine htabs (quiet_displacement n)
  have hcenter : Leads true true
      (if p.center.isNonzero then "\t\ttranslate -" ++ triple p.center ++ "\n" else "") := by
    refine .lined (.ite (.append (.append (.literal (by decide)) (quiet_triple _).hashFree) <|
      .literal (by decide)) <| .literal nofun) (.ite (.inr ?_) .empty)
    exact EndsLine.append (t := "\n") _ rfl
  unfold Surroundings.polarLoop
  dsimp only
  simp only [String.append_assoc] at hcenter ⊢
  exact .append (m := false) (.literal rfl) <| .skip (quiet_natural _) <|
    .append (m := false) (.literal rfl) <| .skip (quiet_triple _) <|
    .append (m := false) (.literal rfl) <| .skip (quiet_number _) <|
    .append (m := false) (.literal rfl) <| .skip hident <|
    .append (m := true) (.literal rfl) <| .append hcenter <|
    .append (m := true) (.literal rfl) <| .append (m := true) (.literal rfl) <|
    .append (m := true) (.literal rfl) <| .append (m := true) (.literal rfl) <|
    .append (m := true) (.literal rfl) <| .append (m := true) (.literal rfl) <|
    .append (m := true) (.literal rfl) <|
    .skip (.ite (.append (.literal rfl) <| .append (quiet_triple _) <| .literal rfl) .empty) <|
    .skip (.ite hrotation .empty) <|
    .skip (.ite (.append (.literal rfl) <| .append (quiet_triple _) <| .literal rfl) .empty) <|
    .skip (.ite hdisplacement .empty) <| .skip (quiet_copyClauses n f) <| .literal rfl

theorem leads_orthoLoop (hident : Quiet ident) (o : OrthoLayout) :
    Leads true false (s.orthoLoop n f ident o) := by
  have hplace := quiet_placement s.document n "\t\t\t\t" (.literal rfl)
  unfold Surroundings.orthoLoop
  simp only [String.append_assoc] at hplace ⊢
  exact .append (m := false) (.literal rfl) <| .skip (quiet_triple _) <|
    .append (m := false) (.literal rfl) <| .skip (quiet_triple _) <|
    .append (m := false) (.literal rfl) <| .skip (quiet_triple _) <|
    .append (m := false) (.literal rfl) <| .skip (quiet_natural _) <|
    .append (m := false) (.literal rfl) <| .skip (quiet_natural _) <|
    .append (m := false) (.literal rfl) <| .skip (quiet_natural _) <|
    .append (m := false) (.literal rfl) <| .skip hident <|
    .append (m := true) (.literal rfl) <| .append (m := true) (.literal rfl) <|
    .skip (.ite hplace .empty) <| .skip (quiet_copyClauses n f) <|
    .append (m := true) (.literal rfl) <| .literal rfl

end Loops

def IsBare (code : String) : Prop := ∃ n f, code = marker n f

/-- The directives of a frame are led, if those of a grid are behind a line end. -/
structure Guides (frame : Frame) (grid : Bool) : Prop where
  before : Leads false false frame.before
  after : Leads grid true frame.after

structure Abuts (frame : Frame) : Prop where
  before : frame.before.toList.getLast? = some ' '
  after : ∃ rest, frame.after.toList = "#declare".toList ++ rest
  indented : frame.indented = true
  single : frame.steps.length = 1

section Frames

variable {s : Surroundings} {id : NodeId} {n : Node} {f : Flags} {frame : Frame}

theorem guides_loops {base : NodeId} {inner : Flags} {ident loop : String} {grid : Bool}
    (hident : Quiet ident) (hloop : Leads grid false loop)
    (hp : s.loops n f base inner ident loop = .framed frame) : Guides frame grid := by
  cases hp
  refine ⟨?_, ?_⟩
  · have hdeclare : Leads true false ("\n#declare " ++ ident ++ " = ") := by
      simp only [String.append_assoc]
      exact .append (m := false) (.literal rfl) <| .skip hident <| .literal rfl
    exact .append (m := true) (.literal rfl) hdeclare.indent
  · have hrest : Inert ⟨"", [], true, "\n" ++
        s.trailing n { f with pigment := false, placement := false, photons := false }⟩ :=
      .trailing (.literal nofun)
    dsimp only
    rw [String.append_assoc]
    exact hloop.indent.append ((Leads.of_hashFree hrest.after).endsLine hrest.ends)

theorem guides_array {a : NodeArray} (hk : n.kind = .array a) (hp : s.array n f a = .framed frame) :
    Guides frame (s.document.hasOrthoLoops (id, n)) := by
  obtain ⟨hl, base, loop, _, hloops, hloop⟩ := Surroundings.loops_of_array hp
  have hident : Quiet (Surroundings.arrayIdentifier base) := quiet_sanitize _
  obtain ⟨b, layout⟩ := a
  rcases hloop with ⟨p, rfl, rfl⟩ | ⟨o, rfl, rfl⟩
  · have hpolar : s.document.hasOrthoLoops (id, n) = false := by simp [Document.hasOrthoLoops, hk]
    rw [hpolar]
    exact guides_loops hident (leads_polarLoop hident p) hloops
  · have hortho : s.document.hasOrthoLoops (id, n) = true := by
      simp [Document.hasOrthoLoops, hk, hl]
    rw [hortho]
    exact guides_loops hident (leads_orthoLoop hident o) hloops

theorem guides_of_plan (hp : s.plan id n f = .framed frame)
    (himage : ∀ file x y, n.kind = .imagePlane file x y → '#' ∉ file.toList) :
    Guides frame (s.document.hasOrthoLoops (id, n)) := by
  by_cases hk : ∃ a, n.kind = .array a
  · obtain ⟨a, hk⟩ := hk
    exact guides_array hk ((Surroundings.plan_of_array id f hk).symm.trans hp)
  · have hframe := inert_of_plan hp (fun a ha => hk ⟨a, ha⟩) himage
    exact ⟨.of_hashFree hframe.before, (Leads.of_hashFree hframe.after).endsLine hframe.ends⟩

theorem abuts_of_grid (hp : s.plan id n f = .framed frame)
    (hgrid : s.document.hasOrthoLoops (id, n) = true) :
    Abuts frame := by
  obtain ⟨b, o, hk⟩ : ∃ b o, n.kind = .array ⟨b, .ortho o⟩ := by
    unfold Document.hasOrthoLoops at hgrid
    split at hgrid
    · rename_i b o hk
      exact ⟨b, o, hk⟩
    · cases hgrid
  rw [Surroundings.plan_of_array id f hk] at hp
  obtain ⟨_, base, loop, _, hloops, ⟨p, hlayout, _⟩ | ⟨o', hlayout, rfl⟩⟩ :=
    Surroundings.loops_of_array hp
  · cases hlayout
  cases hlayout
  cases hloops
  refine ⟨?_, ?_, rfl, rfl⟩
  · have hdeclare : ("\n#declare " ++ Surroundings.arrayIdentifier base ++ " = ").toList.getLast? =
        some ' ' := by
      rw [String.toList_append, List.getLast?_append]
      rfl
    dsimp only
    rw [String.toList_append, List.getLast?_append, getLast?_indent hdeclare (by decide)]
    rfl
  · obtain ⟨rest, hrest⟩ : ∃ rest, (s.orthoLoop n f (Surroundings.arrayIdentifier base) o).toList =
        "#declare".toList ++ rest := by
      unfold Surroundings.orthoLoop
      simp only [String.append_assoc, String.toList_append]
      exact ⟨_, List.append_assoc "#declare".toList " intervalX = ".toList _⟩
    have hindent : (indent (s.orthoLoop n f (Surroundings.arrayIdentifier base) o)).toList =
        "#declare".toList ++ Text.substitute '\n' ['\n', '\t'] rest := by
      unfold indent shift
      rw [String.toList_ofList, hrest, Text.substitute_append,
        Text.substitute_of_not_mem _ (by decide)]
    dsimp only
    rw [String.toList_append, String.toList_append, hindent, List.append_assoc, List.append_assoc]
    exact ⟨_, rfl⟩

theorem getLast?_of_bare {code : String} (h : IsBare code) :
    code = "" ∨ code.toList.getLast? = some '-' := by
  obtain ⟨n, f, rfl⟩ := h
  unfold marker
  split
  · refine .inr ?_
    rw [String.toList_append, List.getLast?_append]
    rfl
  · exact .inl rfl

theorem not_isBare_of_endsLine {code : String} (h : EndsLine code) : ¬IsBare code := by
  intro hbare
  rcases getLast?_of_bare hbare with rfl | hlast
  · cases h
  · cases h.symm.trans hlast

theorem getLast?_append_bare {before code : String} (hbefore : before.toList.getLast? = some ' ')
    (h : IsBare code) : ∃ d, (before ++ indent code).toList.getLast? = some d ∧ d ≠ '\n' ∧
      d ≠ '\t' := by
  rcases getLast?_of_bare h with rfl | hlast
  · have hempty : indent "" = "" := rfl
    rw [hempty, String.append_empty]
    exact ⟨' ', hbefore, by decide, by decide⟩
  · rw [String.toList_append, List.getLast?_append, getLast?_indent hlast (by decide)]
    exact ⟨'-', rfl, by decide, by decide⟩

theorem Abuts.swallows {code : String} (h : Abuts frame) (hbare : IsBare code) :
    Swallows (frame.code [code]) := by
  obtain ⟨rest, hrest⟩ := h.after
  obtain ⟨d, hd, hline, htab⟩ := getLast?_append_bare h.before hbare
  unfold Frame.code
  rw [h.indented, if_pos rfl, List.map_singleton, String.join_cons, String.join_nil,
    String.append_empty]
  exact swallows_append (by decide) hd hline htab hrest

end Frames

end RayScene.Directives
