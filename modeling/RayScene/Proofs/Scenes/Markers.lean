import RayScene.Proofs.Documents.Containers
import RayScene.Proofs.Text.Identifiers
import RayScene.Proofs.Text.Search
set_option autoImplicit false

namespace RayScene

open Relation

namespace Sdl

def markerLine (label : String) : String := "//----- " ++ sanitize label ++ " -----"

theorem newline_not_mem_markerLine (label : String) : '\n' ∉ (markerLine label).toList := by
  unfold markerLine
  rw [String.toList_append, String.toList_append, List.mem_append, List.mem_append]
  rintro ((h | h) | h)
  · exact absurd h (by decide)
  · exact absurd (isIdentifierChar_of_mem_sanitize h) (by decide)
  · exact absurd h (by decide)

theorem marker_of_label {n : Node} {f : Flags} (hf : f.label = true) :
    marker n f = "\n" ++ markerLine n.label := by
  unfold marker markerLine
  rw [if_pos hf, ← String.append_assoc, ← String.append_assoc]
  rfl

theorem contains_marker {n : Node} {f : Flags} (hf : f.label = true) :
    contains (marker n f) (markerLine n.label) = true := by
  rw [marker_of_label hf]
  exact contains_append_right _ (contains_iff.mpr List.infix_rfl)

theorem Flags.label_inside {f : Flags} {k : Kind} (hf : f.label = true)
    (hk : k.isContainer = true) : (f.inside k).label = true := by
  cases k <;> first | exact hf | rfl | simp [Kind.isContainer] at hk

theorem contains_frame {frame : Frame} {code needle : String} {codes : List String}
    (hline : '\n' ∉ needle.toList) (hcode : code ∈ codes) (h : contains code needle = true) :
    contains (frame.code codes) needle = true := by
  have hjoin : contains (String.join (if frame.indented then codes.map indent else codes)) needle =
      true := by
    split
    · exact contains_join (List.mem_map_of_mem hcode) (contains_indent hline h)
    · exact contains_join hcode h
  unfold Frame.code
  exact contains_append_left _ (contains_append_right _ hjoin)

namespace Surroundings

variable {s : Surroundings} {id m : NodeId} {n : Node} {f : Flags}

theorem feature_ne_nothing (p : Feature) (pocket : Bool) : s.feature f p pocket ≠ .nothing := by
  unfold feature
  split
  · split <;> exact nofun
  · exact nofun

/-- A body without a tip is all that has no code and no marker. -/
theorem plan_ne_nothing (hbody : ∀ tip, n.kind ≠ .body tip) : s.plan id n f ≠ .nothing := by
  unfold plan
  cases hk : n.kind with
  | array a =>
    dsimp only
    cases hl : s.document.hasLoops a with
    | true =>
      obtain ⟨base, loop, _, ha, _⟩ := array_of_hasLoops (s := s) (n := n) (f := f) hl
      rw [ha]
      exact nofun
    | false =>
      rw [array_of_not_hasLoops hl]
      exact nofun
  | extrusion e =>
    dsimp only
    unfold extrusion simple
    split
    · split <;> exact nofun
    · exact nofun
  | pad p => exact feature_ne_nothing p false
  | pocket p => exact feature_ne_nothing p true
  | body tip => exact absurd hk (hbody tip)
  | _ => exact nofun

theorem exists_frame_of_mem_steps (hn : s.document.get? id = some n) (f : Flags)
    (hm : m ∈ s.document.steps id n) :
    ∃ frame, s.plan id n f = .framed frame ∧ ⟨m, f.inside n.kind⟩ ∈ frame.steps := by
  obtain ⟨ids, hsteps, hids⟩ := plan_steps_eq hn f
  have hstep : ⟨m, f.inside n.kind⟩ ∈ (s.plan id n f).steps := by
    rw [hsteps]
    exact List.mem_map_of_mem (List.mem_of_mem_filter (hids ▸ hm))
  cases hp : s.plan id n f with
  | framed frame => exact ⟨frame, rfl, by rwa [hp] at hstep⟩
  | nothing =>
    rw [hp] at hstep
    cases hstep
  | tessellated =>
    rw [hp] at hstep
    cases hstep

end Surroundings

namespace Workshop

variable {w : Workshop} {path : List NodeId} {l l' : Ledger} {visits : List Visit} {a v : NodeId}
  {n : Node} {f : Flags}

theorem Runs.contains_marker {code : String} (h : w.Runs path [⟨v, f⟩] l visits [code] l')
    (hv : w.document.get? v = some n) (hbody : ∀ tip, n.kind ≠ .body tip) (hf : f.label = true) :
    contains code (markerLine n.label) = true ∧ ∃ x ∈ visits, x.id = v ∧ x.flags.label = true := by
  cases h with
  | gone hn hd => exact absurd (hn.symm.trans hv) nofun
  | nothing he hp hd =>
    obtain rfl := Option.some.inj (he.found.symm.trans hv)
    exact absurd hp (Surroundings.plan_ne_nothing hbody)
  | meshed he hp ht hd =>
    obtain rfl := Option.some.inj (he.found.symm.trans hv)
    exact ⟨contains_append_left _ (Sdl.contains_marker hf), _, List.mem_cons_self, rfl, hf⟩
  | framed he hp hin hd =>
    obtain rfl := Option.some.inj (he.found.symm.trans hv)
    exact ⟨contains_append_left _ (Sdl.contains_marker hf), _, List.mem_cons_self, rfl, hf⟩

/-- The marker of a node is in the code of everything that shows it. -/
theorem Runs.contains_marker_of_shows {code : String}
    (h : w.Runs path [⟨a, f⟩] l visits [code] l') (hshows : ReflTransGen w.document.Shows a v)
    (hv : w.document.get? v = some n) (hbody : ∀ tip, n.kind ≠ .body tip) (hf : f.label = true) :
    contains code (markerLine n.label) = true ∧ ∃ x ∈ visits, x.id = v ∧ x.flags.label = true := by
  induction hshows using ReflTransGen.head_induction_on generalizing path f l visits code l' with
  | refl => exact h.contains_marker hv hbody hf
  | @head a b hab _ ih =>
    obtain ⟨m, hm, hcontainer, hb⟩ := hab
    obtain ⟨frame, hframe, hstep⟩ := Surroundings.exists_frame_of_mem_steps hm f hb
    cases h with
    | gone hn hd => exact absurd (hn.symm.trans hm) nofun
    | nothing he hp hd =>
      obtain rfl := Option.some.inj (he.found.symm.trans hm)
      exact absurd (hp.symm.trans hframe) nofun
    | meshed he hp ht hd =>
      obtain rfl := Option.some.inj (he.found.symm.trans hm)
      exact absurd (hp.symm.trans hframe) nofun
    | framed he hp hin hd =>
      obtain rfl := Option.some.inj (he.found.symm.trans hm)
      cases hp.symm.trans hframe
      obtain ⟨l₀, l₁, own, inner, hown, hsub, hinner⟩ := hin.of_mem hstep
      obtain ⟨hcode, x, hx, hid, hlabel⟩ := ih hown (Flags.label_inside hf hcontainer)
      refine ⟨contains_append_right _ ?_, x, ?_, hid, hlabel⟩
      · exact contains_frame (newline_not_mem_markerLine n.label) hinner hcode
      · exact List.mem_cons_of_mem _ (List.mem_append_left _ (hsub hx))

end Workshop

end Sdl

section Scenes

variable {t : Tessellator} {earlier requests : List Request} {c : Context} {d : Document}
  {a : Artifacts} {v : NodeId} {n : Node}

open Sdl

theorem contains_codes {withMeshes : Bool} {code : String} {codes : List String}
    (hscene : a.scene = sceneHead c withMeshes ++ String.join codes) (hcode : code ∈ codes) :
    contains a.scene code = true := by
  rw [hscene]
  exact contains_append_right _ (contains_join hcode (contains_iff.mpr List.infix_rfl))

/-- No visible object is lost. If everything around a listed node is a visible part, folder or
boolean, and no children lead from there back to it, then the node is marked in the scene: it is a
root, or a part that is a root has its code inside. -/
theorem visible_object_is_marked (h : assemble t earlier c d = (.ok a, requests))
    (hv : (v, n) ∈ d.entries) (hvisible : n.visible = true) (hgroup : n.kind.isGroup = false)
    (hbody : ∀ tip, n.kind ≠ .body tip)
    (haround : ∀ b, TransGen d.HasChild b v →
      (∃ m, d.get? b = some m ∧ m.visible = true ∧ m.kind.isContainer = true) ∧
        ¬TransGen d.HasChild b b) :
    contains a.scene ("//----- " ++ sanitize n.label ++ " -----") = true ∧
      ∃ r ∈ d.roots,
        (r = v ∨ (∃ m, d.get? r = some m ∧ m.kind = .part) ∧ TransGen d.Shows r v) ∧
        ∃ code l l' visits, (Workshop.assembling t c d).Runs [] [⟨r, Flags.all⟩] l visits
          [code] l' ∧ contains a.scene code = true ∧
          contains code ("//----- " ++ sanitize n.label ++ " -----") = true ∧
          ∃ x ∈ visits, x.id = v ∧ x.flags.label = true := by
  have henclosed : d.IsEnclosed v := by
    intro b m hb hm
    obtain ⟨⟨m', hm', hshown⟩, hcycle⟩ := haround b hb
    obtain rfl := Option.some.inj (hm.symm.trans hm')
    exact ⟨hshown.1, hshown.2, fun _ => hcycle⟩
  obtain ⟨r, hr, hcovers⟩ := henclosed.covered hv hvisible hgroup
  have hshows : ReflTransGen (c.repaired d).Shows r v := by
    rw [Document.shows_repaired]
    rcases hcovers with rfl | ⟨_, hchain⟩
    · exact .refl
    · exact hchain.to_reflTransGen
  obtain ⟨visits, codes, l', hruns, hscene, _⟩ := Workshop.runs_of_assemble h
  have hstep : ⟨r, Flags.all⟩ ∈ (Workshop.assembling t c d).rootSteps := by
    rw [Workshop.rootSteps_assembling]
    exact List.mem_map_of_mem hr
  obtain ⟨l₀, l₁, own, code, hown, _, hcode⟩ := hruns.of_mem hstep
  have hmended : (c.repaired d).get? v = some (c.mend n) := by
    rw [c.get?_repaired_eq, (Document.mem_entries_iff.mp hv).2]
    rfl
  have hmarked := hown.contains_marker_of_shows hshows hmended (by simpa using hbody) rfl
  rw [c.mend_label] at hmarked
  have hwritten := contains_codes hscene hcode
  refine ⟨?_, r, hr, hcovers, code, l₀, l₁, own, hown, hwritten, hmarked⟩
  exact contains_iff.mpr ((contains_iff.mp hmarked.1).trans (contains_iff.mp hwritten))

/-- The box of a boolean in a part is no root, and its marker is in the scene. -/
theorem box_in_part_is_marked :
    let nodes := [Node.ofKind "Box" (.box 1 1 1),
      { Node.ofKind "Fusion" (.boolean .fuse) with children := [⟨1, 0⟩] },
      { Node.ofKind "Part" .part with children := [⟨2, 0⟩] }]
    let d := nodes.foldl Document.add Document.empty
    let c := Context.bare Settings.standard Camera.standard
    d.roots = [⟨3, 0⟩] ∧ ∃ a requests, assemble .primitive [] c d = (.ok a, requests) ∧
      contains a.scene "//----- Box -----" = true := by
  intro nodes d c
  have hlive : d.liveIds = [⟨1, 0#31⟩, ⟨2, 0#31⟩, ⟨3, 0#31⟩] := rfl
  have hparents : d.parents ⟨1, 0#31⟩ = [⟨2, 0#31⟩] ∧ d.parents ⟨2, 0#31⟩ = [⟨3, 0#31⟩] ∧
      d.parents ⟨3, 0#31⟩ = [] := ⟨rfl, rfl, rfl⟩
  have hancestors : d.ancestors ⟨1, 0⟩ = [⟨2, 0⟩, ⟨3, 0⟩] ∧ d.ancestors ⟨2, 0⟩ = [⟨3, 0⟩] ∧
      d.ancestors ⟨3, 0⟩ = [] := by
    simp [Document.ancestors, hlive, hparents, walk]
  obtain ⟨hbox, hfusion, hpart⟩ := hancestors
  have hroots : d.roots = [⟨3, 0⟩] := by
    change [(⟨1, 0⟩ : NodeId), ⟨2, 0⟩, ⟨3, 0⟩].filter (fun id => !d.isOwned id) = _
    simp only [Document.isOwned, Document.hasAncestor, List.filter_cons, hbox, hfusion, hpart]
    rfl
  have hrun : ∃ visits codes l', (Workshop.assembling .primitive c d).Runs []
      [⟨⟨3, 0⟩, Flags.all⟩] ⟨[], MeshFile.empty⟩ visits codes l' :=
    ⟨_, _, _, .framed ⟨rfl, by simp, by decide⟩ rfl (.framed ⟨rfl, by decide, by decide⟩ rfl
      (.framed ⟨rfl, by decide, by decide⟩ rfl .done .done) .done) .done⟩
  have hsteps : (Workshop.assembling .primitive c d).rootSteps = [⟨⟨3, 0⟩, Flags.all⟩] := by
    rw [Workshop.rootSteps_assembling, hroots]
    rfl
  rw [← hsteps] at hrun
  obtain ⟨visits, codes, l', hruns⟩ := hrun
  obtain ⟨a, h⟩ := Workshop.assemble_of_runs hruns
  have hkind : ∀ tip, (Kind.box 1 1 1) ≠ .body tip := by
    intro tip hbody
    cases hbody
  obtain ⟨hmarked, _⟩ := visible_object_is_marked h (v := ⟨1, 0⟩) List.mem_cons_self rfl rfl hkind
    fun b hb => by
      rw [← Document.mem_ancestors_iff, hbox] at hb
      rw [← Document.mem_ancestors_iff]
      rcases List.mem_cons.mp hb with rfl | hb
      · exact ⟨⟨_, rfl, rfl, rfl⟩, by rw [hfusion]; decide⟩
      · rw [List.mem_singleton.mp hb]
        exact ⟨⟨_, rfl, rfl, rfl⟩, by rw [hpart]; decide⟩
  exact ⟨hroots, a, l'.requests, h, hmarked⟩

end Scenes

end RayScene
