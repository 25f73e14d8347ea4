import Mathlib.Data.List.Forall2
import RayScene.Proofs.Compilation.Depth
import RayScene.Proofs.Compilation.Locality
/-!
Flags that only leave out text. Whether meshes are declared is all that a step tells its inner steps
apart from text, so two runs that agree on this visit the same nodes, ask for the same meshes and
declare them.
-/
set_option autoImplicit false

namespace RayScene.Sdl

/-- Steps to the same nodes in the same order, which agree on whether to declare meshes. -/
def StepsAlike : List Step → List Step → Prop :=
  List.Forall₂ fun s s' => s'.node = s.node ∧ s'.flags.meshDef = s.flags.meshDef

inductive Plan.Alike : Plan → Plan → Prop
  | nothing : Plan.Alike .nothing .nothing
  | tessellated : Plan.Alike .tessellated .tessellated
  | framed {a b : Frame} : StepsAlike a.steps b.steps → Plan.Alike (.framed a) (.framed b)

theorem Plan.Alike.eq_nothing {p : Plan} (h : Plan.Alike .nothing p) : p = .nothing := by
  cases h
  rfl

theorem Plan.Alike.eq_tessellated {p : Plan} (h : Plan.Alike .tessellated p) :
    p = .tessellated := by
  cases h
  rfl

theorem Plan.Alike.exists_frame {a : Frame} {p : Plan} (h : Plan.Alike (.framed a) p) :
    ∃ b, p = .framed b ∧ StepsAlike a.steps b.steps := by
  cases h with
  | framed hsteps => exact ⟨_, rfl, hsteps⟩

variable {f f' g g' : Flags}

theorem stepsAlike_map (h : g'.meshDef = g.meshDef) (ids : List NodeId) :
    StepsAlike (ids.map (⟨·, g⟩)) (ids.map (⟨·, g'⟩)) := by
  induction ids with
  | nil => exact .nil
  | cons id ids ih => exact .cons ⟨rfl, h⟩ ih

theorem stepsAlike_singleton (id : NodeId) (h : g'.meshDef = g.meshDef) :
    StepsAlike [⟨id, g⟩] [⟨id, g'⟩] := .cons ⟨rfl, h⟩ .nil

namespace Surroundings

variable {s : Surroundings} {id : NodeId} {n : Node}

theorem simple_alike (code code' : String) : (s.simple n f code).Alike (s.simple n f' code') :=
  .framed .nil

theorem container_alike (h : f'.meshDef = f.meshDef) :
    (s.container n f).Alike (s.container n f') := by
  refine .framed (stepsAlike_map ?_ _)
  exact h

theorem array_alike (h : f'.meshDef = f.meshDef) (a : NodeArray) :
    (s.array n f a).Alike (s.array n f' a) := by
  unfold array
  cases s.document.get? a.base with
  | none => exact .tessellated
  | some base =>
    cases a.layout with
    | polar p =>
      dsimp only
      split
      · exact .tessellated
      · refine .framed (stepsAlike_singleton a.base ?_)
        exact h
    | ortho o =>
      refine .framed (stepsAlike_singleton a.base ?_)
      rfl
    | other t => exact .tessellated

theorem extrusion_alike (e : Extrusion) : (s.extrusion n f e).Alike (s.extrusion n f' e) := by
  unfold extrusion
  split
  · split
    · exact simple_alike _ _
    · exact .tessellated
  · exact .tessellated

theorem feature_alike (p : Feature) (pocket : Bool) :
    (s.feature f p pocket).Alike (s.feature f' p pocket) := by
  unfold feature
  split
  · split
    · exact .framed (stepsAlike_map rfl p.baseFeature.toList)
    · exact .tessellated
  · exact .tessellated

theorem body_alike (tip : Option NodeId) : (s.body id n f tip).Alike (s.body id n f' tip) := by
  unfold body
  split
  · cases tip with
    | none => exact .nothing
    | some tip => exact .framed (stepsAlike_singleton tip rfl)
  · exact .tessellated

theorem plan_alike (h : f'.meshDef = f.meshDef) (s : Surroundings) (id : NodeId) (n : Node) :
    (s.plan id n f).Alike (s.plan id n f') := by
  unfold plan
  cases n.kind with
  | boolean op =>
    refine .framed (stepsAlike_map ?_ _)
    exact h
  | part => exact container_alike h
  | group => exact container_alike h
  | array a => exact array_alike h a
  | clone sources scale => exact .framed (stepsAlike_map rfl _)
  | extrusion e => exact extrusion_alike e
  | pad p => exact feature_alike p false
  | pocket p => exact feature_alike p true
  | body tip => exact body_alike tip
  | sketch _ => exact .tessellated
  | datum _ => exact .tessellated
  | mesh _ => exact .tessellated
  | other _ => exact .tessellated
  | _ => exact simple_alike _ _

end Surroundings

section Growth

variable (l : Ledger) (requests : List Request) (blocks : List MeshBlock)

theorem Ledger.text_extended : (l.extended requests blocks).meshes.text =
    l.meshes.text ++ String.join (blocks.map MeshBlock.text) := by
  simp [extended, MeshFile.text]

theorem Ledger.isDeclared_extended (x : String) :
    (l.extended requests blocks).meshes.isDeclared x = true ↔
      l.meshes.isDeclared x = true ∨ ∃ b ∈ blocks, b.ident = x := by
  simp only [MeshFile.isDeclared_iff, extended, List.mem_append, or_and_right, exists_or]

end Growth

namespace Workshop

variable {w : Workshop} {path : List NodeId} {id : NodeId} {n : Node} {steps steps' : List Step}
  {s s' : Step} {l l₁ : Ledger} {visits : List Visit} {codes : List String} {e : CompileError}

theorem tessellated_alike {code : String} (h : f'.meshDef = f.meshDef)
    (ht : (w.tessellated id n f).run l = (code, l₁)) :
    ∃ code', (w.tessellated id n f').run l = (code', l₁) := by
  suffices hledger : ((w.tessellated id n f').run l).2 = ((w.tessellated id n f).run l).2 by
    rw [ht] at hledger
    exact ⟨_, Prod.ext rfl hledger⟩
  rw [tessellated_run, tessellated_run, h]
  cases f.meshDef with
  | false => simp only [Bool.false_eq_true, if_false]
  | true =>
    simp only [if_true]
    cases (w.meshOf? id n).run l with
    | mk m? l₁ =>
      cases m? with
      | none => rfl
      | some m => cases hempty : m.isEmpty <;> simp [hempty]

theorem Enters.alike (h : w.Enters path s n) (hs : s'.node = s.node) : w.Enters path s' n :=
  ⟨hs ▸ h.found, hs ▸ h.fresh, h.room⟩

/-- Whatever a run does to the ledger, the run of alike steps does to it, too. -/
theorem Runs.alike (h : w.Runs path steps l visits codes l₁) (hs : StepsAlike steps steps') :
    ∃ visits' codes', w.Runs path steps' l visits' codes' l₁ := by
  induction h generalizing steps' with
  | done =>
    cases hs
    exact ⟨_, _, .done⟩
  | gone hn _ ih =>
    cases hs with
    | cons hfirst hrest =>
      obtain ⟨visits', codes', hr⟩ := ih hrest
      exact ⟨_, _, .gone (hfirst.1 ▸ hn) hr⟩
  | nothing he hp _ ih =>
    cases hs with
    | cons hfirst hrest =>
      obtain ⟨visits', codes', hr⟩ := ih hrest
      have hp' := (hp ▸ Surroundings.plan_alike hfirst.2 w.toSurroundings _ _).eq_nothing
      exact ⟨_, _, .nothing (he.alike hfirst.1) (hfirst.1 ▸ hp') hr⟩
  | meshed he hp ht _ ih =>
    cases hs with
    | cons hfirst hrest =>
      obtain ⟨visits', codes', hr⟩ := ih hrest
      have hp' := (hp ▸ Surroundings.plan_alike hfirst.2 w.toSurroundings _ _).eq_tessellated
      obtain ⟨code', ht'⟩ := tessellated_alike hfirst.2 ht
      exact ⟨_, _, .meshed (he.alike hfirst.1) (hfirst.1 ▸ hp') (hfirst.1 ▸ ht') hr⟩
  | framed he hp _ _ ihin ih =>
    cases hs with
    | cons hfirst hrest =>
      obtain ⟨visits', codes', hr⟩ := ih hrest
      obtain ⟨frame', hp', hsteps⟩ :=
        (hp ▸ Surroundings.plan_alike hfirst.2 w.toSurroundings _ _).exists_frame
      obtain ⟨within', inner', hin⟩ := ihin hsteps
      exact ⟨_, _, .framed (he.alike hfirst.1) (hfirst.1 ▸ hp') (hfirst.1 ▸ hin) hr⟩

theorem Runs.alike_singleton {code : String} (h : w.Runs path [s] l visits [code] l₁)
    (hs : s'.node = s.node ∧ s'.flags.meshDef = s.flags.meshDef) :
    ∃ visits' code', w.Runs path [s'] l visits' [code'] l₁ := by
  obtain ⟨visits', codes', hr⟩ := h.alike (.cons hs .nil)
  obtain ⟨code', rfl⟩ := List.length_eq_one_iff.mp hr.length_codes
  exact ⟨visits', code', hr⟩

theorem Fails.alike (h : w.Fails path steps l e l₁) (hs : StepsAlike steps steps') :
    w.Fails path steps' l e l₁ := by
  induction h generalizing steps' with
  | cycle hn hp =>
    cases hs with
    | cons hfirst _ => exact .cycle (hfirst.1 ▸ hn) (hfirst.1 ▸ hp)
  | tooDeep hn hp hd =>
    cases hs with
    | cons hfirst _ => exact .tooDeep (hfirst.1 ▸ hn) (hfirst.1 ▸ hp) hd
  | inside he hp _ ih =>
    cases hs with
    | cons hfirst _ =>
      obtain ⟨frame', hp', hsteps⟩ :=
        (hp ▸ Surroundings.plan_alike hfirst.2 w.toSurroundings _ _).exists_frame
      exact .inside (he.alike hfirst.1) (hfirst.1 ▸ hp') (hfirst.1 ▸ ih hsteps)
  | later hr _ ih =>
    cases hs with
    | cons hfirst hrest =>
      obtain ⟨visits', code', hr'⟩ := hr.alike_singleton hfirst
      exact .later hr' (ih hrest)

theorem compile_alike (h : f'.meshDef = f.meshDef) (w : Workshop) (id : NodeId) (l : Ledger) :
    (∃ code code' l₁, (w.compile id f).run.run l = (.ok code, l₁) ∧
        (w.compile id f').run.run l = (.ok code', l₁)) ∨
      ∃ e l₁, (w.compile id f).run.run l = (.error e, l₁) ∧
        (w.compile id f').run.run l = (.error e, l₁) := by
  have hs := stepsAlike_singleton id h
  rcases compile_ok_or_error w id f l with ⟨code, l₁, hc⟩ | ⟨e, l₁, hc⟩
  · obtain ⟨visits, hr⟩ := compile_eq_ok_iff.mp hc
    have halike : (⟨id, f'⟩ : Step).node = id ∧ (⟨id, f'⟩ : Step).flags.meshDef = f.meshDef :=
      ⟨rfl, h⟩
    obtain ⟨visits', code', hr'⟩ := hr.alike_singleton halike
    exact .inl ⟨code, code', l₁, hc, compile_eq_ok_iff.mpr ⟨visits', hr'⟩⟩
  · exact .inr ⟨e, l₁, hc, compile_eq_error_iff.mpr ((compile_eq_error_iff.mp hc).alike hs)⟩

theorem ledger_of_compile {r : Except CompileError String}
    (h : (w.compile id f).run.run l = (r, l₁)) :
    ∃ requests blocks, l₁ = l.extended requests blocks := by
  have hbelow : w.document.AgreeBelow w.document id := fun _ _ => rfl
  have hmeshes : l.meshes = l.meshes := rfl
  obtain ⟨result, requests, blocks, hc, _⟩ :=
    compile_grown w w hbelow rfl hmeshes (fun _ _ _ _ => rfl) f
  rw [h] at hc
  exact ⟨requests, blocks, congrArg Prod.snd hc⟩

/-- Of the flags, only the one for declaring meshes has an effect besides the code. Flags that agree
on it succeed together or fail together with the same error, and both ask the tessellator for the
same meshes in the same order, add the same text to the mesh file, and declare the same names. -/
theorem text_flags_have_no_effect (h : f'.meshDef = f.meshDef) (w : Workshop) (id : NodeId)
    (l : Ledger) :
    ∃ requests blocks, let l₁ := l.extended requests blocks
      l₁.requests = l.requests ++ requests ∧
      l₁.meshes.text = l.meshes.text ++ String.join (blocks.map MeshBlock.text) ∧
      (∀ x, l₁.meshes.isDeclared x = true ↔
        l.meshes.isDeclared x = true ∨ ∃ b ∈ blocks, b.ident = x) ∧
      ((∃ code code', (w.compile id f).run.run l = (.ok code, l₁) ∧
          (w.compile id f').run.run l = (.ok code', l₁)) ∨
        ∃ e, (w.compile id f).run.run l = (.error e, l₁) ∧
          (w.compile id f').run.run l = (.error e, l₁)) := by
  rcases compile_alike h w id l with ⟨code, code', l₁, hc, hc'⟩ | ⟨e, l₁, hc, hc'⟩
  · obtain ⟨requests, blocks, rfl⟩ := ledger_of_compile hc
    exact ⟨requests, blocks, rfl, l.text_extended requests blocks,
      l.isDeclared_extended requests blocks, .inl ⟨code, code', hc, hc'⟩⟩
  · obtain ⟨requests, blocks, rfl⟩ := ledger_of_compile hc
    exact ⟨requests, blocks, rfl, l.text_extended requests blocks,
      l.isDeclared_extended requests blocks, .inr ⟨e, hc, hc'⟩⟩

/-- A bare array of a wire asks for the wire once and declares it, as the array with all its texts
does. -/
theorem compile_array_of_wires :
    let nodes := [Node.ofKind "Wire" (.other "Part::Feature"),
      Node.ofKind "Array" (.array ⟨⟨1, 0⟩, .ortho default⟩)]
    let w := { Workshop.standard nodes with tessellator := ShapeBook.tessellator ⟨[], [], []⟩ }
    let full := { Flags.all with meshDef := false }
    full.meshDef = Flags.none.meshDef ∧
      ∃ code code' l₁, (w.compile ⟨2, 0⟩ Flags.none).run.run Ledger.empty = (.ok code, l₁) ∧
        (w.compile ⟨2, 0⟩ full).run.run Ledger.empty = (.ok code', l₁) ∧
        l₁.requests.length = 1 ∧ l₁.meshes.isDeclared "Wire_mesh" = true := by
  intro nodes w full
  have hrun : ∃ code l₁, (w.compile ⟨2, 0⟩ Flags.none).run.run Ledger.empty = (.ok code, l₁) ∧
      l₁.requests.length = 1 ∧ l₁.meshes.isDeclared "Wire_mesh" = true :=
        ⟨_, _, rfl, rfl, by decide⟩
  obtain ⟨code, l₁, hc, hrequests, hdeclared⟩ := hrun
  have hflags : full.meshDef = Flags.none.meshDef := rfl
  obtain ⟨_, _, _, _, _, ⟨_, code', hok, hok'⟩ | ⟨_, herror, _⟩⟩ :=
    text_flags_have_no_effect hflags w ⟨2, 0⟩ Ledger.empty
  · cases hc.symm.trans hok
    exact ⟨hflags, code, code', _, hc, hok', hrequests, hdeclared⟩
  · cases hc.symm.trans herror

end Workshop

end RayScene.Sdl
