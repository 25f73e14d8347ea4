import RayScene.Proofs.Directives.Frames
/-!
Directives in whole runs. The only directive that can be swallowed is the first one behind the base
of a grid, and it is when the base has no code.
-/
set_option autoImplicit false

namespace RayScene.Directives

open Sdl Sdl.Workshop Loops

section Runs

variable {w : Workshop} {path : List NodeId} {n : Node} {frame : Frame} {steps : List Step}
  {l l' : Ledger} {v : Visit} {visits : List Visit} {c : String} {codes inner : List String}
  {grid : Bool}

theorem isBare_empty : IsBare "" := ⟨default, Flags.none, rfl⟩

theorem Leads.of_bare {k : Bool} (h : IsBare c) : Leads k false c := by
  obtain ⟨n, f, rfl⟩ := h
  exact .of_hashFree (hashFree_marker n f)

def Finished (c : String) : Prop := IsBare c ∨ Leads false true c

theorem Finished.leads (h : Finished c) : Leads false false c := h.elim .of_bare .forget

/-- Around steps that are led a frame is led, and around the base of a grid if that ends with its
line. -/
theorem Guides.leads (h : Guides frame grid) (hinner : ∀ c ∈ inner, Finished c)
    (hgrid : grid = true → ∃ c, inner = [c] ∧ ¬IsBare c) : Leads false true (frame.code inner) := by
  have hjoin : Leads false grid (String.join inner) := by
    cases grid with
    | false => exact leads_join fun c hc => (hinner c hc).leads
    | true =>
      obtain ⟨c, rfl, hbare⟩ := hgrid rfl
      rw [String.join_cons, String.join_nil, String.append_empty]
      exact (hinner c (List.mem_singleton_self c)).resolve_left hbare
  have hsteps := join_of_indent (fun _ => .indent) hjoin frame.indented
  exact (h.before.append hsteps).append h.after

theorem inner_of_grid (hin : w.Runs path frame.steps l visits inner l') (h : Abuts frame) :
    ∃ c, inner = [c] :=
  List.length_eq_one_iff.mp (hin.length_codes.trans h.single)

theorem finished_codes (h : w.Runs path steps l visits codes l')
    (himages : HashFreeImages w.document)
    (hgrids : ∀ v ∈ visits, w.document.hasOrthoLoops v.met = true → ∀ c ∈ v.inner, ¬IsBare c) :
    ∀ c ∈ codes, Finished c := by
  induction h with
  | done => nofun
  | gone _ _ ih => exact List.forall_mem_cons.mpr ⟨.inl isBare_empty, ih hgrids⟩
  | nothing _ _ _ ih =>
    obtain ⟨_, hrest⟩ := List.forall_mem_cons.mp hgrids
    exact List.forall_mem_cons.mpr ⟨.inl isBare_empty, ih hrest⟩
  | @meshed _ s _ n _ _ _ _ code _ _ _ ht _ ih =>
    obtain ⟨_, hrest⟩ := List.forall_mem_cons.mp hgrids
    refine List.forall_mem_cons.mpr ⟨?_, ih hrest⟩
    rcases tessellated_code ht with rfl | rfl
    · rw [String.append_empty]
      exact .inl ⟨n, s.flags, rfl⟩
    · have hmesh : Leads false true (w.meshReference n s.flags) :=
        (Leads.of_hashFree (unmarked_meshReference n s.flags).hashFree).endsLine
          (endsLine_meshReference n s.flags)
      exact .inr ((Leads.of_hashFree (hashFree_marker n s.flags)).append hmesh)
  | @framed _ s _ n frame _ _ _ within visits inner _ he hp hin _ ihin ih =>
    obtain ⟨hfirst, hmore⟩ := List.forall_mem_cons.mp hgrids
    obtain ⟨hwithin, hrest⟩ := List.forall_mem_append.mp hmore
    refine List.forall_mem_cons.mpr ⟨.inr ?_, ih hrest⟩
    have hframe := guides_of_plan hp (himages s.node n · · · he.found)
    refine (Leads.of_hashFree (hashFree_marker n s.flags)).append
      (hframe.leads (ihin hwithin) fun hgrid => ?_)
    obtain ⟨c, rfl⟩ := inner_of_grid hin (abuts_of_grid hp hgrid)
    exact ⟨c, rfl, hfirst hgrid c (List.mem_singleton_self c)⟩

theorem swallows_frame (hc : c ∈ inner) (h : Swallows c) : Swallows (frame.code inner) := by
  have hsteps := join_of_indent (fun _ => .indent) (swallows_join hc h) frame.indented
  exact (hsteps.append_left _).append_right _

theorem swallows_codes (h : w.Runs path steps l visits codes l') (hv : v ∈ visits)
    (hgrid : w.document.hasOrthoLoops v.met = true) (hc : c ∈ v.inner) (hbare : IsBare c) :
    ∃ code ∈ codes, Swallows code := by
  have hlater : ∀ {first : String} {more : List String}, (∃ code ∈ more, Swallows code) →
      ∃ code ∈ first :: more, Swallows code :=
    fun ⟨code, hcode, hs⟩ => ⟨code, List.mem_cons_of_mem _ hcode, hs⟩
  induction h with
  | done => cases hv
  | gone _ _ ih => exact hlater (ih hv)
  | nothing _ _ _ ih =>
    rcases List.mem_cons.mp hv with rfl | hv
    · cases hc
    · exact hlater (ih hv)
  | meshed _ _ _ _ ih =>
    rcases List.mem_cons.mp hv with rfl | hv
    · cases hc
    · exact hlater (ih hv)
  | @framed _ s _ n frame _ _ _ within _ inner _ he hp hin _ ihin ih =>
    rcases List.mem_cons.mp hv with rfl | hv
    · have habuts := abuts_of_grid hp hgrid
      obtain ⟨c', rfl⟩ := inner_of_grid hin habuts
      obtain rfl := List.mem_singleton.mp hc
      exact ⟨_, List.mem_cons_self, (habuts.swallows hbare).append_left _⟩
    rcases List.mem_append.mp hv with hv | hv
    · obtain ⟨code, hcode, hs⟩ := ihin hv
      exact ⟨_, List.mem_cons_self, (swallows_frame hcode hs).append_left _⟩
    · exact hlater (ih hv)

/-- Every directive of a code has only tabs before it on its line, if no grid that is met has a base
without code. The first directive behind such a base is on the line of another one, or of the
marker, which is a comment. -/
theorem led_iff_bases_have_code {id : NodeId} {f : Flags} {code : String}
    (himages : HashFreeImages w.document)
    (h : (w.compile id f).run.run l = (.ok code, l')) :
    ∃ visits, w.Runs [] [⟨id, f⟩] l visits [code] l' ∧
      (Led code.toList ↔
        ∀ v ∈ visits, w.document.hasOrthoLoops v.met = true → ∀ c ∈ v.inner, ¬IsBare c) := by
  obtain ⟨visits, hr⟩ := compile_eq_ok_iff.mp h
  refine ⟨visits, hr, fun hled v hv hgrid c hc hbare => ?_, fun hgrids => ?_⟩
  · obtain ⟨code', hcode, hs⟩ := swallows_codes hr hv hgrid hc hbare
    obtain rfl := List.mem_singleton.mp hcode
    exact hs.not_led hled
  · have hfinished := finished_codes hr himages hgrids code (List.mem_singleton_self code)
    exact (Leads.anywhere hfinished.leads).led

end Runs

section Samples

/-- A grid of a box. -/
theorem led_grid_of_boxes :
    let w := Workshop.standard [Node.ofKind "Box" (.box 1 1 1),
      Node.ofKind "Grid" (.array ⟨⟨1, 0⟩, .ortho default⟩)]
    ∃ code l', (w.compile ⟨2, 0⟩ Flags.all).run.run Ledger.empty = (.ok code, l') ∧
      Led code.toList := by
  intro w
  have himages : HashFreeImages w.document := .of_foldl_add (by simp [Node.ofKind])
  have hrun : ∃ visits code l', w.Runs [] [⟨⟨2, 0⟩, Flags.all⟩] Ledger.empty visits [code] l' ∧
      ∀ v ∈ visits, w.document.hasOrthoLoops v.met = true → ∀ c ∈ v.inner, ¬IsBare c := by
    refine ⟨_, _, _, .framed ⟨rfl, by simp, by decide⟩ rfl
      (.framed ⟨rfl, by decide, by decide⟩ rfl .done .done) .done, ?_⟩
    have hplan : w.plan ⟨1, 0⟩ (Node.ofKind "Box" (.box 1 1 1)) Flags.all = .framed _ := rfl
    have hbox := inert_of_plan hplan (fun _ hk => by cases hk) fun _ _ _ hk => by cases hk
    refine List.forall_mem_cons.mpr
      ⟨fun _ => ?_, List.forall_mem_singleton.mpr (absurd · (by decide))⟩
    exact List.forall_mem_singleton.mpr (not_isBare_of_endsLine ((hbox.ends.append _).append _))
  obtain ⟨visits, code, l', hr, hgrids⟩ := hrun
  have h := compile_eq_ok_iff.mpr ⟨visits, hr⟩
  obtain ⟨_, hr', hiff⟩ := led_iff_bases_have_code himages h
  rw [(hr.unique hr').1] at hgrids
  exact ⟨code, l', h, hiff.mpr hgrids⟩

/-- The first directive of a grid of a wire without a mesh is behind the marker of the wire. -/
theorem unled_grid_of_wires :
    let w := Workshop.standard [Node.ofKind "Wire" (.other "Part::Feature"),
      Node.ofKind "Grid" (.array ⟨⟨1, 0⟩, .ortho default⟩)]
    ∃ code l', (w.compile ⟨2, 0⟩ Flags.all).run.run Ledger.empty = (.ok code, l') ∧
      ¬Led code.toList := by
  intro w
  have hrun : ∃ visits code l', w.Runs [] [⟨⟨2, 0⟩, Flags.all⟩] Ledger.empty visits [code] l' ∧
      ∃ v ∈ visits, w.document.hasOrthoLoops v.met = true ∧ ∃ c ∈ v.inner, IsBare c := by
    refine ⟨_, _, _, .framed ⟨rfl, by simp, by decide⟩ rfl
      (.meshed ⟨rfl, by decide, by decide⟩ rfl rfl .done) .done, _, List.mem_cons_self, rfl, _,
      List.mem_cons_self, ?_⟩
    exact ⟨_, _, String.append_empty⟩
  obtain ⟨visits, code, l', hr, v, hv, hgrid, c, hc, hbare⟩ := hrun
  obtain ⟨_, hcode, hs⟩ := swallows_codes hr hv hgrid hc hbare
  obtain rfl := List.mem_singleton.mp hcode
  exact ⟨_, l', compile_eq_ok_iff.mpr ⟨visits, hr⟩, hs.not_led⟩

end Samples

end RayScene.Directives
