import RayScene.Proofs.Documents.Containers
/-!
Cycles of containers. A root that leads into a cycle ends the export with an error. What is inside
of an owner that is not written is not written either, so a cycle there goes unnoticed.
-/
set_option autoImplicit false

namespace RayScene

open Relation

namespace Document

variable {d : Document} {a b x : NodeId}

/-- A visible listed part or boolean has another node among its children. -/
def Joins (d : Document) (a b : NodeId) : Prop :=
  ∃ n, (a, n) ∈ d.entries ∧ n.visible = true ∧ (n.kind = .part ∨ ∃ op, n.kind = .boolean op) ∧
    b ∈ n.children

theorem Joins.shows (hab : d.Joins a b) {c : NodeId} (hbc : d.Joins b c) : d.Shows a b := by
  obtain ⟨n, hn, _, hkind, hb⟩ := hab
  obtain ⟨m, hm, hvisible, _, _⟩ := hbc
  have hcontainer : n.kind.isContainer = true := by
    rcases hkind with hk | ⟨op, hk⟩ <;> rw [hk] <;> rfl
  exact ⟨n, (mem_entries_iff.mp hn).2, hcontainer,
    mem_steps_of_isContainer hcontainer hb (mem_entries_iff.mp hm).2 hvisible⟩

theorem transGen_leads_of_joins (h : TransGen d.Joins a b) {c : NodeId} (hbc : d.Joins b c) :
    TransGen d.Leads a b := by
  induction h using TransGen.head_induction_on with
  | single hab => exact .single (hab.shows hbc).leads
  | head hac hcb ih =>
    obtain ⟨_, hjoins, _⟩ := TransGen.head'_iff.mp hcb
    exact .head (hac.shows hjoins).leads ih

/-- A cycle that no owner takes in has its nodes among the roots; a cycle in the containers that are
written is reached from a root. -/
theorem exists_root_of_cycle (hx : TransGen d.Joins x x)
    (h : (∃ r ∈ d.roots, ReflTransGen d.Leads r x) ∨ ¬d.IsInside Kind.isOwner x ∨ d.IsEnclosed x) :
    ∃ r ∈ d.roots, ReflTransGen d.Leads r x := by
  obtain ⟨_, ⟨n, hn, hvisible, hkind, _⟩, _⟩ := TransGen.head'_iff.mp hx
  have hgroup : n.kind.isGroup = false := by
    rcases hkind with hk | ⟨op, hk⟩ <;> rw [hk] <;> rfl
  rcases h with hroot | hfree | henclosed
  · exact hroot
  · exact ⟨x, mem_roots_iff.mpr ⟨n, hn, hvisible, hgroup, hfree⟩, .refl⟩
  · obtain ⟨r, hr, rfl | ⟨_, hshows⟩⟩ := henclosed.covered hn hvisible hgroup
    · exact ⟨r, hr, .refl⟩
    · exact ⟨r, hr, (hshows.lift id fun _ _ => Shows.leads).to_reflTransGen⟩

end Document

section Exports

variable {t : Tessellator} {earlier : List Request} {c : Context} {d : Document} {x : NodeId}

open Sdl

theorem blames_of_assemble {requests : List Request} {e : CompileError}
    (h : assemble t earlier c d = (.error e, requests)) :
    ∃ r ∈ d.roots, (c.repaired d).Blames r e := by
  obtain ⟨l', hf⟩ := Workshop.fails_of_assemble h
  obtain ⟨s, hs, l₀, hf⟩ := hf.exists_mem
  rw [Workshop.rootSteps_assembling] at hs
  obtain ⟨r, hr, rfl⟩ := List.mem_map.mp hs
  refine ⟨r, hr, hf.blames (Nat.zero_le _) ?_⟩
  intro s hs _
  rw [List.mem_singleton.mp hs]
  exact .single

theorem not_ok_of_cycle {r : NodeId} (hr : r ∈ d.roots) (hrx : ReflTransGen d.Leads r x)
    (hx : TransGen d.Leads x x) {a : Artifacts} {requests : List Request} :
    assemble t earlier c d ≠ (.ok a, requests) := by
  intro h
  obtain ⟨visits, codes, l', hruns, _⟩ := Workshop.runs_of_assemble h
  obtain ⟨walk, hwalk, hlong⟩ := Document.exists_long_walk hrx hx
  have hstep : ⟨r, Flags.all⟩ ∈ (Workshop.assembling t c d).rootSteps := by
    rw [Workshop.rootSteps_assembling]
    exact List.mem_map_of_mem hr
  obtain ⟨n, hn, _⟩ := Document.mem_roots_iff.mp hr
  have hfound : (c.repaired d).contains r = true := by
    rw [Document.contains_repaired]
    exact Document.contains_eq_true_iff.mpr ⟨n, (Document.mem_entries_iff.mp hn).2⟩
  have hwalk' : (c.repaired d).IsWalk (r :: walk) := by
    unfold Document.IsWalk
    rw [Document.leads_repaired]
    exact hwalk
  have hfit := hruns.walk_length_le hstep hfound hwalk'
  simp only [List.length_nil] at hfit
  omega

/-- A cycle of visible parts and booleans ends the export with an error about a root, if a root
leads to it; so it does if no body or part takes it in, or if everything around it is a visible
part, folder or boolean and no part there is inside of itself. -/
theorem cycle_ends_export (hx : TransGen d.Joins x x)
    (h : (∃ r ∈ d.roots, ReflTransGen d.Leads r x) ∨ ¬d.IsInside Kind.isOwner x ∨
      ∀ a n, TransGen d.HasChild a x → d.get? a = some n →
        n.visible = true ∧ n.kind.isContainer = true ∧
          (n.kind = .part → ¬TransGen d.HasChild a a))
    (t : Tessellator) (earlier : List Request) (c : Context) :
    ∃ e requests, assemble t earlier c d = (.error e, requests) ∧
      ∃ r ∈ d.roots, (c.repaired d).Blames r e := by
  obtain ⟨_, hjoins, _⟩ := TransGen.head'_iff.mp hx
  have hcycle := Document.transGen_leads_of_joins hx hjoins
  obtain ⟨r, hr, hrx⟩ := Document.exists_root_of_cycle hx h
  cases hresult : assemble t earlier c d with
  | mk result requests =>
    cases result with
    | ok a => exact absurd hresult (not_ok_of_cycle hr hrx hcycle)
    | error e => exact ⟨e, requests, rfl, blames_of_assemble hresult⟩

/-- A boolean in a part that is its own child. -/
theorem export_of_fusion_in_itself :
    let nodes := [{ Node.ofKind "Fusion" (.boolean .fuse) with children := [⟨1, 0⟩] },
      { Node.ofKind "Part" .part with children := [⟨1, 0⟩] }]
    let d := nodes.foldl Document.add Document.empty
    let c := Context.bare Settings.standard Camera.standard
    TransGen d.Joins ⟨1, 0⟩ ⟨1, 0⟩ ∧
      ∃ e requests, assemble .primitive [] c d = (.error e, requests) := by
  intro nodes d c
  have hcycle : TransGen d.Joins ⟨1, 0⟩ ⟨1, 0⟩ :=
    .single ⟨_, List.mem_cons_self, rfl, .inr ⟨_, rfl⟩, List.mem_cons_self⟩
  have hlive : d.liveIds = [⟨1, 0#31⟩, ⟨2, 0#31⟩] := rfl
  have hparents : d.parents ⟨1, 0#31⟩ = [⟨1, 0#31⟩, ⟨2, 0#31⟩] ∧ d.parents ⟨2, 0#31⟩ = [] :=
    ⟨rfl, rfl⟩
  have hancestors : d.ancestors ⟨1, 0⟩ = [⟨1, 0⟩, ⟨2, 0⟩] ∧ d.ancestors ⟨2, 0⟩ = [] := by
    simp [Document.ancestors, hlive, hparents, walk]
  obtain ⟨hfusion, hpart⟩ := hancestors
  obtain ⟨e, requests, h, _⟩ := cycle_ends_export hcycle (.inr (.inr fun a n ha hn => by
    rw [← Document.mem_ancestors_iff, hfusion] at ha
    rw [← Document.mem_ancestors_iff]
    rcases List.mem_cons.mp ha with rfl | ha
    · cases hn
      refine ⟨rfl, rfl, fun hkind => ?_⟩
      cases hkind
    · obtain rfl := List.mem_singleton.mp ha
      cases hn
      exact ⟨rfl, rfl, fun _ => by rw [hpart]; exact List.not_mem_nil⟩)) .primitive [] c
  exact ⟨hcycle, e, requests, h⟩

/-- A cycle in a hidden part is not written, so it does not end the export. -/
theorem hidden_part_hides_cycle :
    ¬∀ (t : Tessellator) (earlier : List Request) (c : Context) (d : Document) (x : NodeId),
      TransGen d.Joins x x → ∃ e requests, assemble t earlier c d = (.error e, requests) := by
  intro hall
  let nodes := [{ Node.ofKind "Fusion" (.boolean .fuse) with children := [⟨1, 0⟩] },
    { Node.ofKind "Part" .part with children := [⟨1, 0⟩], visible := false }]
  let d := nodes.foldl Document.add Document.empty
  let c := Context.bare Settings.standard Camera.standard
  have hcycle : TransGen d.Joins ⟨1, 0⟩ ⟨1, 0⟩ :=
    .single ⟨_, List.mem_cons_self, rfl, .inr ⟨_, rfl⟩, List.mem_cons_self⟩
  have howned : d.IsInside Kind.isOwner ⟨1, 0⟩ :=
    ⟨⟨2, 0⟩, _, List.mem_cons_of_mem _ List.mem_cons_self, rfl,
      .single ⟨_, List.mem_cons_of_mem _ List.mem_cons_self, List.mem_cons_self⟩⟩
  have hroots : d.roots = [] := by
    change [(⟨1, 0⟩ : NodeId)].filter (fun id => !d.isOwned id) = _
    simp only [Document.isOwned, List.filter_cons, Document.hasAncestor_eq_true_iff.mpr howned]
    rfl
  have hruns : (Workshop.assembling .primitive c d).Runs []
      (Workshop.assembling .primitive c d).rootSteps ⟨[], MeshFile.empty⟩ [] []
      ⟨[], MeshFile.empty⟩ := by
    rw [Workshop.rootSteps_assembling, hroots]
    exact .done
  obtain ⟨a, hok⟩ := Workshop.assemble_of_runs hruns
  obtain ⟨e, requests, h⟩ := hall .primitive [] c d ⟨1, 0⟩ hcycle
  cases hok.symm.trans h

end Exports

end RayScene
