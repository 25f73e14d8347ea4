import Mathlib.Data.List.Perm.Subperm
import RayScene.Proofs.Compilation.References
import RayScene.Proofs.Compilation.Requests
import RayScene.Proofs.Documents.Repair
import RayScene.Proofs.Listings.Meshes
import RayScene.Proofs.Outlines.Arcs
set_option autoImplicit false

namespace RayScene.Listings

open Sdl Sdl.Workshop

def prismListings (d : Document) (visits : List Visit) : List Listing :=
  (visits.filterMap fun v => d.prismProfile? v.node).map prismListing

def IsLabelled (f : MeshFile) : Prop := ∀ b ∈ f.blocks, ∃ label, b.ident = meshIdentifier label

section Runs

variable {w : Workshop} {path : List NodeId} {id : NodeId} {n : Node} {f : Flags}
  {steps : List Step} {l l' : Ledger} {visits : List Visit} {code : String} {codes : List String}

theorem prismListings_append (d : Document) (first more : List Visit) :
    prismListings d (first ++ more) = prismListings d first ++ prismListings d more := by
  simp [prismListings]

theorem prismListings_cons (d : Document) (v : Visit) (visits : List Visit) :
    prismListings d (v :: visits) = ownListing d v.node ++ prismListings d visits := by
  cases hp : d.prismProfile? v.node <;> simp [prismListings, ownListing, hp]

theorem mem_prismListings {d : Document} {v : Visit} {p : Profile} (hv : v ∈ visits)
    (hp : d.prismProfile? v.node = some p) : prismListing p ∈ prismListings d visits :=
  List.mem_map_of_mem (List.mem_filterMap.mpr ⟨v, hv, hp⟩)

theorem ownListing_of_plan {s : Surroundings} {p : Plan} (hp : s.plan id n f = p)
    (hne : ∀ frame, p ≠ .framed frame) :
    ownListing s.document n = [] := by
  cases hown : s.document.prismProfile? n with
  | none => simp [ownListing, hown]
  | some q =>
    obtain ⟨frame, hframe⟩ := framed_of_prismProfile? id f hown
    exact absurd (hp.symm.trans hframe) (hne frame)

/-- What a run writes has the lists of its prisms, those of a pad or a pocket behind those of its
base. -/
theorem shows_of_runs (h : w.Runs path steps l visits codes l') :
    ∃ ls, ls.Perm (prismListings w.document visits) ∧ Shows .spline (String.join codes) ls := by
  induction h with
  | done => exact ⟨[], .refl _, .nothing _ _⟩
  | gone _ _ ih =>
    obtain ⟨ls, hperm, hshows⟩ := ih
    exact ⟨ls, hperm, by rwa [String.join_cons, String.empty_append]⟩
  | nothing _ hp _ ih =>
    obtain ⟨ls, hperm, hshows⟩ := ih
    refine ⟨ls, ?_, by rwa [String.join_cons, String.empty_append]⟩
    rwa [prismListings_cons, ownListing_of_plan hp nofun]
  | meshed _ hp _ _ ih =>
    obtain ⟨ls, hperm, hshows⟩ := ih
    refine ⟨ls, ?_, ?_⟩
    · rwa [prismListings_cons, ownListing_of_plan hp nofun]
    · rw [String.join_cons]
      exact hshows.behind _
  | @framed _ s _ n frame _ _ _ within visits inner _ _ hp _ _ ihin ih =>
    obtain ⟨ls, hperm, hshows⟩ := ih
    obtain ⟨ms, hperm', hshows'⟩ := ihin
    obtain ⟨before, after, hown, hbefore, hafter⟩ := shows_of_plan hp
    have hsteps := join_of_indent (P := (Shows .spline · ms)) (fun _ => .indent) hshows'
      frame.indented
    refine ⟨before ++ ms ++ after ++ ls, ?_, ?_⟩
    · rw [prismListings_cons, prismListings_append, ← hown]
      have hbehind : (before ++ ms ++ after ++ ls).Perm ((before ++ after) ++ (ms ++ ls)) := by
        simp only [List.append_assoc]
        exact (List.perm_append_comm_assoc ms after ls).append_left before
      exact hbehind.trans ((hperm'.append hperm).append_left _)
    · rw [String.join_cons]
      exact ((((hbefore.append hsteps).append hafter).behind _).append hshows)

theorem isLabelled_of_tessellated (ht : (w.tessellated id n f).run l = (code, l'))
    (h : IsLabelled l.meshes) : IsLabelled l'.meshes := by
  cases hf : f.meshDef with
  | false =>
    rw [tessellated_run, hf] at ht
    cases ht
    exact h
  | true =>
    obtain ⟨_, ⟨_, hmeshes⟩ | ⟨m, _, _, hmeshes⟩⟩ := tessellated_cases hf ht
    · rwa [hmeshes]
    · rw [hmeshes, MeshFile.declare]
      split
      · exact h
      · intro b hb
        rcases List.mem_append.mp hb with hb | hb
        · exact h b hb
        · exact ⟨n.label, by rw [List.mem_singleton.mp hb]⟩

theorem isLabelled_of_runs (h : w.Runs path steps l visits codes l') (hl : IsLabelled l.meshes) :
    IsLabelled l'.meshes := by
  induction h with
  | done => exact hl
  | gone _ _ ih => exact ih hl
  | nothing _ _ _ ih => exact ih hl
  | meshed _ _ ht _ ih => exact ih (isLabelled_of_tessellated ht hl)
  | framed _ _ _ _ ihin ih => exact ih (ihin hl)

end Runs

structure Listing.IsOfTriples (l : Listing) : Prop where
  announced : l.announced = some l.items.length
  points : l.points = l.items.length
  triples : ∀ item ∈ l.items, IsTripleItem item

structure Listing.IsOfProfile (l : Listing) (p : Profile) : Prop where
  announced : l.announced = some l.points
  points : l.points = p.pointCount
  items : l.points = 4 * l.items.length
  cubics : ∀ item ∈ l.items, IsCubicItem item

theorem isOfTriples_rowListing {ts : List (List Char)} (hts : ∀ t ∈ ts, IsBracketed 3 t) :
    (rowListing ts).IsOfTriples := by
  obtain ⟨hpoints, hlength⟩ := points_rowListing hts
  exact ⟨by rw [hlength]; rfl, hpoints.trans hlength.symm, isTripleItem_of_mem_itemRows hts⟩

theorem isOfProfile_prismListing (p : Profile) : (prismListing p).IsOfProfile p := by
  have hpoints := points_prismListing p
  refine ⟨by rw [hpoints]; rfl, hpoints, ?_, ?_⟩
  · rw [hpoints, Profile.pointCount, prismListing, List.length_map, Nat.mul_comm]
  · intro item hitem
    obtain ⟨c, _, rfl⟩ := List.mem_map.mp hitem
    exact isCubicItem_cubicItem c

/-- Every extrusion, pad and pocket that is met as a prism has its list in the code, wherever it
stands: the number in the header is that of the points that are listed, four in each line, and it is
four for each line of the sketch, sixteen for each circle and four for each piece of an arc. In the
mesh file both lists of every block announce as many triples as they have, and there are no other
lists. -/
theorem announced_counts :
    (∀ (w : Workshop) (id : NodeId) (f : Flags) (l l' : Ledger) (code : String),
      (w.compile id f).run.run l = (.ok code, l') →
      ∃ visits, w.Runs [] [⟨id, f⟩] l visits [code] l' ∧
        w.document.Unrolls [id] (visits.map Visit.met) ∧
        (prismListings w.document visits).Subperm (listings .spline code)) ∧
    (∀ (t : Tessellator) (earlier requests : List Request) (c : Context) (d : Document)
        (a : Artifacts), assemble t earlier c d = (.ok a, requests) →
      ∃ visits codes l', (assembling t c d).Runs [] (assembling t c d).rootSteps
          ⟨earlier, MeshFile.empty⟩ visits codes l' ∧
        (prismListings (c.repaired d) visits).Subperm (listings .spline a.scene) ∧
        listings .vertices a.meshes =
          l'.meshes.blocks.map (fun b => rowListing (vertexTexts b.mesh)) ∧
        listings .faces a.meshes =
          l'.meshes.blocks.map (fun b => rowListing (triangleTexts b.mesh)) ∧
        ∀ l ∈ listings .vertices a.meshes ++ listings .faces a.meshes, l.IsOfTriples) ∧
    (∀ p, (prismListing p).IsOfProfile p) ∧
    ∀ (sketch : Sketch) (p : Profile), sketch.profile = .ok p →
      p.pointCount = (sketch.profileSegments.map Segment.pointCount).sum := by
  refine ⟨?_, ?_, isOfProfile_prismListing, fun _ _ => Sketch.pointCount_of_profile⟩
  · intro w id f l l' code h
    obtain ⟨visits, hr⟩ := compile_eq_ok_iff.mp h
    obtain ⟨ls, hperm, hshows⟩ := shows_of_runs hr
    rw [String.join_cons, String.join_nil, String.append_empty] at hshows
    exact ⟨visits, hr, hr.unrolls, ls, hperm, hshows.sublist⟩
  · intro t earlier requests c d a h
    obtain ⟨visits, codes, l', hr, hscene, hmeshes⟩ := runs_of_assemble h
    obtain ⟨ls, hperm, hshows⟩ := shows_of_runs hr
    have hlabelled : IsLabelled l'.meshes := isLabelled_of_runs hr nofun
    obtain ⟨hvertices, hfaces⟩ := listings_meshText hlabelled
    rw [← MeshFile.text, ← hmeshes] at hvertices hfaces
    refine ⟨visits, codes, l', hr, ⟨ls, hperm, ?_⟩, hvertices, hfaces, ?_⟩
    · rw [hscene]
      exact (hshows.behind _).sublist
    · intro l hl
      rw [hvertices, hfaces, List.mem_append] at hl
      rcases hl with hl | hl
      · obtain ⟨b, _, rfl⟩ := List.mem_map.mp hl
        exact isOfTriples_rowListing isBracketed_of_mem_vertexTexts
      · obtain ⟨b, _, rfl⟩ := List.mem_map.mp hl
        exact isOfTriples_rowListing isBracketed_of_mem_triangleTexts

/-- A pad of a square with a hole stands in a group: four lines and a circle. A mesh stands by
itself. -/
theorem announced_counts_of_plate :
    let segments : List Segment :=
      [.line ⟨0, 0⟩ ⟨4, 0⟩, .line ⟨4, 0⟩ ⟨4, 4⟩, .circle ⟨2, 2⟩ 1, .line ⟨4, 4⟩ ⟨0, 4⟩,
        .line ⟨0, 4⟩ ⟨0, 0⟩]
    let sketch := Node.ofKind "Sketch" (.sketch (.ofSegments segments))
    let plate : Feature := ⟨⟨1, 0⟩, 1, false, false, .length, none⟩
    let pad := Node.ofKind "Pad" (.pad plate)
    let group := { Node.ofKind "Group" .group with children := [⟨2, 0⟩] }
    let w := Workshop.standard [sketch, pad, group]
    let v := Workshop.standard [Node.ofKind "Shell" (.mesh TriMesh.tetrahedron)]
    (∃ code l' l, (w.compile ⟨3, 0⟩ Flags.all).run.run Ledger.empty = (.ok code, l') ∧
      l ∈ listings .spline code ∧ l.announced = some 32 ∧ l.points = 32) ∧
    ∃ a requests, assemble v.tessellator [] v.context v.document = (.ok a, requests) ∧
      (listings .vertices a.meshes).map (·.announced) = [some 4] ∧
      (listings .faces a.meshes).map (·.announced) = [some 4] := by
  intro segments sketch plate pad group w v
  obtain ⟨hcompile, hassemble, hprofile, hsketch⟩ := announced_counts
  constructor
  · obtain ⟨p, hp⟩ : ∃ p, (Sketch.ofSegments segments).profile = .ok p := by
      have hok : (Sketch.ofSegments segments).profile.isOk = true := by decide +kernel
      cases hp : (Sketch.ofSegments segments).profile with
      | ok p => exact ⟨p, rfl⟩
      | error e =>
        rw [hp] at hok
        cases hok
    have hsketch? : w.document.sketch? ⟨1, 0⟩ = some (.ofSegments segments) := rfl
    have hsupported : w.document.supportsFeature plate = true := rfl
    have hprism : w.document.prismProfile? pad = some p := by
      change (if w.document.supportsFeature plate then w.document.profileOf? ⟨1, 0⟩ else none) =
        some p
      rw [if_pos hsupported, Document.profileOf?, hsketch?]
      change (Sketch.ofSegments segments).profile.toOption = some p
      rw [hp]
      rfl
    obtain ⟨frame, hplan⟩ := framed_of_prismProfile? ⟨2, 0⟩ Flags.all hprism
    have hsteps : frame.steps = [] := by
      change w.feature Flags.all plate false = .framed frame at hplan
      have h : (w.feature Flags.all plate false).steps = [] := by
        rw [Surroundings.feature_steps]
        split <;> rfl
      rw [hplan] at h
      exact h
    have hinner : w.Runs [⟨2, 0⟩, ⟨3, 0⟩] frame.steps Ledger.empty [] [] Ledger.empty := by
      rw [hsteps]
      exact .done
    have hrun : ∃ visits code l', w.Runs [] [⟨⟨3, 0⟩, Flags.all⟩] Ledger.empty visits [code] l' ∧
        visits.map (·.node) = [group, pad] :=
      ⟨_, _, _, .framed ⟨rfl, by simp, by decide⟩ rfl
        (.framed ⟨rfl, by decide, by decide⟩ hplan hinner .done) .done, rfl⟩
    obtain ⟨visits, code, l', hr, hnodes⟩ := hrun
    have h := compile_eq_ok_iff.mpr ⟨visits, hr⟩
    obtain ⟨visits', hr', _, hlistings⟩ := hcompile w _ _ _ _ code h
    obtain ⟨rfl, _⟩ := hr'.unique hr
    have hmem : prismListing p ∈ prismListings w.document visits' := by
      have hpad : pad ∈ visits'.map (·.node) := by
        rw [hnodes]
        exact .tail _ (.head _)
      obtain ⟨v, hv, hnode⟩ := List.mem_map.mp hpad
      exact mem_prismListings hv (hnode ▸ hprism)
    have hcount : p.pointCount = 32 := (hsketch _ p hp).trans (by decide +kernel)
    have hlist := hprofile p
    refine ⟨code, l', prismListing p, h, hlistings.subset hmem, ?_, hlist.points.trans hcount⟩
    rw [hlist.announced, hlist.points, hcount]
  · have hroots : v.document.roots = [⟨1, 0⟩] := Document.roots_of_parents_eq_nil (by decide)
    have hsteps : (assembling v.tessellator v.context v.document).rootSteps =
        [⟨⟨1, 0⟩, Flags.all⟩] := by
      rw [rootSteps_assembling, hroots]
      rfl
    have hrun : ∃ visits codes l', (assembling v.tessellator v.context v.document).Runs []
        [⟨⟨1, 0⟩, Flags.all⟩] ⟨[], MeshFile.empty⟩ visits codes l' ∧
          l'.meshes.blocks.map (fun b => (b.mesh.vertices.length, b.mesh.triangles.length)) =
              [(4, 4)] :=
      ⟨_, _, _, .meshed ⟨rfl, by simp, by decide⟩ rfl rfl .done, rfl⟩
    obtain ⟨visits, codes, l', hr, hblocks⟩ := hrun
    rw [← hsteps] at hr
    obtain ⟨a, h⟩ := assemble_of_runs hr
    obtain ⟨visits', codes', m, hr', _, hvertices, hfaces, _⟩ := hassemble _ _ _ _ _ _ h
    obtain ⟨_, _, rfl⟩ := hr'.unique hr
    obtain ⟨b, hb, hpair⟩ := List.map_eq_singleton_iff.mp hblocks
    rw [hb] at hvertices hfaces
    obtain ⟨hfour, hfour'⟩ := Prod.mk.inj hpair
    refine ⟨a, _, h, ?_, ?_⟩
    · rw [hvertices]
      simp [rowListing, hfour]
    · rw [hfaces]
      simp [rowListing, hfour']

end RayScene.Listings
