import Mathlib.Data.List.Forall2
import RayScene.Proofs.Braces.Head
import RayScene.Proofs.Braces.Statements
import RayScene.Proofs.Compilation.References
import RayScene.Proofs.Documents.Repair
set_option autoImplicit false

namespace RayScene.Braces

open Sdl Sdl.Workshop

/-- Without braces, and then empty unless it is labelled, or one statement. -/
def Sound (f : Flags) (code : String) : Prop :=
  (braceFree code.toList ∧ (f.label = false → code = "")) ∨
    Moves 0 (if f.close then 0 else 1) code

def BraceFreeImages (d : Document) : Prop :=
  d.ImageFiles fun file => braceFree file.toList

/-- One source of a clone has a code, and only one. -/
def HasOneSource (v : Visit) : Prop :=
  (∃ sources scale, v.node.kind = .clone sources scale) → (v.inner.filter (· ≠ "")).length = 1

section Codes

variable {f : Flags} {code : String} {codes : List String}

theorem braceFree_empty : braceFree "".toList := ⟨by decide, by decide⟩

theorem sound_empty (f : Flags) : Sound f "" := .inl ⟨braceFree_empty, fun _ => rfl⟩

theorem Sound.moves_of_close (h : Sound f code) (hf : f.close = true) : Moves 0 0 code := by
  rcases h with ⟨hfree, _⟩ | hmoves
  · exact moves_of_braceFree hfree 0
  · rwa [hf] at hmoves

theorem moves_join (h : ∀ c ∈ codes, Moves 0 0 c) : Moves 0 0 (String.join codes) :=
  Text.join_of_append (moves_of_braceFree braceFree_empty 0) (fun _ _ => .append) h

theorem join_filter_ne_empty (codes : List String) :
    String.join (codes.filter (· ≠ "")) = String.join codes := by
  induction codes with
  | nil => rfl
  | cons c codes ih =>
    by_cases hc : c = ""
    · rw [List.filter_cons_of_neg (by simp [hc]), ih, hc, String.join_cons, String.empty_append]
    · rw [List.filter_cons_of_pos (by simp [hc]), String.join_cons, String.join_cons, ih]

/-- Among sources that are left open, the only one with a code leaves one brace open. -/
theorem moves_join_of_one (h : ∀ c ∈ codes, c = "" ∨ Moves 0 1 c)
    (hone : (codes.filter (· ≠ "")).length = 1) : Moves 0 1 (String.join codes) := by
  obtain ⟨c, hc⟩ := List.length_eq_one_iff.mp hone
  have hmem : c ∈ codes.filter (· ≠ "") := hc ▸ List.mem_singleton_self c
  obtain ⟨hmem, hne⟩ := List.mem_filter.mp hmem
  have hmoves := (h c hmem).resolve_left (by simpa using hne)
  rw [← join_filter_ne_empty, hc]
  simpa using hmoves

theorem braceFree_marker (n : Node) (f : Flags) : braceFree (marker n f).toList := by
  have hlabel : braceFree (sanitize n.label).toList :=
    ⟨fun h => absurd (isIdentifierChar_of_mem_sanitize h) (by decide),
      fun h => absurd (isIdentifierChar_of_mem_sanitize h) (by decide)⟩
  unfold marker
  split
  · exact braceFree_append (braceFree_append ⟨by decide, by decide⟩ hlabel) ⟨by decide, by decide⟩
  · exact braceFree_empty

theorem sound_marker (n : Node) (h : Moves 0 (if f.close then 0 else 1) code) :
    Sound f (marker n f ++ code) :=
  .inr ((moves_of_braceFree (braceFree_marker n f) 0).append h)

theorem Opens.moves {s : String} (h : Opens s) : Moves 0 1 s := fun k d => ⟨0, h k d⟩

theorem Ends.moves {s : String} {close : Bool} (h : Ends close s) :
    Moves 1 (if close then 0 else 1) s := fun k d => ⟨0, h k d⟩

end Codes

section Runs

variable {w : Workshop} {path : List NodeId} {n : Node} {frame : Frame} {s : Step}
  {steps : List Step} {l l' : Ledger} {visits : List Visit} {codes inner : List String}

theorem of_mem_codes {P : Flags → String → Prop} {f : Flags}
    (h : List.Forall₂ (fun t c => P t.flags c) steps codes) (hf : ∀ t ∈ steps, t.flags = f) :
    ∀ c ∈ codes, P f c := by
  induction h with
  | nil => simp
  | @cons t c steps codes htc _ ih =>
    obtain ⟨ht, hsteps⟩ := List.forall_mem_cons.mp hf
    exact List.forall_mem_cons.mpr ⟨ht ▸ htc, ih hsteps⟩

theorem sound_of_mem_codes {f : Flags}
    (h : List.Forall₂ (fun t c => Sound t.flags c) steps codes) (hf : ∀ t ∈ steps, t.flags = f) :
    ∀ c ∈ codes, Sound f c :=
  of_mem_codes h hf

theorem sound_of_mem_inner (he : w.Enters path s n)
    (hp : w.plan s.node n s.flags = .framed frame)
    (hinner : List.Forall₂ (fun t c => Sound t.flags c) frame.steps inner) :
    ∀ c ∈ inner, Sound (s.flags.inside n.kind) c :=
  sound_of_mem_codes hinner (Surroundings.flags_of_mem_steps he.found hp)

theorem moves_frame_of_closed (he : w.Enters path s n)
    (hp : w.plan s.node n s.flags = .framed frame)
    (hclone : ∀ sources scale, n.kind ≠ .clone sources scale)
    (himages : BraceFreeImages w.document) (hinner : ∀ c ∈ inner, Moves 0 0 c) :
    Moves 0 (if s.flags.close then 0 else 1) (frame.code inner) := by
  have hframe := encloses_of_plan hp hclone (himages s.node n · · · he.found)
  have hjoin : Moves 1 1 (String.join inner) := fun k d => moves_join hinner k (d + 1)
  have hsteps := join_of_indent (fun _ => .indent) hjoin frame.indented
  exact (hframe.opens.moves.append hsteps).append hframe.ends.moves

theorem moves_frame (he : w.Enters path s n) (hp : w.plan s.node n s.flags = .framed frame)
    (hclone : ∀ sources scale, n.kind ≠ .clone sources scale)
    (himages : BraceFreeImages w.document)
    (hinner : List.Forall₂ (fun t c => Sound t.flags c) frame.steps inner) :
    Moves 0 (if s.flags.close then 0 else 1) (frame.code inner) := by
  apply moves_frame_of_closed he hp hclone himages
  intro c hc
  exact (sound_of_mem_inner he hp hinner c hc).moves_of_close (s.flags.close_inside hclone)

/-- The sources of a clone are left open, so that its end closes the one that has a code. -/
theorem moves_clone (he : w.Enters path s n) (hp : w.plan s.node n s.flags = .framed frame)
    {sources : List NodeId} {scale : Vec3} (hk : n.kind = .clone sources scale)
    (hone : (inner.filter (· ≠ "")).length = 1)
    (hinner : List.Forall₂ (fun t c => Sound t.flags c) frame.steps inner) :
    Moves 0 (if s.flags.close then 0 else 1) (frame.code inner) := by
  have hclone := (Surroundings.plan_of_clone _ _ hk).symm.trans hp
  obtain ⟨hbefore, hindented, hends⟩ := ends_clone hclone
  have hsources : ∀ c ∈ inner, c = "" ∨ Moves 0 1 c := by
    intro c hc
    have hsound := sound_of_mem_inner he hp hinner c hc
    rw [hk] at hsound
    rcases hsound with ⟨_, hempty⟩ | hmoves
    · exact .inl (hempty rfl)
    · exact .inr hmoves
  unfold Frame.code
  simp only [hbefore, hindented, String.empty_append]
  exact (moves_join_of_one hsources hone).append hends.moves

theorem sound_of_runs (h : w.Runs path steps l visits codes l')
    (himages : BraceFreeImages w.document) (hclones : ∀ v ∈ visits, HasOneSource v) :
    List.Forall₂ (fun s code => Sound s.flags code) steps codes := by
  induction h with
  | done => exact .nil
  | gone _ _ ih => exact .cons (sound_empty _) (ih hclones)
  | nothing _ _ _ ih =>
    obtain ⟨_, hrest⟩ := List.forall_mem_cons.mp hclones
    exact .cons (sound_empty _) (ih hrest)
  | @meshed _ s _ n _ _ _ _ _ _ _ hp ht _ ih =>
    obtain ⟨_, hrest⟩ := List.forall_mem_cons.mp hclones
    refine .cons ?_ (ih hrest)
    rcases tessellated_code ht with rfl | rfl
    · rw [String.append_empty]
      exact .inl ⟨braceFree_marker n s.flags, fun hlabel => by simp [marker, hlabel]⟩
    · exact sound_marker n fun k d => ⟨0, tracks_meshReference n s.flags k d⟩
  | @framed _ s _ n frame _ _ _ _ _ inner _ he hp _ _ ihin ih =>
    obtain ⟨hfirst, hmore⟩ := List.forall_mem_cons.mp hclones
    obtain ⟨hwithin, hrest⟩ := List.forall_mem_append.mp hmore
    refine .cons (sound_marker n ?_) (ih hrest)
    by_cases hk : ∃ sources scale, n.kind = .clone sources scale
    · have hone := hfirst hk
      obtain ⟨sources, scale, hk⟩ := hk
      exact moves_clone he hp hk hone (ihin hwithin)
    · have hclone : ∀ sources scale, n.kind ≠ .clone sources scale := by
        intro sources scale hkind
        exact hk ⟨sources, scale, hkind⟩
      exact moves_frame he hp hclone himages (ihin hwithin)

end Runs

/-- As many braces close as open, and none too early. A text that is left open has one more. -/
structure Balanced (close : Bool) (code : List Char) : Prop where
  early : ∀ a, a <+: code → 0 ≤ balance a
  closed : close = true ∨ braceFree code → balance code = 0
  left : close = false → ¬ braceFree code → balance code = 1

theorem balanced_of_moves {close : Bool} {code : String}
    (h : Moves 0 (if close then 0 else 1) code) : Balanced close code.toList := by
  obtain ⟨m, hm⟩ := h 0 0
  have hdepth := depth_of_scan hm
  refine ⟨fun a ha => balance_nonneg_of_prefix hm ha, ?_, ?_⟩
  · rintro (rfl | hfree)
    · simpa using hdepth.symm
    · exact balance_of_braceFree hfree
  · rintro rfl _
    simpa using hdepth.symm

theorem Sound.balanced {f : Flags} {code : String} (h : Sound f code) :
    Balanced f.close code.toList := by
  rcases h with ⟨hfree, _⟩ | hmoves
  · obtain ⟨m, hm⟩ := scan_of_braceFree hfree ⟨0, 0⟩
    exact ⟨fun a ha => balance_nonneg_of_prefix hm ha, fun _ => balance_of_braceFree hfree,
      fun _ hnot => absurd hfree hnot⟩
  · exact balanced_of_moves hmoves

section Assembly

variable {t : Tessellator} {c : Context} {d : Document} {a : Artifacts}
  {earlier requests : List Request}

theorem moves_codes {w : Workshop} {l l' : Ledger} {visits : List Visit} {codes : List String}
    (h : w.Runs [] w.rootSteps l visits codes l') (himages : BraceFreeImages w.document)
    (hclones : ∀ v ∈ visits, HasOneSource v) : Moves 0 0 (String.join codes) := by
  have hsound := sound_of_runs h himages hclones
  apply moves_join
  intro code hcode
  have hcodes := sound_of_mem_codes hsound flags_of_mem_rootSteps
  exact (hcodes code hcode).moves_of_close rfl

theorem steady_meshes {w : Workshop} {l' : Ledger} {visits : List Visit} {codes : List String}
    (h : w.Runs [] w.rootSteps ⟨earlier, MeshFile.empty⟩ visits codes l') :
    Steady l'.meshes.text := by
  apply steady_join
  intro text htext
  obtain ⟨b, hb, rfl⟩ := List.mem_map.mp htext
  have hdecl := MeshFile.isDeclared_iff.mpr ⟨b, hb, rfl⟩
  have hnone : ¬ MeshFile.empty.isDeclared b.ident = true := by
    simp [MeshFile.isDeclared_iff, MeshFile.empty]
  obtain hempty | ⟨v, _, _, hident⟩ :=
    (h.isDeclared_iff meshDef_of_mem_rootSteps b.ident).mp hdecl
  · exact absurd hempty hnone
  · exact steady_meshText (hident ▸ plain_meshIdentifier v.node.label) b.mesh

end Assembly

/-- Statements are balanced in every code that is compiled, and so both files of an export pass the
check. -/
theorem braces_of_compile :
    (∀ (w : Workshop) (id : NodeId) (f : Flags) (l l' : Ledger) (code : String),
      (w.compile id f).run.run l = (.ok code, l') → BraceFreeImages w.document →
      (∀ visits, w.Runs [] [⟨id, f⟩] l visits [code] l' → ∀ v ∈ visits, HasOneSource v) →
      Balanced f.close code.toList) ∧
    ∀ (t : Tessellator) (earlier requests : List Request) (c : Context) (d : Document)
      (a : Artifacts), assemble t earlier c d = (.ok a, requests) → BraceFreeImages d →
      BraceFreeSettings c.settings →
      (∀ visits codes l', (assembling t c d).Runs [] (assembling t c d).rootSteps
        ⟨earlier, MeshFile.empty⟩ visits codes l' → ∀ v ∈ visits, HasOneSource v) →
      (Check.balancedBraces a.scene).passed = true ∧
        (Check.balancedBraces a.meshes).passed = true := by
  constructor
  · intro w id f l l' code h himages hclones
    obtain ⟨visits, hr⟩ := compile_eq_ok_iff.mp h
    cases sound_of_runs hr himages (hclones visits hr) with
    | cons hsound _ => exact hsound.balanced
  · intro t earlier requests c d a h himages hsettings hclones
    obtain ⟨visits, codes, l', hr, hscene, hmeshes⟩ := runs_of_assemble h
    have hcodes := moves_codes hr (Document.ImageFiles.repaired himages)
      (hclones visits codes l' hr)
    obtain ⟨m, hm⟩ := hcodes 0 0
    have hwhole := (steady_sceneHead hsettings (!l'.meshes.isEmpty) 0).append hm
    rw [← hscene] at hwhole
    refine ⟨balancedBraces_of_scan hwhole rfl, ?_⟩
    rw [hmeshes]
    exact balancedBraces_of_scan (steady_meshes hr 0) rfl

/-- A box and its copy, on its own and in a whole scene. -/
theorem balanced_copy :
    let box := Node.ofKind "Box" (.box 1 1 1)
    let copy := Node.ofKind "Copy" (.clone [⟨1, 0⟩] ⟨1, 1, 1⟩)
    let w := Workshop.standard [box, copy]
    (∃ code l', (w.compile ⟨2, 0⟩ Flags.all).run.run Ledger.empty = (.ok code, l') ∧
      Balanced true code.toList) ∧
    ∃ a requests, assemble w.tessellator [] w.context w.document = (.ok a, requests) ∧
      (Check.balancedBraces a.scene).passed = true ∧
      (Check.balancedBraces a.meshes).passed = true := by
  intro box copy w
  obtain ⟨hcompile, hassemble⟩ := braces_of_compile
  have himages : BraceFreeImages w.document := .of_foldl_add (by simp [box, copy, Node.ofKind])
  have hbox : ∀ v : Visit, v.node = box → HasOneSource v := by
    rintro v hv ⟨sources, scale, hk⟩
    rw [hv] at hk
    cases hk
  constructor
  · have hrun : ∃ visits code l', w.Runs [] [⟨⟨2, 0⟩, Flags.all⟩] Ledger.empty visits [code] l' ∧
        ∀ v ∈ visits, HasOneSource v := by
      refine ⟨_, _, _, .framed ⟨rfl, by simp, by decide⟩ rfl
        (.framed ⟨rfl, by decide, by decide⟩ rfl .done .done) .done, ?_⟩
      exact List.forall_mem_cons.mpr ⟨fun _ => by decide,
        List.forall_mem_singleton.mpr (hbox _ rfl)⟩
    obtain ⟨visits, code, l', hr, hclones⟩ := hrun
    have h := compile_eq_ok_iff.mpr ⟨visits, hr⟩
    refine ⟨code, l', h, hcompile w _ _ _ _ code h himages fun visits' hr' => ?_⟩
    rw [(hr'.unique hr).1]
    exact hclones
  · have hsteps : (assembling w.tessellator w.context w.document).rootSteps =
        [⟨⟨1, 0⟩, Flags.all⟩, ⟨⟨2, 0⟩, Flags.all⟩] := by
      have hfree : w.document.isOwned ⟨1, 0⟩ = false := Document.isOwned_of_parents_eq_nil rfl
      have hcopy : w.document.isOwned ⟨2, 0⟩ = false := Document.isOwned_of_parents_eq_nil rfl
      have hroots : w.document.roots = [⟨1, 0⟩, ⟨2, 0⟩] := by
        change [(⟨1, 0⟩ : NodeId), ⟨2, 0⟩].filter (fun id => !w.document.isOwned id) = _
        simp only [List.filter_cons, hfree, hcopy]
        rfl
      change w.document.roots.map _ = _
      rw [hroots]
      rfl
    have hrun : ∃ visits codes l', (assembling w.tessellator w.context w.document).Runs []
        [⟨⟨1, 0⟩, Flags.all⟩, ⟨⟨2, 0⟩, Flags.all⟩] ⟨[], MeshFile.empty⟩ visits codes l' ∧
          ∀ v ∈ visits, HasOneSource v := by
      refine ⟨_, _, _, .framed ⟨rfl, by simp, by decide⟩ rfl .done
        (.framed ⟨rfl, by simp, by decide⟩ rfl
          (.framed ⟨rfl, by decide, by decide⟩ rfl .done .done) .done), ?_⟩
      exact List.forall_mem_cons.mpr ⟨hbox _ rfl, List.forall_mem_cons.mpr ⟨fun _ => by decide,
        List.forall_mem_singleton.mpr (hbox _ rfl)⟩⟩
    obtain ⟨visits, codes, l', hr, hclones⟩ := hrun
    rw [← hsteps] at hr
    obtain ⟨a, h⟩ := assemble_of_runs hr
    refine ⟨a, _, h, hassemble _ _ _ _ _ a h himages
      ⟨⟨by decide, by decide⟩, ⟨by decide, by decide⟩, nofun⟩ fun visits' codes' l'' hr' => ?_⟩
    rw [(hr'.unique hr).1]
    exact hclones

end RayScene.Braces
