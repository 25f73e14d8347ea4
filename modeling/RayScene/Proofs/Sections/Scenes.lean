import RayScene.Check.Scan
import RayScene.Proofs.Sections.Codes
import RayScene.Proofs.Text.Counting
/-!
Sections of a scene. Every root begins a line with its marker and nothing inside of a root does, and
so the code of a root is found again by its marker.
-/
set_option autoImplicit false

namespace RayScene.Sections

open Sdl Sdl.Workshop Check

section Cutting

variable {tail : List Char}

theorem unbordered_of_slashes (h : '/' ∉ tail) (hne : tail.head? ≠ none) :
    Text.Unbordered ('/' :: '/' :: tail) := by
  intro piece hend hbegin
  rcases List.suffix_cons_iff.mp hend with rfl | hend
  · exact .inr rfl
  left
  rcases List.suffix_cons_iff.mp hend with rfl | hend
  · obtain ⟨_, hbegin⟩ := List.cons_prefix_cons.mp hbegin
    cases tail with
    | nil => exact absurd rfl hne
    | cons c tail =>
      obtain ⟨rfl, _⟩ := List.cons_prefix_cons.mp hbegin
      exact absurd List.mem_cons_self h
  · exact Text.eq_nil_of_border h hend hbegin

theorem unbordered_markerLine (label : String) : Text.Unbordered (markerLine label).toList := by
  have hquiet : Quiet ("----- " ++ sanitize label ++ " -----") :=
    .append (.append (.literal rfl) (quiet_sanitize label)) (.literal rfl)
  have hline : (markerLine label).toList =
      '/' :: '/' :: ("----- " ++ sanitize label ++ " -----").toList := by
    simp [markerLine]
  rw [hline]
  apply unbordered_of_slashes
  · exact fun hmem => absurd (hquiet.unmarked _ hmem) (by decide)
  · simp

theorem next_marker {rest after : String} (hrest : Tidy rest)
    (hafter : after = "" ∨ ∃ more, after = "\n//----- " ++ more) :
    ((Text.cut? "\n//----- ".toList (rest.toList ++ after.toList)).map (·.1)).getD
      (rest.toList ++ after.toList) = rest.toList := by
  have hslash : after.toList.head? ≠ some '/' := by
    rcases hafter with rfl | ⟨more, rfl⟩ <;> simp
  have hnext : "\n//----- ".toList = '\n' :: '/' :: "/----- ".toList := rfl
  rw [hnext, cut?_append_of_isChain hrest.isChain hslash, ← hnext]
  rcases hafter with rfl | ⟨more, rfl⟩
  · simp [Text.cut?]
  · rw [String.toList_append, Text.cut?_append_self]
    simp

/-- The section of a marker that occurs once: its line, and the lines behind it that begin without a
slash. -/
theorem nodeSection?_eq {scene before rest after label : String}
    (hscene : scene = before ++ ("\n" ++ (markerLine label ++ rest) ++ after))
    (hone : occurrences scene (markerLine label) = 1) (hrest : Tidy rest)
    (hafter : after = "" ∨ ∃ more, after = "\n//----- " ++ more) :
    nodeSection? scene (sanitize label) = some (markerLine label ++ rest) := by
  have htext : scene.toList = (before.toList ++ ['\n']) ++
      ((markerLine label).toList ++ (rest.toList ++ after.toList)) := by
    rw [hscene]
    simp
  have hcut : Text.cut? (markerLine label).toList scene.toList =
      some (before.toList ++ ['\n'], rest.toList ++ after.toList) := by
    unfold occurrences at hone
    rw [htext] at hone ⊢
    exact Text.cut?_of_count_eq_one (by simp [markerLine]) (unbordered_markerLine label) hone
  unfold markerLine at hcut
  unfold nodeSection?
  dsimp only
  rw [hcut]
  dsimp only
  rw [Text.afterLast?_append_self, Option.getD_some]
  have hrest' := next_marker hrest hafter
  change some (String.ofList (_ ++ ((Text.cut? "\n//----- ".toList _).map (·.1)).getD _)) = _
  rw [hrest', String.ofList_append, String.ofList_toList, String.ofList_toList]
  rfl

theorem join_begins {codes : List String}
    (h : ∀ c ∈ codes, c = "" ∨ ∃ more, c = "\n//----- " ++ more) :
    String.join codes = "" ∨ ∃ more, String.join codes = "\n//----- " ++ more := by
  induction codes with
  | nil => exact .inl rfl
  | cons c codes ih =>
    obtain ⟨hc, hcodes⟩ := List.forall_mem_cons.mp h
    rw [String.join_cons]
    rcases hc with rfl | ⟨more, rfl⟩
    · rw [String.empty_append]
      exact ih hcodes
    · exact .inr ⟨more ++ String.join codes, String.append_assoc⟩

end Cutting

section Roots

variable {t : Tessellator} {c : Context} {d : Document} {a : Artifacts}
  {earlier requests : List Request}

theorem isHollow_repaired (c : Context) (d : Document) (id : NodeId) (n : Node) :
    (c.repaired d).IsHollow id n ↔ d.IsHollow id n := by
  unfold Document.IsHollow
  rw [Document.supportsBody_repaired]

theorem Headed.root {r : NodeId} {n : Node} {code : String}
    (h : Headed (assembling t c d) ⟨r, Flags.all⟩ code) (hn : d.get? r = some n)
    (hsolid : ¬d.IsHollow r n) : ∃ rest, code = "\n" ++ (markerLine n.label ++ rest) ∧
      Tidy rest := by
  have hmended : (assembling t c d).document.get? r = some (c.mend n) := by
    change (c.repaired d).get? r = _
    rw [c.get?_repaired_eq, hn]
    rfl
  obtain ⟨_, hnothing⟩ | ⟨m, rest, hm, rfl, hrest⟩ := h
  · have hhollow := (isHollow_repaired c d r _).mp (isHollow_of_plan (hnothing _ hmended))
    exact absurd ⟨(c.mend_kind n).symm.trans hhollow.1, hhollow.2⟩ hsolid
  · cases hm.symm.trans hmended
    rw [marker_of_label rfl, c.mend_label, String.append_assoc]
    exact ⟨rest, rfl, hrest⟩

/-- The code of a root can be cut out of the scene again by its marker, if the marker occurs once.
Every marker of a node inside of it stands behind tabs, and so none of them ends the section. -/
theorem section_of_root (h : assemble t earlier c d = (.ok a, requests)) :
    ∃ codes l', (assembling t c d).compileRoots.run.run ⟨earlier, MeshFile.empty⟩ =
      (.ok codes, l') ∧ a.scene = sceneHead c (!l'.meshes.isEmpty) ++ String.join codes ∧
      codes.length = d.roots.length ∧
      ∀ r n code, (r, code) ∈ d.roots.zip codes → d.get? r = some n → ¬d.IsHollow r n →
        ∃ text, code = "\n" ++ text ∧
          (occurrences a.scene ("//----- " ++ sanitize n.label ++ " -----") = 1 →
            nodeSection? a.scene (sanitize n.label) = some text) ∧
          ¬['\n', '/'] <:+: text.toList ∧
          ∃ l₀ visits l₁, ((assembling t c d).compile r Flags.all).run.run l₀ = (.ok code, l₁) ∧
            (assembling t c d).Runs [] [⟨r, Flags.all⟩] l₀ visits [code] l₁ ∧
            ∀ v ∈ visits.tail, v.flags.label = true → ¬d.IsHollow v.id v.node →
              ∃ k, 0 < k ∧ contains code (tabbed k v.node.label) = true := by
  obtain ⟨visits, codes, l', hr, hscene, _⟩ := runs_of_assemble h
  have hheaded := headed_of_runs hr
  have hown := forall₂_runs hr
  have hbegins : ∀ code ∈ codes, code = "" ∨ ∃ more, code = "\n//----- " ++ more := by
    intro code hcode
    obtain ⟨s, hs, hcode⟩ := headed_of_mem hheaded hcode
    exact hcode.begins (by rw [flags_of_mem_rootSteps s hs]; rfl)
  rw [rootSteps_assembling, List.forall₂_map_left_iff] at hheaded hown
  refine ⟨codes, l', hr.compileRoots, hscene, hheaded.length_eq.symm,
    fun r n code hmem hn hsolid => ?_⟩
  obtain ⟨rest, hcode, hrest⟩ := (List.forall₂_zip hheaded hmem).root hn hsolid
  obtain ⟨l₀, own, l₁, hr₀⟩ := List.forall₂_zip hown hmem
  refine ⟨markerLine n.label ++ rest, hcode, fun hone => ?_, ?_, l₀, own, l₁,
    compile_eq_ok_iff.mpr ⟨own, hr₀⟩, hr₀, fun v hv hlabel hv' => ?_⟩
  · obtain ⟨before, after, rfl⟩ := List.append_of_mem (List.of_mem_zip hmem).2
    obtain ⟨_, hafter⟩ := List.forall_mem_cons.mp (List.forall_mem_append.mp hbegins).2
    have hwhole : a.scene = sceneHead c (!l'.meshes.isEmpty) ++ String.join before ++
        ("\n" ++ (markerLine n.label ++ rest) ++ String.join after) := by
      rw [hscene, String.join_append, String.join_cons, ← hcode, String.append_assoc]
    exact nodeSection?_eq hwhole hone hrest (join_begins hafter)
  · rw [String.toList_append]
    exact not_infix_of_isChain <|
      isChain_append_of_not_mem (newline_not_mem_markerLine n.label) hrest.isChain
  · exact tabbed_of_mem_tail hr₀ hv hlabel fun hhollow =>
      hv' ((isHollow_repaired c d _ _).mp hhollow)

end Roots

section Skipping

def Skips (label s : String) : Prop := ∀ text,
  Text.count (markerLine label).toList (s.toList ++ text) =
    Text.count (markerLine label).toList text

variable {label s t rest scene : String}

theorem Skips.append (hs : Skips label s) (ht : Skips label t) : Skips label (s ++ t) := by
  intro text
  rw [String.toList_append, List.append_assoc, hs, ht]

theorem skips_of_not_mem (h : '/' ∉ s.toList) : Skips label s := by
  have hline : (markerLine label).toList =
      '/' :: ("/----- " ++ sanitize label ++ " -----").toList := by
    simp [markerLine]
  intro text
  rw [hline]
  exact Text.count_append_of_not_mem h text

theorem skips_of_quiet (h : Quiet s) : Skips label s :=
  skips_of_not_mem fun hmem => absurd (h.unmarked _ hmem) (by decide)

theorem skips_lines {lines : List Char} (hend : lines.getLast? = some '\n')
    (h : Text.holds lines "//----- ".toList = false) : Skips label (String.ofList lines) := by
  obtain ⟨before, rfl⟩ := List.getLast?_eq_some_iff.mp hend
  rw [Bool.eq_false_iff, Ne, Text.holds_iff] at h
  have hline : (markerLine label).toList =
      "//----- ".toList ++ (sanitize label ++ " -----").toList := by
    simp [markerLine]
  have hnone : ¬(markerLine label).toList <:+: before := by
    rw [hline]
    intro hpiece
    have hbegin := (List.prefix_append "//----- ".toList _).isInfix.trans hpiece
    exact h (hbegin.trans (List.prefix_append before _).isInfix)
  intro text
  rw [String.toList_ofList, List.append_assoc]
  exact Text.count_append_newline (by simp [markerLine]) (newline_not_mem_markerLine label)
    hnone text

def plain : Context := Context.bare Settings.standard Camera.standard

theorem skips_cameraBlock : Skips label (cameraBlock plain) := by
  have hright : Quiet (projectionLines plain).right :=
    .append (.append (.literal rfl) <| quiet_fixed _ _) <| .literal rfl
  have hangle : Quiet (projectionLines plain).angle :=
    .append (.append (.literal rfl) <| quiet_fixed _ _) <| .literal rfl
  unfold cameraBlock
  dsimp only
  simp only [String.append_assoc]
  exact .append (skips_of_not_mem (by decide)) <| .append (skips_of_not_mem (by decide)) <|
    .append (skips_of_not_mem (by decide)) <| .append (skips_of_quiet hright) <|
    .append (skips_of_not_mem (by decide)) <| .append (skips_of_quiet (quiet_triple _)) <|
    .append (skips_of_not_mem (by decide)) <| .append (skips_of_quiet (quiet_triple _)) <|
    .append (skips_of_not_mem (by decide)) <| .append (fun _ => rfl) <|
    .append (skips_of_not_mem (by decide)) <| .append (fun _ => rfl) <|
    .append (skips_of_not_mem (by decide)) <| .append (skips_of_not_mem (by decide)) <|
    .append (skips_of_quiet hangle) <| .append (skips_of_not_mem (by decide)) fun _ => rfl

theorem skips_sceneHead : Skips label (sceneHead plain false) := by
  have hrule : Skips label rule := skips_lines rfl rfl
  have hinclude : ∀ file, '/' ∉ file.toList → Skips label (includeLine file) := by
    intro file hfile
    exact .append (.append (skips_of_not_mem (by decide)) (skips_of_not_mem hfile)) <|
      skips_of_not_mem (by decide)
  unfold sceneHead
  simp only [String.append_assoc]
  exact .append (skips_lines rfl rfl) <| .append (skips_of_not_mem (by decide)) <|
    .append (skips_of_quiet (quiet_color _)) <| .append (skips_of_not_mem (by decide)) <|
    .append hrule <| .append (hinclude _ (by decide)) <| .append (hinclude _ (by decide)) <|
    .append (fun _ => rfl) <| .append hrule <| .append (hinclude _ (by decide)) <|
    .append (fun _ => rfl) <| .append hrule <| .append (skips_lines rfl rfl) <|
    .append skips_cameraBlock <|
    .append (.append (skips_lines rfl rfl) (skips_of_not_mem (by decide))) <|
    .append (fun _ => rfl) <| .append hrule <| .append (skips_of_not_mem (by decide)) <|
    .append (hinclude _ (by decide)) <| skips_lines rfl rfl

theorem occurrences_eq_one (hrest : Skips label rest)
    (hscene : scene = sceneHead plain false ++ ("\n" ++ (markerLine label ++ rest))) :
    occurrences scene (markerLine label) = 1 := by
  have hne : (markerLine label).toList ≠ [] := by simp [markerLine]
  have hnone := hrest []
  rw [List.append_nil, Text.count_nil hne] at hnone
  have hnewline : Skips label "\n" := skips_of_not_mem (by decide)
  unfold occurrences
  rw [hscene, String.toList_append, skips_sceneHead, String.toList_append, hnewline,
    String.toList_append, Text.count_append_self hne, hnone]

end Skipping

section Operands

def operand : Node := { Node.ofKind "Plate" (.box 1 1 1) with visible := false }

def fusion : Node := { Node.ofKind "Rig" (.boolean .fuse) with children := [⟨1, 0⟩] }

def fused : Document := [operand, fusion].foldl Document.add Document.empty

theorem roots_fused : fused.roots = [⟨2, 0⟩] := by
  have hfree : fused.isOwned ⟨2, 0⟩ = false := Document.isOwned_of_parents_eq_nil rfl
  change [(⟨2, 0⟩ : NodeId)].filter (fun id => !fused.isOwned id) = _
  simp only [List.filter_cons, hfree]
  rfl

theorem rootSteps_fused :
    (assembling .primitive plain fused).rootSteps = [⟨⟨2, 0⟩, Flags.all⟩] := by
  rw [rootSteps_assembling, roots_fused]
  rfl

theorem code_of_labelled {n m : Node} {f g : Flags} {frame : Frame} {code : String}
    (hf : f.label = true) (hg : g.label = true) (hframe : frame.indented = true) :
    marker n f ++ frame.code [marker m g ++ code] = "\n" ++ (markerLine n.label ++
      ((frame.before ++ "\n\t") ++ (markerLine m.label ++ (indent code ++ frame.after)))) := by
  have hbreak : shift ['\t'] "\n" = "\n\t" := by decide
  have hline : shift ['\t'] (markerLine m.label) = markerLine m.label :=
    shift_of_not_mem (newline_not_mem_markerLine m.label) ['\t']
  have hjoin : String.join [indent ("\n" ++ markerLine m.label ++ code)] =
      indent ("\n" ++ markerLine m.label ++ code) := by simp [String.join_cons]
  rw [Frame.code, if_pos hframe, marker_of_label hf, marker_of_label hg, List.map_singleton, hjoin]
  unfold indent
  rw [shift_append, shift_append, hbreak, hline]
  simp only [String.append_assoc]

theorem runs_fused : ∃ front back v w, (∀ l, (assembling .primitive plain fused).Runs []
      [⟨⟨2, 0⟩, Flags.all⟩] l [v, w]
      ["\n" ++ (markerLine "Rig" ++ (front ++ (markerLine "Plate" ++ back)))] l) ∧
    '/' ∉ front.toList ∧ '/' ∉ back.toList ∧ w.flags.label = true ∧ w.node = operand := by
  have hrun : ∀ l, (assembling .primitive plain fused).Runs [] [⟨⟨2, 0⟩, Flags.all⟩] l _ _ l :=
    fun _ => .framed (n := fusion) ⟨rfl, by simp, by decide⟩ rfl
      (.framed (n := operand) ⟨rfl, by decide, by decide⟩ rfl .done .done) .done
  rw [code_of_labelled rfl rfl rfl] at hrun
  refine ⟨_, _, _, _, hrun, by decide, fun hmem => ?_, rfl, rfl⟩
  refine absurd (Quiet.unmarked (.append (.indent ?_) ?_) _ hmem) (by decide)
  · exact .append (.append (quiet_primitive (k := .box 1 1 1) rfl nofun) .empty) <|
      .append (.literal rfl) <| quiet_trailing _ _
  · exact .append (.literal rfl) (quiet_trailing _ _)

theorem skips_plate : Skips "Rig" (markerLine "Plate") := by
  have hneedle : (markerLine "Rig").toList = '/' :: '/' :: "----- Rig -----".toList := by decide
  have hline : (markerLine "Plate").toList = '/' :: '/' :: "----- Plate -----".toList := by decide
  intro text
  rw [hneedle, hline, List.cons_append, List.cons_append,
    Text.count_cons_of_later (List.cons_ne_nil _ _),
    Text.count_cons_of_later (List.cons_ne_nil _ _), Text.count_append_of_not_mem (by decide)]
  · simp
  · simp

/-- The section of a fusion is its code, in which its hidden operand has its marker behind a tab. -/
theorem section_of_fusion :
    ∃ a requests l₀ l₁ text, assemble .primitive [] plain fused = (.ok a, requests) ∧
      fused.get? ⟨2, 0⟩ = some fusion ∧ ¬fused.IsHollow ⟨2, 0⟩ fusion ∧
      occurrences a.scene ("//----- " ++ sanitize fusion.label ++ " -----") = 1 ∧
      ((assembling .primitive plain fused).compile ⟨2, 0⟩ Flags.all).run.run l₀ =
        (.ok ("\n" ++ text), l₁) ∧
      nodeSection? a.scene (sanitize fusion.label) = some text ∧
      ∃ k, 0 < k ∧ contains ("\n" ++ text) (tabbed k operand.label) = true := by
  obtain ⟨front, back, v, w, hrun, hfront, hback, hlabel, hnode⟩ := runs_fused
  have hr := hrun ⟨[], MeshFile.empty⟩
  rw [← rootSteps_fused] at hr
  obtain ⟨a, h⟩ := assemble_of_runs hr
  obtain ⟨codes, l', hcodes, hscene, _, hsections⟩ := section_of_root h
  cases hcodes.symm.trans hr.compileRoots
  change a.scene = sceneHead plain false ++ String.join _ at hscene
  have hskips : Skips "Rig" (front ++ (markerLine "Plate" ++ back)) :=
    .append (skips_of_not_mem hfront) (.append skips_plate (skips_of_not_mem hback))
  have hone := occurrences_eq_one hskips (by simpa using hscene)
  have hsolid : ∀ id m, m.kind ≠ .body none → ¬fused.IsHollow id m := fun _ _ hm hk => hm hk.1
  obtain ⟨text, hcode, hsection, _, l₀, visits, l₁, hcompile, hown, htabs⟩ :=
    hsections ⟨2, 0⟩ fusion _ (by rw [roots_fused]; exact List.mem_singleton_self _) rfl
      (hsolid _ _ nofun)
  obtain ⟨rfl, _, _⟩ := hown.unique (hrun l₀)
  obtain ⟨k, hk, hplate⟩ := htabs w (by simp) hlabel (hsolid _ _ (hnode ▸ nofun))
  rw [hnode] at hplate
  rw [hcode] at hcompile hplate
  exact ⟨a, _, l₀, l₁, text, h, rfl, hsolid _ _ nofun, hone, hcompile, hsection hone, k, hk, hplate⟩

end Operands

section Bodies

variable {rest scene : String}

def namesakes : Document :=
  [Node.ofKind "Quad" (.body none), Node.ofKind "Quad" (.box 1 1 1)].foldl Document.add
    Document.empty

theorem roots_namesakes : namesakes.roots = [⟨1, 0⟩, ⟨2, 0⟩] :=
  Document.roots_of_parents_eq_nil (by decide)

theorem isHollow_namesakes : namesakes.IsHollow ⟨1, 0⟩ (Node.ofKind "Quad" (.body none)) := by
  have hout : namesakes.outList ⟨1, 0⟩ = [] := rfl
  refine ⟨rfl, ?_⟩
  unfold Document.supportsBody Document.outListRecursive
  rw [hout]
  simp [walk]

theorem runs_namesakes : ∃ visits rest, Quiet rest ∧ (assembling .primitive plain namesakes).Runs []
    (assembling .primitive plain namesakes).rootSteps ⟨[], MeshFile.empty⟩ visits
    ["", "\n" ++ (markerLine "Quad" ++ rest)] ⟨[], MeshFile.empty⟩ := by
  have hbody : (assembling .primitive plain namesakes).plan ⟨1, 0⟩
      (Node.ofKind "Quad" (.body none)) Flags.all = .nothing := by
    have hk : (Node.ofKind "Quad" (.body none)).kind = .body none := rfl
    unfold Surroundings.plan
    simp only [hk]
    exact if_pos isHollow_namesakes.2
  have hbox : (assembling .primitive plain namesakes).Runs [] [⟨⟨2, 0⟩, Flags.all⟩]
      ⟨[], MeshFile.empty⟩ _ _ _ :=
    .framed (n := Node.ofKind "Quad" (.box 1 1 1)) ⟨rfl, by simp, by decide⟩ rfl .done .done
  rw [marker_of_label rfl, String.append_assoc] at hbox
  rw [rootSteps_assembling, roots_namesakes]
  refine ⟨_, _, ?_, .nothing ⟨rfl, by simp, by decide⟩ hbody hbox⟩
  exact .append (.append (quiet_primitive (k := .box 1 1 1) rfl nofun) .empty) <|
    .append (.literal rfl) <| quiet_trailing _ _

theorem assemble_namesakes : ∃ a requests l' rest,
    assemble .primitive [] plain namesakes = (.ok a, requests) ∧
      (assembling .primitive plain namesakes).compileRoots.run.run ⟨[], MeshFile.empty⟩ =
        (.ok ["", "\n" ++ (markerLine "Quad" ++ rest)], l') ∧
      a.scene = sceneHead plain false ++ ("\n" ++ (markerLine "Quad" ++ rest)) ∧ Quiet rest := by
  obtain ⟨visits, rest, hrest, hr⟩ := runs_namesakes
  obtain ⟨a, h⟩ := assemble_of_runs hr
  obtain ⟨visits', codes', l', hr', hscene, _⟩ := runs_of_assemble h
  obtain ⟨_, rfl, rfl⟩ := hr'.unique hr
  change a.scene = sceneHead plain false ++ String.join _ at hscene
  exact ⟨a, _, _, rest, h, hr.compileRoots, by simpa using hscene, hrest⟩

/-- The body has the marker of the box, but its code is not the section of the marker. -/
theorem hollow_body_has_other_section :
    let body := Node.ofKind "Quad" (.body none)
    ∃ a requests codes l' text, assemble .primitive [] plain namesakes = (.ok a, requests) ∧
      (assembling .primitive plain namesakes).compileRoots.run.run ⟨[], MeshFile.empty⟩ =
        (.ok codes, l') ∧
      (⟨1, 0⟩, "") ∈ namesakes.roots.zip codes ∧ namesakes.get? ⟨1, 0⟩ = some body ∧
      occurrences a.scene ("//----- " ++ sanitize body.label ++ " -----") = 1 ∧
      nodeSection? a.scene (sanitize body.label) = some text ∧ text ≠ "" := by
  intro body
  obtain ⟨a, requests, l', rest, h, hrun, hscene, hrest⟩ := assemble_namesakes
  have hone := occurrences_eq_one (skips_of_quiet hrest) hscene
  have hwhole : a.scene = sceneHead plain false ++ ("\n" ++ (markerLine "Quad" ++ rest) ++ "") := by
    rw [hscene, String.append_empty]
  have hsection := nodeSection?_eq hwhole hone (.of_quiet hrest) (.inl rfl)
  refine ⟨a, requests, _, l', _, h, hrun, by rw [roots_namesakes]; simp, rfl, hone, hsection, ?_⟩
  simp [markerLine]

end Bodies

end RayScene.Sections
