import RayScene.Proofs.Stored.Records
/-!
Settings with gaps. Members may be missing from the stored form of settings on three levels: those
of the settings themselves, those of the records in them, and the optional one of a radiosity. What
is read is what was stored, with the standard values of the records they belong to in the place of
those that are missing.

Which members are missing is said by their paths: the names from the outermost member down to the
missing one.
-/
set_option autoImplicit false

namespace RayScene

namespace Json

def within (name : String) (gone : List String → Bool) : List String → Bool :=
  fun path => gone (name :: path)

mutual

def erase (gone : List String → Bool) : Json → Json
  | .object ms => .object (eraseMembers gone ms)
  | j => j

def eraseMembers (gone : List String → Bool) : List (String × Json) → List (String × Json)
  | [] => []
  | (name, j) :: ms =>
    if gone [name] then eraseMembers gone ms
    else (name, erase (within name gone) j) :: eraseMembers gone ms

end

def IsTextOf (text : String) (j : Json) : Prop :=
  ∃ k, readLoose text = some k ∧ j.readsAs k = true

def readLooseChars (cs : List Char) : Option Json :=
  match scanValue (2 * cs.length + 2) cs with
  | some (j, rest) => if skipBlanks rest = [] then some j else none
  | none => none

theorem readLoose_ofList (cs : List Char) : readLoose (String.ofList cs) = readLooseChars cs := by
  rw [readLoose, String.toList_ofList]
  rfl

instance (cs : List Char) (j : Json) : Decidable (IsTextOf (String.ofList cs) j) :=
  decidable_of_iff ((readLooseChars cs).any j.readsAs = true) <| by
    simp [IsTextOf, readLoose_ofList, Option.any_eq_true]

def remaining {α : Type} (gone : List String → Bool) (name : String) (standard value : α) : α :=
  if gone [name] then standard else value

/-- What is found of a member: nothing if it is gone, and else what remains of its value. -/
def FoundAs (gone : List String → Bool) (m : String × Json) : Option Json → Prop
  | none => gone [m.1] = true
  | some k => gone [m.1] = false ∧ (m.2.erase (within m.1 gone)).readsAs k = true

def AreFound (gone : List String → Bool) : List (String × Json) → (List (Option Json) → Prop) → Prop
  | [], P => P []
  | m :: ms, P => ∀ k?, FoundAs gone m k? → AreFound gone ms fun ks => P (k? :: ks)

section Members

variable {gone : List String → Bool} {name : String} {j : Json} {ms ns : List (String × Json)}

mutual

theorem erase_nothing (j : Json) : erase (fun _ => false) j = j := by
  cases j with
  | object ms => rw [erase, eraseMembers_nothing ms]
  | _ => rfl

theorem eraseMembers_nothing (ms : List (String × Json)) :
    eraseMembers (fun _ => false) ms = ms := by
  cases ms with
  | nil => rfl
  | cons m ms =>
    obtain ⟨name, j⟩ := m
    have hvalue : erase (within name fun _ => false) j = j := erase_nothing j
    simp only [eraseMembers, Bool.false_eq_true, if_false, hvalue, eraseMembers_nothing ms]

end

theorem keys_eraseMembers : ((eraseMembers gone ms).map (·.1)).Sublist (ms.map (·.1)) := by
  induction ms with
  | nil => exact .slnil
  | cons m ms ih =>
    obtain ⟨name, j⟩ := m
    rw [eraseMembers]
    split
    · exact ih.cons name
    · exact ih.cons_cons name

theorem mem_eraseMembers (h : (name, j) ∈ ms) (hkept : gone [name] = false) :
    (name, j.erase (within name gone)) ∈ eraseMembers gone ms := by
  induction ms with
  | nil => cases h
  | cons m ms ih =>
    rcases List.mem_cons.mp h with rfl | hrest
    · simp [eraseMembers, hkept]
    · rw [eraseMembers]
      split
      · exact ih hrest
      · exact List.mem_cons_of_mem _ (ih hrest)

theorem kept_of_mem_eraseMembers (h : name ∈ (eraseMembers gone ms).map (·.1)) :
    gone [name] = false := by
  induction ms with
  | nil => cases h
  | cons m ms ih =>
    rw [eraseMembers] at h
    split at h
    · exact ih h
    · rcases List.mem_cons.mp h with rfl | h
      · exact Bool.eq_false_iff.mpr ‹_›
      · exact ih h

theorem foundAs_lookup (hkeys : (ms.map (·.1)).Nodup)
    (hns : membersReadAs (eraseMembers gone ms) ns = true)
    (h : (name, j) ∈ ms) : FoundAs gone (name, j) (ns.lookup name) := by
  cases hgone : gone [name] with
  | true =>
    have hnone : ns.lookup name = none := by
      rw [List.lookup_eq_none_iff]
      intro n hn
      rw [bne_iff_ne]
      rintro rfl
      have hmem : n.1 ∈ (eraseMembers gone ms).map (·.1) := by
        rw [← (membersReadAs_iff.mp hns).1]
        exact List.mem_map_of_mem hn
      rw [kept_of_mem_eraseMembers hmem] at hgone
      cases hgone
    rw [hnone]
    exact hgone
  | false =>
    obtain ⟨k, hk, hread⟩ :=
      exists_lookup_of_mem hns (hkeys.sublist keys_eraseMembers) (mem_eraseMembers h hgone)
    rw [hk]
    exact ⟨hgone, hread⟩

theorem AreFound.apply {P : List (Option Json) → Prop} (h : AreFound gone ms P)
    (hall : ∀ m ∈ ms, FoundAs gone m (ns.lookup m.1)) : P (ms.map fun m => ns.lookup m.1) := by
  induction ms generalizing P with
  | nil => exact h
  | cons m ms ih =>
    obtain ⟨hfirst, hrest⟩ := List.forall_mem_cons.mp hall
    exact ih (P := fun ks => P (ns.lookup m.1 :: ks)) (h _ hfirst) hrest

/-- A record comes back if it is made of whatever is found of its fields. -/
theorem reads_erased {α : Type} {read : List (Option Json) → Option α} {a : α} (names : List String)
    (hnames : ms.map (·.1) = names) (hnodup : names.Nodup)
    (h : AreFound gone ms fun values => read values = some a) :
    Reads (fun j => (j.fields? names).bind read) ((Json.object ms).erase gone) a := by
  intro k hk
  rw [erase] at hk
  obtain ⟨ns, rfl, hns⟩ := exists_of_readsAs_object hk
  rw [← hnames] at hnodup
  have hkeys : (ns.map (·.1)).Nodup := by
    rw [(membersReadAs_iff.mp hns).1]
    exact hnodup.sublist keys_eraseMembers
  have hvalues := h.apply fun m hm => foundAs_lookup hnodup hns hm
  dsimp only
  rw [fields?_object hkeys, ← hnames, List.map_map]
  exact hvalues

theorem FoundAs.defaulted_eq {α : Type} {read : Json → Option α} {k? : Option Json}
    {standard value : α} (h : FoundAs gone (name, j) k?)
    (hread : Reads read (j.erase (within name gone)) value) :
    defaulted standard read k? = some (remaining gone name standard value) := by
  cases k? with
  | none =>
    rw [remaining, if_pos (show gone [name] = true from h)]
    rfl
  | some k =>
    rw [remaining, if_neg (ne_true_of_eq_false h.1)]
    exact hread k h.2

end Members

end Json

open Json

variable (gone : List String → Bool)

def Radiosity.completed (r : Radiosity) : Radiosity :=
  ⟨r.preset, remaining gone "ambient_to_zero" false r.ambientToZero⟩

def Environment.completed (e : Environment) : Environment where
  enabled := remaining gone "enabled" standard.enabled e.enabled
  source := remaining gone "option" standard.source e.source
  hdrPath := remaining gone "hdr_path" standard.hdrPath e.hdrPath
  rotation := remaining gone "rotation" standard.rotation e.rotation
  offset := remaining gone "translation" standard.offset e.offset

def Viewport.completed (v : Viewport) : Viewport where
  shapeColor := remaining gone "default_shape_color" standard.shapeColor v.shapeColor
  style := remaining gone "background_style" standard.style v.style
  plainColor := remaining gone "background_color" standard.plainColor v.plainColor
  bottomColor := remaining gone "background_color2" standard.bottomColor v.bottomColor
  topColor := remaining gone "background_color3" standard.topColor v.topColor
  middleColor := remaining gone "background_color4" standard.middleColor v.middleColor
  useMiddle := remaining gone "use_background_color_mid" standard.useMiddle v.useMiddle

def Renderer.completed (r : Renderer) : Renderer where
  executable := remaining gone "executable" standard.executable r.executable
  mode := remaining gone "exec_mode" standard.mode r.mode
  parameters := remaining gone "render_parameters" standard.parameters r.parameters

/-- The settings with the standard values of their records in the place of all that is gone. A
record that is gone itself is the standard one. -/
def Settings.completed (s : Settings) : Settings where
  projectName := remaining gone "project_name" standard.projectName s.projectName
  directory := remaining gone "directory" standard.directory s.directory
  width := remaining gone "width" standard.width s.width
  height := remaining gone "height" standard.height s.height
  exportLight := remaining gone "export_light" standard.exportLight s.exportLight
  repairRotation := remaining gone "repair_rotation" standard.repairRotation s.repairRotation
  captureView := remaining gone "export_fc_view" standard.captureView s.captureView
  radiosity := remaining gone "radiosity" standard.radiosity
    (s.radiosity.map (·.completed (within "radiosity" gone)))
  environment := remaining gone "environment" standard.environment
    (s.environment.completed (within "environment" gone))
  view := remaining gone "view" standard.view (s.view.completed (within "view" gone))
  renderer := remaining gone "renderer" standard.renderer
    (s.renderer.completed (within "renderer" gone))

variable {gone}

theorem EnvironmentSource.reads (nested : Bool) (s : EnvironmentSource) :
    Reads (choice? nested choices) (nameIn choices s) s :=
  reads_choice (by decide) (by cases s <;> decide) nested

theorem BackgroundStyle.reads (nested : Bool) (s : BackgroundStyle) :
    Reads (choice? nested choices) (nameIn choices s) s :=
  reads_choice (by decide) (by cases s <;> decide) nested

theorem RunMode.reads (nested : Bool) (m : RunMode) :
    Reads (choice? nested choices) (nameIn choices m) m :=
  reads_choice (by decide) (by cases m <;> decide) nested

theorem Radiosity.reads_erased (r : Radiosity) (hpreset : gone ["preset"] = false) :
    Reads Radiosity.ofJson? (r.toJson.erase gone) (r.completed gone) := by
  apply Json.reads_erased ["preset", "ambient_to_zero"] rfl (by decide)
  intro preset? hfound ambient? hambient
  obtain ⟨preset, rfl, hread⟩ : ∃ k, preset? = some k ∧ string? k = some r.preset := by
    cases preset? with
    | none => cases hpreset.symm.trans hfound
    | some k => exact ⟨k, rfl, reads_string _ k hfound.2⟩
  simp [AreFound, required, hread, hambient.defaulted_eq (reads_bool _), completed]

theorem Environment.reads_erased (e : Environment) :
    Reads Environment.ofJson? (e.toJson.erase gone) (e.completed gone) := by
  apply Json.reads_erased ["enabled", "option", "hdr_path", "rotation", "translation"] rfl
    (by decide)
  intro _ enabled _ source _ hdrPath _ rotation _ offset
  simp [AreFound, enabled.defaulted_eq (reads_bool _), source.defaulted_eq (e.source.reads false),
    hdrPath.defaulted_eq (reads_string _), rotation.defaulted_eq e.rotation.reads,
    offset.defaulted_eq e.offset.reads, completed]

theorem Viewport.reads_erased (v : Viewport) :
    Reads Viewport.ofJson? (v.toJson.erase gone) (v.completed gone) := by
  apply Json.reads_erased ["default_shape_color", "background_style", "background_color",
    "background_color2", "background_color3", "background_color4", "use_background_color_mid"] rfl
    (by decide)
  intro _ shapeColor _ style _ plain _ bottom _ top _ middle _ useMiddle
  simp [AreFound, shapeColor.defaulted_eq (reads_uint32 _),
    style.defaulted_eq (v.style.reads false),
    plain.defaulted_eq (reads_uint32 _), bottom.defaulted_eq (reads_uint32 _),
    top.defaulted_eq (reads_uint32 _), middle.defaulted_eq (reads_uint32 _),
    useMiddle.defaulted_eq (reads_bool _), completed]

theorem Renderer.reads_erased (r : Renderer) :
    Reads Renderer.ofJson? (r.toJson.erase gone) (r.completed gone) := by
  apply Json.reads_erased ["executable", "exec_mode", "render_parameters"] rfl (by decide)
  intro _ executable _ mode _ parameters
  simp [AreFound, executable.defaulted_eq (reads_string _), mode.defaulted_eq (r.mode.reads false),
    parameters.defaulted_eq (reads_string _), completed]

namespace Settings

theorem reads_radiosity (s : Settings) (hpreset : gone ["preset"] = false) :
    Reads (option? Radiosity.ofJson?) ((optionJson Radiosity.toJson s.radiosity).erase gone)
      (s.radiosity.map (·.completed gone)) := by
  have hnull : Radiosity.ofJson? .null = none := rfl
  cases s.radiosity with
  | none =>
    have hread : ∀ r, none = some r → Reads Radiosity.ofJson? r.toJson r := nofun
    have hnone := reads_option hnull hread
    exact hnone
  | some r =>
    have hread : ∀ a, some (r.completed gone) = some a →
        Reads Radiosity.ofJson? (r.toJson.erase gone) a := by
      rintro _ ⟨⟩
      exact r.reads_erased hpreset
    have hsome := reads_option hnull hread
    exact hsome

theorem reads_erased (s : Settings) (hpreset : gone ["radiosity", "preset"] = false) :
    Reads ofJson? (s.toJson.erase gone) (s.completed gone) := by
  apply Json.reads_erased ["project_name", "directory", "width", "height", "export_light",
    "repair_rotation", "export_fc_view", "radiosity", "environment", "view", "renderer"] rfl
    (by decide)
  intro _ projectName _ directory _ width _ height _ exportLight _ repairRotation _ captureView
    _ radiosity _ environment _ view _ renderer
  simp [AreFound, projectName.defaulted_eq (reads_string _),
    directory.defaulted_eq (reads_string _), width.defaulted_eq (reads_uint32 _),
    height.defaulted_eq (reads_uint32 _), exportLight.defaulted_eq (reads_bool _),
    repairRotation.defaulted_eq (reads_bool _), captureView.defaulted_eq (reads_bool _),
    radiosity.defaulted_eq (s.reads_radiosity hpreset),
    environment.defaulted_eq s.environment.reads_erased, view.defaulted_eq s.view.reads_erased,
    renderer.defaulted_eq s.renderer.reads_erased, completed]

theorem completed_nothing (s : Settings) : s.completed (fun _ => false) = s := by
  obtain ⟨_, _, _, _, _, _, _, radiosity, _, _, _⟩ := s
  cases radiosity <;> rfl

/-- Settings that have been saved are loaded as they were. If members are missing from what has been
saved, other than the preset of a radiosity, then so are the settings that are loaded, with the
standard values of their records in the place of these members. -/
theorem load?_of_isTextOf :
    (∀ s : Settings, IsTextOf s.save s.toJson → load? s.save = some s) ∧
    ∀ (s : Settings) (gone : List String → Bool) (text : String),
      gone ["radiosity", "preset"] = false →
      IsTextOf text (s.toJson.erase gone) → load? text = some (s.completed gone) := by
  have hgaps : ∀ (s : Settings) (gone : List String → Bool) (text : String),
      gone ["radiosity", "preset"] = false → IsTextOf text (s.toJson.erase gone) →
        load? text = some (s.completed gone) := by
    rintro s gone text hpreset ⟨k, hk, hread⟩
    rw [load?, hk]
    exact s.reads_erased hpreset k hread
  refine ⟨fun s htext => ?_, hgaps⟩
  rw [← s.toJson.erase_nothing] at htext
  rw [hgaps s _ _ rfl htext, completed_nothing]

/-- Members are missing on all three levels, among them a record as a whole. -/
theorem load?_with_gaps :
    let s : Settings := { standard with
      projectName := "gear", width := 1920, height := 1080
      radiosity := some ⟨"Radiosity_Fast", true⟩
      environment := ⟨true, .hdri, "sky.hdr", ⟨0, 45, 0⟩, ⟨1, 2, 3⟩⟩
      view := { Viewport.standard with style := .simple, plainColor := 0xFF }
      renderer := ⟨"/usr/bin/povray", .detach, "+A0.3\n+AM2"⟩ }
    let missing := [["width"], ["radiosity", "ambient_to_zero"], ["environment", "option"],
      ["environment", "rotation"], ["view"], ["renderer", "exec_mode"]]
    let text := (s.toJson.erase (missing.contains ·)).pretty
    load? s.save = some s ∧
    load? text = some { s with
      width := 800, radiosity := some ⟨"Radiosity_Fast", false⟩
      environment := ⟨true, .viewport, "sky.hdr", ⟨0, 0, 0⟩, ⟨1, 2, 3⟩⟩
      view := Viewport.standard, renderer := ⟨"/usr/bin/povray", .wait, "+A0.3\n+AM2"⟩ } := by
  intro s missing text
  obtain ⟨hsaved, hgaps⟩ := load?_of_isTextOf
  have hs : IsTextOf (String.ofList (prettyText 0 s.toJson)) s.toJson := by decide +kernel
  have ht : IsTextOf (String.ofList (prettyText 0 (s.toJson.erase (missing.contains ·))))
      (s.toJson.erase (missing.contains ·)) := by decide +kernel
  exact ⟨hsaved s hs, hgaps s _ text (by decide) ht⟩

end Settings

end RayScene
