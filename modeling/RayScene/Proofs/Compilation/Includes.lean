import RayScene.Proofs.Compilation.Transfer
import RayScene.Proofs.Documents.Repair
import RayScene.Proofs.Text.Search
/-!
What include files are asked. A few names for the label of each node are looked up, and in the
user's file whether there is a camera. Files that answer these alike give the same export.
-/
set_option autoImplicit false

namespace RayScene

open Sdl

def textureSuffixes : List String := ["_material_hollow", "_material", "_texture", "_pigment"]

def userSuffixes : List String :=
  ["_material", "_photons", "_photons_reflection", "_photons_refraction", "_photons_collect"]

/-- Two files declare the same of some names for a label. -/
def Sdl.Include.DeclareAlike (i i' : Include) (suffixes : List String) (label : String) : Prop :=
  ∀ suffix ∈ suffixes, i'.declares (sanitize label ++ suffix) =
    i.declares (sanitize label ++ suffix)

/-- Contexts that differ in their include files only, where these agree on all that is asked about
the nodes of a document. -/
structure Context.LooksAlike (c c' : Context) (d : Document) : Prop where
  settings : c'.settings = c.settings
  camera : c'.camera = c.camera
  textures : ∀ id n, d.get? id = some n →
    c.textures.DeclareAlike c'.textures textureSuffixes n.label
  user : ∀ id n, d.get? id = some n → c.user.DeclareAlike c'.user userSuffixes n.label
  userCamera : c'.user.mentions "camera" = c.user.mentions "camera"

namespace Sdl

variable {c c' : Context} {n : Node} {s : Surroundings} {id : NodeId} {f : Flags}

theorem textureClause?_eq {i i' : Include} {label : String}
    (h : i.DeclareAlike i' textureSuffixes label) :
    textureClause? i' (sanitize label) = textureClause? i (sanitize label) := by
  unfold textureClause?
  rw [h "_material_hollow" (by decide), h "_material" (by decide), h "_texture" (by decide),
    h "_pigment" (by decide)]

theorem material_eq (hsettings : c'.settings = c.settings)
    (htextures : c.textures.DeclareAlike c'.textures textureSuffixes n.label)
    (huser : c.user.DeclareAlike c'.user userSuffixes n.label) : material c' n = material c n := by
  unfold material
  simp only [huser "_material" (by decide), textureClause?_eq htextures, hsettings]

theorem photons_eq (huser : c.user.DeclareAlike c'.user userSuffixes n.label) :
    photons c' n = photons c n := by
  have hclause : ∀ name, "_photons_" ++ name ∈ userSuffixes →
      c'.user.declares (sanitize n.label ++ "_photons_" ++ name) =
        c.user.declares (sanitize n.label ++ "_photons_" ++ name) := by
    intro name hname
    rw [String.append_assoc]
    exact huser _ hname
  unfold photons
  simp only [huser "_photons" (by decide), hclause "reflection" (by decide),
    hclause "refraction" (by decide), hclause "collect" (by decide)]

namespace Surroundings

variable {d : Document}

theorem trailing_eq_of_clauses (hmaterial : material c' n = material c n)
    (hphotons : photons c' n = photons c n) (f : Flags) :
    trailing ⟨d, c'⟩ n f = trailing ⟨d, c⟩ n f := by
  unfold trailing
  rw [hmaterial, hphotons]

theorem array_eq_of_clauses (hmaterial : material c' n = material c n)
    (hphotons : photons c' n = photons c n) (f : Flags) (a : NodeArray) :
    array ⟨d, c'⟩ n f a = array ⟨d, c⟩ n f a := by
  have hcopy : copyClauses ⟨d, c'⟩ n f = copyClauses ⟨d, c⟩ n f := by
    unfold copyClauses
    rw [hmaterial, hphotons]
  have hpolar : ∀ ident p, polarLoop ⟨d, c'⟩ n f ident p = polarLoop ⟨d, c⟩ n f ident p := by
    intro ident p
    unfold polarLoop
    rw [hcopy]
  have hortho : ∀ ident o, orthoLoop ⟨d, c'⟩ n f ident o = orthoLoop ⟨d, c⟩ n f ident o := by
    intro ident o
    unfold orthoLoop
    rw [hcopy]
  unfold array loops
  simp only [hpolar, hortho, trailing_eq_of_clauses hmaterial hphotons]

theorem plan_eq_of_clauses (hmaterial : material c' n = material c n)
    (hphotons : photons c' n = photons c n) (id : NodeId) (f : Flags) :
    plan ⟨d, c'⟩ id n f = plan ⟨d, c⟩ id n f := by
  have htrailing := trailing_eq_of_clauses (d := d) hmaterial hphotons
  have hsimple : ∀ g code, simple ⟨d, c'⟩ n g code = simple ⟨d, c⟩ n g code := by
    intro g code
    unfold simple
    rw [htrailing]
  have hcontainer : container ⟨d, c'⟩ n f = container ⟨d, c⟩ n f := by
    unfold container
    rw [htrailing]
  unfold plan
  cases n.kind with
  | boolean op =>
    dsimp only
    unfold boolean
    rw [htrailing]
  | part => exact hcontainer
  | group => exact hcontainer
  | array a => exact array_eq_of_clauses hmaterial hphotons f a
  | clone sources scale =>
    dsimp only
    unfold clone
    rw [htrailing]
  | extrusion e =>
    dsimp only
    unfold extrusion
    simp only [hsimple]
    rfl
  | pad p => rfl
  | pocket p => rfl
  | body tip =>
    dsimp only
    unfold body
    rw [htrailing]
  | _ => simp only [hsimple]

theorem meshReference_eq_of_clauses (hmaterial : material c' n = material c n)
    (hphotons : photons c' n = photons c n) (f : Flags) :
    meshReference ⟨d, c'⟩ n f = meshReference ⟨d, c⟩ n f := by
  unfold meshReference
  rw [hmaterial, hphotons]

end Surroundings

end Sdl

section Exports

variable {c c' : Context} {d : Document} {t : Tessellator} {id : NodeId} {n : Node}

namespace Context

theorem LooksAlike.repaired_eq (h : c.LooksAlike c' d) : c'.repaired d = c.repaired d := by
  unfold repaired
  rw [h.settings]

theorem LooksAlike.clauses (h : c.LooksAlike c' d) (hn : (c.repaired d).get? id = some n) :
    material c' n = material c n ∧ photons c' n = photons c n := by
  rw [c.get?_repaired_eq, Option.map_eq_some_iff] at hn
  obtain ⟨m, hm, rfl⟩ := hn
  have hlabel : (c.mend m).label = m.label := c.mend_label m
  have htextures := h.textures id m hm
  have huser := h.user id m hm
  rw [← hlabel] at htextures huser
  exact ⟨material_eq h.settings htextures huser, photons_eq huser⟩

theorem LooksAlike.matches (h : c.LooksAlike c' d) :
    (⟨⟨c.repaired d, c⟩, t⟩ : Workshop).Matches ⟨⟨c.repaired d, c'⟩, t⟩
      (fun _ => True) (· = ·) where
  found _ _ := rfl
  plan id n f _ hn := by
    obtain ⟨hmaterial, hphotons⟩ := h.clauses hn
    exact Surroundings.plan_eq_of_clauses hmaterial hphotons id f
  inside _ _ _ _ _ _ _ := trivial
  tessellated id n f l l' _ hn hl := by
    obtain ⟨hmaterial, hphotons⟩ := h.clauses hn
    have href := Surroundings.meshReference_eq_of_clauses (d := c.repaired d) hmaterial hphotons f
    subst hl
    refine ⟨_, _, _, rfl, ?_, rfl⟩
    unfold Workshop.tessellated
    rw [href]
    rfl

theorem LooksAlike.compileRoots_eq (h : c.LooksAlike c' d) :
    (⟨⟨c'.repaired d, c'⟩, t⟩ : Workshop).compileRoots =
      (⟨⟨c.repaired d, c⟩, t⟩ : Workshop).compileRoots := by
  rw [h.repaired_eq]
  have hcompile : ∀ id f, (⟨⟨c.repaired d, c'⟩, t⟩ : Workshop).compile id f =
      (⟨⟨c.repaired d, c⟩, t⟩ : Workshop).compile id f := by
    intro id f
    funext l
    obtain ⟨result, l₁, _, hc, hc', rfl⟩ := h.matches.compile id trivial f l l rfl
    exact hc'.trans hc.symm
  unfold Workshop.compileRoots
  simp only [hcompile]

/-- Beside the nodes, only the camera asks a file for something. -/
theorem LooksAlike.sceneHead_eq (h : c.LooksAlike c' d) (withMeshes : Bool) :
    sceneHead c' withMeshes = sceneHead c withMeshes := by
  obtain ⟨settings, camera, user, textures⟩ := c
  obtain ⟨settings', camera', user', textures'⟩ := c'
  obtain rfl : settings' = settings := h.settings
  obtain rfl : camera' = camera := h.camera
  have hcamera : cameraBlock ⟨settings', camera', user', textures'⟩ =
      cameraBlock ⟨settings', camera', user, textures⟩ := by
    unfold cameraBlock hasUserCamera
    rw [h.userCamera]
    rfl
  unfold sceneHead
  rw [hcamera]
  rfl

theorem LooksAlike.summary_eq (h : c.LooksAlike c' d) :
    Summary.collect d c' = Summary.collect d c := by
  unfold Summary.collect hasUserCamera paths
  rw [h.settings, h.camera, h.userCamera]

end Context

theorem assemble_of_looksAlike (h : c.LooksAlike c' d) (earlier : List Request) :
    assemble t earlier c' d = assemble t earlier c d := by
  simp only [assemble, h.compileRoots_eq, h.sceneHead_eq, h.summary_eq]

section Unusable

variable {source : String} {e : IncludeError}

theorem Sdl.Include.mentions_empty {text : String} (h : text ≠ "") :
    Include.empty.mentions text = false := by
  simpa [mentions, empty] using contains_empty h

theorem Sdl.Include.declares_empty (ident : String) : Include.empty.declares ident = false := by
  apply mentions_empty
  intro h
  have hlength := congrArg String.length h
  simp only [String.length_append, String.length_empty] at hlength
  have hpositive : 0 < "#declare ".length := by decide
  omega

theorem stripComments_of_open {before after : List Char}
    (hopen : Text.cut? ['/', '*'] source.toList = some (before, after))
    (hend : Text.cut? ['*', '/'] after = none) :
    stripComments source = .error (.unterminatedComment (Text.byteLength before)) := by
  unfold stripComments
  rw [stripBlocks]
  split
  · rename_i hnone
    cases hnone.symm.trans hopen
  · rename_i hsome
    cases hsome.symm.trans hopen
    split
    · rfl
    · rename_i hclosed
      cases hclosed.symm.trans hend

theorem Sdl.Include.load_of_error (h : stripComments source = .error e) :
    Include.load source = ⟨none⟩ := by
  unfold load
  rw [h]

theorem Sdl.Include.declares_load_of_error (h : stripComments source = .error e) (ident : String) :
    (Include.load source).declares ident = Include.empty.declares ident := by
  rw [load_of_error h, declares_empty]
  rfl

theorem Context.looksAlike_user (h : stripComments source = .error e) (c : Context) (d : Document) :
    { c with user := .empty }.LooksAlike { c with user := .load source } d where
  settings := rfl
  camera := rfl
  textures _ _ _ _ _ := rfl
  user _ _ _ _ _ := Include.declares_load_of_error h _
  userCamera := by
    dsimp only
    rw [Include.load_of_error h, Include.mentions_empty (by decide)]
    rfl

theorem Context.looksAlike_textures (h : stripComments source = .error e) (c : Context)
    (d : Document) :
    { c with textures := .empty }.LooksAlike { c with textures := .load source } d where
  settings := rfl
  camera := rfl
  textures _ _ _ _ _ := Include.declares_load_of_error h _
  user _ _ _ _ _ := rfl
  userCamera := rfl

end Unusable

/-- Include files matter through their answers only. Contexts whose files declare the same of the
names that are looked up for the nodes, and agree on whether there is a user's camera, give the same
files, summary or error with the same requests to the tessellator. So a file that has no end to a
comment is as good as an empty one. -/
theorem assemble_reads_lookups (t : Tessellator) (earlier : List Request) (d : Document) :
    (∀ c c' : Context, c.LooksAlike c' d → assemble t earlier c' d = assemble t earlier c d) ∧
    ∀ source e, stripComments source = .error e → ∀ c : Context,
      assemble t earlier { c with user := .load source } d =
        assemble t earlier { c with user := .empty } d ∧
      assemble t earlier { c with textures := .load source } d =
        assemble t earlier { c with textures := .empty } d := by
  refine ⟨fun c c' h => assemble_of_looksAlike h earlier, fun source e h c => ⟨?_, ?_⟩⟩
  · exact assemble_of_looksAlike (c.looksAlike_user h d) earlier
  · exact assemble_of_looksAlike (c.looksAlike_textures h d) earlier

/-- A material for something else makes no difference to a box, nor does one in a comment without an
end. -/
theorem assemble_unread_material :
    let d := Document.empty.add (Node.ofKind "Box" (.box 1 1 1))
    let c : Context := { Context.bare Settings.standard Camera.standard with
      user := ⟨some "#declare Box_material"⟩ }
    let c' : Context := { c with user := ⟨some "#declare Box_material #declare Ball_material"⟩ }
    let source := "/* #declare Box_texture"
    c.LooksAlike c' d ∧ stripComments source = .error (.unterminatedComment 0) ∧
      assemble .primitive [] c' d = assemble .primitive [] c d ∧
      assemble .primitive [] { c with textures := .load source } d =
        assemble .primitive [] { c with textures := .empty } d := by
  intro d c c' source
  have hlook : c.LooksAlike c' d := by
    refine ⟨rfl, rfl, fun _ _ _ _ _ => rfl, fun id n hn => ?_, by decide +kernel⟩
    have hslot := Array.mem_of_getElem? (Document.getElem?_of_get? hn)
    obtain ⟨_, rfl⟩ : id.generation = 0 ∧ n = Node.ofKind "Box" (.box 1 1 1) := by
      simpa [d, Document.add, Document.empty, Document.nextId] using hslot
    unfold Include.DeclareAlike
    decide +kernel
  have hcut : Text.cut? ['/', '*'] source.toList = some ([], " #declare Box_texture".toList) := by
    decide
  have hopen : stripComments source = .error (.unterminatedComment 0) :=
    stripComments_of_open hcut (by decide)
  obtain ⟨halike, hunusable⟩ := assemble_reads_lookups .primitive [] d
  exact ⟨hlook, hopen, halike c c' hlook, (hunusable source _ hopen c).2⟩

end Exports

end RayScene
