import RayScene.Proofs.Rendering.Effects
set_option autoImplicit false

namespace RayScene

open FileStore

inductive Operation where
  | prepare (settings : Settings) (camera : Camera)
  | export_ (t : Tessellator) (c : Context) (d : Document) (capture : Option Capture)
  | writeIni (c : Context)
  | checkErrorLog (paths : OutputPaths)

namespace Operation

def after (s : Site) : Operation → Site
  | .prepare settings camera => ((Rendering.prepare settings camera).run.run s).2
  | .export_ t c d capture => ((Rendering.export_ t c d capture).run.run s).2
  | .writeIni c => ((Rendering.writeIni c).run.run s).2
  | .checkErrorLog paths => ((Rendering.checkErrorLog (paths.path .errorLog)).run.run s).2

def afterAll (s : Site) (ops : List Operation) : Site := ops.foldl after s

def Modest : Operation → Prop
  | .export_ _ _ _ capture => ∀ shot ∈ capture, shot.Modest
  | _ => True

def written : List OutputFile := [.scene, .ini, .meshInclude, .errorLog, .viewport]

def made : List OutputFile := [.userInclude, .textureInclude]

theorem ne_of_mem_made {own : OutputFile} (h : own ∈ made) : own ≠ .image ∧ own ∉ written := by
  revert h
  cases own <;> decide

theorem confined {op : Operation} (h : op.Modest) (s : Site) :
    Confined written made s.files (op.after s).files := by
  cases op with
  | prepare settings camera =>
    exact (Rendering.prepare_actsOn settings camera s).mono (by decide) (by decide)
  | export_ t c d capture => exact (Rendering.export_actsOn h s).mono (by decide) (by decide)
  | writeIni c => exact (Rendering.writeIni_actsOn c s).mono (by decide) (by decide)
  | checkErrorLog paths =>
    exact (Rendering.checkErrorLog_actsOn paths s).mono (by decide) (by decide)

theorem confined_afterAll {ops : List Operation} (h : ∀ op ∈ ops, op.Modest) (s : Site) :
    Confined written made s.files (afterAll s ops).files := by
  induction ops generalizing s with
  | nil => exact Confined.refl written made s.files
  | cons op ops ih =>
    exact (confined (h op List.mem_cons_self) s).trans
      (ih (fun op' hop => h op' (List.mem_cons_of_mem op hop)) (op.after s))

theorem afterAll_append (s : Site) (earlier later : List Operation) :
    afterAll s (earlier ++ later) = afterAll (afterAll s earlier) later :=
  List.foldl_append

end Operation

section Keeping

variable {s s' : FileStore} {path : String} {own : OutputFile} {content : ByteArray}

theorem content?_eq_some_of_confined (h : Confined Operation.written Operation.made s s')
    (hown : own ∈ Operation.made) (hpath : own.ending.toList <:+ path.toList)
    (hcontent : s.content? path = some content) : s'.content? path = some content := by
  obtain ⟨l, hl, hat⟩ := content?_eq_some_iff.mp hcontent
  have hends := endsIn_of_locate hl hpath own.slash_not_mem_ending
  obtain ⟨himage, hwritten⟩ := Operation.ne_of_mem_made hown
  refine content?_eq_some_iff.mpr ⟨l, h.locate_eq_ok_iff.mpr hl, ?_⟩
  rcases h.at?_eq_or_made hends himage hwritten (by decide) with same | made
  · rw [same, hat]
  · exact absurd (made.2.1.symm.trans hat) nofun

theorem eq_empty_of_confined (h : Confined Operation.written Operation.made s s')
    (hown : own ∈ Operation.made) (hpath : own.ending.toList <:+ path.toList)
    (hbefore : s.content? path = none) (hafter : s'.content? path = some content) :
    content = .empty := by
  obtain ⟨l, hl, hat⟩ := content?_eq_some_iff.mp hafter
  have hends := endsIn_of_locate hl hpath own.slash_not_mem_ending
  obtain ⟨himage, hwritten⟩ := Operation.ne_of_mem_made hown
  rcases h.at?_eq_or_made hends himage hwritten (by decide) with same | made
  · have hsome := content?_eq_some_iff.mpr ⟨l, h.locate_eq_ok_iff.mp hl, same.symm.trans hat⟩
    exact absurd (hbefore.symm.trans hsome) nofun
  · exact FileEntry.file.inj (Option.some.inj (hat.symm.trans made.2.2))

end Keeping

/-- Whatever is run, with whatever settings and documents, and whether it fails or not: what a file
of the user holds at some moment it holds from then on, and a file that appears there is empty. -/
theorem user_file_kept (s : Site) (earlier later : List Operation) (h : ∀ op ∈ later, op.Modest)
    (path : String) (hpath : "_user.inc".toList <:+ path.toList ∨
      "_textures.inc".toList <:+ path.toList)
    (content : ByteArray) :
    ((Operation.afterAll s earlier).files.content? path = some content →
      (Operation.afterAll s (earlier ++ later)).files.content? path = some content) ∧
    ((Operation.afterAll s earlier).files.content? path = none →
      (Operation.afterAll s (earlier ++ later)).files.content? path = some content →
      content = .empty) := by
  obtain ⟨own, hown, hends⟩ : ∃ own ∈ Operation.made, own.ending.toList <:+ path.toList := by
    rcases hpath with huser | htextures
    · exact ⟨.userInclude, by decide, huser⟩
    · exact ⟨.textureInclude, by decide, htextures⟩
  rw [Operation.afterAll_append]
  have hconfined := Operation.confined_afterAll h (Operation.afterAll s earlier)
  exact ⟨content?_eq_some_of_confined hconfined hown hends,
    eq_empty_of_confined hconfined hown hends⟩

def stillCapture : Capture := fun call s => (s.write call.path "P6").toOption

theorem stillCapture_modest : stillCapture.Modest := by
  intro call s s' h
  have hwrite : s.write call.path "P6" = .ok s' := by
    unfold stillCapture at h
    cases hw : s.write call.path "P6" with
    | ok files => rw [hw] at h; exact congrArg Except.ok (Option.some.inj h)
    | error e => rw [hw] at h; cases h
  obtain ⟨l, hl, hchanged⟩ := write_spec hwrite
  refine ⟨hchanged.sameDirectories, fun l' hl' => hchanged.elsewhere l' ?_⟩
  rintro rfl
  exact hl' hl

def notedSite : Site :=
  ⟨⟨[(["home", "scene_user.inc"], .file "#declare Fine = 1;".toUTF8)], ["home"]⟩, []⟩

def notedRuns : List Operation :=
  let c := Context.bare { Settings.standard with captureView := true } .standard
  [.prepare .standard .standard, .export_ .primitive c Document.empty (some stillCapture),
    .writeIni c, .checkErrorLog c.paths]

theorem note_kept : (Operation.afterAll notedSite ([] ++ notedRuns)).files.content?
    "scene_user.inc" = some "#declare Fine = 1;".toUTF8 :=
  (user_file_kept notedSite [] notedRuns
    (by
      simp only [notedRuns, List.forall_mem_cons, Operation.Modest, List.not_mem_nil, false_imp_iff,
        implies_true, and_true, true_and, Option.mem_def, Option.some.injEq, forall_eq']
      exact stillCapture_modest)
    "scene_user.inc" (.inl (by decide)) _).1 (by rfl)

end RayScene
