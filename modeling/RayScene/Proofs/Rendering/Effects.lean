import RayScene.Proofs.Effects
import RayScene.Proofs.Rendering.Files
import RayScene.Render.Session
set_option autoImplicit false

namespace RayScene

open FileStore

/-- Directories are as before. A file with none of the endings that are written is as before too,
unless it is one of those that are made: then it was missing, and it is empty now. -/
structure Confined (written made : List OutputFile) (s s' : FileStore) : Prop
    extends SameDirectories s s' where
  kept : ∀ l, (∀ f ∈ written, ¬EndsIn l f.ending) → s'.at? l = s.at? l ∨
    (∃ f ∈ made, EndsIn l f.ending) ∧ s.at? l = none ∧ s'.at? l = some (.file .empty)

section Confinement

variable {written written' made made' : List OutputFile} {s s' s'' : FileStore} {l : Location}
  {p : OutputPaths} {f : OutputFile}

theorem Confined.refl (written made : List OutputFile) (s : FileStore) :
    Confined written made s s :=
  ⟨⟨rfl, fun _ => Iff.rfl⟩, fun _ _ => .inl rfl⟩

theorem Confined.trans (h : Confined written made s s') (h' : Confined written made s' s'') :
    Confined written made s s'' := by
  refine ⟨⟨h'.working.trans h.working, fun l => (h'.directories l).trans (h.directories l)⟩,
    fun l hl => ?_⟩
  rcases h.kept l hl with same | ⟨hmade, hbefore, hafter⟩
  · rw [← same]
    exact h'.kept l hl
  · rcases h'.kept l hl with same' | ⟨_, hbefore', _⟩
    · exact .inr ⟨hmade, hbefore, same'.trans hafter⟩
    · exact absurd (hafter.symm.trans hbefore') nofun

theorem Confined.mono (h : Confined written made s s') (hw : written ⊆ written')
    (hm : made ⊆ made') : Confined written' made' s s' :=
  ⟨h.toSameDirectories, fun l hl => (h.kept l fun f hf => hl f (hw hf)).imp_right
    fun ⟨⟨f, hf, hend⟩, hfiles⟩ => ⟨⟨f, hm hf, hend⟩, hfiles⟩⟩

theorem EndsIn.eq {f g : OutputFile} (hf : EndsIn l f.ending) (hg : EndsIn l g.ending)
    (hf' : f ≠ .image) (hg' : g ≠ .image) : f = g := by
  have hends := hf.suffix_or_suffix hg
  revert hf' hg' hends
  cases f <;> cases g <;> decide

theorem Confined.at?_eq_or_made (h : Confined written made s s') (hl : EndsIn l f.ending)
    (hf : f ≠ .image) (hwritten : f ∉ written) (himage : .image ∉ written) :
    s'.at? l = s.at? l ∨
      (∃ g ∈ made, EndsIn l g.ending) ∧ s.at? l = none ∧ s'.at? l = some (.file .empty) := by
  refine h.kept l fun g hg hl' => hwritten ?_
  rwa [hl.eq hl' hf fun hi => himage (hi ▸ hg)]

theorem OutputPaths.endsIn_of_locate (hl : s.locate (p.path f) = .ok l) : EndsIn l f.ending :=
  FileStore.endsIn_of_locate hl (p.ending_suffix_path f) f.slash_not_mem_ending

theorem FileStore.ChangedAt.confined (h : ChangedAt l s s') (hl : s.locate (p.path f) = .ok l)
    (hf : f ∈ written) : Confined written made s s' := by
  refine ⟨h.sameDirectories, fun l' hl' => .inl (h.elsewhere l' ?_)⟩
  rintro rfl
  exact hl' f hf (OutputPaths.endsIn_of_locate hl)

theorem confined_of_write {text : String} (h : s.write (p.path f) text = .ok s')
    (hf : f ∈ written) : Confined written made s s' := by
  obtain ⟨l, hl, hchanged⟩ := write_spec h
  exact hchanged.confined hl hf

theorem confined_of_remove (h : s.remove (p.path f) = .ok s') (hf : f ∈ written) :
    Confined written made s s' := by
  obtain ⟨l, hl, hchanged⟩ := remove_spec h
  exact hchanged.confined hl hf

theorem confined_of_touch (h : s.touch (p.path f) = .ok s') (hf : f ∈ made) :
    Confined written made s s' := by
  obtain ⟨l, hl, rfl | ⟨hchanged, hnone, hempty⟩⟩ := touch_spec h
  · exact Confined.refl written made s'
  · refine ⟨hchanged.sameDirectories, fun l' _ => ?_⟩
    by_cases heq : l' = l
    · rw [heq]
      exact .inr ⟨⟨f, hf, OutputPaths.endsIn_of_locate hl⟩, hnone, hempty⟩
    · exact .inl (hchanged.elsewhere l' heq)

end Confinement

namespace Rendering

variable {α β : Type} {written written' made made' : List OutputFile} {p : OutputPaths}
  {f : OutputFile} {s : Site}

section Running

theorem run_change (error : RenderError) (f : FileStore → Except FileError FileStore) (s : Site) :
    (change error f).run.run s = match f s.files with
      | .ok files => (.ok (), { s with files := files })
      | .error _ => (.error error, s) := by
  unfold change
  rw [run_get_bind]
  cases f s.files <;> rfl

theorem run_checkErrorLog (path : String) (s : Site) : (checkErrorLog path).run.run s =
    match s.files.read path with
    | .ok log => if log = "" then
        (.ok .succeeded, { s with files := (s.files.remove path).toOption.getD s.files })
      else (.ok (.failed log), s)
    | .error .notFound => (.ok .succeeded, s)
    | .error _ => (.error (.io path), s) := by
  unfold checkErrorLog
  rw [run_get_bind]
  cases h : s.files.read path with
  | ok log =>
    obtain ⟨files, hfiles⟩ := FileStore.exists_remove_of_read h
    simp only [pure_bind, Bool.not_eq_true', String.isEmpty_eq_false_iff]
    by_cases hlog : log = ""
    · rw [if_neg (by simpa using hlog), if_pos hlog, run_get_bind, hfiles]
      rfl
    · rw [if_pos hlog, if_neg hlog]
      rfl
  | error e =>
    cases e
    case notFound =>
      simp only [pure_bind]
      rw [if_neg (by simp), run_get_bind, FileStore.remove_of_read_notFound h]
      rfl
    all_goals rfl

end Running

def ActsOn (written made : List OutputFile) (x : Rendering α) : Prop :=
  ∀ s, Confined written made s.files (x.run.run s).2.files

namespace ActsOn

theorem mono {x : Rendering α} (h : ActsOn written made x) (hw : written ⊆ written')
    (hm : made ⊆ made') : ActsOn written' made' x :=
  fun s => (h s).mono hw hm

theorem confined {x : Rendering α} (h : ActsOn written made x) {s' : Site}
    {r : Except RenderError α} (hrun : x.run.run s = (r, s')) :
    Confined written made s.files s'.files := by
  have hs := h s
  rwa [hrun] at hs

theorem pure (a : α) : ActsOn written made (Pure.pure a : Rendering α) :=
  fun s => Confined.refl written made s.files

theorem throw (e : RenderError) : ActsOn written made (throw e : Rendering α) :=
  fun s => Confined.refl written made s.files

theorem throw_bind {e : RenderError} {g : α → Rendering β} :
    ActsOn written made (MonadExcept.throw e >>= g) :=
  fun s => Confined.refl written made s.files

theorem bind {x : Rendering α} {g : α → Rendering β} (hx : ActsOn written made x)
    (hg : ∀ a, ActsOn written made (g a)) : ActsOn written made (x >>= g) := by
  intro s
  have hrun := hx s
  rw [run_bind]
  rcases hr : x.run.run s with ⟨a | e, s'⟩
  all_goals rw [hr] at hrun
  · exact hrun
  · exact hrun.trans (hg e s')

theorem get_bind {g : Site → Rendering β} (hg : ∀ s, ActsOn written made (g s)) :
    ActsOn written made (get >>= g) :=
  fun s => hg s s

theorem modify {g : Site → Site} (hg : ∀ s, Confined written made s.files (g s).files) :
    ActsOn written made (modify g : Rendering PUnit) :=
  hg

theorem change {error : RenderError} {g : FileStore → Except FileError FileStore}
    (hg : ∀ s s', g s = .ok s' → Confined written made s s') :
    ActsOn written made (change error g) := by
  intro s
  rw [run_change]
  cases h : g s.files with
  | ok files => exact hg _ _ h
  | error e => exact Confined.refl written made s.files

end ActsOn

section Actions

theorem change_write_actsOn {error : RenderError} {text : String} (hf : f ∈ written) :
    ActsOn written made (change error (·.write (p.path f) text)) :=
  .change fun _ _ h => confined_of_write h hf

theorem readOrCreate_actsOn (hf : f ∈ made) :
    ActsOn written made (readOrCreate (p.path f)) := by
  refine .bind (.change fun _ _ h => confined_of_touch h hf) fun _ => .get_bind fun s => ?_
  split
  · exact .pure _
  · exact .throw _

theorem prepare_actsOn (settings : Settings) (camera : Camera) :
    ActsOn [.scene, .meshInclude] [.userInclude, .textureInclude] (prepare settings camera) := by
  unfold prepare
  dsimp only
  split
  · exact .throw_bind
  · refine .bind (change_write_actsOn (by decide)) fun _ =>
      .bind (readOrCreate_actsOn (by decide)) fun user => .bind (readOrCreate_actsOn (by decide))
        fun textures => .bind (.modify fun s => ?_) fun _ => .pure _
    split
    · rename_i h
      exact confined_of_write h (by decide)
    · exact Confined.refl _ _ s.files

end Actions

end Rendering

/-- At most the file of the picture is touched, and it is no directory before or after. -/
def Capture.Modest (capture : Capture) : Prop :=
  ∀ call s s', capture call s = some s' → SameDirectories s s' ∧
    ∀ l, s.locate call.path ≠ .ok l → s'.at? l = s.at? l

namespace Rendering

theorem captureView_actsOn {c : Context} {capture : Option Capture}
    (h : ∀ shot ∈ capture, shot.Modest) : ActsOn [.viewport] [] (captureView c capture) := by
  unfold captureView
  split
  · split
    · exact .pure _
    · rename_i shot
      refine .modify fun s => ?_
      cases hshot : shot ⟨c.paths.path .viewport, c.settings.width, c.settings.height⟩ s.files with
      | none => exact Confined.refl _ _ s.files
      | some files =>
        obtain ⟨hdirectories, helsewhere⟩ := h shot rfl _ _ _ hshot
        refine ⟨hdirectories, fun l hl => .inl (helsewhere l fun hat => ?_)⟩
        exact hl .viewport (by decide) (OutputPaths.endsIn_of_locate hat)
  · exact .pure _

theorem export_actsOn {t : Tessellator} {c : Context} {d : Document} {capture : Option Capture}
    (h : ∀ shot ∈ capture, shot.Modest) :
    ActsOn [.viewport, .scene, .meshInclude] [] (export_ t c d capture) := by
  refine .bind ((captureView_actsOn h).mono (by decide) (by decide)) fun _ => ?_
  split
  · exact .throw _
  · rename_i a _
    refine .bind (change_write_actsOn (by decide)) fun _ => ?_
    split
    · exact .bind (change_write_actsOn (by decide)) fun _ => .pure a
    · exact .pure a

theorem writeIni_actsOn (c : Context) : ActsOn [.ini] [] (writeIni c) :=
  .bind (change_write_actsOn (by decide)) fun _ => .pure _

theorem checkErrorLog_actsOn (p : OutputPaths) :
    ActsOn [.errorLog] [] (checkErrorLog (p.path .errorLog)) := by
  intro s
  rw [run_checkErrorLog]
  split
  · split
    · cases h : s.files.remove (p.path .errorLog) with
      | ok files => exact confined_of_remove h (by decide)
      | error e => exact Confined.refl _ _ s.files
    · exact Confined.refl _ _ s.files
  · exact Confined.refl _ _ s.files
  · exact Confined.refl _ _ s.files

end Rendering

end RayScene
