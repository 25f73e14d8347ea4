import RayScene.Proofs.Compilation.Locality
import RayScene.Proofs.Documents.Histories
import RayScene.Proofs.Documents.Repair
import RayScene.Proofs.Stored.Keys
import RayScene.Proofs.Stored.Metadata
/-!
Projects that are saved and loaded. Everything comes back but the order in which free places are
used again, which nothing that is written depends on.
-/
set_option autoImplicit false

namespace RayScene

open Json

def Document.reloaded (d : Document) : Document := { d with free := freePlaces d.slots.toList }

section Assembly

variable {d : Document} {c : Context} {t : Tessellator}

theorem Sdl.Workshop.compileRoots_congr (w w' : Workshop)
    (hget : ∀ id, w'.document.get? id = w.document.get? id)
    (hroots : w'.document.roots = w.document.roots) (hcontext : w'.context = w.context)
    (halike : ∀ before r,
      w'.tessellator before w'.document r = w.tessellator before w.document r) :
    w'.compileRoots = w.compileRoots := by
  have hcompile : ∀ id f, w'.compile id f = w.compile id f := by
    intro id f
    funext l
    have hbelow : w.document.AgreeBelow w'.document id := fun m _ => hget m
    have hmeshes : l.meshes = l.meshes := rfl
    obtain ⟨result, requests, blocks, hold, hnew⟩ :=
      compile_grown w w' hbelow hcontext hmeshes (fun since r _ _ => halike _ r) f
    exact hnew.trans hold.symm
  simp only [compileRoots, hcompile, hroots]

theorem Context.get?_repaired {d' : Document} (c : Context) (h : ∀ id, d'.get? id = d.get? id)
    (id : NodeId) : (c.repaired d').get? id = (c.repaired d).get? id := by
  rw [c.get?_repaired_eq, c.get?_repaired_eq, h]

theorem assemble_reloaded (earlier : List Request)
    (h : ∀ before r, t before (c.repaired d.reloaded) r = t before (c.repaired d) r) :
    assemble t earlier c d.reloaded = assemble t earlier c d := by
  have hrepaired : c.repaired d.reloaded =
      { c.repaired d with free := freePlaces d.slots.toList } := by
    unfold Context.repaired
    split <;> rfl
  have hget : ∀ id, (c.repaired d.reloaded).get? id = (c.repaired d).get? id :=
    c.get?_repaired fun _ => rfl
  have hroots : (c.repaired d.reloaded).roots = (c.repaired d).roots := by
    rw [hrepaired]
    rfl
  have hcodes := Sdl.Workshop.compileRoots_congr ⟨⟨c.repaired d, c⟩, t⟩
    ⟨⟨c.repaired d.reloaded, c⟩, t⟩ hget hroots rfl h
  have hsummary : Summary.collect d.reloaded c = Summary.collect d c := rfl
  simp only [assemble, hcodes, hsummary]

end Assembly

/-- The document has the place that is never used, all ids have a stored form, and so have the
points in time. -/
structure Project.IsStorable (p : Project) : Prop where
  first : p.document.slots[0]? = some (.vacant 0)
  keys : p.document.HasKeys
  metadata : p.metadata.IsValid

namespace Project

variable {p : Project}

theorem reads (h : p.IsStorable) :
    Reads ofJson? p.toJson { p with document := p.document.reloaded } := by
  apply reads_record ["format", "version", "project", "document", "camera"] rfl (by decide)
  intro format hformat version hversion metadata hmetadata document hdocument camera hcamera
  simp [ComeBack, required, defaulted, reads_string _ format hformat,
    reads_word (by decide : formatVersion < 2 ^ 32) version hversion,
    Metadata.reads h.metadata metadata hmetadata, Document.reads h.first h.keys document hdocument,
    p.camera.reads camera hcamera, Document.reloaded]

theorem reads_head (p : Project) : Reads head? p.toJson (formatId, formatVersion) := by
  intro k hk
  obtain ⟨ns, rfl, hns⟩ := exists_of_readsAs_object hk
  obtain ⟨hkeys, _⟩ := membersReadAs_iff.mp hns
  have hnodup : (ns.map (·.1)).Nodup := by
    rw [hkeys]
    simp
  obtain ⟨format, hformat, hf⟩ : ∃ k, ns.lookup "format" = some k ∧
      (Json.string formatId).readsAs k = true := exists_lookup_of_mem hns (by simp) (by simp)
  obtain ⟨version, hversion, hv⟩ : ∃ k, ns.lookup "version" = some k ∧
      (ofNat formatVersion).readsAs k = true := exists_lookup_of_mem hns (by simp) (by simp)
  have hnumber := reads_word (by decide : formatVersion < 2 ^ 32) version hv
  simp [head?, fields?_object hnodup, hformat, hversion, required, reads_string _ format hf,
    hnumber]

theorem migrate_formatVersion (file : Json) :
    migrate file formatVersion formatVersion = .ok file := rfl

theorem load_save (h : p.IsStorable) (hback : p.toJson.ReadsBack) :
    load p.save = .ok { p with document := p.document.reloaded } := by
  obtain ⟨k, hread, hk⟩ := hback
  have hproject := reads h k hk
  have hhead := p.reads_head k hk
  simp [load, save, hread, ofFile, hhead, migrate_formatVersion, hproject]

theorem isStorable_of_ofJson? {j : Json} (h : ofJson? j = some p) :
    p.IsStorable ∧ p.document.reloaded = p.document := by
  simp only [ofJson?, Option.bind_eq_bind, Option.bind_eq_some_iff] at h
  obtain ⟨fields, _, h⟩ := h
  split at h
  · simp only [Option.bind_eq_some_iff, Option.pure_def, Option.some.injEq] at h
    obtain ⟨_, _, _, _, document, hdocument, _, _, metadata, hmetadata, rfl⟩ := h
    obtain ⟨hfirst, hfree, hkeys⟩ := of_required (fun _ _ => Document.keys_of_ofJson?) hdocument
    have hvalid := of_required (fun _ _ => Metadata.isValid_of_ofJson?) hmetadata
    refine ⟨⟨hfirst, hkeys, hvalid⟩, ?_⟩
    simp only [Document.reloaded, ← hfree]
  · cases h

theorem exists_of_load {text : String} (h : load text = .ok p) : ∃ file, ofJson? file = some p := by
  unfold load ofFile at h
  repeat
    split at h
    · cases h
  rename_i hproject
  cases h
  exact ⟨_, hproject⟩

end Project

/-- All ids in nodes that are there can be stored. The ids in the order can be stored when there are
not more places than there are numbers for them. -/
theorem Document.Arranged.hasKeys {d : Document} (h : d.Arranged) (hsize : d.slots.size < 2 ^ 32)
    (hnodes : ∀ id n, d.get? id = some n → n.HasKeys) : d.HasKeys where
  order id hid := by
    have hlt := h.index_lt hid
    exact NodeId.isKey_of_lt (by omega)
  nodes s hs n hn := by
    obtain ⟨i, hi, rfl⟩ := Array.mem_iff_getElem.mp hs
    cases hslot : d.slots[i] with
    | vacant g => simp [hslot, Slot.node?] at hn
    | occupied g m =>
      have hget : d.get? ⟨i, g⟩ = some m := by simp [get?, hi, hslot]
      rw [hslot] at hn
      cases hn
      exact hnodes _ _ hget

theorem exists_ok_of_any {ε α : Type} {p : α → Prop} [DecidablePred p] {r : Except ε α}
    (h : r.toOption.any (fun a => decide (p a)) = true) : ∃ a, r = .ok a ∧ p a := by
  cases r with
  | error e => cases h
  | ok a => exact ⟨a, rfl, of_decide_eq_true h⟩

/-- A project whose document has been built step by step comes back from its file, if the values in
the file are read as they have been written. There is a number for every place, nodes refer to ids
that can be, and points in time exist. The order in which free places are used again may differ, but
no id leads to another node than before, and the scene is the same as long as the tessellator does
not notice either. A project that comes from a file comes back unchanged. -/
theorem Project.load_save_of_readsBack :
    (∀ changes camera metadata,
      let d := (History.of changes).document
      let p : Project := ⟨d, camera, metadata⟩
      d.slots.size < 2 ^ 32 → (∀ id n, d.get? id = some n → n.HasKeys) → metadata.IsValid →
      p.toJson.ReadsBack →
      ∃ d', load p.save = .ok ⟨d', camera, metadata⟩ ∧ d'.order = d.order ∧
        (∀ id, d'.get? id = d.get? id) ∧ (⟨d', camera, metadata⟩ : Project).save = p.save ∧
        ∀ t earlier c, (∀ before r, t before (c.repaired d') r = t before (c.repaired d) r) →
          assemble t earlier c d' = assemble t earlier c d) ∧
    ∀ text p, load text = .ok p → p.toJson.ReadsBack → load p.save = .ok p := by
  constructor
  · intro changes camera metadata d p hsize hnodes hvalid hback
    have harranged : d.Arranged := History.arranged_after Document.Arranged.empty changes
    have hstorable : p.IsStorable :=
      ⟨harranged.getElem?_zero, harranged.hasKeys hsize hnodes, hvalid⟩
    exact ⟨d.reloaded, load_save hstorable hback, rfl, fun _ => rfl, rfl,
      fun _ earlier _ => assemble_reloaded earlier⟩
  · intro text p hload hback
    obtain ⟨file, hfile⟩ := exists_of_load hload
    obtain ⟨hstorable, hsame⟩ := isStorable_of_ofJson? hfile
    rw [load_save hstorable hback, hsame]

/-- Two boxes have been taken out of a group, which still refers to them. Their places come back in
another order. A short file gets everything that it leaves out. -/
theorem Project.load_save_of_group :
    let box := Node.ofKind "Box" (.box 1 1 1)
    let group := { Node.ofKind "Group" .group with children := [⟨1, 0⟩, ⟨2, 0⟩] }
    let changes : List Change :=
      [.add box, .add box, .add group, .remove ⟨2, 0⟩, .remove ⟨1, 0⟩]
    let d := (History.of changes).document
    let metadata : Metadata :=
      ⟨⟨1⟩, "Group", ⟨⟨2024, 2, 29⟩, 12, 30, 0, 500000000⟩, ⟨⟨2024, 2, 29⟩, 12, 30, 0, 0⟩⟩
    let c := Context.bare Settings.standard Camera.standard
    let text := "\x7b\"format\":\"pov-scene\",\"version\":1,\"project\":[" ++
      "\"00000000000000000000000000000001\",\"\",\"2024-02-29T13:30:00.5+01:00\"," ++
      "\"2024-02-29 12:30:00Z\"],\"document\":[[[null,2],[null,4]],[]]\x7d"
    (d.free = [1, 2] ∧ freePlaces d.slots.toList = [2, 1]) ∧
    (∃ d', load (save ⟨d, Camera.standard, metadata⟩) = .ok ⟨d', Camera.standard, metadata⟩ ∧
      d'.order = [⟨3, 0⟩] ∧ d'.get? ⟨3, 0⟩ = some group ∧ d'.get? ⟨1, 0⟩ = none ∧
      assemble Tessellator.primitive [] c d' = assemble Tessellator.primitive [] c d) ∧
    ∃ q, load text = .ok q ∧ load q.save = .ok q := by
  intro box group changes d metadata c text
  have hslots : d.slots = #[.vacant 0, .vacant 1, .vacant 1, .occupied 0 group] := rfl
  have horder : d.order = [⟨3, 0⟩] := rfl
  have hlive : d.get? ⟨3, 0⟩ = some group := rfl
  have hgone : d.get? ⟨1, 0⟩ = none := rfl
  have hnodes : ∀ id n, d.get? id = some n → n.HasKeys := by
    intro id n hn
    have hmem := Array.mem_of_getElem? (Document.getElem?_of_get? hn)
    obtain ⟨_, rfl⟩ : id.generation = 0 ∧ n = group := by simpa [hslots] using hmem
    decide
  have hback : (⟨d, Camera.standard, metadata⟩ : Project).toJson.ReadsBack := by decide +kernel
  obtain ⟨hbuilt, hloaded⟩ := load_save_of_readsBack
  refine ⟨⟨rfl, rfl⟩, ?_, ?_⟩
  · obtain ⟨d', hload, horder', hget, _, hassemble⟩ :=
      hbuilt changes Camera.standard metadata (by decide) hnodes ⟨rfl, rfl⟩ hback
    have hfound := c.get?_repaired hget
    refine ⟨d', hload, horder'.trans horder, (hget _).trans hlive, (hget _).trans hgone, ?_⟩
    exact hassemble _ _ _ fun _ r => by simp only [Tessellator.primitive, hfound]
  · obtain ⟨q, hload, hq⟩ := exists_ok_of_any (p := fun q => q.toJson.ReadsBack) (r := load text)
      (by decide +kernel)
    exact ⟨q, hload, hloaded text q hload hq⟩

end RayScene
