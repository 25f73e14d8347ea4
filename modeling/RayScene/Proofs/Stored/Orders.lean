import RayScene.Proofs.Stored.Projects
set_option autoImplicit false

namespace RayScene

open Json

namespace Document

variable {d : Document}

theorem map_fst_entries_eq_filter (d : Document) :
    d.entries.map (·.1) = d.order.filter d.contains := by
  have hids : ∀ ids : List NodeId,
      (ids.filterMap fun id => (d.get? id).map (id, ·)).map (·.1) = ids.filter d.contains := by
    intro ids
    induction ids with
    | nil => rfl
    | cons id ids ih => cases hn : d.get? id <;> simp [contains, hn, ← ih]
  exact hids d.order

def isRoot (d : Document) (id : NodeId) : Bool :=
  ((d.get? id).any fun n => n.visible && !n.kind.isGroup) && !d.isOwned id

theorem roots_eq_filter (d : Document) : d.roots = d.order.filter d.isRoot := by
  have hids : ∀ ids : List NodeId,
      (((ids.filterMap fun id => (d.get? id).map (id, ·)).filter
        fun e => e.2.visible && !e.2.kind.isGroup).map (·.1)).filter (fun id => !d.isOwned id) =
          ids.filter d.isRoot := by
    intro ids
    induction ids with
    | nil => rfl
    | cons id ids ih =>
      cases hn : d.get? id with
      | none => simp [isRoot, hn, ih]
      | some n =>
        by_cases hshown : (n.visible && !n.kind.isGroup) = true
        · by_cases howned : d.isOwned id = true <;> simp [isRoot, hn, hshown, howned, ih]
        · simp [isRoot, hn, hshown, ih]
  exact hids d.order

theorem count_filter_eq_ite (p : NodeId → Bool) (ids : List NodeId) (id : NodeId) :
    (ids.filter p).count id = if p id then ids.count id else 0 := by
  split
  · rename_i hp
    exact List.count_filter hp
  · rename_i hp
    exact List.count_eq_zero_of_not_mem fun hmem => hp (List.mem_filter.mp hmem).2

theorem count_liveIds (d : Document) (id : NodeId) :
    d.liveIds.count id = if d.contains id then 1 else 0 := by
  simp only [d.nodup_liveIds.count, mem_liveIds_iff]

theorem order_perm_liveIds_iff : d.order.Perm d.liveIds ↔
    (∀ id, d.contains id = true → (d.entries.map (·.1)).count id = 1) ∧
      ∀ id ∈ d.order, d.contains id = true := by
  rw [List.perm_iff_count]
  simp only [count_liveIds, map_fst_entries_eq_filter, count_filter_eq_ite]
  constructor
  · intro h
    refine ⟨fun id hid => ?_, fun id hid => ?_⟩
    · rw [if_pos hid, h, if_pos hid]
    · by_contra hgone
      have hzero := h id
      rw [if_neg hgone, List.count_eq_zero] at hzero
      exact hzero hid
  · rintro ⟨honce, hlive⟩ id
    split
    · rename_i hid
      have hcount := honce id hid
      rwa [if_pos hid] at hcount
    · rename_i hgone
      exact List.count_eq_zero_of_not_mem fun hmem => hgone (hlive id hmem)

end Document

namespace Project

variable {p : Project} {file : Json}

def filed? (file : Json) : Option (List Slot × List NodeId) := do
  let [_, _, _, document, _] ← file.fields? ["format", "version", "project", "document",
    "camera"] | none
  let [nodes, order] ← (← document).fields? ["nodes", "order"] | none
  return (← required (list? Slot.ofJson?) nodes, ← required (list? NodeId.ofJson?) order)

theorem filed_of_ofJson? (h : ofJson? file = some p) :
    ∃ slots, filed? file = some (slots, p.document.order) ∧
      slots.filterMap Slot.node? = p.document.slots.toList.filterMap Slot.node? := by
  simp only [ofJson?, Option.bind_eq_bind, Option.bind_eq_some_iff] at h
  obtain ⟨fields, hfields, h⟩ := h
  split at h
  · simp only [Option.bind_eq_some_iff, Option.pure_def, Option.some.injEq] at h
    obtain ⟨_, _, _, _, d, hd, _, _, _, _, rfl⟩ := h
    obtain ⟨document, hdocument, hread⟩ := Option.bind_eq_some_iff.mp hd
    simp only [Document.ofJson?, Option.bind_eq_bind, Option.bind_eq_some_iff] at hread
    obtain ⟨parts, hparts, hread⟩ := hread
    split at hread
    · simp only [Option.bind_eq_some_iff, Option.pure_def, Option.some.injEq] at hread
      obtain ⟨filed, hfiled, slots, hslots, order, horder, rfl⟩ := hread
      refine ⟨filed, ?_, ?_⟩
      · simp [filed?, hfields, hdocument, hparts, hfiled, horder]
      · cases filed with
        | nil => cases hslots
        | cons s rest =>
          cases s with
          | vacant g =>
            cases hslots
            rfl
          | occupied g n => cases hslots
    · cases hread
  · cases h

theorem migrate_eq_ok {version : Nat} {file' : Json}
    (h : migrate file version formatVersion = .ok file') : file' = file := by
  cases version with
  | zero => cases h
  | succ n =>
    have hsteps : formatVersion - (n + 1) = 0 := by simp [formatVersion]
    rw [migrate, hsteps] at h
    cases h
    rfl

theorem read_of_load {text : String} (h : load text = .ok p) :
    ∃ file, Json.read text = some file ∧ ofJson? file = some p := by
  unfold load at h
  split at h
  · cases h
  · rename_i file hread
    unfold ofFile at h
    repeat
      split at h
      · cases h
    rename_i hmigrate _ _ hproject
    cases h
    rw [migrate_eq_ok hmigrate] at hproject
    exact ⟨file, hread, hproject⟩

def listing (p : Project) (ids : List NodeId) : Project :=
  { p with document := { p.document with order := ids } }

theorem load_save_listing {text : String} (h : load text = .ok p) {ids : List NodeId}
    (hids : ∀ id ∈ ids, id.IsKey) (hback : (p.listing ids).toJson.ReadsBack) :
    load (p.listing ids).save = .ok (p.listing ids) := by
  obtain ⟨file, hfile⟩ := exists_of_load h
  obtain ⟨hstorable, hsame⟩ := isStorable_of_ofJson? hfile
  have hlisting : (p.listing ids).IsStorable :=
    ⟨hstorable.first, ⟨hids, hstorable.keys.nodes⟩, hstorable.metadata⟩
  have hfree : freePlaces p.document.slots.toList = p.document.free := congrArg Document.free hsame
  rw [load_save hlisting hback]
  simp only [listing, Document.reloaded, hfree]

/-- A project that is loaded has the nodes of its file, in the order of the file, whatever that
lists. A node is visited, and stands among the roots, as often as it is listed: each node is visited
once, and nothing else is listed, only if the order is a rearrangement of the nodes. Nothing makes
it one, since the project is accepted with any other ids in its order too. -/
theorem order_of_load {text : String} (h : load text = .ok p) :
    let d := p.document
    (∃ file slots, Json.read text = some file ∧ filed? file = some (slots, d.order) ∧
      slots.filterMap Slot.node? = d.slots.toList.filterMap Slot.node?) ∧
    (∀ id, (d.entries.map (·.1)).count id = if d.contains id then d.order.count id else 0) ∧
    (∀ id, d.roots.count id = if d.isRoot id then d.order.count id else 0) ∧
    (d.order.Perm d.liveIds ↔
      (∀ id, d.contains id = true → (d.entries.map (·.1)).count id = 1) ∧
        ∀ id ∈ d.order, d.contains id = true) ∧
    ∀ ids, (∀ id ∈ ids, id.IsKey) → (p.listing ids).toJson.ReadsBack →
      load (p.listing ids).save = .ok (p.listing ids) := by
  intro d
  obtain ⟨file, hread, hfile⟩ := read_of_load h
  obtain ⟨slots, hfiled, hslots⟩ := filed_of_ofJson? hfile
  refine ⟨⟨file, slots, hread, hfiled, hslots⟩, fun id => ?_, fun id => ?_,
    Document.order_perm_liveIds_iff, fun ids => load_save_listing h⟩
  · rw [Document.map_fst_entries_eq_filter, Document.count_filter_eq_ite]
  · rw [Document.roots_eq_filter, Document.count_filter_eq_ite]

def boxFile (order : String) : String :=
  "\x7b\"format\":\"pov-scene\",\"version\":1,\"project\":[" ++
    "\"00000000000000000000000000000001\",\"\",\"2024-02-29T12:30:00Z\"," ++
    "\"2024-02-29T12:30:00Z\"],\"document\":\x7b\"nodes\":[\x7b\"version\":0\x7d," ++
    "\x7b\"value\":\x7b\"name\":\"Box\",\"label\":\"Box\",\"kind\":" ++
    "\x7b\"type\":\"Box\",\"length\":1,\"width\":1,\"height\":1\x7d\x7d,\"version\":1\x7d]," ++
    "\"order\":[" ++ order ++ "]\x7d\x7d"

theorem load_boxFile_twice : ∃ p, load (boxFile "[1,1],[1,1]") = .ok p ∧
    p.document.order = [⟨1, 0⟩, ⟨1, 0⟩] ∧ p.document.contains ⟨1, 0⟩ = true ∧
    p.document.isRoot ⟨1, 0⟩ = true := by
  obtain ⟨p, hload, horder, hshown, hparents⟩ :=
    exists_ok_of_any (r := load (boxFile "[1,1],[1,1]"))
    (p := fun p => p.document.order = [⟨1, 0⟩, ⟨1, 0⟩] ∧
      ((p.document.get? ⟨1, 0⟩).any fun n => n.visible && !n.kind.isGroup) = true ∧
      p.document.parents ⟨1, 0⟩ = []) (by decide +kernel)
  refine ⟨p, hload, horder, ?_, ?_⟩
  · obtain ⟨n, hn, -⟩ := (Option.any_eq_true ..).mp hshown
    rw [Document.contains, hn, Option.isSome_some]
  · rw [Document.isRoot, hshown, Document.isOwned_of_parents_eq_nil hparents]
    rfl

/-- The box is listed twice, so that it is visited twice and is two of the roots. -/
theorem box_visited_twice : ∃ p, load (boxFile "[1,1],[1,1]") = .ok p ∧
    p.document.roots.count ⟨1, 0⟩ = 2 ∧ ¬p.document.order.Perm p.document.liveIds := by
  obtain ⟨p, hload, horder, hlive, hroot⟩ := load_boxFile_twice
  obtain ⟨-, hentries, hroots, hperm, -⟩ := order_of_load hload
  refine ⟨p, hload, ?_, fun h => ?_⟩
  · rw [hroots, if_pos hroot, horder]
    decide
  · have honce := (hperm.mp h).1 ⟨1, 0⟩ hlive
    rw [hentries, if_pos hlive, horder] at honce
    exact absurd honce (by decide)

theorem order_not_once : ¬∀ text p, load text = .ok p →
    ∀ id, p.document.order.count id = if p.document.contains id then 1 else 0 := by
  intro h
  obtain ⟨p, hload, horder, -⟩ := load_boxFile_twice
  have hcount := h _ p hload ⟨1, 0⟩
  rw [horder] at hcount
  split at hcount <;> exact absurd hcount (by decide)

end Project

end RayScene
