import RayScene.Proofs.Stored.Nodes
set_option autoImplicit false

namespace RayScene

open Json

section Parts

variable {α : Type} {read : Json → Option α} {P : α → Prop} {j : Json}

theorem lt_of_word? {bits n : Nat} (h : word? bits j = some n) : n < 2 ^ bits := by
  unfold word? at h
  split at h
  · split at h
    · rename_i hfits
      cases h
      have hlt : _ < ((2 ^ bits : Nat) : Int) := hfits.2
      omega
    · cases h
  · cases h

theorem forall_of_list? (hread : ∀ j a, read j = some a → P a) {as : List α}
    (h : list? read j = some as) : ∀ a ∈ as, P a := by
  cases j with
  | array items =>
    change items.mapM read = some as at h
    induction items generalizing as with
    | nil =>
      cases h
      exact List.forall_mem_nil _
    | cons j items ih =>
      simp only [List.mapM_cons, Option.bind_eq_bind, Option.bind_eq_some_iff, Option.pure_def,
        Option.some.injEq] at h
      obtain ⟨a, ha, as, has, rfl⟩ := h
      exact List.forall_mem_cons.mpr ⟨hread j a ha, ih has⟩
  | _ => cases h

theorem forall_of_option? (hread : ∀ j a, read j = some a → P a) {a? : Option α}
    (h : option? read j = some a?) : ∀ a, a? = some a → P a := by
  rintro a rfl
  cases j with
  | null => cases h
  | _ =>
    obtain ⟨_, ha, hsome⟩ := Option.map_eq_some_iff.mp h
    cases hsome
    exact hread _ a ha

theorem of_required (hread : ∀ j a, read j = some a → P a) {field : Option Json} {a : α}
    (h : required read field = some a) : P a := by
  obtain ⟨j, _, hj⟩ := Option.bind_eq_some_iff.mp h
  exact hread j a hj

theorem of_defaulted {value : α} (hvalue : P value) (hread : ∀ j a, read j = some a → P a)
    {field : Option Json} {a : α} (h : defaulted value read field = some a) : P a := by
  cases field with
  | none =>
    cases h
    exact hvalue
  | some j => exact hread j a h

end Parts

section Nodes

variable {j : Json} {field : Option Json} {id : NodeId} {ids : List NodeId} {id? : Option NodeId}

theorem NodeId.isKey_of_ofJson? (h : ofJson? j = some id) : id.IsKey := by
  simp only [ofJson?, Option.bind_eq_bind, Option.bind_eq_some_iff] at h
  obtain ⟨fields, _, h⟩ := h
  split at h
  · simp only [Option.bind_eq_some_iff, Option.pure_def, Option.some.injEq] at h
    obtain ⟨i, hi, version, _, rfl⟩ := h
    have hlt := of_required (fun _ _ => lt_of_word?) hi
    unfold ofVersion
    split
    · exact ⟨hlt, fun _ => rfl⟩
    · rename_i hlast
      exact ⟨hlt, fun h => absurd h hlast⟩
  · cases h

theorem NodeId.isKey_of_required (h : required ofJson? field = some id) : id.IsKey :=
  of_required (fun _ _ => isKey_of_ofJson?) h

theorem NodeId.isKey_of_list? (h : list? ofJson? j = some ids) : ∀ r ∈ ids, r.IsKey :=
  forall_of_list? (fun _ _ => isKey_of_ofJson?) h

theorem NodeId.isKey_of_required_list (h : required (list? ofJson?) field = some ids) :
    ∀ r ∈ ids, r.IsKey := of_required (fun _ _ => isKey_of_list?) h

theorem NodeId.isKey_of_option? (h : option? ofJson? j = some id?) : ∀ r ∈ id?.toList, r.IsKey := by
  intro r hr
  exact forall_of_option? (fun _ _ => isKey_of_ofJson?) h r (Option.mem_toList.mp hr)

theorem NodeId.isKey_of_defaulted (h : defaulted none (option? ofJson?) field = some id?) :
    ∀ r ∈ id?.toList, r.IsKey := by
  apply of_defaulted (P := fun id? : Option NodeId => ∀ r ∈ id?.toList, r.IsKey) _ _ h
  · exact List.forall_mem_nil _
  · exact fun _ _ => isKey_of_option?

theorem Extrusion.isKey_base {e : Extrusion} (h : ofJson? j = some e) : e.base.IsKey := by
  simp only [ofJson?, Option.bind_eq_bind, Option.bind_eq_some_iff] at h
  obtain ⟨fields, _, h⟩ := h
  split at h
  · simp only [Option.bind_eq_some_iff, Option.pure_def, Option.some.injEq] at h
    obtain ⟨base, hbase, _, _, _, _, _, _, _, _, _, _, _, _, _, _, rfl⟩ := h
    exact NodeId.isKey_of_required hbase
  · cases h

theorem Feature.isKey_of_mem {f : Feature} (h : ofJson? j = some f) :
    ∀ r ∈ f.profile :: f.baseFeature.toList, r.IsKey := by
  simp only [ofJson?, Option.bind_eq_bind, Option.bind_eq_some_iff] at h
  obtain ⟨fields, _, h⟩ := h
  split at h
  · simp only [Option.bind_eq_some_iff, Option.pure_def, Option.some.injEq] at h
    obtain ⟨profile, hprofile, _, _, _, _, _, _, _, _, base, hbase, rfl⟩ := h
    exact List.forall_mem_cons.mpr
      ⟨NodeId.isKey_of_required hprofile, NodeId.isKey_of_defaulted hbase⟩
  · cases h

theorem NodeArray.isKey_base {a : NodeArray} (h : ofJson? j = some a) : a.base.IsKey := by
  simp only [ofJson?, Option.bind_eq_bind, Option.bind_eq_some_iff] at h
  obtain ⟨fields, _, h⟩ := h
  split at h
  · simp only [Option.bind_eq_some_iff, Option.pure_def, Option.some.injEq] at h
    obtain ⟨base, hbase, _, _, rfl⟩ := h
    exact NodeId.isKey_of_required hbase
  · cases h

theorem isKey_of_tip? (h : tip? j = some id?) : ∀ r ∈ id?.toList, r.IsKey := by
  unfold tip? at h
  split at h
  · split at h
    · exact NodeId.isKey_of_option? h
    · cases h
  · simp only [Option.bind_eq_bind, Option.bind_eq_some_iff] at h
    obtain ⟨fields, _, h⟩ := h
    split at h
    · exact NodeId.isKey_of_defaulted h
    · cases h

theorem Kind.isKey_of_ofFields? {tag : String} {k : Kind} (h : ofFields? tag j = some k) :
    ∀ r ∈ k.references, r.IsKey := by
  unfold ofFields? at h
  split at h
  all_goals simp only [Option.bind_eq_bind, Option.bind_eq_some_iff, Option.map_eq_some_iff,
    reduceCtorEq] at h
  all_goals obtain ⟨part, hpart, h⟩ := h
  all_goals grind [Option.bind_eq_some_iff, references, Extrusion.isKey_base, Feature.isKey_of_mem,
    NodeArray.isKey_base, isKey_of_tip?, NodeId.isKey_of_required_list]

theorem Kind.isKey_of_ofJson? {k : Kind} (h : ofJson? j = some k) :
    ∀ r ∈ k.references, r.IsKey := by
  obtain ⟨⟨tag, rest⟩, _, hrest⟩ := Option.bind_eq_some_iff.mp h
  exact isKey_of_ofFields? hrest

theorem Node.hasKeys_of_ofJson? {n : Node} (h : ofJson? j = some n) : n.HasKeys := by
  simp only [ofJson?, Option.bind_eq_bind, Option.bind_eq_some_iff] at h
  obtain ⟨fields, _, h⟩ := h
  split at h
  · simp only [Option.bind_eq_some_iff, Option.pure_def, Option.some.injEq] at h
    obtain ⟨_, _, _, _, _, _, _, _, children, hchildren, kind, hkind, _, _, rfl⟩ := h
    have hids : ∀ r ∈ children, r.IsKey := by
      apply of_defaulted (P := fun ids => ∀ r ∈ ids, NodeId.IsKey r) _ _ hchildren
      · exact List.forall_mem_nil _
      · exact fun _ _ => NodeId.isKey_of_list?
    have hrefs := of_required (fun _ _ => Kind.isKey_of_ofJson?) hkind
    exact List.forall_mem_append.mpr ⟨hids, hrefs⟩
  · cases h

end Nodes

section Documents

variable {j : Json}

theorem Slot.node?_of_ofVersion? {version : Nat} {node? : Option Node} {s : Slot}
    (h : ofVersion? version node? = some s) : s.node? = node? := by
  cases node? with
  | none =>
    simp only [ofVersion?, Option.ite_none_right_eq_some, Option.some.injEq] at h
    rw [← h.2]
    rfl
  | some n =>
    simp only [ofVersion?, Option.ite_none_right_eq_some, Option.some.injEq] at h
    rw [← h.2]
    rfl

theorem Slot.hasKeys_of_ofJson? {s : Slot} (h : ofJson? j = some s) :
    ∀ n, s.node? = some n → n.HasKeys := by
  simp only [ofJson?, Option.bind_eq_bind, Option.bind_eq_some_iff] at h
  obtain ⟨fields, _, h⟩ := h
  split at h
  · obtain ⟨node?, hnode, h⟩ := Option.bind_eq_some_iff.mp h
    obtain ⟨version, _, h⟩ := Option.bind_eq_some_iff.mp h
    rw [Slot.node?_of_ofVersion? h]
    apply of_defaulted (P := fun node? => ∀ n, node? = some n → Node.HasKeys n) _ _ hnode
    · intro n hn
      cases hn
    · exact fun _ _ => forall_of_option? (fun _ _ => Node.hasKeys_of_ofJson?)
  · cases h

theorem exists_of_arena? {slots slots' : List Slot} (h : arena? slots = some slots') :
    ∃ g rest, slots = .vacant g :: rest ∧ slots' = .vacant 0 :: rest := by
  unfold arena? at h
  split at h
  · cases h
    exact ⟨_, _, rfl, rfl⟩
  · cases h

/-- A document that has been read starts with the place that is never used, and lists its free
places in the order in which they would be listed again. -/
theorem Document.keys_of_ofJson? {d : Document} (h : ofJson? j = some d) :
    d.slots[0]? = some (.vacant 0) ∧ d.free = freePlaces d.slots.toList ∧ d.HasKeys := by
  simp only [ofJson?, Option.bind_eq_bind, Option.bind_eq_some_iff] at h
  obtain ⟨fields, _, h⟩ := h
  split at h
  · simp only [Option.bind_eq_some_iff, Option.pure_def, Option.some.injEq] at h
    obtain ⟨read, hread, slots, hslots, order, horder, rfl⟩ := h
    obtain ⟨g, rest, rfl, rfl⟩ := exists_of_arena? hslots
    have hnodes : ∀ s ∈ Slot.vacant g :: rest, ∀ n, s.node? = some n → n.HasKeys :=
      of_required (fun _ _ => forall_of_list? fun _ _ => Slot.hasKeys_of_ofJson?) hread
    obtain ⟨_, hrest⟩ := List.forall_mem_cons.mp hnodes
    refine ⟨rfl, rfl, NodeId.isKey_of_required_list horder, fun s hs n hn => ?_⟩
    rcases List.mem_cons.mp (List.mem_toArray.mp hs) with rfl | hs
    · cases hn
    · exact hrest s hs n hn
  · cases h

end Documents

end RayScene
