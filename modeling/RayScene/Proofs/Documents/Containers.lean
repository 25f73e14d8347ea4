import RayScene.Proofs.Documents.Repair
/-!
Containers. Parts, folders and booleans bring the code of their children, so a node that is owned is
not lost as long as the containers around it are written. Then there is an outermost part, and it is
a root.
-/
set_option autoImplicit false

namespace RayScene

def Kind.isContainer : Kind → Bool
  | .boolean _ => true
  | .part => true
  | .group => true
  | _ => false

theorem Kind.eq_part {k : Kind} (howner : k.isOwner = true) (hcontainer : k.isContainer = true) :
    k = .part := by
  cases k <;> simp_all [isOwner, isContainer]

namespace Document

open Relation

variable {d : Document} {id a b v : NodeId} {n m : Node}

def Shows (d : Document) (a b : NodeId) : Prop :=
  ∃ n, d.get? a = some n ∧ n.kind.isContainer = true ∧ b ∈ d.steps a n

theorem Shows.leads (h : d.Shows a b) : d.Leads a b := by
  obtain ⟨n, hn, _, hb⟩ := h
  exact ⟨n, hn, hb⟩

theorem shows_repaired (c : Context) (d : Document) : (c.repaired d).Shows = d.Shows := by
  funext a b
  simp only [Shows, c.get?_repaired_eq, Option.map_eq_some_iff, eq_iff_iff]
  constructor
  · rintro ⟨_, ⟨n, hn, rfl⟩, hcontainer, hb⟩
    exact ⟨n, hn, by simpa using hcontainer, by rwa [steps_repaired] at hb⟩
  · rintro ⟨n, hn, hcontainer, hb⟩
    exact ⟨c.mend n, ⟨n, hn, rfl⟩, by simpa using hcontainer, by rwa [steps_repaired]⟩

/-- Whatever a node is inside of is a visible container, and a part around it is not inside of
itself. -/
def IsEnclosed (d : Document) (v : NodeId) : Prop :=
  ∀ a n, TransGen d.HasChild a v → d.get? a = some n →
    n.visible = true ∧ n.kind.isContainer = true ∧ (n.kind = .part → ¬TransGen d.HasChild a a)

theorem get?_of_hasChild (h : d.HasChild a b) : ∃ n, d.get? a = some n ∧ b ∈ n.children := by
  obtain ⟨n, hn, hb⟩ := h
  exact ⟨n, (mem_entries_iff.mp hn).2, hb⟩

theorem mem_steps_of_isContainer (hk : n.kind.isContainer = true) (hb : b ∈ n.children)
    (hm : d.get? b = some m) (hvisible : m.visible = true) : b ∈ d.steps a n := by
  have hc := contains_eq_true_iff.mpr ⟨m, hm⟩
  unfold steps
  cases hkind : n.kind with
  | boolean op => exact List.mem_filter.mpr ⟨hb, hc⟩
  | part => exact List.mem_filter.mpr ⟨hb, by simp [hm, hvisible]⟩
  | group => exact List.mem_filter.mpr ⟨hb, by simp [hm, hvisible]⟩
  | _ => simp [hkind, Kind.isContainer] at hk

theorem IsEnclosed.shows (h : d.IsEnclosed v) (hv : d.get? v = some n) (hvisible : n.visible = true)
    (hab : d.HasChild a b) (hbv : ReflTransGen d.HasChild b v) : d.Shows a b := by
  obtain ⟨m, hm, hb⟩ := get?_of_hasChild hab
  obtain ⟨_, hcontainer, _⟩ := h a m (.head' hab hbv) hm
  refine ⟨m, hm, hcontainer, ?_⟩
  rcases reflTransGen_iff_eq_or_transGen.mp hbv with rfl | hchain
  · exact mem_steps_of_isContainer hcontainer hb hv hvisible
  · obtain ⟨c, hbc, _⟩ := TransGen.head'_iff.mp hchain
    obtain ⟨k, hk, _⟩ := get?_of_hasChild hbc
    exact mem_steps_of_isContainer hcontainer hb hk (h b k hchain hk).1

theorem IsEnclosed.transGen_shows (h : d.IsEnclosed v) (hv : d.get? v = some n)
    (hvisible : n.visible = true) (hav : TransGen d.HasChild a v) : TransGen d.Shows a v := by
  induction hav using TransGen.head_induction_on with
  | single hab => exact .single (h.shows hv hvisible hab .refl)
  | head hac hcv ih => exact .head (h.shows hv hvisible hac hcv.to_reflTransGen) ih

theorem mem_roots_iff : id ∈ d.roots ↔ ∃ n, (id, n) ∈ d.entries ∧ n.visible = true ∧
    n.kind.isGroup = false ∧ ¬d.IsInside Kind.isOwner id := by
  simp only [roots, isOwned, List.mem_filter, List.mem_map, Prod.exists, Bool.and_eq_true,
    Bool.not_eq_true', ← hasAncestor_eq_true_iff, Bool.not_eq_true]
  constructor
  · rintro ⟨⟨_, n, ⟨hn, hvisible, hgroup⟩, rfl⟩, howned⟩
    exact ⟨n, hn, hvisible, hgroup, howned⟩
  · rintro ⟨n, hn, hvisible, hgroup, howned⟩
    exact ⟨⟨id, n, ⟨hn, hvisible, hgroup⟩, rfl⟩, howned⟩

theorem length_ancestors_lt (hba : TransGen d.HasChild b a) (hb : ¬TransGen d.HasChild b b) :
    (d.ancestors b).length < (d.ancestors a).length := by
  have hnodup : (b :: d.ancestors b).Nodup :=
    List.nodup_cons.mpr ⟨fun h => hb (mem_ancestors_iff.mp h), nodup_walk _ _ _ _⟩
  have hsub : b :: d.ancestors b ⊆ d.ancestors a := by
    apply List.cons_subset.mpr ⟨mem_ancestors_iff.mpr hba, fun c hc => ?_⟩
    exact mem_ancestors_iff.mpr ((mem_ancestors_iff.mp hc).trans hba)
  exact (List.subperm_of_subset hnodup hsub).length_le

theorem IsEnclosed.exists_root (h : d.IsEnclosed v) (hav : TransGen d.HasChild a v)
    (hn : d.get? a = some n) (hpart : n.kind = .part) :
    ∃ r m, r ∈ d.roots ∧ d.get? r = some m ∧ m.kind = .part ∧ TransGen d.HasChild r v := by
  -- From a part that is owned to its owner, fewer nodes are left around it.
  induction hlength : (d.ancestors a).length using Nat.strong_induction_on generalizing a n with
  | _ k ih =>
    by_cases howned : d.IsInside Kind.isOwner a
    · obtain ⟨b, m, hb, howner, hba⟩ := howned
      have hbv := hba.trans hav
      have hm := (mem_entries_iff.mp hb).2
      obtain ⟨_, hcontainer, hcycle⟩ := h b m hbv hm
      have hpart' := Kind.eq_part howner hcontainer
      have hlt := length_ancestors_lt hba (hcycle hpart')
      exact ih _ (hlength ▸ hlt) hbv hm hpart' rfl
    · obtain ⟨hvisible, _, _⟩ := h a n hav hn
      obtain ⟨_, ⟨n', hlisted, _⟩, _⟩ := TransGen.head'_iff.mp hav
      have hentry : (a, n) ∈ d.entries :=
        mem_entries_iff.mpr ⟨(mem_entries_iff.mp hlisted).1, hn⟩
      have hroot : a ∈ d.roots :=
        mem_roots_iff.mpr ⟨n, hentry, hvisible, by simp [hpart, Kind.isGroup], howned⟩
      exact ⟨a, n, hroot, hn, hpart, hav⟩

/-- Root selection and containment cover each other: an enclosed node is a root, or a part that is a
root shows it. -/
theorem IsEnclosed.covered (h : d.IsEnclosed v) (hv : (v, n) ∈ d.entries)
    (hvisible : n.visible = true) (hgroup : n.kind.isGroup = false) :
    ∃ r ∈ d.roots, r = v ∨ (∃ m, d.get? r = some m ∧ m.kind = .part) ∧ TransGen d.Shows r v := by
  by_cases howned : d.IsInside Kind.isOwner v
  · obtain ⟨a, m, ha, howner, hav⟩ := howned
    have hm := (mem_entries_iff.mp ha).2
    obtain ⟨_, hcontainer, _⟩ := h a m hav hm
    obtain ⟨r, k, hr, hk, hpart, hrv⟩ := h.exists_root hav hm (Kind.eq_part howner hcontainer)
    have hshows := h.transGen_shows (mem_entries_iff.mp hv).2 hvisible hrv
    exact ⟨r, hr, .inr ⟨⟨k, hk, hpart⟩, hshows⟩⟩
  · exact ⟨v, mem_roots_iff.mpr ⟨n, hv, hvisible, hgroup, howned⟩, .inl rfl⟩

end Document

end RayScene
