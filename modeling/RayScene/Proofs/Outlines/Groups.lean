import RayScene.Proofs.Outlines.Chains
/-!
Loops as groups of places. A curve may stand in a list more than once, so that curves are told apart
by their places. Loops that use every curve once share the places out among them, and it is the
groups that say which curves form a loop together.
-/
set_option autoImplicit false

namespace RayScene

section Related

variable {α β γ : Type} {r : α → β → Prop} {as : List α} {bs cs : List β}

theorem forall₂_comp {p : β → γ → Prop} {q : α → γ → Prop}
    (hcomp : ∀ a b c, r a b → p b c → q a c) {cs : List γ}
    (hab : List.Forall₂ r as bs) (hbc : List.Forall₂ p bs cs) : List.Forall₂ q as cs := by
  induction hab generalizing cs with
  | nil =>
    cases hbc
    exact .nil
  | cons h _ ih =>
    cases hbc with
    | cons h' hrest => exact .cons (hcomp _ _ _ h h') (ih hrest)

theorem exists_order_of_perm (h : List.Forall₂ r as bs) (hperm : cs.Perm bs) :
    ∃ order, order.Perm as ∧ List.Forall₂ r order cs := by
  have hback : List.Forall₂ (flip r) bs as := List.Forall₂.flip h
  obtain ⟨order, hrelated, horder⟩ := List.perm_comp_forall₂ hperm hback
  exact ⟨order, horder, hrelated.flip⟩

theorem exists_groups_of_flatten {loops : List (List β)} (h : List.Forall₂ r as loops.flatten) :
    ∃ groups, groups.flatten = as ∧ List.Forall₂ (List.Forall₂ r) groups loops := by
  induction loops generalizing as with
  | nil =>
    cases h
    exact ⟨[], rfl, .nil⟩
  | cons loop loops ih =>
    rw [List.flatten_cons] at h
    obtain ⟨groups, hflatten, hgroups⟩ := ih (List.forall₂_drop_append _ _ _ h)
    refine ⟨as.take loop.length :: groups, ?_, .cons (List.forall₂_take_append _ _ _ h) hgroups⟩
    rw [List.flatten_cons, hflatten, List.take_append_drop]

theorem forall_of_forall₂ {p : β → Prop} {q : α → Prop} (himp : ∀ a b, r a b → p b → q a)
    (h : List.Forall₂ r as bs) (hp : ∀ b ∈ bs, p b) : ∀ a ∈ as, q a := by
  induction h with
  | nil => nofun
  | cons hab _ ih =>
    obtain ⟨hb, hrest⟩ := List.forall_mem_cons.mp hp
    exact List.forall_mem_cons.mpr ⟨himp _ _ hab hb, ih hrest⟩

theorem pairwise_of_forall₂ {p : β → β → Prop} {q : α → α → Prop}
    (himp : ∀ a b a' b', r a b → r a' b' → p b b' → q a a') (h : List.Forall₂ r as bs)
    (hp : bs.Pairwise p) : as.Pairwise q := by
  have hlength := h.length_eq
  rw [List.pairwise_iff_getElem] at hp ⊢
  intro i j hi hj hij
  exact himp _ _ _ _ (h.get hi (hlength ▸ hi)) (h.get hj (hlength ▸ hj))
    (hp i j (hlength ▸ hi) (hlength ▸ hj) hij)

theorem isChain_of_forall₂ {p : β → β → Prop} {q : α → α → Prop}
    (himp : ∀ a b a' b', r a b → r a' b' → p b b' → q a a') (h : List.Forall₂ r as bs)
    (hp : bs.IsChain p) : as.IsChain q := by
  have hlength := h.length_eq
  rw [List.isChain_iff_getElem] at hp ⊢
  intro i hi
  exact himp _ _ _ _ (h.get (Nat.lt_of_succ_lt hi) (hlength ▸ Nat.lt_of_succ_lt hi))
    (h.get hi (hlength ▸ hi)) (hp i (hlength ▸ hi))

theorem eq_of_pairwise_not {p : α → α → Prop} (hsymm : ∀ a b, p a b → p b a)
    (h : as.Pairwise fun a b => ¬p a b) {a b : α} (ha : a ∈ as) (hb : b ∈ as) (hab : p a b) :
    a = b := by
  induction h with
  | nil => cases ha
  | cons hfar _ ih =>
    rcases List.mem_cons.mp ha with rfl | hrest
    · rcases List.mem_cons.mp hb with rfl | hrest
      · rfl
      · exact absurd hab (hfar b hrest)
    · rcases List.mem_cons.mp hb with rfl | hrest'
      · exact absurd (hsymm _ _ hab) (hfar a hrest)
      · exact ih hrest hrest'

end Related

section Rearrangements

variable {s t u : Segment} {segments more result : List Segment}

@[simp] theorem Segment.reversed_reversed (s : Segment) : s.reversed.reversed = s := by
  cases s with
  | arc a => cases a with | mk _ _ _ _ orientation => cases orientation <;> rfl
  | _ => rfl

theorem Segment.Turned.symm (h : Segment.Turned s t) : Segment.Turned t s := by
  rcases h with rfl | rfl
  · exact .inl rfl
  · exact .inr s.reversed_reversed.symm

theorem Segment.Turned.trans (hst : Segment.Turned s t) (htu : Segment.Turned t u) :
    Segment.Turned s u := by
  rcases hst with rfl | rfl
  · exact htu
  · rcases htu with rfl | rfl
    · exact .inr rfl
    · exact .inl s.reversed_reversed

theorem Rearranged.of_perm (h : result.Perm segments) : Rearranged segments result :=
  ⟨result, h, List.forall₂_same.mpr fun _ _ => .inl rfl⟩

theorem Rearranged.symm (h : Rearranged segments result) : Rearranged result segments := by
  obtain ⟨order, hperm, hturned⟩ := h
  have hback : List.Forall₂ Segment.Turned result order :=
    (hturned.imp fun _ _ hst => hst.symm).flip
  exact exists_order_of_perm hback hperm.symm

theorem Rearranged.trans (h : Rearranged segments more) (h' : Rearranged more result) :
    Rearranged segments result := by
  obtain ⟨order, hperm, hturned⟩ := h
  obtain ⟨order', hperm', hturned'⟩ := h'
  obtain ⟨order'', hperm'', hturned''⟩ := exists_order_of_perm hturned hperm'
  exact ⟨order'', hperm''.trans hperm,
    forall₂_comp (fun _ _ _ hst htu => hst.trans htu) hturned'' hturned'⟩

end Rearrangements

/-- Loops by the places of their curves in a list. Each place is in one group, and a loop has the
curves at the places of its group, some of them perhaps turned. -/
structure Grouped (segments : List Segment) (groups : List (List (Fin segments.length)))
    (loops : List (List Segment)) : Prop where
  once : groups.flatten.Perm (List.finRange segments.length)
  turned : List.Forall₂ (List.Forall₂ fun i s => Segment.Turned (segments.get i) s) groups loops

def Together {n : ℕ} (groups : List (List (Fin n))) (i j : Fin n) : Prop :=
  ∃ g ∈ groups, i ∈ g ∧ j ∈ g

section Groups

variable {n : ℕ} {groups groups' : List (List (Fin n))} {g : List (Fin n)} {i j : Fin n}

theorem mem_iff_together (hnodup : groups.flatten.Nodup) (hg : g ∈ groups) (hi : i ∈ g) :
    j ∈ g ↔ Together groups i j := by
  constructor
  · exact fun hj => ⟨g, hg, hi, hj⟩
  · rintro ⟨h, hh, hih, hjh⟩
    have hapart : groups.Pairwise fun g h => ¬∃ i, i ∈ g ∧ i ∈ h :=
      (List.nodup_flatten.mp hnodup).2.imp fun hdisjoint ⟨i, hi, hih⟩ => hdisjoint hi hih
    have heq : h = g :=
      eq_of_pairwise_not (fun _ _ ⟨i, hi, hih⟩ => ⟨i, hih, hi⟩) hapart hh hg ⟨i, hih, hi⟩
    exact heq ▸ hjh

theorem ofList_mem_of_together (hnodup : groups.flatten.Nodup) (hnodup' : groups'.flatten.Nodup)
    (hne : ∀ g ∈ groups, g ≠ []) (hsame : ∀ i j, Together groups i j ↔ Together groups' i j)
    (hg : g ∈ groups) : Multiset.ofList g ∈ groups'.map Multiset.ofList := by
  obtain ⟨i, hi⟩ := List.exists_mem_of_ne_nil g (hne g hg)
  obtain ⟨g', hg', hi', _⟩ := (hsame i i).mp ⟨g, hg, hi, hi⟩
  have hperm : g'.Perm g := by
    rw [List.perm_ext_iff_of_nodup ((List.nodup_flatten.mp hnodup').1 g' hg')
      ((List.nodup_flatten.mp hnodup).1 g hg)]
    intro j
    rw [mem_iff_together hnodup' hg' hi', mem_iff_together hnodup hg hi, hsame]
  exact List.mem_map.mpr ⟨g', hg', Multiset.coe_eq_coe.mpr hperm⟩

theorem nodup_map_ofList (hnodup : groups.flatten.Nodup) (hne : ∀ g ∈ groups, g ≠ []) :
    (groups.map Multiset.ofList).Nodup := by
  rw [List.Nodup, List.pairwise_map]
  refine (List.nodup_flatten.mp hnodup).2.imp_of_mem fun {g h} hg _ hdisjoint heq => ?_
  obtain ⟨i, hi⟩ := List.exists_mem_of_ne_nil g (hne g hg)
  exact hdisjoint hi ((Multiset.coe_eq_coe.mp heq).subset hi)

/-- Which places are together determines the groups, up to their order and the order in them. -/
theorem exists_order_of_together (hnodup : groups.flatten.Nodup) (hnodup' : groups'.flatten.Nodup)
    (hne : ∀ g ∈ groups, g ≠ []) (hne' : ∀ g ∈ groups', g ≠ [])
    (hsame : ∀ i j, Together groups i j ↔ Together groups' i j) :
    ∃ order, order.Perm groups ∧ List.Forall₂ List.Perm order groups' := by
  have hperm : (groups'.map Multiset.ofList).Perm (groups.map Multiset.ofList) := by
    rw [List.perm_ext_iff_of_nodup (nodup_map_ofList hnodup' hne') (nodup_map_ofList hnodup hne)]
    intro m
    constructor
    · intro hm
      obtain ⟨g', hg', rfl⟩ := List.mem_map.mp hm
      exact ofList_mem_of_together hnodup' hnodup hne' (fun i j => (hsame i j).symm) hg'
    · intro hm
      obtain ⟨g, hg, rfl⟩ := List.mem_map.mp hm
      exact ofList_mem_of_together hnodup hnodup' hne hsame hg
  have hmap : List.Forall₂ (fun g m => Multiset.ofList g = m) groups
      (groups.map Multiset.ofList) := by
    rw [List.forall₂_map_right_iff, List.forall₂_same]
    exact fun _ _ => rfl
  obtain ⟨order, horder, hrelated⟩ := exists_order_of_perm hmap hperm
  rw [List.forall₂_map_right_iff] at hrelated
  exact ⟨order, horder, hrelated.imp fun _ _ => Multiset.coe_eq_coe.mp⟩

end Groups

section Loops

variable {segments : List Segment} {loops loops' : List (List Segment)}
  {groups groups' : List (List (Fin segments.length))}

theorem exists_grouped (h : Rearranged segments loops.flatten) :
    ∃ groups, Grouped segments groups loops := by
  obtain ⟨order, hperm, hturned⟩ := h
  have hplaces : List.Forall₂ (fun i s => segments.get i = s) (List.finRange segments.length)
      segments := by
    rw [← List.forall₂_map_left_iff (f := segments.get), List.map_get_finRange]
    exact List.forall₂_eq_eq_eq ▸ rfl
  obtain ⟨places, honce, hget⟩ := exists_order_of_perm hplaces hperm
  have hrelated : List.Forall₂ (fun i s => Segment.Turned (segments.get i) s) places
      loops.flatten := forall₂_comp (fun i s t his hst => his ▸ hst) hget hturned
  obtain ⟨groups, rfl, hgroups⟩ := exists_groups_of_flatten hrelated
  exact ⟨groups, honce, hgroups⟩

theorem Grouped.nodup (h : Grouped segments groups loops) : groups.flatten.Nodup :=
  h.once.nodup_iff.mpr (List.nodup_finRange _)

theorem Grouped.ne_nil (h : Grouped segments groups loops) (hne : ∀ loop ∈ loops, loop ≠ []) :
    ∀ g ∈ groups, g ≠ [] := by
  refine forall_of_forall₂ (q := (· ≠ [])) (fun g loop hturned hloop => ?_) h.turned hne
  rintro rfl
  cases hturned
  exact hloop rfl

/-- Loops whose groups keep the same places together are the same loops, up to the order of the
loops and to the order and the directions of the curves in each of them. -/
theorem Grouped.exists_order (h : Grouped segments groups loops)
    (h' : Grouped segments groups' loops') (hne : ∀ loop ∈ loops, loop ≠ [])
    (hne' : ∀ loop ∈ loops', loop ≠ [])
    (hsame : ∀ i j, Together groups i j ↔ Together groups' i j) :
    ∃ order, order.Perm loops ∧ List.Forall₂ Rearranged order loops' := by
  obtain ⟨groupOrder, hgroupOrder, hgroups⟩ :=
    exists_order_of_together h.nodup h'.nodup (h.ne_nil hne) (h'.ne_nil hne') hsame
  obtain ⟨order, hturned, horder⟩ := List.perm_comp_forall₂ hgroupOrder h.turned
  have hrearranged : ∀ {g : List (Fin segments.length)} {loop : List Segment},
      List.Forall₂ (fun i s => Segment.Turned (segments.get i) s) g loop →
        Rearranged (g.map segments.get) loop := fun hloop =>
    ⟨_, .refl _, List.forall₂_map_left_iff.mpr hloop⟩
  have hback : List.Forall₂ (fun loop g => Rearranged loop (g.map segments.get)) order groupOrder :=
    (hturned.imp fun _ _ hloop => (hrearranged hloop).symm).flip
  have hmiddle : List.Forall₂ (fun loop g => Rearranged loop (g.map segments.get)) order groups' :=
    forall₂_comp (fun _ _ _ hloop hperm => hloop.trans (.of_perm (hperm.map _).symm)) hback hgroups
  exact ⟨order, horder,
    forall₂_comp (fun _ _ _ hloop hturned => hloop.trans (hrearranged hturned)) hmiddle h'.turned⟩

end Loops

end RayScene
