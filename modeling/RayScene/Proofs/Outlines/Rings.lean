import RayScene.Proofs.Outlines.Profiles
set_option autoImplicit false

namespace RayScene

def Segment.StartsApart (s t : Segment) : Prop :=
  ∀ a b, s.start? = some a → t.start? = some b → samePoint a b = false

/-- Lines and arcs that each stop where the next one starts, the last one where the first one
starts. No two of them start at one point. -/
structure IsRing (chain : List Segment) : Prop where
  ne_nil : chain ≠ []
  meets : (chain : Cycle Segment).Chain Segment.Meets
  apart : chain.Pairwise Segment.StartsApart

section Rings

variable {chain rest left : List Segment} {first prev s : Segment} {start current a b : Vec2}

theorem samePoint_eq_false_symm (h : samePoint a b = false) : samePoint b a = false :=
  Bool.eq_false_iff.mpr fun hba => Bool.eq_false_iff.mp h (samePoint_symm hba)

theorem Segment.StartsApart.symm {t : Segment} (h : s.StartsApart t) : t.StartsApart s :=
  fun a b ha hb => samePoint_eq_false_symm (h b a hb ha)

theorem IsRing.rotate (h : IsRing chain) (k : ℕ) : IsRing (chain.rotate k) where
  ne_nil := fun hnil => h.ne_nil (List.rotate_eq_nil_iff.mp hnil)
  meets := Cycle.coe_eq_coe.mpr (List.IsRotated.forall chain k) ▸ h.meets
  apart := (List.rotate_perm chain k).symm.pairwise h.apart Segment.StartsApart.symm

/-- Wherever a curve of a ring stands, another one comes after it and starts where this one
stops. -/
theorem exists_next_of_isChain (h : (s :: (rest ++ [first])).IsChain Segment.Meets) :
    ∃ t ∈ rest ++ [first], s.Meets t := by
  cases rest with
  | nil => exact ⟨first, List.mem_singleton_self first, List.isChain_pair.mp h⟩
  | cons t rest => exact ⟨t, List.mem_cons_self, (List.isChain_cons_cons.mp h).1⟩

theorem leaving_eq_self (h : s.stopsAt current = false) : s.leaving current = s := by
  rw [Segment.leaving, h, if_neg Bool.false_ne_true]

theorem closeChain_cons (hopen : samePoint start current = false)
    (hstarts : s.startsAt current = true) (hstops : s.stopsAt current = false)
    (hb : s.stop? = some b) {run : List Segment}
    (h : closeChain start b rest = .ok (run, left)) :
    closeChain start current (s :: rest) = .ok (s :: run, left) := by
  have hfirst : extractFirst (fun t => t.startsAt current || t.stopsAt current) (s :: rest) =
      some (s, rest) := by simp [extractFirst, hstarts]
  rw [closeChain, if_neg (Bool.eq_false_iff.mp hopen)]
  split
  · rename_i hnone
    rw [hfirst] at hnone
    cases hnone
  · rename_i t more hsome
    rw [hfirst] at hsome
    cases hsome
    simp only [leaving_eq_self hstops, hb, Option.getD_some, h]

/-- The rest of a ring is taken in its order. The curve that the ring begins with comes once more at
its end, where it stands for the point at which the chain has to arrive. -/
theorem closeChain_of_isChain (hstart : first.start? = some start)
    (hprev : prev.stop? = some current)
    (hmeets : (prev :: (rest ++ [first])).IsChain Segment.Meets)
    (hapart : (rest ++ [first]).Pairwise Segment.StartsApart) :
    closeChain start current rest = .ok (rest, []) := by
  induction rest generalizing prev current with
  | nil =>
    obtain ⟨a, b, hb, ha, hsame⟩ := List.isChain_pair.mp hmeets
    cases hstart.symm.trans ha
    cases hprev.symm.trans hb
    rw [closeChain, if_pos hsame]
  | cons s rest ih =>
    rw [List.cons_append] at hmeets hapart
    obtain ⟨hmeet, hmore⟩ := List.isChain_cons_cons.mp hmeets
    obtain ⟨hfar, hpairs⟩ := List.pairwise_cons.mp hapart
    obtain ⟨a, _, hcurrent, ha, hsame⟩ := hmeet
    cases hprev.symm.trans hcurrent
    obtain ⟨next, hnext, c, b, hb, hc, hjoin⟩ := exists_next_of_isChain hmore
    have hstops : s.stopsAt current = false := by
      rw [Segment.stopsAt_of_stop? hb, ← samePoint_congr hjoin]
      exact samePoint_eq_false_symm
        ((samePoint_congr hsame c).symm.trans (hfar next hnext a c ha hc))
    have hopen : samePoint start current = false :=
      samePoint_eq_false_symm
        ((samePoint_congr hsame start).symm.trans (hfar first (by simp) a start ha hstart))
    have hstarts : s.startsAt current = true := by rwa [Segment.startsAt_of_start? ha]
    exact closeChain_cons hopen hstarts hstops hb (ih hb hmore hpairs)

theorem outlines_cons (ha : s.start? = some a) (hb : s.stop? = some b) {run : List Segment}
    (h : closeChain a b rest = .ok (run, left)) :
    outlines (s :: rest) = (outlines left).map ((s :: run) :: ·) := by
  rw [outlines]
  split
  · rename_i a' b' ha' hb'
    cases ha.symm.trans ha'
    cases hb.symm.trans hb'
    split
    · rename_i herror
      cases h.symm.trans herror
    · rename_i hok
      cases h.symm.trans hok
      rfl
  · rename_i hclosed
    exact absurd hb (hclosed a b ha)

theorem isOpen_of_isChain (h : (rest ++ [first]).IsChain Segment.Meets) :
    ∀ s ∈ rest, s.isOpen = true := by
  intro s hs
  obtain ⟨before, after, rfl⟩ := List.append_of_mem hs
  rw [List.append_assoc, List.cons_append] at h
  obtain ⟨_, _, _, b, hb, _⟩ := exists_next_of_isChain h.right_of_append
  cases s with
  | line => rfl
  | arc => rfl
  | _ => cases hb

theorem IsRing.isOpen (h : IsRing chain) : ∀ s ∈ chain, s.isOpen = true := by
  cases chain with
  | nil => nofun
  | cons first rest => exact isOpen_of_isChain ((Cycle.chain_coe_cons ..).mp h.meets)

theorem IsRing.outlines_eq (h : IsRing chain) : outlines chain = .ok [chain] := by
  cases chain with
  | nil => exact absurd rfl h.ne_nil
  | cons first rest =>
    have hmeets := (Cycle.chain_coe_cons ..).mp h.meets
    have hapart : (rest ++ [first]).Pairwise Segment.StartsApart :=
      List.perm_append_singleton first rest |>.symm.pairwise h.apart Segment.StartsApart.symm
    obtain ⟨a, b, ha, hb⟩ := Segment.ends_of_isOpen (h.isOpen first List.mem_cons_self)
    rw [outlines_cons ha hb (closeChain_of_isChain ha hb hmeets hapart), outlines]
    rfl

theorem IsRing.profile_eq (h : IsRing chain) {sketch : Sketch}
    (hsketch : sketch.profileSegments = chain) :
    sketch.profile = .ok ⟨chain.flatMap Segment.cubics⟩ := by
  have hkind : sketch.profileSegments.findSome? Segment.unsupportedKind? = none := by
    rw [hsketch, List.findSome?_eq_none_iff]
    intro s hs
    have hopen := h.isOpen s hs
    cases s with
    | unsupported => cases hopen
    | _ => rfl
  have hcurves : sketch.profileSegments.filter Segment.isCurve = chain := by
    rw [hsketch, List.filter_eq_self]
    intro s hs
    have hopen := h.isOpen s hs
    cases s with
    | line => rfl
    | arc => rfl
    | _ => cases hopen
  rw [Sketch.profile_of_curves hkind (hcurves ▸ h.ne_nil), hcurves, h.outlines_eq]
  simp [Except.map]

theorem flatMap_rotate {α β : Type} (l : List α) (f : α → List β) (k : ℕ) :
    (l.rotate k).flatMap f =
      (l.flatMap f).rotate ((l.take (k % l.length)).flatMap f).length := by
  have hsplit : l.flatMap f =
      (l.take (k % l.length)).flatMap f ++ (l.drop (k % l.length)).flatMap f := by
    rw [← List.flatMap_append, List.take_append_drop]
  rw [List.rotate_eq_drop_append_take_mod, List.flatMap_append, hsplit,
    List.rotate_append_length_eq]

/-- Curves that are listed in the order of their outline, from whichever of them on. They are one
outline in this order, none of them turned, and the profile is their cubics: those of the unrotated
list, rotated by as many as the curves have that have gone to the end. -/
theorem profile_of_rotated_ring (chain : List Segment) (h : IsRing chain) (k : ℕ)
    (sketch rotated : Sketch) (hsketch : sketch.profileSegments = chain)
    (hrotated : rotated.profileSegments = chain.rotate k) :
    outlines (chain.rotate k) = .ok [chain.rotate k] ∧
    ∃ p q, sketch.profile = .ok p ∧ rotated.profile = .ok q ∧
      q.cubics = (chain.rotate k).flatMap Segment.cubics ∧
      q.cubics =
        p.cubics.rotate ((chain.take (k % chain.length)).flatMap Segment.cubics).length :=
  ⟨(h.rotate k).outlines_eq, _, _, h.profile_eq hsketch, (h.rotate k).profile_eq hrotated, rfl,
    flatMap_rotate chain Segment.cubics k⟩

/-- A triangle from its last line on. Its lines meet at the resolution of a sketch only. -/
theorem profile_of_rotated_triangle :
    let a : Segment := .line ⟨0, 0⟩ ⟨4, 0⟩
    let b : Segment := .line ⟨4.0004, 0⟩ ⟨2, 3⟩
    let c : Segment := .line ⟨2, 3⟩ ⟨0, 0.0003⟩
    IsRing [a, b, c] ∧ outlines [c, a, b] = .ok [[c, a, b]] ∧
      ∃ p q, (Sketch.ofSegments [a, b, c]).profile = .ok p ∧
        (Sketch.ofSegments [c, a, b]).profile = .ok q ∧ q.cubics = p.cubics.rotate 2 := by
  intro a b c
  have hring : IsRing [a, b, c] := by
    refine ⟨List.cons_ne_nil _ _, (Cycle.chain_coe_cons ..).mpr ?_, ?_⟩
    · have hjoins : samePoint ⟨4.0004, 0⟩ ⟨4, 0⟩ = true ∧ samePoint ⟨2, 3⟩ ⟨2, 3⟩ = true ∧
          samePoint ⟨0, 0⟩ ⟨0, 0.0003⟩ = true := by decide +kernel
      obtain ⟨hab, hbc, hca⟩ := hjoins
      exact .cons_cons ⟨_, _, rfl, rfl, hab⟩
        (.cons_cons ⟨_, _, rfl, rfl, hbc⟩ (.cons_cons ⟨_, _, rfl, rfl, hca⟩ (.singleton a)))
    · have hapart : ([a, b, c].filterMap Segment.start?).Pairwise (samePoint · · = false) := by
        decide +kernel
      exact (List.pairwise_filterMap.mp hapart).imp fun h p q hp hq => h p hp q hq
  obtain ⟨houtlines, p, q, hp, hq, _, hcubics⟩ := profile_of_rotated_ring [a, b, c] hring 2
    (Sketch.ofSegments [a, b, c]) (Sketch.ofSegments [c, a, b]) rfl rfl
  exact ⟨hring, houtlines, p, q, hp, hq, hcubics⟩

end Rings

end RayScene
