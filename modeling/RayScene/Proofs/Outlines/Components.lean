import RayScene.Proofs.Outlines.Groups
import RayScene.Proofs.Outlines.Parity
set_option autoImplicit false

namespace RayScene

open Relation

def Segment.Touches (s t : Segment) : Prop :=
  ∃ p ∈ s.ends, ∃ q ∈ t.ends, samePoint p q = true

/-- A chain of curves leads from one place of the list to the other, each of which touches the next
one. -/
def Joined (segments : List Segment) : Fin segments.length → Fin segments.length → Prop :=
  ReflTransGen fun i j => (segments.get i).Touches (segments.get j)

section Touching

variable {s s' t t' : Segment} {segments pending : List Segment} {loops : List (List Segment)}
  {p q : Vec2}

theorem Segment.Touches.symm (h : s.Touches t) : t.Touches s := by
  obtain ⟨p, hp, q, hq, hpq⟩ := h
  exact ⟨q, hq, p, hp, samePoint_symm hpq⟩

theorem Segment.Touches.of_turned (hs : Segment.Turned s' s) (ht : Segment.Turned t' t)
    (h : s.Touches t) : s'.Touches t' := by
  obtain ⟨p, hp, q, hq, hpq⟩ := h
  exact ⟨p, hs.ends_perm.symm.subset hp, q, ht.ends_perm.symm.subset hq, hpq⟩

theorem Segment.Meets.touches (h : s.Meets t) : s.Touches t := by
  obtain ⟨a, b, hb, ha, hsame⟩ := h
  exact ⟨b, by simp [Segment.ends, hb], a, by simp [Segment.ends, ha], samePoint_symm hsame⟩

theorem touchCount_pos (hp : p ∈ curveEnds segments) (hpq : samePoint p q = true) :
    0 < touchCount q segments := List.countP_pos_iff.mpr ⟨p, hp, hpq⟩

/-- The outlines that come after a closed one do not touch it where no point has more than two ends:
at each of its points both ends belong to it. -/
theorem pairwise_not_touches (hcurves : ∀ s ∈ pending, s.isCurve = true)
    (htwice : ∀ p, touchCount p pending ≤ 2) (h : outlines pending = .ok loops) :
    loops.Pairwise fun l l' => ∀ s ∈ l, ∀ t ∈ l', ¬s.Touches t := by
  fun_induction outlines pending generalizing loops with
  | case1 =>
    cases h
    exact .nil
  | case2 => cases h
  | case3 s rest a b hb ha run left hok ih =>
    obtain ⟨_, hrest⟩ := List.forall_mem_cons.mp hcurves
    obtain ⟨more, houtlines, rfl⟩ := exists_eq_ok_of_map h
    obtain ⟨taken, last, hperm, hturned, htrail, hlast⟩ := closeChain_ok hok
    have hcount := touchCount_chain hperm hturned s
    have hleft : ∀ t ∈ left, t.isCurve = true := fun t ht =>
      hrest t (hperm.subset (List.mem_append_right taken ht))
    have hfew : ∀ p, touchCount p left ≤ 2 := fun p =>
      (Nat.le_add_left ..).trans (hcount p ▸ htwice p)
    refine List.pairwise_cons.mpr ⟨fun loop hloop u hu t ht htouch => ?_, ih hleft hfew houtlines⟩
    obtain ⟨p, hp, q, hq, hpq⟩ := htouch
    have hends := (outlines_spec hleft houtlines).1.curveEnds_perm
    have hmore : q ∈ curveEnds more.flatten :=
      List.mem_flatMap.mpr ⟨t, List.mem_flatten.mpr ⟨loop, hloop, ht⟩, hq⟩
    have hself : samePoint q q = true := samePoint_trans (samePoint_symm hpq) hpq
    have hlater := touchCount_pos (hends.symm.subset hmore) hself
    have hhere := touchCount_pos (List.mem_flatMap.mpr ⟨u, hu, hp⟩) hpq
    obtain ⟨k, hk⟩ := htrail.even_of_closed ha hb hlast q
    have hall := htwice q
    rw [hcount] at hall
    omega
  | case4 s rest hclosed ih =>
    obtain ⟨_, hrest⟩ := List.forall_mem_cons.mp hcurves
    obtain ⟨more, houtlines, rfl⟩ := exists_eq_ok_of_map h
    have hfew : ∀ p, touchCount p rest ≤ 2 := fun p =>
      (Nat.le_add_left ..).trans (touchCount_cons p s rest ▸ htwice p)
    refine List.pairwise_cons.mpr ⟨fun loop hloop u hu t ht htouch => ?_, ih hrest hfew houtlines⟩
    obtain ⟨p, hp, _⟩ := htouch
    rw [List.mem_singleton.mp hu, ends_eq_nil hclosed] at hp
    cases hp

theorem IsOutline.ne_nil {loop : List Segment} (h : IsOutline loop) : loop ≠ [] := by
  rcases h with ⟨_, _, rfl⟩ | ⟨_, hloop⟩
  · exact List.cons_ne_nil _ _
  · rintro rfl
    obtain ⟨_, hs, _⟩ := hloop.starts
    cases hs

theorem IsOutline.meets {loop : List Segment} (h : IsOutline loop) :
    loop.IsChain Segment.Meets := by
  rcases h with ⟨_, _, rfl⟩ | ⟨_, hloop⟩
  · exact .singleton _
  · exact hloop.meets

end Touching

section Joins

variable {segments : List Segment} {loops : List (List Segment)}
  {groups : List (List (Fin segments.length))} {i j : Fin segments.length}

theorem Joined.symm (h : Joined segments i j) : Joined segments j i := by
  induction h with
  | refl => exact .refl
  | tail _ htouch ih => exact ih.head htouch.symm

theorem Grouped.joined (h : Grouped segments groups loops)
    (hloops : ∀ loop ∈ loops, IsOutline loop) :
    ∀ g ∈ groups, ∀ i ∈ g, ∀ j ∈ g, Joined segments i j := by
  refine forall_of_forall₂ (fun g loop hturned hloop => ?_) h.turned hloops
  have hchain : g.IsChain (Joined segments) := isChain_of_forall₂
    (fun i s j t hs ht hmeet => .single (hmeet.touches.of_turned hs ht)) hturned hloop.meets
  have htrans : Trans (Joined segments) (Joined segments) (Joined segments) :=
    ⟨fun hij hjk => hij.trans hjk⟩
  have hsymm : Std.Symm (Joined segments) := ⟨fun _ _ hij => hij.symm⟩
  exact (List.isChain_iff_pairwise.mp hchain).forall_of_forall fun _ _ => .refl

/-- Curves that are joined are in one outline when no outline touches another one. -/
theorem Grouped.together_iff (h : Grouped segments groups loops)
    (hloops : ∀ loop ∈ loops, IsOutline loop)
    (hapart : loops.Pairwise fun l l' => ∀ s ∈ l, ∀ t ∈ l', ¬s.Touches t) :
    Together groups i j ↔ Joined segments i j := by
  have hmem : ∀ {g : List (Fin segments.length)} {loop : List Segment},
      List.Forall₂ (fun i s => Segment.Turned (segments.get i) s) g loop →
        ∀ i ∈ g, ∃ s ∈ loop, Segment.Turned (segments.get i) s := fun hturned =>
    forall_of_forall₂ (fun _ s his hs => ⟨s, hs, his⟩) hturned fun _ hs => hs
  have hgroups : groups.Pairwise fun g g' =>
      ¬∃ i ∈ g, ∃ j ∈ g', (segments.get i).Touches (segments.get j) := by
    refine pairwise_of_forall₂ (fun g loop g' loop' hg hg' hfar => ?_) h.turned hapart
    rintro ⟨i, hi, j, hj, htouch⟩
    obtain ⟨s, hs, his⟩ := hmem hg i hi
    obtain ⟨t, ht, hjt⟩ := hmem hg' j hj
    exact hfar s hs t ht (htouch.of_turned his.symm hjt.symm)
  have hsome : ∀ i, ∃ g ∈ groups, i ∈ g := fun i =>
    List.mem_flatten.mp (h.once.symm.subset (List.mem_finRange i))
  constructor
  · rintro ⟨g, hg, hi, hj⟩
    exact h.joined hloops g hg i hi j hj
  · intro hij
    obtain ⟨g, hg, hi⟩ := hsome i
    refine ⟨g, hg, hi, ?_⟩
    -- A curve that touches one of this group cannot be in another one.
    induction hij with
    | refl => exact hi
    | @tail j k _ htouch ih =>
      obtain ⟨g', hg', hk⟩ := hsome k
      have heq : g = g' := eq_of_pairwise_not
        (fun _ _ ⟨i, hi, j, hj, hij⟩ => ⟨j, hj, i, hi, hij.symm⟩) hgroups hg hg'
        ⟨j, ih, k, hk, htouch⟩
      exact heq ▸ hk

end Joins

section Components

variable {segments pending pending' : List Segment} {p q : Vec2}

theorem touchCount_congr (h : samePoint p q = true) (segments : List Segment) :
    touchCount p segments = touchCount q segments :=
  List.countP_congr fun _ _ => ⟨(samePoint_trans · h), (samePoint_trans · (samePoint_symm h))⟩

theorem exists_end_of_touchCount (h : 0 < touchCount p segments) :
    ∃ q ∈ curveEnds segments, samePoint q p = true := List.countP_pos_iff.mp h

theorem touchCount_le_two (htwice : ∀ p ∈ curveEnds pending, touchCount p pending = 2) (p : Vec2) :
    touchCount p pending ≤ 2 := by
  by_contra hmany
  obtain ⟨q, hq, hqp⟩ := exists_end_of_touchCount (by omega : 0 < touchCount p pending)
  have hcount := touchCount_congr hqp pending
  rw [htwice q hq] at hcount
  omega

theorem exists_outlines (htwice : ∀ p ∈ curveEnds pending, touchCount p pending = 2) :
    ∃ loops, outlines pending = .ok loops := by
  obtain ⟨hok, _⟩ | ⟨p, hp, _, hodd⟩ := parityDecides_outlines pending
  · cases houtlines : outlines pending with
    | error e =>
      rw [houtlines] at hok
      cases hok
    | ok loops => exact ⟨loops, rfl⟩
  · have hcount := htwice p hp
    obtain ⟨q, _, hqp⟩ := exists_end_of_touchCount (by omega : 0 < touchCount p pending)
    have hp' := hodd (samePoint_trans (samePoint_symm hqp) hqp)
    rw [hcount] at hp'
    exact absurd hp' (by decide)

/-- The outlines of curves, by their places in any list of which the curves are a rearrangement. -/
theorem exists_components (hcurves : ∀ s ∈ pending, s.isCurve = true)
    (htwice : ∀ p ∈ curveEnds pending, touchCount p pending = 2)
    (h : Rearranged segments pending) :
    ∃ loops groups, outlines pending = .ok loops ∧ (∀ loop ∈ loops, IsOutline loop) ∧
      Grouped segments groups loops ∧ ∀ i j, Together groups i j ↔ Joined segments i j := by
  obtain ⟨loops, houtlines⟩ := exists_outlines htwice
  obtain ⟨hrearranged, hloops⟩ := outlines_spec hcurves houtlines
  obtain ⟨groups, hgroups⟩ := exists_grouped (h.trans hrearranged)
  have hapart := pairwise_not_touches hcurves (touchCount_le_two htwice) houtlines
  exact ⟨loops, groups, houtlines, hloops, hgroups, fun i j => hgroups.together_iff hloops hapart⟩

theorem Rearranged.touchCount_eq_two (h : Rearranged pending pending')
    (htwice : ∀ p ∈ curveEnds pending, touchCount p pending = 2) :
    ∀ p ∈ curveEnds pending', touchCount p pending' = 2 := by
  intro p hp
  have hends := h.curveEnds_perm
  rw [touchCount, ← hends.countP_eq]
  exact htwice p (hends.symm.subset hp)

/-- Where every point is touched by exactly two ends, curves have outlines, and these are their
connected components: each curve is in one of them once, and two curves are in one outline exactly
when a chain of curves that touch leads from one to the other. Neither the order nor the directions
of the curves matter to how many outlines there are and to which curves are in one outline. An end
that is touched has numbers for its coordinates, so that being the same point is an equivalence on
the ends. -/
theorem outlines_are_components (pending : List Segment)
    (hcurves : ∀ s ∈ pending, s.isCurve = true)
    (htwice : ∀ p ∈ curveEnds pending, touchCount p pending = 2) :
    ∃ loops groups, outlines pending = .ok loops ∧ (∀ loop ∈ loops, IsOutline loop) ∧
      Grouped pending groups loops ∧ (∀ i j, Together groups i j ↔ Joined pending i j) ∧
      ∀ pending', Rearranged pending pending' → ∃ loops' order, outlines pending' = .ok loops' ∧
        loops'.length = loops.length ∧ order.Perm loops ∧ List.Forall₂ Rearranged order loops' := by
  obtain ⟨loops, groups, houtlines, hloops, hgroups, hjoined⟩ :=
    exists_components hcurves htwice (.of_perm (.refl pending))
  refine ⟨loops, groups, houtlines, hloops, hgroups, hjoined, fun pending' h => ?_⟩
  have hcurves' : ∀ s ∈ pending', s.isCurve = true :=
    (h.forall_iff fun s => by rw [Segment.isCurve_reversed]).mpr hcurves
  obtain ⟨loops', groups', houtlines', hloops', hgroups', hjoined'⟩ :=
    exists_components hcurves' (h.touchCount_eq_two htwice) h
  obtain ⟨order, hperm, hrelated⟩ := hgroups.exists_order hgroups'
    (fun loop hloop => (hloops loop hloop).ne_nil)
    (fun loop hloop => (hloops' loop hloop).ne_nil)
    fun i j => (hjoined i j).trans (hjoined' i j).symm
  exact ⟨loops', order, houtlines', hrelated.length_eq.symm.trans hperm.length_eq, hperm, hrelated⟩

/-- A triangle, a line there and back, and a circle, listed across each other, and the same curves
from the end and turned. -/
theorem outlines_of_interleaved_loops :
    let pending : List Segment := [.line ⟨0, 0⟩ ⟨2, 0⟩, .line ⟨5, 0⟩ ⟨7, 0⟩, .circle ⟨1, 1⟩ 0.5,
      .line ⟨1, 3⟩ ⟨0, 0⟩, .line ⟨5, 0⟩ ⟨7, 0⟩, .line ⟨1, 3⟩ ⟨2, 0⟩]
    (∀ s ∈ pending, s.isCurve = true) ∧ (∀ p ∈ curveEnds pending, touchCount p pending = 2) ∧
      ∃ loops groups loops' order, outlines pending = .ok loops ∧
        loops.map List.length = [3, 2, 1] ∧ Grouped pending groups loops ∧
        (∀ i j, Together groups i j ↔ Joined pending i j) ∧
        outlines (pending.reverse.map Segment.reversed) = .ok loops' ∧ loops'.length = 3 ∧
        order.Perm loops ∧ List.Forall₂ Rearranged order loops' := by
  intro pending
  have htwice : ∀ p ∈ curveEnds pending, touchCount p pending = 2 := by decide +kernel
  have hlengths : (outlines pending).toOption.map (·.map List.length) = some [3, 2, 1] := by
    decide +kernel
  obtain ⟨loops, groups, hok, _, hgroups, hjoined, hrearranged⟩ :=
    outlines_are_components pending (by decide) htwice
  have hturned : Rearranged pending (pending.reverse.map Segment.reversed) := by
    refine ⟨pending.reverse, List.reverse_perm pending, ?_⟩
    rw [List.forall₂_map_right_iff, List.forall₂_same]
    exact fun _ _ => .inr rfl
  obtain ⟨loops', order, hok', hsame, hperm, hrelated⟩ := hrearranged _ hturned
  rw [hok] at hlengths
  have hmap : loops.map List.length = [3, 2, 1] := Option.some.inj hlengths
  have hthree : loops.length = 3 := by simpa using congrArg List.length hmap
  exact ⟨by decide, htwice, loops, groups, loops', order, hok, hmap, hgroups, hjoined, hok',
    hsame.trans hthree, hperm, hrelated⟩

end Components

end RayScene
