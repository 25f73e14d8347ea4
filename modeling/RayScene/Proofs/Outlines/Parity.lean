import RayScene.Proofs.Outlines.Profiles
set_option autoImplicit false

namespace RayScene

def Segment.ends (s : Segment) : List Vec2 := s.start?.toList ++ s.stop?.toList

def curveEnds (segments : List Segment) : List Vec2 := segments.flatMap Segment.ends

/-- How many ends of curves are at a point. A curve with both ends there counts twice. -/
def touchCount (p : Vec2) (segments : List Segment) : Nat :=
  (curveEnds segments).countP (samePoint · p)

section Counting

variable {s t : Segment} {segments result taken run : List Segment} {p a b : Vec2}

theorem curveEnds_cons (s : Segment) (segments : List Segment) :
    curveEnds (s :: segments) = s.ends ++ curveEnds segments := List.flatMap_cons

theorem touchCount_append (p : Vec2) (segments more : List Segment) :
    touchCount p (segments ++ more) = touchCount p segments + touchCount p more := by
  unfold touchCount curveEnds
  rw [List.flatMap_append, List.countP_append]

theorem touchCount_cons (p : Vec2) (s : Segment) (segments : List Segment) :
    touchCount p (s :: segments) = touchCount p [s] + touchCount p segments :=
  touchCount_append p [s] segments

theorem touchCount_curve (ha : s.start? = some a) (hb : s.stop? = some b) (p : Vec2) :
    touchCount p [s] = (samePoint a p).toNat + (samePoint b p).toNat := by
  unfold touchCount
  rw [curveEnds_cons, Segment.ends, ha, hb]
  cases hap : samePoint a p <;> cases hbp : samePoint b p <;> simp [curveEnds, hap, hbp]

theorem mem_ends_of_stop? (hb : s.stop? = some b) : b ∈ s.ends := by simp [Segment.ends, hb]

theorem Segment.Turned.ends_perm (h : Segment.Turned s t) : s.ends.Perm t.ends := by
  rcases h with rfl | rfl
  · exact .refl _
  · unfold Segment.ends
    rw [Segment.start?_reversed, Segment.stop?_reversed]
    exact List.perm_append_comm

theorem curveEnds_perm_of_turned (h : List.Forall₂ Segment.Turned taken run) :
    (curveEnds taken).Perm (curveEnds run) := by
  induction h with
  | nil => exact .refl _
  | cons hst _ ih =>
    rw [curveEnds_cons, curveEnds_cons]
    exact hst.ends_perm.append ih

theorem touchCount_of_turned (h : List.Forall₂ Segment.Turned taken run) (p : Vec2) :
    touchCount p taken = touchCount p run := (curveEnds_perm_of_turned h).countP_eq _

theorem touchCount_of_perm (h : segments.Perm result) (p : Vec2) :
    touchCount p segments = touchCount p result := (h.flatMap_right Segment.ends).countP_eq _

theorem Rearranged.curveEnds_perm (h : Rearranged segments result) :
    (curveEnds segments).Perm (curveEnds result) := by
  obtain ⟨order, horder, hturned⟩ := h
  exact (horder.symm.flatMap_right Segment.ends).trans (curveEnds_perm_of_turned hturned)

theorem curveEnds_filter_isCurve (segments : List Segment) :
    curveEnds (segments.filter Segment.isCurve) = curveEnds segments := by
  induction segments with
  | nil => rfl
  | cons s segments ih =>
    rw [curveEnds_cons, ← ih, ← List.singleton_append, List.filter_append, curveEnds,
      List.flatMap_append]
    cases s <;> rfl

end Counting

section Trails

variable {start current last p : Vec2} {s : Segment} {run taken left rest pending : List Segment}
  {a b : Vec2}

/-- A trail touches every point an even number of times, if where it begins and where it stops are
counted once more. -/
theorem Trail.even_touchCount (h : Trail start current run last) (p : Vec2) :
    Even (touchCount p run + (samePoint current p).toNat + (samePoint last p).toNat) := by
  induction h with
  | stay => exact ⟨_, by rw [show touchCount p [] = 0 from rfl, Nat.zero_add]⟩
  | next _ ha hb hmeet _ ih =>
    rw [touchCount_cons, touchCount_curve ha hb, samePoint_congr hmeet]
    rw [Nat.even_iff] at ih ⊢
    omega

theorem Trail.even_of_closed (h : Trail a b run last) (ha : s.start? = some a)
    (hb : s.stop? = some b) (hlast : samePoint a last = true) (p : Vec2) :
    Even (touchCount p (s :: run)) := by
  have htrail := h.even_touchCount p
  rw [touchCount_cons, touchCount_curve ha hb, samePoint_congr hlast]
  rw [Nat.even_iff] at htrail ⊢
  omega

theorem Trail.odd_of_open (h : Trail a b run last) (ha : s.start? = some a)
    (hb : s.stop? = some b) (hlast : samePoint a last = false)
    (hself : samePoint last last = true) :
    Odd (touchCount last (s :: run)) := by
  have htrail := h.even_touchCount last
  rw [touchCount_cons, touchCount_curve ha hb, hlast]
  rw [hself] at htrail
  rw [Nat.odd_iff]
  rw [Nat.even_iff] at htrail
  simp only [Bool.toNat_false, Bool.toNat_true] at htrail ⊢
  omega

theorem touchCount_eq_zero (h : ∀ s ∈ left, (s.startsAt p || s.stopsAt p) = false) :
    touchCount p left = 0 := by
  unfold touchCount curveEnds
  rw [List.countP_eq_zero]
  intro q hq
  obtain ⟨s, hs, hqs⟩ := List.mem_flatMap.mp hq
  have hfree := h s hs
  rw [Bool.or_eq_false_iff] at hfree
  rw [Segment.ends, List.mem_append, Option.mem_toList, Option.mem_toList] at hqs
  rcases hqs with hstart | hstop
  · rw [Segment.startsAt_of_start? hstart] at hfree
    simp [hfree.1]
  · rw [Segment.stopsAt_of_stop? hstop] at hfree
    simp [hfree.2]

theorem touchCount_chain (hperm : (taken ++ left).Perm rest)
    (hturned : List.Forall₂ Segment.Turned taken run) (s : Segment) (p : Vec2) :
    touchCount p (s :: rest) = touchCount p (s :: run) + touchCount p left := by
  rw [touchCount_cons, touchCount_cons p s run, ← touchCount_of_perm hperm, touchCount_append,
    touchCount_of_turned hturned, Nat.add_assoc]

theorem Trail.last_mem_curveEnds (h : Trail a b run last) (hb : s.stop? = some b)
    (hperm : (taken ++ left).Perm rest) (hturned : List.Forall₂ Segment.Turned taken run) :
    last ∈ curveEnds (s :: rest) := by
  obtain ⟨t, ht, hstop⟩ := h.last hb
  have hrun : last ∈ curveEnds (s :: run) :=
    List.mem_flatMap.mpr ⟨t, List.mem_of_getLast? ht, mem_ends_of_stop? hstop⟩
  have hall : (curveEnds (s :: (taken ++ left))).Perm (curveEnds (s :: rest)) :=
    (hperm.cons s).flatMap_right Segment.ends
  apply hall.subset
  rw [curveEnds_cons, List.mem_append] at hrun ⊢
  refine hrun.imp_right fun hmem => ?_
  have htaken := (curveEnds_perm_of_turned hturned).symm.subset hmem
  rw [curveEnds, List.flatMap_append]
  exact List.mem_append_left _ htaken

/-- A result that the parities decide. Outlines are found where every point is touched an even
number of times; otherwise a point that is touched an odd number of times is reported. -/
def ParityDecides (pending : List Segment) (result : Except ProfileError (List (List Segment))) :
    Prop :=
  (result.isOk = true ∧ ∀ p, Even (touchCount p pending)) ∨
    ∃ p ∈ curveEnds pending, result = .error (.openLoop p.rounded) ∧
      (samePoint p p = true → Odd (touchCount p pending))

theorem ParityDecides.cons {result : Except ProfileError (List (List Segment))}
    (h : ParityDecides left result) {loop : List Segment} (hloop : ∀ p, Even (touchCount p loop))
    (hcount : ∀ p, touchCount p pending = touchCount p loop + touchCount p left)
    (hsubset : curveEnds left ⊆ curveEnds pending) (outline : List Segment) :
    ParityDecides pending (result.map (outline :: ·)) := by
  obtain ⟨hok, hleft⟩ | ⟨p, hp, rfl, hodd⟩ := h
  · refine .inl ⟨(isOk_map ..).trans hok, fun p => ?_⟩
    rw [hcount]
    exact (hloop p).add (hleft p)
  · refine .inr ⟨p, hsubset hp, rfl, fun hself => ?_⟩
    rw [hcount]
    exact (hloop p).add_odd (hodd hself)

theorem curveEnds_left_subset (hperm : (taken ++ left).Perm rest) (s : Segment) :
    curveEnds left ⊆ curveEnds (s :: rest) := by
  intro p hp
  rw [curveEnds_cons]
  apply List.mem_append_right
  apply (hperm.flatMap_right Segment.ends).subset
  rw [List.flatMap_append]
  exact List.mem_append_right _ hp

theorem ends_eq_nil (h : ∀ a b, s.start? = some a → s.stop? = some b → False) : s.ends = [] := by
  cases s with
  | line a b => exact absurd rfl (h a b rfl)
  | arc a => exact absurd rfl (h _ _ rfl)
  | _ => rfl

theorem parityDecides_outlines (pending : List Segment) :
    ParityDecides pending (outlines pending) := by
  fun_induction outlines pending with
  | case1 => exact .inl ⟨rfl, fun _ => ⟨0, rfl⟩⟩
  | case2 s rest a b hb ha e herror =>
    obtain ⟨run, taken, left, last, hperm, hturned, htrail, hlast, hleft, rfl⟩ :=
      closeChain_error herror
    refine .inr ⟨last, htrail.last_mem_curveEnds hb hperm hturned, rfl, fun hself => ?_⟩
    -- Nothing that is left touches the end of the open chain, so its parity is that of the chain.
    rw [touchCount_chain hperm hturned, touchCount_eq_zero hleft]
    exact htrail.odd_of_open ha hb hlast hself
  | case3 s rest a b hb ha run left hok ih =>
    obtain ⟨taken, last, hperm, hturned, htrail, hlast⟩ := closeChain_ok hok
    exact ih.cons (htrail.even_of_closed ha hb hlast) (touchCount_chain hperm hturned s)
      (curveEnds_left_subset hperm s) _
  | case4 s rest hclosed ih =>
    have hends : ∀ p, touchCount p [s] = 0 := fun p => by
      rw [touchCount, curveEnds_cons, ends_eq_nil hclosed]
      rfl
    have hrest : ([] ++ rest).Perm rest := .refl rest
    exact ih.cons (fun p => ⟨0, hends p⟩) (touchCount_cons · s rest)
      (curveEnds_left_subset hrest s) _

end Trails

section Sketches

variable {s s' : Sketch} {segments result : List Segment}

/-- Being the same point is an equivalence among the ends of curves exactly when all their
coordinates are numbers. -/
theorem equivalence_samePoint_iff (segments : List Segment) :
    (Equivalence fun p q : { p // p ∈ curveEnds segments } => samePoint p.1 q.1 = true) ↔
      ∀ p ∈ curveEnds segments, p.IsPlace := by
  constructor
  · exact fun h p hp => samePoint_self_iff.mp (h.refl ⟨p, hp⟩)
  · exact fun h => ⟨fun p => samePoint_self_iff.mpr (h p.1 p.2), samePoint_symm, samePoint_trans⟩

theorem Rearranged.forall_iff {P : Segment → Prop} (hP : ∀ s, P s.reversed ↔ P s)
    (h : Rearranged segments result) : (∀ s ∈ result, P s) ↔ ∀ s ∈ segments, P s := by
  obtain ⟨order, hperm, hturned⟩ := h
  have horder : (∀ s ∈ result, P s) ↔ ∀ s ∈ order, P s := by
    induction hturned generalizing segments with
    | nil => rfl
    | @cons s t order result hst _ ih =>
      rw [List.forall_mem_cons, List.forall_mem_cons, ih (.refl order)]
      rcases hst with rfl | rfl
      · rfl
      · rw [hP]
  rw [horder]
  exact forall_congr' fun s => by rw [hperm.mem_iff]

theorem not_isCurve_iff :
    (¬∀ t ∈ segments, t.isCurve = false) ↔ ∃ t ∈ segments, t.isCurve = true := by
  simp

namespace Sketch

theorem profileSegments_ofSegments (segments : List Segment) :
    (ofSegments segments).profileSegments = segments := by
  simp [ofSegments, profileSegments, List.filter_map, Function.comp_def]

theorem profile_parity (hkind : s.profileSegments.findSome? Segment.unsupportedKind? = none)
    (hcurve : ∃ t ∈ s.profileSegments, t.isCurve = true) :
    (s.profile.isOk = true ∧ ∀ p, Even (touchCount p s.profileSegments)) ∨
      ∃ p ∈ curveEnds s.profileSegments, s.profile = .error (.openLoop p.rounded) ∧
        (samePoint p p = true → Odd (touchCount p s.profileSegments)) := by
  obtain ⟨t, ht, hcurve⟩ := hcurve
  have hprofile := profile_of_curves hkind (List.ne_nil_of_mem (List.mem_filter.mpr ⟨ht, hcurve⟩))
  have hcounts : ∀ p, touchCount p (s.profileSegments.filter Segment.isCurve) =
      touchCount p s.profileSegments := fun p => by
    rw [touchCount, curveEnds_filter_isCurve, touchCount]
  obtain ⟨hok, heven⟩ | ⟨p, hp, herror, hodd⟩ :=
    parityDecides_outlines (s.profileSegments.filter Segment.isCurve)
  · refine .inl ⟨?_, fun p => hcounts p ▸ heven p⟩
    rw [hprofile, isOk_map]
    exact hok
  · rw [curveEnds_filter_isCurve] at hp
    refine .inr ⟨p, hp, ?_, fun hself => hcounts p ▸ hodd hself⟩
    rw [hprofile, herror]
    rfl

theorem profile_of_no_curve (hkind : s.profileSegments.findSome? Segment.unsupportedKind? = none)
    (hnone : ∀ t ∈ s.profileSegments, t.isCurve = false) : s.profile = .error .empty :=
  profile_of_empty hkind (List.filter_eq_nil_iff.mpr fun t ht => by simp [hnone t ht])

theorem profile_eq_unsupported_iff {kind : String} :
    s.profile = .error (.unsupportedGeometry kind) ↔
      s.profileSegments.findSome? Segment.unsupportedKind? = some kind := by
  refine ⟨fun h => ?_, profile_of_unsupported⟩
  cases hkind : s.profileSegments.findSome? Segment.unsupportedKind? with
  | some other =>
    rw [profile_of_unsupported hkind] at h
    cases h
    rfl
  | none =>
    by_cases hnone : ∀ t ∈ s.profileSegments, t.isCurve = false
    · rw [profile_of_no_curve hkind hnone] at h
      cases h
    · obtain ⟨hok, _⟩ | ⟨p, _, hopen, _⟩ := profile_parity hkind (not_isCurve_iff.mp hnone)
      · rw [h] at hok
        cases hok
      · cases hopen.symm.trans h

theorem profile_eq_empty_iff (hkind : s.profileSegments.findSome? Segment.unsupportedKind? = none) :
    s.profile = .error .empty ↔ ∀ t ∈ s.profileSegments, t.isCurve = false := by
  refine ⟨fun h => ?_, profile_of_no_curve hkind⟩
  by_contra hnone
  obtain ⟨hok, _⟩ | ⟨p, _, hopen, _⟩ := profile_parity hkind (not_isCurve_iff.mp hnone)
  · rw [h] at hok
    cases hok
  · cases hopen.symm.trans h

/-- A sketch has a profile when all its curves are supported, there are some, and every point is
touched an even number of times. -/
theorem profile_isOk_iff (hplaces : ∀ p ∈ curveEnds s.profileSegments, p.IsPlace) :
    s.profile.isOk = true ↔ (∀ t ∈ s.profileSegments, t.unsupportedKind? = none) ∧
      (¬∀ t ∈ s.profileSegments, t.isCurve = false) ∧
        ∀ p ∈ curveEnds s.profileSegments, Even (touchCount p s.profileSegments) := by
  rw [← List.findSome?_eq_none_iff]
  cases hkind : s.profileSegments.findSome? Segment.unsupportedKind? with
  | some kind =>
    rw [profile_of_unsupported hkind]
    exact ⟨nofun, fun h => absurd h.1 nofun⟩
  | none =>
    by_cases hnone : ∀ t ∈ s.profileSegments, t.isCurve = false
    · rw [profile_of_no_curve hkind hnone]
      exact ⟨nofun, fun h => absurd hnone h.2.1⟩
    · obtain ⟨hok, heven⟩ | ⟨p, hp, herror, hodd⟩ :=
        profile_parity hkind (not_isCurve_iff.mp hnone)
      · exact ⟨fun _ => ⟨rfl, hnone, fun p _ => heven p⟩, fun _ => hok⟩
      · rw [herror]
        have hp' := hodd (samePoint_self_iff.mpr (hplaces p hp))
        exact ⟨nofun, fun h => absurd (h.2.2 p hp) (Nat.not_even_iff_odd.mpr hp')⟩

theorem profile_isOk_of_rearranged (hplaces : ∀ p ∈ curveEnds s.profileSegments, p.IsPlace)
    (h : Rearranged s.profileSegments s'.profileSegments) :
    s'.profile.isOk = true ↔ s.profile.isOk = true := by
  have hends := h.curveEnds_perm
  have hcount : ∀ p, touchCount p s'.profileSegments = touchCount p s.profileSegments :=
    fun p => (hends.countP_eq _).symm
  have hplaces' : ∀ p ∈ curveEnds s'.profileSegments, p.IsPlace :=
    fun p hp => hplaces p (hends.symm.subset hp)
  rw [profile_isOk_iff hplaces, profile_isOk_iff hplaces',
    h.forall_iff (P := (·.unsupportedKind? = none)) fun s => by cases s <;> rfl,
    h.forall_iff (P := (·.isCurve = false)) fun s => by rw [Segment.isCurve_reversed]]
  simp only [hends.mem_iff, hcount]

end Sketch

/-- A sketch on whose ends being the same point is an equivalence relation. Its first unsupported
curve is reported; without one it is empty when it has no curve; and with curves it has a profile
exactly when each point is touched an even number of times, while otherwise a point touched an odd
number of times is reported. No order or direction of the curves matters to whether there is a
profile. -/
theorem profile_isOk_iff_even (s : Sketch)
    (h : Equivalence fun p q : { p // p ∈ curveEnds s.profileSegments } =>
      samePoint p.1 q.1 = true) :
    (∀ kind, s.profile = .error (.unsupportedGeometry kind) ↔
      s.profileSegments.findSome? Segment.unsupportedKind? = some kind) ∧
    (s.profileSegments.findSome? Segment.unsupportedKind? = none →
      (s.profile = .error .empty ↔ ∀ t ∈ s.profileSegments, t.isCurve = false) ∧
      ((∃ t ∈ s.profileSegments, t.isCurve = true) →
        (s.profile.isOk = true ↔
          ∀ p ∈ curveEnds s.profileSegments, Even (touchCount p s.profileSegments)) ∧
        (s.profile.isOk = false → ∃ p ∈ curveEnds s.profileSegments,
          Odd (touchCount p s.profileSegments) ∧ s.profile = .error (.openLoop p.rounded)))) ∧
    ∀ s' : Sketch, Rearranged s.profileSegments s'.profileSegments →
      (s'.profile.isOk = true ↔ s.profile.isOk = true) := by
  have hplaces := (equivalence_samePoint_iff s.profileSegments).mp h
  refine ⟨fun kind => Sketch.profile_eq_unsupported_iff,
    fun hkind => ⟨Sketch.profile_eq_empty_iff hkind, fun hcurve => ⟨?_, ?_⟩⟩,
    fun s' => Sketch.profile_isOk_of_rearranged hplaces⟩
  · rw [Sketch.profile_isOk_iff hplaces, ← List.findSome?_eq_none_iff, not_isCurve_iff]
    exact ⟨fun hok => hok.2.2, fun heven => ⟨hkind, hcurve, heven⟩⟩
  · intro herror
    obtain ⟨hok, _⟩ | ⟨p, hp, hopen, hodd⟩ := Sketch.profile_parity hkind hcurve
    · rw [hok] at herror
      cases herror
    · exact ⟨p, hp, hodd (samePoint_self_iff.mpr (hplaces p hp)), hopen⟩

/-- Two triangles with a common corner have a profile, also when they are listed from the end and
each line the other way round. -/
theorem profile_of_touching_triangles :
    let lines : List Segment := [.line ⟨0, 0⟩ ⟨2, 0⟩, .line ⟨0, 0⟩ ⟨-2, 0⟩, .line ⟨2, 0⟩ ⟨1, 2⟩,
      .line ⟨-1, 2⟩ ⟨-2, 0⟩, .line ⟨1, 2⟩ ⟨0, 0⟩, .line ⟨0, 0⟩ ⟨-1, 2⟩]
    (Equivalence fun p q : { p // p ∈ curveEnds lines } => samePoint p.1 q.1 = true) ∧
      touchCount ⟨0, 0⟩ lines = 4 ∧ (Sketch.ofSegments lines).profile.isOk = true ∧
      (Sketch.ofSegments (lines.reverse.map Segment.reversed)).profile.isOk = true := by
  intro lines
  have hself : ∀ p ∈ curveEnds lines, samePoint p p = true := by decide +kernel
  have heven : ∀ p ∈ curveEnds lines, Even (touchCount p lines) := by decide +kernel
  have h : Equivalence fun p q : { p // p ∈ curveEnds lines } => samePoint p.1 q.1 = true :=
    (equivalence_samePoint_iff lines).mpr fun p hp => samePoint_self_iff.mp (hself p hp)
  obtain ⟨_, hcurves, hrearranged⟩ := profile_isOk_iff_even (Sketch.ofSegments lines) h
  obtain ⟨hclosed, _⟩ := (hcurves rfl).2 ⟨_, List.mem_cons_self, rfl⟩
  have hok := hclosed.mpr heven
  refine ⟨h, by decide +kernel, hok, (hrearranged _ ?_).mpr hok⟩
  rw [Sketch.profileSegments_ofSegments, Sketch.profileSegments_ofSegments]
  refine ⟨lines.reverse, List.reverse_perm lines, ?_⟩
  rw [List.forall₂_map_right_iff, List.forall₂_same]
  exact fun _ _ => .inr rfl

end Sketches

end RayScene
