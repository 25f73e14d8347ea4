import RayScene.Proofs.Outlines.Chains
set_option autoImplicit false

namespace RayScene

def Segment.unsupportedKind? : Segment → Option String
  | .unsupported kind => some kind
  | _ => none

/-- The first curve without an exact form is reported; if there is none, all that is left out are
points. -/
theorem outlineSegments_eq (segments : List Segment) : outlineSegments segments =
    match segments.findSome? Segment.unsupportedKind? with
    | some kind => .error (.unsupportedGeometry kind)
    | none => .ok (segments.filter Segment.isCurve) := by
  induction segments with
  | nil => rfl
  | cons s segments ih =>
    unfold outlineSegments
    cases s with
    | point => exact ih
    | unsupported kind => rfl
    | _ =>
      dsimp only
      rw [ih, List.findSome?_cons_of_isNone (by rfl), List.filter_cons_of_pos (by rfl)]
      cases segments.findSome? Segment.unsupportedKind? <;> rfl

theorem isCurve_of_mem_filter {segments : List Segment} :
    ∀ s ∈ segments.filter Segment.isCurve, s.isCurve = true := fun _ hs => (List.mem_filter.mp hs).2

namespace Sketch

variable {s : Sketch}

theorem profile_of_unsupported {kind : String}
    (h : s.profileSegments.findSome? Segment.unsupportedKind? = some kind) :
    s.profile = .error (.unsupportedGeometry kind) := by
  unfold profile
  rw [outlineSegments_eq, h]

theorem profile_of_empty (h : s.profileSegments.findSome? Segment.unsupportedKind? = none)
    (hnone : s.profileSegments.filter Segment.isCurve = []) : s.profile = .error .empty := by
  unfold profile
  rw [outlineSegments_eq, h, hnone]

theorem profile_of_curves (h : s.profileSegments.findSome? Segment.unsupportedKind? = none)
    (hsome : s.profileSegments.filter Segment.isCurve ≠ []) :
    s.profile = (outlines (s.profileSegments.filter Segment.isCurve)).map
      fun loops => ⟨loops.flatten.flatMap Segment.cubics⟩ := by
  unfold profile
  rw [outlineSegments_eq, h]
  cases hcurves : s.profileSegments.filter Segment.isCurve with
  | nil => exact absurd hcurves hsome
  | cons t curves => rfl

theorem outlines_of_profile {p : Profile} (h : s.profile = .ok p) :
    ∃ loops, outlines (s.profileSegments.filter Segment.isCurve) = .ok loops ∧
      p.cubics = loops.flatten.flatMap Segment.cubics := by
  cases hkind : s.profileSegments.findSome? Segment.unsupportedKind? with
  | some kind =>
    rw [profile_of_unsupported hkind] at h
    cases h
  | none =>
    by_cases hnone : s.profileSegments.filter Segment.isCurve = []
    · rw [profile_of_empty hkind hnone] at h
      cases h
    · rw [profile_of_curves hkind hnone] at h
      obtain ⟨loops, houtlines, rfl⟩ := exists_eq_ok_of_map h
      exact ⟨loops, houtlines, rfl⟩

end Sketch

theorem cubics_join_of_meets {a b c d : Vec2} (h : Segment.Meets (.line a b) (.line c d)) :
    ∃ q r, Segment.cubics (.line a b) = [q] ∧ Segment.cubics (.line c d) = [r] ∧
      q.points.getLast? = r.points.head? := by
  obtain ⟨_, _, hstop, hstart, hsame⟩ := h
  cases hstop
  cases hstart
  have hround := (samePoint_iff.mp hsame).1
  exact ⟨_, _, rfl, rfl, congrArg some hround.symm⟩

theorem IsOutline.cubics_join {loop : List Segment} (h : IsOutline loop) {a b c d : Vec2}
    (hab : [.line a b, .line c d] <:+: loop) :
    ∃ q r, Segment.cubics (.line a b) = [q] ∧ Segment.cubics (.line c d) = [r] ∧
      q.points.getLast? = r.points.head? := by
  rcases h with ⟨center, radius, rfl⟩ | ⟨start, hloop⟩
  · have hle := hab.length_le
    simp at hle
  · have hpair := List.IsChain.infix hloop.meets hab
    exact cubics_join_of_meets (List.isChain_pair.mp hpair)

/-- Outlines lose no curve, use none twice and invent none, and they are closed: a circle each, or
lines and arcs head to tail up to the first return. The profile of a sketch is their cubics in this
order. -/
theorem outlines_rearrange_and_close :
    (∀ pending loops, (∀ s ∈ pending, s.isCurve = true) → outlines pending = .ok loops →
      Rearranged pending loops.flatten ∧ ∀ loop ∈ loops, IsOutline loop) ∧
    ∀ (sketch : Sketch) (p : Profile), sketch.profile = .ok p →
      ∃ loops, outlines (sketch.profileSegments.filter Segment.isCurve) = .ok loops ∧
        p.cubics = loops.flatten.flatMap Segment.cubics ∧
        ∀ loop ∈ loops, ∀ a b c d, [.line a b, .line c d] <:+: loop →
          ∃ q r, Segment.cubics (.line a b) = [q] ∧ Segment.cubics (.line c d) = [r] ∧
            q.points.getLast? = r.points.head? := by
  refine ⟨fun pending loops hcurves h => outlines_spec hcurves h, ?_⟩
  intro sketch p h
  obtain ⟨loops, houtlines, hcubics⟩ := Sketch.outlines_of_profile h
  obtain ⟨_, hloops⟩ := outlines_spec isCurve_of_mem_filter houtlines
  exact ⟨loops, houtlines, hcubics, fun loop hloop a b c d hab =>
    (hloops loop hloop).cubics_join hab⟩

/-- A triangle with a hole, two of whose lines start at one corner. -/
theorem outlines_of_turned_triangle :
    let pending : List Segment :=
      [.line ⟨0, 0⟩ ⟨4, 0⟩, .circle ⟨2, 1⟩ 0.5, .line ⟨0, 0⟩ ⟨2, 3⟩, .line ⟨4, 0⟩ ⟨2, 3⟩]
    ∃ loops p, outlines pending = .ok loops ∧ loops.map List.length = [3, 1] ∧
      Rearranged pending loops.flatten ∧ (∀ loop ∈ loops, IsOutline loop) ∧
      (Sketch.ofSegments pending).profile = .ok p ∧
      p.cubics = loops.flatten.flatMap Segment.cubics := by
  intro pending
  have hlengths : (outlines pending).toOption.map (·.map List.length) = some [3, 1] := by
    decide +kernel
  cases hok : outlines pending with
  | error e =>
    rw [hok] at hlengths
    cases hlengths
  | ok loops =>
    rw [hok] at hlengths
    have hprofile : (Sketch.ofSegments pending).profile =
        .ok ⟨loops.flatten.flatMap Segment.cubics⟩ := by
      rw [Sketch.profile_of_curves (s := Sketch.ofSegments pending) rfl (List.cons_ne_nil _ _)]
      exact congrArg (Except.map _) hok
    obtain ⟨hloops, hprofiles⟩ := outlines_rearrange_and_close
    obtain ⟨hrearranged, hclosed⟩ := hloops pending loops (by decide) hok
    obtain ⟨loops', hok', hcubics, _⟩ := hprofiles _ _ hprofile
    cases hok.symm.trans hok'
    exact ⟨loops, _, rfl, Option.some.inj hlengths, hrearranged, hclosed, hprofile, hcubics⟩

end RayScene
