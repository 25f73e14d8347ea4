import RayScene.Proofs.Outlines.Resolution
import RayScene.Sketch.Profile
/-!
Chains of curves. Every curve is used once, each one starts where the one before it stops, and an
outline ends at the first return to the point where it began.
-/
set_option autoImplicit false

namespace RayScene

namespace Segment

def isCurve : Segment → Bool
  | .line .. => true
  | .circle .. => true
  | .arc _ => true
  | _ => false

def isOpen : Segment → Bool
  | .line .. => true
  | .arc _ => true
  | _ => false

def Turned (s t : Segment) : Prop := t = s ∨ t = s.reversed

@[simp] theorem start?_reversed (s : Segment) : s.reversed.start? = s.stop? := by cases s <;> rfl

@[simp] theorem stop?_reversed (s : Segment) : s.reversed.stop? = s.start? := by cases s <;> rfl

@[simp] theorem isCurve_reversed (s : Segment) : s.reversed.isCurve = s.isCurve := by
  cases s <;> rfl

theorem ends_of_isOpen {s : Segment} (h : s.isOpen = true) :
    ∃ a b, s.start? = some a ∧ s.stop? = some b := by
  cases s with
  | line a b => exact ⟨a, b, rfl, rfl⟩
  | arc a => exact ⟨_, _, rfl, rfl⟩
  | _ => cases h

theorem isOpen_of_start? {s : Segment} {a : Vec2} (h : s.start? = some a) : s.isOpen = true := by
  cases s with
  | line => rfl
  | arc => rfl
  | _ => cases h

theorem startsAt_of_start? {s : Segment} {a : Vec2} (h : s.start? = some a) (p : Vec2) :
    s.startsAt p = samePoint a p := by simp [startsAt, h]

theorem stopsAt_of_stop? {s : Segment} {b : Vec2} (h : s.stop? = some b) (p : Vec2) :
    s.stopsAt p = samePoint b p := by simp [stopsAt, h]

theorem turned_leaving (s : Segment) (p : Vec2) : Turned s (s.leaving p) := by
  unfold leaving
  split
  · exact .inr rfl
  · exact .inl rfl

theorem leaving_spec {s : Segment} {p : Vec2} (h : (s.startsAt p || s.stopsAt p) = true) :
    ∃ a b, (s.leaving p).start? = some a ∧ (s.leaving p).stop? = some b ∧
      samePoint a p = true := by
  have hopen : s.isOpen = true := by
    cases s with
    | line => rfl
    | arc => rfl
    | _ => cases h
  obtain ⟨a, b, ha, hb⟩ := ends_of_isOpen hopen
  unfold leaving
  cases hstop : s.stopsAt p with
  | true =>
    refine ⟨b, a, by simp [hb], by simp [ha], ?_⟩
    rwa [stopsAt_of_stop? hb] at hstop
  | false =>
    refine ⟨a, b, by simp [ha], by simp [hb], ?_⟩
    rwa [hstop, Bool.or_false, startsAt_of_start? ha] at h

end Segment

theorem exists_eq_ok_of_map {ε α β : Type} {x : Except ε α} {g : α → β} {b : β}
    (h : x.map g = .ok b) : ∃ a, x = .ok a ∧ g a = b := by
  cases x with
  | error e => cases h
  | ok a => exact ⟨a, rfl, Except.ok.inj h⟩

theorem isOk_map {ε α β : Type} (x : Except ε α) (g : α → β) : (x.map g).isOk = x.isOk := by
  cases x <;> rfl

theorem extractFirst_eq_some {α : Type} {p : α → Bool} {as bs : List α} {b : α}
    (h : extractFirst p as = some (b, bs)) :
    ∃ before after, as = before ++ b :: after ∧ bs = before ++ after ∧ p b = true ∧
      ∀ a ∈ before, p a = false := by
  induction as generalizing bs with
  | nil => cases h
  | cons a as ih =>
    unfold extractFirst at h
    cases ha : p a with
    | true =>
      rw [ha, if_pos rfl] at h
      cases h
      exact ⟨[], as, rfl, rfl, ha, List.forall_mem_nil _⟩
    | false =>
      rw [ha, if_neg Bool.false_ne_true, Option.map_eq_some_iff] at h
      obtain ⟨⟨c, cs⟩, hc, he⟩ := h
      cases he
      obtain ⟨before, after, rfl, rfl, hb, hbefore⟩ := ih hc
      exact ⟨a :: before, after, rfl, rfl, hb, List.forall_mem_cons.mpr ⟨ha, hbefore⟩⟩

theorem extractFirst_perm {α : Type} {p : α → Bool} {as bs : List α} {b : α}
    (h : extractFirst p as = some (b, bs)) : (b :: bs).Perm as := by
  obtain ⟨before, after, rfl, rfl, _⟩ := extractFirst_eq_some h
  exact List.perm_middle.symm

theorem extractFirst_eq_none {α : Type} {p : α → Bool} {as : List α}
    (h : extractFirst p as = none) : ∀ a ∈ as, p a = false := by
  induction as with
  | nil => exact List.forall_mem_nil _
  | cons a as ih =>
    unfold extractFirst at h
    cases ha : p a with
    | true => simp [ha] at h
    | false =>
      rw [ha, if_neg Bool.false_ne_true, Option.map_eq_none_iff] at h
      exact List.forall_mem_cons.mpr ⟨ha, ih h⟩

/-- The same curves in any order and in any direction. -/
def Rearranged (segments result : List Segment) : Prop :=
  ∃ order, order.Perm segments ∧ List.Forall₂ Segment.Turned order result

/-- Curves that lead from one point to another, each from where the one before it stops. No earlier
stop is the point where the outline began. -/
inductive Trail (start : Vec2) : Vec2 → List Segment → Vec2 → Prop
  | stay {current : Vec2} : Trail start current [] current
  | next {current a b last : Vec2} {s : Segment} {run : List Segment} :
      samePoint start current = false → s.start? = some a → s.stop? = some b →
      samePoint a current = true → Trail start b run last → Trail start current (s :: run) last

/-- What comes of a chain that takes some of the curves. It ends where the outline began, or at a
point that none of the curves left touches. -/
def Chained (start current : Vec2) (pending : List Segment)
    (result : Except ProfileError (List Segment × List Segment)) : Prop :=
  ∃ run taken left last, (taken ++ left).Perm pending ∧ List.Forall₂ Segment.Turned taken run ∧
    Trail start current run last ∧
    ((samePoint start last = true ∧ result = .ok (run, left)) ∨
      samePoint start last = false ∧ (∀ s ∈ left, (s.startsAt last || s.stopsAt last) = false) ∧
        result = .error (.openLoop last.rounded))

theorem Chained.next {start current : Vec2} {s : Segment} {rest pending : List Segment}
    {result : Except ProfileError (List Segment × List Segment)}
    (h : Chained start ((s.leaving current).stop?.getD current) rest result)
    (hopen : samePoint start current = false)
    (hsome : extractFirst (fun s => s.startsAt current || s.stopsAt current) pending =
      some (s, rest)) :
    Chained start current pending
      (result.map fun (run, left) => (s.leaving current :: run, left)) := by
  obtain ⟨_, _, _, _, htouch, _⟩ := extractFirst_eq_some hsome
  obtain ⟨a, b, ha, hb, hmeet⟩ := Segment.leaving_spec htouch
  rw [hb, Option.getD_some] at h
  obtain ⟨run, taken, left, last, hrest, hrun, htrail, hresult⟩ := h
  refine ⟨s.leaving current :: run, s :: taken, left, last,
    (hrest.cons s).trans (extractFirst_perm hsome), .cons (s.turned_leaving current) hrun,
    .next hopen ha hb hmeet htrail, ?_⟩
  rcases hresult with ⟨hlast, rfl⟩ | ⟨hlast, hleft, rfl⟩
  · exact .inl ⟨hlast, rfl⟩
  · exact .inr ⟨hlast, hleft, rfl⟩

theorem chained_closeChain (start current : Vec2) (pending : List Segment) :
    Chained start current pending (closeChain start current pending) := by
  fun_induction closeChain start current pending with
  | case1 current pending hclosed =>
    exact ⟨[], [], pending, current, .refl _, .nil, .stay, .inl ⟨hclosed, rfl⟩⟩
  | case2 current pending hopen hnone =>
    exact ⟨[], [], pending, current, .refl _, .nil, .stay,
      .inr ⟨Bool.eq_false_iff.mpr hopen, extractFirst_eq_none hnone, rfl⟩⟩
  | case3 current pending hopen s rest hsome t e herror ih =>
    rw [herror] at ih
    exact ih.next (Bool.eq_false_iff.mpr hopen) hsome
  | case4 current pending hopen s rest hsome t run left hok ih =>
    rw [hok] at ih
    exact ih.next (Bool.eq_false_iff.mpr hopen) hsome

theorem closeChain_ok {start current : Vec2} {pending run left : List Segment}
    (h : closeChain start current pending = .ok (run, left)) :
    ∃ taken last, (taken ++ left).Perm pending ∧ List.Forall₂ Segment.Turned taken run ∧
      Trail start current run last ∧ samePoint start last = true := by
  obtain ⟨_, taken, _, last, hperm, hturned, htrail, hcase⟩ :=
    chained_closeChain start current pending
  rw [h] at hcase
  obtain ⟨hlast, heq⟩ | ⟨_, _, heq⟩ := hcase
  · cases heq
    exact ⟨taken, last, hperm, hturned, htrail, hlast⟩
  · cases heq

theorem closeChain_error {start current : Vec2} {pending : List Segment} {e : ProfileError}
    (h : closeChain start current pending = .error e) :
    ∃ run taken left last, (taken ++ left).Perm pending ∧
      List.Forall₂ Segment.Turned taken run ∧ Trail start current run last ∧
      samePoint start last = false ∧ (∀ s ∈ left, (s.startsAt last || s.stopsAt last) = false) ∧
      e = .openLoop last.rounded := by
  obtain ⟨run, taken, left, last, hperm, hturned, htrail, hcase⟩ :=
    chained_closeChain start current pending
  rw [h] at hcase
  obtain ⟨_, heq⟩ | ⟨hlast, hleft, heq⟩ := hcase
  · cases heq
  · exact ⟨run, taken, left, last, hperm, hturned, htrail, hlast, hleft, Except.error.inj heq⟩

def Segment.Meets (s t : Segment) : Prop :=
  ∃ a b, s.stop? = some b ∧ t.start? = some a ∧ samePoint a b = true

structure LoopFrom (start : Vec2) (loop : List Segment) : Prop where
  starts : ∃ s ∈ loop.head?, s.start? = some start
  isOpen : ∀ s ∈ loop, s.isOpen = true
  meets : loop.IsChain Segment.Meets
  closes : ∃ s ∈ loop.getLast?, ∃ b, s.stop? = some b ∧ samePoint start b = true
  firstReturn : ∀ s ∈ loop.dropLast, ∀ b, s.stop? = some b → samePoint start b = false

/-- One circle, or lines and arcs that close. -/
def IsOutline (loop : List Segment) : Prop :=
  (∃ center radius, loop = [.circle center radius]) ∨ ∃ start, LoopFrom start loop

theorem Trail.isOpen {start current last : Vec2} {run : List Segment}
    (h : Trail start current run last) : ∀ s ∈ run, s.isOpen = true := by
  induction h with
  | stay => nofun
  | next _ ha _ _ _ ih => exact List.forall_mem_cons.mpr ⟨Segment.isOpen_of_start? ha, ih⟩

theorem Trail.meets {start current last : Vec2} {run : List Segment} {s : Segment}
    (h : Trail start current run last) (hs : s.stop? = some current) :
    (s :: run).IsChain Segment.Meets := by
  induction h generalizing s with
  | stay => exact .singleton s
  | next _ ha hb hmeet _ ih => exact .cons_cons ⟨_, _, hs, ha, hmeet⟩ (ih hb)

theorem Trail.last {start current last : Vec2} {run : List Segment} {s : Segment}
    (h : Trail start current run last) (hs : s.stop? = some current) :
    ∃ t ∈ (s :: run).getLast?, t.stop? = some last := by
  induction h generalizing s with
  | stay => exact ⟨s, rfl, hs⟩
  | next _ _ hb _ _ ih =>
    rw [List.getLast?_cons_cons]
    exact ih hb

theorem Trail.firstReturn {start current last : Vec2} {run : List Segment} {s : Segment}
    (h : Trail start current run last) (hs : s.stop? = some current) :
    ∀ t ∈ (s :: run).dropLast, ∀ b, t.stop? = some b → samePoint start b = false := by
  induction h generalizing s with
  | stay => nofun
  | next hopen _ hb _ _ ih =>
    rw [List.dropLast_cons_cons, List.forall_mem_cons]
    refine ⟨fun b hsb => ?_, ih hb⟩
    cases hs.symm.trans hsb
    exact hopen

theorem Trail.loopFrom {a b last : Vec2} {s : Segment} {run : List Segment}
    (h : Trail a b run last) (ha : s.start? = some a) (hb : s.stop? = some b)
    (hlast : samePoint a last = true) : LoopFrom a (s :: run) where
  starts := ⟨s, rfl, ha⟩
  isOpen := List.forall_mem_cons.mpr ⟨Segment.isOpen_of_start? ha, h.isOpen⟩
  meets := h.meets hb
  closes := by
    obtain ⟨t, ht, hstop⟩ := h.last hb
    exact ⟨t, ht, last, hstop, hlast⟩
  firstReturn := h.firstReturn hb

theorem Rearranged.cons {s : Segment} {segments result : List Segment}
    (h : Rearranged segments result) : Rearranged (s :: segments) (s :: result) := by
  obtain ⟨order, hperm, hturned⟩ := h
  exact ⟨s :: order, hperm.cons s, .cons (.inl rfl) hturned⟩

/-- Outlines of curves use every curve once and close. -/
theorem outlines_spec {pending : List Segment} {loops : List (List Segment)}
    (hcurves : ∀ s ∈ pending, s.isCurve = true) (h : outlines pending = .ok loops) :
    Rearranged pending loops.flatten ∧ ∀ loop ∈ loops, IsOutline loop := by
  fun_induction outlines pending generalizing loops with
  | case1 =>
    cases h
    exact ⟨⟨[], .refl _, .nil⟩, nofun⟩
  | case2 => cases h
  | case3 s rest a b hb ha run left hok ih =>
    obtain ⟨_, hrest⟩ := List.forall_mem_cons.mp hcurves
    obtain ⟨more, houtlines, rfl⟩ := exists_eq_ok_of_map h
    obtain ⟨taken, last, hperm, hturned, htrail, hlast⟩ := closeChain_ok hok
    have hleft : ∀ t ∈ left, t.isCurve = true := fun t ht =>
      hrest t (hperm.subset (List.mem_append_right taken ht))
    obtain ⟨⟨order, horder, hmore⟩, hloops⟩ := ih hleft houtlines
    refine ⟨⟨s :: (taken ++ order), ?_, ?_⟩, ?_⟩
    · exact ((horder.append_left taken).trans hperm).cons s
    · exact .cons (.inl rfl) (List.rel_append hturned hmore)
    · exact List.forall_mem_cons.mpr ⟨.inr ⟨a, htrail.loopFrom ha hb hlast⟩, hloops⟩
  | case4 s rest hclosed ih =>
    obtain ⟨hs, hrest⟩ := List.forall_mem_cons.mp hcurves
    obtain ⟨more, houtlines, rfl⟩ := exists_eq_ok_of_map h
    obtain ⟨hmore, hloops⟩ := ih hrest houtlines
    refine ⟨hmore.cons, List.forall_mem_cons.mpr ⟨.inl ?_, hloops⟩⟩
    cases s with
    | circle center radius => exact ⟨center, radius, rfl⟩
    | line a b => exact absurd rfl (hclosed a b rfl)
    | arc a => exact absurd rfl (hclosed _ _ rfl)
    | _ => cases hs

end RayScene
