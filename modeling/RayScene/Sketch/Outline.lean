import RayScene.Sketch.Segment
/-!
Closed outlines. The curves of a profile are chained head to tail; a chain is closed as soon as its
running end meets its start.
-/
set_option autoImplicit false

namespace RayScene

inductive ProfileError where
  | empty
  | openLoop (position : Vec2)
  | unsupportedGeometry (kind : String)
  deriving Repr

def samePoint (a b : Vec2) : Bool :=
  roundThree a.x == roundThree b.x && roundThree a.y == roundThree b.y

namespace Segment

def startsAt (p : Vec2) (s : Segment) : Bool := s.start?.any (samePoint · p)

def stopsAt (p : Vec2) (s : Segment) : Bool := s.stop?.any (samePoint · p)

/-- The curve in the direction that leads away from the point. When both ends stand there it turns
as well. -/
def leaving (p : Vec2) (s : Segment) : Segment := if s.stopsAt p then s.reversed else s

end Segment

def extractFirst {α : Type} (p : α → Bool) : List α → Option (α × List α)
  | [] => none
  | a :: as => if p a then some (a, as) else (extractFirst p as).map fun (b, bs) => (b, a :: bs)

theorem extractFirst_length {α : Type} {p : α → Bool} {as bs : List α} {b : α}
    (h : extractFirst p as = some (b, bs)) : as.length = bs.length + 1 := by
  induction as generalizing bs with
  | nil => simp [extractFirst] at h
  | cons a as ih =>
    simp only [extractFirst] at h
    split at h
    · simp only [Option.some.injEq, Prod.mk.injEq] at h
      simp [h.2]
    · rw [Option.map_eq_some_iff] at h
      obtain ⟨⟨c, cs⟩, hc, he⟩ := h
      simp only [Prod.mk.injEq] at he
      simp [← he.2, ih (he.1 ▸ hc)]

/-- The rest of a chain that began at `start` and now ends at `current`: the curves that close it,
and those that are left over. Of several curves that fit the first one is taken. -/
def closeChain (start current : Vec2) (pending : List Segment) :
    Except ProfileError (List Segment × List Segment) :=
  if samePoint start current then .ok ([], pending)
  else
    match _hs : extractFirst (fun s => s.startsAt current || s.stopsAt current) pending with
    | none => .error (.openLoop current.rounded)
    | some (s, rest) =>
      let s := s.leaving current
      match closeChain start (s.stop?.getD current) rest with
      | .error e => .error e
      | .ok (run, left) => .ok (s :: run, left)
termination_by pending.length
decreasing_by
  have := extractFirst_length _hs
  omega

theorem closeChain_length {start current : Vec2} {pending run left : List Segment}
    (h : closeChain start current pending = .ok (run, left)) :
    run.length + left.length = pending.length := by
  induction run generalizing current pending with
  | nil =>
    rw [closeChain] at h
    split at h
    · simp_all
    · split at h
      · simp at h
      · simp only at h
        split at h <;> simp at h
  | cons s run ih =>
    rw [closeChain] at h
    split at h
    · simp at h
    · split at h
      · simp at h
      · rename_i t rest hx
        simp only at h
        split at h
        · simp at h
        · rename_i run' left' hc
          simp only [Except.ok.injEq, Prod.mk.injEq, List.cons.injEq] at h
          obtain ⟨⟨_, rfl⟩, rfl⟩ := h
          have := ih hc
          have := extractFirst_length hx
          simp
          omega

/-- The closed outlines of the curves, in the order in which their first curves stand. A curve
without ends is an outline of its own. -/
def outlines (pending : List Segment) : Except ProfileError (List (List Segment)) :=
  match pending with
  | [] => .ok []
  | s :: rest =>
    match s.start?, s.stop? with
    | some a, some b =>
      match _hc : closeChain a b rest with
      | .error e => .error e
      | .ok (run, left) => (outlines left).map ((s :: run) :: ·)
    | _, _ => (outlines rest).map ([s] :: ·)
termination_by pending.length
decreasing_by
  · have := closeChain_length _hc
    simp
    omega
  · simp

end RayScene
