import Mathlib.Data.List.Basic
import RayScene.Sdl.Compile
set_option autoImplicit false

namespace RayScene

theorem mem_walk_of_mem_stack {α : Type} [DecidableEq α] (next : α → List α) (finite : List α)
    {stack seen : List α} {a : α} (ha : a ∈ stack) (hs : a ∉ seen) :
    a ∈ walk next finite stack seen := by
  fun_induction walk next finite stack seen with
  | case1 seen => simp at ha
  | case2 seen b stack hb ih =>
    have hne : a ≠ b := fun h => hs (h ▸ hb)
    exact ih (by simpa [hne] using ha) hs
  | case3 seen b stack hb hf ih =>
    by_cases hab : a = b
    · simp [hab]
    · have hm : a ∈ stack := by simpa [hab] using ha
      exact List.mem_cons_of_mem _ (ih (by simp [hm]) (by simp [hab, hs]))
  | case4 seen b stack hb hf ih =>
    by_cases hab : a = b
    · simp [hab]
    · have hm : a ∈ stack := by simpa [hab] using ha
      exact List.mem_cons_of_mem _ (ih hm (by simp [hab, hs]))

def Kind.isMesh : Kind → Bool
  | .mesh _ => true
  | _ => false

namespace Document

variable (d : Document)

def hasProfile (id : NodeId) : Bool := (d.sketch? id).any (·.profile.isOk)

/-- Loops need a base that is there, and an axis if they are polar. -/
def hasLoops (a : NodeArray) : Bool :=
  d.contains a.base && match a.layout with
    | .polar p => !(p.axis.largest == 0)
    | .ortho _ => true
    | .other _ => false

def hasPrism (p : Feature) : Bool := d.supportsFeature p && d.hasProfile p.profile

def steps (id : NodeId) (n : Node) : List NodeId :=
  match n.kind with
  | .boolean _ => n.children.filter d.contains
  | .part => n.children.filter fun c => (d.get? c).any (·.visible)
  | .group => n.children.filter fun c => (d.get? c).any (·.visible)
  | .array a => if d.hasLoops a then [a.base] else []
  | .clone sources _ => sources.filter d.contains
  | .pad p => if d.hasPrism p then p.baseFeature.toList.filter d.contains else []
  | .pocket p => if d.hasPrism p then p.baseFeature.toList.filter d.contains else []
  | .body tip => if d.supportsBody id then tip.toList else []
  | _ => []

/-- Whether nothing but a mesh can stand for a node. -/
def isInexpressible (id : NodeId) (n : Node) : Bool :=
  match n.kind with
  | .sketch _ => true
  | .datum _ => true
  | .mesh _ => true
  | .other _ => true
  | .array a => !d.hasLoops a
  | .extrusion e => !(d.supportsExtrusion e && d.hasProfile e.base)
  | .pad p => !d.hasPrism p
  | .pocket p => !d.hasPrism p
  | .body _ => !d.supportsBody id
  | _ => false

variable {d}

theorem contains_eq_true_iff {id : NodeId} : d.contains id = true ↔ ∃ n, d.get? id = some n := by
  simp [contains, Option.isSome_iff_exists]

theorem contains_of_supportsBody {body id : NodeId} (h : d.supportsBody body = true)
    (hd : id ∈ d.outListRecursive body) : d.contains id = true := by
  unfold supportsBody at h
  have hid := List.all_eq_true.mp h id hd
  cases hn : d.get? id with
  | none => simp [hn] at hid
  | some n => exact contains_eq_true_iff.mpr ⟨n, hn⟩

theorem mem_foldl_insert {α : Type} [DecidableEq α] {refs out : List α} {a : α}
    (h : a ∈ out ∨ a ∈ refs) :
    a ∈ refs.foldl (fun out r => if r ∈ out then out else out ++ [r]) out := by
  induction refs generalizing out with
  | nil => simpa using h
  | cons r refs ih =>
    simp only [List.foldl_cons]
    apply ih
    by_cases hr : r ∈ out
    · simp only [hr, if_true]
      rcases h with h | h
      · exact .inl h
      · rcases List.mem_cons.mp h with rfl | h
        · exact .inl hr
        · exact .inr h
    · simp only [hr, if_false, List.mem_append, List.mem_singleton]
      rcases h with h | h
      · exact .inl (.inl h)
      · rcases List.mem_cons.mp h with h | h
        · exact .inl (.inr h)
        · exact .inr h

theorem mem_outList_of_mem_references {id r : NodeId} {n : Node} (hn : d.get? id = some n)
    (hr : r ∈ n.kind.references) : r ∈ d.outList id := by
  simp only [outList, hn]
  exact mem_foldl_insert (.inr hr)

/-- The tip is a dependency of its body, so it is there. A body that is its own tip is there too. -/
theorem contains_tip {id tip : NodeId} {n : Node} (hn : d.get? id = some n)
    (hk : n.kind = .body (some tip)) (h : d.supportsBody id = true) : d.contains tip = true := by
  by_cases ht : tip = id
  · exact contains_eq_true_iff.mpr ⟨n, ht ▸ hn⟩
  · apply contains_of_supportsBody h
    have hr : tip ∈ n.kind.references := by simp [hk, Kind.references]
    exact mem_walk_of_mem_stack _ _ (mem_outList_of_mem_references hn hr) (by simp [ht])

theorem contains_of_visible {id : NodeId} (h : (d.get? id).any (·.visible) = true) :
    d.contains id = true := by
  cases hn : d.get? id with
  | none => simp [hn] at h
  | some n => exact contains_eq_true_iff.mpr ⟨n, hn⟩

end Document

namespace Sdl

def Plan.steps : Plan → List Step
  | .framed frame => frame.steps
  | _ => []

def Flags.inside (f : Flags) : Kind → Flags
  | .boolean _ => { f with placement := true, close := true, label := true }
  | .part => { f with placement := true, close := true }
  | .group => { f with placement := true, close := true }
  | .array ⟨_, .ortho _⟩ => { f with placement := true, close := true, meshDef := true }
  | .array _ => { f with placement := true, close := true }
  | .clone .. => { Flags.none with meshDef := true }
  | _ => Flags.all

theorem Flags.meshDef_inside {f : Flags} (hf : f.meshDef = true) (k : Kind) :
    (f.inside k).meshDef = true := by
  unfold Flags.inside
  split <;> first | rfl | exact hf

theorem Flags.close_inside (f : Flags) {k : Kind} (hk : ∀ sources scale, k ≠ .clone sources scale) :
    (f.inside k).close = true := by
  unfold Flags.inside
  split <;> first | rfl | exact absurd rfl (hk _ _)

namespace Surroundings

variable {s : Surroundings} {id : NodeId} {n : Node} {f : Flags}

theorem isSome_profile? (id : NodeId) : (s.profile? id).isSome = s.document.hasProfile id := by
  unfold profile? Document.hasProfile
  cases hn : s.document.get? id with
  | none => simp [Document.sketch?, hn]
  | some n =>
    cases hs : s.document.sketch? id with
    | none => simp
    | some sketch => cases hp : sketch.profile <;> simp [hp, Except.isOk, Except.toBool]

theorem feature_of_hasPrism {p : Feature} (pocket : Bool) (h : s.document.hasPrism p = true) :
    ∃ frame, s.feature f p pocket = .framed frame ∧
      frame.steps = p.baseFeature.toList.map (⟨·, Flags.all⟩) := by
  simp only [Document.hasPrism, Bool.and_eq_true, ← isSome_profile?] at h
  obtain ⟨⟨sketch, profile⟩, hp⟩ := Option.isSome_iff_exists.mp h.2
  simp [feature, h.1, hp]

theorem feature_of_not_hasPrism {p : Feature} (pocket : Bool)
    (h : s.document.hasPrism p = false) : s.feature f p pocket = .tessellated := by
  simp only [Document.hasPrism, Bool.and_eq_false_iff, ← isSome_profile?,
    Option.isSome_eq_false_iff, Option.isNone_iff_eq_none] at h
  rcases h with h | h
  · simp [feature, h]
  · simp [feature, h]

theorem feature_eq_tessellated_iff {p : Feature} {pocket : Bool} :
    s.feature f p pocket = .tessellated ↔ s.document.hasPrism p = false := by
  cases hp : s.document.hasPrism p with
  | true =>
    obtain ⟨frame, hf, _⟩ := feature_of_hasPrism (f := f) pocket hp
    simp [hf]
  | false => simp [feature_of_not_hasPrism pocket hp]

theorem feature_steps (p : Feature) (pocket : Bool) : (s.feature f p pocket).steps =
    if s.document.hasPrism p then p.baseFeature.toList.map (⟨·, Flags.all⟩) else [] := by
  cases hp : s.document.hasPrism p with
  | true =>
    obtain ⟨frame, hf, hs⟩ := feature_of_hasPrism (f := f) pocket hp
    simp [hf, Plan.steps, hs]
  | false => simp [feature_of_not_hasPrism pocket hp, Plan.steps]

theorem feature_steps_eq (p : Feature) (pocket : Bool) :
    ∃ ids : List NodeId, (s.feature f p pocket).steps = ids.map (⟨·, Flags.all⟩) ∧
      ids.filter s.document.contains =
        if s.document.hasPrism p then p.baseFeature.toList.filter s.document.contains else [] := by
  cases hp : s.document.hasPrism p with
  | true => exact ⟨p.baseFeature.toList, by simp [feature_steps, hp], by simp⟩
  | false => exact ⟨[], by simp [feature_steps, hp], by simp⟩

theorem extrusion_eq_tessellated_iff {e : Extrusion} : s.extrusion n f e = .tessellated ↔
    (s.document.supportsExtrusion e && s.document.hasProfile e.base) = false := by
  rw [← isSome_profile?]
  cases hs : s.document.supportsExtrusion e with
  | false => simp [extrusion, hs]
  | true => cases hp : s.profile? e.base <;> simp [extrusion, hs, hp, simple]

theorem extrusion_steps (e : Extrusion) : (s.extrusion n f e).steps = [] := by
  unfold extrusion
  split
  · split <;> rfl
  · rfl

theorem profile_of_extrusion {e : Extrusion} {frame : Frame}
    (hp : s.extrusion n f e = .framed frame) :
    s.document.supportsExtrusion e = true ∧ ∃ sketch p, s.profile? e.base = some (sketch, p) := by
  unfold extrusion at hp
  split at hp
  · rename_i hs
    split at hp
    · rename_i sketch p hprofile
      exact ⟨hs, sketch, p, hprofile⟩
    · cases hp
  · cases hp

theorem profile_of_feature {p : Feature} {pocket : Bool} {frame : Frame}
    (hp : s.feature f p pocket = .framed frame) :
    s.document.supportsFeature p = true ∧ ∃ sketch q, s.profile? p.profile = some (sketch, q) := by
  unfold feature at hp
  split at hp
  · rename_i hs
    split at hp
    · rename_i sketch q hprofile
      exact ⟨hs, sketch, q, hprofile⟩
    · cases hp
  · cases hp

theorem array_of_hasLoops {a : NodeArray} (h : s.document.hasLoops a = true) :
    ∃ base loop, s.document.get? a.base = some base ∧
      s.array n f a = s.loops n f a.base (f.inside (.array a)) (arrayIdentifier base) loop ∧
      ((∃ p, a.layout = .polar p ∧ loop = s.polarLoop n f (arrayIdentifier base) p) ∨
        ∃ o, a.layout = .ortho o ∧ loop = s.orthoLoop n f (arrayIdentifier base) o) := by
  simp only [Document.hasLoops, Bool.and_eq_true] at h
  obtain ⟨base, hb⟩ := Document.contains_eq_true_iff.mp h.1
  obtain ⟨i, layout⟩ := a
  cases layout with
  | polar p =>
    have haxis : (p.axis.largest == 0) = false := by simpa using h.2
    exact ⟨base, _, hb, by simp [array, hb, haxis, Flags.inside], .inl ⟨p, rfl, rfl⟩⟩
  | ortho o => exact ⟨base, _, hb, by simp [array, hb, Flags.inside], .inr ⟨o, rfl, rfl⟩⟩
  | other t => simp at h

theorem array_of_not_hasLoops {a : NodeArray} (h : s.document.hasLoops a = false) :
    s.array n f a = .tessellated := by
  unfold array
  cases hb : s.document.get? a.base with
  | none => rfl
  | some base =>
    have hc : s.document.contains a.base = true := Document.contains_eq_true_iff.mpr ⟨base, hb⟩
    simp only [Document.hasLoops, hc, Bool.true_and] at h
    cases hl : a.layout with
    | polar p => simp_all
    | ortho o => simp [hl] at h
    | other t => rfl

theorem loops_of_array {a : NodeArray} {frame : Frame} (hp : s.array n f a = .framed frame) :
    s.document.hasLoops a = true ∧ ∃ base loop, s.document.get? a.base = some base ∧
      s.loops n f a.base (f.inside (.array a)) (arrayIdentifier base) loop = .framed frame ∧
      ((∃ p, a.layout = .polar p ∧ loop = s.polarLoop n f (arrayIdentifier base) p) ∨
        ∃ o, a.layout = .ortho o ∧ loop = s.orthoLoop n f (arrayIdentifier base) o) := by
  cases hl : s.document.hasLoops a with
  | false =>
    rw [array_of_not_hasLoops hl] at hp
    cases hp
  | true =>
    obtain ⟨base, loop, hbase, heq, hloop⟩ := array_of_hasLoops (n := n) (f := f) hl
    exact ⟨rfl, base, loop, hbase, heq ▸ hp, hloop⟩

theorem array_eq_tessellated_iff {a : NodeArray} :
    s.array n f a = .tessellated ↔ s.document.hasLoops a = false := by
  cases hl : s.document.hasLoops a with
  | true =>
    obtain ⟨base, loop, _, he, _⟩ := array_of_hasLoops (n := n) (f := f) hl
    simp [he, loops]
  | false => simp [array_of_not_hasLoops hl]

theorem array_steps (a : NodeArray) : (s.array n f a).steps =
    if s.document.hasLoops a then [⟨a.base, f.inside (.array a)⟩] else [] := by
  cases hl : s.document.hasLoops a with
  | true =>
    obtain ⟨base, loop, _, he, _⟩ := array_of_hasLoops (n := n) (f := f) hl
    simp [he, loops, Plan.steps]
  | false => simp [array_of_not_hasLoops hl, Plan.steps]

theorem body_eq_tessellated_iff {tip : Option NodeId} :
    s.body id n f tip = .tessellated ↔ s.document.supportsBody id = false := by
  unfold body
  cases s.document.supportsBody id with
  | true => cases tip <;> simp
  | false => simp

theorem body_steps (tip : Option NodeId) : (s.body id n f tip).steps =
    if s.document.supportsBody id then tip.toList.map (⟨·, Flags.all⟩) else [] := by
  unfold body
  split
  · cases tip <;> rfl
  · rfl

theorem frame_of_body {tip : Option NodeId} {frame : Frame}
    (hp : s.body id n f tip = .framed frame) :
    ∃ i, tip = some i ∧ frame = ⟨"\nunion \x7b\n", [⟨i, Flags.all⟩], true,
      "\n" ++ s.trailing n f⟩ := by
  unfold body at hp
  split at hp
  · cases tip with
    | none => cases hp
    | some i =>
      cases hp
      exact ⟨i, rfl, rfl⟩
  · cases hp

theorem plan_of_array (id : NodeId) (f : Flags) {a : NodeArray} (hk : n.kind = .array a) :
    s.plan id n f = s.array n f a := by
  unfold plan
  simp only [hk]

theorem plan_of_clone (id : NodeId) (f : Flags) {sources : List NodeId} {scale : Vec3}
    (hk : n.kind = .clone sources scale) : s.plan id n f = s.clone n f sources scale := by
  unfold plan
  simp only [hk]

theorem plan_of_body (id : NodeId) (f : Flags) {tip : Option NodeId} (hk : n.kind = .body tip) :
    s.plan id n f = s.body id n f tip := by
  unfold plan
  simp only [hk]

theorem plan_eq_tessellated_iff :
    s.plan id n f = .tessellated ↔ s.document.isInexpressible id n = true := by
  unfold plan Document.isInexpressible
  cases hk : n.kind with
  | array a => simp only [array_eq_tessellated_iff, Bool.not_eq_true']
  | extrusion e => simp only [extrusion_eq_tessellated_iff, Bool.not_eq_true']
  | pad p => simp only [feature_eq_tessellated_iff, Bool.not_eq_true']
  | pocket p => simp only [feature_eq_tessellated_iff, Bool.not_eq_true']
  | body tip => simp only [body_eq_tessellated_iff, Bool.not_eq_true']
  | _ => simp [simple, boolean, container, clone]

theorem filter_contains_visible (d : Document) (ids : List NodeId) :
    (ids.filter fun c => (d.get? c).any (·.visible)).filter d.contains =
      ids.filter fun c => (d.get? c).any (·.visible) := by
  apply List.filter_eq_self.mpr
  intro c hc
  exact Document.contains_of_visible (List.mem_filter.mp hc).2

theorem isInexpressible_of_plan {p : Plan} (hp : s.plan id n f = p) (hne : p ≠ .tessellated) :
    s.document.isInexpressible id n = false := by
  have hi := mt plan_eq_tessellated_iff.mpr (hp ▸ hne)
  simpa using hi

/-- A plan takes the steps of its node, apart from such as lead nowhere, and takes them all with the
flags that the kind of the node passes on. -/
theorem plan_steps_eq (hn : s.document.get? id = some n) (f : Flags) :
    ∃ ids : List NodeId, (s.plan id n f).steps = ids.map (⟨·, f.inside n.kind⟩) ∧
      ids.filter s.document.contains = s.document.steps id n := by
  unfold plan Document.steps
  cases hk : n.kind with
  | boolean op => exact ⟨_, rfl, by simp⟩
  | part => exact ⟨_, rfl, filter_contains_visible _ _⟩
  | group => exact ⟨_, rfl, filter_contains_visible _ _⟩
  | array a =>
    refine ⟨if s.document.hasLoops a then [a.base] else [], ?_, ?_⟩
    · simp only [array_steps]
      split <;> rfl
    · cases hl : s.document.hasLoops a with
      | true =>
        have hb := hl
        simp only [Document.hasLoops, Bool.and_eq_true] at hb
        simp [hl, hb.1]
      | false => simp [hl]
  | clone sources scale => exact ⟨_, rfl, by simp⟩
  | extrusion e => exact ⟨[], extrusion_steps e, rfl⟩
  | pad p => exact feature_steps_eq p false
  | pocket p => exact feature_steps_eq p true
  | body tip =>
    refine ⟨if s.document.supportsBody id then tip.toList else [], ?_, ?_⟩
    · simp only [body_steps]
      split <;> rfl
    · cases hb : s.document.supportsBody id with
      | true =>
        cases tip with
        | none => rfl
        | some tip => simp [Document.contains_tip hn hk hb]
      | false => rfl
  | _ => exact ⟨[], rfl, rfl⟩

theorem plan_steps (hn : s.document.get? id = some n) :
    ((s.plan id n f).steps.map (·.node)).filter s.document.contains = s.document.steps id n := by
  obtain ⟨ids, hs, hids⟩ := plan_steps_eq hn f
  simpa [hs, Function.comp_def] using hids

theorem flags_of_mem_steps (hn : s.document.get? id = some n) {frame : Frame}
    (hp : s.plan id n f = .framed frame) : ∀ st ∈ frame.steps, st.flags = f.inside n.kind := by
  intro st hst
  obtain ⟨ids, hs, _⟩ := plan_steps_eq hn f
  rw [hp] at hs
  have hmem : st ∈ ids.map (⟨·, f.inside n.kind⟩) := hs ▸ hst
  obtain ⟨m, _, rfl⟩ := List.mem_map.mp hmem
  rfl

end Surroundings

end Sdl

end RayScene
