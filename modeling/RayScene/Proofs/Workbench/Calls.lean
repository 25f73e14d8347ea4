import RayScene.Proofs.Documents.Arena
import RayScene.Proofs.Effects
import RayScene.Workbench.Bench
/-!
Calls of a workbench that build a document or change it. A call that fails has added nothing and
renamed nothing. What it has hidden before it failed stays hidden.
-/
set_option autoImplicit false

namespace RayScene

def Node.hidden (n : Node) : Node := { n with visible := false }

namespace Document

def hide (d : Document) (ids : List NodeId) : Document :=
  ids.foldl (fun d id => d.modify id Node.hidden) d

section Hiding

variable {d : Document} {id m : NodeId} {n : Node} {f : Node → Node}

theorem get?_modify_eq_ite (d : Document) (id m : NodeId) (f : Node → Node) :
    (d.modify id f).get? m = (d.get? m).map fun n => if m = id then f n else n := by
  by_cases hm : m = id
  · simp only [hm, get?_modify_self, if_true]
  · simp only [get?_modify hm, hm, if_false, Option.map_id']

theorem modify_eq_self (h : ∀ n, d.get? id = some n → f n = n) : d.modify id f = d := by
  cases hn : d.get? id with
  | none => simp only [modify, hn]
  | some n =>
    have hslots : (d.modify id f).slots = d.slots := by
      apply Array.ext_getElem?
      intro i
      rw [getElem?_modify hn, h n hn]
      split
      · rename_i hi
        rw [hi, getElem?_of_get? hn]
      · rfl
    calc d.modify id f = ⟨(d.modify id f).slots, (d.modify id f).free, (d.modify id f).order⟩ := rfl
      _ = d := by rw [hslots, free_modify, order_modify]

theorem get?_hide (d : Document) (ids : List NodeId) (m : NodeId) :
    (d.hide ids).get? m = (d.get? m).map fun n => if m ∈ ids then n.hidden else n := by
  induction ids generalizing d with
  | nil => simp [hide]
  | cons id ids ih =>
    rw [hide, List.foldl_cons, ← hide, ih, get?_modify_eq_ite, Option.map_map]
    congr 1
    funext n
    by_cases hm : m = id <;> by_cases hids : m ∈ ids <;> simp [hm, hids, Node.hidden]

theorem order_hide (d : Document) (ids : List NodeId) : (d.hide ids).order = d.order := by
  induction ids generalizing d with
  | nil => rfl
  | cons id ids ih => rw [hide, List.foldl_cons, ← hide, ih, order_modify]

theorem free_hide (d : Document) (ids : List NodeId) : (d.hide ids).free = d.free := by
  induction ids generalizing d with
  | nil => rfl
  | cons id ids ih => rw [hide, List.foldl_cons, ← hide, ih, free_modify]

theorem hide_eq_self_iff {ids : List NodeId} :
    d.hide ids = d ↔ ∀ id ∈ ids, ∀ n, d.get? id = some n → n.visible = false := by
  constructor
  · intro h id hid n hn
    have hget := get?_hide d ids id
    rw [h, hn, Option.map_some, if_pos hid, Option.some.injEq] at hget
    rw [hget, Node.hidden]
  · intro h
    induction ids with
    | nil => rfl
    | cons id ids ih =>
      obtain ⟨hid, hids⟩ := List.forall_mem_cons.mp h
      have hsame : d.modify id Node.hidden = d := modify_eq_self fun n hn => by
        rw [Node.hidden, ← hid n hn]
      rw [hide, List.foldl_cons, hsame]
      exact ih hids

end Hiding

end Document

namespace Bench

def resolve (b : Bench) (name : String) : Except BenchError NodeId :=
  match b.names.lookup name with
  | some id => .ok id
  | none => .error (.nodeNotFound name)

def hide (b : Bench) (ids : List NodeId) : Bench := { b with document := b.document.hide ids }

def add (b : Bench) (n : Node) : Bench :=
  { b with
    document := b.document.add n
    names := (n.name, b.document.nextId) :: b.names }

/-- What is hidden when names are consumed. Unless all of them are known, that is nothing. -/
def consumed (b : Bench) (names : List String) : List NodeId :=
  match names.mapM b.resolve with
  | .ok ids => ids
  | .error _ => []

/-- A name is taken, or there is no node behind it. -/
inductive Refuses (b : Bench) : BenchError → Prop
  | taken {name : String} : (b.names.lookup name).isSome → b.Refuses (.duplicateName name)
  | missing {name : String} : (b.names.lookup name).bind b.document.get? = none →
      b.Refuses (.nodeNotFound name)

variable {b : Bench} {e : BenchError} {name : String} {names : List String} {ids : List NodeId}

theorem consumed_singleton : b.consumed [name] = match b.resolve name with
    | .ok id => [id]
    | .error _ => [] := by
  unfold consumed
  rw [List.mapM_cons]
  cases b.resolve name <;> rfl

theorem resolve_eq_ok_iff {id : NodeId} :
    b.resolve name = .ok id ↔ b.names.lookup name = some id := by
  unfold resolve
  cases b.names.lookup name <;> simp

theorem consumed_of_unknown (hname : name ∈ names) (h : b.names.lookup name = none) :
    b.consumed names = [] := by
  have hfail : ∀ names : List String, name ∈ names → ∀ ids, names.mapM b.resolve ≠ .ok ids := by
    intro names hname
    induction names with
    | nil => cases hname
    | cons first names ih =>
      intro ids hids
      rw [List.mapM_cons] at hids
      cases hfirst : b.resolve first with
      | error e =>
        rw [hfirst] at hids
        cases hids
      | ok id =>
        cases hrest : names.mapM b.resolve with
        | error e =>
          rw [hfirst, hrest] at hids
          cases hids
        | ok rest =>
          rcases List.mem_cons.mp hname with rfl | hname
          · rw [resolve_eq_ok_iff, h] at hfirst
            cases hfirst
          · exact ih hname rest hrest
  unfold consumed
  cases hids : names.mapM b.resolve with
  | ok ids => exact absurd hids (hfail names hname ids)
  | error e => rfl

theorem hide_eq_self_iff :
    b.hide ids = b ↔ ∀ id ∈ ids, ∀ n, b.document.get? id = some n → n.visible = false := by
  rw [← Document.hide_eq_self_iff]
  constructor
  · exact congrArg Bench.document
  · intro h
    rw [hide, h]

theorem refuses_of_resolve (h : b.resolve name = .error e) : b.Refuses e := by
  unfold resolve at h
  split at h
  · cases h
  · rename_i hnone
    cases h
    exact .missing (by rw [hnone, Option.bind_none])

theorem refuses_of_hide (h : (b.hide ids).Refuses e) : b.Refuses e := by
  cases h with
  | taken h => exact .taken h
  | @missing name h =>
    refine .missing ?_
    change (b.names.lookup name).bind (b.document.hide ids).get? = none at h
    cases hid : b.names.lookup name with
    | none => rfl
    | some id =>
      rw [hid, Option.bind_some, Document.get?_hide, Option.map_eq_none_iff] at h
      exact h

theorem refuses_of_mapM (h : names.mapM b.resolve = .error e) : b.Refuses e := by
  induction names with
  | nil => cases h
  | cons name names ih =>
    rw [List.mapM_cons] at h
    cases hname : b.resolve name with
    | error e' =>
      rw [hname] at h
      cases h
      exact refuses_of_resolve hname
    | ok id =>
      cases hnames : names.mapM b.resolve with
      | error e' =>
        rw [hname, hnames] at h
        cases h
        exact ih hnames
      | ok ids =>
        rw [hname, hnames] at h
        cases h

end Bench

namespace Building

variable {α β : Type} {b : Bench} {name base : String} {names : List String}

section Running

theorem run_id (name : String) (b : Bench) : (id name).run.run b = (b.resolve name, b) := by
  unfold id Bench.resolve
  rw [run_get_bind]
  cases b.names.lookup name <;> rfl

theorem run_ids (names : List String) (b : Bench) :
    (ids names).run.run b = (names.mapM b.resolve, b) := by
  unfold ids
  induction names with
  | nil => rfl
  | cons name names ih =>
    rw [List.mapM_cons, List.mapM_cons, run_bind, run_id]
    cases b.resolve name with
    | error e => rfl
    | ok id =>
      simp only [run_bind, ih]
      cases names.mapM b.resolve <;> rfl

theorem run_hideAll (ids : List NodeId) (b : Bench) :
    (hideAll ids).run.run b = (.ok (), b.hide ids) := rfl

theorem run_consume (names : List String) (b : Bench) :
    (consume names).run.run b = (names.mapM b.resolve, b.hide (b.consumed names)) := by
  unfold consume Bench.consumed
  rw [run_bind, run_ids]
  cases names.mapM b.resolve <;> rfl

theorem run_addWithChildren (name : String) (kind : Kind) (children : List NodeId) (b : Bench) :
    (addWithChildren name kind children).run.run b =
      if (b.names.lookup name).isSome then (.error (.duplicateName name), b)
      else (.ok b.document.nextId, b.add { Node.ofKind name kind with children := children }) := by
  unfold addWithChildren
  rw [run_get_bind]
  split <;> rfl

theorem run_edit (name : String) (f : Node → Node) (b : Bench) :
    (edit name f).run.run b = match b.resolve name with
      | .ok id => if b.document.contains id
          then (.ok (), { b with document := b.document.modify id f })
          else (.error (.nodeNotFound name), b)
      | .error e => (.error e, b) := by
  unfold edit
  rw [run_bind, run_id]
  cases b.resolve name with
  | error e => rfl
  | ok id =>
    dsimp only
    rw [run_get_bind]
    split <;> rfl

theorem run_discard (x : Building α) (b : Bench) :
    (discard x).run.run b = ((x.run.run b).1.map fun _ => (), (x.run.run b).2) := by
  have hbind : (discard x : Building Unit) = x >>= fun _ => pure () := map_eq_pure_bind _ x
  rw [hbind, run_bind]
  rcases x.run.run b with ⟨e | a, b'⟩ <;> rfl

end Running

/-- When the action fails, all that it has done is to hide what it has consumed. -/
def Leaves (x : Building α) (names : List String) : Prop :=
  ∀ b e b', x.run.run b = (.error e, b') → b.Refuses e ∧ b' = b.hide (b.consumed names)

section Leaving

variable {x : Building α} {g : α → Building β} {kind : Kind} {children : List NodeId}

theorem leaves_addWithChildren : Leaves (addWithChildren name kind children) [] := by
  intro b e b' h
  rw [run_addWithChildren] at h
  split at h
  · rename_i htaken
    cases h
    exact ⟨.taken htaken, rfl⟩
  · cases h

theorem leaves_edit {f : Node → Node} : Leaves (edit name f) [] := by
  intro b e b' h
  rw [run_edit] at h
  cases hid : b.resolve name with
  | error e' =>
    rw [hid] at h
    cases h
    exact ⟨Bench.refuses_of_resolve hid, rfl⟩
  | ok id =>
    simp only [hid] at h
    split at h
    · cases h
    · rename_i hgone
      cases h
      refine ⟨.missing ?_, rfl⟩
      rw [Bench.resolve_eq_ok_iff.mp hid, Option.bind_some]
      exact Option.not_isSome_iff_eq_none.mp hgone

theorem Leaves.discard {names : List String} (h : Leaves x names) : Leaves (discard x) names := by
  intro b e b' hrun
  rw [run_discard] at hrun
  rcases hx : x.run.run b with ⟨e' | a, b₁⟩
  all_goals
    rw [hx] at hrun
    cases hrun
  exact h b e _ hx

theorem Leaves.bind (hx : Leaves x []) (hread : ∀ b, (x.run.run b).2 = b)
    (hg : ∀ a, Leaves (g a) []) : Leaves (x >>= g) [] := by
  intro b e b' h
  rw [run_bind] at h
  have hsame := hread b
  rcases hr : x.run.run b with ⟨e' | a, b₁⟩
  all_goals
    rw [hr] at h hsame
    obtain rfl : b₁ = b := hsame
  · cases h
    exact hx _ e _ hr
  · exact hg a b₁ e b' h

theorem leaves_ids_bind {g : List NodeId → Building β} (hg : ∀ ids, Leaves (g ids) []) :
    Leaves (ids names >>= g) [] := by
  refine Leaves.bind (fun b e b' h => ?_) (fun b => by rw [run_ids]) hg
  rw [run_ids] at h
  obtain ⟨he, rfl⟩ := Prod.mk.inj h
  exact ⟨Bench.refuses_of_mapM he, rfl⟩

theorem leaves_id_bind {g : NodeId → Building β} (hg : ∀ id, Leaves (g id) []) :
    Leaves (id name >>= g) [] := by
  refine Leaves.bind (fun b e b' h => ?_) (fun b => by rw [run_id]) hg
  rw [run_id] at h
  obtain ⟨he, rfl⟩ := Prod.mk.inj h
  exact ⟨Bench.refuses_of_resolve he, rfl⟩

theorem leaves_mapM_id_bind {into : Option String} {g : Option NodeId → Building β}
    (hg : ∀ id, Leaves (g id) []) : Leaves (into.mapM id >>= g) [] := by
  cases into with
  | none => exact hg none
  | some base =>
    have hsome : (some base).mapM id >>= g = id base >>= fun id => g (some id) := bind_map_left ..
    rw [hsome]
    exact leaves_id_bind fun id => hg (some id)

theorem leaves_consume_bind {g : List NodeId → Building β} (hg : ∀ ids, Leaves (g ids) []) :
    Leaves (consume names >>= g) names := by
  intro b e b' h
  rw [run_bind, run_consume] at h
  cases hids : names.mapM b.resolve with
  | error e' =>
    rw [hids] at h
    cases h
    exact ⟨Bench.refuses_of_mapM hids, rfl⟩
  | ok ids =>
    rw [hids] at h
    obtain ⟨he, rfl⟩ := hg ids _ e b' h
    exact ⟨Bench.refuses_of_hide he, rfl⟩

theorem leaves_id_hide_bind {g : NodeId → Building β} (hg : ∀ id, Leaves (g id) []) :
    Leaves (do let id ← id base; hideAll [id]; g id) [base] := by
  intro b e b' h
  rw [run_bind, run_id] at h
  cases hid : b.resolve base with
  | error e' =>
    rw [hid] at h
    cases h
    exact ⟨Bench.refuses_of_resolve hid, by rw [Bench.consumed_singleton, hid]; rfl⟩
  | ok id =>
    rw [hid] at h
    dsimp only at h
    rw [run_bind_ok (run_hideAll [id] b)] at h
    obtain ⟨he, rfl⟩ := hg id _ e b' h
    exact ⟨Bench.refuses_of_hide he, by rw [Bench.consumed_singleton, hid]; rfl⟩

theorem leaves_derived {kind : NodeId → Kind} : Leaves (derived name base kind) [base] :=
  leaves_id_hide_bind fun _ => leaves_addWithChildren

end Leaving

end Building

namespace Bench

inductive Edit where
  | add (name : String) (kind : Kind)
  | boolean (name : String) (op : BooleanOp) (operands : List String)
  | part (name : String) (members : List String)
  | group (name : String) (members : List String)
  | polarArray (name base : String) (count : UInt32) (angle : Float)
  | orthoArray (name base : String) (x y z : UInt32) (spacing : Float)
  | otherArray (name base arrayType : String)
  | clone (name : String) (sources : List String) (scale : Vec3)
  | extrude (name sketch : String) (length : Float)
  | pad (name sketch : String) (length : Float)
  | pocket (name sketch : String) (length : Float) (into : Option String)
  | body (name : String) (features : List String) (tip : String)
  | place (name : String) (placement : Placement)
  | hide (name : String)
  | paint (name : String) (color : Rgb)
  | relabel (name label : String)
  | link (parent child : String)

namespace Edit

def run : Edit → Building Unit
  | .add name kind => discard (Building.add name kind)
  | .boolean name op operands => discard (Building.boolean name op operands)
  | .part name members => discard (Building.part name members)
  | .group name members => discard (Building.group name members)
  | .polarArray name base count angle => discard (Building.polarArray name base count angle)
  | .orthoArray name base x y z spacing => discard (Building.orthoArray name base x y z spacing)
  | .otherArray name base arrayType => discard (Building.otherArray name base arrayType)
  | .clone name sources scale => discard (Building.clone name sources scale)
  | .extrude name sketch length => discard (Building.extrude name sketch length)
  | .pad name sketch length => discard (Building.pad name sketch length)
  | .pocket name sketch length into => discard (Building.pocket name sketch length into)
  | .body name features tip => discard (Building.body name features tip)
  | .place name placement => Building.place name placement
  | .hide name => Building.hide name
  | .paint name color => Building.paint name color
  | .relabel name label => Building.relabel name label
  | .link parent child => Building.link parent child

/-- The names whose nodes a call hides before it looks at anything else. -/
def consumed : Edit → List String
  | .boolean _ _ operands => operands
  | .polarArray _ base _ _ | .orthoArray _ base _ _ _ _ | .otherArray _ base _ => [base]
  | .extrude _ sketch _ | .pad _ sketch _ | .pocket _ sketch _ _ => [sketch]
  | _ => []

end Edit

end Bench

namespace Bench.Edit

open Building

theorem leaves (c : Edit) : Leaves c.run c.consumed := by
  cases c with
  | add => exact leaves_addWithChildren.discard
  | boolean => exact (leaves_consume_bind fun _ => leaves_addWithChildren).discard
  | part | group | clone => exact (leaves_ids_bind fun _ => leaves_addWithChildren).discard
  | polarArray | orthoArray | otherArray | extrude | pad => exact leaves_derived.discard
  | pocket =>
    exact (leaves_id_hide_bind fun _ => leaves_mapM_id_bind fun _ => leaves_addWithChildren).discard
  | body => exact (leaves_ids_bind fun _ => leaves_id_bind fun _ => leaves_addWithChildren).discard
  | place | hide | paint | relabel => exact leaves_edit
  | link => exact leaves_id_bind fun _ => leaves_edit

/-- A call that fails, because a name is taken or leads to no node, leaves the names, the order and
the nodes as they are, but for the nodes that it consumes: once all of those are found they are
hidden, and stay hidden. So it changes nothing exactly when they have been invisible before, and a
call that consumes a name that is not known changes nothing. -/
theorem bench_of_error {c : Edit} {b b' : Bench} {e : BenchError}
    (h : c.run.run.run b = (.error e, b')) :
    b.Refuses e ∧ b' = b.hide (b.consumed c.consumed) ∧
    b'.names = b.names ∧ b'.document.order = b.document.order ∧
    (∀ id, b'.document.get? id = (b.document.get? id).map fun n =>
      if id ∈ b.consumed c.consumed then { n with visible := false } else n) ∧
    (b' = b ↔ ∀ id ∈ b.consumed c.consumed, ∀ n, b.document.get? id = some n → n.visible = false) ∧
    ∀ name ∈ c.consumed, b.names.lookup name = none → b' = b := by
  obtain ⟨he, rfl⟩ := c.leaves b e b' h
  refine ⟨he, rfl, rfl, Document.order_hide _ _, Document.get?_hide _ _, hide_eq_self_iff, ?_⟩
  intro name hname hnone
  rw [consumed_of_unknown hname hnone]
  rfl

def boxes : Bench := (Bench.empty.add (Node.ofKind "A" (.box 1 1 1))).add
  (Node.ofKind "B" (.box 1 1 1))

theorem run_fuse_boxes : (Edit.boolean "A" .fuse ["B"]).run.run.run boxes =
    (.error (.duplicateName "A"), boxes.hide [⟨2, 0⟩]) := rfl

/-- A fusion of the second box under the name of the first one is refused, and hides the second
box. -/
theorem second_box_hidden :
    ∃ b', (Edit.boolean "A" .fuse ["B"]).run.run.run boxes = (.error (.duplicateName "A"), b') ∧
      b'.names = boxes.names ∧ b' ≠ boxes ∧
      (b'.document.get? ⟨2, 0⟩).map Node.visible = some false := by
  obtain ⟨-, -, hnames, -, hget, hsame, -⟩ := bench_of_error run_fuse_boxes
  refine ⟨_, run_fuse_boxes, hnames, fun heq => ?_, ?_⟩
  · exact absurd (hsame.mp heq ⟨2, 0⟩ (by decide) _ rfl) (by decide)
  · rw [hget]
    rfl

theorem not_unchanged_of_error : ¬∀ (c : Edit) (b b' : Bench) (e : BenchError),
    c.run.run.run b = (.error e, b') → (∀ id, b'.document.get? id = b.document.get? id) ∧
      b'.document.order = b.document.order ∧ b'.names = b.names := by
  intro h
  have hsame := (h _ _ _ _ run_fuse_boxes).1 ⟨2, 0⟩
  have hvisible := congrArg (Option.map Node.visible) hsame
  exact absurd hvisible (by decide)

end Bench.Edit

end RayScene
