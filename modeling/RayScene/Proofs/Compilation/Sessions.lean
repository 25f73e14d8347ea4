import RayScene.Proofs.Compilation.Transfer
import RayScene.Sdl.Compiler
set_option autoImplicit false

namespace RayScene

/-- No answer depends on the requests before it. -/
def Tessellator.Steady (t : Tessellator) : Prop :=
  ∀ before before' d r, t before d r = t before' d r

theorem Tessellator.steady_primitive : Tessellator.primitive.Steady := fun _ _ _ _ => rfl

theorem ShapeBook.steady_tessellator (b : ShapeBook) : b.tessellator.Steady := fun _ _ _ _ => rfl

namespace Sdl

namespace Working

variable {α β : Type} {path : List NodeId}

def Follows (path : List NodeId) (x : Working α) (y : Compiling α) : Prop :=
  ∀ l, x.run.run ⟨path, l⟩ = Prod.map id (Compiler.mk path) (y.run.run l)

theorem follows_pure (a : α) : Follows path (pure a) (pure a) := fun _ => rfl

theorem follows_throw (e : CompileError) : Follows path (throw e : Working α) (throw e) :=
  fun _ => rfl

theorem follows_onLedger (x : StateM Ledger α) :
    Follows path (onLedger x) (ExceptT.lift x) := fun _ => rfl

theorem Follows.bind {x : Working α} {y : Compiling α} {f : α → Working β} {g : α → Compiling β}
    (h : Follows path x y) (hf : ∀ a, Follows path (f a) (g a)) :
    Follows path (x >>= f) (y >>= g) := by
  intro l
  have hx := h l
  cases hy : y.run.run l with
  | mk r l₁ =>
    rw [hy] at hx
    rw [ExceptT.run_bind, StateT.run_bind, hx]
    cases r with
    | error e =>
      rw [run_bind_error hy]
      rfl
    | ok a =>
      rw [run_bind_ok hy]
      exact hf a l₁

theorem follows_get {k : Compiler → Working α} {y : Compiling α}
    (h : ∀ l, Follows path (k ⟨path, l⟩) y) : Follows path (get >>= k) y := fun l => h l l

theorem follows_mapM {f : α → Working β} {g : α → Compiling β} (as : List α)
    (h : ∀ a, Follows path (f a) (g a)) : Follows path (as.mapM f) (as.mapM g) := by
  induction as with
  | nil => exact follows_pure []
  | cons a as ih =>
    rw [List.mapM_cons, List.mapM_cons]
    exact (h a).bind fun b => ih.bind fun bs => follows_pure (b :: bs)

theorem follows_inside {id : NodeId} {x : Working String} {y : Compiling String}
    (h : Follows (id :: path) x y) : Follows path (inside id x) y := by
  intro l
  have hrun : (inside id x).run.run ⟨path, l⟩ =
      Prod.map (·) (fun c => { c with path := c.path.tail }) (x.run.run ⟨id :: path, l⟩) := rfl
  rw [hrun, h l]
  rfl

end Working

namespace Workshop

open Working

variable {w : Workshop} {path : List NodeId}

theorem follows_workOn {step : NodeId → Flags → Working String}
    {inner : NodeId → Flags → Compiling String} (h : ∀ id f, Follows path (step id f) (inner id f))
    (id : NodeId) (n : Node) (f : Flags) :
    Follows path (w.workOn step id n f) (w.compileNode inner id n f) := by
  unfold workOn compileNode
  cases w.plan id n f with
  | nothing => exact follows_pure ""
  | tessellated => exact (follows_onLedger _).bind fun code => follows_pure _
  | framed frame =>
    exact (follows_mapM frame.steps fun s => h s.node s.flags).bind fun codes => follows_pure _

/-- The path of the compiler is the path that compiling is told, whatever becomes of the node. -/
theorem follows_step (depth : Nat) (id : NodeId) (f : Flags)
    (hdepth : depth + path.length = maxDepth) :
    Follows path (w.step depth id f) (w.compileAt depth path id f) := by
  induction depth generalizing id f path with
  | zero =>
    unfold step compileAt
    cases w.document.get? id with
    | none => exact follows_pure ""
    | some n =>
      apply follows_get
      intro l
      dsimp only
      -- The depth is used up only where the path is full, and there the path decides.
      have hfull : maxDepth ≤ path.length := by omega
      rw [if_pos hfull]
      split
      · exact follows_throw _
      · exact follows_throw _
  | succ depth ih =>
    unfold step compileAt
    cases w.document.get? id with
    | none => exact follows_pure ""
    | some n =>
      apply follows_get
      intro l
      dsimp only
      have hroom : ¬maxDepth ≤ path.length := by omega
      rw [if_neg hroom]
      split
      · exact follows_throw _
      · have hinside : depth + (id :: path).length = maxDepth := by
          rw [List.length_cons]
          omega
        exact follows_inside (follows_workOn (fun m g => ih m g hinside) id n f)

theorem take_eq (w : Workshop) (s : Step) (l : Ledger) :
    w.take s ⟨[], l⟩ = Prod.map id (Compiler.mk []) ((w.compile s.node s.flags).run.run l) :=
  follows_step maxDepth s.node s.flags rfl l

section Steady

variable {id : NodeId} {n : Node} {f : Flags} {steps steps' : List Step} {l l' l₁ l₁' : Ledger}
  {visits visits' : List Visit} {codes codes' : List String}

theorem meshOf?_steady (h : w.tessellator.Steady) (id : NodeId) (n : Node) (l l' : Ledger) :
    ((w.meshOf? id n).run l).1 = ((w.meshOf? id n).run l').1 := by
  unfold meshOf?
  split
  · rfl
  · exact congrArg Except.toOption (h _ _ _ _)

theorem tessellated_steady (h : w.tessellator.Steady) (id : NodeId) (n : Node) (f : Flags)
    (l l' : Ledger) : ((w.tessellated id n f).run l).1 = ((w.tessellated id n f).run l').1 := by
  rw [tessellated_run, tessellated_run]
  cases f.meshDef with
  | false => rfl
  | true =>
    have hmesh := meshOf?_steady h id n l l'
    cases hm : (w.meshOf? id n).run l with
    | mk m? l₁ =>
      cases hm' : (w.meshOf? id n).run l' with
      | mk m?' l₁' =>
        rw [hm, hm'] at hmesh
        cases hmesh
        cases m? with
        | none => rfl
        | some m => cases hempty : m.isEmpty <;> simp [hempty]

theorem matches_of_steady (h : w.tessellator.Steady) :
    w.Matches w (fun _ => True) (fun _ _ => True) where
  found _ _ := rfl
  plan _ _ _ _ _ := rfl
  inside _ _ _ _ _ _ _ := trivial
  tessellated id n f l l' _ _ _ :=
    ⟨((w.tessellated id n f).run l).1, _, ((w.tessellated id n f).run l').2, rfl,
      Prod.ext (tessellated_steady h id n f l' l) rfl, trivial⟩

theorem compile_steady (h : w.tessellator.Steady) (id : NodeId) (f : Flags) (l l' : Ledger) :
    ((w.compile id f).run.run l).1 = ((w.compile id f).run.run l').1 := by
  obtain ⟨result, _, _, hc, hc', _⟩ := (matches_of_steady h).compile id trivial f l l' trivial
  rw [hc, hc']

/-- What a compiler makes of a step when it has done nothing before. -/
def outcome (w : Workshop) (s : Step) : Except CompileError String := (w.take s .fresh).1

theorem outcome_eq (w : Workshop) (s : Step) :
    w.outcome s = ((w.compile s.node s.flags).run.run Ledger.empty).1 := by
  unfold outcome Compiler.fresh
  rw [take_eq]
  rfl

theorem take_steady (h : w.tessellator.Steady) (s : Step) (l : Ledger) :
    ∃ l', w.take s ⟨[], l⟩ = (w.outcome s, ⟨[], l'⟩) := by
  rw [outcome_eq, compile_steady h s.node s.flags Ledger.empty l, take_eq]
  exact ⟨_, rfl⟩

theorem session_steady (h : w.tessellator.Steady) (l : Ledger) (steps : List Step) :
    (w.session ⟨[], l⟩ steps).map Prod.fst = steps.map w.outcome ∧
      ∀ r ∈ w.session ⟨[], l⟩ steps, r.2.path = [] := by
  induction steps generalizing l with
  | nil => exact ⟨rfl, nofun⟩
  | cons s steps ih =>
    obtain ⟨l', hs⟩ := take_steady h s l
    obtain ⟨houtcomes, hpaths⟩ := ih l'
    unfold session
    rw [hs]
    exact ⟨congrArg (_ :: ·) houtcomes, List.forall_mem_cons.mpr ⟨rfl, hpaths⟩⟩

theorem mapM_steady {α β : Type} {g : α → Compiling β} {r : α → Except CompileError β}
    (h : ∀ a l, ((g a).run.run l).1 = r a) (as : List α) (l : Ledger) :
    ((as.mapM g).run.run l).1 = as.mapM r := by
  induction as generalizing l with
  | nil => rfl
  | cons a as ih =>
    rw [List.mapM_cons, List.mapM_cons, ← h a l]
    cases ha : (g a).run.run l with
    | mk result l₁ =>
      cases result with
      | error e =>
        rw [run_bind_error ha]
        rfl
      | ok b =>
        rw [run_bind_ok ha, ← ih l₁]
        cases has : (as.mapM g).run.run l₁ with
        | mk rest l₂ =>
          cases rest with
          | error e =>
            rw [run_bind_error has]
            rfl
          | ok bs =>
            rw [run_bind_ok has]
            rfl

theorem compileRoots_steady (h : w.tessellator.Steady) (l : Ledger) :
    (w.compileRoots.run.run l).1 = w.rootSteps.mapM w.outcome := by
  unfold rootSteps
  rw [List.mapM_map]
  apply mapM_steady
  intro id l
  rw [Function.comp_apply, outcome_eq]
  exact compile_steady h id Flags.all l Ledger.empty

theorem Enters.shorten {path' : List NodeId} {s : Step} (h : w.Enters path s n)
    (hsubset : path' ⊆ path) (hlength : path'.length ≤ path.length) : w.Enters path' s n :=
  ⟨h.found, fun hs => h.fresh (hsubset hs), Nat.lt_of_le_of_lt hlength h.room⟩

theorem Runs.shorten {path' : List NodeId} (h : w.Runs path steps l visits codes l₁)
    (hsubset : path' ⊆ path) (hlength : path'.length ≤ path.length) :
    w.Runs path' steps l visits codes l₁ := by
  induction h generalizing path' with
  | done => exact .done
  | gone hn _ ih => exact .gone hn (ih hsubset hlength)
  | nothing he hp _ ih => exact .nothing (he.shorten hsubset hlength) hp (ih hsubset hlength)
  | meshed he hp ht _ ih => exact .meshed (he.shorten hsubset hlength) hp ht (ih hsubset hlength)
  | framed he hp _ _ ihin ih =>
    refine .framed (he.shorten hsubset hlength) hp (ihin ?_ ?_) (ih hsubset hlength)
    · exact List.cons_subset_cons _ hsubset
    · exact Nat.succ_le_succ hlength

theorem Runs.of_mem_visits (h : w.Runs path steps l visits codes l₁) {v : Visit}
    (hv : v ∈ visits) :
    ∃ path l₀ l₂ below code, w.Runs path [⟨v.id, v.flags⟩] l₀ (v :: below) [code] l₂ := by
  induction h with
  | done => cases hv
  | gone _ _ ih => exact ih hv
  | nothing he hp _ ih =>
    rcases List.mem_cons.mp hv with rfl | hv
    · exact ⟨_, Ledger.empty, _, _, _, .nothing he hp .done⟩
    · exact ih hv
  | meshed he hp ht _ ih =>
    rcases List.mem_cons.mp hv with rfl | hv
    · exact ⟨_, _, _, _, _, .meshed he hp ht .done⟩
    · exact ih hv
  | framed he hp hin _ ihin ih =>
    rcases List.mem_cons.mp hv with rfl | hv
    · exact ⟨_, _, _, _, _, .framed he hp hin .done⟩
    · exact (List.mem_append.mp hv).elim ihin ih

theorem Runs.visits_eq (h : w.tessellator.Steady) (hr : w.Runs path steps l visits codes l₁)
    {path' : List NodeId} (hr' : w.Runs path' steps' l' visits' codes' l₁') {v v' : Visit}
    (hv : v ∈ visits) (hv' : v' ∈ visits') (hid : v.id = v'.id) (hflags : v.flags = v'.flags) :
    v = v' := by
  obtain ⟨_, l₀, _, _, _, hown⟩ := hr.of_mem_visits hv
  obtain ⟨_, l₀', _, _, _, hown'⟩ := hr'.of_mem_visits hv'
  have hshort := hown.shorten (List.nil_subset _) (Nat.zero_le _)
  have hshort' := hown'.shorten (List.nil_subset _) (Nat.zero_le _)
  obtain ⟨_, hmoved, _⟩ := hshort.transfer (matches_of_steady h) (fun _ _ => trivial) l₀' trivial
  rw [hid, hflags] at hmoved
  exact (List.cons.inj (hmoved.unique hshort').1).1

end Steady

/-- Steps on one compiler, with a tessellator whose answers do not depend on what it has been asked
before. After each step the path is empty again, and the code or the error is that of a compiler
that has done nothing else; so are those of the roots of a scene, and a node that is visited again
with the same flags has the same code. -/
theorem steps_independent {w : Workshop} (h : w.tessellator.Steady) :
    (∀ l steps, (w.session ⟨[], l⟩ steps).map Prod.fst = steps.map w.outcome ∧
      ∀ r ∈ w.session ⟨[], l⟩ steps, r.2.path = []) ∧
    (∀ s l, w.outcome s = ((w.compile s.node s.flags).run.run l).1) ∧
    (∀ l, (w.compileRoots.run.run l).1 = w.rootSteps.mapM w.outcome) ∧
    ∀ steps steps' l l' visits visits' codes codes' l₁ l₁',
      w.Runs [] steps l visits codes l₁ → w.Runs [] steps' l' visits' codes' l₁' →
      ∀ v ∈ visits, ∀ v' ∈ visits', v.id = v'.id → v.flags = v'.flags → v = v' := by
  refine ⟨session_steady h, fun s l => ?_, compileRoots_steady h, ?_⟩
  · rw [outcome_eq]
    exact compile_steady h s.node s.flags Ledger.empty l
  · intro steps steps' l l' visits visits' codes codes' l₁ l₁' hr hr' v hv v' hv'
    exact hr.visits_eq h hr' hv hv'

/-- A group that contains itself is given up inside of itself, and the box that comes next is not
affected. -/
theorem session_after_cycle :
    let w := Workshop.standard [Node.ofKind "Box" (.box 1 1 1),
      { Node.ofKind "Loop" .group with children := [⟨1, 0⟩, ⟨2, 0⟩] }]
    let steps : List Step := [⟨⟨2, 0⟩, Flags.all⟩, ⟨⟨1, 0⟩, Flags.all⟩]
    ∃ code, w.outcome ⟨⟨1, 0⟩, Flags.all⟩ = .ok code ∧
      (w.session .fresh steps).map Prod.fst = [.error (.cycle "Loop"), .ok code] ∧
      ∀ r ∈ w.session .fresh steps, r.2.path = [] := by
  intro w steps
  obtain ⟨hsession, _⟩ := steps_independent (w := w) Tessellator.steady_primitive
  obtain ⟨houtcomes, hpaths⟩ := hsession Ledger.empty steps
  have hcycle : w.outcome ⟨⟨2, 0⟩, Flags.all⟩ = .error (.cycle "Loop") := rfl
  have hbox : ∃ code, w.outcome ⟨⟨1, 0⟩, Flags.all⟩ = .ok code := ⟨_, rfl⟩
  obtain ⟨code, hbox⟩ := hbox
  refine ⟨code, hbox, ?_, hpaths⟩
  rw [Compiler.fresh, houtcomes, List.map_cons, List.map_singleton, hcycle, hbox]

end Workshop

end Sdl

end RayScene
