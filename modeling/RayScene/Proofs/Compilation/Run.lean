import RayScene.Export.Assembly
import RayScene.Proofs.Compilation.Steps
import RayScene.Proofs.Effects
/-!
Runs of the compiler as derivations. A run takes a list of steps one after the other and goes into
the steps of each node it meets, so one relation covers nodes and lists alike. Neither relation
knows a budget: a run may enter a node as long as the path is short enough.
-/
set_option autoImplicit false

namespace RayScene.Sdl

/-- A node as it was met on the way: the codes of its steps, and its own code behind the marker. -/
structure Visit where
  id : NodeId
  node : Node
  flags : Flags
  inner : List String
  code : String

namespace Workshop

structure Enters (w : Workshop) (path : List NodeId) (s : Step) (n : Node) : Prop where
  found : w.document.get? s.node = some n
  fresh : s.node ∉ path
  room : path.length < maxDepth

/-- A run that succeeds, with its visits in the order in which they begin. -/
inductive Runs (w : Workshop) :
    List NodeId → List Step → Ledger → List Visit → List String → Ledger → Prop
  | done {path : List NodeId} {l : Ledger} : Runs w path [] l [] [] l
  | gone {path : List NodeId} {s : Step} {rest : List Step} {l l' : Ledger} {visits : List Visit}
      {codes : List String} : w.document.get? s.node = none →
      Runs w path rest l visits codes l' → Runs w path (s :: rest) l visits ("" :: codes) l'
  | nothing {path : List NodeId} {s : Step} {rest : List Step} {n : Node} {l l' : Ledger}
      {visits : List Visit} {codes : List String} : w.Enters path s n →
      w.plan s.node n s.flags = .nothing → Runs w path rest l visits codes l' →
      Runs w path (s :: rest) l (⟨s.node, n, s.flags, [], ""⟩ :: visits) ("" :: codes) l'
  | meshed {path : List NodeId} {s : Step} {rest : List Step} {n : Node} {l l₁ l' : Ledger}
      {visits : List Visit} {code : String} {codes : List String} : w.Enters path s n →
      w.plan s.node n s.flags = .tessellated →
      (w.tessellated s.node n s.flags).run l = (code, l₁) → Runs w path rest l₁ visits codes l' →
      Runs w path (s :: rest) l (⟨s.node, n, s.flags, [], code⟩ :: visits)
        ((marker n s.flags ++ code) :: codes) l'
  | framed {path : List NodeId} {s : Step} {rest : List Step} {n : Node} {frame : Frame}
      {l l₁ l' : Ledger} {within visits : List Visit} {inner codes : List String} :
      w.Enters path s n → w.plan s.node n s.flags = .framed frame →
      Runs w (s.node :: path) frame.steps l within inner l₁ →
      Runs w path rest l₁ visits codes l' →
      Runs w path (s :: rest) l
        (⟨s.node, n, s.flags, inner, frame.code inner⟩ :: (within ++ visits))
        ((marker n s.flags ++ frame.code inner) :: codes) l'

/-- A run that is given up, at a node of the list, inside one, or after some. -/
inductive Fails (w : Workshop) :
    List NodeId → List Step → Ledger → CompileError → Ledger → Prop
  | cycle {path : List NodeId} {s : Step} {rest : List Step} {n : Node} {l : Ledger} :
      w.document.get? s.node = some n → s.node ∈ path →
      Fails w path (s :: rest) l (.cycle n.name) l
  | tooDeep {path : List NodeId} {s : Step} {rest : List Step} {n : Node} {l : Ledger} :
      w.document.get? s.node = some n → s.node ∉ path → maxDepth ≤ path.length →
      Fails w path (s :: rest) l (.tooDeep n.name maxDepth) l
  | inside {path : List NodeId} {s : Step} {rest : List Step} {n : Node} {frame : Frame}
      {l l' : Ledger} {e : CompileError} : w.Enters path s n →
      w.plan s.node n s.flags = .framed frame → Fails w (s.node :: path) frame.steps l e l' →
      Fails w path (s :: rest) l e l'
  | later {path : List NodeId} {s : Step} {rest : List Step} {l l₁ l' : Ledger}
      {visits : List Visit} {code : String} {e : CompileError} :
      Runs w path [s] l visits [code] l₁ → Fails w path rest l₁ e l' →
      Fails w path (s :: rest) l e l'

end Workshop

namespace Workshop

section Tessellated

variable {w : Workshop} {id : NodeId} {n : Node} {f : Flags} {l l' : Ledger}

theorem meshOf?_run {m : Option TriMesh} (h : (w.meshOf? id n).run l = (m, l')) :
    l' = { l with requests := l.requests ++ if n.kind.isMesh then [] else [request id n] } := by
  unfold meshOf? at h
  split at h
  · rename_i mesh hk
    cases h
    simp [hk, Kind.isMesh]
  · rename_i hk
    have hm : n.kind.isMesh = false := by
      unfold Kind.isMesh
      split
      · exact absurd ‹_› (hk _)
      · rfl
    cases h
    simp [hm]

theorem tessellated_run (w : Workshop) (id : NodeId) (n : Node) (f : Flags) (l : Ledger) :
    (w.tessellated id n f).run l =
      if f.meshDef then
        match (w.meshOf? id n).run l with
        | (none, l₁) => ("", l₁)
        | (some m, l₁) =>
          if m.isEmpty then ("", l₁)
          else (w.meshReference n f,
            { l₁ with meshes := l₁.meshes.declare (meshIdentifier n.label) id m })
      else (w.meshReference n f, l) := by
  unfold tessellated
  cases f.meshDef with
  | false => rfl
  | true =>
    cases hm : (w.meshOf? id n).run l with
    | mk m? l₁ =>
      rw [if_pos rfl, run_bind_state hm]
      cases m? with
      | none => rfl
      | some m => cases hempty : m.isEmpty <;> simp [hempty] <;> rfl

/-- One request, unless the node is a mesh; then either nothing or a reference whose mesh is
declared. -/
theorem tessellated_cases {code : String} (hf : f.meshDef = true)
    (h : (w.tessellated id n f).run l = (code, l')) :
    l'.requests = l.requests ++ (if n.kind.isMesh then [] else [request id n]) ∧
      ((code = "" ∧ l'.meshes = l.meshes) ∨
        ∃ m : TriMesh, m.isEmpty = false ∧ code = w.meshReference n f ∧
          l'.meshes = l.meshes.declare (meshIdentifier n.label) id m) := by
  rw [tessellated_run, if_pos hf] at h
  cases hm : (w.meshOf? id n).run l with
  | mk m? l₁ =>
    have hl := meshOf?_run hm
    rw [hm] at h
    cases m? with
    | none =>
      cases h
      exact ⟨by rw [hl], .inl ⟨rfl, by rw [hl]⟩⟩
    | some m =>
      cases he : m.isEmpty with
      | true =>
        simp only [he, if_true] at h
        cases h
        exact ⟨by rw [hl], .inl ⟨rfl, by rw [hl]⟩⟩
      | false =>
        simp only [he] at h
        cases h
        exact ⟨by rw [hl], .inr ⟨m, he, rfl, by rw [hl]⟩⟩

theorem tessellated_code {code : String} (h : (w.tessellated id n f).run l = (code, l')) :
    code = "" ∨ code = w.meshReference n f := by
  cases hf : f.meshDef with
  | true =>
    obtain ⟨_, ⟨hcode, _⟩ | ⟨_, _, hcode, _⟩⟩ := tessellated_cases hf h
    · exact .inl hcode
    · exact .inr hcode
  | false =>
    rw [tessellated_run, hf] at h
    cases h
    exact .inr rfl

end Tessellated

variable {w : Workshop} {budget : Nat} {path : List NodeId}

def compileAll (w : Workshop) (budget : Nat) (path : List NodeId) (steps : List Step) :
    Compiling (List String) :=
  steps.mapM fun s => w.compileAt budget path s.node s.flags

theorem compileAll_cons_ok {s : Step} {rest : List Step} {l l₁ l' : Ledger} {code : String}
    {codes : List String}
    (hs : (w.compileAt budget path s.node s.flags).run.run l = (.ok code, l₁))
    (hr : (w.compileAll budget path rest).run.run l₁ = (.ok codes, l')) :
    (w.compileAll budget path (s :: rest)).run.run l = (.ok (code :: codes), l') := by
  unfold compileAll at hr ⊢
  rw [List.mapM_cons, run_bind_ok hs, run_bind_ok hr]
  rfl

theorem compileAll_cons_later {s : Step} {rest : List Step} {l l₁ l' : Ledger} {code : String}
    {e : CompileError}
    (hs : (w.compileAt budget path s.node s.flags).run.run l = (.ok code, l₁))
    (hr : (w.compileAll budget path rest).run.run l₁ = (.error e, l')) :
    (w.compileAll budget path (s :: rest)).run.run l = (.error e, l') := by
  unfold compileAll at hr ⊢
  rw [List.mapM_cons, run_bind_ok hs, run_bind_error hr]

theorem compileAll_cons_error {s : Step} {rest : List Step} {l l' : Ledger} {e : CompileError}
    (hs : (w.compileAt budget path s.node s.flags).run.run l = (.error e, l')) :
    (w.compileAll budget path (s :: rest)).run.run l = (.error e, l') := by
  unfold compileAll
  rw [List.mapM_cons, run_bind_error hs]

section Node

variable {id : NodeId} {n : Node} {f : Flags} {l : Ledger}

theorem compileAt_gone (hn : w.document.get? id = none) :
    (w.compileAt budget path id f).run.run l = (.ok "", l) := by
  unfold compileAt
  rw [hn]
  rfl

theorem compileAt_cycle (hn : w.document.get? id = some n) (hp : id ∈ path) :
    (w.compileAt budget path id f).run.run l = (.error (.cycle n.name), l) := by
  unfold compileAt
  simp only [hn, hp, if_true]
  rfl

theorem compileAt_tooDeep (hn : w.document.get? id = some n) (hp : id ∉ path) :
    (w.compileAt 0 path id f).run.run l = (.error (.tooDeep n.name maxDepth), l) := by
  unfold compileAt
  simp only [hn, hp, if_false]
  rfl

end Node

theorem Enters.compileAt {s : Step} {n : Node} (he : w.Enters path s n)
    (hb : budget + path.length = maxDepth) :
    ∃ b, b + (s.node :: path).length = maxDepth ∧
      w.compileAt budget path s.node s.flags =
        w.compileNode (w.compileAt b (s.node :: path)) s.node n s.flags := by
  have hroom := he.room
  cases budget with
  | zero => omega
  | succ b =>
    refine ⟨b, by simp only [List.length_cons]; omega, ?_⟩
    conv_lhs => unfold Workshop.compileAt
    simp only [he.found, he.fresh, if_false]

section Inside

variable {inner : NodeId → Flags → Compiling String} {id : NodeId} {n : Node} {f : Flags}
  {l l' : Ledger}

theorem compileNode_nothing (hp : w.plan id n f = .nothing) :
    (w.compileNode inner id n f).run.run l = (.ok "", l) := by
  unfold compileNode
  rw [hp]
  rfl

theorem compileNode_tessellated {code : String} (hp : w.plan id n f = .tessellated)
    (ht : (w.tessellated id n f).run l = (code, l')) :
    (w.compileNode inner id n f).run.run l = (.ok (marker n f ++ code), l') := by
  unfold compileNode
  rw [hp]
  have hl : (ExceptT.lift (w.tessellated id n f) : Compiling String).run.run l =
      (.ok code, l') := by
    rw [ExceptT.run_lift, StateT.run_map, ht]
    rfl
  exact run_bind_ok hl

theorem compileNode_framed {frame : Frame} {codes : List String}
    (hp : w.plan id n f = .framed frame)
    (hs : (frame.steps.mapM fun s => inner s.node s.flags).run.run l = (.ok codes, l')) :
    (w.compileNode inner id n f).run.run l = (.ok (marker n f ++ frame.code codes), l') := by
  unfold compileNode
  rw [hp]
  exact run_bind_ok hs

theorem compileNode_error {frame : Frame} {e : CompileError} (hp : w.plan id n f = .framed frame)
    (hs : (frame.steps.mapM fun s => inner s.node s.flags).run.run l = (.error e, l')) :
    (w.compileNode inner id n f).run.run l = (.error e, l') := by
  unfold compileNode
  rw [hp]
  exact run_bind_error hs

end Inside

/-- A run that succeeds is what the compiler does when its budget and the path together make up
the limit. -/
theorem Runs.compileAll {steps : List Step} {l l' : Ledger} {visits : List Visit}
    {codes : List String} (h : w.Runs path steps l visits codes l')
    (hb : budget + path.length = maxDepth) :
    (w.compileAll budget path steps).run.run l = (.ok codes, l') := by
  induction h generalizing budget with
  | done => rfl
  | gone hn _ ih => exact compileAll_cons_ok (compileAt_gone hn) (ih hb)
  | nothing he hp _ ih =>
    obtain ⟨b, _, hcompile⟩ := he.compileAt hb
    apply compileAll_cons_ok _ (ih hb)
    rw [hcompile]
    exact compileNode_nothing hp
  | meshed he hp ht _ ih =>
    obtain ⟨b, _, hcompile⟩ := he.compileAt hb
    apply compileAll_cons_ok _ (ih hb)
    rw [hcompile]
    exact compileNode_tessellated hp ht
  | framed he hp _ _ ihin ihrest =>
    obtain ⟨b, hbudget, hcompile⟩ := he.compileAt hb
    apply compileAll_cons_ok _ (ihrest hb)
    rw [hcompile]
    exact compileNode_framed hp (ihin hbudget)

theorem compileAll_singleton (w : Workshop) (budget : Nat) (path : List NodeId) (s : Step)
    (l : Ledger) : (w.compileAll budget path [s]).run.run l =
      Prod.map (Except.map ([·])) id ((w.compileAt budget path s.node s.flags).run.run l) := by
  cases hs : (w.compileAt budget path s.node s.flags).run.run l with
  | mk r l₁ =>
    cases r with
    | error e => exact compileAll_cons_error hs
    | ok c => exact compileAll_cons_ok hs rfl

theorem map_singleton_injective :
    Function.Injective (Except.map ([·]) : Except CompileError String → _) := by
  intro r r' h
  cases r <;> cases r' <;> cases h <;> rfl

theorem compileAll_singleton_iff {s : Step} {l l' : Ledger} {r : Except CompileError String} :
    (w.compileAll budget path [s]).run.run l = (r.map ([·]), l') ↔
      (w.compileAt budget path s.node s.flags).run.run l = (r, l') := by
  rw [compileAll_singleton, Prod.ext_iff, Prod.ext_iff]
  exact and_congr_left' map_singleton_injective.eq_iff

theorem Fails.compileAll {steps : List Step} {l l' : Ledger} {e : CompileError}
    (h : w.Fails path steps l e l') (hb : budget + path.length = maxDepth) :
    (w.compileAll budget path steps).run.run l = (.error e, l') := by
  induction h generalizing budget with
  | cycle hn hp => exact compileAll_cons_error (compileAt_cycle hn hp)
  | tooDeep hn hp hd =>
    obtain rfl : budget = 0 := by omega
    exact compileAll_cons_error (compileAt_tooDeep hn hp)
  | inside he hp _ ih =>
    obtain ⟨b, hbudget, hcompile⟩ := he.compileAt hb
    apply compileAll_cons_error
    rw [hcompile]
    exact compileNode_error hp (ih hbudget)
  | later hs _ ih =>
    have hfirst := (compileAll_singleton_iff (r := .ok _)).mp (hs.compileAll hb)
    exact compileAll_cons_later hfirst (ih hb)

theorem Runs.cons {s : Step} {rest : List Step} {l l₁ l' : Ledger} {first visits : List Visit}
    {code : String} {codes : List String} (hs : w.Runs path [s] l first [code] l₁)
    (hr : w.Runs path rest l₁ visits codes l') :
    w.Runs path (s :: rest) l (first ++ visits) (code :: codes) l' := by
  cases hs with
  | gone hn hd => cases hd; exact .gone hn hr
  | nothing he hp hd => cases hd; exact .nothing he hp hr
  | meshed he hp ht hd => cases hd; exact .meshed he hp ht hr
  | framed he hp hin hd =>
    cases hd
    simpa using Runs.framed he hp hin hr

theorem Fails.cons {s : Step} {l l' : Ledger} {e : CompileError} (hs : w.Fails path [s] l e l')
    (rest : List Step) : w.Fails path (s :: rest) l e l' := by
  cases hs with
  | cycle hn hp => exact .cycle hn hp
  | tooDeep hn hp hd => exact .tooDeep hn hp hd
  | inside he hp hin => exact .inside he hp hin
  | later hr hd => cases hd

theorem Runs.length_codes {steps : List Step} {l l' : Ledger} {visits : List Visit}
    {codes : List String} (h : w.Runs path steps l visits codes l') :
    codes.length = steps.length := by
  induction h with
  | done => rfl
  | gone _ _ ih => exact congrArg (· + 1) ih
  | nothing _ _ _ ih => exact congrArg (· + 1) ih
  | meshed _ _ _ _ ih => exact congrArg (· + 1) ih
  | framed _ _ _ _ _ ih => exact congrArg (· + 1) ih

theorem Runs.uncons {s : Step} {rest : List Step} {l l' : Ledger} {visits : List Visit}
    {codes : List String} (h : w.Runs path (s :: rest) l visits codes l') :
    ∃ l₁ first code later others, w.Runs path [s] l first [code] l₁ ∧
      w.Runs path rest l₁ later others l' ∧ visits = first ++ later ∧ codes = code :: others := by
  cases h with
  | gone hn hr => exact ⟨l, [], "", _, _, .gone hn .done, hr, rfl, rfl⟩
  | nothing he hp hr => exact ⟨l, _, "", _, _, .nothing he hp .done, hr, rfl, rfl⟩
  | meshed he hp ht hr => exact ⟨_, _, _, _, _, .meshed he hp ht .done, hr, rfl, rfl⟩
  | framed he hp hin hr => exact ⟨_, _, _, _, _, .framed he hp hin .done, hr, by simp, rfl⟩

theorem Runs.of_mem {steps : List Step} {l l' : Ledger} {visits : List Visit}
    {codes : List String} (h : w.Runs path steps l visits codes l') {s : Step} (hs : s ∈ steps) :
    ∃ l₀ l₁ own code, w.Runs path [s] l₀ own [code] l₁ ∧ own ⊆ visits ∧ code ∈ codes := by
  induction steps generalizing l visits codes with
  | nil => cases hs
  | cons t rest ih =>
    obtain ⟨l₁, first, code, later, others, hfirst, hrest, rfl, rfl⟩ := h.uncons
    rcases List.mem_cons.mp hs with rfl | hs
    · exact ⟨l, l₁, first, code, hfirst, List.subset_append_left _ _, List.mem_cons_self⟩
    · obtain ⟨l₀, l₂, own, c, hr, hown, hc⟩ := ih hrest hs
      exact ⟨l₀, l₂, own, c, hr, List.subset_append_of_subset_right _ hown,
        List.mem_cons_of_mem _ hc⟩

theorem Fails.exists_mem {steps : List Step} {l l' : Ledger} {e : CompileError}
    (h : w.Fails path steps l e l') : ∃ s ∈ steps, ∃ l₀, w.Fails path [s] l₀ e l' := by
  induction h with
  | cycle hn hp => exact ⟨_, List.mem_cons_self, _, .cycle hn hp⟩
  | tooDeep hn hp hd => exact ⟨_, List.mem_cons_self, _, .tooDeep hn hp hd⟩
  | inside he hp hin _ => exact ⟨_, List.mem_cons_self, _, .inside he hp hin⟩
  | later _ _ ih =>
    obtain ⟨s, hs, l₀, hf⟩ := ih
    exact ⟨s, List.mem_cons_of_mem _ hs, l₀, hf⟩

theorem Enters.unique {s : Step} {n m : Node} (h : w.Enters path s n)
    (h' : w.Enters path s m) : n = m :=
  Option.some.inj (h.found.symm.trans h'.found)

theorem Runs.unique {steps : List Step} {l l₁ l₂ : Ledger} {visits visits' : List Visit}
    {codes codes' : List String} (h : w.Runs path steps l visits codes l₁)
    (h' : w.Runs path steps l visits' codes' l₂) :
    visits = visits' ∧ codes = codes' ∧ l₁ = l₂ := by
  induction h generalizing visits' codes' l₂ with
  | done =>
    cases h'
    exact ⟨rfl, rfl, rfl⟩
  | gone hn _ ih =>
    cases h' with
    | gone _ hrest =>
      obtain ⟨rfl, rfl, rfl⟩ := ih hrest
      exact ⟨rfl, rfl, rfl⟩
    | nothing he _ _ => exact absurd (hn.symm.trans he.found) nofun
    | meshed he _ _ _ => exact absurd (hn.symm.trans he.found) nofun
    | framed he _ _ _ => exact absurd (hn.symm.trans he.found) nofun
  | nothing he hp _ ih =>
    cases h' with
    | gone hn _ => exact absurd (hn.symm.trans he.found) nofun
    | nothing he' _ hrest =>
      obtain rfl := he.unique he'
      obtain ⟨rfl, rfl, rfl⟩ := ih hrest
      exact ⟨rfl, rfl, rfl⟩
    | meshed he' hp' _ _ =>
      obtain rfl := he.unique he'
      exact absurd (hp.symm.trans hp') nofun
    | framed he' hp' _ _ =>
      obtain rfl := he.unique he'
      exact absurd (hp.symm.trans hp') nofun
  | meshed he hp ht _ ih =>
    cases h' with
    | gone hn _ => exact absurd (hn.symm.trans he.found) nofun
    | nothing he' hp' _ =>
      obtain rfl := he.unique he'
      exact absurd (hp.symm.trans hp') nofun
    | meshed he' _ ht' hrest =>
      obtain rfl := he.unique he'
      cases ht.symm.trans ht'
      obtain ⟨rfl, rfl, rfl⟩ := ih hrest
      exact ⟨rfl, rfl, rfl⟩
    | framed he' hp' _ _ =>
      obtain rfl := he.unique he'
      exact absurd (hp.symm.trans hp') nofun
  | framed he hp _ _ ihin ih =>
    cases h' with
    | gone hn _ => exact absurd (hn.symm.trans he.found) nofun
    | nothing he' hp' _ =>
      obtain rfl := he.unique he'
      exact absurd (hp.symm.trans hp') nofun
    | meshed he' hp' _ _ =>
      obtain rfl := he.unique he'
      exact absurd (hp.symm.trans hp') nofun
    | framed he' hp' hin' hrest' =>
      obtain rfl := he.unique he'
      cases hp.symm.trans hp'
      obtain ⟨rfl, rfl, rfl⟩ := ihin hin'
      obtain ⟨rfl, rfl, rfl⟩ := ih hrest'
      exact ⟨rfl, rfl, rfl⟩

theorem step_runs_or_fails {s : Step} {l : Ledger}
    (hin : ∀ n frame, w.Enters path s n → w.plan s.node n s.flags = .framed frame →
      (∃ visits codes l', w.Runs (s.node :: path) frame.steps l visits codes l') ∨
        ∃ e l', w.Fails (s.node :: path) frame.steps l e l') :
    (∃ visits code l', w.Runs path [s] l visits [code] l') ∨ ∃ e l', w.Fails path [s] l e l' := by
  cases hn : w.document.get? s.node with
  | none => exact .inl ⟨_, _, _, .gone hn .done⟩
  | some n =>
    by_cases hp : s.node ∈ path
    · exact .inr ⟨_, _, .cycle hn hp⟩
    by_cases hd : maxDepth ≤ path.length
    · exact .inr ⟨_, _, .tooDeep hn hp hd⟩
    have he : w.Enters path s n := ⟨hn, hp, by omega⟩
    cases hpl : w.plan s.node n s.flags with
    | nothing => exact .inl ⟨_, _, _, .nothing he hpl .done⟩
    | tessellated => exact .inl ⟨_, _, _, .meshed he hpl rfl .done⟩
    | framed frame =>
      rcases hin n frame he hpl with ⟨visits, codes, l', hr⟩ | ⟨e, l', hf⟩
      · exact .inl ⟨_, _, _, .framed he hpl hr .done⟩
      · exact .inr ⟨e, l', .inside he hpl hf⟩

/-- Every list of steps has a run, and it ends in one of the two ways. -/
theorem runs_or_fails (w : Workshop) (path : List NodeId) (steps : List Step) (l : Ledger) :
    (∃ visits codes l', w.Runs path steps l visits codes l') ∨
      ∃ e l', w.Fails path steps l e l' := by
  -- Going inside makes the path longer, going on makes the list shorter.
  match steps with
  | [] => exact .inl ⟨_, _, _, .done⟩
  | s :: rest =>
    have hin : ∀ n frame, w.Enters path s n → w.plan s.node n s.flags = .framed frame →
        (∃ visits codes l', w.Runs (s.node :: path) frame.steps l visits codes l') ∨
          ∃ e l', w.Fails (s.node :: path) frame.steps l e l' :=
      fun n frame he _ => runs_or_fails w (s.node :: path) frame.steps l
    rcases step_runs_or_fails hin with ⟨first, code, l₁, hs⟩ | ⟨e, l', hf⟩
    · rcases runs_or_fails w path rest l₁ with ⟨visits, codes, l', hr⟩ | ⟨e, l', hf⟩
      · exact .inl ⟨_, _, _, hs.cons hr⟩
      · exact .inr ⟨e, l', .later hs hf⟩
    · exact .inr ⟨e, l', hf.cons rest⟩
termination_by (maxDepth - path.length, steps.length)
decreasing_by
  · have := he.room
    exact Prod.Lex.left _ _ (by simp only [List.length_cons]; omega)
  · exact Prod.Lex.right _ (by simp)

theorem compileAll_eq_ok_iff (hb : budget + path.length = maxDepth) {steps : List Step}
    {l l' : Ledger} {codes : List String} :
    (w.compileAll budget path steps).run.run l = (.ok codes, l') ↔
      ∃ visits, w.Runs path steps l visits codes l' := by
  constructor
  · intro h
    rcases runs_or_fails w path steps l with ⟨visits, cs, l₁, hr⟩ | ⟨e, l₁, hf⟩
    · rw [hr.compileAll hb] at h
      cases h
      exact ⟨visits, hr⟩
    · rw [hf.compileAll hb] at h
      cases h
  · rintro ⟨visits, hr⟩
    exact hr.compileAll hb

theorem compileAll_eq_error_iff (hb : budget + path.length = maxDepth) {steps : List Step}
    {l l' : Ledger} {e : CompileError} :
    (w.compileAll budget path steps).run.run l = (.error e, l') ↔ w.Fails path steps l e l' := by
  constructor
  · intro h
    rcases runs_or_fails w path steps l with ⟨visits, cs, l₁, hr⟩ | ⟨e, l₁, hf⟩
    · rw [hr.compileAll hb] at h
      cases h
    · rw [hf.compileAll hb] at h
      cases h
      exact hf
  · exact fun hf => hf.compileAll hb

theorem compile_eq_ok_iff {id : NodeId} {f : Flags} {l l' : Ledger} {code : String} :
    (w.compile id f).run.run l = (.ok code, l') ↔
      ∃ visits, w.Runs [] [⟨id, f⟩] l visits [code] l' := by
  have hb : maxDepth + ([] : List NodeId).length = maxDepth := rfl
  rw [← compileAll_eq_ok_iff hb]
  exact (compileAll_singleton_iff (s := ⟨id, f⟩) (r := .ok code)).symm

theorem compile_eq_error_iff {id : NodeId} {f : Flags} {l l' : Ledger} {e : CompileError} :
    (w.compile id f).run.run l = (.error e, l') ↔ w.Fails [] [⟨id, f⟩] l e l' := by
  have hb : maxDepth + ([] : List NodeId).length = maxDepth := rfl
  rw [← compileAll_eq_error_iff hb]
  exact (compileAll_singleton_iff (s := ⟨id, f⟩) (r := .error e)).symm

def rootSteps (w : Workshop) : List Step := w.document.roots.map (⟨·, Flags.all⟩)

theorem flags_of_mem_rootSteps : ∀ s ∈ w.rootSteps, s.flags = Flags.all := by
  intro s hs
  obtain ⟨id, _, rfl⟩ := List.mem_map.mp hs
  rfl

theorem compileRoots_eq (w : Workshop) : w.compileRoots = w.compileAll maxDepth [] w.rootSteps := by
  unfold compileRoots compileAll rootSteps
  rw [List.mapM_map]
  rfl

theorem Runs.compileRoots {l l' : Ledger} {visits : List Visit} {codes : List String}
    (h : w.Runs [] w.rootSteps l visits codes l') :
    w.compileRoots.run.run l = (.ok codes, l') := by
  have hb : maxDepth + ([] : List NodeId).length = maxDepth := rfl
  rw [compileRoots_eq]
  exact h.compileAll hb

def assembling (t : Tessellator) (c : Context) (d : Document) : Workshop := ⟨⟨c.repaired d, c⟩, t⟩

theorem runs_of_assemble {t : Tessellator} {earlier requests : List Request} {c : Context}
    {d : Document} {a : Artifacts} (h : assemble t earlier c d = (.ok a, requests)) :
    ∃ visits codes l', (assembling t c d).Runs [] (assembling t c d).rootSteps
        ⟨earlier, MeshFile.empty⟩ visits codes l' ∧
      a.scene = sceneHead c (!l'.meshes.isEmpty) ++ String.join codes ∧
      a.meshes = l'.meshes.text := by
  unfold assemble at h
  cases hr : (assembling t c d).compileRoots.run.run ⟨earlier, MeshFile.empty⟩ with
  | mk r l' =>
    unfold assembling at hr
    dsimp only at h
    rw [hr] at h
    cases r with
    | error e => cases h
    | ok codes =>
      simp only [Except.map, Prod.mk.injEq, Except.ok.injEq] at h
      obtain ⟨rfl, _⟩ := h
      change (assembling t c d).compileRoots.run.run _ = _ at hr
      rw [compileRoots_eq] at hr
      obtain ⟨visits, hruns⟩ := (compileAll_eq_ok_iff rfl).mp hr
      exact ⟨visits, codes, l', hruns, rfl, rfl⟩

theorem assemble_of_runs {t : Tessellator} {earlier : List Request} {c : Context} {d : Document}
    {l' : Ledger} {visits : List Visit} {codes : List String}
    (h : (assembling t c d).Runs [] (assembling t c d).rootSteps ⟨earlier, MeshFile.empty⟩
      visits codes l') : ∃ a, assemble t earlier c d = (.ok a, l'.requests) := by
  have hr := h.compileRoots
  unfold assembling at hr
  unfold assemble
  dsimp only
  rw [hr]
  exact ⟨_, rfl⟩

theorem fails_of_assemble {t : Tessellator} {earlier requests : List Request} {c : Context}
    {d : Document} {e : CompileError} (h : assemble t earlier c d = (.error e, requests)) :
    ∃ l', (assembling t c d).Fails [] (assembling t c d).rootSteps
      ⟨earlier, MeshFile.empty⟩ e l' := by
  have hb : maxDepth + ([] : List NodeId).length = maxDepth := rfl
  rcases runs_or_fails (assembling t c d) [] (assembling t c d).rootSteps
    ⟨earlier, MeshFile.empty⟩ with ⟨visits, codes, l', hr⟩ | ⟨e', l', hf⟩
  · obtain ⟨a, ha⟩ := assemble_of_runs hr
    cases h.symm.trans ha
  · refine ⟨l', ?_⟩
    have hrun := hf.compileAll hb
    rw [← compileRoots_eq] at hrun
    unfold assembling at hrun
    unfold assemble at h
    dsimp only at h
    rw [hrun] at h
    cases h
    exact hf

theorem meshDef_of_mem_steps {id : NodeId} {n : Node} {f : Flags} {frame : Frame}
    (hn : w.document.get? id = some n) (hp : w.plan id n f = .framed frame)
    (hf : f.meshDef = true) : ∀ t ∈ frame.steps, t.flags.meshDef = true := by
  intro t ht
  rw [Surroundings.flags_of_mem_steps hn hp t ht]
  exact Flags.meshDef_inside hf _

def standard (nodes : List Node) : Workshop :=
  ⟨⟨nodes.foldl Document.add Document.empty, Context.bare Settings.standard Camera.standard⟩,
    Tessellator.primitive⟩

end Workshop

end RayScene.Sdl
