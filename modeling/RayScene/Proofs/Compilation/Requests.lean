import RayScene.Proofs.Compilation.Run
set_option autoImplicit false

namespace RayScene

namespace Document

/-- All nodes met on the way down from some ids, as often as they are met. -/
inductive Unrolls (d : Document) : List NodeId → List (NodeId × Node) → Prop
  | nil : Unrolls d [] []
  | gone {id : NodeId} {ids : List NodeId} {met : List (NodeId × Node)} :
      d.get? id = none → Unrolls d ids met → Unrolls d (id :: ids) met
  | node {id : NodeId} {n : Node} {ids : List NodeId} {below met : List (NodeId × Node)} :
      d.get? id = some n → Unrolls d (d.steps id n) below → Unrolls d ids met →
      Unrolls d (id :: ids) ((id, n) :: (below ++ met))

def needsTessellator (d : Document) (v : NodeId × Node) : Bool :=
  d.isInexpressible v.1 v.2 && !v.2.kind.isMesh

def requestFor (v : NodeId × Node) : Request :=
  ⟨v.1, v.2.view.deviation, v.2.view.angularDeflection.getD 0.5⟩

/-- One request for every node that needs the tessellator, in the order in which they are met. -/
def requestsFor (d : Document) (met : List (NodeId × Node)) : List Request :=
  (met.filter d.needsTessellator).map requestFor

section Unrolling

variable {d : Document} {ids : List NodeId} {met met' : List (NodeId × Node)}

theorem Unrolls.unique (h : d.Unrolls ids met) (h' : d.Unrolls ids met') : met = met' := by
  induction h generalizing met' with
  | nil => cases h'; rfl
  | gone hn _ ih =>
    cases h' with
    | gone _ h' => exact ih h'
    | node hn' _ _ => rw [hn] at hn'; cases hn'
  | node hn _ _ ihbelow ih =>
    cases h' with
    | gone hn' _ => rw [hn] at hn'; cases hn'
    | node hn' hbelow h' =>
      cases hn.symm.trans hn'
      rw [ihbelow hbelow, ih h']

theorem Unrolls.filter (h : d.Unrolls ids met) : d.Unrolls (ids.filter d.contains) met := by
  induction h with
  | nil => exact .nil
  | gone hn _ ih =>
    rw [List.filter_cons_of_neg (by simp [contains, hn])]
    exact ih
  | node hn hbelow _ _ ih =>
    rw [List.filter_cons_of_pos (contains_eq_true_iff.mpr ⟨_, hn⟩)]
    exact .node hn hbelow ih

theorem requestsFor_append (d : Document) (met met' : List (NodeId × Node)) :
    d.requestsFor (met ++ met') = d.requestsFor met ++ d.requestsFor met' := by
  simp only [requestsFor, List.filter_append, List.map_append]

theorem requestsFor_cons (d : Document) (v : NodeId × Node) (met : List (NodeId × Node)) :
    d.requestsFor (v :: met) =
      (if d.needsTessellator v then [requestFor v] else []) ++ d.requestsFor met := by
  cases hv : d.needsTessellator v <;> simp [requestsFor, hv]

end Unrolling

end Document

namespace Sdl

def Visit.met (v : Visit) : NodeId × Node := (v.id, v.node)

namespace Workshop

variable {w : Workshop} {path : List NodeId} {id : NodeId} {n : Node} {f : Flags}
  {steps : List Step} {l l' : Ledger} {visits : List Visit} {codes : List String}

theorem needsTessellator_of_tessellated (hp : w.plan id n f = .tessellated) :
    w.document.needsTessellator (id, n) = !n.kind.isMesh := by
  have hi := Surroundings.plan_eq_tessellated_iff.mp hp
  simp [Document.needsTessellator, hi]

theorem needsTessellator_of_plan {p : Plan} (hp : w.plan id n f = p) (hne : p ≠ .tessellated) :
    w.document.needsTessellator (id, n) = false := by
  have hi := Surroundings.isInexpressible_of_plan hp hne
  simp [Document.needsTessellator, hi]

theorem unrolls_of_plan (hn : w.document.get? id = some n) {p : Plan} (hp : w.plan id n f = p)
    {ids : List NodeId} {below met : List (NodeId × Node)}
    (hbelow : w.document.Unrolls (p.steps.map (·.node)) below) (h : w.document.Unrolls ids met) :
    w.document.Unrolls (id :: ids) ((id, n) :: (below ++ met)) := by
  have hsteps : (p.steps.map (·.node)).filter w.document.contains = w.document.steps id n :=
    hp ▸ Surroundings.plan_steps hn
  exact .node hn (hsteps ▸ hbelow.filter) h

theorem Runs.unrolls (h : w.Runs path steps l visits codes l') :
    w.document.Unrolls (steps.map (·.node)) (visits.map Visit.met) := by
  induction h with
  | done => exact .nil
  | gone hn _ ih => exact .gone hn ih
  | nothing he hp _ ih => exact unrolls_of_plan he.found hp .nil ih
  | meshed he hp _ _ ih => exact unrolls_of_plan he.found hp .nil ih
  | framed he hp _ _ ihin ih =>
    rw [List.map_cons, List.map_cons, List.map_append]
    exact unrolls_of_plan he.found hp ihin ih

theorem Runs.requests (h : w.Runs path steps l visits codes l')
    (hf : ∀ s ∈ steps, s.flags.meshDef = true) :
    l'.requests = l.requests ++ w.document.requestsFor (visits.map Visit.met) := by
  induction h with
  | done => exact (List.append_nil _).symm
  | gone _ _ ih =>
    obtain ⟨_, hrest⟩ := List.forall_mem_cons.mp hf
    exact ih hrest
  | nothing _ hp _ ih =>
    obtain ⟨_, hrest⟩ := List.forall_mem_cons.mp hf
    have hneeds := needsTessellator_of_plan hp nofun
    rw [ih hrest, List.map_cons, Document.requestsFor_cons, Visit.met, hneeds]
    rfl
  | @meshed _ _ _ n _ _ _ _ _ _ _ hp ht _ ih =>
    obtain ⟨hfirst, hrest⟩ := List.forall_mem_cons.mp hf
    have hneeds := needsTessellator_of_tessellated hp
    obtain ⟨hone, _⟩ := tessellated_cases hfirst ht
    rw [ih hrest, List.map_cons, Document.requestsFor_cons, Visit.met, hneeds, hone]
    cases n.kind.isMesh <;> simp [request, Document.requestFor, defaultAngular]
  | framed he hp _ _ ihin ih =>
    obtain ⟨hfirst, hrest⟩ := List.forall_mem_cons.mp hf
    have hneeds := needsTessellator_of_plan hp nofun
    have hinner := meshDef_of_mem_steps he.found hp hfirst
    rw [ih hrest, ihin hinner, List.map_cons, Document.requestsFor_cons, Visit.met, hneeds,
      List.map_append, Document.requestsFor_append]
    simp

/-- The requests of a compilation that declares meshes: one after the other, one for every time that
a node without a form of its own is met. -/
theorem requests_of_compile (hf : f.meshDef = true) {code : String}
    (h : (w.compile id f).run.run l = (.ok code, l')) :
    ∃ met, w.document.Unrolls [id] met ∧ (∀ met', w.document.Unrolls [id] met' → met' = met) ∧
      l'.requests = l.requests ++ w.document.requestsFor met := by
  obtain ⟨visits, hr⟩ := compile_eq_ok_iff.mp h
  have hmet := hr.unrolls
  refine ⟨visits.map Visit.met, hmet, fun met' hmet' => hmet'.unique hmet, ?_⟩
  apply hr.requests
  intro s hs
  rw [List.mem_singleton.mp hs]
  exact hf

/-- A wire that two groups share is asked for twice, a box never. -/
theorem requests_of_shared_wire :
    let wire := Node.ofKind "Wire" (.other "Part::Feature")
    let w := Workshop.standard [wire, Node.ofKind "Box" (.box 1 1 1),
      { Node.ofKind "Inner" .group with children := [⟨1, 0⟩, ⟨2, 0⟩] },
      { Node.ofKind "Outer" .group with children := [⟨3, 0⟩, ⟨1, 0⟩] }]
    ∃ code l', (w.compile ⟨4, 0⟩ Flags.all).run.run Ledger.empty = (.ok code, l') ∧
      ∃ met, w.document.Unrolls [⟨4, 0⟩] met ∧
        l'.requests = w.document.requestsFor met ∧
        w.document.requestsFor met =
          [Document.requestFor (⟨1, 0⟩, wire), Document.requestFor (⟨1, 0⟩, wire)] := by
  intro wire w
  have h : ∃ code l', (w.compile ⟨4, 0⟩ Flags.all).run.run Ledger.empty = (.ok code, l') ∧
      l'.requests = [Document.requestFor (⟨1, 0⟩, wire), Document.requestFor (⟨1, 0⟩, wire)] :=
    ⟨_, _, rfl, rfl⟩
  obtain ⟨code, l', hc, hl⟩ := h
  obtain ⟨met, hmet, _, hreq⟩ := requests_of_compile rfl hc
  have hall : l'.requests = w.document.requestsFor met := hreq
  exact ⟨code, l', hc, met, hmet, hall, hall ▸ hl⟩

end Workshop

end Sdl

end RayScene
