import RayScene.Proofs.Compilation.Run
set_option autoImplicit false

namespace RayScene.Sdl.Workshop

/-- Two workshops that do the same with the nodes in a set that their plans do not leave. -/
structure Matches (w w' : Workshop) (within : NodeId → Prop) (R : Ledger → Ledger → Prop) :
    Prop where
  found : ∀ id, within id → w'.document.get? id = w.document.get? id
  plan : ∀ id n f, within id → w.document.get? id = some n → w'.plan id n f = w.plan id n f
  inside : ∀ id n f, within id → w.document.get? id = some n →
    ∀ s ∈ (w.plan id n f).steps, within s.node
  tessellated : ∀ id n f l l', within id → w.document.get? id = some n → R l l' →
    ∃ code l₁ l₁', (w.tessellated id n f).run l = (code, l₁) ∧
      (w'.tessellated id n f).run l' = (code, l₁') ∧ R l₁ l₁'

variable {w w' : Workshop} {within : NodeId → Prop} {R : Ledger → Ledger → Prop}
  {path : List NodeId} {steps : List Step} {l l₁ : Ledger} {visits : List Visit}
  {codes : List String} {e : CompileError}

theorem Enters.transfer (hm : w.Matches w' within R) {s : Step} {n : Node}
    (h : w.Enters path s n) (hs : within s.node) : w'.Enters path s n :=
  ⟨(hm.found s.node hs).trans h.found, h.fresh, h.room⟩

theorem Matches.within_of_mem_steps (hm : w.Matches w' within R) {s : Step} {n : Node}
    {frame : Frame} (h : w.Enters path s n) (hs : within s.node)
    (hp : w.plan s.node n s.flags = .framed frame) : ∀ t ∈ frame.steps, within t.node := by
  have hinside := hm.inside s.node n s.flags hs h.found
  rwa [hp] at hinside

theorem Matches.plan_of_enters (hm : w.Matches w' within R) {s : Step} {n : Node} {p : Plan}
    (h : w.Enters path s n) (hs : within s.node) (hp : w.plan s.node n s.flags = p) :
    w'.plan s.node n s.flags = p := (hm.plan s.node n s.flags hs h.found).trans hp

theorem Runs.transfer (hm : w.Matches w' within R) (h : w.Runs path steps l visits codes l₁)
    (hs : ∀ s ∈ steps, within s.node) (l' : Ledger) (hR : R l l') :
    ∃ l₁', w'.Runs path steps l' visits codes l₁' ∧ R l₁ l₁' := by
  induction h generalizing l' with
  | done => exact ⟨l', .done, hR⟩
  | gone hn _ ih =>
    obtain ⟨hfirst, hrest⟩ := List.forall_mem_cons.mp hs
    obtain ⟨l₁', hr, hR'⟩ := ih hrest l' hR
    exact ⟨l₁', .gone ((hm.found _ hfirst).trans hn) hr, hR'⟩
  | nothing he hp _ ih =>
    obtain ⟨hfirst, hrest⟩ := List.forall_mem_cons.mp hs
    obtain ⟨l₁', hr, hR'⟩ := ih hrest l' hR
    exact ⟨l₁', .nothing (he.transfer hm hfirst) (hm.plan_of_enters he hfirst hp) hr, hR'⟩
  | meshed he hp ht _ ih =>
    obtain ⟨hfirst, hrest⟩ := List.forall_mem_cons.mp hs
    obtain ⟨code, l₂, l₂', ht₂, ht', hR₂⟩ := hm.tessellated _ _ _ _ _ hfirst he.found hR
    cases ht.symm.trans ht₂
    obtain ⟨l₁', hr, hR'⟩ := ih hrest _ hR₂
    exact ⟨l₁', .meshed (he.transfer hm hfirst) (hm.plan_of_enters he hfirst hp) ht' hr, hR'⟩
  | framed he hp _ _ ihin ih =>
    obtain ⟨hfirst, hrest⟩ := List.forall_mem_cons.mp hs
    obtain ⟨l₂', hin, hR₂⟩ := ihin (hm.within_of_mem_steps he hfirst hp) l' hR
    obtain ⟨l₁', hr, hR'⟩ := ih hrest _ hR₂
    exact ⟨l₁', .framed (he.transfer hm hfirst) (hm.plan_of_enters he hfirst hp) hin hr, hR'⟩

theorem Fails.transfer (hm : w.Matches w' within R) (h : w.Fails path steps l e l₁)
    (hs : ∀ s ∈ steps, within s.node) (l' : Ledger) (hR : R l l') :
    ∃ l₁', w'.Fails path steps l' e l₁' ∧ R l₁ l₁' := by
  induction h generalizing l' with
  | cycle hn hp =>
    obtain ⟨hfirst, _⟩ := List.forall_mem_cons.mp hs
    exact ⟨l', .cycle ((hm.found _ hfirst).trans hn) hp, hR⟩
  | tooDeep hn hp hd =>
    obtain ⟨hfirst, _⟩ := List.forall_mem_cons.mp hs
    exact ⟨l', .tooDeep ((hm.found _ hfirst).trans hn) hp hd, hR⟩
  | inside he hp _ ih =>
    obtain ⟨hfirst, _⟩ := List.forall_mem_cons.mp hs
    obtain ⟨l₁', hin, hR'⟩ := ih (hm.within_of_mem_steps he hfirst hp) l' hR
    exact ⟨l₁', .inside (he.transfer hm hfirst) (hm.plan_of_enters he hfirst hp) hin, hR'⟩
  | later hr _ ih =>
    obtain ⟨hfirst, hrest⟩ := List.forall_mem_cons.mp hs
    obtain ⟨l₂', hr', hR₂⟩ := hr.transfer hm (List.forall_mem_singleton.mpr hfirst) l' hR
    obtain ⟨l₁', hf, hR'⟩ := ih hrest _ hR₂
    exact ⟨l₁', .later hr' hf, hR'⟩

theorem Matches.compile (hm : w.Matches w' within R) (id : NodeId) (hid : within id) (f : Flags)
    (l l' : Ledger) (hR : R l l') :
    ∃ result l₁ l₁', (w.compile id f).run.run l = (result, l₁) ∧
      (w'.compile id f).run.run l' = (result, l₁') ∧ R l₁ l₁' := by
  have hs : ∀ s ∈ [(⟨id, f⟩ : Step)], within s.node := List.forall_mem_singleton.mpr hid
  cases h : (w.compile id f).run.run l with
  | mk result l₁ =>
    cases result with
    | ok code =>
      obtain ⟨visits, hr⟩ := compile_eq_ok_iff.mp h
      obtain ⟨l₁', hr', hR'⟩ := hr.transfer hm hs l' hR
      exact ⟨.ok code, l₁, l₁', rfl, compile_eq_ok_iff.mpr ⟨visits, hr'⟩, hR'⟩
    | error e =>
      obtain ⟨l₁', hf', hR'⟩ := (compile_eq_error_iff.mp h).transfer hm hs l' hR
      exact ⟨.error e, l₁, l₁', rfl, compile_eq_error_iff.mpr hf', hR'⟩

end RayScene.Sdl.Workshop
