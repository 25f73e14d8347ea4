import Mathlib.Data.List.Chain
import Mathlib.Data.List.Nodup
import RayScene.Proofs.Compilation.Run
/-!
Which nodes compile at all. A node compiles exactly when no walk of steps from it is longer than the
limit; a walk that is too long either comes back to a node or goes through too many of them.
-/
set_option autoImplicit false

namespace RayScene

open Relation

section Chain

variable {α : Type} {r : α → α → Prop}

theorem transGen_of_isChain {a b : α} {between : List α}
    (h : List.IsChain r (a :: (between ++ [b]))) : TransGen r a b := by
  induction between generalizing a with
  | nil => exact .single (List.isChain_pair.mp h)
  | cons c between ih =>
    obtain ⟨hac, hcb⟩ := List.isChain_cons_cons.mp h
    exact .head hac (ih hcb)

theorem isChain_extend {a b : α} (h : ReflTransGen r a b) {walk : List α}
    (hw : List.IsChain r (b :: walk)) :
    ∃ longer, List.IsChain r (a :: longer) ∧ walk.length ≤ longer.length := by
  induction h using ReflTransGen.head_induction_on with
  | refl => exact ⟨walk, hw, Nat.le_refl _⟩
  | head hac _ ih =>
    obtain ⟨longer, hl, hle⟩ := ih
    exact ⟨_ :: longer, .cons_cons hac hl, by simp only [List.length_cons]; omega⟩

/-- Round and round a cycle there are walks of every length. -/
theorem exists_isChain_of_cycle {m : α} (h : TransGen r m m) (k : Nat) :
    ∃ walk, List.IsChain r (m :: walk) ∧ k ≤ walk.length := by
  induction k with
  | zero => exact ⟨[], .singleton m, Nat.zero_le _⟩
  | succ k ih =>
    obtain ⟨walk, hw, hk⟩ := ih
    obtain ⟨c, hmc, hcm⟩ := TransGen.head'_iff.mp h
    obtain ⟨longer, hl, hle⟩ := isChain_extend hcm hw
    exact ⟨c :: longer, .cons_cons hmc hl, by simp only [List.length_cons]; omega⟩

end Chain

namespace Document

def Leads (d : Document) (a b : NodeId) : Prop := ∃ n, d.get? a = some n ∧ b ∈ d.steps a n

def IsWalk (d : Document) (ids : List NodeId) : Prop := ids.IsChain d.Leads

/-- What an error says about the node that was compiled. -/
def Blames (d : Document) (root : NodeId) : Sdl.CompileError → Prop
  | .cycle name => ∃ m n, ReflTransGen d.Leads root m ∧ TransGen d.Leads m m ∧
      d.get? m = some n ∧ n.name = name
  | .tooDeep name limit => limit = 256 ∧ ∃ walk m n, d.IsWalk (walk ++ [m]) ∧
      (walk ++ [m]).head? = some root ∧ (walk ++ [m]).Nodup ∧ (walk ++ [m]).length = 257 ∧
      d.get? m = some n ∧ n.name = name

/-- A path, innermost node first, leads from the root to one more node. -/
structure Trail (d : Document) (root : NodeId) (path : List NodeId) (id : NodeId) : Prop where
  walk : d.IsWalk (path.reverse ++ [id])
  start : (path.reverse ++ [id]).head? = some root
  nodup : path.Nodup

variable {d : Document} {root id m : NodeId} {path : List NodeId}

theorem Trail.single : d.Trail id [] id := ⟨.singleton id, rfl, List.nodup_nil⟩

theorem Trail.push (ht : d.Trail root path id) (hp : id ∉ path) (hm : d.Leads id m) :
    d.Trail root (id :: path) m := by
  refine ⟨?_, ?_, List.nodup_cons.mpr ⟨hp, ht.nodup⟩⟩
  · unfold IsWalk
    rw [List.reverse_cons]
    apply ht.walk.append (.singleton m)
    intro a ha b hb
    simp only [List.getLast?_append, List.getLast?_singleton, Option.some_or,
      Option.mem_some_iff] at ha
    simp only [List.head?_cons, Option.mem_some_iff] at hb
    exact ha ▸ hb ▸ hm
  · rw [List.reverse_cons, List.head?_append, ht.start]
    rfl

theorem Trail.cycle (ht : d.Trail root path m) (hm : m ∈ path) :
    ReflTransGen d.Leads root m ∧ TransGen d.Leads m m := by
  obtain ⟨before, between, hsplit⟩ := List.append_of_mem (List.mem_reverse.mpr hm)
  have hw : List.IsChain d.Leads (before ++ (m :: (between ++ [m]))) := by
    have h := ht.walk
    rw [IsWalk, hsplit] at h
    simpa using h
  have hr : (before ++ (m :: (between ++ [m]))).head? = some root := by
    have h := ht.start
    rw [hsplit] at h
    simpa using h
  have hcycle : TransGen d.Leads m m := transGen_of_isChain hw.right_of_append
  refine ⟨?_, hcycle⟩
  cases before with
  | nil =>
    simp only [List.nil_append, List.head?_cons, Option.some.injEq] at hr
    exact hr ▸ .refl
  | cons a before =>
    simp only [List.cons_append, List.head?_cons, Option.some.injEq] at hr
    have hpre : List.IsChain d.Leads (a :: (before ++ [m])) := by
      apply hw.prefix
      exact ⟨between ++ [m], by simp⟩
    exact hr ▸ (transGen_of_isChain hpre).to_reflTransGen

theorem exists_long_walk (hreach : ReflTransGen d.Leads root m) (hm : TransGen d.Leads m m) :
    ∃ walk, d.IsWalk (root :: walk) ∧ 256 < (root :: walk).length := by
  obtain ⟨around, hw, hlong⟩ := exists_isChain_of_cycle hm 256
  obtain ⟨walk, hwalk, hle⟩ := isChain_extend hreach hw
  exact ⟨walk, hwalk, by simp only [List.length_cons]; omega⟩

theorem Blames.exists_walk {e : Sdl.CompileError} (h : d.Blames root e) :
    ∃ walk, d.IsWalk (root :: walk) ∧ 256 < (root :: walk).length := by
  cases e with
  | cycle name =>
    obtain ⟨m, _, hreach, hm, _⟩ := h
    exact exists_long_walk hreach hm
  | tooDeep name limit =>
    obtain ⟨_, walk, m, _, hw, hroot, _, hlen, _⟩ := h
    obtain ⟨rest, hrest⟩ := List.head?_eq_some_iff.mp hroot
    rw [hrest] at hw hlen
    exact ⟨rest, hw, by omega⟩

end Document

namespace Sdl.Workshop

variable {w : Workshop} {path : List NodeId}

theorem leads_of_plan {id m : NodeId} {n : Node} {f : Flags} (hn : w.document.get? id = some n)
    (hm : m ∈ (w.plan id n f).steps.map (·.node)) (hc : w.document.contains m = true) :
    w.document.Leads id m :=
  ⟨n, hn, by rw [← Surroundings.plan_steps (f := f) hn]; exact List.mem_filter.mpr ⟨hm, hc⟩⟩

theorem Fails.blames {root : NodeId} {steps : List Step} {l l' : Ledger} {e : CompileError}
    (h : w.Fails path steps l e l') (hlen : path.length ≤ maxDepth)
    (ht : ∀ s ∈ steps, w.document.contains s.node = true → w.document.Trail root path s.node) :
    w.document.Blames root e := by
  induction h with
  | @cycle _ s _ n _ hn hp =>
    have hs := ht s (by simp) (Document.contains_eq_true_iff.mpr ⟨n, hn⟩)
    obtain ⟨hreach, hcycle⟩ := hs.cycle hp
    exact ⟨s.node, n, hreach, hcycle, hn, rfl⟩
  | @tooDeep path s _ n _ hn hp hd =>
    have hs := ht s (by simp) (Document.contains_eq_true_iff.mpr ⟨n, hn⟩)
    have hfull : path.length = 256 := Nat.le_antisymm hlen hd
    have hnodup : (path.reverse ++ [s.node]).Nodup := by
      rw [← List.reverse_cons, List.nodup_reverse]
      exact List.nodup_cons.mpr ⟨hp, hs.nodup⟩
    exact ⟨rfl, path.reverse, s.node, n, hs.walk, hs.start, hnodup, by simp [hfull], hn, rfl⟩
  | @inside path s _ n frame _ _ _ he hp _ ih =>
    apply ih (by have := he.room; simp only [List.length_cons]; omega)
    intro t hin hc
    have hs := ht s (by simp) (Document.contains_eq_true_iff.mpr ⟨n, he.found⟩)
    apply hs.push he.fresh
    apply leads_of_plan (f := s.flags) he.found _ hc
    simp only [hp, Plan.steps]
    exact List.mem_map_of_mem hin
  | later _ _ ih => exact ih hlen fun t hin => ht t (List.mem_cons_of_mem _ hin)

theorem walk_length_le_of_steps {s : Step} {n : Node} (he : w.Enters path s n)
    (hsteps : ∀ t ∈ (w.plan s.node n s.flags).steps, w.document.contains t.node = true →
      ∀ walk, w.document.IsWalk (t.node :: walk) →
        (s.node :: path).length + (t.node :: walk).length ≤ 256)
    {walk : List NodeId} (hw : w.document.IsWalk (s.node :: walk)) :
    path.length + (s.node :: walk).length ≤ 256 := by
  cases walk with
  | nil =>
    have hroom : path.length < 256 := he.room
    simp only [List.length_singleton]
    omega
  | cons m walk =>
    obtain ⟨⟨n', hn', hm⟩, hrest⟩ := List.isChain_cons_cons.mp hw
    obtain rfl : n = n' := Option.some.inj (he.found.symm.trans hn')
    rw [← Surroundings.plan_steps (f := s.flags) he.found] at hm
    obtain ⟨hmap, hc⟩ := List.mem_filter.mp hm
    obtain ⟨t, ht, rfl⟩ := List.mem_map.mp hmap
    have hle := hsteps t ht hc walk hrest
    simp only [List.length_cons] at hle ⊢
    omega

/-- A run that succeeds has followed every walk to its end. -/
theorem Runs.walk_length_le {steps : List Step} {l l' : Ledger} {visits : List Visit}
    {codes : List String} (h : w.Runs path steps l visits codes l') {s : Step} (hs : s ∈ steps)
    (hc : w.document.contains s.node = true) {walk : List NodeId}
    (hw : w.document.IsWalk (s.node :: walk)) : path.length + (s.node :: walk).length ≤ 256 := by
  induction h generalizing s walk with
  | done => simp at hs
  | gone hn _ ih =>
    rcases List.mem_cons.mp hs with rfl | hs
    · simp [Document.contains, hn] at hc
    · exact ih hs hc hw
  | nothing he hp _ ih =>
    rcases List.mem_cons.mp hs with rfl | hs
    · exact walk_length_le_of_steps he (by simp [hp, Plan.steps]) hw
    · exact ih hs hc hw
  | meshed he hp _ _ ih =>
    rcases List.mem_cons.mp hs with rfl | hs
    · exact walk_length_le_of_steps he (by simp [hp, Plan.steps]) hw
    · exact ih hs hc hw
  | framed he hp _ _ ihin ihrest =>
    rcases List.mem_cons.mp hs with rfl | hs
    · apply walk_length_le_of_steps he _ hw
      intro t ht hct walk hwt
      rw [hp] at ht
      exact ihin ht hct hwt
    · exact ihrest hs hc hw

theorem compile_ok_or_error (w : Workshop) (id : NodeId) (f : Flags) (l : Ledger) :
    (∃ code l', (w.compile id f).run.run l = (.ok code, l')) ∨
      ∃ e l', (w.compile id f).run.run l = (.error e, l') := by
  cases h : (w.compile id f).run.run l with
  | mk r l' =>
    cases r with
    | ok code => exact .inl ⟨code, l', rfl⟩
    | error e => exact .inr ⟨e, l', rfl⟩

theorem blames_of_compile {id : NodeId} {f : Flags} {l l' : Ledger} {e : CompileError}
    (h : (w.compile id f).run.run l = (.error e, l')) : w.document.Blames id e := by
  apply (compile_eq_error_iff.mp h).blames (Nat.zero_le _)
  intro s hs _
  rw [List.mem_singleton.mp hs]
  exact .single

theorem walk_length_le_of_compile {id : NodeId} {f : Flags} {l l' : Ledger} {code : String}
    (h : (w.compile id f).run.run l = (.ok code, l')) {walk : List NodeId}
    (hw : w.document.IsWalk (id :: walk)) : (id :: walk).length ≤ 256 := by
  cases hc : w.document.contains id with
  | true =>
    obtain ⟨visits, hr⟩ := compile_eq_ok_iff.mp h
    have hle := hr.walk_length_le (List.mem_singleton_self _) hc hw
    simpa using hle
  | false =>
    cases walk with
    | nil => simp
    | cons m walk =>
      obtain ⟨⟨n, hn, _⟩, _⟩ := List.isChain_cons_cons.mp hw
      rw [Document.contains_eq_true_iff.mpr ⟨n, hn⟩] at hc
      cases hc

/-- Compiling always comes to an end, on every document. It ends well exactly when no walk from the
node has more nodes than the limit, so never when the node leads into a cycle; and when it does not
end well, there is something to blame. -/
theorem compile_ok_iff_walks_fit (w : Workshop) (id : NodeId) (f : Flags) (l : Ledger) :
    ((∃ code l' visits, (w.compile id f).run.run l = (.ok code, l') ∧
        w.Runs [] [⟨id, f⟩] l visits [code] l') ∨
      ∃ e l', (w.compile id f).run.run l = (.error e, l') ∧ w.Fails [] [⟨id, f⟩] l e l') ∧
    ((∃ code l', (w.compile id f).run.run l = (.ok code, l')) ↔
      ∀ walk, w.document.IsWalk (id :: walk) → (id :: walk).length ≤ 256) ∧
    ((∃ m, ReflTransGen w.document.Leads id m ∧ TransGen w.document.Leads m m) →
      ¬ ∃ code l', (w.compile id f).run.run l = (.ok code, l')) ∧
    ∀ e l', (w.compile id f).run.run l = (.error e, l') → w.document.Blames id e := by
  refine ⟨?_, ⟨?_, ?_⟩, ?_, fun e l' h => blames_of_compile h⟩
  · rcases compile_ok_or_error w id f l with ⟨code, l', h⟩ | ⟨e, l', h⟩
    · obtain ⟨visits, hr⟩ := compile_eq_ok_iff.mp h
      exact .inl ⟨code, l', visits, h, hr⟩
    · exact .inr ⟨e, l', h, compile_eq_error_iff.mp h⟩
  · rintro ⟨code, l', h⟩ walk hw
    exact walk_length_le_of_compile h hw
  · intro hfit
    rcases compile_ok_or_error w id f l with hok | ⟨e, l', h⟩
    · exact hok
    · obtain ⟨walk, hw, hlong⟩ := (blames_of_compile h).exists_walk
      exact absurd (hfit walk hw) (Nat.not_le.mpr hlong)
  · rintro ⟨m, hreach, hm⟩ ⟨code, l', h⟩
    obtain ⟨walk, hw, hlong⟩ := Document.exists_long_walk hreach hm
    exact absurd (walk_length_le_of_compile h hw) (Nat.not_le.mpr hlong)

theorem compile_own_child :
    let w := Workshop.standard [{ Node.ofKind "Group" .group with children := [⟨1, 0⟩] }]
    TransGen w.document.Leads ⟨1, 0⟩ ⟨1, 0⟩ ∧
      (¬ ∃ code l', (w.compile ⟨1, 0⟩ Flags.all).run.run Ledger.empty = (.ok code, l')) ∧
      w.document.Blames ⟨1, 0⟩ (.cycle "Group") := by
  intro w
  have hcycle : TransGen w.document.Leads ⟨1, 0⟩ ⟨1, 0⟩ := .single ⟨_, rfl, by decide⟩
  obtain ⟨_, _, hnot, hblames⟩ := compile_ok_iff_walks_fit w ⟨1, 0⟩ Flags.all Ledger.empty
  exact ⟨hcycle, hnot ⟨_, .refl, hcycle⟩, hblames _ _ rfl⟩

end Sdl.Workshop

end RayScene
