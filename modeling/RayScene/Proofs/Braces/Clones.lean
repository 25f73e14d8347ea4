import Mathlib.Algebra.Ring.Int.Defs
import RayScene.Proofs.Braces.Scenes
import RayScene.Proofs.Text.Search
/-!
Clones as statements. The sources of a clone are left open and the clone closes one brace, whatever
they are. So its code is closed exactly when the sources leave one brace open between them.
-/
set_option autoImplicit false

namespace RayScene.Braces

open Sdl Sdl.Workshop

def surplus (v : Visit) : Int :=
  match v.node.kind with
  | .clone _ _ => if v.flags.close then -1 else 0
  | _ => if v.flags.close = true ∨ v.code = "" then 0 else 1

/-- A clone that is told to close is one closed statement. -/
def IsClosed (v : Visit) : Prop :=
  (∃ sources scale, v.node.kind = .clone sources scale) → v.flags.close = true →
    Balanced true v.code.toList

def Levelled (f : Flags) (code : String) : Prop :=
  ∃ k, Moves 0 k code ∧ (f.close = true → k = 0)

section Balances

variable {a b : Nat} {s : String} {codes : List String} {close : Bool} {frame : Frame}

theorem balance_join (codes : List String) :
    balance (String.join codes).toList = (codes.map fun c => balance c.toList).sum := by
  induction codes with
  | nil => rfl
  | cons c codes ih =>
    rw [String.join_cons, String.toList_append, balance_append, ih, List.map_cons, List.sum_cons]

theorem balance_substitute {lead : List Char} (hlead : braceFree lead) (t : List Char) :
    balance (Text.substitute '\n' ('\n' :: lead) t) = balance t := by
  induction t with
  | nil => rfl
  | cons c t ih =>
    rw [← List.singleton_append (l := t), balance_append]
    by_cases hc : c = '\n'
    · subst hc
      have hline : balance ('\n' :: lead) = balance ['\n'] := by
        rw [← List.singleton_append, balance_append, balance_of_braceFree hlead, Int.add_zero]
      rw [List.singleton_append, Text.substitute_cons_self, balance_append, ih, hline]
    · rw [List.singleton_append, Text.substitute_cons_ne hc, ← List.singleton_append,
        balance_append, ih]

theorem balance_indent (s : String) : balance (indent s).toList = balance s.toList := by
  unfold indent shift
  rw [String.toList_ofList]
  exact balance_substitute ⟨by decide, by decide⟩ s.toList

theorem Moves.balance (h : Moves a b s) : balance s.toList = b - a := by
  obtain ⟨m, hm⟩ := h 0 0
  have hdepth := depth_of_scan hm
  simp only [Nat.zero_add] at hdepth
  omega

theorem balance_frame (frame : Frame) (codes : List String) :
    balance (frame.code codes).toList = balance frame.before.toList +
      (codes.map fun c => balance c.toList).sum + balance frame.after.toList := by
  unfold Frame.code
  rw [String.toList_append, balance_append, String.toList_append, balance_append]
  congr 2
  split
  · rw [join_map_indent, balance_indent, balance_join]
  · exact balance_join codes

theorem Encloses.balance (h : Encloses frame close) (codes : List String) :
    balance (frame.code codes).toList =
      (codes.map fun c => balance c.toList).sum + if close then 0 else 1 := by
  have hbefore := h.opens.moves.balance
  have hafter := h.ends.moves.balance
  rw [balance_frame, hbefore, hafter]
  cases close with
  | false =>
    simp
    omega
  | true => simp

end Balances

section Levels

variable {k m : Nat} {s : String} {codes : List String}

theorem Moves.raise (h : Moves 0 k s) (j : Nat) : Moves j (j + k) s := by
  intro i d
  have hmoves := h i (d + j)
  rwa [Nat.add_zero, Nat.add_assoc] at hmoves

theorem exists_moves_join {f : Flags} (h : ∀ c ∈ codes, Levelled f c) :
    ∃ k, Moves 0 k (String.join codes) := by
  induction codes with
  | nil => exact ⟨0, moves_of_braceFree braceFree_empty 0⟩
  | cons c codes ih =>
    obtain ⟨⟨k, hk, _⟩, hcodes⟩ := List.forall_mem_cons.mp h
    obtain ⟨m, hm⟩ := ih hcodes
    rw [String.join_cons]
    exact ⟨k + m, hk.append (hm.raise k)⟩

end Levels

section Runs

variable {w : Workshop} {path : List NodeId} {id : NodeId} {n : Node} {frame : Frame} {f : Flags}
  {s : Step} {steps : List Step} {l l' : Ledger} {visits : List Visit} {code : String}
  {codes inner : List String} {sources : List NodeId} {scale : Vec3}

theorem balance_marker_append (n : Node) (f : Flags) (code : String) :
    balance (marker n f ++ code).toList = balance code.toList := by
  rw [String.toList_append, balance_append, balance_of_braceFree (braceFree_marker n f),
    Int.zero_add]

theorem surplus_of_not_clone {v : Visit} (h : ∀ sources scale, v.node.kind ≠ .clone sources scale) :
    surplus v = if v.flags.close = true ∨ v.code = "" then 0 else 1 := by
  unfold surplus
  split
  · rename_i hk
    exact absurd hk (h _ _)
  · rfl

theorem balance_framed (he : w.Enters path s n) (hp : w.plan s.node n s.flags = .framed frame)
    (himages : BraceFreeImages w.document) (inner : List String) :
    balance (frame.code inner).toList = surplus ⟨s.node, n, s.flags, inner, frame.code inner⟩ +
      (inner.map fun c => balance c.toList).sum := by
  by_cases hk : ∃ sources scale, n.kind = .clone sources scale
  · obtain ⟨sources, scale, hk⟩ := hk
    obtain ⟨hbefore, _, hends⟩ := ends_clone ((Surroundings.plan_of_clone _ _ hk).symm.trans hp)
    have hafter := hends.moves.balance
    have hsurplus : surplus ⟨s.node, n, s.flags, inner, frame.code inner⟩ =
        if s.flags.close then -1 else 0 := by
      simp only [surplus, hk]
    rw [hsurplus, balance_frame, hbefore, hafter, balance_of_braceFree braceFree_empty]
    cases s.flags.close with
    | false => simp
    | true => simp; omega
  · have hclone : ∀ sources scale, n.kind ≠ .clone sources scale := by
      intro sources scale hkind
      exact hk ⟨sources, scale, hkind⟩
    have hframe := encloses_of_plan hp hclone (himages s.node n · · · he.found)
    have hne : frame.code inner ≠ "" := by
      intro hempty
      have hbefore := (String.append_eq_empty_iff.mp (String.append_eq_empty_iff.mp hempty).1).1
      have hopens := hframe.opens.moves.balance
      rw [hbefore] at hopens
      exact absurd hopens (by decide)
    rw [surplus_of_not_clone hclone, hframe.balance]
    cases s.flags.close with
    | false => simp [hne]; omega
    | true => simp

/-- The braces that the codes of a run leave open are those that its nodes leave open by
themselves. -/
theorem balance_of_runs (h : w.Runs path steps l visits codes l')
    (himages : BraceFreeImages w.document) :
    (codes.map fun c => balance c.toList).sum = (visits.map surplus).sum := by
  induction h with
  | done => rfl
  | gone _ _ ih =>
    rw [List.map_cons, List.sum_cons, ih, balance_of_braceFree braceFree_empty, Int.zero_add]
  | @nothing _ s _ n _ _ _ _ _ hp _ ih =>
    have hclone : ∀ sources scale, n.kind ≠ .clone sources scale := by
      intro sources scale hk
      rw [Surroundings.plan_of_clone _ _ hk] at hp
      cases hp
    rw [List.map_cons, List.map_cons, List.sum_cons, List.sum_cons, ih, surplus_of_not_clone hclone,
      balance_of_braceFree braceFree_empty]
    simp
  | @meshed _ s _ n _ _ _ _ code _ _ hp ht _ ih =>
    have hclone : ∀ sources scale, n.kind ≠ .clone sources scale := by
      intro sources scale hk
      rw [Surroundings.plan_of_clone _ _ hk] at hp
      cases hp
    have hown : balance code.toList = surplus ⟨s.node, n, s.flags, [], code⟩ := by
      rw [surplus_of_not_clone hclone]
      rcases tessellated_code ht with rfl | rfl
      · simp [balance]
      · have hmesh : Moves 0 (if s.flags.close then 0 else 1) (w.meshReference n s.flags) :=
          fun k d => ⟨0, tracks_meshReference n s.flags k d⟩
        rw [hmesh.balance]
        cases s.flags.close <;> simp [meshReference_ne_empty]
    rw [List.map_cons, List.map_cons, List.sum_cons, List.sum_cons, ih, balance_marker_append, hown]
  | framed he hp _ _ ihin ih =>
    rw [List.map_cons, List.map_cons, List.map_append, List.sum_cons, List.sum_cons,
      List.sum_append, ih, balance_marker_append, balance_framed he hp himages, ihin, Int.add_assoc]

/-- A clone that is left open leaves open what its sources do. One that is closed is told to be
balanced, so its sources have left one brace open for it. -/
theorem level_of_clone (hframe : w.clone n f sources scale = .framed frame)
    {g : Flags} (hinner : ∀ c ∈ inner, Levelled g c)
    (hclosed : f.close = true → balance (frame.code inner).toList = 0) :
    Levelled f (frame.code inner) := by
  obtain ⟨hbefore, hindented, hends⟩ := ends_clone hframe
  obtain ⟨k, hk⟩ := exists_moves_join hinner
  have hcode : frame.code inner = String.join inner ++ frame.after := by
    simp [Frame.code, hbefore, hindented]
  cases hc : f.close with
  | false =>
    have hafter : Moves k k frame.after := fun i d => ⟨0, tracks_clone_after hframe hc i (d + k)⟩
    rw [hcode]
    exact ⟨k, hk.append hafter, fun hclose => absurd (hc.symm.trans hclose) nofun⟩
  | true =>
    have hone : k = 1 := by
      have hsum := hclosed hc
      rw [hcode, String.toList_append, balance_append, hk.balance, hends.moves.balance, hc] at hsum
      simp at hsum
      omega
    subst hone
    rw [hcode]
    rw [hc] at hends
    exact ⟨0, hk.append hends.moves, fun _ => rfl⟩

/-- No code of a run closes more than it opens, and one that is told to close leaves nothing open,
if the closed clones in the run are balanced. -/
theorem levels_of_runs (h : w.Runs path steps l visits codes l')
    (himages : BraceFreeImages w.document)
    (hclones : ∀ v ∈ visits, IsClosed v) :
    List.Forall₂ (fun s c => Levelled s.flags c) steps codes := by
  have hempty : Moves 0 0 "" := moves_of_braceFree braceFree_empty 0
  induction h with
  | done => exact .nil
  | gone _ _ ih => exact .cons ⟨0, hempty, fun _ => rfl⟩ (ih hclones)
  | nothing _ _ _ ih =>
    obtain ⟨_, hrest⟩ := List.forall_mem_cons.mp hclones
    exact .cons ⟨0, hempty, fun _ => rfl⟩ (ih hrest)
  | @meshed _ s _ n _ _ _ _ _ _ _ hp ht _ ih =>
    obtain ⟨_, hrest⟩ := List.forall_mem_cons.mp hclones
    have hmarker := moves_of_braceFree (braceFree_marker n s.flags) 0
    refine .cons ?_ (ih hrest)
    rcases tessellated_code ht with rfl | rfl
    · exact ⟨0, hmarker.append hempty, fun _ => rfl⟩
    · have hmesh : Moves 0 (if s.flags.close then 0 else 1) (w.meshReference n s.flags) :=
        fun k d => ⟨0, tracks_meshReference n s.flags k d⟩
      exact ⟨_, hmarker.append hmesh, fun hclose => if_pos hclose⟩
  | @framed _ s _ n frame _ _ _ _ _ inner _ he hp _ _ ihin ih =>
    obtain ⟨hfirst, hmore⟩ := List.forall_mem_cons.mp hclones
    obtain ⟨hwithin, hrest⟩ := List.forall_mem_append.mp hmore
    have hmarker := moves_of_braceFree (braceFree_marker n s.flags) 0
    have hinner := of_mem_codes (ihin hwithin) (Surroundings.flags_of_mem_steps he.found hp)
    refine .cons ?_ (ih hrest)
    by_cases hk : ∃ sources scale, n.kind = .clone sources scale
    · have hclosed := hfirst hk
      obtain ⟨sources, scale, hk⟩ := hk
      obtain ⟨k, hmoves, hzero⟩ :=
        level_of_clone ((Surroundings.plan_of_clone _ _ hk).symm.trans hp)
        hinner fun hclose => (hclosed hclose).closed (.inl rfl)
      exact ⟨k, hmarker.append hmoves, hzero⟩
    · have hclone : ∀ sources scale, n.kind ≠ .clone sources scale := by
        intro sources scale hkind
        exact hk ⟨sources, scale, hkind⟩
      have hclosed : ∀ c ∈ inner, Moves 0 0 c := by
        intro c hc
        obtain ⟨k, hmoves, hzero⟩ := hinner c hc
        rwa [hzero (s.flags.close_inside hclone)] at hmoves
      exact ⟨_, hmarker.append (moves_frame_of_closed he hp hclone himages hclosed),
        fun hclose => if_pos hclose⟩

/-- A clone closes one brace of those that the nodes inside of it leave open. It is one closed
statement exactly when there is one, if the clones that are closed inside of it are closed
statements themselves. -/
theorem balanced_clone_iff (hn : w.document.get? id = some n) (hk : n.kind = .clone sources scale)
    (himages : BraceFreeImages w.document)
    (h : (w.compile id Flags.all).run.run l = (.ok code, l')) :
    ∃ clone inside, w.Runs [] [⟨id, Flags.all⟩] l (clone :: inside) [code] l' ∧ clone.node = n ∧
      balance code.toList = (inside.map surplus).sum - 1 ∧
      ((∀ v ∈ inside, IsClosed v) →
        (Balanced true code.toList ↔ (inside.map surplus).sum = 1)) := by
  obtain ⟨visits, hr⟩ := compile_eq_ok_iff.mp h
  have hwhole := hr
  have hbalance := balance_of_runs hr himages
  cases hr with
  | gone hnone _ => exact absurd (hn.symm.trans hnone) nofun
  | nothing he hp _ =>
    cases hn.symm.trans he.found
    rw [Surroundings.plan_of_clone _ _ hk] at hp
    cases hp
  | meshed he hp _ _ =>
    cases hn.symm.trans he.found
    rw [Surroundings.plan_of_clone _ _ hk] at hp
    cases hp
  | @framed _ _ _ m frame _ _ _ inside _ inner _ he hp hin hdone =>
    cases hdone
    cases hn.symm.trans he.found
    have hframe := (Surroundings.plan_of_clone _ _ hk).symm.trans hp
    have hown : surplus ⟨id, n, Flags.all, inner, frame.code inner⟩ = -1 := by
      simp only [surplus, hk]
      rfl
    have hsum : balance (marker n Flags.all ++ frame.code inner).toList =
        (inside.map surplus).sum - 1 := by
      simp only [List.map_cons, List.map_nil, List.sum_cons, List.sum_nil, List.append_nil, hown]
        at hbalance
      omega
    rw [List.append_nil] at hwhole
    refine ⟨_, inside, hwhole, rfl, hsum, fun hclosed => ⟨fun hbalanced => ?_, fun hone => ?_⟩⟩
    · have hzero := hsum.symm.trans (hbalanced.closed (.inl rfl))
      omega
    · have hinner := of_mem_codes (levels_of_runs hin himages hclosed)
        (Surroundings.flags_of_mem_steps he.found hp)
      obtain ⟨k, hmoves, hzero⟩ := level_of_clone hframe hinner fun _ => by
        rw [balance_marker_append] at hsum
        omega
      have hmarker := moves_of_braceFree (braceFree_marker n Flags.all) 0
      rw [hzero rfl] at hmoves
      have hwhole : Moves 0 0 _ := hmarker.append hmoves
      exact balanced_of_moves hwhole

section Samples

/-- A box, and a source that is gone. -/
theorem balanced_clone_of_one :
    let w := Workshop.standard [Node.ofKind "Box" (.box 1 1 1),
      Node.ofKind "Copy" (.clone [⟨1, 0⟩, ⟨9, 0⟩] ⟨1, 1, 1⟩)]
    ∃ code l', (w.compile ⟨2, 0⟩ Flags.all).run.run Ledger.empty = (.ok code, l') ∧
      Balanced true code.toList := by
  intro w
  have himages : BraceFreeImages w.document := .of_foldl_add (by simp [Node.ofKind])
  have hrun : ∃ visits code l', w.Runs [] [⟨⟨2, 0⟩, Flags.all⟩] Ledger.empty visits [code] l' ∧
      (∀ v ∈ visits.tail, IsClosed v) ∧ (visits.tail.map surplus).sum = 1 := by
    refine ⟨_, _, _, .framed ⟨rfl, by simp, by decide⟩ rfl
      (.framed ⟨rfl, by decide, by decide⟩ rfl .done .done) .done, ?_, by decide⟩
    refine List.forall_mem_singleton.mpr ?_
    rintro ⟨_, _, hk⟩
    cases hk
  obtain ⟨visits, code, l', hr, hclosed, hone⟩ := hrun
  have h := compile_eq_ok_iff.mpr ⟨visits, hr⟩
  obtain ⟨_, inside, hr', _, _, hiff⟩ := balanced_clone_iff rfl rfl himages h
  rw [(hr.unique hr').1] at hclosed hone
  exact ⟨code, l', h, (hiff hclosed).mpr hone⟩

/-- Of two boxes one is left open, and a clone of nothing closes what is not open. -/
theorem unbalanced_clones :
    let box := Node.ofKind "Box" (.box 1 1 1)
    let both := Workshop.standard [box, box, Node.ofKind "Both" (.clone [⟨1, 0⟩, ⟨2, 0⟩] ⟨1, 1, 1⟩)]
    let none := Workshop.standard [Node.ofKind "None" (.clone [] ⟨1, 1, 1⟩)]
    (∃ code l', (both.compile ⟨3, 0⟩ Flags.all).run.run Ledger.empty = (.ok code, l') ∧
      balance code.toList = 1 ∧ ¬Balanced true code.toList) ∧
    ∃ code l', (none.compile ⟨1, 0⟩ Flags.all).run.run Ledger.empty = (.ok code, l') ∧
      balance code.toList = -1 ∧ ¬Balanced true code.toList := by
  intro box both none
  have hfree : BraceFreeImages both.document ∧ BraceFreeImages none.document :=
    ⟨.of_foldl_add (by simp [box, Node.ofKind]), .of_foldl_add (by simp [Node.ofKind])⟩
  have hruns : (∃ visits code l', both.Runs [] [⟨⟨3, 0⟩, Flags.all⟩] Ledger.empty visits [code] l' ∧
        (visits.map surplus).sum = 1) ∧
      ∃ visits code l', none.Runs [] [⟨⟨1, 0⟩, Flags.all⟩] Ledger.empty visits [code] l' ∧
        (visits.map surplus).sum = -1 :=
    ⟨⟨_, _, _, .framed ⟨rfl, by simp, by decide⟩ rfl (.framed ⟨rfl, by decide, by decide⟩ rfl .done
      (.framed ⟨rfl, by decide, by decide⟩ rfl .done .done)) .done, by decide⟩,
      _, _, _, .framed ⟨rfl, by simp, by decide⟩ rfl .done .done, by decide⟩
  obtain ⟨⟨visits, code, l', hr, hone⟩, visits', code', l'', hr', hminus⟩ := hruns
  have hcode : balance code.toList = 1 := by simpa [hone] using balance_of_runs hr hfree.1
  have hcode' : balance code'.toList = -1 := by simpa [hminus] using balance_of_runs hr' hfree.2
  have hnot : ∀ text : String, balance text.toList ≠ 0 → ¬Balanced true text.toList :=
    fun text hne hbalanced => hne (hbalanced.closed (.inl rfl))
  exact ⟨⟨code, l', compile_eq_ok_iff.mpr ⟨visits, hr⟩, hcode, hnot code (by simp [hcode])⟩,
    code', l'', compile_eq_ok_iff.mpr ⟨visits', hr'⟩, hcode', hnot code' (by simp [hcode'])⟩

end Samples

end Runs

end RayScene.Braces
