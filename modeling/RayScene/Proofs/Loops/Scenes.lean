import RayScene.Proofs.Compilation.References
import RayScene.Proofs.Compilation.Requests
import RayScene.Proofs.Documents.Repair
import RayScene.Proofs.Loops.Frames
set_option autoImplicit false

namespace RayScene

namespace Document

def hasPolarLoop (d : Document) (v : NodeId × Node) : Bool :=
  match v.2.kind with
  | .array ⟨base, .polar p⟩ => d.hasLoops ⟨base, .polar p⟩
  | _ => false

def hasOrthoLoops (d : Document) (v : NodeId × Node) : Bool :=
  match v.2.kind with
  | .array ⟨base, .ortho o⟩ => d.hasLoops ⟨base, .ortho o⟩
  | _ => false

end Document

namespace Loops

open Sdl Sdl.Workshop Check

def HashFreeImages (d : Document) : Prop :=
  d.ImageFiles fun file => '#' ∉ file.toList

section Words

variable {s : Surroundings} {id : NodeId} {n : Node} {f : Flags} {d : Document}

theorem nested_word (d : Document) (n : Node) : Nested (word d n) := by
  unfold word arrayWord
  split
  · split
    · split <;> decide
    · decide
  · decide

theorem count_true_word (d : Document) (v : NodeId × Node) : (word d v.2).count true =
    (if d.hasPolarLoop v then 1 else 0) + 3 * if d.hasOrthoLoops v then 1 else 0 := by
  unfold word arrayWord Document.hasPolarLoop Document.hasOrthoLoops
  cases v.2.kind with
  | array a =>
    obtain ⟨base, layout⟩ := a
    cases layout with
    | polar p => cases h : d.hasLoops ⟨base, .polar p⟩ <;> simp [h]
    | ortho o => cases h : d.hasLoops ⟨base, .ortho o⟩ <;> simp [h]
    | other t => cases h : d.hasLoops ⟨base, .other t⟩ <;> simp [h]
  | _ => rfl

theorem word_eq_nil_of_plan {p : Plan} (hp : s.plan id n f = p) (hne : ∀ frame, p ≠ .framed frame) :
    word s.document n = [] := by
  unfold word
  cases hk : n.kind with
  | array a =>
    cases hl : s.document.hasLoops a with
    | true =>
      obtain ⟨base, loop, _, heq, -⟩ := Surroundings.array_of_hasLoops (n := n) (f := f) hl
      have harray := Surroundings.plan_of_array (s := s) id f hk
      exact absurd (hp.symm.trans (harray.trans heq)) (hne _)
    | false => simp [arrayWord, hl]
  | _ => rfl

end Words

section Runs

variable {w : Workshop} {path : List NodeId} {steps : List Step} {l l' : Ledger}
  {visits : List Visit} {codes : List String}

def begun (d : Document) (visits : List Visit) : Nat :=
  (visits.map fun v => (word d v.node).count true).sum

theorem begun_append (d : Document) (first more : List Visit) :
    begun d (first ++ more) = begun d first + begun d more := by
  simp [begun]

theorem marks_frame {frame : Frame} {inner : List String} {m own : List Bool}
    (hframe : Directs frame own) (hinner : Marks (String.join inner) m) :
    Marks (frame.code inner) (m ++ own) := by
  have hsteps := join_of_indent (P := (Marks · m)) (fun _ => .indent) hinner frame.indented
  exact (hframe.before.skip hsteps).append hframe.after

theorem marks_of_runs (h : w.Runs path steps l visits codes l')
    (himages : HashFreeImages w.document) :
    ∃ m, Marks (String.join codes) m ∧ Nested m ∧ m.count true = begun w.document visits := by
  induction h with
  | done => exact ⟨[], fun _ => rfl, by decide, rfl⟩
  | gone _ _ ih =>
    obtain ⟨m, hm, hnested, hcount⟩ := ih
    exact ⟨m, by rwa [String.join_cons, String.empty_append], hnested, hcount⟩
  | nothing _ hp _ ih =>
    obtain ⟨m, hm, hnested, hcount⟩ := ih
    refine ⟨m, by rwa [String.join_cons, String.empty_append], hnested, ?_⟩
    simpa [begun, word_eq_nil_of_plan hp nofun] using hcount
  | @meshed _ s _ n _ _ _ _ code _ _ hp ht _ ih =>
    obtain ⟨m, hm, hnested, hcount⟩ := ih
    have hcode : Marks code [] := by
      rcases tessellated_code ht with rfl | rfl
      · exact .literal fun _ => rfl
      · exact .of_not_mem (unmarked_meshReference n s.flags).hashFree
    refine ⟨m, ?_, hnested, ?_⟩
    · rw [String.join_cons]
      exact ((marks_marker n s.flags).skip hcode).skip hm
    · simpa [begun, word_eq_nil_of_plan hp nofun] using hcount
  | @framed _ s _ n frame _ _ _ within visits inner _ he hp _ _ ihin ih =>
    obtain ⟨m, hm, hnested, hcount⟩ := ih
    obtain ⟨m', hm', hnested', hcount'⟩ := ihin
    have hframe := directs_of_plan hp (himages s.node n · · · he.found)
    refine ⟨m' ++ word w.document n ++ m, ?_, ?_, ?_⟩
    · rw [String.join_cons]
      exact ((marks_marker n s.flags).skip (marks_frame hframe hm')).append hm
    · exact (hnested'.append (nested_word w.document n)).append hnested
    · rw [List.count_append, List.count_append, hcount, hcount', ← List.singleton_append,
        begun_append, begun_append]
      simp only [begun, List.map_cons, List.map_nil, List.sum_singleton]
      omega

theorem begun_eq_countP (d : Document) (visits : List Visit) : begun d visits =
    (visits.map Visit.met).countP d.hasPolarLoop +
      3 * (visits.map Visit.met).countP d.hasOrthoLoops := by
  induction visits with
  | nil => rfl
  | cons v visits ih =>
    rw [← List.singleton_append, begun_append, ih, List.singleton_append, List.map_cons,
      List.countP_cons, List.countP_cons]
    have hword := count_true_word d v.met
    change (word d v.node).count true = _ at hword
    simp only [begun, List.map_cons, List.map_nil, List.sum_singleton, hword]
    omega

end Runs

section Assembly

variable {c : Context} {d : Document} {text : String} {m : List Bool}

theorem occurrences_while (h : Marks text m) : occurrences text "#while" = m.count true := by
  rw [← h.toList_eq, count_true_marks]
  rfl

theorem occurrences_end (h : Marks text m) : occurrences text "#end" = m.count false := by
  rw [← h.toList_eq, count_false_marks]
  rfl

end Assembly

/-- In every code that is compiled no loop ends before it begins, all loops end, and there are as
many as the arrays that were met ask for. So the scene of an export passes the check. -/
theorem loops_of_compile :
    (∀ (w : Workshop) (id : NodeId) (f : Flags) (l l' : Ledger) (code : String),
      (w.compile id f).run.run l = (.ok code, l') → HashFreeImages w.document →
      (∀ a, a <+: code.toList →
        Text.count "#end".toList a ≤ Text.count "#while".toList a) ∧
      occurrences code "#end" = occurrences code "#while" ∧
      ∃ visits, w.Runs [] [⟨id, f⟩] l visits [code] l' ∧
        w.document.Unrolls [id] (visits.map Visit.met) ∧
        occurrences code "#while" = (visits.map Visit.met).countP w.document.hasPolarLoop +
          3 * (visits.map Visit.met).countP w.document.hasOrthoLoops) ∧
    ∀ (t : Tessellator) (earlier requests : List Request) (c : Context) (d : Document)
      (a : Artifacts), assemble t earlier c d = (.ok a, requests) → HashFreeImages d →
      HashFreeSettings c.settings → (loopDirectives a.scene).passed = true := by
  constructor
  · intro w id f l l' code h himages
    obtain ⟨visits, hr⟩ := compile_eq_ok_iff.mp h
    obtain ⟨m, hm, hnested, hcount⟩ := marks_of_runs hr himages
    rw [String.join_cons, String.join_nil, String.append_empty] at hm
    refine ⟨fun a ha => ?_, ?_, visits, hr, hr.unrolls, ?_⟩
    · have hpre : marks a <+: m := hm.toList_eq ▸ prefix_marks ha
      have hle := hnested.count_le hpre
      rwa [count_false_marks, count_true_marks] at hle
    · rw [occurrences_end hm, occurrences_while hm, hnested.2]
    · rw [occurrences_while hm, hcount, begun_eq_countP]
  · intro t earlier requests c d a h himages hsettings
    obtain ⟨visits, codes, l', hr, hscene, _⟩ := runs_of_assemble h
    obtain ⟨m, hm, hnested, _⟩ := marks_of_runs hr (Document.ImageFiles.repaired himages)
    have hwhole := (marks_sceneHead hsettings (!l'.meshes.isEmpty)).skip hm
    rw [← hscene] at hwhole
    unfold loopDirectives
    dsimp only
    rw [occurrences_while hwhole, occurrences_end hwhole, if_pos hnested.2.symm]

/-- A grid of a wheel of boxes has a loop inside of three. -/
theorem loops_of_grid :
    let box := Node.ofKind "Box" (.box 1 1 1)
    let wheel := Node.ofKind "Wheel"
      (.array ⟨⟨1, 0⟩, .polar ⟨⟨0, 0, 0⟩, ⟨0, 0, 1⟩, ⟨0, 0, 0⟩, 4, 90⟩⟩)
    let grid := Node.ofKind "Grid" (.array ⟨⟨2, 0⟩, .ortho default⟩)
    let w := Workshop.standard [box, wheel, grid]
    (∃ code l', (w.compile ⟨3, 0⟩ Flags.all).run.run Ledger.empty = (.ok code, l') ∧
      occurrences code "#end" = 4 ∧ occurrences code "#while" = 4) ∧
    ∃ a requests, assemble w.tessellator [] w.context w.document = (.ok a, requests) ∧
      (loopDirectives a.scene).passed = true := by
  intro box wheel grid w
  obtain ⟨hcompile, hassemble⟩ := loops_of_compile
  have himages : HashFreeImages w.document :=
    .of_foldl_add (by simp [box, wheel, grid, Node.ofKind])
  constructor
  · have hrun : ∃ visits code l', w.Runs [] [⟨⟨3, 0⟩, Flags.all⟩] Ledger.empty visits [code] l' ∧
        visits.map Visit.met = [(⟨3, 0⟩, grid), (⟨2, 0⟩, wheel), (⟨1, 0⟩, box)] :=
      ⟨_, _, _, .framed ⟨rfl, by simp, by decide⟩ rfl (.framed ⟨rfl, by decide, by decide⟩ rfl
        (.framed ⟨rfl, by decide, by decide⟩ rfl .done .done) .done) .done, rfl⟩
    obtain ⟨visits, code, l', hr, hmet⟩ := hrun
    have h := compile_eq_ok_iff.mpr ⟨visits, hr⟩
    obtain ⟨_, hends, visits', hr', _, hcount⟩ := hcompile w _ _ _ _ code h himages
    rw [(hr'.unique hr).1, hmet] at hcount
    exact ⟨code, l', h, hends.trans hcount, hcount⟩
  · have hroots : w.document.roots = [⟨1, 0⟩, ⟨2, 0⟩, ⟨3, 0⟩] :=
      Document.roots_of_parents_eq_nil (by decide)
    have hsteps : (assembling w.tessellator w.context w.document).rootSteps =
        [⟨⟨1, 0⟩, Flags.all⟩, ⟨⟨2, 0⟩, Flags.all⟩, ⟨⟨3, 0⟩, Flags.all⟩] := by
      rw [rootSteps_assembling, hroots]
      rfl
    have hrun : ∃ visits codes l', (assembling w.tessellator w.context w.document).Runs []
        [⟨⟨1, 0⟩, Flags.all⟩, ⟨⟨2, 0⟩, Flags.all⟩, ⟨⟨3, 0⟩, Flags.all⟩] ⟨[], MeshFile.empty⟩
        visits codes l' :=
      ⟨_, _, _, .framed ⟨rfl, by simp, by decide⟩ rfl .done
        (.framed ⟨rfl, by simp, by decide⟩ rfl (.framed ⟨rfl, by decide, by decide⟩ rfl .done .done)
          (.framed ⟨rfl, by simp, by decide⟩ rfl (.framed ⟨rfl, by decide, by decide⟩ rfl
            (.framed ⟨rfl, by decide, by decide⟩ rfl .done .done) .done) .done))⟩
    rw [← hsteps] at hrun
    obtain ⟨visits, codes, l', hr⟩ := hrun
    obtain ⟨a, h⟩ := assemble_of_runs hr
    exact ⟨a, _, h, hassemble _ _ _ _ _ a h himages ⟨by decide, by decide, nofun⟩⟩

end Loops

end RayScene
