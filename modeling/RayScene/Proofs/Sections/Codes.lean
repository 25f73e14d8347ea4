import Mathlib.Data.List.Forall2
import RayScene.Proofs.Compilation.References
import RayScene.Proofs.Scenes.Markers
import RayScene.Proofs.Sections.Frames
set_option autoImplicit false

namespace RayScene

/-- A body without a tip, with nothing in it that only a mesh could show. -/
def Document.IsHollow (d : Document) (id : NodeId) (n : Node) : Prop :=
  n.kind = .body none ∧ d.supportsBody id = true

namespace Sections

open Sdl Sdl.Workshop

section Runs

variable {w : Workshop} {path : List NodeId} {s : Step} {steps : List Step} {l l' : Ledger}
  {visits : List Visit} {codes inner : List String} {code : String} {n : Node} {frame : Frame}

/-- No code at all, or a marker if labels are written and no other line that begins with a slash. -/
def Headed (w : Workshop) (s : Step) (code : String) : Prop :=
  (code = "" ∧ ∀ n, w.document.get? s.node = some n → w.plan s.node n s.flags = .nothing) ∨
    ∃ n rest, w.document.get? s.node = some n ∧ code = marker n s.flags ++ rest ∧ Tidy rest

theorem Headed.tidy (h : Headed w s code) (hlabel : s.flags.label = false) : Tidy code := by
  obtain ⟨rfl, _⟩ | ⟨n, rest, _, rfl, hrest⟩ := h
  · exact .empty
  · rw [marker, hlabel]
    exact Tidy.empty.append hrest

theorem Headed.head?_ne (h : Headed w s code) : code.toList.head? ≠ some '/' := by
  cases hlabel : s.flags.label with
  | false => exact (h.tidy hlabel).head?_ne
  | true =>
    obtain ⟨rfl, _⟩ | ⟨n, rest, _, rfl, _⟩ := h
    · exact Tidy.empty.head?_ne
    · rw [marker_of_label hlabel, String.append_assoc]
      exact head?_append_ne (by decide) _

theorem headed_of_mem (h : List.Forall₂ (Headed w) steps codes) (hcode : code ∈ codes) :
    ∃ t ∈ steps, Headed w t code := by
  induction h with
  | nil => cases hcode
  | cons ht _ ih =>
    rcases List.mem_cons.mp hcode with rfl | hcode
    · exact ⟨_, List.mem_cons_self, ht⟩
    · obtain ⟨t, hmem, hheaded⟩ := ih hcode
      exact ⟨t, List.mem_cons_of_mem _ hmem, hheaded⟩

theorem tidy_frame (hframe : Neat frame) (hinner : List.Forall₂ (Headed w) frame.steps inner) :
    Tidy (frame.code inner) := by
  have hsteps : Tidy (String.join (if frame.indented then inner.map indent else inner)) := by
    apply tidy_join
    intro c hc
    split at hc
    · obtain ⟨code, hcode, rfl⟩ := List.mem_map.mp hc
      obtain ⟨t, _, hheaded⟩ := headed_of_mem hinner hcode
      exact tidy_indent hheaded.head?_ne
    · rename_i hindented
      obtain ⟨t, ht, hheaded⟩ := headed_of_mem hinner hc
      exact hheaded.tidy (hframe.bare (by simpa using hindented) t ht)
  exact (hframe.before.append hsteps).append hframe.after

theorem forall₂_runs (h : w.Runs path steps l visits codes l') :
    List.Forall₂ (fun s code => ∃ l₀ own l₁, w.Runs path [s] l₀ own [code] l₁) steps codes := by
  induction steps generalizing l visits codes with
  | nil =>
    cases h
    exact .nil
  | cons s steps ih =>
    obtain ⟨l₁, first, code, later, others, hfirst, hrest, _, rfl⟩ := h.uncons
    exact .cons ⟨l, first, l₁, hfirst⟩ (ih hrest)

theorem headed_of_runs (h : w.Runs path steps l visits codes l') :
    List.Forall₂ (Headed w) steps codes := by
  induction h with
  | done => exact .nil
  | gone hn _ ih =>
    exact .cons (.inl ⟨rfl, fun n hsome => absurd (hn.symm.trans hsome) nofun⟩) ih
  | nothing he hp _ ih =>
    refine .cons (.inl ⟨rfl, fun n hsome => ?_⟩) ih
    cases he.found.symm.trans hsome
    exact hp
  | @meshed _ s _ n _ _ _ _ code _ he hp ht _ ih =>
    have hcode : Tidy code := by
      rcases tessellated_code ht with rfl | rfl
      · exact .empty
      · exact .of_unmarked (unmarked_meshReference n s.flags)
    exact .cons (.inr ⟨n, code, he.found, rfl, hcode⟩) ih
  | @framed _ s _ n frame _ _ _ _ _ inner _ he hp _ _ ihin ih =>
    have hcode := tidy_frame (neat_of_plan hp) ihin
    exact .cons (.inr ⟨n, frame.code inner, he.found, rfl, hcode⟩) ih

theorem Headed.begins {s : Step} {code : String} (h : Headed w s code) (hs : s.flags.label = true) :
    code = "" ∨ ∃ more, code = "\n//----- " ++ more := by
  obtain ⟨rfl, _⟩ | ⟨n, rest, _, rfl, _⟩ := h
  · exact .inl rfl
  · right
    rw [marker, if_pos hs]
    exact ⟨sanitize n.label ++ (" -----" ++ rest), by simp only [String.append_assoc]⟩

end Runs

section Nesting

variable {w : Workshop} {path : List NodeId} {s : Step} {steps : List Step} {l l' : Ledger}
  {visits : List Visit} {codes inner : List String} {code label text : String} {frame : Frame}
  {k : Nat}

def tabbed (k : Nat) (label : String) : String :=
  "\n" ++ (String.ofList (List.replicate k '\t') ++ markerLine label)

theorem contains_marker_tabbed {n : Node} {f : Flags} (hf : f.label = true) :
    contains (marker n f) (tabbed 0 n.label) = true := by
  rw [marker_of_label hf]
  exact contains_iff.mpr (by simp [tabbed])

theorem contains_indent_tabbed (h : contains text (tabbed k label) = true) :
    contains (indent text) (tabbed (k + 1) label) = true := by
  have hline : '\n' ∉ (String.ofList (List.replicate k '\t') ++ markerLine label).toList := by
    rw [String.toList_append, String.toList_ofList, List.mem_append]
    rintro (hmem | hmem)
    · exact absurd (List.eq_of_mem_replicate hmem) (by decide)
    · exact newline_not_mem_markerLine label hmem
  rw [contains_iff] at h ⊢
  have hpiece : ['\n', '\t'] ++ _ <:+: Text.substitute '\n' ['\n', '\t'] text.toList :=
    Text.infix_substitute_cons hline (by simpa [tabbed] using h)
  rw [indent, shift, String.toList_ofList]
  simpa [tabbed, List.replicate_succ] using hpiece

/-- Among the codes there is a marker for the label, behind tabs unless the steps have labels
themselves. -/
def Marked (steps : List Step) (codes : List String) (label : String) : Prop :=
  ∃ k, contains (String.join codes) (tabbed k label) = true ∧
    (k = 0 → ∃ t ∈ steps, t.flags.label = true)

theorem Marked.first (h : contains code (tabbed k label) = true)
    (hk : k = 0 → s.flags.label = true) : Marked (s :: steps) (code :: codes) label := by
  refine ⟨k, ?_, fun hzero => ⟨s, List.mem_cons_self, hk hzero⟩⟩
  rw [String.join_cons]
  exact contains_append_left _ h

theorem Marked.later (h : Marked steps codes label) (s : Step) (code : String) :
    Marked (s :: steps) (code :: codes) label := by
  obtain ⟨k, hcontains, hk⟩ := h
  refine ⟨k, ?_, fun hzero => ?_⟩
  · rw [String.join_cons]
    exact contains_append_right _ hcontains
  · obtain ⟨t, ht, hlabel⟩ := hk hzero
    exact ⟨t, List.mem_cons_of_mem _ ht, hlabel⟩

/-- A frame puts a tab in front of every marker, or has put none of them at the beginning of a
line. -/
theorem Marked.inside (h : Marked frame.steps inner label) (hframe : Neat frame) :
    ∃ k, 0 < k ∧ contains (frame.code inner) (tabbed k label) = true := by
  obtain ⟨k, hcontains, hk⟩ := h
  unfold Frame.code
  cases hindented : frame.indented with
  | true =>
    refine ⟨k + 1, Nat.succ_pos k, contains_append_left _ (contains_append_right _ ?_)⟩
    rw [if_pos rfl, join_map_indent]
    exact contains_indent_tabbed hcontains
  | false =>
    refine ⟨k, Nat.pos_of_ne_zero fun hzero => ?_,
      contains_append_left _ (contains_append_right _ hcontains)⟩
    obtain ⟨t, ht, hlabel⟩ := hk hzero
    exact absurd (hlabel.symm.trans (hframe.bare hindented t ht)) nofun

theorem isHollow_of_plan {s : Surroundings} {id : NodeId} {n : Node} {f : Flags}
    (hp : s.plan id n f = .nothing) : s.document.IsHollow id n := by
  by_cases hbody : ∃ tip, n.kind = .body tip
  · obtain ⟨tip, hk⟩ := hbody
    unfold Surroundings.plan at hp
    simp only [hk] at hp
    unfold Surroundings.body at hp
    split at hp
    · rename_i hsupports
      cases tip with
      | none => exact ⟨hk, hsupports⟩
      | some tip => cases hp
    · cases hp
  · exact absurd hp (Surroundings.plan_ne_nothing fun tip hk => hbody ⟨tip, hk⟩)

theorem marked_of_runs (h : w.Runs path steps l visits codes l') : ∀ v ∈ visits,
    v.flags.label = true → ¬w.document.IsHollow v.id v.node → Marked steps codes v.node.label := by
  induction h with
  | done => exact fun _ hv => absurd hv List.not_mem_nil
  | gone _ _ ih => exact fun v hv hlabel hsolid => (ih v hv hlabel hsolid).later _ _
  | nothing _ hp _ ih =>
    intro v hv hlabel hsolid
    rcases List.mem_cons.mp hv with rfl | hv
    · exact absurd (isHollow_of_plan hp) hsolid
    · exact (ih v hv hlabel hsolid).later _ _
  | meshed _ _ _ _ ih =>
    intro v hv hlabel hsolid
    rcases List.mem_cons.mp hv with rfl | hv
    · exact .first (contains_append_left _ (contains_marker_tabbed hlabel)) fun _ => hlabel
    · exact (ih v hv hlabel hsolid).later _ _
  | framed _ hp _ _ ihin ih =>
    intro v hv hlabel hsolid
    rcases List.mem_cons.mp hv with rfl | hv
    · exact .first (contains_append_left _ (contains_marker_tabbed hlabel)) fun _ => hlabel
    rcases List.mem_append.mp hv with hv | hv
    · obtain ⟨k, hpos, hcontains⟩ := (ihin v hv hlabel hsolid).inside (neat_of_plan hp)
      exact .first (contains_append_right _ hcontains) fun hzero => by omega
    · exact (ih v hv hlabel hsolid).later _ _

theorem tabbed_of_mem_tail {id : NodeId} {f : Flags} (h : w.Runs path [⟨id, f⟩] l visits [code] l')
    {v : Visit} (hv : v ∈ visits.tail) (hlabel : v.flags.label = true)
    (hsolid : ¬w.document.IsHollow v.id v.node) :
    ∃ k, 0 < k ∧ contains code (tabbed k v.node.label) = true := by
  cases h with
  | gone _ hdone =>
    cases hdone
    cases hv
  | nothing _ _ hdone =>
    cases hdone
    cases hv
  | meshed _ _ _ hdone =>
    cases hdone
    cases hv
  | framed _ hp hin hdone =>
    cases hdone
    rw [List.tail_cons, List.append_nil] at hv
    have hmarked := marked_of_runs hin v hv hlabel hsolid
    obtain ⟨k, hpos, hcontains⟩ := hmarked.inside (neat_of_plan hp)
    exact ⟨k, hpos, contains_append_right _ hcontains⟩

end Nesting

end Sections

end RayScene
