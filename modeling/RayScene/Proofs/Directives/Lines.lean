import Mathlib.Data.List.DropRight
import RayScene.Proofs.Fragments.Frames
import RayScene.Proofs.Text.Search
set_option autoImplicit false

namespace RayScene.Directives

open Sdl

def words : List String := ["#declare", "#local", "#while", "#end"]

/-- On its line every directive has tabs before it and nothing else. -/
def Led (t : List Char) : Prop :=
  ∀ before after, ∀ word ∈ words, t = before ++ (word.toList ++ after) →
    ∀ c ∈ before.rtakeWhile (· ≠ '\n'), c = '\t'

def step (clean : Bool) (c : Char) : Option Bool :=
  if c = '\n' then some true
  else if c = '\t' then some clean
  else if c = '#' then if clean then some false else none
  else some false

def scan (clean : Bool) (t : List Char) : Option Bool := t.foldlM step clean

/-- Text in which every directive is led, and that leaves a clean line behind it, if there was one
before it. The line before and the one behind need only be clean if they are said to be. -/
def Leads (k m : Bool) (s : String) : Prop :=
  ∀ a, (k = true → a = true) → ∃ b, scan a s.toList = some b ∧ (m = true → b = true)

def Swallows (s : String) : Prop :=
  ∃ before d after, ∃ word ∈ words, d ≠ '\n' ∧ d ≠ '\t' ∧
    s.toList = before ++ d :: (word.toList ++ after)

section Scanning

variable {a b : Bool} {c : Char} {t u tabs : List Char}

theorem scan_cons (a : Bool) (c : Char) (t : List Char) :
    scan a (c :: t) = (step a c).bind (scan · t) := rfl

theorem scan_append (a : Bool) (t u : List Char) :
    scan a (t ++ u) = (scan a t).bind (scan · u) := by
  unfold scan
  exact List.foldlM_append

theorem scan_append_eq_some :
    scan a (t ++ u) = some b ↔ ∃ m, scan a t = some m ∧ scan m u = some b := by
  rw [scan_append, Option.bind_eq_some_iff]

theorem step_cases (h : step a c = some b) :
    (c = '\n' ∧ b = true) ∨ (c = '\t' ∧ b = a) ∨ (c = '#' ∧ a = true ∧ b = false) ∨ b = false := by
  by_cases hn : c = '\n'
  · subst hn
    cases h
    exact .inl ⟨rfl, rfl⟩
  by_cases ht : c = '\t'
  · subst ht
    cases h
    exact .inr (.inl ⟨rfl, rfl⟩)
  by_cases hh : c = '#'
  · subst hh
    cases a with
    | false => cases h
    | true =>
      cases h
      exact .inr (.inr (.inl ⟨rfl, rfl, rfl⟩))
  · simp only [step, hn, ht, hh, if_false, Option.some.injEq] at h
    exact .inr (.inr (.inr h.symm))

theorem clean_of_hash (h : scan a ('#' :: t) = some b) : a = true := by
  cases a with
  | true => rfl
  | false => cases h

theorem tabs_of_scan (h : scan true t = some true) : ∀ c ∈ t.rtakeWhile (· ≠ '\n'), c = '\t' := by
  induction t using List.reverseRecOn with
  | nil => nofun
  | append_singleton t c ih =>
    obtain ⟨m, hm, hc⟩ := scan_append_eq_some.mp h
    obtain ⟨r, hstep, hdone⟩ := Option.bind_eq_some_iff.mp hc
    cases hdone
    rcases step_cases hstep with ⟨rfl, _⟩ | ⟨rfl, rfl⟩ | ⟨_, _, hfalse⟩ | hfalse
    · rw [List.rtakeWhile_concat_neg _ _ _ (by decide)]
      nofun
    · rw [List.rtakeWhile_concat_pos _ _ _ (by decide)]
      intro d hd
      rcases List.mem_append.mp hd with hd | hd
      · exact ih hm d hd
      · exact List.mem_singleton.mp hd
    · cases hfalse
    · cases hfalse

theorem led_of_scan (h : scan true t = some b) : Led t := by
  intro before after word hword ht
  obtain ⟨rest, hrest⟩ : ∃ rest, word.toList = '#' :: rest := by
    simp only [words, List.mem_cons, List.not_mem_nil, or_false] at hword
    rcases hword with rfl | rfl | rfl | rfl <;> exact ⟨_, rfl⟩
  rw [ht, hrest, List.cons_append] at h
  obtain ⟨m, hm, hafter⟩ := scan_append_eq_some.mp h
  rw [clean_of_hash hafter] at hm
  exact tabs_of_scan hm

theorem scan_of_hash_not_mem (h : '#' ∉ t) (a : Bool) : ∃ b, scan a t = some b := by
  induction t generalizing a with
  | nil => exact ⟨a, rfl⟩
  | cons c t ih =>
    obtain ⟨hc, hrest⟩ := List.ne_and_not_mem_of_not_mem_cons h
    have hstep : ∃ m, step a c = some m := by
      unfold step
      rw [if_neg hc.symm]
      split
      · exact ⟨_, rfl⟩
      split <;> exact ⟨_, rfl⟩
    obtain ⟨m, hm⟩ := hstep
    obtain ⟨b, hb⟩ := ih hrest m
    exact ⟨b, by rw [scan_cons, hm, Option.bind_some, hb]⟩

theorem scan_of_tabs (h : ∀ c ∈ tabs, c = '\t') (a : Bool) : scan a tabs = some a := by
  induction tabs with
  | nil => rfl
  | cons c tabs ih =>
    obtain ⟨rfl, hrest⟩ := List.forall_mem_cons.mp h
    exact ih hrest

theorem scan_substitute (h : ∀ c ∈ tabs, c = '\t') (a : Bool) (t : List Char) :
    scan a (Text.substitute '\n' ('\n' :: tabs) t) = scan a t := by
  induction t generalizing a with
  | nil => rfl
  | cons c t ih =>
    by_cases hc : c = '\n'
    · subst hc
      rw [Text.substitute_cons_self, List.cons_append, scan_cons, scan_cons]
      congr 1
      funext m
      rw [scan_append, scan_of_tabs h, Option.bind_some, ih]
    · rw [Text.substitute_cons_ne hc, scan_cons, scan_cons]
      congr 1
      funext m
      exact ih m

end Scanning

section Leading

variable {k m j : Bool} {s t : String} {pieces : List String}

theorem Leads.literal {cs : List Char}
    (h : ([true, k].all fun a => (scan a cs).any fun b => !m || b) = true) :
    Leads k m (String.ofList cs) := by
  intro a ha
  rw [String.toList_ofList]
  have hmem : a ∈ [true, k] := by cases a <;> cases k <;> simp_all
  have hscan := List.all_eq_true.mp h a hmem
  cases hb : scan a cs with
  | none => simp [hb] at hscan
  | some b =>
    rw [hb, Option.any_some] at hscan
    exact ⟨b, rfl, by cases b <;> simp_all⟩

theorem Leads.append (hs : Leads k m s) (ht : Leads m j t) : Leads k j (s ++ t) := by
  intro a ha
  obtain ⟨r, hr, hclean⟩ := hs a ha
  obtain ⟨b, hb, hdone⟩ := ht r hclean
  rw [String.toList_append]
  exact ⟨b, scan_append_eq_some.mpr ⟨r, hr, hb⟩, hdone⟩

/-- What is led wherever it stands is led on a clean line. -/
theorem Leads.anywhere (h : Leads false m s) : Leads k m s := fun a _ => h a nofun

theorem Leads.forget (h : Leads k m s) : Leads k false s := by
  intro a ha
  obtain ⟨b, hb, _⟩ := h a ha
  exact ⟨b, hb, nofun⟩

theorem Leads.of_hashFree (h : HashFree s) : Leads k false s := by
  intro a _
  obtain ⟨b, hb⟩ := scan_of_hash_not_mem h a
  exact ⟨b, hb, nofun⟩

theorem Leads.of_quiet (h : Quiet s) : Leads k false s := .of_hashFree h.hashFree

theorem Leads.skip (hs : Quiet s) (ht : Leads false m t) : Leads k m (s ++ t) :=
  (Leads.of_quiet hs).append ht

theorem Leads.endsLine (h : Leads k false s) (hends : EndsLine s) : Leads k true s := by
  intro a ha
  obtain ⟨b, hb, _⟩ := h a ha
  obtain ⟨init, hinit⟩ := List.getLast?_eq_some_iff.mp hends
  rw [hinit] at hb
  obtain ⟨m, _, hline⟩ := scan_append_eq_some.mp hb
  cases hline
  exact ⟨true, hinit ▸ hb, fun _ => rfl⟩

theorem Leads.lined (h : HashFree s) (hlined : Lined s) : Leads true true s := by
  rcases hlined with rfl | hends
  · exact .literal rfl
  · exact (Leads.of_hashFree h).endsLine hends

theorem leads_join (h : ∀ s ∈ pieces, Leads false false s) :
    Leads false false (String.join pieces) :=
  Text.join_of_append (.literal rfl) (fun _ _ => .append) h

theorem Leads.indent (h : Leads k m s) : Leads k m (indent s) := by
  intro a ha
  unfold Sdl.indent shift
  rw [String.toList_ofList, scan_substitute (by simp)]
  exact h a ha

theorem Leads.led (h : Leads true m s) : Led s.toList := by
  obtain ⟨b, hb, _⟩ := h true fun _ => rfl
  exact led_of_scan hb

end Leading

section Swallowing

variable {s t : String} {pieces : List String}

theorem Swallows.not_led (h : Swallows s) : ¬Led s.toList := by
  obtain ⟨before, d, after, word, hword, hline, htab, hs⟩ := h
  intro hled
  have hbehind : s.toList = (before ++ [d]) ++ (word.toList ++ after) := by simp [hs]
  refine htab (hled _ _ word hword hbehind d ?_)
  rw [List.rtakeWhile_concat_pos _ _ _ (by simp [hline])]
  exact List.mem_append_right _ (List.mem_singleton_self d)

theorem Swallows.append_left (s : String) (h : Swallows t) : Swallows (s ++ t) := by
  obtain ⟨before, d, after, word, hword, hline, htab, ht⟩ := h
  exact ⟨s.toList ++ before, d, after, word, hword, hline, htab, by simp [ht]⟩

theorem Swallows.append_right (t : String) (h : Swallows s) : Swallows (s ++ t) := by
  obtain ⟨before, d, after, word, hword, hline, htab, hs⟩ := h
  exact ⟨before, d, after ++ t.toList, word, hword, hline, htab, by simp [hs]⟩

theorem swallows_join (hmem : s ∈ pieces) (h : Swallows s) : Swallows (String.join pieces) := by
  induction pieces with
  | nil => cases hmem
  | cons t pieces ih =>
    rw [String.join_cons]
    rcases List.mem_cons.mp hmem with rfl | hmem
    · exact h.append_right _
    · exact (ih hmem).append_left t

theorem newline_not_mem_of_mem_words {word : String} (h : word ∈ words) : '\n' ∉ word.toList := by
  simp only [words, List.mem_cons, List.not_mem_nil, or_false] at h
  rcases h with rfl | rfl | rfl | rfl <;> decide

theorem Swallows.indent (h : Swallows s) : Swallows (indent s) := by
  obtain ⟨before, d, after, word, hword, hline, htab, hs⟩ := h
  have hindent : (Sdl.indent s).toList = Text.substitute '\n' ['\n', '\t'] before ++
      d :: (word.toList ++ Text.substitute '\n' ['\n', '\t'] after) := by
    unfold Sdl.indent shift
    rw [String.toList_ofList, hs, Text.substitute_append, Text.substitute_cons_ne hline,
      Text.substitute_append, Text.substitute_of_not_mem _ (newline_not_mem_of_mem_words hword)]
  exact ⟨_, d, _, word, hword, hline, htab, hindent⟩

theorem getLast?_indent {d : Char} (hs : s.toList.getLast? = some d) (hline : d ≠ '\n') :
    (Sdl.indent s).toList.getLast? = some d := by
  obtain ⟨init, hinit⟩ := List.getLast?_eq_some_iff.mp hs
  unfold Sdl.indent shift
  rw [String.toList_ofList, hinit, Text.substitute_append, Text.substitute_cons_ne hline]
  exact List.getLast?_concat

/-- A directive at the beginning of a text is swallowed by the last line of the text before it. -/
theorem swallows_append {d : Char} {word : String} {after : List Char} (hword : word ∈ words)
    (hs : s.toList.getLast? = some d) (hline : d ≠ '\n') (htab : d ≠ '\t')
    (ht : t.toList = word.toList ++ after) :
    Swallows (s ++ t) := by
  obtain ⟨init, hinit⟩ := List.getLast?_eq_some_iff.mp hs
  exact ⟨init, d, after, word, hword, hline, htab, by simp [hinit, ht]⟩

end Swallowing

end RayScene.Directives
