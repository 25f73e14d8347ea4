import RayScene.Check.Scan
import RayScene.Proofs.Surfaces.References
import RayScene.Proofs.Text.Search
/-!
What a scene cites: meshes by their identifiers, and the file of the meshes. Texts that are put
together cite what the one cites and then what the other cites, wherever no citation is cut in two.
-/
set_option autoImplicit false

namespace RayScene.Citations

open Sdl

inductive Citation where
  | mesh (ident : String)
  | file
  deriving DecidableEq, Repr

def objectWord : List Char := [' ', 't', 'c', 'e', 'j', 'b', 'o']

def fileWord : List Char := ['c', 'n', 'i', '.', 'h', 's', 'e', 'm', '_']

def mention (ident : List Char) : List Citation :=
  if Check.meshEnding.isSuffixOf ident then [.mesh (String.ofList ident)] else []

def named : List Char → List Citation
  | [] => []
  | c :: t => if c = ' ' then mention (t.takeWhile isIdentifierChar) else []

/-- What is cited at one character. The text before it is read backwards. -/
def citedAt (before : List Char) (c : Char) (after : List Char) : List Citation :=
  if c = '{' then if objectWord.isPrefixOf before then named after else []
  else if c = '\x22' then if fileWord.isPrefixOf before then [.file] else []
  else []

def cites (before : List Char) : List Char → List Citation
  | [] => []
  | c :: t => citedAt before c t ++ cites (c :: before) t

def differ : List Char → List Char → Bool
  | a :: as, b :: bs => a != b || differ as bs
  | _, _ => false

/-- No brace and no quote in the text ends a citation. What stands before it is read backwards, and
only as far as it is known. -/
def isSilent (before : List Char) : List Char → Bool
  | [] => true
  | c :: t => (c != '{' || differ objectWord before) && (c != '\x22' || differ fileWord before) &&
    isSilent (c :: before) t

/-- The text cites this, whatever stands before and behind it. -/
def Cites (s : String) (l : List Citation) : Prop :=
  ∀ before after, cites before (s.toList ++ after) = l ++ cites (s.toList.reverse ++ before) after

def Opens (s : String) : Prop :=
  ∀ before after, cites before (s.toList ++ after) =
    mention (after.takeWhile isIdentifierChar) ++ cites (s.toList.reverse ++ before) after

structure Clean (s : String) : Prop where
  object : contains s "object \x7b " = false
  file : contains s "_mesh.inc" = false

/-- The text goes on behind one that is not known, and cites this. -/
structure Resumes (s : String) (l : List Citation) : Prop where
  named_eq : ∀ after, named (s.toList ++ after) = []
  cites_eq : ∀ before after, ¬fileWord <+: before →
    cites before (s.toList ++ after) = l ++ cites (s.toList.reverse ++ before) after

section Putting

variable {s t : String} {l m : List Citation} {skipped : List Char} {c : Char}

theorem cites_cons_ne (hbrace : c ≠ '{') (hquote : c ≠ '\x22') (before text : List Char) :
    cites before (c :: text) = cites (c :: before) text := by
  rw [cites, citedAt, if_neg hbrace, if_neg hquote, List.nil_append]

theorem cites_append_of_not_mem (hbrace : '{' ∉ skipped) (hquote : '\x22' ∉ skipped)
    (before after : List Char) :
    cites before (skipped ++ after) = cites (skipped.reverse ++ before) after := by
  induction skipped generalizing before with
  | nil => rfl
  | cons c skipped ih =>
    obtain ⟨hb, hbrace⟩ := List.ne_and_not_mem_of_not_mem_cons hbrace
    obtain ⟨hq, hquote⟩ := List.ne_and_not_mem_of_not_mem_cons hquote
    rw [List.cons_append, cites_cons_ne hb.symm hq.symm, ih hbrace hquote, List.reverse_cons,
      List.append_assoc, List.singleton_append]

theorem Cites.of_not_mem (hbrace : '{' ∉ s.toList) (hquote : '\x22' ∉ s.toList) : Cites s [] :=
  cites_append_of_not_mem hbrace hquote

theorem Cites.literal {cs : List Char}
    (h : ∀ before after, cites before (cs ++ after) = l ++ cites (cs.reverse ++ before) after) :
    Cites (String.ofList cs) l := by
  unfold Cites
  rw [String.toList_ofList]
  exact h

theorem Cites.empty : Cites "" [] := .literal fun _ _ => rfl

theorem Cites.append (hs : Cites s l) (ht : Cites t m) : Cites (s ++ t) (l ++ m) := by
  intro before after
  rw [String.toList_append, List.append_assoc, hs, ht, List.reverse_append, List.append_assoc,
    List.append_assoc]

theorem Cites.skip (hs : Cites s []) (ht : Cites t l) : Cites (s ++ t) l := hs.append ht

theorem Cites.trail (hs : Cites s l) (ht : Cites t []) : Cites (s ++ t) l :=
  List.append_nil l ▸ hs.append ht

theorem Cites.ite {p : Prop} [Decidable p] (hs : Cites s l) (ht : Cites t l) :
    Cites (if p then s else t) l :=
  iteInduction (motive := (Cites · l)) (fun _ => hs) fun _ => ht

end Putting

section Silence

variable {a b before cs : List Char} {c : Char}

theorem not_prefix_of_differ (h : differ a b = true) (known : List Char) : ¬a <+: b ++ known := by
  induction a generalizing b with
  | nil => cases h
  | cons x a ih =>
    cases b with
    | nil => cases h
    | cons y b =>
      rw [List.cons_append, List.cons_prefix_cons]
      rintro ⟨rfl, hpre⟩
      rw [differ, bne_self_eq_false, Bool.false_or] at h
      exact ih h hpre

theorem citedAt_eq_nil (hbrace : c = '{' → ¬objectWord <+: before)
    (hquote : c = '\x22' → ¬fileWord <+: before) (after : List Char) :
    citedAt before c after = [] := by
  unfold citedAt
  split
  · rename_i hc
    rw [if_neg (by rw [List.isPrefixOf_iff_prefix]; exact hbrace hc)]
  split
  · rename_i hc
    rw [if_neg (by rw [List.isPrefixOf_iff_prefix]; exact hquote hc)]
  · rfl

theorem cites_of_isSilent (h : isSilent before cs = true) (known after : List Char) :
    cites (before ++ known) (cs ++ after) = cites (cs.reverse ++ (before ++ known)) after := by
  induction cs generalizing before with
  | nil => rfl
  | cons c cs ih =>
    simp only [isSilent, Bool.and_eq_true, Bool.or_eq_true, bne_iff_ne, ne_eq] at h
    obtain ⟨⟨hbrace, hquote⟩, hrest⟩ := h
    have hcited : citedAt (before ++ known) c (cs ++ after) = [] :=
      citedAt_eq_nil (fun hc => not_prefix_of_differ (hbrace.resolve_left (absurd hc)) known)
        (fun hc => not_prefix_of_differ (hquote.resolve_left (absurd hc)) known) _
    rw [List.cons_append, cites, hcited, List.nil_append, List.reverse_cons, List.append_assoc,
      List.singleton_append]
    exact ih hrest

theorem Cites.of_isSilent (h : isSilent [] cs = true) : Cites (String.ofList cs) [] :=
  .literal fun before after => cites_of_isSilent h before after

end Silence

section Lines

variable {s : String} {l : List Citation} {before before' lead : List Char}

/-- Two texts, read backwards, end in the same words. A word is within a line here. -/
def SameEnd (before before' : List Char) : Prop :=
  ∀ word, '\n' ∉ word → '\t' ∉ word → (word <+: before ↔ word <+: before')

theorem SameEnd.cons (h : SameEnd before before') (c : Char) :
    SameEnd (c :: before) (c :: before') := by
  intro word hline htab
  cases word with
  | nil => exact iff_of_true List.nil_prefix List.nil_prefix
  | cons d word =>
    rw [List.cons_prefix_cons, List.cons_prefix_cons,
      h word (List.not_mem_of_not_mem_cons hline) (List.not_mem_of_not_mem_cons htab)]

theorem sameEnd_newline (hlead : ∀ c ∈ lead, c = '\t') (before before' : List Char) :
    SameEnd ('\n' :: before) (('\n' :: lead).reverse ++ before') := by
  intro word hline htab
  cases word with
  | nil => exact iff_of_true List.nil_prefix List.nil_prefix
  | cons d word =>
    refine iff_of_false (fun h => hline ?_) fun h => ?_
    · rw [(List.cons_prefix_cons.mp h).1]
      exact List.mem_cons_self
    · rw [List.reverse_cons, List.append_assoc] at h
      cases hrev : lead.reverse with
      | nil =>
        rw [hrev] at h
        rw [(List.cons_prefix_cons.mp h).1] at hline
        exact hline List.mem_cons_self
      | cons e rest =>
        rw [hrev] at h
        have he : e = '\t' := hlead e (List.mem_reverse.mp (hrev ▸ List.mem_cons_self))
        rw [(List.cons_prefix_cons.mp h).1, he] at htab
        exact htab List.mem_cons_self

theorem SameEnd.isPrefixOf_eq (h : SameEnd before before') (word : List Char) (hline : '\n' ∉ word)
    (htab : '\t' ∉ word) : word.isPrefixOf before = word.isPrefixOf before' := by
  rw [Bool.eq_iff_iff, List.isPrefixOf_iff_prefix, List.isPrefixOf_iff_prefix]
  exact h word hline htab

theorem SameEnd.citedAt_eq (h : SameEnd before before') (c : Char) (after : List Char) :
    citedAt before c after = citedAt before' c after := by
  unfold citedAt
  rw [h.isPrefixOf_eq objectWord (by decide) (by decide),
    h.isPrefixOf_eq fileWord (by decide) (by decide)]

theorem SameEnd.cites_eq (h : SameEnd before before') (text : List Char) :
    cites before text = cites before' text := by
  induction text generalizing before before' with
  | nil => rfl
  | cons c text ih => rw [cites, cites, h.citedAt_eq, ih (h.cons c)]

theorem takeWhile_substitute (lead text after : List Char) :
    (Text.substitute '\n' ('\n' :: lead) text ++ after).takeWhile isIdentifierChar =
      (text ++ after).takeWhile isIdentifierChar := by
  induction text with
  | nil => rfl
  | cons c text ih =>
    by_cases hc : c = '\n'
    · subst hc
      rw [Text.substitute_cons_self]
      rfl
    · rw [Text.substitute_cons_ne hc, List.cons_append, List.cons_append, List.takeWhile_cons,
        List.takeWhile_cons, ih]

theorem named_substitute (lead text after : List Char) :
    named (Text.substitute '\n' ('\n' :: lead) text ++ after) = named (text ++ after) := by
  cases text with
  | nil => rfl
  | cons c text =>
    by_cases hc : c = '\n'
    · subst hc
      rw [Text.substitute_cons_self]
      rfl
    · rw [Text.substitute_cons_ne hc, List.cons_append, List.cons_append, named, named,
        takeWhile_substitute]

theorem sameEnd_substitute (hlead : ∀ c ∈ lead, c = '\t') (h : SameEnd before before')
    (text : List Char) :
    SameEnd (text.reverse ++ before)
      ((Text.substitute '\n' ('\n' :: lead) text).reverse ++ before') := by
  induction text generalizing before before' with
  | nil => exact h
  | cons c text ih =>
    rw [List.reverse_cons, List.append_assoc, List.singleton_append]
    by_cases hc : c = '\n'
    · rw [hc, Text.substitute_cons_self, List.reverse_append, List.append_assoc]
      exact ih (sameEnd_newline hlead before before')
    · rw [Text.substitute_cons_ne hc, List.reverse_cons, List.append_assoc, List.singleton_append]
      exact ih (h.cons c)

theorem cites_substitute (hlead : ∀ c ∈ lead, c = '\t') (h : SameEnd before before')
    (text after : List Char) :
    cites before' (Text.substitute '\n' ('\n' :: lead) text ++ after) =
      cites before (text ++ after) := by
  induction text generalizing before before' with
  | nil => exact (h.cites_eq after).symm
  | cons c text ih =>
    by_cases hc : c = '\n'
    · have hbreak {d : Char} (hline : d ≠ '\n') (htab : d ≠ '\t') : d ∉ '\n' :: lead := by
        rw [List.mem_cons, not_or]
        exact ⟨hline, fun hmem => htab (hlead d hmem)⟩
      rw [hc, Text.substitute_cons_self, List.append_assoc,
        cites_append_of_not_mem (hbreak (by decide) (by decide)) (hbreak (by decide) (by decide)),
        ih (sameEnd_newline hlead before before')]
      rfl
    · rw [Text.substitute_cons_ne hc, List.cons_append, List.cons_append, cites, cites,
        ih (h.cons c), ← h.citedAt_eq]
      unfold citedAt
      rw [named_substitute]

theorem Cites.shift (hlead : ∀ c ∈ lead, c = '\t') (h : Cites s l) : Cites (shift lead s) l := by
  intro before after
  have hsame : SameEnd before before := fun _ _ _ => Iff.rfl
  unfold Sdl.shift
  rw [String.toList_ofList, cites_substitute hlead hsame, h,
    (sameEnd_substitute hlead hsame s.toList).cites_eq]

theorem Cites.indent (h : Cites s l) : Cites (indent s) l := h.shift (by simp)

end Lines

section References

variable {s t ident : String} {cs : List Char}

theorem Opens.literal (h : ∀ before after, cites before (cs ++ after) =
    mention (after.takeWhile isIdentifierChar) ++ cites (cs.reverse ++ before) after) :
    Opens (String.ofList cs) := by
  unfold Opens
  rw [String.toList_ofList]
  exact h

theorem stops_literal {c : Char} (hc : isIdentifierChar c = false) (t : String)
    (after : List Char) : Stops ((String.ofList (c :: cs) ++ t).toList ++ after) := by
  intro d hd
  simp only [String.toList_append, String.toList_ofList, List.cons_append, List.head?_cons,
    Option.mem_def, Option.some.injEq] at hd
  exact hd ▸ hc

/-- The identifier of an object is cited if it ends like that of a mesh. -/
theorem Opens.reference (hs : Opens s) (hident : IsWord ident) (ht : Cites t [])
    (hends : ∀ after, Stops (t.toList ++ after)) :
    Cites (s ++ (ident ++ t)) (mention ident.toList) := by
  intro before after
  have hskip := cites_append_of_not_mem (hident.not_mem (c := '{') rfl)
    (hident.not_mem (c := '\x22') rfl)
  simp only [String.toList_append, List.append_assoc, List.reverse_append]
  rw [hs, takeWhile_word hident (hends after), hskip, ht, List.nil_append]

end References

section Texts

variable {s t x : String} {l : List Citation} {word a b known before after cs : List Char}
  {c d : Char}

theorem prefix_of_not_mem (hc : c ∉ word) (h : word <+: a ++ c :: before) : word <+: a := by
  rcases List.prefix_or_prefix_of_prefix h (List.prefix_append a (c :: before))
    with hpre | ⟨more, rfl⟩
  · exact hpre
  · cases more with
    | nil => rw [List.append_nil]
    | cons d more =>
      obtain ⟨rfl, _⟩ := List.cons_prefix_cons.mp ((List.prefix_append_right_inj a).mp h)
      exact absurd (by simp) hc

theorem exists_of_reverse_prefix (hc : c ∉ word) (h : word <+: a.reverse ++ c :: before) :
    ∃ first, a = first ++ word.reverse := by
  have hpre := prefix_of_not_mem hc h
  rw [← List.reverse_reverse word, List.reverse_prefix] at hpre
  obtain ⟨first, hfirst⟩ := hpre
  exact ⟨first, hfirst.symm⟩

theorem ne_of_not_contains {needle : String} (hx : contains x needle = false) (a b : List Char) :
    x.toList ≠ a ++ (needle.toList ++ b) := by
  intro h
  refine absurd (contains_iff.mpr ⟨a, b, ?_⟩) (Bool.not_eq_true _ ▸ hx)
  rw [h, List.append_assoc]

theorem Clean.not_object (hx : Clean x) (b : List Char) :
    x.toList ≠ a ++ (objectWord.reverse ++ '{' :: ' ' :: b) :=
  ne_of_not_contains hx.object a b

theorem Clean.not_file (hx : Clean x) (b : List Char) : x.toList ≠ a ++ (fileWord.reverse ++ b) :=
  ne_of_not_contains hx.file a b

theorem citedAt_clean (hx : Clean x) (hobject : c ∉ objectWord) (hfile : c ∉ fileWord)
    (hafter : named after = []) (h : x.toList = a ++ d :: b) :
    citedAt (a.reverse ++ c :: known) d (b ++ after) = [] := by
  by_cases hword : d = '{' ∧ objectWord <+: a.reverse ++ c :: known
  · obtain ⟨rfl, hword⟩ := hword
    obtain ⟨first, rfl⟩ := exists_of_reverse_prefix hobject hword
    rw [citedAt, if_pos rfl, if_pos (List.isPrefixOf_iff_prefix.mpr hword)]
    cases b with
    | nil => exact hafter
    | cons e b =>
      by_cases he : e = ' '
      · subst he
        rw [List.append_assoc] at h
        exact absurd h (hx.not_object b)
      · rw [List.cons_append, named, if_neg he]
  · refine citedAt_eq_nil (fun hd hpre => hword ⟨hd, hpre⟩) (fun hd hpre => ?_) _
    obtain ⟨first, rfl⟩ := exists_of_reverse_prefix hfile hpre
    rw [List.append_assoc] at h
    exact hx.not_file _ h

theorem cites_clean (hx : Clean x) (hobject : c ∉ objectWord) (hfile : c ∉ fileWord)
    (hafter : named after = []) (h : x.toList = a ++ b) :
    cites (a.reverse ++ c :: known) (b ++ after) =
      cites (b.reverse ++ (a.reverse ++ c :: known)) after := by
  induction b generalizing a with
  | nil => rfl
  | cons d b ih =>
    have hnext := ih (a := a ++ [d]) (by simp [h])
    rw [List.cons_append, cites, citedAt_clean hx hobject hfile hafter h]
    simpa using hnext

theorem not_file_of_clean (hx : Clean x) (hfile : c ∉ fileWord) :
    ¬fileWord <+: x.toList.reverse ++ c :: known := by
  intro hword
  obtain ⟨first, hfirst⟩ := exists_of_reverse_prefix hfile hword
  exact hx.not_file [] (by rw [hfirst, List.append_nil])

theorem Cites.around (hs : Cites s []) (hlast : s.toList.getLast? = some c)
    (hobject : c ∉ objectWord) (hfile : c ∉ fileWord) (hx : Clean x) (ht : Resumes t l) :
    Cites (s ++ (x ++ t)) l := by
  obtain ⟨front, hfront⟩ := List.getLast?_eq_some_iff.mp hlast
  intro before after
  have hlead : s.toList.reverse ++ before = c :: (front.reverse ++ before) := by simp [hfront]
  have hunknown : cites (c :: (front.reverse ++ before)) (x.toList ++ (t.toList ++ after)) =
      cites (x.toList.reverse ++ c :: (front.reverse ++ before)) (t.toList ++ after) :=
    cites_clean (a := []) hx hobject hfile (ht.named_eq after) (List.nil_append x.toList).symm
  simp only [String.toList_append, List.append_assoc, List.reverse_append]
  rw [hs, hlead, List.nil_append, hunknown, ht.cites_eq _ _ (not_file_of_clean hx hfile)]

theorem Cites.resumes (ht : Cites t l) (h : ∀ after, named (t.toList ++ after) = []) :
    Resumes t l :=
  ⟨h, fun before after _ => ht before after⟩

/-- A quote behind a text ends a citation only if the text ends like the name of the mesh file. -/
theorem resumes_quote (h : isSilent ['\x22'] cs = true) :
    Resumes (String.ofList ('\x22' :: cs)) [] := by
  constructor <;> rw [String.toList_ofList]
  · exact fun _ => rfl
  · intro before after hbefore
    have hcited : citedAt before '\x22' (cs ++ after) = [] :=
      citedAt_eq_nil (fun hc => absurd hc (by decide)) (fun _ => hbefore) _
    rw [List.cons_append, cites, hcited, List.reverse_cons, List.append_assoc]
    exact cites_of_isSilent h before after

theorem Resumes.append {m : List Citation} (hs : Resumes s l) (ht : Cites t m) :
    Resumes (s ++ t) (l ++ m) := by
  constructor
  · intro after
    rw [String.toList_append, List.append_assoc, hs.named_eq]
  · intro before after hbefore
    rw [String.toList_append, List.append_assoc, hs.cites_eq _ _ hbefore, ht, List.reverse_append,
      List.append_assoc, List.append_assoc]

end Texts

end RayScene.Citations
