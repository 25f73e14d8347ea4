import Mathlib.Data.List.Count
import RayScene.Check.Verdict
import RayScene.Proofs.Text.Lines
/-!
Texts whose braces can be told without looking at comments. A scan stops at a brace that closes
nothing, and at any brace with two slashes before it on its line.
-/
set_option autoImplicit false

namespace RayScene.Braces

/-- The slashes since the last line end, and the braces that are open. -/
structure Place where
  slashes : Nat
  depth : Nat
  deriving DecidableEq, Repr

def step (p : Place) (c : Char) : Option Place :=
  if c = '\n' then some ⟨0, p.depth⟩
  else if c = '/' then some ⟨p.slashes + 1, p.depth⟩
  else if c = '{' then
    if p.slashes < 2 then some ⟨p.slashes, p.depth + 1⟩ else none
  else if c = '}' then
    if p.slashes < 2 then
      match p.depth with
      | 0 => none
      | d + 1 => some ⟨p.slashes, d⟩
    else none
  else some p

def isPlainChar (c : Char) : Bool := c != '\n' && c != '/' && c != '{' && c != '}'

def scan (p : Place) (t : List Char) : Option Place := t.foldlM step p

def balance (t : List Char) : Int := t.count '{' - t.count '}'

def braceFree (t : List Char) : Prop := '{' ∉ t ∧ '}' ∉ t

section Scanning

variable {p q : Place} {c : Char} {a b t : List Char}

theorem scan_cons (p : Place) (c : Char) (t : List Char) :
    scan p (c :: t) = (step p c).bind (scan · t) := rfl

theorem scan_append (p : Place) (a b : List Char) :
    scan p (a ++ b) = (scan p a).bind (scan · b) := by
  unfold scan
  exact List.foldlM_append

theorem scan_cons_eq_some : scan p (c :: t) = some q ↔
    ∃ r, step p c = some r ∧ scan r t = some q := by
  rw [scan_cons, Option.bind_eq_some_iff]

theorem scan_append_eq_some : scan p (a ++ b) = some q ↔
    ∃ r, scan p a = some r ∧ scan r b = some q := by
  rw [scan_append, Option.bind_eq_some_iff]

theorem isPlainChar_iff : isPlainChar c = true ↔ c ≠ '\n' ∧ c ≠ '/' ∧ c ≠ '{' ∧ c ≠ '}' := by
  simp [isPlainChar, and_assoc]

theorem step_newline (p : Place) : step p '\n' = some ⟨0, p.depth⟩ := rfl

theorem step_of_plain (h : isPlainChar c = true) : step p c = some p := by
  obtain ⟨hn, hs, ho, hc⟩ := isPlainChar_iff.mp h
  simp [step, hn, hs, ho, hc]

theorem step_cases (h : step p c = some q) :
    (c = '\n' ∧ q = ⟨0, p.depth⟩) ∨ (c = '/' ∧ q = ⟨p.slashes + 1, p.depth⟩) ∨
      (c = '{' ∧ p.slashes < 2 ∧ q = ⟨p.slashes, p.depth + 1⟩) ∨
      (c = '}' ∧ p.slashes < 2 ∧ p = ⟨q.slashes, q.depth + 1⟩) ∨
      (isPlainChar c = true ∧ q = p) := by
  by_cases hn : c = '\n'
  · subst hn
    cases h
    exact .inl ⟨rfl, rfl⟩
  by_cases hs : c = '/'
  · subst hs
    cases h
    exact .inr (.inl ⟨rfl, rfl⟩)
  by_cases ho : c = '{'
  · subst ho
    by_cases hslash : p.slashes < 2
    · simp [step, hslash] at h
      exact .inr (.inr (.inl ⟨rfl, hslash, h.symm⟩))
    · simp [step, hslash] at h
  by_cases hc : c = '}'
  · subst hc
    obtain ⟨slashes, depth⟩ := p
    by_cases hslash : slashes < 2
    · cases depth with
      | zero => simp [step, hslash] at h
      | succ depth =>
        simp [step, hslash] at h
        exact .inr (.inr (.inr (.inl ⟨rfl, hslash, by rw [← h]⟩)))
    · simp [step, hslash] at h
  · have hplain := isPlainChar_iff.mpr ⟨hn, hs, ho, hc⟩
    rw [step_of_plain hplain] at h
    exact .inr (.inr (.inr (.inr ⟨hplain, (Option.some.inj h).symm⟩)))

theorem balance_of_plain (h : isPlainChar c = true) : balance [c] = 0 := by
  obtain ⟨_, _, ho, hc⟩ := isPlainChar_iff.mp h
  simp [balance, ho, hc]

theorem depth_of_step (h : step p c = some q) : (q.depth : Int) = p.depth + balance [c] := by
  rcases step_cases h with ⟨rfl, rfl⟩ | ⟨rfl, rfl⟩ | ⟨rfl, _, rfl⟩ | ⟨rfl, _, rfl⟩ | ⟨hc, rfl⟩
  · exact (Int.add_zero _).symm
  · exact (Int.add_zero _).symm
  · exact Int.natCast_succ p.depth
  · have hone : balance ['}'] = -1 := rfl
    simp only [hone, Int.natCast_add]
    omega
  · rw [balance_of_plain hc, Int.add_zero]

theorem balance_append (a b : List Char) : balance (a ++ b) = balance a + balance b := by
  simp only [balance, List.count_append]
  omega

theorem depth_of_scan (h : scan p t = some q) : (q.depth : Int) = p.depth + balance t := by
  induction t generalizing p with
  | nil =>
    cases h
    simp [balance]
  | cons c t ih =>
    obtain ⟨r, hc, ht⟩ := scan_cons_eq_some.mp h
    have hstep := depth_of_step hc
    have hrest := ih ht
    rw [← List.singleton_append, balance_append]
    omega

theorem balance_nonneg_of_prefix {s : Nat} (h : scan ⟨s, 0⟩ t = some q) (ha : a <+: t) :
    0 ≤ balance a := by
  obtain ⟨b, rfl⟩ := ha
  obtain ⟨r, hr, _⟩ := scan_append_eq_some.mp h
  have hdepth := depth_of_scan hr
  simp only at hdepth
  omega

theorem balance_of_braceFree (h : braceFree t) : balance t = 0 := by
  simp [balance, List.count_eq_zero_of_not_mem h.1, List.count_eq_zero_of_not_mem h.2]

theorem scan_of_braceFree (h : braceFree t) (p : Place) :
    ∃ s, scan p t = some ⟨s, p.depth⟩ := by
  induction t generalizing p with
  | nil => exact ⟨p.slashes, rfl⟩
  | cons c t ih =>
    obtain ⟨ho, ht₁⟩ := List.ne_and_not_mem_of_not_mem_cons h.1
    obtain ⟨hc, ht₂⟩ := List.ne_and_not_mem_of_not_mem_cons h.2
    have hrest : ∀ q : Place, ∃ s, scan q t = some ⟨s, q.depth⟩ := fun q => ih ⟨ht₁, ht₂⟩ q
    by_cases hn : c = '\n'
    · subst hn
      exact hrest ⟨0, p.depth⟩
    by_cases hs : c = '/'
    · subst hs
      exact hrest ⟨p.slashes + 1, p.depth⟩
    · rw [scan_cons, step_of_plain (isPlainChar_iff.mpr ⟨hn, hs, ho.symm, hc.symm⟩)]
      exact hrest p

theorem scan_of_plain (h : t.all isPlainChar = true) (p : Place) : scan p t = some p := by
  induction t with
  | nil => rfl
  | cons c t ih =>
    simp only [List.all_cons, Bool.and_eq_true] at h
    rw [scan_cons, step_of_plain h.1]
    exact ih h.2

theorem scan_substitute {lead : List Char} (hlead : lead.all isPlainChar = true) (p : Place)
    (t : List Char) : scan p (Text.substitute '\n' ('\n' :: lead) t) = scan p t := by
  induction t generalizing p with
  | nil => rfl
  | cons c t ih =>
    by_cases hc : c = '\n'
    · subst hc
      have hsub : Text.substitute '\n' ('\n' :: lead) ('\n' :: t) =
          '\n' :: (lead ++ Text.substitute '\n' ('\n' :: lead) t) := by
        simp [Text.substitute]
      rw [hsub, scan_cons, scan_cons, step_newline, Option.bind_some, Option.bind_some,
        scan_append, scan_of_plain hlead, Option.bind_some]
      exact ih _
    · have hsub : Text.substitute '\n' ('\n' :: lead) (c :: t) =
          c :: Text.substitute '\n' ('\n' :: lead) t := by
        simp [Text.substitute, hc]
      rw [hsub, scan_cons, scan_cons]
      congr 1
      funext q
      exact ih q

end Scanning

section Checking

open Check

variable {p q : Place} {d : Nat} {t line : List Char}

theorem depth_of_scan_comment (h : scan p t = some q) (hn : '\n' ∉ t) (hs : 2 ≤ p.slashes) :
    q.depth = p.depth := by
  induction t generalizing p with
  | nil =>
    cases h
    rfl
  | cons c t ih =>
    obtain ⟨hc, ht⟩ := List.ne_and_not_mem_of_not_mem_cons hn
    obtain ⟨r, hr, hrest⟩ := scan_cons_eq_some.mp h
    have hstep : r.depth = p.depth ∧ p.slashes ≤ r.slashes := by
      rcases step_cases hr with ⟨rfl, _⟩ | ⟨_, rfl⟩ | ⟨_, hlt, _⟩ | ⟨_, hlt, _⟩ | ⟨_, rfl⟩
      · exact absurd rfl hc
      · exact ⟨rfl, Nat.le_succ _⟩
      · exact absurd hs (Nat.not_le.mpr hlt)
      · exact absurd hs (Nat.not_le.mpr hlt)
      · exact ⟨rfl, Nat.le_refl _⟩
    rw [ih hrest ht (Nat.le_trans hs hstep.2), hstep.1]

theorem openBraces_of_scan (h : scan p t = some q) : openBraces p.depth t = some q.depth := by
  induction t generalizing p with
  | nil =>
    cases h
    rfl
  | cons c t ih =>
    obtain ⟨r, hr, hrest⟩ := scan_cons_eq_some.mp h
    have hopen := ih hrest
    rcases step_cases hr with ⟨rfl, rfl⟩ | ⟨rfl, rfl⟩ | ⟨rfl, _, rfl⟩ | ⟨rfl, _, rfl⟩ | ⟨hc, rfl⟩
    · simpa [openBraces] using hopen
    · simpa [openBraces] using hopen
    · simpa [openBraces] using hopen
    · simpa [openBraces] using hopen
    · obtain ⟨_, _, ho, hcl⟩ := isPlainChar_iff.mp hc
      simpa [openBraces, ho, hcl] using hopen

theorem openBraces_codeOf (h : scan p line = some q) (hn : '\n' ∉ line) :
    openBraces p.depth (codeOf line) = some q.depth := by
  unfold codeOf
  cases hcut : Text.cut? ['/', '/'] line with
  | none => exact openBraces_of_scan h
  | some parts =>
    obtain ⟨before, after⟩ := parts
    have hline := Text.eq_of_cut? hcut
    rw [hline, List.append_assoc] at h
    obtain ⟨r, hbefore, hrest⟩ := scan_append_eq_some.mp h
    have hcomment : scan ⟨r.slashes + 1 + 1, r.depth⟩ after = some q := hrest
    have hafter : '\n' ∉ after := by
      intro hmem
      exact hn (by simp [hline, hmem])
    rw [openBraces_of_scan hbefore, depth_of_scan_comment hcomment hafter (by simp)]

theorem scan_dropReturn (h : scan p line = some q) : scan p (Text.dropReturn line) = some q := by
  unfold Text.dropReturn
  split
  · rename_i hlast
    obtain ⟨init, hinit⟩ := List.getLast?_eq_some_iff.mp hlast
    rw [hinit] at h ⊢
    obtain ⟨r, hr, hreturn⟩ := scan_append_eq_some.mp h
    cases hreturn
    rw [List.dropLast_concat]
    exact hr
  · exact h

theorem newline_not_mem_dropReturn (h : '\n' ∉ line) : '\n' ∉ Text.dropReturn line := by
  unfold Text.dropReturn
  split
  · exact fun hmem => h (List.dropLast_subset _ hmem)
  · exact h

def ScansLines : Nat → List (List Char) → Nat → Prop
  | d, [], e => d = e
  | d, line :: lines, e => '\n' ∉ line ∧
      ∃ q, scan ⟨0, d⟩ line = some q ∧ ScansLines q.depth lines e

variable {e : Nat} {lines more : List (List Char)}

theorem scansLines_append : ScansLines d (lines ++ more) e ↔
    ∃ m, ScansLines d lines m ∧ ScansLines m more e := by
  induction lines generalizing d with
  | nil => simp [ScansLines]
  | cons line lines ih =>
    constructor
    · rintro ⟨hn, q, hq, hrest⟩
      obtain ⟨m, hlines, hmore⟩ := ih.mp hrest
      exact ⟨m, ⟨hn, q, hq, hlines⟩, hmore⟩
    · rintro ⟨m, ⟨hn, q, hq, hlines⟩, hmore⟩
      exact ⟨hn, q, hq, ih.mpr ⟨m, hlines, hmore⟩⟩

theorem scansLines_splitOn {x : List Char} {xs : List (List Char)} (h : scan p t = some q)
    (ht : Text.splitOn '\n' t = x :: xs) :
    '\n' ∉ x ∧ ∃ r, scan p x = some r ∧ ScansLines r.depth xs q.depth := by
  induction t generalizing p x xs with
  | nil =>
    cases h
    cases ht
    exact ⟨by simp, _, rfl, rfl⟩
  | cons c t ih =>
    obtain ⟨y, ys, hy⟩ := Text.exists_splitOn_eq_cons '\n' t
    obtain ⟨r, hr, hrest⟩ := scan_cons_eq_some.mp h
    obtain ⟨hn, m, hm, hlines⟩ := ih hrest hy
    by_cases hc : c = '\n'
    · subst hc
      rw [step_newline] at hr
      cases hr
      rw [Text.splitOn_cons_self, hy] at ht
      cases ht
      exact ⟨by simp, p, rfl, hn, m, hm, hlines⟩
    · rw [Text.splitOn_cons_ne hc hy] at ht
      cases ht
      refine ⟨by simp [Ne.symm hc, hn], m, ?_, hlines⟩
      exact scan_cons_eq_some.mpr ⟨r, hr, hm⟩

theorem scansLines_map_dropReturn (h : ScansLines d lines e) :
    ScansLines d (lines.map Text.dropReturn) e := by
  induction lines generalizing d with
  | nil => exact h
  | cons line lines ih =>
    obtain ⟨hn, q, hq, hrest⟩ := h
    exact ⟨newline_not_mem_dropReturn hn, q, scan_dropReturn hq, ih hrest⟩

theorem scansLines_lines (h : scan ⟨0, d⟩ t = some q) :
    ScansLines d (Text.lines t) q.depth := by
  obtain ⟨x, xs, ht⟩ := Text.exists_splitOn_eq_cons '\n' t
  obtain ⟨hn, r, hr, hrest⟩ := scansLines_splitOn h ht
  have hpieces : ScansLines d (Text.splitOn '\n' t) q.depth := ht ▸ ⟨hn, r, hr, hrest⟩
  obtain ⟨init, last, hsplit⟩ := Text.exists_splitOn_eq_append '\n' t
  rw [hsplit] at hpieces
  obtain ⟨m, hinit, hlast⟩ := scansLines_append.mp hpieces
  unfold Text.lines
  dsimp only
  rw [hsplit, List.dropLast_concat, List.getLast?_concat]
  apply scansLines_append.mpr
  refine ⟨m, scansLines_map_dropReturn hinit, ?_⟩
  cases last with
  | nil =>
    obtain ⟨_, _, hnil, hend⟩ := hlast
    cases hnil
    exact hend
  | cons c last => exact hlast

theorem braceResult_of_scansLines (h : ScansLines d lines 0) (number : Nat) :
    braceResult number d lines = .balanced := by
  induction lines generalizing d number with
  | nil => simp [braceResult, show d = 0 from h]
  | cons line lines ih =>
    obtain ⟨hn, q, hq, hrest⟩ := h
    have hopen : openBraces d (codeOf line) = some q.depth := openBraces_codeOf hq hn
    simp [braceResult, hopen, ih hrest]

/-- The check accepts every text that a scan leaves without an open brace. -/
theorem balancedBraces_of_scan {text : String} (h : scan ⟨0, 0⟩ text.toList = some q)
    (hq : q.depth = 0) : (balancedBraces text).passed = true := by
  have hlines := scansLines_lines h
  rw [hq] at hlines
  unfold balancedBraces braces
  rw [braceResult_of_scansLines hlines]

end Checking

end RayScene.Braces
