import Mathlib.Data.List.Infix
import RayScene.Check.Verdict
import RayScene.Proofs.Text.Lines
/-!
What the check of braces says of any text. It goes through the lines with a counter of open braces
and stops early; its verdict is the one that counting the braces in the beginnings of the whole code
would give.
-/
set_option autoImplicit false

namespace RayScene.Braces

open Check Text

def isBrace (c : Char) : Bool := c = '{' || c = '}'

def lineCode : List Char → List Char
  | [] => []
  | c :: line => if ['/', '/'] <+: c :: line then [] else c :: lineCode line

def lineBraces (line : List Char) : List Char := (lineCode line).filter isBrace

def codeBraces (text : List Char) : List (List Char) := (splitOn '\n' text).map lineBraces

/-- No beginning has more braces that close than braces that open. -/
def Covered (t : List Char) : Prop := ∀ p, p <+: t → p.count '}' ≤ p.count '{'

instance (t : List Char) : Decidable (Covered t) :=
  decidable_of_iff (∀ p ∈ t.inits, p.count '}' ≤ p.count '{')
    (forall_congr' fun _ => imp_congr_left (List.mem_inits _ _))

/-- In the line with this number stands the first brace that closes nothing. -/
def FirstSurplus (lines : List (List Char)) (number : Nat) : Prop :=
  ∃ earlier front back later, lines = earlier ++ (front ++ '}' :: back) :: later ∧
    number = earlier.length + 1 ∧ Covered (earlier.flatten ++ front) ∧
      ¬Covered (earlier.flatten ++ (front ++ ['}']))

theorem Covered.of_prefix {p t : List Char} (h : Covered t) (hp : p <+: t) : Covered p :=
  fun q hq => h q (hq.trans hp)

section Surplus

variable {lines : List (List Char)} {m n : Nat}

theorem FirstSurplus.not_covered (h : FirstSurplus lines n) : ¬Covered lines.flatten := by
  obtain ⟨earlier, front, back, later, rfl, _, _, hnot⟩ := h
  refine fun hcovered => hnot (hcovered.of_prefix ⟨back ++ later.flatten, ?_⟩)
  simp

theorem FirstSurplus.le (h : FirstSurplus lines m) (h' : FirstSurplus lines n) : m ≤ n := by
  obtain ⟨earlier, front, back, later, hlines, rfl, hcovered, _⟩ := h
  obtain ⟨earlier', front', back', later', hlines', rfl, _, hnot⟩ := h'
  by_contra hlt
  have hfirst : earlier' ++ [front' ++ '}' :: back'] <+: lines := ⟨later', by simp [hlines']⟩
  have hwithin : earlier' ++ [front' ++ '}' :: back'] <+: earlier := by
    refine List.prefix_of_prefix_length_le hfirst ⟨_, hlines.symm⟩ ?_
    rw [List.length_append, List.length_singleton]
    omega
  obtain ⟨between, rfl⟩ := hwithin
  refine hnot (hcovered.of_prefix ⟨back' ++ (between.flatten ++ front), ?_⟩)
  simp

theorem FirstSurplus.unique (h : FirstSurplus lines m) (h' : FirstSurplus lines n) : m = n :=
  Nat.le_antisymm (h.le h') (h'.le h)

end Surplus

section Counting

variable {c : Char} {a b t : List Char} {d m : Nat}

theorem openBraces_open (d : Nat) (t : List Char) :
    openBraces d ('{' :: t) = openBraces (d + 1) t := rfl

theorem openBraces_close_zero (t : List Char) : openBraces 0 ('}' :: t) = none := rfl

theorem openBraces_close_succ (d : Nat) (t : List Char) :
    openBraces (d + 1) ('}' :: t) = openBraces d t := rfl

theorem openBraces_other (hc : isBrace c = false) (d : Nat) (t : List Char) :
    openBraces d (c :: t) = openBraces d t := by
  simp only [isBrace, Bool.or_eq_false_iff, decide_eq_false_iff_not] at hc
  simp only [openBraces, hc.1, hc.2, if_false]

theorem brace_cases (c : Char) : c = '{' ∨ c = '}' ∨ isBrace c = false := by
  by_cases hopen : c = '{'
  · exact .inl hopen
  by_cases hclose : c = '}'
  · exact .inr (.inl hclose)
  · exact .inr (.inr (by simp [isBrace, hopen, hclose]))

theorem openBraces_append (d : Nat) (a b : List Char) :
    openBraces d (a ++ b) = (openBraces d a).bind (openBraces · b) := by
  induction a generalizing d with
  | nil => rfl
  | cons c a ih =>
    rw [List.cons_append]
    rcases brace_cases c with rfl | rfl | hc
    · exact ih (d + 1)
    · cases d with
      | zero => rfl
      | succ d => exact ih d
    · rw [openBraces_other hc, openBraces_other hc, ih]

theorem openBraces_filter (d : Nat) (t : List Char) :
    openBraces d (t.filter isBrace) = openBraces d t := by
  induction t generalizing d with
  | nil => rfl
  | cons c t ih =>
    rcases brace_cases c with rfl | rfl | hc
    · exact ih (d + 1)
    · cases d with
      | zero => rfl
      | succ d => exact ih d
    · rw [List.filter_cons_of_neg (by simp [hc]), openBraces_other hc, ih]

/-- The counter comes to the end of a text when no beginning closes more than is open, and then it
has counted what is open. -/
theorem openBraces_eq_some_iff : openBraces d t = some m ↔
    (∀ p, p <+: t → p.count '}' ≤ d + p.count '{') ∧ m + t.count '}' = d + t.count '{' := by
  induction t generalizing d with
  | nil =>
    simp [openBraces, eq_comm]
  | cons c t ih =>
    have hbeginnings : ∀ P : List Char → Prop,
        (∀ p, p <+: c :: t → P p) ↔ P [] ∧ ∀ p, p <+: t → P (c :: p) := by
      intro P
      simp only [List.prefix_cons_iff]
      constructor
      · exact fun h => ⟨h [] (.inl rfl), fun p hp => h _ (.inr ⟨p, rfl, hp⟩)⟩
      · rintro ⟨hnil, hcons⟩ p (rfl | ⟨q, rfl, hq⟩)
        · exact hnil
        · exact hcons q hq
    rw [hbeginnings]
    rcases brace_cases c with rfl | rfl | hc
    · have hopen : ∀ q : List Char, ('{' :: q).count '{' = 1 + q.count '{' := by simp [Nat.add_comm]
      have hclose : ∀ q : List Char, ('{' :: q).count '}' = q.count '}' := by simp
      rw [openBraces_open, ih]
      simp [hopen, hclose, Nat.add_assoc]
    · have hopen : ∀ q : List Char, ('}' :: q).count '{' = q.count '{' := by simp
      have hclose : ∀ q : List Char, ('}' :: q).count '}' = q.count '}' + 1 := by simp
      cases d with
      | zero =>
        rw [openBraces_close_zero]
        refine iff_of_false nofun fun ⟨⟨_, hcons⟩, _⟩ => ?_
        exact absurd (hcons [] List.nil_prefix) (by simp)
      | succ d =>
        rw [openBraces_close_succ, ih]
        simp only [hopen, hclose, Nat.add_right_comm d 1, Nat.add_le_add_iff_right, ← Nat.add_assoc,
          Nat.add_right_cancel_iff]
        simp
    · obtain ⟨hopen, hclose⟩ : c ≠ '{' ∧ c ≠ '}' := by simpa [isBrace] using hc
      rw [openBraces_other hc, ih]
      simp [hopen, hclose]

theorem openBraces_zero_eq_some_iff :
    openBraces 0 t = some m ↔ Covered t ∧ m + t.count '}' = t.count '{' := by
  simp only [openBraces_eq_some_iff, Nat.zero_add, Covered]

theorem covered_iff : Covered t ↔ ∃ m, openBraces 0 t = some m := by
  constructor
  · intro h
    have htotal := h t List.prefix_rfl
    exact ⟨t.count '{' - t.count '}', openBraces_zero_eq_some_iff.mpr ⟨h, by omega⟩⟩
  · rintro ⟨m, h⟩
    exact (openBraces_zero_eq_some_iff.mp h).1

theorem exists_of_openBraces_eq_none (h : openBraces d t = none) :
    ∃ front back, t = front ++ '}' :: back ∧ openBraces d front = some 0 := by
  induction t generalizing d with
  | nil => cases h
  | cons c t ih =>
    rcases brace_cases c with rfl | rfl | hc
    · obtain ⟨front, back, rfl, hfront⟩ := ih h
      exact ⟨'{' :: front, back, rfl, hfront⟩
    · cases d with
      | zero => exact ⟨[], t, rfl, rfl⟩
      | succ d =>
        obtain ⟨front, back, rfl, hfront⟩ := ih h
        exact ⟨'}' :: front, back, rfl, hfront⟩
    · rw [openBraces_other hc] at h
      obtain ⟨front, back, rfl, hfront⟩ := ih h
      exact ⟨c :: front, back, rfl, by rw [openBraces_other hc, hfront]⟩

end Counting

section CodeLines

variable {c : Char} {line text : List Char} {lines : List (List Char)} {d m number : Nat}

theorem codeOf_eq_lineCode (line : List Char) : codeOf line = lineCode line := by
  unfold codeOf
  induction line with
  | nil => rfl
  | cons c line ih =>
    rw [lineCode, ← ih]
    by_cases hpre : ['/', '/'] <+: c :: line
    · rw [if_pos hpre, cut?, if_pos (List.isPrefixOf_iff_prefix.mpr hpre)]
    · rw [if_neg hpre, cut?, if_neg (mt List.isPrefixOf_iff_prefix.mp hpre)]
      cases cut? ['/', '/'] line <;> rfl

theorem openBraces_code (d : Nat) (line : List Char) :
    openBraces d (codeOf line) = openBraces d (lineBraces line) := by
  rw [codeOf_eq_lineCode, lineBraces, openBraces_filter]

theorem lineBraces_concat (hslash : c ≠ '/') (hbrace : isBrace c = false) (line : List Char) :
    lineBraces (line ++ [c]) = lineBraces line := by
  unfold lineBraces
  induction line with
  | nil =>
    have hshort : ¬['/', '/'] <+: [c] := fun hpre => absurd hpre.length_le (by simp)
    simp [lineCode, hshort, hbrace]
  | cons e line ih =>
    have hsame : ['/', '/'] <+: e :: line ++ [c] ↔ ['/', '/'] <+: e :: line := by
      rw [List.prefix_concat_iff]
      refine or_iff_right fun heq => hslash ?_
      have hlast := congrArg List.getLast? heq
      rw [List.getLast?_concat] at hlast
      exact (Option.some.inj hlast).symm
    rw [List.cons_append] at hsame ⊢
    rw [lineCode, lineCode]
    by_cases hpre : ['/', '/'] <+: e :: line
    · rw [if_pos hpre, if_pos (hsame.mpr hpre)]
    · rw [if_neg hpre, if_neg (mt hsame.mp hpre), List.filter_cons, List.filter_cons, ih]

theorem lineBraces_dropReturn (line : List Char) :
    lineBraces (dropReturn line) = lineBraces line := by
  unfold dropReturn
  split
  · rename_i hlast
    obtain ⟨init, rfl⟩ := List.getLast?_eq_some_iff.mp hlast
    rw [List.dropLast_concat, lineBraces_concat (by decide) rfl]
  · rfl

/-- The lines of a text have the braces of all its pieces between line ends, apart from an empty
piece at the end. -/
theorem exists_codeBraces_eq (text : List Char) :
    ∃ rest, codeBraces text = (Text.lines text).map lineBraces ++ rest ∧ rest.flatten = [] := by
  obtain ⟨init, last, hsplit⟩ := exists_splitOn_eq_append '\n' text
  have hinit : (init.map dropReturn).map lineBraces = init.map lineBraces := by
    simp [lineBraces_dropReturn]
  simp only [codeBraces, Text.lines, hsplit, List.dropLast_concat, List.getLast?_concat,
    List.map_append, hinit]
  by_cases hlast : last = []
  · exact ⟨[[]], by simp [hlast, lineBraces, lineCode], rfl⟩
  · exact ⟨[], by simp [hlast], rfl⟩

theorem braceResult_of_eq_some (h : openBraces d (lines.map lineBraces).flatten = some m)
    (number : Nat) : braceResult number d lines = if m = 0 then .balanced else .unclosed m := by
  induction lines generalizing d number with
  | nil =>
    cases h
    rfl
  | cons line lines ih =>
    rw [List.map_cons, List.flatten_cons, openBraces_append, Option.bind_eq_some_iff] at h
    obtain ⟨e, hline, hrest⟩ := h
    rw [braceResult, openBraces_code, hline]
    exact ih hrest (number + 1)

theorem exists_of_braceResult (h : openBraces d (lines.map lineBraces).flatten = none)
    (number : Nat) : ∃ earlier line later m, lines = earlier ++ line :: later ∧
      openBraces d (earlier.map lineBraces).flatten = some m ∧
      openBraces m (lineBraces line) = none ∧
      braceResult number d lines = .unmatched (earlier.length + number) := by
  induction lines generalizing d number with
  | nil => cases h
  | cons line lines ih =>
    rw [List.map_cons, List.flatten_cons, openBraces_append] at h
    rw [braceResult, openBraces_code]
    cases hline : openBraces d (lineBraces line) with
    | none => exact ⟨[], line, lines, d, rfl, rfl, hline, by simp⟩
    | some e =>
      rw [hline, Option.bind_some] at h
      obtain ⟨earlier, stop, later, m, rfl, hearlier, hstop, hresult⟩ := ih h (number + 1)
      refine ⟨line :: earlier, stop, later, m, rfl, ?_, hstop, ?_⟩
      · rw [List.map_cons, List.flatten_cons, openBraces_append, hline]
        exact hearlier
      · refine hresult.trans (congrArg BraceResult.unmatched ?_)
        rw [List.length_cons]
        omega

end CodeLines

theorem braces_of_covered {text : String} {m : Nat}
    (h : openBraces 0 (codeBraces text.toList).flatten = some m) :
    braces text = if m = 0 then .balanced else .unclosed m := by
  obtain ⟨rest, hlines, hrest⟩ := exists_codeBraces_eq text.toList
  rw [hlines, List.flatten_append, hrest, List.append_nil] at h
  exact braceResult_of_eq_some h 1

theorem exists_firstSurplus {text : String}
    (h : openBraces 0 (codeBraces text.toList).flatten = none) :
    ∃ number, FirstSurplus (codeBraces text.toList) number ∧ braces text = .unmatched number := by
  obtain ⟨rest, hlines, hrest⟩ := exists_codeBraces_eq text.toList
  rw [hlines, List.flatten_append, hrest, List.append_nil] at h
  obtain ⟨earlier, line, later, m, htext, hearlier, hline, hresult⟩ := exists_of_braceResult h 1
  obtain ⟨front, back, hsplit, hfront⟩ := exists_of_openBraces_eq_none hline
  have hbefore : openBraces 0 ((earlier.map lineBraces).flatten ++ front) = some 0 := by
    rw [openBraces_append, hearlier, Option.bind_some, hfront]
  refine ⟨earlier.length + 1, ⟨earlier.map lineBraces, front, back, later.map lineBraces ++ rest,
    ?_, ?_, ?_, ?_⟩, hresult⟩
  · rw [hlines, htext, List.map_append, List.map_cons, hsplit]
    simp
  · rw [List.length_map]
  · exact covered_iff.mpr ⟨0, hbefore⟩
  · rw [covered_iff, ← List.append_assoc, openBraces_append, hbefore]
    exact nofun

/-- The check accepts a text exactly when its code is balanced: no beginning of it has more braces
that close than braces that open, and the whole has as many. A brace that closes nothing is reported
with its line, the first of them if there are several; if there is none, it is reported how many
more braces open than close. -/
theorem balancedBraces_iff_covered (text : String) :
    let lines := codeBraces text.toList
    let opened := lines.flatten.count '{'
    let closed := lines.flatten.count '}'
    ((balancedBraces text).passed = true ↔ Covered lines.flatten ∧ opened = closed) ∧
      (¬Covered lines.flatten → ∃ number, FirstSurplus lines number) ∧
      (∀ number, FirstSurplus lines number →
        balancedBraces text = ⟨"balanced_braces", false,
          "unmatched '\x7d' on line " ++ toString number⟩) ∧
      (Covered lines.flatten → opened ≠ closed →
        balancedBraces text = ⟨"balanced_braces", false,
          toString (opened - closed) ++ " unclosed '\x7b'"⟩) := by
  intro lines opened closed
  cases hcount : openBraces 0 lines.flatten with
  | none =>
    obtain ⟨number, hfirst, hresult⟩ := exists_firstSurplus hcount
    have hnot := hfirst.not_covered
    have hverdict : balancedBraces text =
        ⟨"balanced_braces", false, "unmatched '\x7d' on line " ++ toString number⟩ := by
      rw [balancedBraces, hresult]
    rw [hverdict]
    refine ⟨iff_of_false nofun fun h => hnot h.1, fun _ => ⟨number, hfirst⟩, fun other hother => ?_,
      fun h => absurd h hnot⟩
    rw [hfirst.unique hother]
  | some m =>
    obtain ⟨hcovered, htotal⟩ := openBraces_zero_eq_some_iff.mp hcount
    have hresult := braces_of_covered hcount
    have hequal : opened = closed ↔ m = 0 := by omega
    have hnone : ∀ number, ¬FirstSurplus lines number := fun number hfirst =>
      hfirst.not_covered hcovered
    by_cases hm : m = 0
    · have hpassed : (balancedBraces text).passed = true := by
        rw [balancedBraces, hresult, if_pos hm]
      exact ⟨iff_of_true hpassed ⟨hcovered, hequal.mpr hm⟩, fun h => absurd hcovered h,
        fun number hfirst => absurd hfirst (hnone number), fun _ h => absurd (hequal.mpr hm) h⟩
    · have hdiff : opened - closed = m := by omega
      have hverdict : balancedBraces text =
          ⟨"balanced_braces", false, toString (opened - closed) ++ " unclosed '\x7b'"⟩ := by
        rw [balancedBraces, hresult, if_neg hm, hdiff]
      rw [hverdict]
      exact ⟨iff_of_false nofun fun h => hm (hequal.mp h.2), fun h => absurd hcovered h,
        fun number hfirst => absurd hfirst (hnone number), fun _ _ => rfl⟩

/-- One brace too many in the second line, where the first line has one more in its comment; and one
too few. -/
theorem verdicts_of_commented_braces :
    let surplus := "\x7b // \x7b\r\n\x7d \x7d \x7b"
    let lack := "\x7b // \x7d\n\x7b / \x7d"
    (¬Covered (codeBraces surplus.toList).flatten ∧
      (∃ number, FirstSurplus (codeBraces surplus.toList) number) ∧
      FirstSurplus (codeBraces surplus.toList) 2 ∧
      balancedBraces surplus = ⟨"balanced_braces", false, "unmatched '\x7d' on line 2"⟩) ∧
    Covered (codeBraces lack.toList).flatten ∧
      balancedBraces lack = ⟨"balanced_braces", false, "1 unclosed '\x7b'"⟩ := by
  intro surplus lack
  obtain ⟨_, hexists, hreport, _⟩ := balancedBraces_iff_covered surplus
  have hsurplus : ¬Covered (codeBraces surplus.toList).flatten := by decide
  have hfirst : FirstSurplus (codeBraces surplus.toList) 2 :=
    ⟨[['{']], ['}'], ['{'], [], by decide, rfl, by decide, by decide⟩
  have hlack : Covered (codeBraces lack.toList).flatten := by decide
  have hverdict := (balancedBraces_iff_covered lack).2.2.2 hlack (by decide)
  have hbraces : (codeBraces lack.toList).flatten = ['{', '{', '}'] := by decide
  rw [hbraces] at hverdict
  exact ⟨⟨hsurplus, hexists hsurplus, hfirst, hreport 2 hfirst⟩, hlack, hverdict⟩

end RayScene.Braces
