import RayScene.Check.Expectation
import RayScene.Proofs.Text.Pairs
/-!
Needles that are expected one behind the other. Each of them is taken at the first place behind the
one before it. No other choice leaves a longer rest of the text, so whenever there are places for
the needles, these are found.
-/
set_option autoImplicit false

namespace RayScene.Check

open Text

/-- The text consists of the needles in their order, of a text before the first one and of a text
behind each of them. -/
def InOrder (needles : List (List Char)) (text : List Char) : Prop :=
  ∃ (first : List Char) (gaps : List (List Char)), gaps.length = needles.length ∧
    text = first ++ (List.zipWith (· ++ ·) needles gaps).flatten

/-- The shortest beginning of the text in which the needles stand. -/
structure IsFront (needles : List (List Char)) (text front : List Char) : Prop where
  isPrefix : front <+: text
  inOrder : InOrder needles front
  shortest : ∀ other, other <+: text → InOrder needles other → front <+: other

variable {needle text before after front : List Char} {needles more : List (List Char)}
  {position : Nat} {f : Failure}

theorem inOrder_nil (text : List Char) : InOrder [] text := ⟨text, [], rfl, by simp⟩

theorem inOrder_cons_iff : InOrder (needle :: needles) text ↔
    ∃ before after, text = before ++ (needle ++ after) ∧ InOrder needles after := by
  constructor
  · rintro ⟨first, gaps, hlength, rfl⟩
    cases gaps with
    | nil => cases hlength
    | cons gap gaps =>
      refine ⟨first, gap ++ (List.zipWith (· ++ ·) needles gaps).flatten, ?_, gap, gaps,
        Nat.succ.inj hlength, rfl⟩
      simp
  · rintro ⟨before, _, rfl, gap, gaps, hlength, rfl⟩
    refine ⟨before, gap :: gaps, by simp [hlength], ?_⟩
    simp

theorem InOrder.append_left (h : InOrder needles text) (before : List Char) :
    InOrder needles (before ++ text) := by
  obtain ⟨first, gaps, hlength, rfl⟩ := h
  exact ⟨before ++ first, gaps, hlength, (List.append_assoc ..).symm⟩

theorem InOrder.append_right (h : InOrder needles text) (after : List Char) :
    InOrder needles (text ++ after) := by
  induction needles generalizing text with
  | nil => exact inOrder_nil _
  | cons needle needles ih =>
    obtain ⟨before, rest, rfl, hrest⟩ := inOrder_cons_iff.mp h
    exact inOrder_cons_iff.mpr ⟨before, rest ++ after, by simp, ih hrest⟩

theorem InOrder.of_append (h : InOrder (needles ++ more) text) : InOrder needles text := by
  induction needles generalizing text with
  | nil => exact inOrder_nil text
  | cons needle needles ih =>
    obtain ⟨before, after, rfl, hafter⟩ := inOrder_cons_iff.mp h
    exact inOrder_cons_iff.mpr ⟨before, after, rfl, ih hafter⟩

/-- What follows any place of a needle is an end of what follows the first one. -/
theorem suffix_of_cut? {x y : List Char}
    (h : cut? needle (x ++ (needle ++ y)) = some (before, after)) :
    y <:+ after := by
  induction x generalizing before with
  | nil =>
    rw [List.nil_append, cut?_append_self] at h
    cases h
    exact List.suffix_rfl
  | cons c x ih =>
    rw [List.cons_append] at h
    by_cases hpre : needle <+: c :: (x ++ (needle ++ y))
    · obtain ⟨rest, hrest⟩ := hpre
      rw [← hrest, cut?_append_self] at h
      cases h
      -- Both are ends of one text, and what is behind the first place is the longer one.
      have hlength := congrArg List.length hrest
      simp only [List.length_append, List.length_cons] at hlength
      have hy : y <:+ needle ++ after := hrest ▸ ⟨c :: (x ++ needle), by simp⟩
      exact List.suffix_of_suffix_length_le hy (List.suffix_append needle after) (by omega)
    · rw [cut?_cons_of_later hpre, Option.map_eq_some_iff] at h
      obtain ⟨⟨b, a⟩, hcut, heq⟩ := h
      cases heq
      exact ih hcut

/-- Whatever places there are for needles, there are some from the first place of the first needle
on. -/
theorem inOrder_cons_iff_of_cut? (h : cut? needle text = some (before, after)) :
    InOrder (needle :: needles) text ↔ InOrder needles after := by
  constructor
  · intro horder
    obtain ⟨x, y, rfl, hy⟩ := inOrder_cons_iff.mp horder
    obtain ⟨w, rfl⟩ := suffix_of_cut? h
    exact hy.append_left w
  · intro hafter
    rw [eq_of_cut? h, List.append_assoc]
    exact inOrder_cons_iff.mpr ⟨before, after, rfl, hafter⟩

theorem infix_of_inOrder_cons (h : InOrder (needle :: needles) text) : needle <:+: text := by
  obtain ⟨before, after, rfl, _⟩ := inOrder_cons_iff.mp h
  exact ⟨before, after, List.append_assoc ..⟩

theorem expectOrder_eq_ok_iff :
    expectOrder position text needles = .ok () ↔ InOrder needles text := by
  induction needles generalizing position text with
  | nil => exact iff_of_true rfl (inOrder_nil text)
  | cons needle needles ih =>
    rw [expectOrder]
    split
    · rename_i hnone
      exact iff_of_false nofun fun horder =>
        cut?_eq_none_iff.mp hnone (infix_of_inOrder_cons horder)
    · rename_i before after hsome
      rw [ih, inOrder_cons_iff_of_cut? hsome]

theorem IsFront.inOrder_text (h : IsFront needles text front) : InOrder needles text := by
  obtain ⟨rest, hrest⟩ := h.isPrefix
  rw [← hrest]
  exact h.inOrder.append_right rest

theorem IsFront.cons (h : cut? needle text = some (before, after))
    (hfront : IsFront needles after front) :
    IsFront (needle :: needles) text (before ++ (needle ++ front)) := by
  have htext : text = before ++ (needle ++ after) := by rw [eq_of_cut? h, List.append_assoc]
  refine ⟨?_, inOrder_cons_iff.mpr ⟨before, front, rfl, hfront.inOrder⟩, ?_⟩
  · rw [htext, List.prefix_append_right_inj, List.prefix_append_right_inj]
    exact hfront.isPrefix
  · intro other hother horder
    obtain ⟨x, y, rfl, hy⟩ := inOrder_cons_iff.mp horder
    obtain ⟨z, hz⟩ := hother
    have hwhole : text = x ++ (needle ++ (y ++ z)) := by rw [← hz]; simp
    obtain ⟨w, rfl⟩ := suffix_of_cut? (hwhole ▸ h)
    have hshort : front <+: w ++ y := hfront.shortest (w ++ y) ⟨z, by simp⟩ (hy.append_left w)
    have hsame : before ++ (needle ++ (w ++ y)) = x ++ (needle ++ y) := by
      have hends := htext.symm.trans hwhole
      simpa [← List.append_assoc] using hends
    rw [← hsame, List.prefix_append_right_inj, List.prefix_append_right_inj]
    exact hshort

/-- The needle that is not found is the first one for which no place is left, and it is missed
behind the shortest beginning of the text that has room for those before it. -/
theorem exists_front_of_error (h : expectOrder position text needles = .error f) :
    ∃ earlier needle later front, needles = earlier ++ needle :: later ∧
      f = .misplaced (String.ofList needle) (position + byteLength front) ∧
      IsFront earlier text front ∧
      ¬InOrder (earlier ++ [needle]) text := by
  induction needles generalizing position text with
  | nil => cases h
  | cons needle needles ih =>
    rw [expectOrder] at h
    split at h
    · rename_i hnone
      cases h
      refine ⟨[], needle, needles, [], rfl, rfl,
        ⟨List.nil_prefix, inOrder_nil [], fun _ _ _ => List.nil_prefix⟩, ?_⟩
      exact fun horder => cut?_eq_none_iff.mp hnone (infix_of_inOrder_cons horder)
    · rename_i before after hsome
      obtain ⟨earlier, missing, later, front, rfl, rfl, hfront, hnot⟩ := ih h
      refine ⟨needle :: earlier, missing, later, before ++ (needle ++ front), rfl, ?_,
        hfront.cons hsome, ?_⟩
      · simp only [byteLength_append, Nat.add_assoc]
      · rwa [List.cons_append, inOrder_cons_iff_of_cut? hsome]

theorem inOrder_take_iff {earlier later : List (List Char)} (hearlier : InOrder earlier text)
    (hnot : ¬InOrder (earlier ++ [needle]) text) (m : Nat) :
    InOrder ((earlier ++ needle :: later).take m) text ↔ m ≤ earlier.length := by
  constructor
  · intro h
    by_contra hlong
    obtain ⟨k, rfl⟩ := Nat.exists_eq_add_of_lt (Nat.lt_of_not_le hlong)
    have htake : (earlier ++ needle :: later).take (earlier.length + k + 1) =
        (earlier ++ [needle]) ++ later.take k := by
      rw [Nat.add_assoc, List.take_length_add_append, List.take_succ_cons, List.append_assoc]
      rfl
    rw [htake] at h
    exact hnot h.of_append
  · intro hm
    rw [List.take_append_of_le_length hm]
    rw [← List.take_append_drop m earlier] at hearlier
    exact hearlier.of_append

/-- The expectation is met exactly when the text has room for the needles in their order, whatever
they are and however they overlap. Otherwise the first of them for which there is no room is named,
and with it the number of bytes that those before it need at least. -/
theorem expectInOrder_iff_inOrder (text : String) (needles : List String) :
    (expectInOrder text needles = .ok () ↔ InOrder (needles.map String.toList) text.toList) ∧
      ∀ f, expectInOrder text needles = .error f →
        ∃ (i : Nat) (hi : i < needles.length) (front : List Char),
        f = .misplaced needles[i] (byteLength front) ∧
        (∀ m, InOrder ((needles.take m).map String.toList) text.toList ↔ m ≤ i) ∧
        IsFront ((needles.take i).map String.toList) text.toList front := by
  refine ⟨expectOrder_eq_ok_iff, ?_⟩
  intro f h
  obtain ⟨earlier, needle, later, front, hneedles, rfl, hfront, hnot⟩ := exists_front_of_error h
  have hlength := congrArg List.length hneedles
  simp only [List.length_map, List.length_append, List.length_cons] at hlength
  have hi : earlier.length < needles.length := by omega
  have hneedle : needles[earlier.length].toList = needle := by
    rw [← List.getElem_map String.toList (h := by simpa using hi)]
    simp only [hneedles, List.getElem_append_right (Nat.le_refl _), Nat.sub_self,
      List.getElem_cons_zero]
  refine ⟨earlier.length, hi, front, ?_, fun m => ?_, ?_⟩
  · rw [← hneedle, String.ofList_toList, Nat.zero_add]
  · rw [List.map_take, hneedles]
    exact inOrder_take_iff hfront.inOrder_text hnot m
  · rw [List.map_take, hneedles, List.take_left]
    exact hfront

/-- The second needle takes the letter that the last one would need, and it can stand nowhere
else. -/
theorem misplaced_last_letter :
    let needles := ["ä", "xä", "", "ä"]
    expectInOrder "äxäb" needles = .error (.misplaced "ä" 5) ∧
      ∃ (i : Nat) (hi : i < needles.length) (front : List Char),
        Failure.misplaced "ä" 5 = .misplaced needles[i] (byteLength front) ∧
        (∀ m, InOrder ((needles.take m).map String.toList) "äxäb".toList ↔ m ≤ i) ∧
        IsFront ((needles.take i).map String.toList) "äxäb".toList front := by
  intro needles
  have herror : expectInOrder "äxäb" needles = .error (.misplaced "ä" 5) := by decide
  exact ⟨herror, (expectInOrder_iff_inOrder "äxäb" needles).2 _ herror⟩

end RayScene.Check
