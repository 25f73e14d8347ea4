import Mathlib.Algebra.Ring.Nat
import RayScene.Proofs.Comments.Stripping
/-!
Where a block comment without an end begins. The position is counted in what is left of the source
by then, so it falls short of the place in the source by all that has been taken out before.
-/
set_option autoImplicit false

namespace RayScene

namespace Comments

open Sdl Text

variable {source text before inner after rest front back : List Char} {blocks : List (List Char)}
  {offset : Nat}

/-- At this byte a block comment begins, and behind its beginning none ends. -/
def UnclosedAt (source : List Char) (offset : Nat) : Prop :=
  ∃ before after, source = before ++ (opening ++ after) ∧ byteLength before = offset ∧
    ¬closing <:+: after

/-- The beginning of a comment at this byte has a character in common with the end of a comment. -/
def MeetsClosing (source : List Char) (offset : Nat) : Prop :=
  ∃ front back, source = front ++ (closing ++ back) ∧
    (offset + 1 = byteLength front ∨ offset = byteLength front + 1)

def bytesIn (pieces : List (List Char)) : Nat := (pieces.map byteLength).sum

theorem opening_cases (hfront : ¬opening <:+: front)
    (h : front ++ back = before ++ (opening ++ after)) :
    (∃ more, before = front ++ more ∧ back = more ++ (opening ++ after)) ∨
      front = before ++ ['/'] ∧ back = '*' :: after := by
  obtain ⟨more, hbefore, hback⟩ | ⟨more, rfl, hafter⟩ := List.append_eq_append_iff.mp h
  · exact .inl ⟨more, hbefore, hback⟩
  · cases more with
    | nil => exact .inl ⟨[], by simp, by simpa using hafter.symm⟩
    | cons c more =>
      simp only [opening, List.cons_append, List.nil_append, List.cons.injEq] at hafter
      obtain ⟨rfl, hafter⟩ := hafter
      cases more with
      | nil => exact .inr ⟨rfl, hafter.symm⟩
      | cons d more =>
        simp only [List.cons_append, List.cons.injEq] at hafter
        obtain ⟨rfl, _⟩ := hafter
        exact absurd ⟨before, more, by simp [opening]⟩ hfront

/-- What has been taken out before is what a position falls short by. -/
theorem unclosedAt_of_removal (h : Removal IsBlock source blocks rest)
    (hrest : UnclosedAt rest offset) :
    UnclosedAt source (offset + bytesIn blocks) := by
  induction h with
  | done => exact hrest
  | @next front piece back rest blocks hblock _ ih =>
    obtain ⟨before, after, htext, hbefore, hafter⟩ := ih hrest
    obtain ⟨inner, rfl, hfront, _⟩ := hblock
    have hbytes : bytesIn ((opening ++ inner ++ closing) :: blocks) =
        byteLength (opening ++ inner ++ closing) + bytesIn blocks := by simp [bytesIn]
    rcases opening_cases hfront htext with ⟨more, rfl, rfl⟩ | ⟨rfl, rfl⟩
    · refine ⟨front ++ (opening ++ inner ++ closing) ++ more, after, by simp, ?_, hafter⟩
      simp only [byteLength_append] at hbefore hbytes ⊢
      omega
    · refine ⟨before ++ ['/'] ++ (opening ++ inner ++ ['*']), after, by simp [opening, closing],
        ?_, hafter⟩
      have hclosing : byteLength closing = byteLength ['*'] + byteLength ['/'] := rfl
      simp only [byteLength_append] at hbefore hbytes ⊢
      omega

theorem rest_of_nothing_removed {First : List Char → List Char → List Char → Prop}
    (h : Removal First source [] rest) : rest = source := by
  cases h
  rfl

theorem exists_last_closing (h : Removal IsBlock source blocks rest) (hblocks : blocks ≠ []) :
    ∃ front back kept, opening <:+: front ∧ source = front ++ (closing ++ back) ∧
      rest = kept ++ back ∧ byteLength kept ≤ byteLength front := by
  induction h with
  | done => exact absurd rfl hblocks
  | @next before piece after rest blocks hblock hmore ih =>
    obtain ⟨inner, rfl, hbefore, _⟩ := hblock
    by_cases hnone : blocks = []
    · obtain rfl := rest_of_nothing_removed (hnone ▸ hmore)
      refine ⟨before ++ (opening ++ inner), after, before, ⟨before, inner, by simp⟩,
        by simp, rfl, ?_⟩
      rw [byteLength_append]
      omega
    · obtain ⟨front, back, kept, hfront, htext, hrest, hle⟩ := ih hnone
      obtain ⟨more, rfl, rfl⟩ | ⟨more, rfl, _⟩ := List.append_eq_append_iff.mp htext
      · refine ⟨before ++ (opening ++ inner ++ closing) ++ more, back, kept, ?_, by simp, hrest, ?_⟩
        · exact ⟨before, inner ++ closing ++ more, by simp⟩
        · simp only [byteLength_append] at hle ⊢
          omega
      · exact absurd (List.infix_append_of_infix_left hfront) hbefore

/-- A beginning in the source that is as far from its start as the first one in what is left can
only stand there because it meets the end of a comment. -/
theorem meetsClosing_of_unclosedAt
    (h : Removal IsBlock source blocks (before ++ (opening ++ inner)))
    (hblocks : blocks ≠ []) (hbefore : ¬opening <:+: before)
    (hat : UnclosedAt source (byteLength before)) :
    MeetsClosing source (byteLength before) := by
  obtain ⟨front, back, kept, -, hsource, hrest, hle⟩ := exists_last_closing h hblocks
  obtain ⟨left, after, hleft, hbytes, hafter⟩ := hat
  refine ⟨front, back, hsource, ?_⟩
  rw [hsource] at hleft
  obtain ⟨more, rfl, hback⟩ | ⟨more, rfl, hback⟩ := List.append_eq_append_iff.mp hleft
  · cases more with
    | nil => cases hback
    | cons c more =>
      cases more with
      | nil =>
        obtain ⟨rfl, _⟩ := List.cons.inj hback
        exact .inr (hbytes.symm.trans (byteLength_append front ['*']))
      | cons d more =>
        -- Behind the closing there would be a beginning before the first one of the rest.
        simp only [closing, List.cons_append, List.nil_append, List.cons.injEq] at hback
        obtain ⟨rfl, rfl, rfl⟩ := hback
        rw [← List.append_assoc kept] at hrest
        rcases opening_cases hbefore hrest with ⟨gap, hgap, _⟩ | ⟨_, hstar⟩
        · have hlength := congrArg byteLength hgap
          have hmark : byteLength ('*' :: '/' :: more) = 2 + byteLength more :=
            byteLength_append closing more
          simp only [byteLength_append] at hlength hbytes
          omega
        · exact absurd (List.cons.inj hstar).1 (by decide)
  · cases more with
    | nil => cases hback
    | cons c more =>
      cases more with
      | nil =>
        obtain ⟨rfl, _⟩ := List.cons.inj hback
        refine .inl ?_
        rw [byteLength_append, hbytes]
        rfl
      | cons d more =>
        simp only [opening, List.cons_append, List.nil_append, List.cons.injEq] at hback
        obtain ⟨_, _, rfl⟩ := hback
        exact absurd ⟨more, back, by simp⟩ hafter

/-- A block comment without an end is reported where it begins in what is left of the source. In the
source itself it begins as many bytes later as have been taken out before. So the reported place is
right if nothing has been taken out, and else only if by chance a beginning stands there that meets
the end of a comment. -/
theorem reported_place_falls_short (source : String) (offset : Nat)
    (h : stripComments source = .error (.unterminatedComment offset)) :
    ∃ blocks rest, Removal IsBlock source.toList blocks rest ∧ UnclosedAt rest offset ∧
      UnclosedAt source.toList (offset + bytesIn blocks) ∧
      (blocks = [] → UnclosedAt source.toList offset) ∧
      (blocks ≠ [] → UnclosedAt source.toList offset → MeetsClosing source.toList offset) := by
  have hends := ends_stripComments source
  rw [h] at hends
  cases hends with
  | @unclosed blocks before inner hblocks hbefore hinner =>
    have hrest : UnclosedAt (before ++ (opening ++ inner)) (byteLength before) :=
      ⟨before, inner, rfl, rfl, hinner⟩
    have hsource := unclosedAt_of_removal hblocks hrest
    refine ⟨blocks, _, hblocks, hrest, hsource, ?_, fun hsome =>
      meetsClosing_of_unclosedAt hblocks hsome hbefore⟩
    rintro rfl
    exact hsource

/-- The comment that has no end begins at the eleventh byte, behind a comment of five bytes and a
character of two. -/
theorem reported_place_behind_comment :
    stripComments "é /*b*/ c /*d" = .error (.unterminatedComment 6) ∧
    ∃ blocks rest, Removal IsBlock "é /*b*/ c /*d".toList blocks rest ∧ UnclosedAt rest 6 ∧
      UnclosedAt "é /*b*/ c /*d".toList (6 + bytesIn blocks) := by
  have h : stripComments "é /*b*/ c /*d" = .error (.unterminatedComment 6) := by decide +kernel
  obtain ⟨blocks, rest, hblocks, hrest, hsource, _⟩ := reported_place_falls_short _ 6 h
  exact ⟨h, blocks, rest, hblocks, hrest, hsource⟩

/-- At the reported place a comment begins that has an end. -/
theorem reported_place_of_closed_comment :
    ¬∀ source offset, stripComments source = .error (.unterminatedComment offset) →
      UnclosedAt source.toList offset := by
  intro h
  have hreport : stripComments "/**//*" = .error (.unterminatedComment 0) := by decide +kernel
  obtain ⟨before, after, hsource, hbytes, hafter⟩ := h _ _ hreport
  cases before with
  | nil =>
    cases hsource
    exact hafter (by decide)
  | cons c before =>
    have hpos := c.utf8Size_pos
    have hsum : c.utf8Size + byteLength before = 0 := hbytes
    omega

end Comments

end RayScene
