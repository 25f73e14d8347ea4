import Mathlib.Data.List.TakeWhile
import RayScene.Proofs.Text.Pairs
import RayScene.Sdl.Include
/-!
Comments that are taken out of an include file, one after the other. What stands in a comment does
not matter, and in what is left none begins.
-/
set_option autoImplicit false

namespace RayScene.Comments

open Sdl Text

def opening : List Char := ['/', '*']

def closing : List Char := ['*', '/']

def slashes : List Char := ['/', '/']

/-- Pieces that are taken out of a text one after the other, each of them where it is the first one,
and what they leave. -/
inductive Removal (First : List Char → List Char → List Char → Prop) :
    List Char → List (List Char) → List Char → Prop
  | done (text : List Char) : Removal First text [] text
  | next {before piece after rest : List Char} {pieces : List (List Char)} :
      First before piece after → Removal First (before ++ after) pieces rest →
      Removal First (before ++ (piece ++ after)) (piece :: pieces) rest

def IsBlock (before piece _after : List Char) : Prop :=
  ∃ inner, piece = opening ++ inner ++ closing ∧ ¬opening <:+: before ∧ ¬closing <:+: inner

/-- The first line comment of a text. Its line ends behind it, or the text does. -/
def IsLine (before piece after : List Char) : Prop :=
  ∃ inner, piece = slashes ++ inner ∧ ¬slashes <:+: before ++ ['/'] ∧ '\n' ∉ inner ∧
    ∀ c ∈ after.head?, c = '\n'

theorem Removal.sublist {First : List Char → List Char → List Char → Prop} {text rest : List Char}
    {pieces : List (List Char)} (h : Removal First text pieces rest) : rest.Sublist text := by
  induction h with
  | done => exact .refl _
  | next _ _ ih => exact ih.trans ((List.sublist_append_right _ _).append_left _)

variable {text code before inner after : List Char}

section Blocks

theorem stripBlocks_clean (h : ¬opening <:+: text) : stripBlocks text = .ok text := by
  have hcut : cut? ['/', '*'] text = none := cut?_eq_none_iff.mpr h
  rw [stripBlocks]
  split
  · rfl
  · rename_i hsome
    cases hcut.symm.trans hsome

theorem stripBlocks_block {piece : List Char} (h : IsBlock before piece after) :
    stripBlocks (before ++ (piece ++ after)) = stripBlocks (before ++ after) := by
  obtain ⟨inner, rfl, hbefore, hinner⟩ := h
  have hopen : cut? ['/', '*'] (before ++ (opening ++ (inner ++ (closing ++ after)))) =
      some (before, inner ++ (closing ++ after)) :=
    cut?_pair (not_pair_infix_concat (by decide) hbefore) _
  have hclose : cut? ['*', '/'] (inner ++ (closing ++ after)) = some (inner, after) :=
    cut?_pair (not_pair_infix_concat (by decide) hinner) after
  rw [List.append_assoc, List.append_assoc, stripBlocks]
  split
  · rename_i hnone
    cases hopen.symm.trans hnone
  · rename_i hsome
    cases hopen.symm.trans hsome
    split
    · rename_i hnone
      cases hclose.symm.trans hnone
    · rename_i hsome
      cases hclose.symm.trans hsome
      rfl

theorem not_opening_infix_of_cut? (h : cut? ['/', '*'] text = some (before, after)) :
    ¬opening <:+: before :=
  fun hpiece => not_infix_of_cut?_pair h (List.infix_append_of_infix_left hpiece)

theorem not_closing_infix_of_cut? (h : cut? ['*', '/'] text = some (inner, after)) :
    ¬closing <:+: inner :=
  fun hpiece => not_infix_of_cut?_pair h (List.infix_append_of_infix_left hpiece)

/-- Block comments are taken out until none is left, or until one has no end. -/
theorem blocks_removed (text : List Char) : ∃ blocks code, Removal IsBlock text blocks code ∧
    ((¬opening <:+: code ∧ stripBlocks text = .ok code) ∨
      ∃ before inner, code = before ++ (opening ++ inner) ∧ ¬opening <:+: before ∧
        ¬closing <:+: inner ∧
        stripBlocks text = .error (.unterminatedComment (byteLength before))) := by
  fun_induction stripBlocks text with
  | case1 text hnone => exact ⟨[], text, .done text, .inl ⟨cut?_eq_none_iff.mp hnone, rfl⟩⟩
  | case2 text before inner hsome hnone =>
    have htext := eq_of_cut? hsome
    rw [List.append_assoc] at htext
    exact ⟨[], text, .done text, .inr ⟨before, inner, htext, not_opening_infix_of_cut? hsome,
      cut?_eq_none_iff.mp hnone, rfl⟩⟩
  | case3 text before more hsome inner after hclose ih =>
    obtain ⟨blocks, code, hremoval, hresult⟩ := ih
    have hblock : IsBlock before (opening ++ inner ++ closing) after :=
      ⟨inner, rfl, not_opening_infix_of_cut? hsome, not_closing_infix_of_cut? hclose⟩
    have htext : text = before ++ (opening ++ inner ++ closing ++ after) := by
      rw [eq_of_cut? hsome, eq_of_cut? hclose]
      simp [opening, closing]
    rw [htext]
    exact ⟨_, code, .next hblock hremoval, hresult⟩

end Blocks

section Lines

theorem stripLines_clean (h : ¬slashes <:+: text) : stripLines text = text := by
  have hcut : cut? ['/', '/'] text = none := cut?_eq_none_iff.mpr h
  rw [stripLines]
  split
  · rfl
  · rename_i hsome
    cases hcut.symm.trans hsome

theorem dropWhile_line (hinner : '\n' ∉ inner) (hafter : ∀ c ∈ after.head?, c = '\n') :
    (inner ++ after).dropWhile (· != '\n') = after := by
  have hline : ∀ c ∈ inner, (c != '\n') = true := by
    intro c hc
    rw [bne_iff_ne]
    rintro rfl
    exact hinner hc
  rw [List.dropWhile_append_of_pos hline]
  cases after with
  | nil => rfl
  | cons c after =>
    rw [hafter c rfl]
    rfl

theorem stripLines_line {piece : List Char} (h : IsLine before piece after) :
    stripLines (before ++ (piece ++ after)) = stripLines (before ++ after) := by
  obtain ⟨inner, rfl, hbefore, hinner, hafter⟩ := h
  have hcut : cut? ['/', '/'] (before ++ (slashes ++ (inner ++ after))) =
      some (before, inner ++ after) :=
    cut?_pair hbefore _
  rw [List.append_assoc, stripLines]
  split
  · rename_i hnone
    cases hcut.symm.trans hnone
  · rename_i hsome
    cases hcut.symm.trans hsome
    rw [dropWhile_line hinner hafter]

theorem lines_removed (text : List Char) :
    (∃ lines, Removal IsLine text lines (stripLines text)) ∧ ¬slashes <:+: stripLines text := by
  fun_induction stripLines text with
  | case1 text hnone => exact ⟨⟨[], .done text⟩, cut?_eq_none_iff.mp hnone⟩
  | case2 text before more hsome ih =>
    obtain ⟨⟨lines, hremoval⟩, hclean⟩ := ih
    have hsplit := List.takeWhile_append_dropWhile (p := (· != '\n')) (l := more)
    have htext : text = before ++
        (slashes ++ more.takeWhile (· != '\n') ++ more.dropWhile (· != '\n')) := by
      rw [eq_of_cut? hsome, List.append_assoc, List.append_assoc, hsplit]
      rfl
    have hline : IsLine before (slashes ++ more.takeWhile (· != '\n'))
        (more.dropWhile (· != '\n')) := by
      refine ⟨_, rfl, not_infix_of_cut?_pair hsome, ?_, ?_⟩
      · intro hmem
        simpa using List.mem_takeWhile_imp hmem
      · intro c hc
        have hstop := List.head?_dropWhile_not (· != '\n') more
        rw [hc] at hstop
        simpa using hstop
    rw [htext]
    exact ⟨⟨_, .next hline hremoval⟩, hclean⟩

theorem not_opening_infix_of_lines {lines : List (List Char)} {rest : List Char}
    (h : Removal IsLine text lines rest) (htext : ¬opening <:+: text) : ¬opening <:+: rest := by
  induction h with
  | done => exact htext
  | @next before piece after rest lines hline _ ih =>
    obtain ⟨_, _, _, _, hafter⟩ := hline
    apply ih
    unfold opening at htext ⊢
    rw [pair_infix_append_iff]
    rintro (hpiece | hpiece | ⟨_, hbegin⟩)
    · exact htext (List.infix_append_of_infix_left hpiece)
    · exact htext (List.infix_append_of_infix_right (List.infix_append_of_infix_right hpiece))
    · exact absurd (hafter '*' hbegin) (by decide)

end Lines

section Sources

variable {source source' t p c q : String}

theorem not_infix_of_contains {needle : String} (h : contains t needle = false) :
    ¬needle.toList <:+: t.toList := by
  rw [← contains_iff, h]
  exact Bool.false_ne_true

theorem contains_ofList_eq_false {text : List Char} {needle : String}
    (h : ¬needle.toList <:+: text) : contains (String.ofList text) needle = false := by
  rwa [Bool.eq_false_iff, Ne, contains_iff, @String.toList_ofList text]

theorem stripComments_of_ok {code : List Char} (h : stripBlocks source.toList = .ok code) :
    stripComments source = .ok (String.ofList (stripLines code)) := by
  rw [stripComments, h]
  rfl

theorem stripComments_of_error {e : IncludeError} (h : stripBlocks source.toList = .error e) :
    stripComments source = .error e := by
  rw [stripComments, h]
  rfl

theorem stripComments_clean (hblocks : contains t "/*" = false) (hlines : contains t "//" = false) :
    stripComments t = .ok t := by
  rw [stripComments_of_ok (stripBlocks_clean (not_infix_of_contains hblocks)),
    stripLines_clean (not_infix_of_contains hlines), String.ofList_toList]

theorem stripComments_line {before piece after : List Char} (hline : IsLine before piece after)
    (hsource : source.toList = before ++ (piece ++ after))
    (hsource' : source'.toList = before ++ after)
    (hblocks : contains source "/*" = false) : stripComments source = stripComments source' := by
  have hopen : ¬opening <:+: source.toList := not_infix_of_contains hblocks
  have hopen' : ¬opening <:+: source'.toList := by
    have hremoval := Removal.next hline (.done (before ++ after))
    rw [hsource']
    exact not_opening_infix_of_lines hremoval (hsource ▸ hopen)
  rw [stripComments_of_ok (stripBlocks_clean hopen),
    stripComments_of_ok (stripBlocks_clean hopen'), hsource, stripLines_line hline, ← hsource']

theorem isLine_of_contains {after : List Char} (hp : contains p "//" = false)
    (hend : p.toList.getLast? ≠ some '/') (hc : '\n' ∉ c.toList)
    (hafter : ∀ d ∈ after.head?, d = '\n') :
    IsLine p.toList (slashes ++ c.toList) after := by
  refine ⟨c.toList, rfl, ?_, hc, hafter⟩
  unfold slashes
  rw [pair_infix_append_iff]
  rintro (hpiece | hpiece | ⟨hlast, _⟩)
  · exact not_infix_of_contains hp hpiece
  · exact absurd hpiece.length_le (by simp)
  · exact hend hlast

/-- How stripping a source ends. Comments are taken out one after the other, first the block
comments and then the line comments, until none is left or a block comment has no end. -/
inductive Ends (source : List Char) : Except IncludeError String → Prop
  | clean {blocks lines : List (List Char)} {code text : List Char} :
      Removal IsBlock source blocks code → ¬opening <:+: code →
      Removal IsLine code lines text → ¬slashes <:+: text → Ends source (.ok (String.ofList text))
  | unclosed {blocks : List (List Char)} {before inner : List Char} :
      Removal IsBlock source blocks (before ++ (opening ++ inner)) → ¬opening <:+: before →
      ¬closing <:+: inner → Ends source (.error (.unterminatedComment (byteLength before)))

theorem ends_stripComments (source : String) : Ends source.toList (stripComments source) := by
  obtain ⟨blocks, code, hblocks, ⟨hopen, hok⟩ | ⟨before, inner, rfl, hbefore, hinner, herror⟩⟩ :=
    blocks_removed source.toList
  · obtain ⟨⟨lines, hlines⟩, hclean⟩ := lines_removed code
    rw [stripComments_of_ok hok]
    exact .clean hblocks hopen hlines hclean
  · rw [stripComments_of_error herror]
    exact .unclosed hblocks hbefore hinner

theorem clean_of_ok (h : stripComments source = .ok t) :
    contains t "/*" = false ∧ contains t "//" = false ∧ t.toList.Sublist source.toList := by
  have hends := ends_stripComments source
  rw [h] at hends
  cases hends with
  | @clean blocks lines code text hblocks hopen hlines hclean =>
    refine ⟨contains_ofList_eq_false (not_opening_infix_of_lines hlines hopen),
      contains_ofList_eq_false hclean, ?_⟩
    rw [@String.toList_ofList text]
    exact hlines.sublist.trans hblocks.sublist

theorem stripComments_block (hp : contains p "/*" = false) (hc : contains c "*/" = false) :
    stripComments (p ++ "/*" ++ c ++ "*/" ++ q) = stripComments (p ++ q) := by
  have hblock : IsBlock p.toList (opening ++ c.toList ++ closing) q.toList :=
    ⟨c.toList, rfl, not_infix_of_contains hp, not_infix_of_contains hc⟩
  have htext : (p ++ "/*" ++ c ++ "*/" ++ q).toList =
      p.toList ++ (opening ++ c.toList ++ closing ++ q.toList) := by simp [opening, closing]
  have hblocks := stripBlocks_block hblock
  rw [← htext, ← String.toList_append] at hblocks
  unfold stripComments
  rw [hblocks]

end Sources

/-- Stripping comes to an end. What is left has been in the source in this order, no comment begins
in it, and it stays as it is. What stands in a comment makes no difference. -/
theorem comments_are_stripped :
    (∀ source : String, Ends source.toList (stripComments source)) ∧
    (∀ source t : String, stripComments source = .ok t → contains t "/*" = false ∧
      contains t "//" = false ∧ t.toList.Sublist source.toList ∧ stripComments t = .ok t) ∧
    (∀ p c q : String, contains p "/*" = false → contains c "*/" = false →
      stripComments (p ++ "/*" ++ c ++ "*/" ++ q) = stripComments (p ++ q)) ∧
    (∀ p c q : String, contains (p ++ "//" ++ c ++ "\n" ++ q) "/*" = false →
      contains p "//" = false → p.toList.getLast? ≠ some '/' → '\n' ∉ c.toList →
      stripComments (p ++ "//" ++ c ++ "\n" ++ q) = stripComments (p ++ "\n" ++ q)) ∧
    ∀ p c : String, contains (p ++ "//" ++ c) "/*" = false → contains p "//" = false →
      p.toList.getLast? ≠ some '/' → '\n' ∉ c.toList →
      stripComments (p ++ "//" ++ c) = stripComments p := by
  refine ⟨ends_stripComments, ?_, fun _ _ _ => stripComments_block, ?_, ?_⟩
  · intro source t h
    obtain ⟨hblocks, hlines, hsub⟩ := clean_of_ok h
    exact ⟨hblocks, hlines, hsub, stripComments_clean hblocks hlines⟩
  · intro p c q hopen hp hend hc
    have hafter : ∀ d ∈ ('\n' :: q.toList).head?, d = '\n' := by simp
    exact stripComments_line (isLine_of_contains hp hend hc hafter) (by simp [slashes]) (by simp)
      hopen
  · intro p c hopen hp hend hc
    have hafter : ∀ d ∈ ([] : List Char).head?, d = '\n' := by simp
    exact stripComments_line (isLine_of_contains hp hend hc hafter) (by simp [slashes]) (by simp)
      hopen

/-- A block comment ends within a line comment, and two slashes come together where another one has
been. -/
theorem comments_of_joined_slashes :
    (∃ t, stripComments "a // /* b */\nc //**// d" = .ok t ∧ t = "a \nc " ∧
      contains t "//" = false ∧ stripComments t = .ok t) ∧
    (contains "/" "/*" = false ∧ contains "c" "*/" = false ∧
      stripComments ("/" ++ "/*" ++ "c" ++ "*/" ++ "/ d") = stripComments ("/" ++ "/ d")) ∧
    (contains ("a" ++ "//" ++ "b /" ++ "\n" ++ "c") "/*" = false ∧ contains "a" "//" = false ∧
      stripComments ("a" ++ "//" ++ "b /" ++ "\n" ++ "c") = stripComments ("a" ++ "\n" ++ "c")) ∧
    contains ("a" ++ "//" ++ " b") "/*" = false ∧
      stripComments ("a" ++ "//" ++ " b") = stripComments "a" := by
  obtain ⟨_, hstripped, hblock, hline, hlast⟩ := comments_are_stripped
  have hsource : stripComments "a // /* b */\nc //**// d" = .ok "a \nc " := by decide +kernel
  obtain ⟨_, hslashes, _, hagain⟩ := hstripped _ _ hsource
  refine ⟨⟨_, hsource, rfl, hslashes, hagain⟩, ⟨by decide, by decide, ?_⟩,
    ⟨by decide, by decide, ?_⟩, by decide, ?_⟩
  · exact hblock "/" "c" "/ d" (by decide) (by decide)
  · exact hline "a" "b /" "c" (by decide) (by decide) (by decide) (by decide)
  · exact hlast "a" " b" (by decide) (by decide) (by decide) (by decide)

end RayScene.Comments
