import Mathlib.Algebra.Ring.Nat
import Mathlib.Data.List.TakeWhile
import RayScene.Proofs.Text.Lines
import RayScene.Proofs.Text.Numbers
/-!
Lists in scenes, read from their lines. A heading stands before the line that announces how many
items there are; the items stand below that, up to the first line that is none. Nothing is read of a
list that does not end.
-/
set_option autoImplicit false

namespace RayScene.Listings

open Sdl Text

/-- What is announced, and what is there. -/
structure Listing where
  announced : Option Nat
  items : List (List Char)
  deriving DecidableEq

def Listing.points (l : Listing) : Nat := (l.items.map (·.count '<')).sum

/-- The heading of a kind of lists, and which of the values behind it is the number of items. -/
structure Heading where
  line : List Char
  place : Nat

def Heading.spline : Heading := ⟨"bezier_spline".toList, 2⟩

def Heading.vertices : Heading := ⟨"vertex_vectors \x7b".toList, 0⟩

def Heading.faces : Heading := ⟨"face_indices \x7b".toList, 0⟩

def readNatural (text : List Char) : Option Nat :=
  let digits := text.filter (· ≠ ' ')
  if digits ≠ [] ∧ digits.all Char.isDigit then some (Nat.ofDigitChars 10 digits 0) else none

def valueAt (place : Nat) (line : List Char) : Option Nat :=
  (splitOn ',' line)[place]?.bind readNatural

def isItem (line : List Char) : Bool := line.head? = some '<'

def readListing (place : Nat) : List (List Char) → Option Listing
  | [] => none
  | head :: rest =>
    if rest.all isItem then none else some ⟨valueAt place head, rest.takeWhile isItem⟩

def listingsIn (h : Heading) : List (List Char) → List Listing
  | [] => []
  | line :: rest =>
    if line = h.line then (readListing h.place rest).toList ++ listingsIn h rest
      else listingsIn h rest

def bareLines (t : List Char) : List (List Char) := (splitOn '\n' t).map (·.dropWhile (· = '\t'))

def listings (h : Heading) (text : String) : List Listing := listingsIn h (bareLines text.toList)

section Lists

variable {h : Heading} {place : Nat} {l : Listing} {xs ys items rest : List (List Char)}
  {line stop : List Char}

theorem readListing_append (hl : readListing place xs = some l) (ys : List (List Char)) :
    readListing place (xs ++ ys) = some l := by
  cases xs with
  | nil => cases hl
  | cons head rest =>
    rw [readListing] at hl
    split at hl
    · cases hl
    · rename_i hall
      cases hl
      have hshort : (rest.takeWhile isItem).length ≠ rest.length := by
        intro hlength
        have hwhole := (List.takeWhile_prefix isItem).eq_of_length hlength
        exact hall (List.all_eq_true.mpr (List.takeWhile_eq_self_iff.mp hwhole))
      rw [List.cons_append, readListing, List.all_append, if_neg (by simp [hall]),
        List.takeWhile_append, if_neg hshort]

theorem readListing_eq (place : Nat) (line : List Char) (hitems : ∀ i ∈ items, isItem i = true)
    (hstop : isItem stop = false) (rest : List (List Char)) :
    readListing place (line :: (items ++ stop :: rest)) = some ⟨valueAt place line, items⟩ := by
  have hall : items.takeWhile isItem = items := List.takeWhile_eq_self_iff.mpr hitems
  rw [readListing, if_neg (by simp [hstop]), List.takeWhile_append, hall, if_pos rfl,
    List.takeWhile_cons_of_neg (by simp [hstop]), List.append_nil]

/-- Lists that are whole are still read when something is put behind them. -/
theorem listingsIn_append_sublist (xs ys : List (List Char)) :
    (listingsIn h xs ++ listingsIn h ys).Sublist (listingsIn h (xs ++ ys)) := by
  induction xs with
  | nil => exact .refl _
  | cons line xs ih =>
    rw [List.cons_append, listingsIn, listingsIn]
    split
    · rw [List.append_assoc]
      refine List.Sublist.append ?_ ih
      cases hl : readListing h.place xs with
      | none => exact List.nil_sublist _
      | some l => simp only [readListing_append hl, List.Sublist.refl]
    · exact ih

theorem listingsIn_append_of_not_mem (hxs : h.line ∉ xs) (ys : List (List Char)) :
    listingsIn h (xs ++ ys) = listingsIn h ys := by
  induction xs with
  | nil => rfl
  | cons line xs ih =>
    obtain ⟨hline, hrest⟩ := List.ne_and_not_mem_of_not_mem_cons hxs
    rw [List.cons_append, listingsIn, if_neg (Ne.symm hline), ih hrest]

theorem listingsIn_heading (hline : h.line ≠ line) (hitems : ∀ i ∈ items, isItem i = true)
    (hstop : isItem stop = false) (hnot : isItem h.line = false) (rest : List (List Char)) :
    listingsIn h (h.line :: line :: (items ++ stop :: rest)) =
      ⟨valueAt h.place line, items⟩ :: listingsIn h (stop :: rest) := by
  have hmem : h.line ∉ line :: items := by
    intro hmem
    rcases List.mem_cons.mp hmem with heq | hmem
    · exact hline heq
    · rw [hitems _ hmem] at hnot
      cases hnot
  have hrest := listingsIn_append_of_not_mem hmem (stop :: rest)
  rw [listingsIn, if_pos rfl, readListing_eq h.place line hitems hstop]
  exact congrArg _ hrest

end Lists

section Numbers

variable {a b c : List Char}

theorem readNatural_digits (n : Nat) : readNatural (Nat.toDigits 10 n) = some n := by
  have hdigits : ∀ d ∈ Nat.toDigits 10 n, d.isDigit = true :=
    fun d hd => Nat.isDigit_of_mem_toDigits (by decide) (by decide) hd
  have hfilter : (Nat.toDigits 10 n).filter (· ≠ ' ') = Nat.toDigits 10 n := by
    apply List.filter_eq_self.mpr
    intro d hd
    refine decide_eq_true fun hblank => ?_
    have hdigit := hdigits d hd
    rw [hblank] at hdigit
    cases hdigit
  have hne : Nat.toDigits 10 n ≠ [] := Nat.toDigits_ne_nil
  unfold readNatural
  dsimp only
  rw [hfilter, if_pos ⟨hne, List.all_eq_true.mpr hdigits⟩,
    Nat.ofDigitChars_toDigits (by decide) (by decide)]

theorem readNatural_blank (text : List Char) : readNatural (' ' :: text) = readNatural text := by
  simp [readNatural]

theorem valueAt_zero (n : Nat) :
    valueAt 0 (Nat.toDigits 10 n) = some n ∧ valueAt 0 (Nat.toDigits 10 n ++ [',']) = some n := by
  have hcomma : ',' ∉ Nat.toDigits 10 n := not_mem_digits rfl n
  have hsplit := splitOn_append_of_not_mem hcomma (splitOn_cons_self ',' [])
  unfold valueAt
  rw [splitOn_of_not_mem hcomma, hsplit, List.append_nil]
  exact ⟨readNatural_digits n, readNatural_digits n⟩

theorem valueAt_two (ha : ',' ∉ a) (hb : ',' ∉ b) (n : Nat) :
    valueAt 2 (a ++ ',' :: (b ++ ',' :: ' ' :: Nat.toDigits 10 n)) = some n := by
  have hn : ',' ∉ ' ' :: Nat.toDigits 10 n :=
    List.not_mem_cons_of_ne_of_not_mem (by decide) (not_mem_digits rfl n)
  have hlast := splitOn_append_of_not_mem hb (splitOn_cons_self ',' (' ' :: Nat.toDigits 10 n))
  have hsplit := splitOn_append_of_not_mem ha
    (splitOn_cons_self ',' (b ++ ',' :: ' ' :: Nat.toDigits 10 n))
  unfold valueAt
  rw [hsplit, hlast, splitOn_of_not_mem hn]
  exact (readNatural_blank _).trans (readNatural_digits n)

end Numbers

section Lines

variable {lead line : List Char}

theorem dropWhile_tabs (hlead : ∀ c ∈ lead, c = '\t') (hline : '\t' ∉ line) :
    (lead ++ line).dropWhile (· = '\t') = line := by
  rw [List.dropWhile_append_of_pos (by simpa using hlead), List.dropWhile_eq_self_iff]
  intro hl hfirst
  exact hline (of_decide_eq_true hfirst ▸ List.getElem_mem hl)

theorem bareLines_line (hlead : ∀ c ∈ lead, c = '\t') (htab : '\t' ∉ line) (hline : '\n' ∉ line)
    (t : List Char) : bareLines (lead ++ (line ++ '\n' :: t)) = line :: bareLines t := by
  have hn : '\n' ∉ lead ++ line := by
    rw [List.mem_append]
    exact fun hmem => hmem.elim (fun hmem => absurd (hlead _ hmem) (by decide)) hline
  have hsplit := splitOn_append_of_not_mem hn (splitOn_cons_self '\n' t)
  rw [bareLines, ← List.append_assoc, hsplit, List.append_nil, List.map_cons,
    dropWhile_tabs hlead htab]
  rfl

theorem bareLines_plain (htab : '\t' ∉ line) (hline : '\n' ∉ line) (t : List Char) :
    bareLines (line ++ '\n' :: t) = line :: bareLines t := by
  have hlead : ∀ c ∈ ([] : List Char), c = '\t' := nofun
  exact bareLines_line hlead htab hline t

end Lines

section Showing

variable {h : Heading} {s t : String} {ls ms : List Listing} {lead : List Char}

/-- Lists of the text that end before its last line. They are there whatever the text is put
into. -/
def Shows (h : Heading) (s : String) (ls : List Listing) : Prop :=
  ls.Sublist (listingsIn h (innerLines s.toList))

theorem Shows.nothing (h : Heading) (s : String) : Shows h s [] := List.nil_sublist _

theorem Shows.append (hs : Shows h s ls) (ht : Shows h t ms) : Shows h (s ++ t) (ls ++ ms) := by
  obtain ⟨middle, heq⟩ := exists_innerLines_append s.toList t.toList
  unfold Shows
  rw [String.toList_append, heq]
  have hmiddle : ms.Sublist (listingsIn h (middle ++ innerLines t.toList)) :=
    (ht.trans (List.sublist_append_right _ _)).trans (listingsIn_append_sublist middle _)
  exact (List.Sublist.append hs hmiddle).trans (listingsIn_append_sublist _ _)

theorem Shows.behind (hs : Shows h s ls) (t : String) : Shows h (t ++ s) ls :=
  (Shows.nothing h t).append hs

theorem Shows.before (hs : Shows h s ls) (t : String) : Shows h (s ++ t) ls := by
  have hboth := hs.append (.nothing h t)
  rwa [List.append_nil] at hboth

theorem Shows.shift (hlead : ∀ c ∈ lead, c = '\t') (hs : Shows h s ls) :
    Shows h (shift lead s) ls := by
  unfold Shows Sdl.shift
  rwa [String.toList_ofList, innerLines_substitute hlead]

theorem Shows.indent (hs : Shows h s ls) : Shows h (indent s) ls := hs.shift (by simp)

theorem innerLines_shift_newline (hlead : ∀ c ∈ lead, c = '\t') (s : String) :
    innerLines (Sdl.shift lead s ++ "\n").toList = (bareLines s.toList).tail := by
  obtain ⟨first, lines, hs⟩ := exists_splitOn_eq_cons '\n' s.toList
  have hn : '\n' ∉ lead := fun hmem => absurd (hlead _ hmem) (by decide)
  have hstrip : ∀ line : List Char, (lead ++ line).dropWhile (· = '\t') =
      line.dropWhile (· = '\t') :=
    fun line => List.dropWhile_append_of_pos (by simpa using hlead)
  have htext : (Sdl.shift lead s ++ "\n").toList = substitute '\n' ('\n' :: lead) s.toList ++
      ['\n'] := by
    simp [Sdl.shift]
  unfold innerLines bareLines
  rw [htext, splitOn_concat, splitOn_substitute hn hs, hs]
  simp [hstrip, Function.comp_def]

theorem Shows.sublist (hs : Shows h s ls) : ls.Sublist (listings h s) := by
  have hinner : innerLines s.toList = (bareLines s.toList).tail.dropLast := by
    simp [innerLines, bareLines, List.map_dropLast, List.map_tail]
  obtain ⟨front, back, hlines⟩ : innerLines s.toList <:+: bareLines s.toList := by
    rw [hinner]
    exact (List.dropLast_prefix _).isInfix.trans (List.tail_suffix _).isInfix
  refine hs.trans ?_
  rw [listings, ← hlines]
  exact ((List.sublist_append_right _ _).trans (listingsIn_append_sublist front _)).trans
    ((List.sublist_append_left _ _).trans (listingsIn_append_sublist _ back))

end Showing

end RayScene.Listings
