import Mathlib.Algebra.GroupWithZero.Nat
import RayScene.Proofs.Text.Numbers
import RayScene.Proofs.Text.Search
import RayScene.Sdl.Solid
/-!
The statements of primitives tell everything that they are made of. No word behind a value begins
like a number, so the values can be told from the words; the keyword and the number of lines tell
the variant.
-/
set_option autoImplicit false

namespace RayScene.Primitives

open Sdl Text

inductive Variant where
  | box
  | sphere
  | ellipsoid
  | cone
  | cylinder
  | torus
  | plane
  | imagePlane
  deriving DecidableEq, Repr

/-- The variant of a primitive and its parameters in the order in which they are declared. -/
def parameters? : Kind → Option (Variant × List Float)
  | .box l w h => some (.box, [l, w, h])
  | .sphere r => some (.sphere, [r])
  | .ellipsoid r1 r2 r3 => some (.ellipsoid, [r1, r2, r3])
  | .cone r1 r2 h => some (.cone, [r1, r2, h])
  | .cylinder r h => some (.cylinder, [r, h])
  | .torus r1 r2 => some (.torus, [r1, r2])
  | .plane l w => some (.plane, [l, w])
  | .imagePlane _ x y => some (.imagePlane, [x, y])
  | _ => none

def imageFile? : Kind → Option String
  | .imagePlane file _ _ => some file
  | _ => none

/-- The words of a statement, and which of the parameters is written behind each of them. Those of
`cone { <0, 0, 0>, 1 <0, 0, 3>, 2` are written in the order of the radius, the height and the other
radius. -/
def Variant.places : Variant → List (String × Nat)
  | .box => [("\nbox \x7b <0,0,0>, <", 0), (", ", 1), (", ", 2)]
  | .sphere => [("\nsphere \x7b <0, 0, 0> ", 0)]
  | .ellipsoid => [("\nsphere \x7b <0, 0, 0> 1\n\tscale <", 1), (", ", 2), (", ", 0)]
  | .cone => [("\ncone \x7b <0, 0, 0>, ", 0), ("\n    <0, 0, ", 2), (">, ", 1)]
  | .cylinder => [("\ncylinder \x7b <0, 0, 0>, <0, 0, ", 1), (">, ", 0)]
  | .torus => [("\ntorus \x7b ", 0), (", ", 1)]
  | .plane | .imagePlane =>
    [("\npolygon \x7b 5, <0, 0>, <", 0), (", 0>, <", 0), (", ", 1), (">, <0, ", 1)]

def fill (places : List (String × Nat)) (values : Nat → String) : String :=
  String.join (places.map fun (words, i) => words ++ values i)

def imageHead : String := "\n\tpigment \x7b\n\t\timage_map \x7b\n\t\t\t"

def imageEnd (write : Float → String) (x y : Float) : String :=
  "\"\n\t\t\tmap_type 0\n\t\t\x7d\n\t\tscale <" ++ write x ++ ", " ++ write y ++
    ", 1>\n\t\x7d\n\t" ++ ("\ttranslate -<" ++ write (x / 2) ++ ", " ++ write (y / 2) ++ ", 0>\n")

def ending (write : Float → String) : Kind → String
  | .box .. | .ellipsoid .. => ">"
  | .plane .. => ">, <0, 0>"
  | .imagePlane file x y =>
    ">, <0, 0>" ++ imageHead ++ indent (imageFormat file) ++ " \"" ++ indent file ++
      imageEnd write x y
  | _ => ""

/-- The statement of a primitive, with its numbers written in any way. -/
def primitiveBy (write : Float → String) (k : Kind) : Option String :=
  (parameters? k).map fun (v, xs) => fill v.places (fun i => write (xs.getD i 0)) ++ ending write k

section Statements

theorem append_append_of_eq {a b c : String} (h : a ++ b = c) (t : String) :
    a ++ (b ++ t) = c ++ t := by
  rw [← String.append_assoc, h]

theorem indent_number (x : Float) : indent (number x) = number x :=
  shift_of_not_mem (not_mem_number rfl x) ['\t']

theorem polygon_eq (x y : Float) :
    "\n" ++ polygon x y = fill Variant.plane.places (fun i => number ([x, y].getD i 0)) ++
      ">, <0, 0>" := by
  have hwords : "\n" ++ "polygon \x7b 5, <0, 0>, <" = "\npolygon \x7b 5, <0, 0>, <" := by decide
  unfold polygon
  simp only [String.append_assoc]
  rw [append_append_of_eq hwords]
  simp [fill, Variant.places, String.append_assoc]

theorem imagePlane_eq (file : String) (x y : Float) : imagePlane file x y =
    fill Variant.imagePlane.places (fun i => number ([x, y].getD i 0)) ++
      ending number (.imagePlane file x y) := by
  have hhead : indent "\npigment \x7b\n\timage_map \x7b\n\t\t" = imageHead := by decide
  have hquote : indent " \"" = " \"" := by decide
  have hmap : indent "\"\n\t\tmap_type 0\n\t\x7d\n\tscale <" =
      "\"\n\t\t\tmap_type 0\n\t\t\x7d\n\t\tscale <" := by decide
  have hcomma : indent ", " = ", " := by decide
  have hclose : indent ", 1>\n\x7d\n" = ", 1>\n\t\x7d\n\t" := by decide
  have happend : ∀ a b : String, indent (a ++ b) = indent a ++ indent b := shift_append ['\t']
  have hplaces : Variant.imagePlane.places = Variant.plane.places := rfl
  unfold imagePlane
  dsimp only
  rw [polygon_eq]
  simp only [happend, indent_number, hhead, hquote, hmap, hcomma, hclose, String.append_assoc]
  unfold ending imageEnd
  simp only [hplaces, String.append_assoc]

theorem append_triple (words : String) (v : Vec3) : words ++ triple v =
    (words ++ "<") ++ (number v.x ++ (", " ++ (number v.y ++ (", " ++ (number v.z ++ ">"))))) := by
  simp only [triple, String.append_assoc]

theorem primitive?_eq : primitive? = primitiveBy number := by
  funext k
  cases k with
  | box l w h =>
    have hwords : "\nbox \x7b <0,0,0>, " ++ "<" = "\nbox \x7b <0,0,0>, <" := by decide
    change some ("\nbox \x7b <0,0,0>, " ++ triple ⟨l, w, h⟩) = _
    rw [append_triple, hwords]
    simp [primitiveBy, parameters?, fill, Variant.places, ending, String.append_assoc]
  | ellipsoid r1 r2 r3 =>
    have hwords : "\nsphere \x7b <0, 0, 0> 1\n\tscale " ++ "<" =
        "\nsphere \x7b <0, 0, 0> 1\n\tscale <" := by decide
    change some ("\nsphere \x7b <0, 0, 0> 1\n\tscale " ++ triple ⟨r2, r3, r1⟩) = _
    rw [append_triple, hwords]
    simp [primitiveBy, parameters?, fill, Variant.places, ending, String.append_assoc]
  | plane l w => exact congrArg some (polygon_eq l w)
  | imagePlane file x y => exact congrArg some (imagePlane_eq file x y)
  | sphere r => simp [primitive?, primitiveBy, parameters?, fill, Variant.places, ending]
  | cone r1 r2 h =>
    simp [primitive?, primitiveBy, parameters?, fill, Variant.places, ending, String.append_assoc]
  | cylinder r h =>
    simp [primitive?, primitiveBy, parameters?, fill, Variant.places, ending, String.append_assoc]
  | torus r1 r2 =>
    simp [primitive?, primitiveBy, parameters?, fill, Variant.places, ending, String.append_assoc]
  | _ => rfl

end Statements

def IsNumeral (text : String) : Prop := ∀ c ∈ text.toList, isNumberChar c = true

def Stops (text : List Char) : Prop := ∀ c ∈ text.head?, isNumberChar c = false

-- Only the one character has to be looked at; the quantifier alone is decided over all of them.
instance (text : List Char) : Decidable (Stops text) :=
  decidable_of_iff (text.head?.all (fun c => !isNumberChar c) = true)
    (by cases text <;> simp [Stops])

section Values

variable {a b n m : List Char} {places : List (String × Nat)} {f g : Nat → String}

theorem eq_of_append_quote (hn : '\x22' ∉ n) (hm : '\x22' ∉ m)
    (h : n ++ '\x22' :: a = m ++ '\x22' :: b) : n = m ∧ a = b := by
  have hother : ∀ {n : List Char}, '\x22' ∉ n → ∀ c ∈ n, (c != '\x22') = true := by
    intro n hn c hc
    exact bne_iff_ne.mpr fun heq => hn (heq ▸ hc)
  obtain ⟨rfl, hrest⟩ := eq_of_append_eq (hother hn) (hother hm) (by simp) (by simp) h
  exact ⟨rfl, (List.cons.inj hrest).2⟩

theorem toList_fill_cons (words : String) (i : Nat) (places : List (String × Nat))
    (f : Nat → String) :
    (fill ((words, i) :: places) f).toList =
      words.toList ++ ((f i).toList ++ (fill places f).toList) := by
  simp [fill, String.join_cons]

theorem stops_fill (hplaces : ∀ p ∈ places, p.1 ≠ "" ∧ Stops p.1.toList) (ha : Stops a)
    (f : Nat → String) : Stops ((fill places f).toList ++ a) := by
  cases places with
  | nil => exact ha
  | cons p places =>
    obtain ⟨hne, hp⟩ := hplaces p List.mem_cons_self
    obtain ⟨c, words, hwords⟩ := List.exists_cons_of_ne_nil (mt String.toList_eq_nil_iff.mp hne)
    rw [hwords] at hp
    rw [toList_fill_cons, hwords]
    exact hp

/-- Values are read back from between the words. -/
theorem values_of_fill_eq (hplaces : ∀ p ∈ places, p.1 ≠ "" ∧ Stops p.1.toList)
    (hf : ∀ i, IsNumeral (f i)) (hg : ∀ i, IsNumeral (g i)) (ha : Stops a) (hb : Stops b)
    (h : (fill places f).toList ++ a = (fill places g).toList ++ b) :
    (∀ p ∈ places, f p.2 = g p.2) ∧ a = b := by
  induction places with
  | nil => exact ⟨nofun, h⟩
  | cons p places ih =>
    have hrest : ∀ q ∈ places, q.1 ≠ "" ∧ Stops q.1.toList := fun q hq =>
      hplaces q (List.mem_cons_of_mem p hq)
    rw [toList_fill_cons, toList_fill_cons] at h
    simp only [List.append_assoc, List.append_cancel_left_eq] at h
    obtain ⟨hvalue, hbehind⟩ := eq_of_append_eq (hf p.2) (hg p.2) (stops_fill hrest ha f)
      (stops_fill hrest hb g) h
    obtain ⟨hvalues, hend⟩ := ih hrest hbehind
    exact ⟨List.forall_mem_cons.mpr ⟨String.toList_inj.mp hvalue, hvalues⟩, hend⟩

end Values

section Variants

variable {write : Float → String} {k k' : Kind} {v v' : Variant} {xs ys : List Float}
  {f : Nat → String}

def Variant.count : Variant → Nat
  | .sphere => 1
  | .cylinder | .torus | .plane | .imagePlane => 2
  | .box | .ellipsoid | .cone => 3

theorem length_parameters (h : parameters? k = some (v, xs)) : xs.length = v.count := by
  cases k <;> cases h <;> rfl

theorem places_begin (v : Variant) : ∀ p ∈ v.places, p.1 ≠ "" ∧ Stops p.1.toList := by
  cases v <;> decide

theorem exists_place (v : Variant) : ∀ i < v.count, ∃ p ∈ v.places, p.2 = i := by
  cases v <;> decide

def heading (code : List Char) : List Char × Bool := (code.takeWhile (· ≠ '{'), code.count '\n' = 1)

def Variant.heading : Variant → List Char × Bool
  | .box => ("\nbox ".toList, true)
  | .sphere => ("\nsphere ".toList, true)
  | .ellipsoid => ("\nsphere ".toList, false)
  | .cone => ("\ncone ".toList, false)
  | .cylinder => ("\ncylinder ".toList, true)
  | .torus => ("\ntorus ".toList, true)
  | .plane => ("\npolygon ".toList, true)
  | .imagePlane => ("\npolygon ".toList, false)

theorem Variant.eq_of_heading_eq (h : v.heading = v'.heading) : v = v' := by
  revert h
  cases v <;> cases v' <;> decide

theorem count_fill (hf : ∀ i, IsNumeral (f i)) (places : List (String × Nat)) :
    (fill places f).toList.count '\n' = (places.map fun p => p.1.toList.count '\n').sum := by
  induction places with
  | nil => rfl
  | cons p places ih =>
    have hvalue : (f p.2).toList.count '\n' = 0 :=
      List.count_eq_zero_of_not_mem (not_mem_of_number rfl (hf p.2))
    rw [toList_fill_cons, List.count_append, List.count_append, hvalue, ih, List.map_cons,
      List.sum_cons, Nat.zero_add]

theorem toList_ending_image (write : Float → String) (file : String) (x y : Float) :
    (ending write (.imagePlane file x y)).toList = ">, <0, 0>".toList ++ (imageHead.toList ++
      ((indent (imageFormat file)).toList ++ (" \"".toList ++
        ((indent file).toList ++ (imageEnd write x y).toList)))) := by
  simp only [ending, String.toList_append, List.append_assoc]

theorem ending_cases (write : Float → String) (h : parameters? k = some (v, xs)) :
    (∃ file x y, k = .imagePlane file x y ∧ v = .imagePlane) ∨
      v ≠ .imagePlane ∧ imageFile? k = none ∧ ending write k ∈ ["", ">", ">, <0, 0>"] := by
  cases k with
  | imagePlane file x y =>
    cases h
    exact .inl ⟨file, x, y, rfl, rfl⟩
  | _ => cases h <;> exact .inr ⟨nofun, rfl, by simp [ending]⟩

theorem stops_ending (write : Float → String) (h : parameters? k = some (v, xs)) :
    Stops (ending write k).toList := by
  have hwords : ∀ words ∈ ["", ">", ">, <0, 0>"], Stops words.toList := by decide
  rcases ending_cases write h with ⟨file, x, y, rfl, _⟩ | ⟨_, _, hend⟩
  · rw [toList_ending_image]
    exact hwords ">, <0, 0>" (by decide)
  · exact hwords _ hend

theorem exists_first_words (v : Variant) :
    ∃ words i rest, v.places = (words, i) :: rest ∧ '{' ∈ words.toList ∧
      words.toList.takeWhile (· ≠ '{') = v.heading.1 := by
  cases v <;> exact ⟨_, _, _, rfl, by decide, by decide⟩

theorem takeWhile_append_of_mem {c : Char} {a b : List Char} (h : c ∈ a) :
    (a ++ b).takeWhile (· ≠ c) = a.takeWhile (· ≠ c) := by
  rw [List.takeWhile_append, if_neg]
  intro hlength
  have hall := List.takeWhile_eq_self_iff.mp ((List.takeWhile_prefix _).eq_of_length hlength)
  simpa using hall c h

theorem keyword_eq (v : Variant) (f : Nat → String) (a : List Char) :
    ((fill v.places f).toList ++ a).takeWhile (· ≠ '{') = v.heading.1 := by
  obtain ⟨words, i, rest, hplaces, hbrace, hword⟩ := exists_first_words v
  rw [hplaces, toList_fill_cons, List.append_assoc, takeWhile_append_of_mem hbrace, hword]

/-- Only what is behind the values of an image plane has lines of its own. -/
theorem lines_eq (hf : ∀ i, IsNumeral (f i)) (h : parameters? k = some (v, xs)) :
    decide (((fill v.places f).toList ++ (ending write k).toList).count '\n' = 1) =
      v.heading.2 := by
  rw [List.count_append, count_fill hf]
  rcases ending_cases write h with ⟨file, x, y, rfl, rfl⟩ | ⟨hv, _, hend⟩
  · have hline : '\n' ∈ (ending write (.imagePlane file x y)).toList := by
      rw [toList_ending_image]
      exact List.mem_append_right _ (List.mem_append_left _ (by decide))
    have hcount := List.count_pos_iff.mpr hline
    have hwords : (Variant.imagePlane.places.map fun p => p.1.toList.count '\n').sum = 1 := by
      decide
    rw [hwords]
    exact decide_eq_false (by omega)
  · have hnone : ∀ words ∈ ["", ">", ">, <0, 0>"], words.toList.count '\n' = 0 := by decide
    rw [hnone _ hend]
    revert hv
    cases v <;> decide

theorem heading_eq (hf : ∀ i, IsNumeral (f i)) (h : parameters? k = some (v, xs)) :
    heading ((fill v.places f).toList ++ (ending write k).toList) = v.heading :=
  Prod.ext (keyword_eq v f _) (lines_eq hf h)

def IsPlain (file : String) : Prop := '\x22' ∉ file.toList ∧ '\n' ∉ file.toList

theorem exists_ending_eq {file : String} (hfile : IsPlain file) (write : Float → String)
    (x y : Float) :
    ∃ rest, (ending write (.imagePlane file x y)).toList =
      (">, <0, 0>".toList ++ imageHead.toList) ++
      (((imageFormat file).toList ++ [' ']) ++ '\x22' :: (file.toList ++ '\x22' :: rest)) := by
  have hquote : " \"".toList = [' ', '\x22'] := by decide
  have hformat : indent (imageFormat file) = imageFormat file :=
    shift_of_not_mem (not_mem_imageFormat rfl hfile.2) ['\t']
  have hname : indent file = file := shift_of_not_mem hfile.2 ['\t']
  obtain ⟨rest, hrest⟩ : ∃ rest, (imageEnd write x y).toList = '\x22' :: rest := by
    unfold imageEnd
    simp only [String.toList_append, List.append_assoc]
    exact ⟨_, rfl⟩
  refine ⟨rest, ?_⟩
  rw [toList_ending_image, hformat, hname, hquote, hrest]
  simp only [List.append_assoc, List.cons_append, List.nil_append]

theorem file_of_ending_eq {file file' : String} {x y x' y' : Float} (hfile : IsPlain file)
    (hfile' : IsPlain file')
    (h : (ending write (.imagePlane file x y)).toList =
      (ending write (.imagePlane file' x' y')).toList) :
    file = file' := by
  obtain ⟨rest, hrest⟩ := exists_ending_eq hfile write x y
  obtain ⟨rest', hrest'⟩ := exists_ending_eq hfile' write x' y'
  have hformat : ∀ file : String, IsPlain file → '\x22' ∉ (imageFormat file).toList ++ [' '] := by
    intro file hfile
    simpa using not_mem_imageFormat (d := '\x22') rfl hfile.1
  rw [hrest, hrest', List.append_cancel_left_eq] at h
  obtain ⟨_, hname⟩ := eq_of_append_quote (hformat file hfile) (hformat file' hfile') h
  exact String.toList_inj.mp (eq_of_append_quote hfile.1 hfile'.1 hname).1

theorem imageFile?_eq (hv : parameters? k = some (v, xs)) (hv' : parameters? k' = some (v, ys))
    (hplain : ∀ file ∈ imageFile? k, IsPlain file) (hplain' : ∀ file ∈ imageFile? k', IsPlain file)
    (h : (ending write k).toList = (ending write k').toList) : imageFile? k = imageFile? k' := by
  rcases ending_cases write hv with ⟨file, x, y, rfl, hk⟩ | ⟨hk, hnone, _⟩
  · rcases ending_cases write hv' with ⟨file', x', y', rfl, _⟩ | ⟨hk', _, _⟩
    · exact congrArg some (file_of_ending_eq (hplain file rfl) (hplain' file' rfl) h)
    · exact absurd hk hk'
  · rcases ending_cases write hv' with ⟨_, _, _, _, hk'⟩ | ⟨_, hnone', _⟩
    · exact absurd hk' hk
    · rw [hnone, hnone']

theorem map_parameters_eq (hv : parameters? k = some (v, xs)) (hv' : parameters? k' = some (v, ys))
    (h : ∀ p ∈ v.places, write (xs.getD p.2 0) = write (ys.getD p.2 0)) :
    xs.map write = ys.map write := by
  have hlength := (length_parameters hv).trans (length_parameters hv').symm
  refine List.ext_getElem (by simpa using hlength) fun i hi hi' => ?_
  simp only [List.length_map] at hi hi'
  obtain ⟨p, hp, rfl⟩ := exists_place v i (length_parameters hv ▸ hi)
  simpa [hi, hi'] using h p hp

end Variants

/-- However numbers are written, with the characters of numbers only: two primitives with the same
statement are of one variant, their parameters are written alike, and they show the same image. The
statements are those with rounded numbers. -/
theorem statements_tell_primitives :
    primitive? = primitiveBy number ∧ (∀ x, IsNumeral (number x)) ∧
      ∀ write : Float → String, (∀ x, IsNumeral (write x)) → ∀ (k k' : Kind) (code : String),
        primitiveBy write k = some code → primitiveBy write k' = some code →
        (∀ file ∈ imageFile? k, IsPlain file) → (∀ file ∈ imageFile? k', IsPlain file) →
        ∃ v xs ys, parameters? k = some (v, xs) ∧ parameters? k' = some (v, ys) ∧
          xs.map write = ys.map write ∧ imageFile? k = imageFile? k' := by
  refine ⟨primitive?_eq, fun x _ => isNumberChar_of_mem_number, ?_⟩
  intro write hwrite k k' code hk hk' hplain hplain'
  obtain ⟨⟨v, xs⟩, hv, hcode⟩ := Option.map_eq_some_iff.mp hk
  obtain ⟨⟨v', ys⟩, hv', hcode'⟩ := Option.map_eq_some_iff.mp hk'
  have htext := congrArg String.toList (hcode.trans hcode'.symm)
  simp only [String.toList_append] at htext
  have hheading := congrArg heading htext
  rw [heading_eq (fun _ => hwrite _) hv, heading_eq (fun _ => hwrite _) hv'] at hheading
  obtain rfl := Variant.eq_of_heading_eq hheading
  obtain ⟨hvalues, hend⟩ := values_of_fill_eq (places_begin v) (fun _ => hwrite _)
    (fun _ => hwrite _) (stops_ending write hv) (stops_ending write hv') htext
  exact ⟨v, xs, ys, hv, hv', map_parameters_eq hv hv' hvalues,
    imageFile?_eq hv hv' hplain hplain' hend⟩

/-- Two image planes whose widths differ in the tenth decimal. -/
theorem statement_of_close_image_planes :
    let k := Kind.imagePlane "a.b, 1.PNG" 1 2
    let k' := Kind.imagePlane "a.b, 1.PNG" 1.0000000001 2
    ∃ code, primitive? k = some code ∧ primitive? k' = some code ∧
      ∃ v xs ys, parameters? k = some (v, xs) ∧ parameters? k' = some (v, ys) ∧
        xs.map number = ys.map number ∧ imageFile? k = imageFile? k' := by
  intro k k'
  obtain ⟨hstatement, hnumber, htell⟩ := statements_tell_primitives
  have hsame : primitive? k' = some (imagePlane "a.b, 1.PNG" 1 2) := by decide +kernel
  have hplain : ∀ file ∈ some "a.b, 1.PNG", IsPlain file := by
    unfold IsPlain
    decide
  exact ⟨_, rfl, hsame, htell number hnumber k k' _ (hstatement ▸ rfl) (hstatement ▸ hsame)
    hplain hplain⟩

end RayScene.Primitives
