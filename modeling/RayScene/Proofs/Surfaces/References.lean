import Mathlib.Data.List.TakeWhile
import RayScene.Proofs.Text.Identifiers
import RayScene.Proofs.Text.Numbers
import RayScene.Proofs.Text.Search
import RayScene.Sdl.Surface
/-!
References to declarations. Materials and photons refer to what an include file was found to
declare. What is found is a declaration of the identifier itself or of a longer one that begins with
it.
-/
set_option autoImplicit false

namespace RayScene.Sdl

def IsWord (s : String) : Prop := ∀ c ∈ s.toList, isIdentifierChar c = true

def Stops (t : List Char) : Prop := ∀ c ∈ t.head?, isIdentifierChar c = false

/-- What is directly before an identifier that is referred to. -/
def openers : List String :=
  ["material \x7b", "texture \x7b", "pigment \x7b", "reflection ", "refraction ", "collect "]

def RefersTo (text ident : String) : Prop :=
  ident ≠ "" ∧ IsWord ident ∧ ∃ opener ∈ openers, ∃ before after, Stops after ∧
    text.toList = before ++ (opener.toList ++ (ident.toList ++ after))

/-- The file without its comments declares the identifier as a whole. -/
def Include.DeclaresWord (i : Include) (word : String) : Prop :=
  ∃ code, i.content = some code ∧ ∃ before after, Stops after ∧
    code.toList = before ++ (("#declare " ++ word).toList ++ after)

/-- It declares the identifier or a longer one that begins with it. -/
def Include.DeclaresFrom (i : Include) (ident : String) : Prop :=
  ∃ tail, IsWord tail ∧ i.DeclaresWord (ident ++ tail)

section Words

variable {s t : String} {after after' rest : List Char} {c : Char}

theorem IsWord.append (hs : IsWord s) (ht : IsWord t) : IsWord (s ++ t) := by
  intro c hc
  rw [String.toList_append] at hc
  exact (List.mem_append.mp hc).elim (hs c) (ht c)

theorem isWord_sanitize (label : String) : IsWord (sanitize label) :=
  fun _ => isIdentifierChar_of_mem_sanitize

theorem IsWord.not_mem (hs : IsWord s) (hc : isIdentifierChar c = false) : c ∉ s.toList :=
  fun hmem => absurd ((hs c hmem).symm.trans hc) nofun

theorem takeWhile_word (hs : IsWord s) (hafter : Stops after) :
    (s.toList ++ after).takeWhile isIdentifierChar = s.toList :=
  Text.takeWhile_append_of_stop hs hafter

theorem word_unique (hs : IsWord s) (ht : IsWord t) (hafter : Stops after) (hafter' : Stops after')
    (h : s.toList ++ after = t.toList ++ after') : s = t :=
  String.toList_inj.mp (Text.eq_of_append_eq hs ht hafter hafter' h).1

theorem head_of_word (hne : s ≠ "") (hs : IsWord s) (h : s.toList ++ after = c :: rest) :
    isIdentifierChar c = true := by
  cases hlist : s.toList with
  | nil => exact absurd (String.toList_inj.mp hlist) hne
  | cons d word =>
    rw [hlist] at h
    cases h
    exact hs _ (hlist ▸ List.mem_cons_self)

theorem stops_dropWhile (t : List Char) : Stops (t.dropWhile isIdentifierChar) := by
  intro c hc
  have hnot := List.head?_dropWhile_not isIdentifierChar t
  rwa [Option.mem_def.mp hc] at hnot

/-- A declaration that is found goes on to the end of a word. -/
theorem declares_iff (i : Include) (ident : String) :
    i.declares ident = true ↔ i.DeclaresFrom ident := by
  unfold Include.declares Include.mentions
  rw [Option.any_eq_true]
  constructor
  · rintro ⟨code, hcode, hcontains⟩
    obtain ⟨before, rest, htext⟩ := contains_iff.mp hcontains
    refine ⟨String.ofList (rest.takeWhile isIdentifierChar), ?_, code, hcode, before,
      rest.dropWhile isIdentifierChar, stops_dropWhile rest, ?_⟩
    · intro c hc
      rw [String.toList_ofList] at hc
      exact List.mem_takeWhile_imp hc
    · rw [← htext]
      simp [List.takeWhile_append_dropWhile]
  · rintro ⟨tail, _, code, hcode, before, after, _, htext⟩
    refine ⟨code, hcode, contains_iff.mpr ⟨before, tail.toList ++ after, ?_⟩⟩
    rw [htext]
    simp

end Words

section Splitting

variable {x : Char} {P : Char → Prop} {a a' b b' : List Char}

theorem split_cases (hx : x ∉ a) (h : a' ++ x :: b' = a ++ x :: b) :
    (a' = a ∧ b' = b) ∨ ∃ more, more ++ x :: b' = b := by
  induction a generalizing a' with
  | nil =>
    cases a' with
    | nil =>
      cases h
      exact .inl ⟨rfl, rfl⟩
    | cons c a' =>
      cases h
      exact .inr ⟨a', rfl⟩
  | cons c a ih =>
    obtain ⟨hc, hrest⟩ := List.ne_and_not_mem_of_not_mem_cons hx
    cases a' with
    | nil =>
      cases h
      exact absurd rfl hc
    | cons d a' =>
      obtain ⟨rfl, htail⟩ := List.cons.inj h
      rcases ih hrest htail with ⟨rfl, rfl⟩ | hmore
      · exact .inl ⟨rfl, rfl⟩
      · exact .inr hmore

theorem split_unique (ha : x ∉ a) (hb : x ∉ b) (h : a' ++ x :: b' = a ++ x :: b) :
    a' = a ∧ b' = b := by
  rcases split_cases ha h with hsame | ⟨more, rfl⟩
  · exact hsame
  · exact absurd (by simp) hb

def Behind (x : Char) (P : Char → Prop) (t : List Char) : Prop :=
  ∀ before rest, t = before ++ x :: rest → ∃ c ∈ rest.head?, P c

theorem Behind.of_not_mem (h : x ∉ a) : Behind x P a := by
  rintro before rest rfl
  exact absurd (by simp) h

theorem Behind.append (ha : Behind x P a) (hb : Behind x P b) : Behind x P (a ++ b) := by
  intro before rest h
  rcases List.append_eq_append_iff.mp h with ⟨more, rfl, hbehind⟩ | ⟨more, hfront, hmore⟩
  · exact hb more rest hbehind
  · cases more with
    | nil => exact hb [] rest hmore.symm
    | cons d more =>
      obtain ⟨rfl, rfl⟩ := List.cons.inj hmore
      obtain ⟨c, hc, hP⟩ := ha before more hfront
      exact ⟨c, by simp [Option.mem_def.mp hc], hP⟩

theorem Behind.single {c : Char} (ha : x ∉ a) (hb : x ∉ c :: b) (hc : P c) :
    Behind x P (a ++ x :: c :: b) := by
  intro before rest h
  obtain ⟨_, rfl⟩ := split_unique ha hb h.symm
  exact ⟨c, rfl, hc⟩

end Splitting

section Openers

variable {opener text ident name : String} {lead : List Char}

/-- A reference stands behind a brace or a space, and words before a space have two letters in
common. -/
theorem opener_cases (h : opener ∈ openers) :
    (∃ w, opener.toList = w ++ ['{'] ∧ ¬w <:+ "\nphotons ".toList) ∨
      ∃ w v, opener.toList = w ++ 'c' :: 't' :: (v ++ [' ']) := by
  simp only [openers, List.mem_cons, List.not_mem_nil, or_false] at h
  rcases h with rfl | rfl | rfl | rfl | rfl | rfl
  · exact .inl ⟨"material ".toList, rfl, by decide⟩
  · exact .inl ⟨"texture ".toList, rfl, by decide⟩
  · exact .inl ⟨"pigment ".toList, rfl, by decide⟩
  · exact .inr ⟨"refle".toList, "ion".toList, rfl⟩
  · exact .inr ⟨"refra".toList, "ion".toList, rfl⟩
  · exact .inr ⟨"colle".toList, [], rfl⟩

theorem not_behind {x : Char} {before after : List Char} (hne : ident ≠ "") (hword : IsWord ident)
    (h : text.toList = before ++ x :: (ident.toList ++ after)) :
    ¬Behind x (fun c => isIdentifierChar c = false) text.toList := by
  intro hbehind
  obtain ⟨c, hc, hother⟩ := hbehind _ _ h
  obtain ⟨rest, hrest⟩ : ∃ rest, ident.toList ++ after = c :: rest :=
    ⟨_, (List.eq_cons_of_mem_head? hc)⟩
  exact absurd ((head_of_word hne hword hrest).symm.trans hother) nofun

/-- A text refers to nothing if no identifier is behind a brace and no two letters are those of an
opener. -/
theorem not_refersTo (hbrace : Behind '{' (fun c => isIdentifierChar c = false) text.toList)
    (hletter : Behind 'c' (· ≠ 't') text.toList) : ¬RefersTo text ident := by
  rintro ⟨hne, hword, opener, hopener, before, after, _, htext⟩
  rcases opener_cases hopener with ⟨w, hw, _⟩ | ⟨w, v, hw⟩
  · have hplace : text.toList = (before ++ w) ++ '{' :: (ident.toList ++ after) := by
      simp [htext, hw]
    exact not_behind hne hword hplace hbrace
  · obtain ⟨c, hc, hne⟩ := hletter (before ++ w) ('t' :: (v ++ ' ' :: (ident.toList ++ after)))
      (by simp [htext, hw])
    cases hc
    exact hne rfl

theorem refersTo_clause (hname : name ≠ "" ∧ IsWord name) (hspace : ' ' ∉ lead)
    (hbrace : '{' ∉ lead) (hopener : ∃ opener ∈ openers, opener.toList <:+ lead ++ [' ', '{'])
    (htext : text.toList = lead ++ ' ' :: '{' :: (name.toList ++ [' ', '}', '\n'])) :
    RefersTo text ident ↔ ident = name := by
  have hends : Stops [' ', '}', '\n'] := by
    rintro c hc
    cases hc
    rfl
  constructor
  · rintro ⟨hne, hword, opener, hmem, before, after, hstops, heq⟩
    rcases opener_cases hmem with ⟨w, hw, _⟩ | ⟨w, v, hw⟩
    · have hsame : (before ++ w) ++ '{' :: (ident.toList ++ after) =
          (lead ++ [' ']) ++ '{' :: (name.toList ++ [' ', '}', '\n']) := by
        rw [hw] at heq
        simpa using heq.symm.trans htext
      have hnone : '{' ∉ name.toList ++ [' ', '}', '\n'] := by
        simp [hname.2.not_mem (c := '{') rfl]
      obtain ⟨_, hrest⟩ := split_unique (by simp [hbrace]) hnone hsame
      exact word_unique hword hname.2 hstops hends hrest
    · have hplace : text.toList =
          (before ++ (w ++ 'c' :: 't' :: v)) ++ ' ' :: (ident.toList ++ after) := by
        simp [heq, hw]
      refine absurd ?_ (not_behind hne hword hplace)
      have hlead : Behind ' ' (fun c => isIdentifierChar c = false) (lead ++ ' ' :: '{' :: []) :=
        .single hspace (by decide) rfl
      have hmiddle : Behind ' ' (fun c => isIdentifierChar c = false) name.toList :=
        .of_not_mem (hname.2.not_mem rfl)
      have hend : Behind ' ' (fun c => isIdentifierChar c = false) ([] ++ ' ' :: '}' :: ['\n']) :=
        .single nofun (by decide) rfl
      rw [htext]
      simpa using (hlead.append hmiddle).append hend
  · rintro rfl
    obtain ⟨opener, hmem, before, hbefore⟩ := hopener
    refine ⟨hname.1, hname.2, opener, hmem, before, _, hends, ?_⟩
    rw [htext, ← List.append_assoc before, hbefore]
    simp

end Openers

/-- Neither a brace opens in the text nor has it the letter that all words before a space have. -/
def Mild (s : String) : Prop := ∀ c ∈ s.toList, c ≠ '{' ∧ c ≠ 'c'

section Colors

variable {s t ident : String}

theorem Mild.literal {cs : List Char} (h : cs.all (fun c => c != '{' && c != 'c') = true) :
    Mild (String.ofList cs) := by
  intro c hc
  rw [String.toList_ofList] at hc
  simpa using List.all_eq_true.mp h c hc

theorem Mild.empty : Mild "" := .literal rfl

theorem Mild.append (hs : Mild s) (ht : Mild t) : Mild (s ++ t) := by
  intro c hc
  rw [String.toList_append] at hc
  exact (List.mem_append.mp hc).elim (hs c) (ht c)

theorem Mild.ite {p : Prop} [Decidable p] (hs : Mild s) (ht : Mild t) :
    Mild (if p then s else t) :=
  iteInduction (fun _ => hs) fun _ => ht

theorem mild_of_number (h : ∀ c ∈ s.toList, isNumberChar c = true) : Mild s := by
  intro c hc
  have hne : ∀ d, isNumberChar d = false → c ≠ d := by
    rintro d hd rfl
    exact absurd ((h c hc).symm.trans hd) nofun
  exact ⟨hne _ rfl, hne _ rfl⟩

theorem mild_number (x : Float) : Mild (number x) :=
  mild_of_number fun _ => isNumberChar_of_mem_number

theorem mild_fixed (places : Nat) (x : Float) : Mild (fixed places x) :=
  mild_of_number fun _ => isNumberChar_of_mem_fixed

theorem mild_components (c : Rgb) : Mild (components c) := by
  have hfixed : ∀ x : Float32, Mild (fixedSingle 3 x) := fun x =>
    mild_of_number fun _ => isNumberChar_of_mem_fixedSingle
  exact .append (.append (.append (.append (hfixed c.red) <| .literal rfl) <| hfixed c.green) <|
    .literal rfl) <| hfixed c.blue

structure Silent (s : String) : Prop where
  brace : Behind '{' (fun c => isIdentifierChar c = false) s.toList
  letter : Behind 'c' (· ≠ 't') s.toList

theorem Silent.append (hs : Silent s) (ht : Silent t) : Silent (s ++ t) := by
  constructor
  · rw [String.toList_append]
    exact hs.brace.append ht.brace
  · rw [String.toList_append]
    exact hs.letter.append ht.letter

theorem Mild.silent (h : Mild s) : Silent s :=
  ⟨.of_not_mem fun hmem => (h _ hmem).1 rfl, .of_not_mem fun hmem => (h _ hmem).2 rfl⟩

theorem Silent.ite {p : Prop} [Decidable p] (hs : Silent s) (ht : Silent t) :
    Silent (if p then s else t) :=
  iteInduction (fun _ => hs) fun _ => ht

theorem silent_pigment (v : ViewStyle) (shapeColor : Rgb) : Silent (pigment v shapeColor) := by
  have hhead : Silent "\tpigment \x7b color rgb " :=
    ⟨.single (a := "\tpigment ".toList) (b := "color rgb ".toList) (by decide) (by decide) rfl,
      .single (a := "\tpigment \x7b ".toList) (b := "lor rgb ".toList) (by decide) (by decide)
        (by decide)⟩
  have hcolor : Mild (color v.color) :=
    .append (.append (.literal rfl) <| mild_components _) <| .literal rfl
  have htransmit : Mild (if v.transparency = 0 then "" else
      " transmit " ++ number (Float.ofNat v.transparency.toNat / 100)) :=
    .ite .empty <| .append (.literal rfl) <| mild_number _
  have hend : Mild " \x7d\n" := .literal rfl
  exact .ite Mild.empty.silent <|
    .append (.append (hhead.append hcolor.silent) htransmit.silent) hend.silent

theorem silent_finish (m : ShapeMaterial) : Silent (finish m) := by
  have hhead : Silent "finish \x7b\n\t" :=
    ⟨.single (a := "finish ".toList) (b := "\t".toList) (by decide) (by decide) rfl,
      .of_not_mem (by decide)⟩
  have hambient : Mild (if m.ambient == ShapeMaterial.plainAmbient then "" else
      "ambient rgb<" ++ components m.ambient.rgb ++ ">") :=
    .ite .empty <| .append (.append (.literal rfl) <| mild_components _) <| .literal rfl
  have hemission : Mild (if m.emissive == Rgba.black then "" else
      "emission rgb<" ++ components m.emissive.rgb ++ ">") :=
    .ite .empty <| .append (.append (.literal rfl) <| mild_components _) <| .literal rfl
  have hphong : Mild (if m.specular == Rgba.black then "" else
      "phong " ++ fixed 2 (meanLight m.specular) ++ " phong_size " ++
        number (m.shininess * 50) ++ " ") :=
    .ite .empty <| .append (.append (.append (.append (.literal rfl) <| mild_fixed _ _) <|
      .literal rfl) <| mild_number _) <| .literal rfl
  have hline : Mild "\n\t" := .literal rfl
  have hend : Mild "\n\x7d\n" := .literal rfl
  exact .ite Mild.empty.silent <| .append (.append (.append (.append (.append
    (hhead.append hambient.silent) hline.silent) hemission.silent) hline.silent) hphong.silent)
    hend.silent

theorem not_refersTo_colors (v : ViewStyle) (shapeColor : Rgb) (ident : String) :
    ¬RefersTo (pigment v shapeColor ++ finish v.material) ident := by
  have hsilent := (silent_pigment v shapeColor).append (silent_finish v.material)
  exact not_refersTo hsilent.brace hsilent.letter

end Colors

section Materials

variable {c : Context} {n : Node} {label ident suffix : String}

def materialLookups (c : Context) (label : String) : List (Include × String) :=
  [(c.user, label ++ "_material"), (c.textures, label ++ "_material_hollow"),
    (c.textures, label ++ "_material"), (c.textures, label ++ "_texture"),
    (c.textures, label ++ "_pigment")]

/-- The file in which a material was found, and as what. -/
def materialSource? (c : Context) (n : Node) : Option (Include × String) :=
  (materialLookups c (sanitize n.label)).find? fun (file, name) => file.declares name

theorem word_of_suffix (label : String) (hne : suffix ≠ "") (hsuffix : IsWord suffix) :
    sanitize label ++ suffix ≠ "" ∧ IsWord (sanitize label ++ suffix) :=
  ⟨fun h => hne (String.append_eq_empty_iff.mp h).2, (isWord_sanitize label).append hsuffix⟩

theorem refersTo_lookup {front back : String} (label : String) (lead : List Char)
    (hne : suffix ≠ "") (hsuffix : suffix.toList.all isIdentifierChar = true)
    (hfront : front.toList = lead ++ [' ', '{']) (hlead : ' ' ∉ lead ∧ '{' ∉ lead)
    (hback : back.toList = suffix.toList ++ [' ', '}', '\n'])
    (hopener : ∃ opener ∈ openers, opener.toList <:+ front.toList) :
    RefersTo (front ++ sanitize label ++ back) ident ↔ ident = sanitize label ++ suffix := by
  refine refersTo_clause (word_of_suffix label hne (List.all_eq_true.mp hsuffix)) hlead.1 hlead.2
    (hfront ▸ hopener) ?_
  simp [hfront, hback]

/-- The text of a lookup before the text of the ones behind it refers to what is found first. -/
theorem refersTo_found {text rest name : String} {file : Include} {more : List (Include × String)}
    (htext : RefersTo text ident ↔ ident = name)
    (hrest : RefersTo rest ident ↔
      ∃ f, more.find? (fun (file, name) => file.declares name) = some (f, ident)) :
    RefersTo (if file.declares name then text else rest) ident ↔
      ∃ f, ((file, name) :: more).find? (fun (file, name) => file.declares name) =
        some (f, ident) := by
  simp only [List.find?_cons]
  cases file.declares name with
  | false => exact hrest
  | true =>
    refine htext.trans ⟨?_, ?_⟩
    · rintro rfl
      exact ⟨file, rfl⟩
    · rintro ⟨f, h⟩
      cases h
      rfl

theorem material_eq_lookups (c : Context) (n : Node) : material c n =
    let label := sanitize n.label
    if c.user.declares (label ++ "_material") then
      "\nmaterial \x7b" ++ label ++ "_material \x7d\n"
    else if c.textures.declares (label ++ "_material_hollow") then
      "\nhollow\nmaterial \x7b" ++ label ++ "_material_hollow \x7d\n"
    else if c.textures.declares (label ++ "_material") then
      "\nmaterial \x7b" ++ label ++ "_material \x7d\n"
    else if c.textures.declares (label ++ "_texture") then
      "\ntexture \x7b" ++ label ++ "_texture \x7d\n"
    else if c.textures.declares (label ++ "_pigment") then
      "\npigment \x7b" ++ label ++ "_pigment \x7d\n"
    else pigment n.view (Rgb.ofPacked c.settings.view.shapeColor) ++ finish n.view.material := by
  unfold material textureClause?
  dsimp only
  cases c.textures.declares (sanitize n.label ++ "_material_hollow") <;>
    cases c.textures.declares (sanitize n.label ++ "_material") <;>
    cases c.textures.declares (sanitize n.label ++ "_texture") <;>
    cases c.textures.declares (sanitize n.label ++ "_pigment") <;> rfl

theorem refersTo_material (c : Context) (n : Node) (ident : String) :
    RefersTo (material c n) ident ↔ ∃ file, materialSource? c n = some (file, ident) := by
  have hmaterial : RefersTo ("\nmaterial \x7b" ++ sanitize n.label ++ "_material \x7d\n") ident ↔
      ident = sanitize n.label ++ "_material" :=
    refersTo_lookup n.label "\nmaterial".toList (by decide) rfl rfl (by decide) rfl
      ⟨"material \x7b", by decide, by decide⟩
  have hhollow :
      RefersTo ("\nhollow\nmaterial \x7b" ++ sanitize n.label ++ "_material_hollow \x7d\n") ident ↔
        ident = sanitize n.label ++ "_material_hollow" :=
    refersTo_lookup n.label "\nhollow\nmaterial".toList (by decide) rfl rfl (by decide) rfl
      ⟨"material \x7b", by decide, by decide⟩
  have htexture : RefersTo ("\ntexture \x7b" ++ sanitize n.label ++ "_texture \x7d\n") ident ↔
      ident = sanitize n.label ++ "_texture" :=
    refersTo_lookup n.label "\ntexture".toList (by decide) rfl rfl (by decide) rfl
      ⟨"texture \x7b", by decide, by decide⟩
  have hpigment : RefersTo ("\npigment \x7b" ++ sanitize n.label ++ "_pigment \x7d\n") ident ↔
      ident = sanitize n.label ++ "_pigment" :=
    refersTo_lookup n.label "\npigment".toList (by decide) rfl rfl (by decide) rfl
      ⟨"pigment \x7b", by decide, by decide⟩
  rw [material_eq_lookups]
  unfold materialSource? materialLookups
  exact refersTo_found hmaterial <| refersTo_found hhollow <| refersTo_found hmaterial <|
    refersTo_found htexture <| refersTo_found hpigment <|
      iff_of_false (not_refersTo_colors _ _ _) (by simp)

end Materials

section Photons

variable {label ident target : String} {clauses : List String}

def photonClauses : List String := ["reflection", "refraction", "collect"]

def photonName (label clause : String) : String := sanitize label ++ "_photons_" ++ clause

def photonLine (label clause : String) : String :=
  "\n\t" ++ clause ++ " " ++ photonName label clause

def photonBlock (label target : String) (clauses : List String) : String :=
  "\nphotons \x7b" ++ target ++ String.join (clauses.map (photonLine label)) ++ "\n\x7d\n"

theorem join_filter (p : String → Bool) (g : String → String) (l : List String) :
    String.join ((l.filter p).map g) = String.join (l.map fun s => if p s then g s else "") := by
  induction l with
  | nil => rfl
  | cons s l ih => cases hs : p s <;> simp [hs, ih]

theorem photons_eq_block (c : Context) (n : Node) : photons c n =
    if c.user.declares (sanitize n.label ++ "_photons") then
      photonBlock n.label (if n.kind.isLight then "" else "\n\ttarget")
        (photonClauses.filter fun k => c.user.declares (photonName n.label k))
    else "" := by
  unfold photons photonBlock photonClauses photonLine photonName
  rw [join_filter]
  simp only [List.map_cons, List.map_nil, String.join_cons, String.join_nil, String.append_empty,
    String.append_assoc]

theorem word_of_photonName (label : String) {k : String} (hk : k ∈ photonClauses) :
    photonName label k ≠ "" ∧ IsWord (photonName label k) := by
  have hall : ∀ k ∈ photonClauses, k ≠ "" ∧ k.toList.all isIdentifierChar = true := by decide
  obtain ⟨hne, hword⟩ := hall k hk
  have hmiddle : IsWord "_photons_" := List.all_eq_true.mp (by decide)
  exact ⟨fun h => hne (String.append_eq_empty_iff.mp h).2,
    ((isWord_sanitize label).append hmiddle).append (List.all_eq_true.mp hword)⟩

theorem exists_block_end (label : String) (clauses : List String) : ∃ after,
    (String.join (clauses.map (photonLine label))).toList ++ ['\n', '}', '\n'] = '\n' :: after := by
  cases clauses with
  | nil => exact ⟨_, rfl⟩
  | cons k clauses =>
    refine ⟨'\t' :: (k.toList ++ ' ' :: ((photonName label k).toList ++
      ((String.join (clauses.map (photonLine label))).toList ++ ['\n', '}', '\n']))), ?_⟩
    simp [photonLine]

theorem behind_space {a before rest : List Char} (hclauses : clauses ⊆ photonClauses) (ha : ' ' ∉ a)
    (h : before ++ ' ' :: rest =
      a ++ ((String.join (clauses.map (photonLine label))).toList ++ ['\n', '}', '\n'])) :
    ∃ k ∈ clauses, ∃ after, rest = (photonName label k).toList ++ '\n' :: after := by
  induction clauses generalizing a before with
  | nil =>
    have hmem : ' ' ∈ a ++ ['\n', '}', '\n'] := by
      rw [List.map_nil, String.join_nil, String.toList_empty, List.nil_append] at h
      rw [← h]
      simp
    simp [ha] at hmem
  | cons k clauses ih =>
    obtain ⟨hk, hrest⟩ := List.cons_subset.mp hclauses
    have hfree : ' ' ∉ k.toList := by
      have hall : ∀ k ∈ photonClauses, ' ' ∉ k.toList := by decide
      exact hall k hk
    have hname : ' ' ∉ (photonName label k).toList := (word_of_photonName label hk).2.not_mem rfl
    have hline : before ++ ' ' :: rest =
        (a ++ '\n' :: '\t' :: k.toList) ++ ' ' :: ((photonName label k).toList ++
          ((String.join (clauses.map (photonLine label))).toList ++ ['\n', '}', '\n'])) := by
      rw [h]
      simp [photonLine]
    rcases split_cases (by simp [ha, hfree]) hline with ⟨_, rfl⟩ | ⟨more, hmore⟩
    · obtain ⟨after, hafter⟩ := exists_block_end label clauses
      exact ⟨k, List.mem_cons_self, after, by rw [hafter]⟩
    · obtain ⟨k', hk', after, hafter⟩ := ih hrest hname hmore
      exact ⟨k', List.mem_cons_of_mem _ hk', after, hafter⟩

theorem brace_not_mem_lines (label : String) (hclauses : clauses ⊆ photonClauses) :
    '{' ∉ (String.join (clauses.map (photonLine label))).toList := by
  have hfree : ∀ k ∈ photonClauses, '{' ∉ k.toList := by decide
  have hlines : ∀ k ∈ clauses, '{' ∉ k.toList ∧ '{' ∉ (photonName label k).toList := fun k hk =>
    ⟨hfree k (hclauses hk), (word_of_photonName label (hclauses hk)).2.not_mem rfl⟩
  simpa [photonLine] using hlines

theorem stops_newline (after : List Char) : Stops ('\n' :: after) := by
  rintro c hc
  cases hc
  rfl

theorem toList_photonBlock (label target : String) (clauses : List String) :
    (photonBlock label target clauses).toList = "\nphotons ".toList ++ '{' :: (target.toList ++
      ((String.join (clauses.map (photonLine label))).toList ++ ['\n', '}', '\n'])) := by
  simp [photonBlock]

theorem refersTo_line (hclauses : clauses ⊆ photonClauses) {k : String} (hk : k ∈ clauses) :
    RefersTo (photonBlock label target clauses) (photonName label k) := by
  have hname := word_of_photonName label (hclauses hk)
  have hopener : ∀ k ∈ photonClauses, k ++ " " ∈ openers := by decide
  obtain ⟨first, more, rfl⟩ := List.append_of_mem hk
  obtain ⟨after, hafter⟩ := exists_block_end label more
  refine ⟨hname.1, hname.2, _, hopener k (hclauses hk),
    "\nphotons \x7b".toList ++ (target.toList ++
      ((String.join (first.map (photonLine label))).toList ++ ['\n', '\t'])),
    _, stops_newline after, ?_⟩
  rw [← hafter, toList_photonBlock]
  simp [photonLine]

theorem exists_line_of_refersTo (hclauses : clauses ⊆ photonClauses) (hspace : ' ' ∉ target.toList)
    (hbrace : '{' ∉ target.toList) (h : RefersTo (photonBlock label target clauses) ident) :
    ∃ k ∈ clauses, ident = photonName label k := by
  obtain ⟨hne, hword, opener, hmem, before, after, hstops, heq⟩ := h
  rw [toList_photonBlock] at heq
  rcases opener_cases hmem with ⟨w, hw, hnot⟩ | ⟨w, v, hw⟩
  · have hplace : (before ++ w) ++ '{' :: (ident.toList ++ after) =
        "\nphotons ".toList ++ '{' :: (target.toList ++
          ((String.join (clauses.map (photonLine label))).toList ++ ['\n', '}', '\n'])) := by
      rw [heq, hw]
      simp
    have hnone : '{' ∉ target.toList ++
        ((String.join (clauses.map (photonLine label))).toList ++ ['\n', '}', '\n']) := by
      simp only [List.mem_append, hbrace, brace_not_mem_lines label hclauses, false_or]
      decide
    obtain ⟨hfront, _⟩ := split_unique (by decide) hnone hplace
    exact absurd ⟨before, hfront⟩ hnot
  · have hplace : (before ++ (w ++ 'c' :: 't' :: v)) ++ ' ' :: (ident.toList ++ after) =
        "\nphotons".toList ++ ' ' :: (('{' :: target.toList) ++
          ((String.join (clauses.map (photonLine label))).toList ++ ['\n', '}', '\n'])) := by
      rw [hw] at heq
      simpa using heq.symm
    rcases split_cases (by decide) hplace with ⟨_, hopen⟩ | ⟨more, hmore⟩
    · exact absurd (head_of_word hne hword hopen) (by decide)
    · obtain ⟨k, hk, rest, hrest⟩ := behind_space hclauses (by simp [hspace]) hmore
      exact ⟨k, hk, word_unique hword (word_of_photonName label (hclauses hk)).2 hstops
        (stops_newline rest) hrest⟩

theorem refersTo_photons (c : Context) (n : Node) (ident : String) :
    RefersTo (photons c n) ident ↔ c.user.declares (sanitize n.label ++ "_photons") = true ∧
      ∃ k ∈ photonClauses, ident = photonName n.label k ∧ c.user.declares ident = true := by
  rw [photons_eq_block]
  cases c.user.declares (sanitize n.label ++ "_photons") with
  | false =>
    refine iff_of_false (not_refersTo (.of_not_mem nofun) (.of_not_mem nofun)) ?_
    exact fun h => Bool.false_ne_true h.1
  | true =>
    have htarget : ' ' ∉ (if n.kind.isLight then "" else "\n\ttarget").toList ∧
        '{' ∉ (if n.kind.isLight then "" else "\n\ttarget").toList := by
      cases n.kind.isLight <;> decide
    rw [if_pos rfl]
    constructor
    · intro h
      obtain ⟨k, hk, rfl⟩ := exists_line_of_refersTo (List.filter_subset_self _) htarget.1
        htarget.2 h
      obtain ⟨hk, hdeclares⟩ := List.mem_filter.mp hk
      exact ⟨rfl, k, hk, rfl, hdeclares⟩
    · rintro ⟨_, k, hk, rfl, hdeclares⟩
      exact refersTo_line (List.filter_subset_self _) (List.mem_filter.mpr ⟨hk, hdeclares⟩)

end Photons

section References

/-- A material refers to the first name that is found for it, and photons to those the user's file
has next to a name for photons. Each is declared in the file it was found in, or is the beginning of
what is. -/
theorem reference_iff_declared (c : Context) (n : Node) (ident : String) :
    (RefersTo (material c n) ident ↔ ∃ file, materialSource? c n = some (file, ident) ∧
      file.DeclaresFrom ident) ∧
    (RefersTo (photons c n) ident ↔ c.user.DeclaresFrom (sanitize n.label ++ "_photons") ∧
      ∃ k ∈ photonClauses, ident = photonName n.label k ∧ c.user.DeclaresFrom ident) := by
  have hfound : ∀ file, materialSource? c n = some (file, ident) → file.DeclaresFrom ident := by
    intro file h
    unfold materialSource? at h
    have hdeclares := List.find?_some h
    exact (declares_iff file ident).mp hdeclares
  constructor
  · rw [refersTo_material]
    constructor
    · rintro ⟨file, h⟩
      exact ⟨file, h, hfound file h⟩
    · rintro ⟨file, h, _⟩
      exact ⟨file, h⟩
  · rw [refersTo_photons, declares_iff]
    simp only [declares_iff]

/-- A box refers to a material that neither file declares, as there is one with a longer name. -/
theorem reference_to_beginning :
    let c : Context := { Context.bare Settings.standard Camera.standard with
      textures := ⟨some "#declare Box_material_glossy = material \x7b \x7d"⟩ }
    let n := Node.ofKind "Box" (.box 1 1 1)
    RefersTo (material c n) "Box_material" ∧
      materialSource? c n = some (c.textures, "Box_material") ∧
      ¬c.textures.DeclaresWord "Box_material" ∧ ¬c.user.DeclaresWord "Box_material" := by
  intro c n
  have hsource : materialSource? c n = some (c.textures, "Box_material") := by decide
  refine ⟨(refersTo_material c n _).mpr ⟨_, hsource⟩, hsource, ?_, ?_⟩
  · rintro ⟨code, hcode, before, after, hstops, htext⟩
    cases hcode
    have hplace : before ++ '#' :: ("declare Box_material".toList ++ after) =
        [] ++ '#' :: ("declare Box_material".toList ++ "_glossy = material \x7b \x7d".toList) := by
      have hname : ("#declare " ++ "Box_material").toList =
        '#' :: "declare Box_material".toList := by decide
      rw [hname] at htext
      exact htext.symm
    obtain ⟨_, hrest⟩ := split_unique List.not_mem_nil (by decide) hplace
    rw [List.append_cancel_left hrest] at hstops
    exact absurd (hstops '_' rfl) (by decide)
  · rintro ⟨code, hcode, before, after, _, htext⟩
    cases hcode
    have hlength := congrArg List.length htext
    simp at hlength

end References

end RayScene.Sdl
