import RayScene.Proofs.Listings.Prisms
import RayScene.Proofs.Meshes.Texts
/-!
The two lists of a mesh. A comma stands before each item and behind it the line ends, so that the
commas are read at the ends of the lines: behind the number and behind all items but the last.
-/
set_option autoImplicit false

namespace RayScene.Listings

open Sdl Text

def rows (first : List Char) : List (List Char) → List (List Char)
  | [] => [first]
  | t :: ts => (first ++ [',']) :: rows t ts

def itemRows : List (List Char) → List (List Char)
  | [] => []
  | t :: ts => rows t ts

def IsTripleItem (item : List Char) : Prop :=
  ∃ triple, IsBracketed 3 triple ∧ (item = triple ∨ item = triple ++ [','])

section Rows

variable {c : Char} {lead first : List Char} {ts : List (List Char)}

theorem rows_eq (first : List Char) (ts : List (List Char)) :
    ∃ line, (line = first ∨ line = first ++ [',']) ∧ rows first ts = line :: itemRows ts := by
  cases ts with
  | nil => exact ⟨first, .inl rfl, rfl⟩
  | cons t ts => exact ⟨first ++ [','], .inr rfl, rfl⟩

theorem length_rows (first : List Char) (ts : List (List Char)) :
    (rows first ts).length = ts.length + 1 := by
  induction ts generalizing first with
  | nil => rfl
  | cons t ts ih => rw [rows, List.length_cons, ih, List.length_cons]

theorem length_itemRows (ts : List (List Char)) : (itemRows ts).length = ts.length := by
  cases ts with
  | nil => rfl
  | cons t ts => exact length_rows t ts

theorem not_mem_rows (hc : c ≠ ',') (hfirst : c ∉ first) (hts : ∀ t ∈ ts, c ∉ t) :
    ∀ line ∈ rows first ts, c ∉ line := by
  induction ts generalizing first with
  | nil => simpa [rows] using hfirst
  | cons t ts ih =>
    obtain ⟨ht, hrest⟩ := List.forall_mem_cons.mp hts
    rw [rows, List.forall_mem_cons]
    exact ⟨by simp [hfirst, hc], ih ht hrest⟩

theorem isTripleItem_of_mem_rows (hfirst : IsBracketed 3 first) (hts : ∀ t ∈ ts, IsBracketed 3 t) :
    ∀ line ∈ rows first ts, IsTripleItem line := by
  induction ts generalizing first with
  | nil =>
    intro line hline
    exact ⟨first, hfirst, .inl (List.mem_singleton.mp hline)⟩
  | cons t ts ih =>
    obtain ⟨ht, hrest⟩ := List.forall_mem_cons.mp hts
    rw [rows, List.forall_mem_cons]
    exact ⟨⟨first, hfirst, .inr rfl⟩, ih ht hrest⟩

theorem isTripleItem_of_mem_itemRows (hts : ∀ t ∈ ts, IsBracketed 3 t) :
    ∀ line ∈ itemRows ts, IsTripleItem line := by
  cases ts with
  | nil => nofun
  | cons t ts =>
    obtain ⟨ht, hrest⟩ := List.forall_mem_cons.mp hts
    exact isTripleItem_of_mem_rows ht hrest

theorem bareLines_rows (hlead : ∀ c ∈ lead, c = '\t') (hfirst : '\t' ∉ first ∧ '\n' ∉ first)
    (hts : ∀ t ∈ ts, '\t' ∉ t ∧ '\n' ∉ t) (rest : List Char) :
    bareLines (lead ++ (first ++ (ts.flatMap fun t => ',' :: '\n' :: '\t' :: '\t' :: t) ++
      '\n' :: rest)) = rows first ts ++ bareLines rest := by
  induction ts generalizing lead first with
  | nil =>
    rw [List.flatMap_nil, List.append_nil, bareLines_line hlead hfirst.1 hfirst.2]
    rfl
  | cons t ts ih =>
    obtain ⟨ht, hrest⟩ := List.forall_mem_cons.mp hts
    have htabs : ∀ c ∈ ['\t', '\t'], c = '\t' := by simp
    have hcomma : '\t' ∉ first ++ [','] ∧ '\n' ∉ first ++ [','] := by simp [hfirst]
    have htext : first ++ ((t :: ts).flatMap fun t => ',' :: '\n' :: '\t' :: '\t' :: t) ++
        '\n' :: rest = (first ++ [',']) ++ '\n' :: (['\t', '\t'] ++
          (t ++ (ts.flatMap fun t => ',' :: '\n' :: '\t' :: '\t' :: t) ++ '\n' :: rest)) := by
      simp
    rw [htext, bareLines_line hlead hcomma.1 hcomma.2, ih htabs ht hrest, rows, List.cons_append]

end Rows

section Blocks

variable {ident : String} {c : Char}

def vertexTexts (m : TriMesh) : List (List Char) := m.vertices.map fun v => (triple v).toList

def triangleText (t : Triangle) : List Char :=
  ("<" ++ natural t.a.toNat ++ ", " ++ natural t.b.toNat ++ ", " ++ natural t.c.toNat ++ ">").toList

def triangleTexts (m : TriMesh) : List (List Char) := m.triangles.map triangleText

@[simp] theorem length_vertexTexts (m : TriMesh) : (vertexTexts m).length = m.vertices.length :=
  List.length_map _

@[simp] theorem length_triangleTexts (m : TriMesh) :
    (triangleTexts m).length = m.triangles.length := List.length_map _

def rowListing (ts : List (List Char)) : Listing := ⟨some ts.length, itemRows ts⟩

theorem isBracketed_triple (v : Vec3) : IsBracketed 3 (triple v).toList := by
  refine ⟨[(number v.x).toList, (number v.y).toList, (number v.z).toList], rfl, ?_,
    by simp [triple]⟩
  simp only [List.forall_mem_cons]
  exact ⟨fun _ => isNumberChar_of_mem_number, fun _ => isNumberChar_of_mem_number,
    fun _ => isNumberChar_of_mem_number, List.forall_mem_nil _⟩

theorem isBracketed_triangleText (t : Triangle) : IsBracketed 3 (triangleText t) := by
  refine ⟨[(natural t.a.toNat).toList, (natural t.b.toNat).toList, (natural t.c.toNat).toList],
    rfl, ?_, by simp [triangleText]⟩
  simp only [List.forall_mem_cons]
  exact ⟨fun _ => isNumberChar_of_mem_natural, fun _ => isNumberChar_of_mem_natural,
    fun _ => isNumberChar_of_mem_natural, List.forall_mem_nil _⟩

theorem isBracketed_of_mem_vertexTexts {m : TriMesh} : ∀ t ∈ vertexTexts m, IsBracketed 3 t := by
  intro t ht
  obtain ⟨v, _, rfl⟩ := List.mem_map.mp ht
  exact isBracketed_triple v

theorem isBracketed_of_mem_triangleTexts {m : TriMesh} :
    ∀ t ∈ triangleTexts m, IsBracketed 3 t := by
  intro t ht
  obtain ⟨v, _, rfl⟩ := List.mem_map.mp ht
  exact isBracketed_triangleText v

def listText (heading : String) (size : Nat) (items : String) : String :=
  "\t" ++ heading ++ "\n\t\t" ++ natural size ++ items ++ "\n\t\x7d\n"

def listRows (heading : List Char) (ts : List (List Char)) : List (List Char) :=
  heading :: (rows (Nat.toDigits 10 ts.length) ts ++ [['}']])

theorem meshText_parts (ident : String) (m : TriMesh) : meshText ident m =
    "#declare " ++ ident ++ " =" ++ "\nmesh2 \x7b\n" ++
      listText "vertex_vectors \x7b" m.vertices.length
        (String.join (m.vertices.map vertexLine)) ++ "\n" ++
      listText "face_indices \x7b" m.triangles.length
        (String.join (m.triangles.map triangleLine)) ++
      "\n\tinside_vector <1, 1, 1>\n\x7d\n\n" := by
  have hfirst : " =\nmesh2 \x7b\n\tvertex_vectors \x7b\n\t\t" =
      " =" ++ ("\nmesh2 \x7b\n" ++ ("\t" ++ ("vertex_vectors \x7b" ++ "\n\t\t"))) := rfl
  have hmiddle : "\n\t\x7d\n\n\tface_indices \x7b\n\t\t" =
      "\n\t\x7d\n" ++ ("\n" ++ ("\t" ++ ("face_indices \x7b" ++ "\n\t\t"))) := rfl
  have hlast : "\n\t\x7d\n\n\tinside_vector <1, 1, 1>\n\x7d\n\n" =
      "\n\t\x7d\n" ++ "\n\tinside_vector <1, 1, 1>\n\x7d\n\n" := rfl
  unfold meshText listText
  rw [hfirst, hmiddle, hlast]
  simp only [String.append_assoc]

theorem join_vertexLines (m : TriMesh) : (String.join (m.vertices.map vertexLine)).toList =
    (vertexTexts m).flatMap fun t => ',' :: '\n' :: '\t' :: '\t' :: t := by
  simp [String.toList_join, vertexTexts, vertexLine, List.flatMap_map]

theorem join_triangleLines (m : TriMesh) : (String.join (m.triangles.map triangleLine)).toList =
    (triangleTexts m).flatMap fun t => ',' :: '\n' :: '\t' :: '\t' :: t := by
  simp [String.toList_join, triangleTexts, triangleText, triangleLine, List.flatMap_map]

theorem bareLines_listText {heading items : String} {ts : List (List Char)}
    (htab : '\t' ∉ heading.toList) (hline : '\n' ∉ heading.toList) (hts : ∀ t ∈ ts, IsBracketed 3 t)
    (hitems : items.toList = ts.flatMap fun t => ',' :: '\n' :: '\t' :: '\t' :: t)
    (rest : List Char) :
    bareLines ((listText heading ts.length items).toList ++ rest) =
      listRows heading.toList ts ++ bareLines rest := by
  have htext : (listText heading ts.length items).toList ++ rest =
      ['\t'] ++ (heading.toList ++ '\n' :: (['\t', '\t'] ++
        (Nat.toDigits 10 ts.length ++ (ts.flatMap fun t => ',' :: '\n' :: '\t' :: '\t' :: t) ++
          '\n' :: (['\t'] ++ (['}'] ++ '\n' :: rest))))) := by
    simp [listText, hitems, natural]
  have htabs : ∀ c ∈ ['\t', '\t'], c = '\t' := by simp
  have hone : ∀ c ∈ ['\t'], c = '\t' := by simp
  have hdigits : '\t' ∉ Nat.toDigits 10 ts.length ∧ '\n' ∉ Nat.toDigits 10 ts.length :=
    ⟨not_mem_digits rfl _, not_mem_digits rfl _⟩
  rw [htext, bareLines_line hone htab hline, bareLines_rows htabs hdigits,
    bareLines_line hone (by decide) (by decide)]
  · simp [listRows]
  · exact fun t ht => ⟨(hts t ht).tab_not_mem, (hts t ht).newline_not_mem⟩

def blockRows (ident : String) (m : TriMesh) : List (List Char) :=
  ("#declare " ++ ident ++ " =").toList :: "mesh2 \x7b".toList ::
    (listRows Heading.vertices.line (vertexTexts m) ++
    ([] :: (listRows Heading.faces.line (triangleTexts m) ++
      [[], "inside_vector <1, 1, 1>".toList, ['}'], []])))

theorem bareLines_meshText (htab : '\t' ∉ ident.toList) (hline : '\n' ∉ ident.toList) (m : TriMesh)
    (rest : List Char) :
    bareLines ((meshText ident m).toList ++ rest) = blockRows ident m ++ bareLines rest := by
  have hvertices := @bareLines_listText "vertex_vectors \x7b" _ _ (by decide) (by decide)
    isBracketed_of_mem_vertexTexts (join_vertexLines m)
  have hfaces := @bareLines_listText "face_indices \x7b" _ _ (by decide) (by decide)
    isBracketed_of_mem_triangleTexts (join_triangleLines m)
  rw [length_vertexTexts] at hvertices
  rw [length_triangleTexts] at hfaces
  have hmesh : "\nmesh2 \x7b\n".toList = '\n' :: ("mesh2 \x7b".toList ++ ['\n']) := rfl
  have hlast : "\n\tinside_vector <1, 1, 1>\n\x7d\n\n".toList =
      '\n' :: (['\t'] ++ ("inside_vector <1, 1, 1>".toList ++ ['\n', '}', '\n', '\n'])) := rfl
  have hnewline : "\n".toList = ['\n'] := rfl
  have hone : ∀ c ∈ ['\t'], c = '\t' := by simp
  have hinside : ∀ t, bareLines ('\t' :: ("inside_vector <1, 1, 1>".toList ++ '\n' :: t)) =
      "inside_vector <1, 1, 1>".toList :: bareLines t :=
    @bareLines_line ['\t'] "inside_vector <1, 1, 1>".toList hone (by decide) (by decide)
  have hempty : ∀ t, bareLines ('\n' :: t) = [] :: bareLines t := fun _ => rfl
  have hbrace : ∀ t, bareLines ('}' :: '\n' :: t) = ['}'] :: bareLines t := fun _ => rfl
  have htab' : '\t' ∉ ("#declare " ++ ident ++ " =").toList := by simp [htab]
  have hline' : '\n' ∉ ("#declare " ++ ident ++ " =").toList := by simp [hline]
  rw [meshText_parts, blockRows]
  generalize "#declare " ++ ident ++ " =" = declaration at htab' hline' ⊢
  simp only [String.toList_append, List.append_assoc, hmesh, hlast, hnewline, List.cons_append,
    List.nil_append]
  rw [bareLines_plain htab' hline', bareLines_plain (by decide) (by decide), hvertices, hempty,
    hfaces, hempty, hinside, hbrace, hempty]
  rfl

end Blocks

section Files

variable {h : Heading} {ident : String} {ts : List (List Char)}

theorem IsBracketed.brace_not_mem {size : Nat} {text : List Char} (h : IsBracketed size text) :
    '{' ∉ text :=
  List.count_eq_zero.mp (h.count rfl (by decide))

theorem brace_not_mem_rows (hts : ∀ t ∈ ts, IsBracketed 3 t) (n : Nat) :
    ∀ line ∈ rows (Nat.toDigits 10 n) ts, '{' ∉ line :=
  not_mem_rows (by decide) (not_mem_digits rfl n) fun t ht => (hts t ht).brace_not_mem

theorem not_mem_listRows {heading line : List Char} (hbrace : '{' ∈ line) (hne : line ≠ heading)
    (hts : ∀ t ∈ ts, IsBracketed 3 t) : line ∉ listRows heading ts := by
  have hrows := brace_not_mem_rows hts ts.length
  simp only [listRows, List.mem_cons, List.mem_append, List.not_mem_nil, or_false, not_or]
  refine ⟨hne, fun hmem => hrows line hmem hbrace, ?_⟩
  rintro rfl
  exact absurd hbrace (by decide)

theorem IsTripleItem.isItem {item : List Char} (h : IsTripleItem item) : isItem item = true := by
  obtain ⟨triple, htriple, rfl | rfl⟩ := h
  · have hitem := htriple.isItem []
    rwa [List.append_nil] at hitem
  · exact htriple.isItem [',']

theorem listingsIn_listRows (hbrace : '{' ∈ h.line) (hitem : isItem h.line = false)
    (hplace : h.place = 0) (hts : ∀ t ∈ ts, IsBracketed 3 t) (rest : List (List Char)) :
    listingsIn h (listRows h.line ts ++ rest) = rowListing ts :: listingsIn h rest := by
  obtain ⟨line, hline, hrows⟩ := rows_eq (Nat.toDigits 10 ts.length) ts
  have hvalue : valueAt h.place line = some ts.length := by
    rw [hplace]
    rcases hline with rfl | rfl
    · exact (valueAt_zero ts.length).1
    · exact (valueAt_zero ts.length).2
  have hnot := brace_not_mem_rows hts ts.length
  rw [hrows, List.forall_mem_cons] at hnot
  have hne : h.line ≠ line := fun heq => hnot.1 (heq ▸ hbrace)
  have hclose : ['}'] ≠ h.line := fun heq => absurd (heq ▸ hbrace) (by decide)
  have hread := listingsIn_heading hne (fun i hi => (isTripleItem_of_mem_itemRows hts i hi).isItem)
    (by decide : isItem ['}'] = false) hitem rest
  rw [listRows, hrows, List.cons_append, List.cons_append, List.cons_append, List.append_assoc,
    List.singleton_append, hread, hvalue, listingsIn, if_neg hclose]
  rfl

theorem IsTripleItem.count_open {item : List Char} (h : IsTripleItem item) :
    item.count '<' = 1 := by
  obtain ⟨triple, htriple, rfl | rfl⟩ := h
  · exact htriple.count_open
  · rw [List.count_append, htriple.count_open]
    rfl

theorem points_rowListing (hts : ∀ t ∈ ts, IsBracketed 3 t) :
    (rowListing ts).points = ts.length ∧ (rowListing ts).items.length = ts.length := by
  have hlength : (itemRows ts).length = ts.length := length_itemRows ts
  have hcount := fun item hitem => (isTripleItem_of_mem_itemRows hts item hitem).count_open
  refine ⟨?_, hlength⟩
  rw [Listing.points, rowListing, sum_count_of_forall hcount, hlength, Nat.mul_one]

theorem listingsIn_blockRows (hident : '{' ∉ ident.toList) (m : TriMesh) (rest : List (List Char)) :
    listingsIn .vertices (blockRows ident m ++ rest) =
        rowListing (vertexTexts m) :: listingsIn .vertices rest ∧
      listingsIn .faces (blockRows ident m ++ rest) =
        rowListing (triangleTexts m) :: listingsIn .faces rest := by
  have hvertices := @isBracketed_of_mem_vertexTexts m
  have hfaces := @isBracketed_of_mem_triangleTexts m
  have hdeclaration : ∀ line : List Char, '{' ∈ line →
      line ≠ ("#declare " ++ ident ++ " =").toList := by
    rintro line hbrace rfl
    simp [hident] at hbrace
  let opening : List (List Char) := [("#declare " ++ ident ++ " =").toList, "mesh2 \x7b".toList]
  let closing : List (List Char) := [[], "inside_vector <1, 1, 1>".toList, ['}'], []]
  have hopening : ∀ line : List Char, '{' ∈ line → line ≠ "mesh2 \x7b".toList → line ∉ opening := by
    intro line hbrace hne
    simp only [opening, List.mem_cons, List.not_mem_nil, or_false, not_or]
    exact ⟨hdeclaration line hbrace, hne⟩
  have hclosing : ∀ line : List Char, '{' ∈ line → line ∉ closing := by
    intro line hbrace hmem
    have hnone : ∀ c ∈ closing, '{' ∉ c := by decide
    exact hnone line hmem hbrace
  constructor
  · have hrest : Heading.vertices.line ∉ [[]] ++
        (listRows Heading.faces.line (triangleTexts m) ++ closing) := by
      simp only [List.mem_append, not_or]
      exact ⟨by decide, not_mem_listRows (by decide) (by decide) hfaces, hclosing _ (by decide)⟩
    have hblock : blockRows ident m ++ rest =
        opening ++ (listRows Heading.vertices.line (vertexTexts m) ++
        (([[]] ++ (listRows Heading.faces.line (triangleTexts m) ++ closing)) ++ rest)) := by
      simp [blockRows, opening, closing]
    rw [hblock, listingsIn_append_of_not_mem (hopening _ (by decide) (by decide)),
      listingsIn_listRows (by decide) (by decide) rfl hvertices, listingsIn_append_of_not_mem hrest]
  · have hfirst : Heading.faces.line ∉ opening ++
        (listRows Heading.vertices.line (vertexTexts m) ++ [[]]) := by
      simp only [List.mem_append, not_or]
      exact ⟨hopening _ (by decide) (by decide), not_mem_listRows (by decide) (by decide) hvertices,
        by decide⟩
    have hblock : blockRows ident m ++ rest =
        (opening ++ (listRows Heading.vertices.line (vertexTexts m) ++ [[]])) ++
        (listRows Heading.faces.line (triangleTexts m) ++ (closing ++ rest)) := by
      simp [blockRows, opening, closing]
    rw [hblock, listingsIn_append_of_not_mem hfirst,
      listingsIn_listRows (by decide) (by decide) rfl hfaces,
      listingsIn_append_of_not_mem (hclosing _ (by decide))]

theorem listings_meshText {blocks : List MeshBlock}
    (h : ∀ b ∈ blocks, ∃ label, b.ident = meshIdentifier label) :
    listings .vertices (String.join (blocks.map MeshBlock.text)) =
        blocks.map (fun b => rowListing (vertexTexts b.mesh)) ∧
      listings .faces (String.join (blocks.map MeshBlock.text)) =
        blocks.map fun b => rowListing (triangleTexts b.mesh) := by
  unfold listings
  induction blocks with
  | nil => exact ⟨rfl, rfl⟩
  | cons b blocks ih =>
    obtain ⟨⟨label, hlabel⟩, hrest⟩ := List.forall_mem_cons.mp h
    have hident : ∀ c ∈ b.ident.toList, isIdentifierChar c = true := by
      rw [hlabel]
      exact fun _ => isIdentifierChar_of_mem_meshIdentifier
    have hnot : ∀ c, isIdentifierChar c = false → c ∉ b.ident.toList := by
      intro c hc hmem
      rw [hident c hmem] at hc
      cases hc
    obtain ⟨hvertices, hfaces⟩ := listingsIn_blockRows (hnot _ (by decide)) b.mesh
      (bareLines (String.join (blocks.map MeshBlock.text)).toList)
    rw [List.map_cons, String.join_cons, String.toList_append, MeshBlock.text,
      bareLines_meshText (hnot _ (by decide)) (hnot _ (by decide)), hvertices, hfaces,
      (ih hrest).1, (ih hrest).2]
    exact ⟨rfl, rfl⟩

end Files

end RayScene.Listings
