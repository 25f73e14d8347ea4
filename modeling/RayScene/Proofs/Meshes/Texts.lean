import RayScene.Check.Verdict
import RayScene.Proofs.Text.Identifiers
import RayScene.Proofs.Text.Lines
import RayScene.Proofs.Text.Numbers
import RayScene.Proofs.Text.Search
set_option autoImplicit false

namespace RayScene

open Sdl

namespace Check

section Characters

variable {c : Char}

theorem toNat_of_isIdentifierChar (h : isIdentifierChar c = true) :
    0x30 ≤ c.toNat ∧ c.toNat ≤ 0x7A := by
  rcases Bool.or_eq_true_iff.mp h with h | hunderscore
  · rcases Bool.or_eq_true_iff.mp h with h | hdigit
    · rcases Bool.or_eq_true_iff.mp h with hupper | hlower
      · obtain ⟨hl, hh⟩ : 'A'.toNat ≤ c.toNat ∧ c.toNat ≤ 'Z'.toNat := of_decide_eq_true hupper
        exact ⟨Nat.le_trans (by decide) hl, Nat.le_trans hh (by decide)⟩
      · obtain ⟨hlow, hhigh⟩ := Bool.and_eq_true_iff.mp hlower
        have hl : 'a'.toNat ≤ c.toNat := of_decide_eq_true hlow
        have hh : c.toNat ≤ 'z'.toNat := of_decide_eq_true hhigh
        exact ⟨Nat.le_trans (by decide) hl, hh⟩
    · obtain ⟨hl, hh⟩ := Char.isDigit_iff_toNat.mp hdigit
      exact ⟨hl, Nat.le_trans hh (by decide)⟩
  · rw [show c = '_' from of_decide_eq_true hunderscore]
    decide

theorem isBlank_of_isIdentifierChar (h : isIdentifierChar c = true) : Text.isBlank c = false := by
  obtain ⟨hlow, hhigh⟩ := toNat_of_isIdentifierChar h
  simp only [Text.isBlank, Bool.or_eq_false_iff, Bool.and_eq_false_iff, decide_eq_false_iff_not]
  omega

end Characters

section Declared

theorem declaredIdentifiers_append (a b : String) :
    declaredIdentifiers (a ++ "\n" ++ b) =
      declaredIdentifiers (a ++ "\n") ++ declaredIdentifiers b := by
  have hlines : Text.lines (a ++ "\n" ++ b).toList =
      Text.lines (a ++ "\n").toList ++ Text.lines b.toList := by
    have htext : (a ++ "\n" ++ b).toList = a.toList ++ '\n' :: b.toList := by simp
    rw [htext, Text.lines_append, String.toList_append]
    rfl
  unfold declaredIdentifiers
  rw [hlines, List.filter_append, List.map_append]

theorem declaredIdentifiers_of_not_mem {text : String} (h : '#' ∉ text.toList) :
    declaredIdentifiers text = [] := by
  have hnone : (Text.lines text.toList).filter (declareWord.isPrefixOf ·) = [] := by
    rw [List.filter_eq_nil_iff]
    intro line hline hprefix
    have hmem : '#' ∈ line := (List.isPrefixOf_iff_prefix.mp hprefix).subset (by decide)
    exact h (Text.mem_of_mem_lines hline hmem)
  rw [declaredIdentifiers, hnone, List.map_nil]

theorem takeWhile_skipBlanks {ident : List Char} (hne : ident ≠ [])
    (h : ∀ c ∈ ident, isIdentifierChar c = true) :
    (Text.skipBlanks (ident ++ [' ', '='])).takeWhile (fun c => !Text.isBlank c) = ident := by
  have hsolid : ∀ c ∈ ident, Text.isBlank c = false :=
    fun c hc => isBlank_of_isIdentifierChar (h c hc)
  have hskip : Text.skipBlanks (ident ++ [' ', '=']) = ident ++ [' ', '='] := by
    cases ident with
    | nil => exact absurd rfl hne
    | cons c ident => simp [Text.skipBlanks, hsolid c (by simp)]
  rw [hskip, List.takeWhile_append_of_pos (by simpa using hsolid)]
  simp [Text.isBlank]

theorem declaredIdentifiers_line (label : String) :
    declaredIdentifiers ("#declare " ++ meshIdentifier label ++ " =" ++ "\n") =
      [(meshIdentifier label).toList] := by
  have hchars : ∀ c ∈ (meshIdentifier label).toList, isIdentifierChar c = true :=
    fun _ => isIdentifierChar_of_mem_meshIdentifier
  have hne : (meshIdentifier label).toList ≠ [] := by simp [meshIdentifier]
  have hnewline : '\n' ∉ (meshIdentifier label).toList :=
    fun h => absurd (hchars _ h) (by decide)
  have hword : '\n' ∉ declareWord := by decide
  have hline : '\n' ∉ declareWord ++ ((meshIdentifier label).toList ++ [' ', '=']) := by
    simp [hword, hnewline]
  have hreturn : Text.dropReturn (declareWord ++ ((meshIdentifier label).toList ++ [' ', '='])) =
      declareWord ++ ((meshIdentifier label).toList ++ [' ', '=']) := by
    simp [Text.dropReturn]
  have hlines : Text.lines ("#declare " ++ meshIdentifier label ++ " =" ++ "\n").toList =
      [declareWord ++ ((meshIdentifier label).toList ++ [' ', '='])] := by
    have htext : ("#declare " ++ meshIdentifier label ++ " =" ++ "\n").toList =
        (declareWord ++ ((meshIdentifier label).toList ++ [' ', '='])) ++ '\n' :: [] := by
      simp only [String.toList_append, List.append_assoc]
      rfl
    rw [htext, Text.lines_line hline, hreturn]
    rfl
  unfold declaredIdentifiers
  rw [hlines]
  simp [takeWhile_skipBlanks hne hchars]

end Declared

theorem firstRepeated?_eq_none_iff {α : Type} [DecidableEq α] {seen as : List α} :
    firstRepeated? seen as = none ↔ as.Nodup ∧ ∀ a ∈ as, a ∉ seen := by
  induction as generalizing seen with
  | nil => simp [firstRepeated?]
  | cons a as ih =>
    by_cases ha : a ∈ seen
    · simp [firstRepeated?, ha]
    · rw [firstRepeated?, if_neg ha, ih, List.nodup_cons, List.forall_mem_cons]
      simp only [List.mem_cons, not_or]
      constructor
      · rintro ⟨hnodup, hfresh⟩
        exact ⟨⟨fun hmem => (hfresh a hmem).1 rfl, hnodup⟩, ha, fun b hb => (hfresh b hb).2⟩
      · rintro ⟨⟨hnew, hnodup⟩, _, hfresh⟩
        exact ⟨hnodup, fun b hb => ⟨fun h => hnew (h ▸ hb), hfresh b hb⟩⟩

theorem passed_uniqueMeshes_iff {meshes : String} :
    (uniqueMeshes meshes).passed = true ↔ (declaredIdentifiers meshes).Nodup := by
  have hnone : firstRepeated? [] (declaredIdentifiers meshes) = none ↔
      (declaredIdentifiers meshes).Nodup := by simp [firstRepeated?_eq_none_iff]
  rw [← hnone]
  unfold uniqueMeshes
  cases hfirst : firstRepeated? [] (declaredIdentifiers meshes) <;> simp [hfirst]

end Check

namespace Sdl

section Unmarked


theorem isNumberChar_hash : isNumberChar '#' = false := rfl

theorem not_mem_vertexLine (v : Vec3) : '#' ∉ (vertexLine v).toList := by
  simp [vertexLine, triple, not_mem_number isNumberChar_hash]

theorem not_mem_triangleLine (t : Triangle) : '#' ∉ (triangleLine t).toList := by
  simp [triangleLine, not_mem_natural isNumberChar_hash]

theorem not_mem_join {α : Type} {text : α → String} (h : ∀ a, '#' ∉ (text a).toList)
    (as : List α) : '#' ∉ (String.join (as.map text)).toList := by
  refine Text.join_of_append (P := fun s => '#' ∉ s.toList) (by decide) (fun s t hs ht => ?_) ?_
  · simp [hs, ht]
  · simpa using fun a _ => h a

end Unmarked

theorem meshText_eq (ident : String) (m : TriMesh) : ∃ body, '#' ∉ (body ++ "\n").toList ∧
    meshText ident m = "#declare " ++ ident ++ " =" ++ "\n" ++ (body ++ "\n") := by
  refine ⟨"mesh2 \x7b\n\tvertex_vectors \x7b\n\t\t" ++ natural m.vertices.length ++
    String.join (m.vertices.map vertexLine) ++ "\n\t\x7d\n\n\tface_indices \x7b\n\t\t" ++
    natural m.triangles.length ++ String.join (m.triangles.map triangleLine) ++
    "\n\t\x7d\n\n\tinside_vector <1, 1, 1>\n\x7d\n", ?_, ?_⟩
  · have hvertices := not_mem_join not_mem_vertexLine m.vertices
    have htriangles := not_mem_join not_mem_triangleLine m.triangles
    simp only [String.toList_append, List.mem_append, not_or]
    refine ⟨⟨⟨⟨⟨⟨⟨?_, not_mem_natural rfl _⟩, hvertices⟩, ?_⟩, not_mem_natural rfl _⟩, htriangles⟩,
      ?_⟩, ?_⟩ <;> decide
  · unfold meshText
    apply String.toList_inj.mp
    simp

open Check in
theorem declaredIdentifiers_join {blocks : List MeshBlock}
    (h : ∀ b ∈ blocks, ∃ label, b.ident = meshIdentifier label) :
    declaredIdentifiers (String.join (blocks.map MeshBlock.text)) =
      blocks.map (·.ident.toList) := by
  induction blocks with
  | nil => exact declaredIdentifiers_of_not_mem (by simp)
  | cons b blocks ih =>
    obtain ⟨⟨label, hlabel⟩, hrest⟩ := List.forall_mem_cons.mp h
    obtain ⟨body, hbody, htext⟩ := meshText_eq b.ident b.mesh
    have hfirst : declaredIdentifiers b.text = [b.ident.toList] := by
      rw [MeshBlock.text, htext, declaredIdentifiers_append, declaredIdentifiers_of_not_mem hbody,
        hlabel, declaredIdentifiers_line, List.append_nil]
    have hends : b.text = "#declare " ++ b.ident ++ " =" ++ "\n" ++ body ++ "\n" := by
      rw [MeshBlock.text, htext]
      exact (String.append_assoc ..).symm
    rw [List.map_cons, String.join_cons, hends, declaredIdentifiers_append, ← hends, hfirst,
      ih hrest, List.map_cons, List.singleton_append]

end Sdl

end RayScene
