import RayScene.Check.Verdict
import RayScene.Proofs.Citations.Scan
import RayScene.Proofs.Compilation.References
import RayScene.Proofs.Meshes.Texts
import RayScene.Proofs.Text.Counting
set_option autoImplicit false

namespace RayScene

namespace Check

section Followers

variable {d : Char} {needle text rest after : List Char}

theorem followers_of_cut?_eq_none (h : Text.cut? needle text = none) :
    followers needle text = [] := by
  rw [followers]
  split
  · rfl
  · split
    · rfl
    · rename_i hsome
      rw [h] at hsome
      cases hsome

theorem followers_of_cut? {before : List Char} (hne : needle ≠ [])
    (h : Text.cut? needle text = some (before, after)) :
    followers needle text = after :: followers needle after := by
  rw [followers, dif_neg hne]
  split
  · rename_i hnone
    rw [h] at hnone
    cases hnone
  · rename_i hsome
    cases h.symm.trans hsome
    rfl

theorem followers_cons_of_later (hne : needle ≠ []) (h : ¬needle <+: d :: text) :
    followers needle (d :: text) = followers needle text := by
  have hcut := Text.cut?_cons_of_later h
  cases hrest : Text.cut? needle text with
  | none =>
    rw [hrest] at hcut
    rw [followers_of_cut?_eq_none hcut, followers_of_cut?_eq_none hrest]
  | some parts =>
    rw [hrest] at hcut
    rw [followers_of_cut? hne hcut, followers_of_cut? hne hrest]

theorem mem_followers_iff (hne : needle ≠ []) (hborder : Text.Unbordered needle) :
    rest ∈ followers needle text ↔ ∃ before, text = before ++ (needle ++ rest) := by
  induction hlen : text.length using Nat.strongRecOn generalizing text with
  | ind len ih =>
    by_cases hpre : needle <+: text
    · obtain ⟨after, rfl⟩ := hpre
      have hshorter : after.length < len := by
        have hpos := List.length_pos_iff.mpr hne
        rw [← hlen, List.length_append]
        omega
      rw [followers_of_cut? hne (Text.cut?_append_self _ after), List.mem_cons, ih _ hshorter rfl]
      constructor
      · rintro (rfl | ⟨more, rfl⟩)
        · exact ⟨[], rfl⟩
        · exact ⟨needle ++ more, (List.append_assoc _ _ _).symm⟩
      · rintro ⟨before, h⟩
        by_cases hbefore : before = []
        · subst hbefore
          exact .inl (List.append_cancel_left h).symm
        · exact .inr (Text.exists_of_append_eq hborder hbefore h)
    · cases text with
      | nil =>
        have hnone : Text.cut? needle [] = none := if_neg hne
        simp [followers_of_cut?_eq_none hnone, hne]
      | cons d text =>
        have hshorter : text.length < len := by
          rw [← hlen]
          exact Nat.lt_succ_self _
        rw [followers_cons_of_later hne hpre, ih _ hshorter rfl]
        constructor
        · rintro ⟨before, rfl⟩
          exact ⟨d :: before, rfl⟩
        · rintro ⟨before, h⟩
          cases before with
          | nil => exact absurd ⟨rest, h.symm⟩ hpre
          | cons e before => exact ⟨before, (List.cons.inj h).2⟩

end Followers

end Check

namespace Citations

open Sdl Check

section Scenes

variable {x : Citation} {ident : String} {before after text : List Char} {c : Char}

theorem mem_cites_iff : x ∈ cites before text ↔
    ∃ first c rest, text = first ++ c :: rest ∧ x ∈ citedAt (first.reverse ++ before) c rest := by
  induction text generalizing before with
  | nil => simp [cites]
  | cons d text ih =>
    rw [cites, List.mem_append, ih]
    constructor
    · rintro (h | ⟨first, c, rest, rfl, h⟩)
      · exact ⟨[], d, text, rfl, h⟩
      · exact ⟨d :: first, c, rest, rfl, by simpa using h⟩
    · rintro ⟨first, c, rest, heq, h⟩
      cases first with
      | nil =>
        obtain ⟨rfl, rfl⟩ := List.cons.inj heq
        exact .inl h
      | cons e first =>
        obtain ⟨rfl, rfl⟩ := List.cons.inj heq
        exact .inr ⟨first, c, rest, rfl, by simpa using h⟩

theorem mem_mention_iff {word : List Char} :
    .mesh ident ∈ mention word ↔ meshEnding <:+ word ∧ String.ofList word = ident := by
  unfold mention
  split
  · rename_i h
    rw [List.mem_singleton, Citation.mesh.injEq,
      and_iff_right (List.isSuffixOf_iff_suffix.mp h), eq_comm]
  · rename_i h
    exact iff_of_false List.not_mem_nil fun hword => h (List.isSuffixOf_iff_suffix.mpr hword.1)

theorem file_not_mem_mention (word : List Char) : .file ∉ mention word := by
  unfold mention
  split <;> simp

theorem mesh_mem_citedAt_iff :
    .mesh ident ∈ citedAt before c after ↔ c = '{' ∧ objectWord <+: before ∧
    ∃ rest, after = ' ' :: rest ∧ .mesh ident ∈ mention (rest.takeWhile isIdentifierChar) := by
  unfold citedAt
  split
  · rename_i hc
    rw [and_iff_right hc]
    split
    · rename_i hword
      rw [and_iff_right (List.isPrefixOf_iff_prefix.mp hword)]
      cases after with
      | nil => simp [named]
      | cons d rest => by_cases hd : d = ' ' <;> simp [named, hd]
    · rename_i hword
      exact iff_of_false List.not_mem_nil fun h => hword (List.isPrefixOf_iff_prefix.mpr h.1)
  · rename_i hc
    refine iff_of_false (fun h => ?_) fun h => hc h.1
    split at h
    · split at h <;> simp at h
    · cases h

theorem file_mem_citedAt_iff :
    .file ∈ citedAt before c after ↔ c = '\x22' ∧ fileWord <+: before := by
  unfold citedAt
  split
  · rename_i hc
    refine iff_of_false (fun h => ?_) fun h => absurd (hc.symm.trans h.1) (by decide)
    split at h
    · cases after with
      | nil => cases h
      | cons d rest =>
        rw [named] at h
        split at h
        · exact file_not_mem_mention _ h
        · cases h
    · cases h
  · split
    · rename_i hc
      rw [and_iff_right hc]
      split <;> simp_all
    · rename_i hc
      exact iff_of_false List.not_mem_nil fun h => hc h.1

theorem reverse_prefix_iff {word first : List Char} :
    word <+: first.reverse ++ [] ↔ word.reverse <:+ first := by
  rw [List.append_nil, ← List.reverse_prefix, List.reverse_reverse]

theorem mem_meshReferences_iff {text : String} :
    ident ∈ meshReferences text ↔ .mesh ident ∈ cites [] text.toList := by
  have hborder : Text.Unbordered "object \x7b ".toList := Text.unbordered_cons (by decide)
  have hplace : ∀ rest, rest ∈ followers "object \x7b ".toList text.toList ↔
      ∃ first, text.toList = first ++ '{' :: ' ' :: rest ∧ objectWord.reverse <:+ first := by
    intro rest
    rw [mem_followers_iff (by decide) hborder]
    constructor
    · rintro ⟨first, h⟩
      exact ⟨first ++ objectWord.reverse, by rw [h, List.append_assoc]; rfl, List.suffix_append _ _⟩
    · rintro ⟨_, h, first, rfl⟩
      exact ⟨first, by rw [h, List.append_assoc]; rfl⟩
  have hmem : ident ∈ meshReferences text ↔ ∃ rest ∈ followers "object \x7b ".toList text.toList,
      .mesh ident ∈ mention (rest.takeWhile isIdentifierChar) := by
    unfold meshReferences
    simp [mem_mention_iff, and_assoc]
  rw [hmem, mem_cites_iff]
  simp only [mesh_mem_citedAt_iff, reverse_prefix_iff, hplace]
  constructor
  · rintro ⟨rest, ⟨first, htext, hword⟩, h⟩
    exact ⟨first, _, _, htext, rfl, hword, rest, rfl, h⟩
  · rintro ⟨first, c, _, htext, rfl, hword, rest, rfl, h⟩
    exact ⟨rest, ⟨first, htext, hword⟩, h⟩

theorem contains_meshFile_iff {text : String} :
    contains text "_mesh.inc\x22" = true ↔ .file ∈ cites [] text.toList := by
  rw [contains_iff, mem_cites_iff]
  simp only [file_mem_citedAt_iff, reverse_prefix_iff]
  constructor
  · rintro ⟨first, rest, h⟩
    exact ⟨first ++ fileWord.reverse, '\x22', rest, by rw [← h]; simp [fileWord], rfl,
      List.suffix_append _ _⟩
  · rintro ⟨_, c, rest, htext, rfl, first, rfl⟩
    exact ⟨first, rest, by rw [htext]; simp [fileWord]⟩

end Scenes

section Declarations

variable {x ident : String} {blocks : List MeshBlock} {before after a b : List Char}

theorem exists_of_append_eq_of_not_mem {c : Char} (ha : c ∉ a) (h : a ++ b = before ++ c :: after) :
    ∃ more, b = more ++ c :: after := by
  obtain ⟨more, _, hmore⟩ | ⟨piece, hpiece, hrest⟩ := List.append_eq_append_iff.mp h
  · exact ⟨more, hmore⟩
  · cases piece with
    | nil => exact ⟨[], hrest.symm⟩
    | cons d piece =>
      obtain ⟨rfl, _⟩ := List.cons.inj hrest
      exact absurd (by simp [hpiece]) ha

theorem contains_block_iff (hx : IsWord x) (hident : IsWord ident) (m : TriMesh) (rest : String) :
    contains (meshText ident m ++ rest) ("#declare " ++ x ++ " =") = true ↔
      ident = x ∨ contains rest ("#declare " ++ x ++ " =") = true := by
  obtain ⟨body, hbody, htext⟩ := meshText_eq ident m
  have hneedle : ("#declare " ++ x ++ " =").toList =
    '#' :: ("declare ".toList ++ (x.toList ++ [' ', '='])) := by simp
  have hlist : (meshText ident m ++ rest).toList = '#' :: ("declare ".toList ++ (ident.toList ++
      (' ' :: '=' :: '\n' :: (body ++ "\n").toList ++ rest.toList))) := by simp [htext]
  have hstops : ∀ t, Stops (' ' :: t) := by
    rintro t c hc
    cases hc
    rfl
  rw [contains_iff, contains_iff, hneedle, hlist]
  constructor
  · rintro ⟨before, after, h⟩
    rw [List.append_assoc, List.cons_append, List.append_assoc, List.append_assoc] at h
    cases before with
    | nil =>
      have hword := List.append_cancel_left (List.cons.inj h).2
      exact .inl (word_unique hident hx (hstops _) (hstops _) hword.symm)
    | cons d before =>
      have hquiet : '#' ∉ "declare ".toList ++
          (ident.toList ++ ' ' :: '=' :: '\n' :: (body ++ "\n").toList) := by
        simp only [List.mem_append, List.mem_cons, not_or]
        exact ⟨by decide, hident.not_mem rfl, by decide, by decide, by decide, hbody⟩
      have hplace : ("declare ".toList ++
          (ident.toList ++ ' ' :: '=' :: '\n' :: (body ++ "\n").toList)) ++
          rest.toList = before ++ '#' ::
              ("declare ".toList ++ (x.toList ++ ([' ', '='] ++ after))) := by
        simpa using (List.cons.inj h).2.symm
      obtain ⟨more, hmore⟩ := exists_of_append_eq_of_not_mem hquiet hplace
      exact .inr ⟨more, after, by simp [hmore]⟩
  · rintro (rfl | ⟨before, after, h⟩)
    · exact ⟨[], '\n' :: (body ++ "\n").toList ++ rest.toList, by simp⟩
    · rw [← h]
      exact ⟨'#' :: ("declare ".toList ++
        (ident.toList ++ (' ' :: '=' :: '\n' :: (body ++ "\n").toList ++ before))),
        after, by simp⟩

theorem contains_blocks_iff (hx : IsWord x) (h : ∀ b ∈ blocks, IsWord b.ident) :
    contains (String.join (blocks.map MeshBlock.text)) ("#declare " ++ x ++ " =") = true ↔
      ∃ b ∈ blocks, b.ident = x := by
  induction blocks with
  | nil =>
    have hempty : contains "" ("#declare " ++ x ++ " =") = false := by
      refine contains_empty fun hnone => ?_
      exact absurd (String.append_eq_empty_iff.mp (String.append_eq_empty_iff.mp hnone).1).1
        (by decide)
    rw [List.map_nil, String.join_nil, hempty]
    simp
  | cons b blocks ih =>
    obtain ⟨hb, hrest⟩ := List.forall_mem_cons.mp h
    rw [List.map_cons, String.join_cons, MeshBlock.text, contains_block_iff hx hb, ih hrest]
    simp

/-- The declaration of a word is in the text of a mesh file exactly when the word is declared
there. -/
theorem contains_declaration_iff {f : MeshFile} (hx : IsWord x)
    (h : ∀ b ∈ f.blocks, IsWord b.ident) :
    contains f.text ("#declare " ++ x ++ " =") = true ↔ f.isDeclared x = true := by
  rw [MeshFile.isDeclared_iff]
  exact contains_blocks_iff hx h

end Declarations

section Verdicts

variable {scene meshes : String}

theorem isWord_of_mem_meshReferences {ident : String} (h : ident ∈ meshReferences scene) :
    IsWord ident := by
  unfold meshReferences at h
  simp only [List.mem_map, List.mem_filter] at h
  obtain ⟨_, ⟨⟨rest, _, rfl⟩, _⟩, rfl⟩ := h
  intro c hc
  rw [String.toList_ofList] at hc
  exact List.mem_takeWhile_imp hc

/-- The check passes exactly when every reference is declared and the mesh file is included with a
content. -/
theorem passed_meshesResolved_iff : (meshesResolved scene meshes).passed = true ↔
    (∀ x ∈ meshReferences scene, contains meshes ("#declare " ++ x ++ " =") = true) ∧
      (contains scene "_mesh.inc\x22" = true ↔ meshes ≠ "") := by
  have hmissing : (meshReferences scene).filter (fun ident =>
      !contains meshes ("#declare " ++ ident ++ " =")) = [] ↔
      ∀ x ∈ meshReferences scene, contains meshes ("#declare " ++ x ++ " =") = true := by
    simp [List.filter_eq_nil_iff]
  have hincluded : contains scene "_mesh.inc\x22" = !meshes.isEmpty ↔
      (contains scene "_mesh.inc\x22" = true ↔ meshes ≠ "") := by
    rw [Bool.eq_iff_iff]
    simp
  rw [← hmissing, ← hincluded]
  unfold meshesResolved
  dsimp only
  split
  · rename_i h
    exact iff_of_false Bool.false_ne_true fun hpass => h hpass.1
  · rename_i h
    rw [and_iff_right (Classical.not_not.mp h)]
    split
    · rename_i hdiffer
      exact iff_of_false Bool.false_ne_true fun hsame => by simp [hsame] at hdiffer
    · rename_i hdiffer
      rw [bne_iff_ne, Classical.not_not] at hdiffer
      exact iff_of_true rfl hdiffer

end Verdicts

end Citations

end RayScene
