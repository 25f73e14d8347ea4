import RayScene.Proofs.Text.Search
set_option autoImplicit false

namespace RayScene.Text

variable {c d : Char} {needle tail text before after skipped rest : List Char}

theorem count_eq_of_cut? (hne : needle ≠ []) (h : cut? needle text = some (before, after)) :
    count needle text = 1 + count needle after := by
  rw [count, dif_neg hne]
  split
  · rename_i hnone
    rw [hnone] at h
    cases h
  · rename_i hsome
    cases hsome.symm.trans h
    rfl

theorem count_eq_zero_iff (hne : needle ≠ []) :
    count needle text = 0 ↔ cut? needle text = none := by
  rw [count, dif_neg hne]
  split
  · rename_i hnone
    exact iff_of_true rfl hnone
  · rename_i hsome
    exact iff_of_false (by omega) (by simp [hsome])

theorem count_nil (hne : needle ≠ []) : count needle [] = 0 :=
  (count_eq_zero_iff hne).mpr (if_neg hne)

theorem cut?_append_self (needle after : List Char) :
    cut? needle (needle ++ after) = some ([], after) := by
  cases needle with
  | nil => cases after <;> rfl
  | cons c needle => simp [cut?]

theorem cut?_cons_of_later (h : ¬needle <+: d :: text) : cut? needle (d :: text) =
    (cut? needle text).map fun (before, after) => (d :: before, after) := by
  rw [cut?, if_neg (by rwa [List.isPrefixOf_iff_prefix])]

theorem count_append_self (hne : needle ≠ []) (after : List Char) :
    count needle (needle ++ after) = 1 + count needle after :=
  count_eq_of_cut? hne (cut?_append_self needle after)

theorem count_cons_of_later (hne : needle ≠ []) (h : ¬needle <+: d :: text) :
    count needle (d :: text) = count needle text := by
  have hcut := cut?_cons_of_later h
  cases hrest : cut? needle text with
  | none =>
    rw [hrest] at hcut
    rw [(count_eq_zero_iff hne).mpr hrest, (count_eq_zero_iff hne).mpr hcut]
  | some parts =>
    rw [hrest] at hcut
    rw [count_eq_of_cut? hne hrest, count_eq_of_cut? hne hcut]

theorem count_append_of_not_mem (h : c ∉ skipped) (text : List Char) :
    count (c :: tail) (skipped ++ text) = count (c :: tail) text := by
  induction skipped with
  | nil => rfl
  | cons d skipped ih =>
    obtain ⟨hd, hrest⟩ := List.ne_and_not_mem_of_not_mem_cons h
    rw [List.cons_append, count_cons_of_later (List.cons_ne_nil c tail), ih hrest]
    exact fun hpre => hd (List.cons_prefix_cons.mp hpre).1

theorem count_cons (hc : c ∉ tail) (d : Char) (text : List Char) : count (c :: tail) (d :: text) =
    (if d = c ∧ tail <+: text then 1 else 0) + count (c :: tail) text := by
  by_cases hpre : c :: tail <+: d :: text
  · obtain ⟨hd, rest, rfl⟩ := List.cons_prefix_cons.mp hpre
    rw [if_pos ⟨hd.symm, List.prefix_append _ _⟩, ← hd, ← List.cons_append,
      count_append_self (List.cons_ne_nil c tail), count_append_of_not_mem hc]
  · rw [if_neg, Nat.zero_add, count_cons_of_later (List.cons_ne_nil c tail) hpre]
    rintro ⟨rfl, hrest⟩
    exact hpre (List.cons_prefix_cons.mpr ⟨rfl, hrest⟩)

theorem count_append_newline (hne : needle ≠ []) (hline : '\n' ∉ needle) (h : ¬needle <:+: skipped)
    (text : List Char) : count needle (skipped ++ '\n' :: text) = count needle text := by
  have hnot : ∀ line, ¬needle <:+: line → ¬needle <+: line ++ '\n' :: text := by
    intro line hpiece hpre
    rcases List.prefix_or_prefix_of_prefix hpre (List.prefix_append line _) with hin | ⟨more, rfl⟩
    · exact hpiece hin.isInfix
    · cases more with
      | nil => exact hpiece (by simp)
      | cons c more =>
        obtain ⟨rfl, _⟩ := List.cons_prefix_cons.mp ((List.prefix_append_right_inj line).mp hpre)
        exact hline (by simp)
  induction skipped with
  | nil => exact count_cons_of_later hne (hnot [] h)
  | cons c skipped ih =>
    have hrest : ¬needle <:+: skipped := fun hpiece => h (List.infix_cons hpiece)
    exact (count_cons_of_later hne (hnot (c :: skipped) h)).trans (ih hrest)

/-- No end of the needle but the whole of it is a beginning of the needle. -/
def Unbordered (needle : List Char) : Prop :=
  ∀ piece, piece <:+ needle → piece <+: needle → piece = [] ∨ piece = needle

theorem not_infix_of_count_eq_zero (hne : needle ≠ []) (h : count needle text = 0) :
    ¬needle <:+: text := by
  rw [← holds_iff, holds, (count_eq_zero_iff hne).mp h]
  exact nofun

theorem eq_nil_of_border {piece : List Char} (h : c ∉ tail) (hend : piece <:+ tail)
    (hbegin : piece <+: c :: text) : piece = [] := by
  cases piece with
  | nil => rfl
  | cons d piece =>
    obtain ⟨rfl, _⟩ := List.cons_prefix_cons.mp hbegin
    exact absurd (hend.subset List.mem_cons_self) h

theorem unbordered_cons (h : c ∉ tail) : Unbordered (c :: tail) := by
  intro piece hend hbegin
  rcases List.suffix_cons_iff.mp hend with rfl | hend
  · exact .inr rfl
  · exact .inl (eq_nil_of_border h hend hbegin)

/-- Two places of a needle without borders are one, or apart from each other. -/
theorem exists_of_append_eq (hborder : Unbordered needle) (hskip : skipped ≠ [])
    (h : needle ++ rest = skipped ++ (needle ++ after)) :
    ∃ more, rest = more ++ (needle ++ after) := by
  obtain ⟨more, _, rfl⟩ | ⟨piece, hneedle, hrest⟩ := List.append_eq_append_iff.mp h
  · exact ⟨more, rfl⟩
  have hpiece : piece <:+ needle := ⟨skipped, hneedle.symm⟩
  have hfirst : piece <+: needle ++ after := ⟨rest, hrest.symm⟩
  have hpre : piece <+: needle :=
    List.prefix_of_prefix_length_le hfirst (List.prefix_append needle after) hpiece.length_le
  rcases hborder piece hpiece hpre with rfl | rfl
  · exact ⟨[], hrest.symm⟩
  · exact absurd (List.self_eq_append_left.mp hneedle) hskip

/-- A needle that occurs once is found wherever it stands. -/
theorem cut?_of_count_eq_one (hne : needle ≠ []) (hborder : Unbordered needle)
    (h : count needle (before ++ (needle ++ after)) = 1) :
    cut? needle (before ++ (needle ++ after)) = some (before, after) := by
  induction before with
  | nil => exact cut?_append_self _ after
  | cons c before ih =>
    by_cases hpre : needle <+: c :: before ++ (needle ++ after)
    · obtain ⟨rest, hrest⟩ := hpre
      rw [← hrest, count_append_self hne] at h
      have hnone := not_infix_of_count_eq_zero hne (Nat.add_eq_left.mp h)
      obtain ⟨more, rfl⟩ := exists_of_append_eq hborder (List.cons_ne_nil c before) hrest
      exact absurd ⟨more, after, List.append_assoc _ _ _⟩ hnone
    · rw [List.cons_append] at hpre h ⊢
      rw [count_cons_of_later hne hpre] at h
      rw [cut?_cons_of_later hpre, ih h]
      rfl

theorem afterLast?_append_self (c : Char) (text : List Char) :
    afterLast? c (text ++ [c]) = some [] := by
  simp [afterLast?]

end RayScene.Text
