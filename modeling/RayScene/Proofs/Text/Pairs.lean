import RayScene.Proofs.Text.Counting
set_option autoImplicit false

namespace RayScene.Text

variable {x y : Char} {a b p text after : List Char}

theorem cut?_eq_none_iff {needle : List Char} : cut? needle text = none ↔ ¬needle <:+: text := by
  rw [← holds_iff, holds, Option.not_isSome_iff_eq_none]

theorem pair_infix_append_iff : [x, y] <:+: a ++ b ↔
    [x, y] <:+: a ∨ [x, y] <:+: b ∨ a.getLast? = some x ∧ b.head? = some y := by
  rw [List.infix_append_iff]
  constructor
  · rintro (h | h | ⟨first, last, hpair, hend, hbegin⟩)
    · exact .inl h
    · exact .inr (.inl h)
    · cases first with
      | nil => exact .inr (.inl (hpair ▸ hbegin.isInfix))
      | cons c first =>
        cases first with
        | nil =>
          cases hpair
          obtain ⟨front, rfl⟩ := hend
          obtain ⟨rest, rfl⟩ := hbegin
          exact .inr (.inr ⟨List.getLast?_concat, rfl⟩)
        | cons d first =>
          simp only [List.cons_append, List.cons.injEq, List.nil_eq_append_iff] at hpair
          obtain ⟨rfl, rfl, rfl, rfl⟩ := hpair
          exact .inl hend.isInfix
  · rintro (h | h | ⟨hend, hbegin⟩)
    · exact .inl h
    · exact .inr (.inl h)
    · obtain ⟨front, rfl⟩ := List.getLast?_eq_some_iff.mp hend
      obtain ⟨rest, rfl⟩ := List.head?_eq_some_iff.mp hbegin
      exact .inr (.inr ⟨[x], [y], rfl, List.suffix_append _ _, List.prefix_append [y] rest⟩)

theorem not_pair_infix_concat (hne : x ≠ y) (h : ¬[x, y] <:+: p) : ¬[x, y] <:+: p ++ [x] := by
  rw [pair_infix_append_iff]
  rintro (hpiece | hpiece | ⟨_, hend⟩)
  · exact h hpiece
  · exact absurd hpiece.length_le (by simp)
  · exact hne (Option.some.inj hend)

theorem cut?_pair (h : ¬[x, y] <:+: p ++ [x]) (after : List Char) :
    cut? [x, y] (p ++ ([x, y] ++ after)) = some (p, after) := by
  induction p with
  | nil => exact cut?_append_self [x, y] after
  | cons c p ih =>
    have hlater : ¬[x, y] <+: c :: (p ++ ([x, y] ++ after)) := by
      intro hpre
      have hshort : [x, y].length ≤ (c :: p ++ [x]).length := by simp
      have hsplit : c :: (p ++ ([x, y] ++ after)) = (c :: p ++ [x]) ++ y :: after := by simp
      rw [hsplit, List.isPrefix_append_of_length hshort] at hpre
      exact h hpre.isInfix
    rw [List.cons_append, cut?_cons_of_later hlater, ih fun hpiece => h (List.infix_cons hpiece)]
    rfl

theorem not_infix_of_cut?_pair (h : cut? [x, y] text = some (p, after)) :
    ¬[x, y] <:+: p ++ [x] := by
  induction text generalizing p with
  | nil => cases h
  | cons c text ih =>
    by_cases hpre : [x, y] <+: c :: text
    · obtain ⟨rest, hrest⟩ := hpre
      have hself := cut?_append_self [x, y] rest
      rw [hrest, h] at hself
      cases hself
      exact fun hpiece => absurd hpiece.length_le (by simp)
    · rw [cut?_cons_of_later hpre, Option.map_eq_some_iff] at h
      obtain ⟨⟨q, rest⟩, hrest, heq⟩ := h
      cases heq
      rw [List.cons_append, List.infix_cons_iff]
      rintro (hbegin | hpiece)
      · have htext := eq_of_cut? hrest
        refine hpre (hbegin.trans ⟨y :: after, ?_⟩)
        rw [htext]
        simp
      · exact ih hrest hpiece

end RayScene.Text
