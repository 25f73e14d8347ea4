import RayScene.Sdl.Number
import RayScene.Text.Lines
set_option autoImplicit false

namespace RayScene.Text

section Splitting

variable {c d : Char} {a b t x y : List Char} {as bs xs : List (List Char)}

theorem splitOn_nil (c : Char) : splitOn c [] = [[]] := rfl

theorem splitOn_cons_self (c : Char) (t : List Char) : splitOn c (c :: t) = [] :: splitOn c t := by
  simp [splitOn, splitBy]

theorem splitOn_cons_ne (hd : d ≠ c) (ht : splitOn c t = x :: xs) :
    splitOn c (d :: t) = (d :: x) :: xs := by
  unfold splitOn at ht ⊢
  simp [splitBy, hd, ht]

theorem exists_splitOn_eq_cons (c : Char) (t : List Char) : ∃ x xs, splitOn c t = x :: xs := by
  induction t with
  | nil => exact ⟨[], [], rfl⟩
  | cons d t ih =>
    obtain ⟨x, xs, ht⟩ := ih
    by_cases hd : d = c
    · exact ⟨[], x :: xs, by rw [hd, splitOn_cons_self, ht]⟩
    · exact ⟨d :: x, xs, splitOn_cons_ne hd ht⟩

theorem exists_splitOn_eq_append (c : Char) (t : List Char) :
    ∃ xs x, splitOn c t = xs ++ [x] := by
  obtain ⟨x, xs, ht⟩ := exists_splitOn_eq_cons c t
  have hne : splitOn c t ≠ [] := by simp [ht]
  exact ⟨_, _, (List.dropLast_concat_getLast hne).symm⟩

theorem splitOn_of_not_mem (h : c ∉ t) : splitOn c t = [t] := by
  induction t with
  | nil => rfl
  | cons d t ih =>
    obtain ⟨hd, ht⟩ := List.ne_and_not_mem_of_not_mem_cons h
    exact splitOn_cons_ne (Ne.symm hd) (ih ht)

theorem splitOn_append (ha : splitOn c a = as ++ [x]) (hb : splitOn c b = y :: bs) :
    splitOn c (a ++ b) = as ++ (x ++ y) :: bs := by
  induction a generalizing as x with
  | nil =>
    rw [splitOn_nil, List.singleton_eq_append_iff] at ha
    obtain ⟨rfl, hx⟩ | ⟨_, hx⟩ := ha
    · obtain rfl : [] = x := by simpa using hx
      exact hb
    · simp at hx
  | cons d a ih =>
    obtain ⟨zs, z, hz⟩ := exists_splitOn_eq_append c a
    have hab := ih hz
    rw [List.cons_append]
    by_cases hd : d = c
    · rw [hd, splitOn_cons_self, hz] at ha
      rw [hd, splitOn_cons_self, hab]
      have hlast : ([] :: zs) ++ [z] = as ++ [x] := ha
      obtain ⟨rfl, hx⟩ := List.append_singleton_inj.mp hlast
      cases hx
      rfl
    · cases zs with
      | nil =>
        rw [splitOn_cons_ne hd hz] at ha
        have hlast : [] ++ [d :: z] = as ++ [x] := ha
        obtain ⟨rfl, hx⟩ := List.append_singleton_inj.mp hlast
        cases hx
        exact splitOn_cons_ne hd hab
      | cons w zs =>
        rw [splitOn_cons_ne hd hz] at ha
        have hlast : ((d :: w) :: zs) ++ [z] = as ++ [x] := ha
        obtain ⟨rfl, hx⟩ := List.append_singleton_inj.mp hlast
        cases hx
        exact splitOn_cons_ne hd hab

theorem splitOn_append_of_not_mem (ha : c ∉ a) (hb : splitOn c b = y :: bs) :
    splitOn c (a ++ b) = (a ++ y) :: bs := by
  have hsingle : splitOn c a = [] ++ [a] := splitOn_of_not_mem ha
  exact splitOn_append hsingle hb

theorem splitOn_concat (c : Char) (t : List Char) : splitOn c (t ++ [c]) = splitOn c t ++ [[]] := by
  obtain ⟨xs, x, ht⟩ := exists_splitOn_eq_append c t
  rw [splitOn_append ht (splitOn_cons_self c []), ht, splitOn_nil, List.append_nil,
    List.append_assoc]
  rfl

theorem splitOn_substitute {lead : List Char} (hlead : '\n' ∉ lead)
    (ht : splitOn '\n' t = x :: xs) :
    splitOn '\n' (substitute '\n' ('\n' :: lead) t) = x :: xs.map (lead ++ ·) := by
  induction t generalizing x xs with
  | nil =>
    cases ht
    rfl
  | cons d t ih =>
    obtain ⟨y, ys, hy⟩ := exists_splitOn_eq_cons '\n' t
    have hsub := ih hy
    by_cases hd : d = '\n'
    · rw [hd, splitOn_cons_self, hy] at ht
      cases ht
      have hcons : substitute '\n' ('\n' :: lead) (d :: t) =
          '\n' :: (lead ++ substitute '\n' ('\n' :: lead) t) := by simp [substitute, hd]
      rw [hcons, splitOn_cons_self, splitOn_append_of_not_mem hlead hsub]
      rfl
    · rw [splitOn_cons_ne hd hy] at ht
      cases ht
      have hcons : substitute '\n' ('\n' :: lead) (d :: t) =
          d :: substitute '\n' ('\n' :: lead) t := by simp [substitute, hd]
      rw [hcons]
      exact splitOn_cons_ne hd hsub

theorem mem_of_mem_splitOn (hx : x ∈ splitOn c t) (hd : d ∈ x) : d ∈ t := by
  induction t generalizing x with
  | nil =>
    rw [splitOn_nil, List.mem_singleton] at hx
    rwa [hx] at hd
  | cons e t ih =>
    obtain ⟨y, ys, hy⟩ := exists_splitOn_eq_cons c t
    rw [hy] at ih
    by_cases he : e = c
    · rw [he, splitOn_cons_self, hy] at hx
      rcases List.mem_cons.mp hx with rfl | hx
      · cases hd
      · exact List.mem_cons_of_mem e (ih hx hd)
    · rw [splitOn_cons_ne he hy] at hx
      rcases List.mem_cons.mp hx with rfl | hx
      · rcases List.mem_cons.mp hd with rfl | hd
        · exact List.mem_cons_self
        · exact List.mem_cons_of_mem e (ih List.mem_cons_self hd)
      · exact List.mem_cons_of_mem e (ih (List.mem_cons_of_mem y hx) hd)

end Splitting

section Ends

variable {a b t line : List Char} {c : Char}

theorem lines_append (a b : List Char) :
    lines (a ++ '\n' :: b) = lines (a ++ ['\n']) ++ lines b := by
  obtain ⟨as, x, ha⟩ := exists_splitOn_eq_append '\n' a
  obtain ⟨bs, y, hb⟩ := exists_splitOn_eq_append '\n' b
  have hwhole : splitOn '\n' (a ++ '\n' :: b) = (as ++ [x] ++ bs) ++ [y] := by
    rw [splitOn_append ha (splitOn_cons_self '\n' b), hb]
    simp
  have hfirst : splitOn '\n' (a ++ ['\n']) = (as ++ [x]) ++ [[]] := by
    rw [splitOn_append ha (splitOn_cons_self '\n' [])]
    simp [splitOn_nil]
  unfold lines
  simp only [hwhole, hfirst, hb, List.dropLast_concat, List.getLast?_concat]
  simp

theorem lines_line (h : '\n' ∉ line) (t : List Char) :
    lines (line ++ '\n' :: t) = dropReturn line :: lines t := by
  have hsplit := splitOn_append_of_not_mem h (splitOn_cons_self '\n' [])
  rw [splitOn_nil, List.append_nil] at hsplit
  rw [lines_append]
  simp [lines, hsplit]

theorem mem_of_mem_dropReturn (h : c ∈ dropReturn line) : c ∈ line := by
  unfold dropReturn at h
  split at h
  · exact List.dropLast_subset line h
  · exact h

theorem mem_of_mem_lines (hline : line ∈ lines t) (h : c ∈ line) : c ∈ t := by
  rcases List.mem_append.mp hline with hline | hline
  · obtain ⟨piece, hpiece, rfl⟩ := List.mem_map.mp hline
    exact mem_of_mem_splitOn (List.dropLast_subset _ hpiece) (mem_of_mem_dropReturn h)
  · obtain ⟨hlast, _⟩ := List.mem_filter.mp hline
    exact mem_of_mem_splitOn (List.mem_of_getLast? (Option.mem_toList.mp hlast)) h

end Ends

def innerLines (t : List Char) : List (List Char) :=
  (splitOn '\n' t).tail.dropLast.map (·.dropWhile (· = '\t'))

variable {a b : List Char} {as bs : List (List Char)}

/-- Where two texts meet at most one line comes in between their own. -/
theorem exists_innerLines_append (a b : List Char) :
    ∃ middle, innerLines (a ++ b) = innerLines a ++ (middle ++ innerLines b) := by
  obtain ⟨as, x, ha⟩ := exists_splitOn_eq_append '\n' a
  obtain ⟨y, bs, hb⟩ := exists_splitOn_eq_cons '\n' b
  unfold innerLines
  rw [splitOn_append ha hb, ha, hb]
  cases as with
  | nil => exact ⟨[], by simp⟩
  | cons z as =>
    cases bs with
    | nil => exact ⟨[], by simp⟩
    | cons w bs => exact ⟨[(x ++ y).dropWhile (· = '\t')], by simp⟩

theorem innerLines_append_sublist (a b : List Char) :
    (innerLines a ++ innerLines b).Sublist (innerLines (a ++ b)) := by
  obtain ⟨middle, h⟩ := exists_innerLines_append a b
  rw [h]
  exact List.Sublist.append_left (List.sublist_append_right middle _) _

theorem sublist_innerLines_append (ha : as.Sublist (innerLines a))
    (hb : bs.Sublist (innerLines b)) : (as ++ bs).Sublist (innerLines (a ++ b)) :=
  (ha.append hb).trans (innerLines_append_sublist a b)

theorem sublist_innerLines_of_left (ha : as.Sublist (innerLines a)) (b : List Char) :
    as.Sublist (innerLines (a ++ b)) := by
  simpa using sublist_innerLines_append ha (List.nil_sublist (innerLines b))

theorem sublist_innerLines_of_right (a : List Char) (hb : bs.Sublist (innerLines b)) :
    bs.Sublist (innerLines (a ++ b)) :=
  sublist_innerLines_append (List.nil_sublist (innerLines a)) hb

theorem innerLines_substitute {lead : List Char} (hlead : ∀ c ∈ lead, c = '\t') (t : List Char) :
    innerLines (substitute '\n' ('\n' :: lead) t) = innerLines t := by
  obtain ⟨x, xs, ht⟩ := exists_splitOn_eq_cons '\n' t
  have hn : '\n' ∉ lead := fun h => absurd (hlead _ h) (by decide)
  unfold innerLines
  rw [splitOn_substitute hn ht, ht, List.tail_cons, List.tail_cons, List.map_dropLast,
    List.map_dropLast, List.map_map]
  congr 2
  funext line
  exact List.dropWhile_append_of_pos (by simpa using hlead)

end RayScene.Text
