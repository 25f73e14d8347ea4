/-!
Searching in texts. Everything rests on one cut: the text before and after the first place where a
needle stands.
-/
set_option autoImplicit false

namespace RayScene.Text

/-- What stands before and after the first occurrence of the needle. An empty needle occurs at
once. -/
def cut? (needle : List Char) : List Char → Option (List Char × List Char)
  | [] => if needle = [] then some ([], []) else none
  | c :: cs =>
    if needle.isPrefixOf (c :: cs) then some ([], (c :: cs).drop needle.length)
    else (cut? needle cs).map fun (before, after) => (c :: before, after)

theorem eq_of_cut? {needle text before after : List Char}
    (h : cut? needle text = some (before, after)) : text = before ++ needle ++ after := by
  induction text generalizing before with
  | nil =>
    simp only [cut?] at h
    split at h <;> simp_all
  | cons c cs ih =>
    simp only [cut?] at h
    split at h
    · rename_i hp
      obtain ⟨rest, hr⟩ := List.isPrefixOf_iff_prefix.mp hp
      simp only [Option.some.injEq, Prod.mk.injEq] at h
      obtain ⟨rfl, rfl⟩ := h
      simp [← hr]
    · rw [Option.map_eq_some_iff] at h
      obtain ⟨⟨b, a⟩, hb, he⟩ := h
      simp only [Prod.mk.injEq] at he
      obtain ⟨rfl, rfl⟩ := he
      simp [ih hb]

theorem length_lt_of_cut? {needle text before after : List Char} (hn : needle ≠ [])
    (h : cut? needle text = some (before, after)) :
    before.length + after.length < text.length := by
  rw [eq_of_cut? h]
  have := List.length_pos_iff.mpr hn
  simp
  omega

def holds (text needle : List Char) : Bool := (cut? needle text).isSome

/-- How often the needle occurs without overlap, from the left. An empty needle stands at every
boundary between characters. -/
def count (needle text : List Char) : Nat :=
  if hn : needle = [] then text.length + 1
  else
    match h : cut? needle text with
    | none => 0
    | some (_, after) => 1 + count needle after
termination_by text.length
decreasing_by
  have := length_lt_of_cut? hn h
  omega

def substitute (c : Char) (by_ : List Char) (text : List Char) : List Char :=
  text.flatMap fun d => if d = c then by_ else [d]

def splitBy (p : Char → Bool) : List Char → List (List Char)
  | [] => [[]]
  | d :: ds =>
    if p d then [] :: splitBy p ds
    else match splitBy p ds with
      | [] => [[d]]
      | first :: rest => (d :: first) :: rest

/-- The pieces between the occurrences of one character. There is always at least one piece. -/
def splitOn (c : Char) : List Char → List (List Char) := splitBy (· = c)

def afterLast? (c : Char) (text : List Char) : Option (List Char) :=
  if text.contains c then some (text.reverse.takeWhile (· != c)).reverse else none

def byteLength (text : List Char) : Nat := text.foldr (fun c n => c.utf8Size + n) 0

end RayScene.Text

namespace RayScene

def contains (text needle : String) : Bool := Text.holds text.toList needle.toList

end RayScene
