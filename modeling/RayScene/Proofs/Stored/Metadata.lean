import Mathlib.Data.List.Basic
import RayScene.Proofs.Stored.Reading
import RayScene.Proofs.Text.Search
import RayScene.Stored.Project
set_option autoImplicit false

namespace RayScene

open Json

namespace Timestamp

variable {width n k : Nat} {c : Char} {ds rest : List Char} {t : Timestamp}

section Digits

theorem isBlank_of_isDigit (h : c.isDigit = true) : Text.isBlank c = false := by
  obtain ⟨hlow, hhigh⟩ : 48 ≤ c.toNat ∧ c.toNat ≤ 57 := Char.isDigit_iff_toNat.mp h
  simp [Text.isBlank]
  omega

theorem skipBlanks_cons (h : Text.isBlank c = false) : Text.skipBlanks (c :: rest) = c :: rest :=
  List.dropWhile_cons_of_neg (by simp [h])

theorem isDigit_of_mem_padded (h : c ∈ padded width n) : c.isDigit = true := by
  rcases List.mem_append.mp h with h | h
  · rw [List.eq_of_mem_replicate h]
    rfl
  · exact Nat.isDigit_of_mem_toDigits (by decide) (by decide) h

theorem exists_padded_eq_cons (width n : Nat) :
    ∃ c cs, padded width n = c :: cs ∧ c.isDigit = true := by
  cases h : padded width n with
  | nil => exact absurd (List.append_eq_nil_iff.mp h).2 Nat.toDigits_ne_nil
  | cons c cs => exact ⟨c, cs, rfl, isDigit_of_mem_padded (h ▸ List.mem_cons_self)⟩

theorem length_padded (hwidth : 0 < width) (hn : n < 10 ^ width) :
    (padded width n).length = width := by
  have hle := (Nat.length_toDigits_le_iff (by decide) hwidth).mpr hn
  simp only [padded, List.length_append, List.length_replicate]
  omega

theorem ofDigitChars_padded (width n : Nat) : Nat.ofDigitChars 10 (padded width n) 0 = n := by
  rw [padded, Nat.ofDigitChars_append, Nat.ofDigitChars_replicate_zero, Nat.mul_zero,
    Nat.ofDigitChars_toDigits (by decide) (by decide)]

/-- The digits in front of something else are found as soon as there is room for them, and no more
of them where there is room for more. -/
theorem takeWhile_take (hds : ∀ c ∈ ds, c.isDigit = true) (hroom : ds.length ≤ width)
    (hstop : ds.length = width ∨ ∀ c ∈ rest.head?, c.isDigit = false) :
    ((ds ++ rest).take width).takeWhile Char.isDigit = ds := by
  rw [List.take_append, List.take_of_length_le hroom]
  refine Text.takeWhile_append_of_stop hds ?_
  rcases hstop with hstop | hstop
  · simp [hstop]
  · rw [List.head?_take]
    split
    · exact nofun
    · exact hstop

theorem number?_digits (hds : ∀ c ∈ ds, c.isDigit = true) (hne : ds ≠ [])
    (hroom : ds.length ≤ width) (hstop : ds.length = width ∨ ∀ c ∈ rest.head?, c.isDigit = false) :
    number? width (ds ++ rest) = some (Nat.ofDigitChars 10 ds 0, rest) := by
  obtain ⟨c, cs, rfl⟩ := List.exists_cons_of_ne_nil hne
  have hblank := isBlank_of_isDigit (hds c List.mem_cons_self)
  have hskip : Text.skipBlanks (c :: cs ++ rest) = c :: cs ++ rest := skipBlanks_cons hblank
  simp only [number?, hskip, takeWhile_take hds hroom hstop, Nat.ofDigitChars_eq_foldl,
    List.drop_left]
  rfl

theorem number?_padded (hwidth : 0 < width) (hn : n < 10 ^ width) (rest : List Char) :
    number? width (padded width n ++ rest) = some (n, rest) := by
  have hlength := length_padded hwidth hn
  obtain ⟨c, cs, hc, _⟩ := exists_padded_eq_cons width n
  rw [number?_digits (fun _ => isDigit_of_mem_padded) (by simp [hc]) (Nat.le_of_eq hlength)
    (.inl hlength),
    ofDigitChars_padded]

end Digits

section Parts

theorem mark?_cons (hc : Text.isBlank c = false) (rest : List Char) :
    mark? c (c :: rest) = some rest := by
  simp [mark?, skipBlanks_cons hc]

theorem number?_signed (width n : Nat) (rest : List Char) :
    number? (padded width n ++ '-' :: rest).length (padded width n ++ '-' :: rest) =
      some (n, '-' :: rest) := by
  obtain ⟨c, cs, hc, _⟩ := exists_padded_eq_cons width n
  rw [number?_digits (fun _ => isDigit_of_mem_padded) (by simp [hc]) (by simp) (.inr (by simp)),
    ofDigitChars_padded]

theorem year?_yearText (year : Int) (rest : List Char) :
    year? (yearText year ++ '-' :: rest) = some (year, '-' :: rest) := by
  unfold yearText
  split
  · rename_i hyear
    have hlt : year.toNat < 10 ^ 4 := by omega
    obtain ⟨c, cs, hc, hdigit⟩ := exists_padded_eq_cons 4 year.toNat
    have hread := number?_padded (by decide) hlt ('-' :: rest)
    rw [hc] at hread ⊢
    have hskip : Text.skipBlanks (c :: cs ++ '-' :: rest) = c :: cs ++ '-' :: rest :=
      skipBlanks_cons (isBlank_of_isDigit hdigit)
    have hvalue : ((year.toNat : Nat) : Int) = year := Int.toNat_of_nonneg hyear.1
    unfold year?
    rw [hskip]
    split
    · rename_i heq
      cases heq
      cases hdigit
    · rename_i heq
      cases heq
      cases hdigit
    · rw [hread]
      exact congrArg (fun year => some (year, '-' :: rest)) hvalue
  · obtain ⟨c, cs, hc, hdigit⟩ := exists_padded_eq_cons 4 year.natAbs
    have hread := number?_signed 4 year.natAbs rest
    rw [hc, List.cons_append] at hread ⊢
    split
    · rename_i hneg
      have hvalue : -((year.natAbs : Nat) : Int) = year := by omega
      have hskip : ∀ text, Text.skipBlanks ('-' :: text) = '-' :: text :=
        fun _ => skipBlanks_cons (by decide)
      simp only [List.cons_append, year?, hskip, hdigit, if_true, hread, Option.map_some, hvalue]
    · rename_i hneg
      have hvalue : ((year.natAbs : Nat) : Int) = year := by omega
      have hskip : ∀ text, Text.skipBlanks ('+' :: text) = '+' :: text :=
        fun _ => skipBlanks_cons (by decide)
      simp only [List.cons_append, year?, hskip, hdigit, if_true, hread, Option.map_some, hvalue]

theorem fraction?_padded (hwidth : 0 < width) (hroom : width ≤ 9) (hn : n < 10 ^ width) :
    fraction? ('.' :: padded width n ++ ['Z']) = some (n * 10 ^ (9 - width), ['Z']) := by
  have hlength := length_padded hwidth hn
  have hdigits : ∀ c ∈ padded width n, c.isDigit = true := fun _ => isDigit_of_mem_padded
  have htake : (((padded width n) ++ ['Z']).take 9).takeWhile Char.isDigit = padded width n :=
    takeWhile_take hdigits (by omega) (.inr (by simp))
  have hdrop : ((padded width n) ++ ['Z']).dropWhile Char.isDigit = ['Z'] := by
    rw [List.dropWhile_append_of_pos hdigits]
    rfl
  obtain ⟨c, cs, hc, _⟩ := exists_padded_eq_cons width n
  have hvalue := ofDigitChars_padded width n
  rw [Nat.ofDigitChars_eq_foldl] at hvalue
  simp only [List.cons_append, fraction?, htake, hdrop, hvalue, hlength]
  simp [hc]

theorem fraction?_fractionText (hn : n < 1000000000) :
    fraction? (fractionText n ++ ['Z']) = some (n, ['Z']) := by
  unfold fractionText
  split
  · rename_i hzero
    rw [hzero]
    rfl
  · split
    · rename_i hmilli
      have hlt : n / 1000000 < 10 ^ 3 := by omega
      have hvalue : n / 1000000 * 10 ^ (9 - 3) = n := by omega
      rw [fraction?_padded (by decide) (by decide) hlt, hvalue]
    · split
      · rename_i hmicro
        have hlt : n / 1000 < 10 ^ 6 := by omega
        have hvalue : n / 1000 * 10 ^ (9 - 6) = n := by omega
        rw [fraction?_padded (by decide) (by decide) hlt, hvalue]
      · rw [fraction?_padded (by decide) (by decide) hn, Nat.sub_self, Nat.pow_zero, Nat.mul_one]

theorem toUniversal_zero (hhour : t.hour < 24) (hminute : t.minute < 60) : t.toUniversal 0 = t := by
  have hwithin : (((t.hour : Int) * 60 + t.minute - 0) % 1440).toNat =
    t.hour * 60 + t.minute := by omega
  have hneg : ¬(t.hour : Int) * 60 + t.minute - 0 < 0 := by omega
  have hday : ¬(1440 : Int) ≤ t.hour * 60 + t.minute - 0 := by omega
  have h1 : (t.hour * 60 + t.minute) / 60 = t.hour := by omega
  have h2 : (t.hour * 60 + t.minute) % 60 = t.minute := by omega
  simp only [toUniversal, hwithin, hneg, hday, if_false, h1, h2]

end Parts

theorem daysIn_le (year : Int) (month : Nat) : CalendarDate.daysIn year month ≤ 31 := by
  unfold CalendarDate.daysIn
  split
  · split <;> omega
  · split <;> omega

theorem bind_of_eq {α β : Type} {x : Option α} {a : α} {f : α → Option β} (h : x = some a) :
    (x >>= f) = f a := by
  rw [h]
  rfl

theorem ofText?_text (h : t.isValid = true) : ofText? t.text = some t := by
  have hvalid := h
  simp only [isValid, Bool.and_eq_true, decide_eq_true_eq] at h
  have hdate := h.1.1.1.1
  simp only [CalendarDate.isValid, Bool.and_eq_true, decide_eq_true_eq] at h
  obtain ⟨⟨⟨⟨⟨⟨⟨⟨_, _⟩, hmonth⟩, _⟩, hday⟩, hhour⟩, hminute⟩, hsecond⟩, hnano⟩ := h
  have hdays := daysIn_le t.date.year t.date.month
  have htext : t.text.toList = yearText t.date.year ++ '-' :: (padded 2 t.date.month ++
      '-' :: (padded 2 t.date.day ++ 'T' :: (padded 2 t.hour ++ ':' :: (padded 2 t.minute ++
        ':' :: (padded 2 t.second ++ (fractionText t.nanosecond ++ ['Z'])))))) := by
    simp [text, textChars]
  have hnumber : ∀ n rest, n < 100 → number? 2 (padded 2 n ++ rest) = some (n, rest) :=
    fun n rest hn => number?_padded (by decide) hn rest
  have hhyphen := fun rest => mark?_cons (c := '-') (by decide) rest
  have hcolon := fun rest => mark?_cons (c := ':') (by decide) rest
  have hoffset : offset? ['Z'] = some (0, []) := rfl
  rw [ofText?, htext]
  refine (bind_of_eq (year?_yearText _ _)).trans ?_
  refine (bind_of_eq (hhyphen _)).trans ?_
  refine (bind_of_eq (hnumber t.date.month _ (by omega))).trans ?_
  refine (bind_of_eq (hhyphen _)).trans ?_
  refine (bind_of_eq (hnumber t.date.day _ (by omega))).trans ?_
  refine (if_pos (.inl rfl)).trans ?_
  refine (bind_of_eq (hnumber t.hour _ (by omega))).trans ?_
  refine (bind_of_eq (hcolon _)).trans ?_
  refine (bind_of_eq (hnumber t.minute _ (by omega))).trans ?_
  refine (bind_of_eq (hcolon _)).trans ?_
  refine (bind_of_eq (hnumber t.second _ (by omega))).trans ?_
  refine (bind_of_eq (fraction?_fractionText hnano)).trans ?_
  refine (bind_of_eq hoffset).trans ?_
  dsimp only
  rw [toUniversal_zero hhour hminute]
  exact if_pos ⟨rfl, hvalid, hdate⟩

theorem isValid_toUniversal {ahead : Int} (h : t.isValid = true)
    (hdate : (t.toUniversal ahead).date.isValid = true) : (t.toUniversal ahead).isValid = true := by
  simp only [isValid, Bool.and_eq_true, decide_eq_true_eq] at h ⊢
  obtain ⟨⟨_, hsecond⟩, hnano⟩ := h
  refine ⟨⟨⟨⟨hdate, ?_⟩, ?_⟩, hsecond⟩, hnano⟩
  · simp only [toUniversal]
    omega
  · exact Nat.mod_lt _ (by decide)

theorem isValid_of_ofText? {text : String} (h : ofText? text = some t) : t.isValid = true := by
  unfold ofText? at h
  iterate 5 obtain ⟨_, _, h⟩ := Option.bind_eq_some_iff.mp h
  dsimp only [Option.bind_eq_bind, Option.bind_some, Option.bind_none] at h
  split at h
  · split at h
    · iterate 7 obtain ⟨_, _, h⟩ := Option.bind_eq_some_iff.mp h
      split at h
      · rename_i hvalid
        cases h
        exact isValid_toUniversal hvalid.2.1 hvalid.2.2
      · cases h
    · cases h
  · cases h

end Timestamp

namespace ProjectId

variable {id : ProjectId} {ns : List Nat} {cs : List Char}

theorem hexDigit?_digitChar {d : Nat} (h : d < 16) : hexDigit? (Nat.digitChar d) = some d := by
  have hall : ∀ d : Fin 16, hexDigit? (Nat.digitChar d) = some d.val := by decide
  exact hall ⟨d, h⟩

def places (v : Nat) : List Nat := (List.range 32).map fun i => v / 16 ^ (31 - i) % 16

theorem foldl_places {v : Nat} (hv : v < 16 ^ 32) :
    (places v).foldl (fun n d => 16 * n + d) 0 = v := by
  have hfirst : ∀ k ≤ 32, ((List.range k).map fun i => v / 16 ^ (31 - i) % 16).foldl
      (fun n d => 16 * n + d) 0 = v / 16 ^ (32 - k) := by
    intro k hk
    induction k with
    | zero => exact (Nat.div_eq_of_lt hv).symm
    | succ k ih =>
      have hbefore : 32 - k = 31 - k + 1 := by omega
      have hafter : 32 - (k + 1) = 31 - k := by omega
      rw [List.range_succ, List.map_append, List.foldl_append, ih (by omega), hbefore, hafter,
        Nat.pow_succ, ← Nat.div_div_eq_div_mul]
      exact Nat.div_add_mod (v / 16 ^ (31 - k)) 16
  have hlast := hfirst 32 (Nat.le_refl _)
  rwa [Nat.sub_self, Nat.pow_zero, Nat.div_one] at hlast

theorem hexDigits_eq (id : ProjectId) :
    id.hexDigits = (places id.value.toNat).map Nat.digitChar := by
  rw [hexDigits, places, List.map_map]
  rfl

theorem mapM_digitChar {ds : List Nat} (h : ∀ d ∈ ds, d < 16) :
    (ds.map Nat.digitChar).mapM hexDigit? = some ds := by
  induction ds with
  | nil => rfl
  | cons d ds ih =>
    obtain ⟨hd, hds⟩ := List.forall_mem_cons.mp h
    rw [List.map_cons, List.mapM_cons, hexDigit?_digitChar hd, ih hds]
    rfl

theorem ofHexDigits?_hexDigits (id : ProjectId) : ofHexDigits? id.hexDigits = some id := by
  have hsmall : ∀ d ∈ places id.value.toNat, d < 16 := by
    intro d hd
    obtain ⟨i, _, rfl⟩ := List.mem_map.mp hd
    exact Nat.mod_lt _ (by decide)
  have hcount : (places id.value.toNat).length = 32 := by simp [places]
  have hvalue := foldl_places id.value.isLt
  rw [ofHexDigits?, hexDigits_eq, mapM_digitChar hsmall]
  simp [hcount, hvalue]

theorem ungroup?_hyphenate (hne : ns ≠ []) (hlength : cs.length = ns.sum) :
    ungroup? ns (hyphenate ns cs) = some cs := by
  induction ns generalizing cs with
  | nil => exact absurd rfl hne
  | cons n ns ih =>
    rw [List.sum_cons] at hlength
    cases ns with
    | nil =>
      have hall : cs.length = n := by simpa using hlength
      rw [hyphenate, ungroup?, List.take_of_length_le (Nat.le_of_eq hall), if_pos hall]
    | cons m ns =>
      have htake : (cs.take n).length = n := by simp [hlength]
      have hdrop : (cs.drop n).length = (m :: ns).sum := by simp [hlength]
      have hrest := ih (List.cons_ne_nil m ns) hdrop
      simp only [hyphenate, ungroup?, List.drop_left' htake, List.take_left' htake, hrest,
        Option.map_some, List.take_append_drop]

theorem length_hyphenate (hlength : cs.length = ns.sum) :
    (hyphenate ns cs).length = cs.length + (ns.length - 1) := by
  induction ns generalizing cs with
  | nil => simp_all [hyphenate]
  | cons n ns ih =>
    rw [List.sum_cons] at hlength
    cases ns with
    | nil => simp_all [hyphenate]
    | cons m ns =>
      have hdrop : (cs.drop n).length = (m :: ns).sum := by simp [hlength]
      have hrest := ih hdrop
      simp [hyphenate, hrest]
      omega

theorem unwrapped_digitChar {d : Nat} (hd : d < 16) (hlength : cs.length = 35) :
    unwrapped (Nat.digitChar d :: cs) = Nat.digitChar d :: cs := by
  have hall : ∀ d : Fin 16, 'u' ≠ (Nat.digitChar d).toLower := by decide
  have hmark : 'u' ≠ (Nat.digitChar d).toLower := hall ⟨d, hd⟩
  simp [unwrapped, hlength, hmark]

theorem ofText?_text (id : ProjectId) : ofText? id.text = some id := by
  have hlength : id.hexDigits.length = groups.sum := by simp [hexDigits, groups]
  have hlong : id.text.toList.length = 36 := by
    rw [text, String.toList_ofList, length_hyphenate hlength, hlength]
    rfl
  have hwrapped : unwrapped id.text.toList = id.text.toList := by
    obtain ⟨cs, hcs⟩ : ∃ cs, id.text.toList =
        Nat.digitChar (id.value.toNat / Nat.pow 16 31 % 16) :: cs := ⟨_, String.toList_ofList ..⟩
    have hcount : cs.length = 35 := by simpa [hcs] using hlong
    rw [hcs, unwrapped_digitChar (Nat.mod_lt _ (by decide)) hcount]
  simp only [ofText?, hlong, hwrapped]
  rw [if_neg (by decide), text, String.toList_ofList, ungroup?_hyphenate (by decide) hlength]
  exact id.ofHexDigits?_hexDigits

end ProjectId

def Metadata.IsValid (m : Metadata) : Prop := m.created.isValid = true ∧ m.modified.isValid = true

theorem Metadata.reads {m : Metadata} (h : m.IsValid) : Reads Metadata.ofJson? m.toJson m := by
  apply reads_record ["id", "name", "created", "modified"] rfl (by decide)
  intro id hid name hname created hcreated modified hmodified
  simp [ComeBack, required, reads_string _ id hid, reads_string _ name hname,
    reads_string _ created hcreated, reads_string _ modified hmodified, ProjectId.ofText?_text,
    Timestamp.ofText?_text h.1, Timestamp.ofText?_text h.2]

theorem Metadata.isValid_of_ofJson? {m : Metadata} {j : Json} (h : ofJson? j = some m) :
    m.IsValid := by
  simp only [ofJson?, Option.bind_eq_bind, Option.bind_eq_some_iff] at h
  obtain ⟨fields, _, h⟩ := h
  split at h
  · simp only [Option.bind_eq_some_iff, Option.pure_def, Option.some.injEq] at h
    obtain ⟨_, _, _, _, _, _, _, _, created, hcreated, _, _, modified, hmodified, rfl⟩ := h
    exact ⟨Timestamp.isValid_of_ofText? hcreated, Timestamp.isValid_of_ofText? hmodified⟩
  · cases h

end RayScene
