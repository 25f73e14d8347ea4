import Mathlib.Algebra.GroupWithZero.Nat
import Mathlib.Data.List.Nodup
import RayScene.Json.Reader
import RayScene.Json.Writer
import RayScene.Stored.Node
set_option autoImplicit false

namespace RayScene.Json

mutual

/-- Whether a value has come back as another one. A number in single precision comes back as any
double that is rounded to it. -/
def readsAs : Json → Json → Bool
  | .null, .null => true
  | .bool a, .bool b => a == b
  | .number (.int i), .number (.int k) => i == k
  | .number (.double x), .number (.double y) => decide (x = y)
  | .number (.single x), .number (.double y) => decide (singleOf y = x)
  | .string s, .string t => s == t
  | .array js, .array ks => itemsReadAs js ks
  | .object ms, .object ns => membersReadAs ms ns
  | _, _ => false

def itemsReadAs : List Json → List Json → Bool
  | [], [] => true
  | j :: js, k :: ks => readsAs j k && itemsReadAs js ks
  | _, _ => false

def membersReadAs : List (String × Json) → List (String × Json) → Bool
  | [], [] => true
  | (a, j) :: ms, (b, k) :: ns => a == b && readsAs j k && membersReadAs ms ns
  | _, _ => false

end

/-- The text of the value is read back as this value. Nothing that is not finite is. -/
def ReadsBack (j : Json) : Prop := ∃ k, read j.pretty = some k ∧ j.readsAs k = true

def readChars (cs : List Char) : Option Json :=
  match scanValue (2 * cs.length + 2) cs with
  | some (j, rest) => if skipBlanks rest = [] then settle maxNesting j else none
  | none => none

theorem read_ofList (cs : List Char) : read (String.ofList cs) = readChars cs := by
  simp only [read, readLoose, readChars, String.toList_ofList]
  cases scanValue (2 * cs.length + 2) cs with
  | none => rfl
  | some r => by_cases hrest : skipBlanks r.2 = [] <;> simp [hrest]

instance (j : Json) : Decidable j.ReadsBack :=
  decidable_of_iff ((readChars (prettyText 0 j)).any j.readsAs = true) <| by
    simp [ReadsBack, pretty, read_ofList, Option.any_eq_true]

/-- A reader makes a value of whatever its stored form comes back as. -/
def Reads {α : Type} (read : Json → Option α) (j : Json) (a : α) : Prop :=
  ∀ k, j.readsAs k = true → read k = some a

def ComeBack : List Json → (List Json → Prop) → Prop
  | [], P => P []
  | j :: js, P => ∀ k, j.readsAs k = true → ComeBack js fun ks => P (k :: ks)

section Parts

variable {j k : Json} {js ks : List Json} {ms ns : List (String × Json)} {name : String}

theorem itemsReadAs_nil : itemsReadAs [] ks = true ↔ ks = [] := by
  cases ks <;> simp [itemsReadAs]

theorem itemsReadAs_cons : itemsReadAs (j :: js) ks = true ↔
    ∃ k ks', ks = k :: ks' ∧ j.readsAs k = true ∧ itemsReadAs js ks' = true := by
  cases ks <;> simp [itemsReadAs]

theorem ComeBack.apply {P : List Json → Prop} (h : ComeBack js P)
    (hks : itemsReadAs js ks = true) : P ks := by
  induction js generalizing ks P with
  | nil =>
    rw [itemsReadAs_nil.mp hks]
    exact h
  | cons j js ih =>
    obtain ⟨k, ks, rfl, hk, hrest⟩ := itemsReadAs_cons.mp hks
    exact ih (P := fun ks => P (k :: ks)) (h k hk) hrest

theorem eq_of_readsAs_string {s : String} (h : (Json.string s).readsAs k = true) :
    k = .string s := by
  cases k with
  | string t => rw [eq_of_beq h]
  | _ => cases h

theorem exists_of_readsAs_array (h : (Json.array js).readsAs k = true) :
    ∃ ks, k = .array ks ∧ itemsReadAs js ks = true := by
  cases k with
  | array ks => exact ⟨ks, rfl, h⟩
  | _ => cases h

theorem membersReadAs_iff : membersReadAs ms ns = true ↔
    ns.map (·.1) = ms.map (·.1) ∧ itemsReadAs (ms.map (·.2)) (ns.map (·.2)) = true := by
  induction ms generalizing ns with
  | nil => cases ns <;> simp [membersReadAs, itemsReadAs]
  | cons m ms ih =>
    cases ns with
    | nil => simp [membersReadAs]
    | cons n ns =>
      simp only [membersReadAs, itemsReadAs, ih, List.map_cons, List.cons.injEq, Bool.and_eq_true,
        beq_iff_eq]
      constructor
      · rintro ⟨⟨hkey, hvalue⟩, hkeys, hvalues⟩
        exact ⟨⟨hkey.symm, hkeys⟩, hvalue, hvalues⟩
      · rintro ⟨⟨hkey, hkeys⟩, hvalue, hvalues⟩
        exact ⟨⟨hkey.symm, hvalue⟩, hkeys, hvalues⟩

theorem exists_of_readsAs_object (h : (Json.object ms).readsAs k = true) :
    ∃ ns, k = .object ns ∧ membersReadAs ms ns = true := by
  cases k with
  | object ns => exact ⟨ns, rfl, h⟩
  | _ => cases h

theorem lookup_of_nodup {β : Type} {ms : List (String × β)} {b : β} (hkeys : (ms.map (·.1)).Nodup)
    (h : (name, b) ∈ ms) : List.lookup name ms = some b := by
  induction ms with
  | nil => cases h
  | cons m ms ih =>
    obtain ⟨hnew, hrest⟩ := List.nodup_cons.mp hkeys
    rcases List.mem_cons.mp h with rfl | h
    · simp
    · have hne : name ≠ m.1 := by
        rintro rfl
        exact hnew (List.mem_map_of_mem (f := (·.1)) h)
      rw [List.lookup_cons, beq_eq_false_iff_ne.mpr hne]
      exact ih hrest h

theorem unrepeated_of_nodup (hkeys : (ms.map (·.1)).Nodup) (names : List String) :
    unrepeated names ms = true := by
  rw [unrepeated, List.all_eq_true]
  intro name _
  have hcount := List.nodup_iff_count_le_one.mp hkeys name
  rw [List.count, List.countP_map, List.countP_eq_length_filter] at hcount
  exact decide_eq_true hcount

theorem fields?_object (hkeys : (ms.map (·.1)).Nodup) (names : List String) :
    (Json.object ms).fields? names = some (names.map fun name => List.lookup name ms) := by
  rw [fields?, if_pos (unrepeated_of_nodup hkeys names)]

theorem exists_lookup_of_mem (hns : membersReadAs ms ns = true) (hkeys : (ms.map (·.1)).Nodup)
    (h : (name, j) ∈ ms) : ∃ k, List.lookup name ns = some k ∧ j.readsAs k = true := by
  induction ms generalizing ns with
  | nil => cases h
  | cons m ms ih =>
    obtain ⟨hnew, hrest⟩ := List.nodup_cons.mp hkeys
    cases ns with
    | nil => cases hns
    | cons n ns =>
      obtain ⟨key, k⟩ := n
      simp only [membersReadAs, Bool.and_eq_true, beq_iff_eq] at hns
      obtain ⟨⟨rfl, hvalue⟩, hns⟩ := hns
      rcases List.mem_cons.mp h with rfl | h
      · exact ⟨k, List.lookup_cons_self, hvalue⟩
      · have hne : name ≠ m.1 := by
          rintro rfl
          exact hnew (List.mem_map_of_mem (f := (·.1)) h)
        rw [List.lookup_cons, beq_eq_false_iff_ne.mpr hne]
        exact ih hns hrest h

theorem reads_array {α : Type} {read : Json → Option α} {a : α}
    (h : ComeBack js fun ks => read (.array ks) = some a) : Reads read (.array js) a := by
  intro k hk
  obtain ⟨ks, rfl, hks⟩ := exists_of_readsAs_array hk
  exact h.apply hks

/-- All fields of a record are there when it comes back. -/
theorem reads_record {α : Type} {read : List (Option Json) → Option α} {a : α}
    (names : List String) (hnames : ms.map (·.1) = names) (hnodup : names.Nodup)
    (h : ComeBack (ms.map (·.2)) fun values => read (values.map some) = some a) :
    Reads (fun j => (j.fields? names).bind read) (.object ms) a := by
  intro k hk
  obtain ⟨ns, rfl, hns⟩ := exists_of_readsAs_object hk
  obtain ⟨hkeys, hvalues⟩ := membersReadAs_iff.mp hns
  rw [hnames] at hkeys
  have hnodup' : (ns.map (·.1)).Nodup := hkeys ▸ hnodup
  have hfields : (Json.object ns).fields? names = some ((ns.map (·.2)).map some) := by
    rw [fields?_object hnodup', ← hkeys, List.map_map, List.map_map]
    congr 1
    apply List.map_congr_left
    intro n hn
    exact lookup_of_nodup hnodup' hn
  dsimp only
  rw [hfields]
  exact h.apply hvalues

theorem reads_tagged {α : Type} {ofFields? : String → Json → Option α} {a : α} {tag : String}
    {tags : List String} (nested : Bool) (htag : tag ∈ tags) (hnames : "type" ∉ ms.map (·.1))
    (hfields : Reads (ofFields? tag) (.object ms) a) :
    Reads (fun j => (j.tagged? nested tags).bind fun (tag, rest) => ofFields? tag rest)
      (taggedRecord tag ms) a := by
  intro k h
  obtain ⟨ns, rfl, hns⟩ := exists_of_readsAs_object h
  cases ns with
  | nil => cases hns
  | cons n ns =>
    obtain ⟨name, value⟩ := n
    simp only [membersReadAs, Bool.and_eq_true, beq_iff_eq] at hns
    obtain ⟨⟨rfl, hvalue⟩, hrest⟩ := hns
    obtain rfl := eq_of_readsAs_string hvalue
    obtain ⟨hkeys, _⟩ := membersReadAs_iff.mp hrest
    have hnot : ∀ n ∈ ns, n.1 ≠ "type" := by
      rintro n hn htype
      exact hnames (hkeys ▸ htype ▸ List.mem_map_of_mem (f := (·.1)) hn)
    have hfilter : ns.filter (·.1 != "type") = ns := by
      simpa [List.filter_eq_self] using hnot
    have honce : unrepeated ["type"] (("type", .string tag) :: ns) = true := by
      have hnone : ns.filter (·.1 == "type") = [] := by simpa [List.filter_eq_nil_iff] using hnot
      simp [unrepeated, hnone]
    have hread := hfields (.object ns) hrest
    simp [tagged?, honce, hfilter, tag?, htag, hread]

end Parts

section Readers

variable {α : Type} {read : Json → Option α} {k : Json}

theorem reads_double (x : Float) : Reads double? (ofDouble x) x := by
  intro k h
  cases k with
  | number n =>
    cases n with
    | double y =>
      rw [of_decide_eq_true h]
      rfl
    | _ => cases h
  | _ => cases h

theorem reads_single (x : Float32) : Reads single? (ofSingle x) x := by
  intro k h
  cases k with
  | number n =>
    cases n with
    | double y => exact congrArg some (of_decide_eq_true h)
    | _ => cases h
  | _ => cases h

theorem reads_bool (b : Bool) : Reads bool? (.bool b) b := by
  intro k h
  cases k with
  | bool c =>
    rw [eq_of_beq h]
    rfl
  | _ => cases h

theorem reads_string (s : String) : Reads string? (.string s) s := by
  intro k h
  rw [eq_of_readsAs_string h]
  rfl

theorem reads_word {bits n : Nat} (hn : n < 2 ^ bits) : Reads (word? bits) (ofNat n) n := by
  intro k h
  cases k with
  | number m =>
    cases m with
    | int i =>
      obtain rfl : (n : Int) = i := eq_of_beq h
      have hfits : (0 : Int) ≤ n ∧ (n : Int) < Nat.pow 2 bits :=
        ⟨Int.natCast_nonneg n, Int.ofNat_lt.mpr hn⟩
      rw [word?, if_pos hfits, Int.toNat_natCast]
    | _ => cases h
  | _ => cases h

theorem reads_uint8 (n : UInt8) : Reads uint8? (ofNat n.toNat) n := by
  intro k h
  have hword : word? 8 k = some n.toNat := reads_word n.toNat_lt k h
  simp [uint8?, hword]

theorem reads_uint32 (n : UInt32) : Reads uint32? (ofUInt32 n) n := by
  intro k h
  have hword : word? 32 k = some n.toNat := reads_word n.toNat_lt k h
  simp [uint32?, hword]

theorem reads_list {write : α → Json} {as : List α} (h : ∀ a ∈ as, Reads read (write a) a) :
    Reads (list? read) (.array (as.map write)) as := by
  intro k hk
  obtain ⟨ks, rfl, hks⟩ := exists_of_readsAs_array hk
  change ks.mapM read = some as
  induction as generalizing ks with
  | nil =>
    rw [itemsReadAs_nil.mp hks]
    rfl
  | cons a as ih =>
    obtain ⟨ha, has⟩ := List.forall_mem_cons.mp h
    obtain ⟨k, ks, rfl, hfirst, hrest⟩ := itemsReadAs_cons.mp hks
    rw [List.mapM_cons, ha k hfirst, ih has ks hrest hrest]
    rfl

theorem reads_option {write : α → Json} {a? : Option α} (hnull : read .null = none)
    (h : ∀ a, a? = some a → Reads read (write a) a) :
    Reads (option? read) (optionJson write a?) a? := by
  intro k hk
  cases a? with
  | none =>
    cases k with
    | null => rfl
    | _ => cases hk
  | some a =>
    have hread := h a rfl k hk
    cases k with
    | null =>
      rw [hnull] at hread
      cases hread
    | _ => exact congrArg (Option.map some) hread

theorem reads_choice [DecidableEq α] {choices : List (String × α)} {a : α}
    (hnames : (choices.map (·.1)).Nodup) (ha : a ∈ choices.map (·.2)) (nested : Bool) :
    Reads (choice? nested choices) (nameIn choices a) a := by
  obtain ⟨⟨name, b⟩, hfind⟩ : ∃ choice, choices.find? (·.2 = a) = some choice := by
    rw [← Option.isSome_iff_exists, List.find?_isSome]
    simpa using ha
  obtain rfl : b = a := by simpa using List.find?_some hfind
  intro k h
  rw [nameIn, hfind] at h
  rw [eq_of_readsAs_string h]
  exact lookup_of_nodup hnames (List.mem_of_find?_eq_some hfind)

end Readers

end RayScene.Json
