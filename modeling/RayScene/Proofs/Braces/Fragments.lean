import RayScene.Proofs.Braces.Scan
import RayScene.Proofs.Text.Identifiers
import RayScene.Proofs.Text.Numbers
import RayScene.Proofs.Text.Search
import RayScene.Sdl.Plan
import RayScene.Sdl.View
set_option autoImplicit false

namespace RayScene.Braces

open Sdl

def Tracks (p : Place) (s : String) (q : Place) : Prop := scan p s.toList = some q

def Plain (s : String) : Prop := ∀ p, Tracks p s p

def Steady (s : String) : Prop := ∀ d, Tracks ⟨0, d⟩ s ⟨0, d⟩

def Opens (s : String) : Prop := ∀ k d, Tracks ⟨k, d⟩ s ⟨0, d + 1⟩

/-- The end of a statement, which may be left open. -/
def Ends (close : Bool) (s : String) : Prop :=
  ∀ k d, Tracks ⟨k, d + 1⟩ s ⟨0, d + if close then 0 else 1⟩

/-- Text that leads from one depth to another wherever it begins on a line. -/
def Moves (a b : Nat) (s : String) : Prop := ∀ k d, ∃ m, Tracks ⟨k, d + a⟩ s ⟨m, d + b⟩

section Tracking

variable {p q r : Place} {s t : String} {a b c : Nat}

theorem Tracks.literal {cs : List Char} (h : scan p cs = some q) :
    Tracks p (String.ofList cs) q := by
  unfold Tracks
  rw [String.toList_ofList]
  exact h

theorem Tracks.empty (p : Place) : Tracks p "" p := rfl

theorem Tracks.append (h : Tracks p s q) (h' : Tracks q t r) : Tracks p (s ++ t) r := by
  unfold Tracks
  rw [String.toList_append]
  exact scan_append_eq_some.mpr ⟨q, h, h'⟩

theorem Tracks.append_append {u : String} (h : Tracks p (s ++ t) q) (h' : Tracks q u r) :
    Tracks p (s ++ (t ++ u)) r := by
  rw [← String.append_assoc]
  exact h.append h'

theorem Tracks.ite {x : Prop} [Decidable x] (h : Tracks p s q) (h' : Tracks p t q) :
    Tracks p (if x then s else t) q :=
  iteInduction (motive := (Tracks p · q)) (fun _ => h) fun _ => h'

theorem Tracks.shift {lead : List Char} (hlead : lead.all isPlainChar = true)
    (h : Tracks p s q) : Tracks p (shift lead s) q := by
  unfold Tracks Sdl.shift
  rw [String.toList_ofList, scan_substitute hlead]
  exact h

theorem Tracks.indent (h : Tracks p s q) : Tracks p (indent s) q := h.shift rfl

theorem Plain.steady (h : Plain s) : Steady s := fun d => h ⟨0, d⟩

theorem Plain.append (h : Plain s) (h' : Plain t) : Plain (s ++ t) := fun p => (h p).append (h' p)

theorem plain_of_mem (h : ∀ c ∈ s.toList, isPlainChar c = true) : Plain s :=
  fun p => scan_of_plain (List.all_eq_true.mpr h) p

theorem Steady.append (h : Steady s) (h' : Steady t) : Steady (s ++ t) :=
  fun d => (h d).append (h' d)

theorem Steady.indent (h : Steady s) : Steady (indent s) := fun d => (h d).indent

theorem steady_join {l : List String} (h : ∀ s ∈ l, Steady s) : Steady (String.join l) :=
  Text.join_of_append (fun _ => .empty _) (fun _ _ => .append) h

theorem plain_intercalate {sep : String} (hsep : Plain sep) {l : List String}
    (h : ∀ s ∈ l, Plain s) : Plain (sep.intercalate l) :=
  Text.intercalate_of_append (fun p => .empty p) (fun _ _ => .append) hsep h

theorem Moves.append (h : Moves a b s) (h' : Moves b c t) : Moves a c (s ++ t) := by
  intro k d
  obtain ⟨m, hm⟩ := h k d
  obtain ⟨m', hm'⟩ := h' m d
  exact ⟨m', hm.append hm'⟩

theorem Moves.indent (h : Moves a b s) : Moves a b (indent s) := by
  intro k d
  obtain ⟨m, hm⟩ := h k d
  exact ⟨m, hm.indent⟩

theorem moves_of_braceFree (h : braceFree s.toList) (a : Nat) : Moves a a s :=
  fun k d => scan_of_braceFree h ⟨k, d + a⟩

end Tracking

theorem isPlainChar_of_class {p : Char → Bool} {c : Char}
    (hp : p '\n' = false ∧ p '/' = false ∧ p '{' = false ∧ p '}' = false)
    (h : p c = true) : isPlainChar c = true := by
  have hne : ∀ d, p d = false → c ≠ d := by
    rintro d hd rfl
    rw [h] at hd
    cases hd
  obtain ⟨hn, hs, ho, hc⟩ := hp
  exact isPlainChar_iff.mpr ⟨hne _ hn, hne _ hs, hne _ ho, hne _ hc⟩

section Numbers

theorem plain_of_number {s : String} (h : ∀ c ∈ s.toList, isNumberChar c = true) : Plain s := by
  apply plain_of_mem
  intro c hc
  exact isPlainChar_of_class ⟨rfl, rfl, rfl, rfl⟩ (h c hc)

theorem plain_number (x : Float) : Plain (number x) :=
  plain_of_number fun _ => isNumberChar_of_mem_number

theorem plain_natural (n : Nat) : Plain (natural n) :=
  plain_of_number fun _ => isNumberChar_of_mem_natural

theorem plain_fixed (places : Nat) (x : Float) : Plain (fixed places x) :=
  plain_of_number fun _ => isNumberChar_of_mem_fixed

theorem plain_fixedSingle (places : Nat) (x : Float32) : Plain (fixedSingle places x) :=
  plain_of_number fun _ => isNumberChar_of_mem_fixedSingle

theorem plain_pair (v : Vec2) : Plain (pair v) := by
  intro p
  unfold pair
  simp only [String.append_assoc]
  exact .append (.literal rfl) <| .append (plain_number v.x p) <| .append (.literal rfl) <|
    .append (plain_number v.y p) <| .literal rfl

theorem plain_triple (v : Vec3) : Plain (triple v) := by
  intro p
  unfold triple
  simp only [String.append_assoc]
  exact .append (.literal rfl) <| .append (plain_number v.x p) <| .append (.literal rfl) <|
    .append (plain_number v.y p) <| .append (.literal rfl) <| .append (plain_number v.z p) <|
    .literal rfl

theorem plain_components (c : Rgb) : Plain (components c) := by
  intro p
  unfold components
  simp only [String.append_assoc]
  exact .append (plain_fixedSingle 3 c.red p) <| .append (.literal rfl) <|
    .append (plain_fixedSingle 3 c.green p) <| .append (.literal rfl) <|
    plain_fixedSingle 3 c.blue p

theorem plain_color (c : Rgb) : Plain (color c) := by
  intro p
  unfold color
  simp only [String.append_assoc]
  exact .append (.literal rfl) <| .append (plain_components c p) <| .literal rfl

end Numbers

section Identifiers

theorem isPlainChar_of_isIdentifierChar {c : Char} (h : isIdentifierChar c = true) :
    isPlainChar c = true :=
  isPlainChar_of_class ⟨rfl, rfl, rfl, rfl⟩ h

theorem plain_sanitize (label : String) : Plain (sanitize label) := by
  apply plain_of_mem
  intro c hc
  exact isPlainChar_of_isIdentifierChar (isIdentifierChar_of_mem_sanitize hc)

theorem plain_meshIdentifier (label : String) : Plain (meshIdentifier label) :=
  fun p => .append (plain_sanitize label p) <| .literal rfl

end Identifiers

section Clauses

variable {s : Surroundings} {n : Node} {f : Flags}

theorem plain_displacement (n : Node) : Plain (displacement n) := by
  intro p
  unfold displacement
  exact .ite (.append (.literal rfl) <| plain_triple _ p) <| .empty p

theorem plain_rotation (d : Document) (n : Node) : Plain (Sdl.rotation d n) := by
  intro p
  unfold Sdl.rotation
  exact .ite (.append (.literal rfl) <| plain_triple _ p) <| .empty p

theorem plain_of_mem_inverseRotation {d : Document} {n : Node} {r : String}
    (h : r ∈ inverseRotation d n) : Plain r := by
  unfold inverseRotation at h
  dsimp only at h
  intro p
  simp only [List.mem_append, List.mem_ite_nil_right, List.mem_singleton] at h
  rcases h with (⟨_, rfl⟩ | ⟨_, rfl⟩) | ⟨_, rfl⟩
  · exact .append (.append (.literal rfl) <| plain_number _ p) <| .literal rfl
  · exact .append (.append (.literal rfl) <| plain_number _ p) <| .literal rfl
  · exact .append (.append (.literal rfl) <| plain_number _ p) <| .literal rfl

theorem steady_clauseLine {lead clause : String} (hlead : Plain lead) (hclause : Steady clause) :
    Steady (clauseLine lead clause) := by
  intro d
  unfold clauseLine
  exact .ite (.empty _) <| .append (.append (hlead _) <| hclause d) <| .literal rfl

theorem steady_placement (d : Document) (n : Node) {lead : String} (hlead : Plain lead) :
    Steady (clauseLine lead (Sdl.rotation d n) ++ clauseLine lead (displacement n)) :=
  (steady_clauseLine hlead (plain_rotation d n).steady).append
    (steady_clauseLine hlead (plain_displacement n).steady)

theorem steady_pigment (v : ViewStyle) (shapeColor : Rgb) : Steady (pigment v shapeColor) := by
  intro d
  unfold pigment
  simp only [String.append_assoc]
  exact .ite (.empty _) <| .append (.literal rfl) <| .append (plain_color _ _) <|
    .append (.ite (.empty _) <| .append (.literal rfl) <| plain_number _ _) <| .literal rfl

theorem steady_finish (m : ShapeMaterial) : Steady (finish m) := by
  intro d
  unfold finish
  simp only [String.append_assoc]
  exact .ite (.empty _) <| .append (.literal rfl) <|
    .append (.ite (.empty _) <| .append (.literal rfl) <| .append (plain_components _ _) <|
      .literal rfl) <| .append (.literal rfl) <|
    .append (.ite (.empty _) <| .append (.literal rfl) <| .append (plain_components _ _) <|
      .literal rfl) <| .append (.literal rfl) <|
    .append (.ite (.empty _) <| .append (.literal rfl) <| .append (plain_fixed _ _ _) <|
      .append (.literal rfl) <| .append (plain_number _ _) <| .literal rfl) <| .literal rfl

theorem steady_textureClause {textures : Include} {label clause : String} (hlabel : Plain label)
    (h : textureClause? textures label = some clause) : Steady clause := by
  intro d
  unfold textureClause? at h
  split at h
  · cases h
    exact .append (.append (.literal rfl) <| hlabel _) <| .literal rfl
  split at h
  · cases h
    exact .append (.append (.literal rfl) <| hlabel _) <| .literal rfl
  split at h
  · cases h
    exact .append (.append (.literal rfl) <| hlabel _) <| .literal rfl
  split at h
  · cases h
    exact .append (.append (.literal rfl) <| hlabel _) <| .literal rfl
  · cases h

theorem steady_material (c : Context) (n : Node) : Steady (material c n) := by
  intro d
  unfold material
  dsimp only
  split
  · exact .append (.append (.literal rfl) <| plain_sanitize n.label _) <| .literal rfl
  · split
    · rename_i clause hclause
      exact steady_textureClause (plain_sanitize n.label) hclause d
    · exact .append (steady_pigment _ _ d) <| steady_finish _ d

theorem steady_photons (c : Context) (n : Node) : Steady (photons c n) := by
  intro d
  have hclause : ∀ name, Plain name → Steady
      (if c.user.declares (sanitize n.label ++ "_photons_" ++ name) then
        "\n\t" ++ name ++ " " ++ (sanitize n.label ++ "_photons_" ++ name) else "") := by
    intro name hname e
    exact .ite (.append (.append (.append (.literal rfl) <| hname _) <| .literal rfl) <|
      .append (.append (plain_sanitize n.label _) <| .literal rfl) <| hname _) <| .empty _
  unfold photons
  dsimp only
  exact .ite (.append (.append (.append (.append (.append (.literal rfl) <|
    .ite (.empty _) <| .literal rfl) <| hclause _ (fun _ => .literal rfl) _) <|
    hclause _ (fun _ => .literal rfl) _) <| hclause _ (fun _ => .literal rfl) _) <|
    .literal rfl) <| .empty _

theorem tracks_close {text : String} (close : Bool) (d : Nat)
    (h : Tracks ⟨0, d + 1⟩ text ⟨0, d⟩) :
    Tracks ⟨0, d + 1⟩ (if close then text else "") ⟨0, d + if close then 0 else 1⟩ := by
  cases close with
  | true => exact h
  | false => exact .empty _

theorem steady_trailing (n : Node) (hf : f.close = false) : Steady (s.trailing n f) := by
  intro d
  have hempty : Plain "" := .empty
  have htab : Plain "\t" := fun _ => .literal rfl
  have hplace := steady_placement s.document n htab
  have hmaterial := steady_clauseLine hempty (steady_material s.context n).indent
  have hphotons := steady_clauseLine hempty (steady_photons s.context n).indent
  unfold Surroundings.trailing
  rw [hf]
  exact .append (.append (.append (.ite (hmaterial _) <| .empty _) <|
    .ite (hphotons _) <| .empty _) <| .ite (hplace _) <| .empty _) <| .empty _

theorem tracks_trailing (n : Node) (f : Flags) (d : Nat) :
    Tracks ⟨0, d + 1⟩ (s.trailing n f) ⟨0, d + if f.close then 0 else 1⟩ := by
  have hclauses := steady_trailing (s := s) (f := { f with close := false }) n rfl (d + 1)
  have hsplit : s.trailing n f =
      s.trailing n { f with close := false } ++ (if f.close then "\x7d\n" else "") := by
    simp [Surroundings.trailing]
  rw [hsplit]
  exact hclauses.append <| tracks_close f.close d <| .literal rfl

end Clauses

end RayScene.Braces
