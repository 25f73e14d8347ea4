import RayScene.Proofs.Citations.Scan
import RayScene.Proofs.Text.Identifiers
import RayScene.Proofs.Text.Numbers
import RayScene.Sdl.Plan
set_option autoImplicit false

namespace RayScene.Sdl

open Citations

def isQuietChar (c : Char) : Bool := c != '#' && c != '/'

def Unmarked (s : String) : Prop := ∀ c ∈ s.toList, isQuietChar c = true

structure Quiet (s : String) : Prop where
  unmarked : Unmarked s
  silent : Cites s []

section Marks

variable {a b s : String}

theorem Unmarked.literal {cs : List Char} (h : cs.all isQuietChar = true) :
    Unmarked (String.ofList cs) := by
  unfold Unmarked
  rw [String.toList_ofList]
  exact List.all_eq_true.mp h

theorem Unmarked.append (ha : Unmarked a) (hb : Unmarked b) : Unmarked (a ++ b) := by
  intro c hc
  rw [String.toList_append, List.mem_append] at hc
  exact hc.elim (ha c) (hb c)

theorem Unmarked.shift {lead : List Char} (hlead : ∀ c ∈ lead, c = '\t') (h : Unmarked s) :
    Unmarked (shift lead s) := by
  intro c hc
  unfold Sdl.shift at hc
  rw [String.toList_ofList] at hc
  obtain ⟨d, hd, hcd⟩ := List.mem_flatMap.mp hc
  split at hcd
  · rcases List.mem_cons.mp hcd with rfl | hcd
    · rfl
    · rw [hlead c hcd]
      rfl
  · rw [List.mem_singleton.mp hcd]
    exact h d hd

end Marks

section Putting

variable {a b s : String} {l : List String}

theorem Quiet.literal {cs : List Char} (h : (cs.all isQuietChar && isSilent [] cs) = true) :
    Quiet (String.ofList cs) := by
  obtain ⟨hchars, hsilent⟩ := Bool.and_eq_true_iff.mp h
  exact ⟨.literal hchars, .of_isSilent hsilent⟩

theorem Quiet.empty : Quiet "" := .literal rfl

theorem Quiet.append (ha : Quiet a) (hb : Quiet b) : Quiet (a ++ b) :=
  ⟨ha.unmarked.append hb.unmarked, ha.silent.append hb.silent⟩

theorem Quiet.ite {p : Prop} [Decidable p] (ha : Quiet a) (hb : Quiet b) :
    Quiet (if p then a else b) :=
  iteInduction (fun _ => ha) fun _ => hb

theorem quiet_join (h : ∀ s ∈ l, Quiet s) : Quiet (String.join l) :=
  Text.join_of_append .empty (fun _ _ => .append) h

theorem quiet_intercalate {sep : String} (hsep : Quiet sep) (h : ∀ s ∈ l, Quiet s) :
    Quiet (sep.intercalate l) :=
  Text.intercalate_of_append .empty (fun _ _ => .append) hsep h

theorem Quiet.shift {lead : List Char} (hlead : ∀ c ∈ lead, c = '\t') (h : Quiet s) :
    Quiet (shift lead s) :=
  ⟨h.unmarked.shift hlead, h.silent.shift hlead⟩

theorem Quiet.indent (h : Quiet s) : Quiet (indent s) := h.shift (by simp)

theorem quiet_of_class {p : Char → Bool}
    (hp : (p '#' || p '/' || p '{' || p '\x22') = false) (h : ∀ c ∈ s.toList, p c = true) :
    Quiet s := by
  simp only [Bool.or_eq_false_iff] at hp
  have hnot {c : Char} (hc : p c = false) : c ∉ s.toList := fun hmem =>
    absurd ((h c hmem).symm.trans hc) nofun
  refine ⟨fun c hmem => ?_, .of_not_mem (hnot hp.1.2) (hnot hp.2)⟩
  have hne {d : Char} (hd : p d = false) : c ≠ d := by
    rintro rfl
    exact hnot hd hmem
  simp [isQuietChar, hne hp.1.1.1, hne hp.1.1.2]

end Putting

section Numbers

theorem quiet_of_number {s : String} (h : ∀ c ∈ s.toList, isNumberChar c = true) : Quiet s :=
  quiet_of_class rfl h

theorem quiet_number (x : Float) : Quiet (number x) :=
  quiet_of_number fun _ => isNumberChar_of_mem_number

theorem quiet_natural (n : Nat) : Quiet (natural n) :=
  quiet_of_number fun _ => isNumberChar_of_mem_natural

theorem quiet_fixed (places : Nat) (x : Float) : Quiet (fixed places x) :=
  quiet_of_number fun _ => isNumberChar_of_mem_fixed

theorem quiet_fixedSingle (places : Nat) (x : Float32) : Quiet (fixedSingle places x) :=
  quiet_of_number fun _ => isNumberChar_of_mem_fixedSingle

theorem quiet_pair (v : Vec2) : Quiet (pair v) :=
  .append (.append (.append (.append (.literal rfl) <| quiet_number v.x) <| .literal rfl) <|
    quiet_number v.y) <| .literal rfl

theorem quiet_triple (v : Vec3) : Quiet (triple v) :=
  .append (.append (.append (.append (.append (.append (.literal rfl) <| quiet_number v.x) <|
    .literal rfl) <| quiet_number v.y) <| .literal rfl) <| quiet_number v.z) <| .literal rfl

theorem quiet_components (c : Rgb) : Quiet (components c) :=
  .append (.append (.append (.append (quiet_fixedSingle 3 c.red) <| .literal rfl) <|
    quiet_fixedSingle 3 c.green) <| .literal rfl) <| quiet_fixedSingle 3 c.blue

theorem quiet_color (c : Rgb) : Quiet (color c) :=
  .append (.append (.literal rfl) <| quiet_components c) <| .literal rfl

end Numbers

section Clauses

variable {s : Surroundings} {n : Node} {f : Flags}

theorem quiet_sanitize (label : String) : Quiet (sanitize label) :=
  quiet_of_class rfl fun _ => isIdentifierChar_of_mem_sanitize

theorem quiet_meshIdentifier (label : String) : Quiet (meshIdentifier label) :=
  quiet_of_class rfl fun _ => isIdentifierChar_of_mem_meshIdentifier

theorem quiet_displacement (n : Node) : Quiet (displacement n) :=
  .ite (.append (.literal rfl) <| quiet_triple _) <| .empty

theorem quiet_rotation (d : Document) (n : Node) : Quiet (rotation d n) :=
  .ite (.append (.literal rfl) <| quiet_triple _) <| .empty

theorem quiet_of_mem_inverseRotation {d : Document} {r : String} (h : r ∈ inverseRotation d n) :
    Quiet r := by
  unfold inverseRotation at h
  simp only [List.mem_append, List.mem_ite_nil_right, List.mem_singleton] at h
  rcases h with (⟨_, rfl⟩ | ⟨_, rfl⟩) | ⟨_, rfl⟩
  · exact .append (.append (.literal rfl) <| quiet_number _) <| .literal rfl
  · exact .append (.append (.literal rfl) <| quiet_number _) <| .literal rfl
  · exact .append (.append (.literal rfl) <| quiet_number _) <| .literal rfl

theorem quiet_clauseLine {lead clause : String} (hlead : Quiet lead) (hclause : Quiet clause) :
    Quiet (clauseLine lead clause) :=
  .ite .empty <| .append (.append hlead hclause) <| .literal rfl

theorem quiet_placement (d : Document) (n : Node) (lead : String) (hlead : Quiet lead) :
    Quiet (clauseLine lead (rotation d n) ++ clauseLine lead (displacement n)) :=
  (quiet_clauseLine hlead (quiet_rotation d n)).append
    (quiet_clauseLine hlead (quiet_displacement n))

theorem quiet_pigment (v : ViewStyle) (shapeColor : Rgb) : Quiet (pigment v shapeColor) := by
  unfold pigment
  exact .ite .empty <| .append (.append (.append (.literal rfl) <| quiet_color _) <|
    .ite .empty <| .append (.literal rfl) <| quiet_number _) <| .literal rfl

theorem quiet_finish (m : ShapeMaterial) : Quiet (finish m) := by
  unfold finish
  simp only [String.append_assoc]
  exact .ite .empty <| .append (.literal rfl) <|
    .append (.ite .empty <| .append (.literal rfl) <| .append (quiet_components _) <|
      .literal rfl) <| .append (.literal rfl) <|
    .append (.ite .empty <| .append (.literal rfl) <| .append (quiet_components _) <|
      .literal rfl) <| .append (.literal rfl) <|
    .append (.ite .empty <| .append (.literal rfl) <| .append (quiet_fixed _ _) <|
      .append (.literal rfl) <| .append (quiet_number _) <| .literal rfl) <| .literal rfl

theorem quiet_textureClause {textures : Include} {label clause : String} (hlabel : Quiet label)
    (h : textureClause? textures label = some clause) : Quiet clause := by
  unfold textureClause? at h
  split at h
  · cases h
    exact .append (.append (.literal rfl) hlabel) <| .literal rfl
  split at h
  · cases h
    exact .append (.append (.literal rfl) hlabel) <| .literal rfl
  split at h
  · cases h
    exact .append (.append (.literal rfl) hlabel) <| .literal rfl
  split at h
  · cases h
    exact .append (.append (.literal rfl) hlabel) <| .literal rfl
  · cases h

theorem quiet_material (c : Context) (n : Node) : Quiet (material c n) := by
  unfold material
  dsimp only
  split
  · exact .append (.append (.literal rfl) <| quiet_sanitize n.label) <| .literal rfl
  · split
    · rename_i clause hclause
      exact quiet_textureClause (quiet_sanitize n.label) hclause
    · exact (quiet_pigment _ _).append (quiet_finish _)

theorem quiet_photons (c : Context) (n : Node) : Quiet (photons c n) := by
  have hclause : ∀ name, Quiet name → Quiet
      (if c.user.declares (sanitize n.label ++ "_photons_" ++ name) then
        "\n\t" ++ name ++ " " ++ (sanitize n.label ++ "_photons_" ++ name) else "") := by
    intro name hname
    exact .ite (.append (.append (.append (.literal rfl) hname) <| .literal rfl) <|
      .append (.append (quiet_sanitize n.label) <| .literal rfl) hname) .empty
  unfold photons
  dsimp only
  exact .ite (.append (.append (.append (.append (.append (.literal rfl) <|
    .ite .empty <| .literal rfl) <| hclause _ <| .literal rfl) <| hclause _ <| .literal rfl) <|
    hclause _ <| .literal rfl) <| .literal rfl) .empty

theorem quiet_trailing (n : Node) (f : Flags) : Quiet (s.trailing n f) := by
  have hmaterial := quiet_clauseLine .empty (quiet_material s.context n).indent
  have hphotons := quiet_clauseLine .empty (quiet_photons s.context n).indent
  have hplace := quiet_placement s.document n "\t" (.literal rfl)
  exact .append (.append (.append (.ite hmaterial .empty) <| .ite hphotons .empty) <|
    .ite hplace .empty) <| .ite (.literal rfl) .empty

theorem quiet_copyClauses (n : Node) (f : Flags) : Quiet (s.copyClauses n f) :=
  .append (.ite (quiet_clauseLine (.literal rfl) (quiet_material s.context n)) .empty) <|
    .ite (quiet_clauseLine (.literal rfl) (quiet_photons s.context n)) .empty

theorem quiet_inverseRotation (d : Document) (n : Node) :
    Quiet (String.join ((inverseRotation d n).map fun r => "\t" ++ r ++ "\n")) := by
  refine quiet_join fun line hline => ?_
  obtain ⟨r, hr, rfl⟩ := List.mem_map.mp hline
  exact .append (.append (.literal rfl) (quiet_of_mem_inverseRotation hr)) <| .literal rfl

theorem quiet_referenceClauses (n : Node) (f : Flags) : Quiet ((if f.placement then ""
    else (if (displacement n).isEmpty then "" else "\t" ++ displacement n ++ " * (-1)\n") ++
      String.join ((inverseRotation s.document n).map fun r => "\t" ++ r ++ "\n")) ++
    clauseLine "\t" (material s.context n) ++
    (if f.photons then clauseLine "\t" (photons s.context n) else "") ++
    (if f.close then "\x7d\n" else "")) := by
  have htab : Quiet "\t" := .literal rfl
  have hback : Quiet (if (displacement n).isEmpty then ""
      else "\t" ++ displacement n ++ " * (-1)\n") :=
    .ite .empty <| .append (htab.append (quiet_displacement n)) <| .literal rfl
  exact .append (.append (.append (.ite .empty <|
    hback.append (quiet_inverseRotation s.document n)) <|
    quiet_clauseLine htab (quiet_material s.context n)) <|
    .ite (quiet_clauseLine htab (quiet_photons s.context n)) .empty) <| .ite (.literal rfl) .empty

theorem unmarked_meshReference (n : Node) (f : Flags) : Unmarked (s.meshReference n f) := by
  have hclauses := (quiet_referenceClauses (s := s) n f).unmarked
  unfold Surroundings.meshReference
  simp only [String.append_assoc] at hclauses ⊢
  exact .append (.literal rfl) <| .append (quiet_meshIdentifier _).unmarked <|
    .append (.literal rfl) hclauses

end Clauses

section Shapes

theorem quiet_polygon (l w : Float) : Quiet (polygon l w) := by
  unfold polygon
  simp only [String.append_assoc]
  exact .append (.literal rfl) <| .append (quiet_number l) <| .append (.literal rfl) <|
    .append (quiet_number l) <| .append (.literal rfl) <| .append (quiet_number w) <|
    .append (.literal rfl) <| .append (quiet_number w) <| .literal rfl

theorem quiet_primitive {k : Kind} {code : String} (h : primitive? k = some code)
    (himage : ∀ file x y, k ≠ .imagePlane file x y) : Quiet code := by
  cases k with
  | box l w h' =>
    cases h
    exact .append (.literal rfl) <| quiet_triple _
  | sphere r =>
    cases h
    exact .append (.literal rfl) <| quiet_number _
  | ellipsoid r1 r2 r3 =>
    cases h
    exact .append (.literal rfl) <| quiet_triple _
  | cone r1 r2 h' =>
    cases h
    exact .append (.append (.append (.append (.append (.literal rfl) <| quiet_number _) <|
      .literal rfl) <| quiet_number _) <| .literal rfl) <| quiet_number _
  | cylinder r h' =>
    cases h
    exact .append (.append (.append (.literal rfl) <| quiet_number _) <| .literal rfl) <|
      quiet_number _
  | torus r1 r2 =>
    cases h
    exact .append (.append (.append (.literal rfl) <| quiet_number _) <| .literal rfl) <|
      quiet_number _
  | plane l w =>
    cases h
    exact .append (.literal rfl) <| quiet_polygon l w
  | imagePlane file x y => exact absurd rfl (himage file x y)
  | _ => cases h

theorem quiet_lightSource (l : Light) {lines : String} (h : Quiet lines) :
    Quiet (lightSource l lines) :=
  .append (.append (.append (.literal rfl) <| quiet_triple _) h) <|
    .ite (.append (.append (.append (.literal rfl) <| quiet_number _) <| .literal rfl) <|
      quiet_number _) .empty

theorem quiet_areaLines (a : AreaLight) : Quiet (areaLines a) := by
  unfold areaLines
  simp only [String.append_assoc]
  exact .append (.literal rfl) <| .append (quiet_number _) <| .append (.literal rfl) <|
    .append (quiet_number _) <| .append (.literal rfl) <| .append (quiet_natural _) <|
    .append (.literal rfl) <| .append (quiet_natural _) <| .append (.literal rfl) <|
    .append (quiet_natural _) <| .append (.ite (.literal rfl) .empty) <|
    .ite (.literal rfl) .empty

theorem quiet_spotLines (s : SpotLight) : Quiet (spotLines s) :=
  .append (.append (.append (.append (.append (.literal rfl) <| quiet_number _) <|
    .literal rfl) <| quiet_number _) <| .literal rfl) <| quiet_number _

theorem quiet_prismHead (span : Float × Float) (p : Profile) : Quiet (prismHead span p) :=
  .append (.append (.append (.append (quiet_number _) <| .literal rfl) <| quiet_number _) <|
    .literal rfl) <| quiet_natural _

theorem quiet_points (c : Cubic) : Quiet (String.intercalate ", " (c.points.map pair)) := by
  apply quiet_intercalate (.literal rfl)
  intro s hs
  obtain ⟨v, _, rfl⟩ := List.mem_map.mp hs
  exact quiet_pair v

theorem quiet_curveName (k : CurveKind) : Quiet (curveName k) := by
  cases k with
  | line => exact .literal rfl
  | circle => exact .literal rfl
  | arc => exact .literal rfl

end Shapes

/-- The ways in which a frame writes a node. The code of primitives and lights is quiet, and an
image is the only one with a text of the user in it. -/
inductive Written (s : Surroundings) (id : NodeId) (n : Node) (f : Flags) (frame : Frame) : Prop
  | quiet {code : String} {g : Flags} : Quiet code → s.simple n g code = .framed frame →
      Written s id n f frame
  | image {file : String} {x y : Float} {g : Flags} : n.kind = .imagePlane file x y →
      s.simple n g (imagePlane file x y) = .framed frame → Written s id n f frame
  | boolean {op : BooleanOp} : s.boolean n f op = .framed frame → Written s id n f frame
  | container : s.container n f = .framed frame → Written s id n f frame
  | array {a : NodeArray} : n.kind = .array a → s.array n f a = .framed frame →
      Written s id n f frame
  | clone {sources : List NodeId} {scale : Vec3} : s.clone n f sources scale = .framed frame →
      Written s id n f frame
  | extrusion {e : Extrusion} : s.extrusion n f e = .framed frame → Written s id n f frame
  | feature {p : Feature} {pocket : Bool} : s.feature f p pocket = .framed frame →
      Written s id n f frame
  | body {tip : Option NodeId} : s.body id n f tip = .framed frame → Written s id n f frame

theorem written_of_plan {s : Surroundings} {id : NodeId} {n : Node} {f : Flags} {frame : Frame}
    (hp : s.plan id n f = .framed frame) : Written s id n f frame := by
  unfold Surroundings.plan at hp
  dsimp only at hp
  cases hk : n.kind
  all_goals rw [hk] at hp
  case imagePlane file x y => exact .image hk hp
  case boolean op => exact .boolean hp
  case part => exact .container hp
  case group => exact .container hp
  case array a => exact .array hk hp
  case clone sources scale => exact .clone hp
  case extrusion e => exact .extrusion hp
  case pad p => exact .feature hp
  case pocket p => exact .feature hp
  case body tip => exact .body hp
  case pointLight l => exact .quiet (quiet_lightSource l .empty) hp
  case areaLight l => exact .quiet (quiet_lightSource l.light (quiet_areaLines l)) hp
  case spotLight l => exact .quiet (quiet_lightSource l.light (quiet_spotLines l)) hp
  case sketch k => cases hp
  case datum k => cases hp
  case mesh m => cases hp
  case other t => cases hp
  all_goals exact .quiet (quiet_primitive (k := n.kind) (by rw [hk]; rfl) (by simp [hk])) hp

end RayScene.Sdl
