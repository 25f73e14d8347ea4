import RayScene.Proofs.Compilation.Steps
import RayScene.Proofs.Listings.Reading
import RayScene.Proofs.Text.Search
set_option autoImplicit false

namespace RayScene

namespace Document

def profileOf? (d : Document) (id : NodeId) : Option Profile :=
  (d.sketch? id).bind (·.profile.toOption)

/-- The profile of a node that is a prism: an extrusion, a pad or a pocket of a supported sketch
that closes. -/
def prismProfile? (d : Document) (n : Node) : Option Profile :=
  match n.kind with
  | .extrusion e => if d.supportsExtrusion e then d.profileOf? e.base else none
  | .pad f => if d.supportsFeature f then d.profileOf? f.profile else none
  | .pocket f => if d.supportsFeature f then d.profileOf? f.profile else none
  | _ => none

end Document

namespace Listings

open Sdl Text

def IsBracketed (size : Nat) (text : List Char) : Prop :=
  ∃ values : List (List Char), values.length = size ∧
    (∀ v ∈ values, ∀ c ∈ v, isNumberChar c = true) ∧
    text = '<' :: ([',', ' '].intercalate values ++ ['>'])

def IsCubicItem (item : List Char) : Prop :=
  ∃ (points : List (List Char)) (kind : String), points.length = 4 ∧
    (∀ p ∈ points, IsBracketed 2 p) ∧ kind ∈ ["line", "circle", "arc"] ∧
    item = [',', ' '].intercalate points ++ '/' :: '/' :: kind.toList

section Items

variable {c : Char} {size : Nat} {sep text item : List Char} {texts : List (List Char)}

theorem count_intercalate (hc : c ∉ sep) (texts : List (List Char)) :
    (sep.intercalate texts).count c = (texts.map (·.count c)).sum := by
  induction texts with
  | nil => rfl
  | cons t texts ih =>
    cases texts with
    | nil => simp
    | cons u texts =>
      rw [List.intercalate_cons_cons, List.count_append, List.count_append, ih,
        List.count_eq_zero.mpr hc, Nat.add_zero]
      rfl

theorem sum_count_of_forall {k : Nat} (h : ∀ t ∈ texts, t.count c = k) :
    (texts.map (·.count c)).sum = texts.length * k := by
  rw [List.map_congr_left h, List.map_const', List.sum_replicate_nat]

theorem IsBracketed.count (h : IsBracketed size text) (hc : isNumberChar c = false)
    (hsep : c ∉ [',', ' ']) : text.count c = ['<', '>'].count c := by
  obtain ⟨values, _, hvalues, rfl⟩ := h
  have hzero : ∀ v ∈ values, v.count c = 0 :=
    fun v hv => List.count_eq_zero.mpr (not_mem_of_number hc (hvalues v hv))
  have hinner : ([',', ' '].intercalate values).count c = 0 := by
    rw [count_intercalate hsep, sum_count_of_forall hzero, Nat.mul_zero]
  simp [List.count_cons, List.count_append, hinner, Nat.add_comm]

theorem IsBracketed.count_open (h : IsBracketed size text) : text.count '<' = 1 :=
  h.count rfl (by decide)

theorem IsBracketed.newline_not_mem (h : IsBracketed size text) : '\n' ∉ text :=
  List.count_eq_zero.mp (h.count rfl (by decide))

theorem IsBracketed.tab_not_mem (h : IsBracketed size text) : '\t' ∉ text :=
  List.count_eq_zero.mp (h.count rfl (by decide))

theorem IsBracketed.isItem (h : IsBracketed size text) (rest : List Char) :
    isItem (text ++ rest) = true := by
  obtain ⟨_, _, _, rfl⟩ := h
  rfl

theorem IsCubicItem.count (h : IsCubicItem item) (hc : isNumberChar c = false)
    (hsep : c ∉ [',', ' '])
    (hrest : ∀ kind ∈ ["line", "circle", "arc"], c ∉ '/' :: '/' :: String.toList kind) :
    item.count c = 4 * ['<', '>'].count c := by
  obtain ⟨points, kind, hlength, hpoints, hkind, rfl⟩ := h
  rw [List.count_append, count_intercalate hsep, sum_count_of_forall fun p hp =>
    (hpoints p hp).count hc hsep, hlength, List.count_eq_zero.mpr (hrest kind hkind), Nat.add_zero]

theorem IsCubicItem.count_open (h : IsCubicItem item) : item.count '<' = 4 :=
  h.count rfl (by decide) (by decide)

theorem IsCubicItem.newline_not_mem (h : IsCubicItem item) : '\n' ∉ item :=
  List.count_eq_zero.mp (h.count rfl (by decide) (by decide))

theorem IsCubicItem.tab_not_mem (h : IsCubicItem item) : '\t' ∉ item :=
  List.count_eq_zero.mp (h.count rfl (by decide) (by decide))

theorem IsCubicItem.isItem (h : IsCubicItem item) : isItem item = true := by
  obtain ⟨points, kind, hlength, hpoints, _, rfl⟩ := h
  cases points with
  | nil => cases hlength
  | cons p points =>
    have hp := hpoints p List.mem_cons_self
    cases points with
    | nil => cases hlength
    | cons q points =>
      rw [List.intercalate_cons_cons, List.append_assoc, List.append_assoc]
      exact hp.isItem _

theorem isBracketed_pair (v : Vec2) : IsBracketed 2 (pair v).toList := by
  refine ⟨[(number v.x).toList, (number v.y).toList], rfl, ?_, by simp [pair]⟩
  simp only [List.forall_mem_cons]
  exact ⟨fun _ => isNumberChar_of_mem_number, fun _ => isNumberChar_of_mem_number,
    List.forall_mem_nil _⟩

end Items

section Profiles

variable {p : Profile} {lead : List Char}

def cubicItem (c : Cubic) : List Char :=
  (String.intercalate ", " (c.points.map pair) ++ "//" ++ curveName c.kind).toList

def prismListing (p : Profile) : Listing := ⟨some p.pointCount, p.cubics.map cubicItem⟩

theorem isCubicItem_cubicItem (c : Cubic) : IsCubicItem (cubicItem c) := by
  refine ⟨c.points.map fun v => (pair v).toList, curveName c.kind, rfl, ?_, ?_, ?_⟩
  · intro q hq
    obtain ⟨v, _, rfl⟩ := List.mem_map.mp hq
    exact isBracketed_pair v
  · cases c.kind <;> decide
  · simp [cubicItem, String.toList_intercalate, Function.comp_def]

theorem cubicLine_toList (c : Cubic) : (cubicLine c).toList = cubicItem c ++ ['\n'] := by
  simp [cubicLine, cubicItem]

theorem points_prismListing (p : Profile) : (prismListing p).points = p.pointCount := by
  have hcount : ∀ item ∈ p.cubics.map cubicItem, item.count '<' = 4 := by
    intro item hitem
    obtain ⟨c, _, rfl⟩ := List.mem_map.mp hitem
    exact (isCubicItem_cubicItem c).count_open
  rw [Listing.points, prismListing, sum_count_of_forall hcount, List.length_map]
  rfl

theorem bareLines_cubicLines (cubics : List Cubic) :
    bareLines (String.join (cubics.map cubicLine)).toList = cubics.map cubicItem ++ [[]] := by
  induction cubics with
  | nil => rfl
  | cons c cubics ih =>
    have hitem := isCubicItem_cubicItem c
    rw [List.map_cons, String.join_cons, String.toList_append, cubicLine_toList, List.append_assoc,
      List.singleton_append, bareLines_plain hitem.tab_not_mem hitem.newline_not_mem, ih,
      List.map_cons, List.cons_append]

theorem prismHead_toList (span : Float × Float) (p : Profile) : (prismHead span p).toList =
    (number span.1).toList ++ ',' :: (' ' :: (number span.2).toList ++
      ',' :: ' ' :: Nat.toDigits 10 p.pointCount) := by
  simp [prismHead, natural]

theorem valueAt_prismHead (span : Float × Float) (p : Profile) :
    valueAt 2 (prismHead span p).toList = some p.pointCount := by
  have hcomma : ∀ x : Float, ',' ∉ (number x).toList := not_mem_number rfl
  rw [prismHead_toList]
  exact valueAt_two (hcomma _) (by simp [hcomma]) _

theorem not_mem_prismHead {c : Char} (hc : isNumberChar c = false) (hsep : c ∉ [',', ' '])
    (span : Float × Float) (p : Profile) : c ∉ (prismHead span p).toList := by
  rw [prismHead_toList]
  simp only [List.mem_cons, List.not_mem_nil, or_false, not_or] at hsep
  simp [not_mem_number hc, not_mem_digits hc, hsep]

theorem bareLines_prism (span : Float × Float) (p : Profile) :
    bareLines ("\nbezier_spline\n" ++ prismHead span p ++ profileLines p).toList =
      [] :: Heading.spline.line :: (prismHead span p).toList ::
      (p.cubics.map cubicItem ++ [[]]) := by
  have hheading : "\nbezier_spline\n".toList = '\n' :: (Heading.spline.line ++ ['\n']) := rfl
  have hnewline : "\n".toList = ['\n'] := rfl
  have hfirst : ∀ t, bareLines ('\n' :: t) = [] :: bareLines t := fun _ => rfl
  simp only [profileLines, String.toList_append, hheading, hnewline, List.append_assoc,
    List.cons_append, List.nil_append]
  rw [hfirst, bareLines_plain (by decide) (by decide),
    bareLines_plain (not_mem_prismHead rfl (by decide) span p)
      (not_mem_prismHead rfl (by decide) span p), bareLines_cubicLines]

theorem shows_prism (opening : String) (hlead : ∀ c ∈ lead, c = '\t') (span : Float × Float)
    (p : Profile) :
    Shows .spline (opening ++ shift lead "\nbezier_spline\n" ++ prismHead span p ++
      shift lead (profileLines p) ++ "\n") [prismListing p] := by
  have hhead := not_mem_prismHead rfl (by decide : '\n' ∉ [',', ' ']) span p
  have hitems : ∀ item ∈ p.cubics.map cubicItem, isItem item = true := by
    intro item hitem
    obtain ⟨c, _, rfl⟩ := List.mem_map.mp hitem
    exact (isCubicItem_cubicItem c).isItem
  have hstop : isItem [] = false := rfl
  have hread := readListing_eq 2 (prismHead span p).toList hitems hstop []
  rw [valueAt_prismHead] at hread
  have hlists : [prismListing p].Sublist (listingsIn .spline
      (Heading.spline.line :: (prismHead span p).toList :: (p.cubics.map cubicItem ++ [[]]))) := by
    rw [listingsIn, if_pos rfl]
    change List.Sublist _ ((readListing 2 _).toList ++ _)
    rw [hread]
    exact List.sublist_append_left _ _
  have hshown : Shows .spline (shift lead ("\nbezier_spline\n" ++ prismHead span p ++
      profileLines p) ++ "\n") [prismListing p] := by
    rw [Shows, innerLines_shift_newline hlead, bareLines_prism]
    exact hlists
  rw [shift_append, shift_append, shift_of_not_mem hhead] at hshown
  simpa only [String.append_assoc] using hshown.behind opening

end Profiles

section Frames

variable {s : Surroundings} {id : NodeId} {n : Node} {f : Flags} {frame : Frame}

theorem map_profile? (id : NodeId) : (s.profile? id).map (·.2) = s.document.profileOf? id := by
  unfold Surroundings.profile? Document.profileOf?
  cases hn : s.document.get? id with
  | none => simp [Document.sketch?, hn]
  | some n =>
    cases hs : s.document.sketch? id with
    | none => simp
    | some sketch => cases hp : sketch.profile <;> simp [hp, Except.toOption]

def ownListing (d : Document) (n : Node) : List Listing :=
  (d.prismProfile? n).toList.map prismListing

theorem shows_extrusion {e : Extrusion} (hk : n.kind = .extrusion e)
    (hp : s.extrusion n f e = .framed frame) :
    Shows .spline frame.before (ownListing s.document n) := by
  obtain ⟨hs, sketch, p, hprofile⟩ := Surroundings.profile_of_extrusion hp
  have hown : ownListing s.document n = [prismListing p] := by
    simp [ownListing, Document.prismProfile?, hk, hs, ← map_profile?, hprofile]
  simp only [Surroundings.extrusion, hs, hprofile, if_true] at hp
  cases hp
  rw [hown]
  have htab : ∀ c ∈ ['\t'], c = '\t' := by simp
  have hheading : "\nprism \x7b\n\tbezier_spline\n\t" =
    "\nprism \x7b" ++ shift ['\t'] "\nbezier_spline\n" := rfl
  rw [hheading]
  exact ((shows_prism _ htab (extrusionSpan e) p).before _).before _

theorem shows_feature {g : Feature} {pocket : Bool} (hk : n.kind = .pad g ∨ n.kind = .pocket g)
    (hp : s.feature f g pocket = .framed frame) :
    Shows .spline frame.after (ownListing s.document n) := by
  obtain ⟨hs, sketch, p, hprofile⟩ := Surroundings.profile_of_feature hp
  have hown : ownListing s.document n = [prismListing p] := by
    rcases hk with hk | hk <;> simp [ownListing, Document.prismProfile?, hk, hs, ← map_profile?,
      hprofile]
  simp only [Surroundings.feature, hs, hprofile, if_true] at hp
  cases hp
  rw [hown]
  have htabs : ∀ c ∈ ['\t', '\t'], c = '\t' := by simp
  have hheading : "\n\tprism \x7b\n\t\tbezier_spline\n\t\t" =
      "\n\tprism \x7b" ++ shift ['\t', '\t'] "\nbezier_spline\n" := rfl
  rw [hheading]
  exact (((shows_prism _ htabs (featureSpan g pocket) p).before _).before _).before _

/-- The text of a node has its list, before the codes of its steps or behind them. -/
theorem shows_of_plan (hp : s.plan id n f = .framed frame) :
    ∃ before after, before ++ after = ownListing s.document n ∧
      Shows .spline frame.before before ∧ Shows .spline frame.after after := by
  cases hk : n.kind with
  | extrusion e =>
    have hextrusion : s.extrusion n f e = .framed frame := by
      simpa only [Surroundings.plan, hk] using hp
    exact ⟨_, [], List.append_nil _, shows_extrusion hk hextrusion, .nothing _ _⟩
  | pad g =>
    have hfeature : s.feature f g false = .framed frame := by
      simpa only [Surroundings.plan, hk] using hp
    exact ⟨[], _, rfl, .nothing _ _, shows_feature (.inl hk) hfeature⟩
  | pocket g =>
    have hfeature : s.feature f g true = .framed frame := by
      simpa only [Surroundings.plan, hk] using hp
    exact ⟨[], _, rfl, .nothing _ _, shows_feature (.inr hk) hfeature⟩
  | _ => exact ⟨[], [], by simp [ownListing, Document.prismProfile?, hk], .nothing _ _,
    .nothing _ _⟩

theorem framed_of_prismProfile? {p : Profile} (id : NodeId) (f : Flags)
    (h : s.document.prismProfile? n = some p) :
    ∃ frame, s.plan id n f = .framed frame := by
  have hprofile : ∀ i, s.document.profileOf? i = some p →
      ∃ sketch, s.profile? i = some (sketch, p) := by
    intro i hi
    obtain ⟨⟨sketch, q⟩, hq, rfl⟩ := Option.map_eq_some_iff.mp ((map_profile? i).trans hi)
    exact ⟨sketch, hq⟩
  unfold Document.prismProfile? at h
  cases hk : n.kind with
  | extrusion e =>
    simp only [hk, Option.ite_none_right_eq_some] at h
    obtain ⟨sketch, hsketch⟩ := hprofile _ h.2
    apply Exists.intro
    simp only [Surroundings.plan, hk, Surroundings.extrusion, h.1, hsketch, if_true]
    rfl
  | pad g =>
    simp only [hk, Option.ite_none_right_eq_some] at h
    obtain ⟨sketch, hsketch⟩ := hprofile _ h.2
    apply Exists.intro
    simp only [Surroundings.plan, hk, Surroundings.feature, h.1, hsketch, if_true]
    rfl
  | pocket g =>
    simp only [hk, Option.ite_none_right_eq_some] at h
    obtain ⟨sketch, hsketch⟩ := hprofile _ h.2
    apply Exists.intro
    simp only [Surroundings.plan, hk, Surroundings.feature, h.1, hsketch, if_true]
    rfl
  | _ => simp [hk] at h

end Frames

end Listings

end RayScene
