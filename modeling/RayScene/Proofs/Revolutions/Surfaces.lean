import Mathlib.Algebra.Group.Nat.Defs
import Mathlib.Data.List.Chain
import Mathlib.Data.Prod.Basic
import Mathlib.Order.Basic
import RayScene.Proofs.Revolutions.Seams
/-!
Solids of revolution as surfaces. The triangles of a profile that begins and ends on the axis have
each seam as an edge once in either direction, so that they leave no gap and no side of one faces
the wrong way.
-/
set_option autoImplicit false

namespace RayScene

def Triangle.edges (t : Triangle) : List (UInt32 × UInt32) := [(t.a, t.b), (t.b, t.c), (t.c, t.a)]

/-- Every directed edge belongs to one triangle, and to one triangle in the other direction. -/
def TriMesh.IsClosed (m : TriMesh) : Prop :=
  ∀ t ∈ m.triangles, ∀ e ∈ t.edges,
    m.triangles.countP (e ∈ ·.edges) = 1 ∧ m.triangles.countP (e.swap ∈ ·.edges) = 1

def Row.standing (n : ℕ) (lower upper : Row) (j : ℕ) : Triangle :=
  .ofNat (lower.vertex n j) (lower.vertex n (j + 1)) (upper.vertex n (j + 1))

def Row.hanging (n : ℕ) (lower upper : Row) (j : ℕ) : Triangle :=
  .ofNat (lower.vertex n j) (upper.vertex n (j + 1)) (upper.vertex n j)

def wordLine (e : ℕ × ℕ) : UInt32 × UInt32 := (UInt32.ofNat e.1, UInt32.ofNat e.2)

section Facets

variable {n a b c j : ℕ} {lower upper : Row} {t : Triangle}

theorem ofNat_inj (ha : a < 2 ^ 32) (hb : b < 2 ^ 32) :
    UInt32.ofNat a = UInt32.ofNat b ↔ a = b := by
  constructor
  · intro h
    have hnat := congrArg UInt32.toNat h
    rwa [UInt32.toNat_ofNat_of_lt' ha, UInt32.toNat_ofNat_of_lt' hb] at hnat
  · rintro rfl
    rfl

theorem isProper_iff : t.isProper = true ↔ t.a ≠ t.b ∧ t.b ≠ t.c ∧ t.a ≠ t.c := by
  simp [Triangle.isProper, and_assoc]

theorem isProper_ofNat (ha : a < 2 ^ 32) (hb : b < 2 ^ 32) (hc : c < 2 ^ 32) :
    (Triangle.ofNat a b c).isProper = true ↔ a ≠ b ∧ b ≠ c ∧ a ≠ c := by
  rw [isProper_iff]
  simp only [Triangle.ofNat, ne_eq, ofNat_inj ha hb, ofNat_inj hb hc, ofNat_inj ha hc]

theorem Row.vertex_eq_succ_iff (hn : 2 ≤ n) (hj : j < n) {r : Row} :
    r.vertex n j = r.vertex n (j + 1) ↔ r.isPole = true := by
  cases h : r.isPole with
  | true => simp [vertex_of_pole h]
  | false =>
    rw [vertex_of_ring h hj, vertex_succ_of_ring h hj]
    split_ifs <;> simp; omega

/-- Of the two triangles of a step the one is flat at a pole below and the other one at a pole
above. -/
theorem facets_eq (hn : 2 ≤ n) (hbelow : lower.Below n upper) (hbound : upper.stop n ≤ 2 ^ 32)
    (hj : j < n) : facets n lower upper j =
      (if lower.isPole then [] else [lower.standing n upper j]) ++
        if upper.isPole then [] else [lower.hanging n upper j] := by
  have hpos : 0 < n := by omega
  have hlower : ∀ i, lower.vertex n i < upper.start := fun i =>
    Nat.lt_of_lt_of_le (Row.vertex_lt_stop hpos) hbelow
  have hupper : ∀ i, upper.start ≤ upper.vertex n i ∧ upper.vertex n i < upper.stop n := fun i =>
    ⟨Row.start_le_vertex, Row.vertex_lt_stop hpos⟩
  have hj0 := hlower j
  have hj1 := hlower (j + 1)
  have hj2 := hupper j
  have hj3 := hupper (j + 1)
  have hleft : (lower.standing n upper j).isProper = !lower.isPole := by
    unfold Row.standing
    rw [Bool.eq_iff_iff, isProper_ofNat (by omega) (by omega) (by omega), ne_eq,
      Row.vertex_eq_succ_iff hn hj, Bool.not_eq_true, Bool.not_eq_true']
    exact ⟨fun h => h.1, fun h => ⟨h, by omega, by omega⟩⟩
  have hright : (lower.hanging n upper j).isProper = !upper.isPole := by
    have hsame : upper.vertex n (j + 1) = upper.vertex n j ↔ upper.isPole = true :=
      eq_comm.trans (Row.vertex_eq_succ_iff hn hj)
    unfold Row.hanging
    rw [Bool.eq_iff_iff, isProper_ofNat (by omega) (by omega) (by omega), ne_eq (upper.vertex n _),
      hsame, Bool.not_eq_true, Bool.not_eq_true']
    exact ⟨fun h => h.2.1, fun h => ⟨by omega, h, by omega⟩⟩
  have hfacets : facets n lower upper j =
      [lower.standing n upper j, lower.hanging n upper j].filter Triangle.isProper := rfl
  rw [hfacets]
  simp only [List.filter_cons, hleft, hright, List.filter_nil]
  cases lower.isPole <;> cases upper.isPole <;> rfl

theorem flatMap_triple_perm {α β : Type} (l : List α) (f g h : α → β) :
    (l.flatMap fun x => [f x, g x, h x]).Perm (l.map f ++ l.map g ++ l.map h) := by
  have hlast : (l.map g ++ l.map h).Perm (l.flatMap fun x => [g x, h x]) := by
    rw [List.map_eq_flatMap (f := h)]
    exact List.map_append_flatMap_perm l g fun x => [h x]
  rw [List.append_assoc]
  exact ((hlast.append_left _).trans (List.map_append_flatMap_perm l f fun x => [g x, h x])).symm

theorem lower_edges_perm (n : ℕ) (h : lower.isPole = false) (upper : Row) :
    ((List.range n).flatMap fun j => (lower.standing n upper j).edges).Perm
      ((lower.rim n ++ lower.straight n upper ++ (lower.slanted n upper).map Prod.swap).map
        wordLine) := by
  have hshift : ((List.range n).map fun j =>
      wordLine (lower.vertex n (j + 1), upper.vertex n (j + 1))).Perm
        ((lower.straight n upper).map wordLine) := by
    unfold Row.straight
    rw [List.map_map]
    exact Row.map_succ_perm (f := fun j => wordLine (lower.vertex n j, upper.vertex n j))
      (by rw [Row.vertex_period, Row.vertex_period])
  have hsplit := flatMap_triple_perm (List.range n)
    (fun j => wordLine (lower.vertex n j, lower.vertex n (j + 1)))
    (fun j => wordLine (lower.vertex n (j + 1), upper.vertex n (j + 1)))
    (fun j => wordLine (upper.vertex n (j + 1), lower.vertex n j))
  refine hsplit.trans ?_
  simp only [Row.rim, h, Bool.false_eq_true, if_false, Row.slanted, List.map_append, List.map_map]
  exact (hshift.append_left _).append_right _

theorem upper_edges_perm (n : ℕ) (lower : Row) (h : upper.isPole = false) :
    ((List.range n).flatMap fun j => (lower.hanging n upper j).edges).Perm
      ((lower.slanted n upper ++ (upper.rim n).map Prod.swap ++
        (lower.straight n upper).map Prod.swap).map wordLine) := by
  refine (flatMap_triple_perm (List.range n)
    (fun j => wordLine (lower.vertex n j, upper.vertex n (j + 1)))
    (fun j => wordLine (upper.vertex n (j + 1), upper.vertex n j))
    (fun j => wordLine (upper.vertex n j, lower.vertex n j))).trans ?_
  simp only [Row.rim, h, Bool.false_eq_true, if_false, Row.slanted, Row.straight, List.map_append,
    List.map_map]
  exact .refl _

/-- The edges of a band are the rims on both of its sides, in opposite directions, and the lines
between them in both directions. -/
theorem band_edges_perm (hn : 2 ≤ n) (hbelow : lower.Below n upper)
    (hbound : upper.stop n ≤ 2 ^ 32) :
    (((List.range n).flatMap (facets n lower upper)).flatMap Triangle.edges).Perm
      ((lower.rim n ++ (upper.rim n).map Prod.swap ++ lower.spokes n upper ++
        (lower.spokes n upper).map Prod.swap).map wordLine) := by
  have hfacets : ((List.range n).flatMap (facets n lower upper)).flatMap Triangle.edges =
      (List.range n).flatMap fun j =>
        (if lower.isPole then [] else (lower.standing n upper j).edges) ++
          if upper.isPole then [] else (lower.hanging n upper j).edges := by
    rw [List.flatMap_assoc]
    refine List.flatMap_congr fun j hj => ?_
    rw [facets_eq hn hbelow hbound (List.mem_range.mp hj)]
    cases lower.isPole <;> cases upper.isPole <;> rfl
  rw [hfacets, List.perm_iff_count]
  intro e
  rw [← (List.flatMap_append_perm _ _ _).count_eq, List.count_append]
  have hempty : ((List.range n).flatMap fun _ => ([] : List (UInt32 × UInt32))) = [] :=
    List.flatMap_eq_nil_iff.mpr fun _ _ => rfl
  have hsame : lower.isPole = true ∨ upper.isPole = true →
      (((lower.slanted n upper).map Prod.swap).map wordLine).count e =
        (((lower.straight n upper).map Prod.swap).map wordLine).count e := fun h =>
    (((Row.slanted_perm_straight h).map Prod.swap).map wordLine).count_eq e
  unfold Row.spokes
  cases hl : lower.isPole <;> cases hu : upper.isPole
  · have hlow := (lower_edges_perm n hl upper).count_eq e
    have hup := (upper_edges_perm n lower hu).count_eq e
    simp only [Bool.false_eq_true, if_false, List.map_append, List.count_append] at hlow hup ⊢
    omega
  · have hlow := (lower_edges_perm n hl upper).count_eq e
    have hswap := hsame (.inr hu)
    simp only [Bool.false_eq_true, if_false, if_true, hempty, Row.rim_of_pole hu, List.map_append,
      List.count_append, List.map_nil, List.append_nil, List.count_nil] at hlow ⊢
    omega
  · have hup := (upper_edges_perm n lower hu).count_eq e
    have hswap := hsame (.inl hl)
    simp only [Bool.false_eq_true, if_false, if_true, hempty, Row.rim_of_pole hl, List.map_append,
      List.count_append, List.nil_append, List.count_nil] at hup ⊢
    omega
  · simp [hempty, Row.rim_of_pole hl, Row.rim_of_pole hu]

theorem bands_cons_cons (n : ℕ) (r r' : Row) (rows : List Row) :
    bands n (r :: r' :: rows) = (List.range n).flatMap (facets n r r') ++ bands n (r' :: rows) := by
  simp [bands]

/-- The edges of all bands are the seams in both directions, but for the rims of the first and the
last row, which have a band on one side only. -/
theorem bands_edges_perm (hn : 2 ≤ n) {r : Row} {rows : List Row}
    (hrows : (r :: rows).IsChain (Row.Below n)) (hbound : ∀ r' ∈ r :: rows, r'.stop n ≤ 2 ^ 32) :
    ((bands n (r :: rows)).flatMap Triangle.edges ++ ((r.rim n).map Prod.swap ++
      ((r :: rows).getLast (List.cons_ne_nil r rows)).rim n).map wordLine).Perm
      ((seams n (r :: rows) ++ (seams n (r :: rows)).map Prod.swap).map wordLine) := by
  induction rows generalizing r with
  | nil => simpa [bands, seams] using List.perm_append_comm
  | cons r' rows ih =>
    obtain ⟨hbelow, hrest⟩ := List.isChain_cons_cons.mp hrows
    obtain ⟨_, hbounds⟩ := List.forall_mem_cons.mp hbound
    rw [List.perm_iff_count]
    intro e
    have hband := (band_edges_perm hn hbelow (hbounds r' List.mem_cons_self)).count_eq e
    have hlater := (ih hrest hbounds).count_eq e
    simp only [bands_cons_cons, seams, List.getLast_cons_cons, List.flatMap_append, List.map_append,
      List.count_append] at hband hlater ⊢
    omega

end Facets

section Bands

variable {n bound : ℕ} {r : Row} {rows : List Row} {t : Triangle} {e : UInt32 × UInt32}

theorem exists_facets_of_mem_bands (ht : t ∈ bands n rows) :
    ∃ lower ∈ rows, ∃ upper ∈ rows, ∃ j < n, t ∈ facets n lower upper j := by
  obtain ⟨⟨lower, upper⟩, hrows, hfacets⟩ := List.mem_flatMap.mp ht
  obtain ⟨j, hj, hmem⟩ := List.mem_flatMap.mp hfacets
  obtain ⟨hlower, hupper⟩ := List.of_mem_zip hrows
  exact ⟨lower, hlower, upper, List.mem_of_mem_drop hupper, j, List.mem_range.mp hj, hmem⟩

theorem isProper_of_mem_bands (ht : t ∈ bands n rows) : t.isProper = true := by
  obtain ⟨_, _, _, _, _, _, hmem⟩ := exists_facets_of_mem_bands ht
  exact (List.mem_filter.mp hmem).2

theorem lt_of_mem_bands (hbound : ∀ r ∈ rows, r.stop n ≤ bound) (ht : t ∈ bands n rows) :
    t.a.toNat < bound ∧ t.b.toNat < bound ∧ t.c.toNat < bound := by
  obtain ⟨lower, hlower, upper, hupper, j, hj, hmem⟩ := exists_facets_of_mem_bands ht
  have hvertex : ∀ r ∈ rows, ∀ i, (UInt32.ofNat (r.vertex n i)).toNat < bound := by
    intro r hr i
    rw [UInt32.toNat_ofNat']
    have hlt : r.vertex n i < r.stop n := Row.vertex_lt_stop (Nat.zero_lt_of_lt hj)
    exact Nat.lt_of_le_of_lt (Nat.mod_le ..) (Nat.lt_of_lt_of_le hlt (hbound r hr))
  have hcorners := (List.mem_filter.mp hmem).1
  simp only [List.mem_cons, List.not_mem_nil, or_false] at hcorners
  rcases hcorners with rfl | rfl
  · exact ⟨hvertex lower hlower _, hvertex lower hlower _, hvertex upper hupper _⟩
  · exact ⟨hvertex lower hlower _, hvertex upper hupper _, hvertex upper hupper _⟩

theorem countP_edges (triangles : List Triangle) (h : ∀ t ∈ triangles, t.isProper = true)
    (e : UInt32 × UInt32) :
    triangles.countP (e ∈ ·.edges) = (triangles.flatMap Triangle.edges).count e := by
  induction triangles with
  | nil => rfl
  | cons t triangles ih =>
    obtain ⟨ht, hrest⟩ := List.forall_mem_cons.mp h
    obtain ⟨hab, hbc, hac⟩ := isProper_iff.mp ht
    have hnodup : t.edges.Nodup := by simp [Triangle.edges, hab, hbc, hac, Ne.symm hab]
    rw [List.countP_cons, List.flatMap_cons, List.count_append, ih hrest, hnodup.count,
      Nat.add_comm]
    simp

def bothWays (n : ℕ) (rows : List Row) : List (ℕ × ℕ) :=
  seams n rows ++ (seams n rows).map Prod.swap

theorem swap_mem_bothWays {x : ℕ × ℕ} (hx : x ∈ bothWays n rows) : x.swap ∈ bothWays n rows := by
  rcases List.mem_append.mp hx with h | h
  · exact List.mem_append_right _ (List.mem_map_of_mem h)
  · obtain ⟨y, hy, rfl⟩ := List.mem_map.mp h
    exact List.mem_append_left _ (y.swap_swap.symm ▸ hy)

theorem lt_of_mem_bothWays (hn : 0 < n) (hbound : ∀ r ∈ rows, r.stop n ≤ bound) {x : ℕ × ℕ}
    (hx : x ∈ bothWays n rows) : x.1 < bound ∧ x.2 < bound := by
  rcases List.mem_append.mp hx with h | h
  · exact lt_of_mem_seams hn hbound h
  · obtain ⟨y, hy, rfl⟩ := List.mem_map.mp h
    exact (lt_of_mem_seams hn hbound hy).symm

theorem nodup_bothWays (hn : 3 ≤ n) (hrows : rows.IsChain (Row.Below n)) :
    (bothWays n rows).Nodup := by
  have hseams := nodup_seams (by omega) hrows
  refine List.nodup_append'.mpr ⟨hseams, hseams.map Prod.swap_injective, fun x hx hswapped => ?_⟩
  obtain ⟨y, hy, rfl⟩ := List.mem_map.mp hswapped
  exact swap_not_mem_seams hn hrows hy hx

theorem bands_edges_once (hn : 3 ≤ n) (hrows : (r :: rows).IsChain (Row.Below n))
    (hbound : ∀ r' ∈ r :: rows, r'.stop n ≤ 2 ^ 32) (hfirst : r.isPole = true)
    (hlast : ((r :: rows).getLast (List.cons_ne_nil r rows)).isPole = true)
    (he : e ∈ (bands n (r :: rows)).flatMap Triangle.edges) :
    ((bands n (r :: rows)).flatMap Triangle.edges).count e = 1 ∧
      ((bands n (r :: rows)).flatMap Triangle.edges).count e.swap = 1 := by
  have hpos : 0 < n := by omega
  have hedges : ((bands n (r :: rows)).flatMap Triangle.edges).Perm
      ((bothWays n (r :: rows)).map wordLine) := by
    have hbands := bands_edges_perm (by omega) hrows hbound
    rwa [Row.rim_of_pole hfirst, Row.rim_of_pole hlast, List.map_nil, List.append_nil, List.map_nil,
      List.append_nil] at hbands
  have hnodup : ((bothWays n (r :: rows)).map wordLine).Nodup := by
    refine (nodup_bothWays hn hrows).map_on fun x hx y hy heq => ?_
    obtain ⟨hx1, hx2⟩ := lt_of_mem_bothWays hpos hbound hx
    obtain ⟨hy1, hy2⟩ := lt_of_mem_bothWays hpos hbound hy
    obtain ⟨h1, h2⟩ := Prod.mk.inj heq
    exact Prod.ext ((ofNat_inj hx1 hy1).mp h1) ((ofNat_inj hx2 hy2).mp h2)
  rw [hedges.count_eq, hedges.count_eq]
  have hmem := hedges.subset he
  obtain ⟨x, hx, rfl⟩ := List.mem_map.mp hmem
  have hswap : (wordLine x).swap ∈ (bothWays n (r :: rows)).map wordLine :=
    List.mem_map.mpr ⟨x.swap, swap_mem_bothWays hx, rfl⟩
  exact ⟨List.count_eq_one_of_mem hnodup hmem, List.count_eq_one_of_mem hnodup hswap⟩

end Bands

section Profiles

variable {n start : ℕ} {profile : List ProfilePoint}

theorem length_sweep (n : ℕ) (p : ProfilePoint) :
    (p.sweep n).length = if p.onAxis then 1 else n := by
  unfold ProfilePoint.sweep
  split <;> simp

theorem start_of_mem_head? (n start : ℕ) (profile : List ProfilePoint) :
    ∀ r ∈ (rowsFrom n start profile).head?, r.start = start := by
  cases profile with
  | nil => nofun
  | cons p profile =>
    intro r hr
    cases hr
    rfl

theorem isChain_rowsFrom (n start : ℕ) (profile : List ProfilePoint) :
    (rowsFrom n start profile).IsChain (Row.Below n) := by
  induction profile generalizing start with
  | nil => exact .nil
  | cons p profile ih =>
    refine List.isChain_cons.mpr ⟨fun r hr => ?_, ih _⟩
    exact (start_of_mem_head? _ _ _ r hr).ge

theorem stop_le_of_mem_rowsFrom (n start : ℕ) (profile : List ProfilePoint) :
    ∀ r ∈ rowsFrom n start profile,
      r.stop n ≤ start + (profile.flatMap (ProfilePoint.sweep n)).length := by
  induction profile generalizing start with
  | nil => nofun
  | cons p profile ih =>
    rw [List.flatMap_cons, List.length_append, length_sweep, ← Nat.add_assoc]
    refine List.forall_mem_cons.mpr ⟨Nat.le_add_right .., ih _⟩

theorem map_isPole_rowsFrom (n start : ℕ) (profile : List ProfilePoint) :
    (rowsFrom n start profile).map Row.isPole = profile.map ProfilePoint.onAxis := by
  induction profile generalizing start with
  | nil => rfl
  | cons p profile ih => simp [rowsFrom, ih]

theorem isPole_getLast (h : rowsFrom n start profile ≠ [])
    (hlast : ∀ p ∈ profile.getLast?, p.onAxis = true) :
    ((rowsFrom n start profile).getLast h).isPole = true := by
  have hrows := congrArg List.getLast? (map_isPole_rowsFrom n start profile)
  rw [List.getLast?_map, List.getLast?_map, List.getLast?_eq_some_getLast h,
    Option.map_some] at hrows
  obtain ⟨p, hp, hpole⟩ := Option.map_eq_some_iff.mp hrows.symm
  rw [← hpole]
  exact hlast p hp

theorem length_sweeps (n : ℕ) (profile : List ProfilePoint) :
    (profile.flatMap (ProfilePoint.sweep n)).length =
      profile.countP ProfilePoint.onAxis + n * profile.countP (!·.onAxis) := by
  induction profile with
  | nil => rfl
  | cons p profile ih =>
    rw [List.flatMap_cons, List.length_append, length_sweep, ih]
    cases h : p.onAxis <;> simp [h, Nat.mul_add] <;> omega

theorem isClosed_revolve (hn : 3 ≤ n) (hfirst : ∀ p ∈ profile.head?, p.onAxis = true)
    (hlast : ∀ p ∈ profile.getLast?, p.onAxis = true)
    (hfits : (revolve profile n).vertices.length < 2 ^ 32) : (revolve profile n).IsClosed := by
  cases profile with
  | nil => nofun
  | cons p profile =>
    intro t ht e he
    have hproper : ∀ t ∈ (revolve (p :: profile) n).triangles, t.isProper = true := fun _ =>
      isProper_of_mem_bands
    rw [countP_edges _ hproper, countP_edges _ hproper]
    have hbound : ∀ r ∈ rowsFrom n 0 (p :: profile), r.stop n ≤ 2 ^ 32 := fun r hr => by
      have hstop := stop_le_of_mem_rowsFrom n 0 (p :: profile) r hr
      rw [Nat.zero_add] at hstop
      exact hstop.trans hfits.le
    have hne : rowsFrom n 0 (p :: profile) ≠ [] := List.cons_ne_nil _ _
    have hpole := isPole_getLast hne hlast
    exact bands_edges_once hn (isChain_rowsFrom n 0 (p :: profile)) hbound
      (hfirst p rfl) hpole (List.mem_flatMap.mpr ⟨t, ht, he⟩)

/-- A profile that begins and ends on the axis sweeps a closed surface, provided that a ring has
three vertices at least and that their numbers fit into a word. Whatever the profile is, there is
one vertex for each point on the axis and a ring for each other one, and a triangle has three
different vertices that are there. -/
theorem revolve_is_closed (profile : List ProfilePoint) (n : ℕ) :
    (3 ≤ n → (∀ p ∈ profile.head?, p.onAxis = true) → (∀ p ∈ profile.getLast?, p.onAxis = true) →
      (revolve profile n).vertices.length < 2 ^ 32 → (revolve profile n).IsClosed) ∧
    (revolve profile n).vertices.length =
      profile.countP ProfilePoint.onAxis + n * profile.countP (!·.onAxis) ∧
    ∀ t ∈ (revolve profile n).triangles,
      (t.a.toNat < (revolve profile n).vertices.length ∧
        t.b.toNat < (revolve profile n).vertices.length ∧
        t.c.toNat < (revolve profile n).vertices.length) ∧
      t.a ≠ t.b ∧ t.b ≠ t.c ∧ t.a ≠ t.c := by
  refine ⟨isClosed_revolve, length_sweeps n profile, fun t ht => ⟨?_, ?_⟩⟩
  · have hbound := stop_le_of_mem_rowsFrom n 0 profile
    rw [Nat.zero_add] at hbound
    exact lt_of_mem_bands hbound ht
  · exact isProper_iff.mp (isProper_of_mem_bands ht)

/-- A pointed cone in eight steps: the point on the axis below, the rim of the bottom and the
tip. -/
theorem cone_is_closed :
    let cone : List ProfilePoint := [⟨0, 0⟩, ⟨2, 0⟩, ⟨0, 3⟩]
    (revolve cone 8).vertices.length = 10 ∧ (revolve cone 8).triangles.length = 16 ∧
      (revolve cone 8).IsClosed ∧ ∀ t ∈ (revolve cone 8).triangles, t.a.toNat < 10 ∧ t.a ≠ t.b := by
  intro cone
  obtain ⟨hclosed, hcount, htriangles⟩ := revolve_is_closed cone 8
  have hvertices : (revolve cone 8).vertices.length = 10 := hcount.trans (by decide +kernel)
  refine ⟨hvertices, by decide +kernel, hclosed (by decide) ?_ ?_ ?_, fun t ht => ?_⟩
  · decide +kernel
  · decide +kernel
  · rw [hvertices]
    decide
  · obtain ⟨⟨ha, _⟩, hab, _⟩ := htriangles t ht
    exact ⟨hvertices ▸ ha, hab⟩

end Profiles

end RayScene
