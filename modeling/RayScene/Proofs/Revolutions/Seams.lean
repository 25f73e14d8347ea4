import Mathlib.Data.List.Nodup
import Mathlib.Data.List.Perm.Basic
import RayScene.Geometry.Revolution
set_option autoImplicit false

namespace RayScene

namespace Row

def stop (n : ℕ) (r : Row) : ℕ := r.start + if r.isPole then 1 else n

def Below (n : ℕ) (lower upper : Row) : Prop := lower.stop n ≤ upper.start

def rim (n : ℕ) (r : Row) : List (ℕ × ℕ) :=
  if r.isPole then [] else (List.range n).map fun j => (r.vertex n j, r.vertex n (j + 1))

def straight (n : ℕ) (lower upper : Row) : List (ℕ × ℕ) :=
  (List.range n).map fun j => (lower.vertex n j, upper.vertex n j)

def slanted (n : ℕ) (lower upper : Row) : List (ℕ × ℕ) :=
  (List.range n).map fun j => (lower.vertex n j, upper.vertex n (j + 1))

/-- The lines from a row up to the next one. Between two poles there are none, and at a pole the
straight ones and the slanted ones are the same. -/
def spokes (n : ℕ) (lower upper : Row) : List (ℕ × ℕ) :=
  (if lower.isPole then [] else straight n lower upper) ++
    if upper.isPole then [] else slanted n lower upper

end Row

def seams (n : ℕ) : List Row → List (ℕ × ℕ)
  | [] => []
  | [r] => r.rim n
  | r :: r' :: rows => r.rim n ++ r.spokes n r' ++ seams n (r' :: rows)

section Vertices

variable {n i j : ℕ} {r lower upper : Row} {e : ℕ × ℕ}

theorem succ_mod (hj : j < n) : (j + 1) % n = if j + 1 = n then 0 else j + 1 := by
  split
  · rename_i h
    rw [h, Nat.mod_self]
  · exact Nat.mod_eq_of_lt (by omega)

namespace Row

theorem vertex_period (n : ℕ) (r : Row) : r.vertex n n = r.vertex n 0 := by simp [vertex]

theorem vertex_of_pole (h : r.isPole = true) (j : ℕ) : r.vertex n j = r.start := by simp [vertex, h]

theorem vertex_of_ring (h : r.isPole = false) (hj : j < n) : r.vertex n j = r.start + j := by
  simp [vertex, h, Nat.mod_eq_of_lt hj]

theorem vertex_succ_of_ring (h : r.isPole = false) (hj : j < n) :
    r.vertex n (j + 1) = r.start + if j + 1 = n then 0 else j + 1 := by
  rw [← succ_mod hj]
  simp [vertex, h]

theorem vertex_inj (h : r.isPole = false) :
    ∀ i < n, ∀ j < n, r.vertex n i = r.vertex n j → i = j := by
  intro i hi j hj heq
  rw [vertex_of_ring h hi, vertex_of_ring h hj] at heq
  omega

theorem vertex_succ_inj (h : r.isPole = false) :
    ∀ i < n, ∀ j < n, r.vertex n (i + 1) = r.vertex n (j + 1) → i = j := by
  intro i hi j hj heq
  rw [vertex_succ_of_ring h hi, vertex_succ_of_ring h hj] at heq
  split_ifs at heq <;> omega

theorem rim_of_pole (h : r.isPole = true) (n : ℕ) : r.rim n = [] := by simp [rim, h]

theorem start_le_vertex : r.start ≤ r.vertex n j := by
  unfold vertex
  split <;> omega

theorem vertex_lt_stop (hn : 0 < n) : r.vertex n j < r.stop n := by
  have hmod := Nat.mod_lt j hn
  unfold vertex stop
  split <;> omega

theorem mem_rim (hn : 0 < n) (he : e ∈ r.rim n) :
    (r.start ≤ e.1 ∧ e.1 < r.stop n) ∧ r.start ≤ e.2 ∧ e.2 < r.stop n := by
  unfold rim at he
  split at he
  · cases he
  · obtain ⟨j, _, rfl⟩ := List.mem_map.mp he
    exact ⟨⟨start_le_vertex, vertex_lt_stop hn⟩, start_le_vertex, vertex_lt_stop hn⟩

theorem mem_spokes (hn : 0 < n) (he : e ∈ lower.spokes n upper) :
    (lower.start ≤ e.1 ∧ e.1 < lower.stop n) ∧ upper.start ≤ e.2 ∧ e.2 < upper.stop n := by
  have hlines : e ∈ straight n lower upper ∨ e ∈ slanted n lower upper := by
    unfold spokes at he
    rcases List.mem_append.mp he with h | h
    · split at h
      · cases h
      · exact .inl h
    · split at h
      · cases h
      · exact .inr h
  rcases hlines with h | h
  all_goals
    obtain ⟨j, _, rfl⟩ := List.mem_map.mp h
    exact ⟨⟨start_le_vertex, vertex_lt_stop hn⟩, start_le_vertex, vertex_lt_stop hn⟩

theorem map_succ_perm {α : Type} {f : ℕ → α} (h : f n = f 0) :
    ((List.range n).map fun j => f (j + 1)).Perm ((List.range n).map f) := by
  cases n with
  | zero => exact .refl _
  | succ n =>
    rw [List.range_succ, List.map_append, List.map_singleton, h, ← List.range_succ,
      List.range_succ_eq_map, List.map_cons, List.map_map]
    exact List.perm_append_singleton _ _

theorem slanted_perm_straight (h : lower.isPole = true ∨ upper.isPole = true) :
    (slanted n lower upper).Perm (straight n lower upper) := by
  rcases h with h | h
  · have hslanted : slanted n lower upper =
        (List.range n).map fun j => (lower.vertex n (j + 1), upper.vertex n (j + 1)) := by
      simp [slanted, vertex_of_pole h]
    rw [hslanted]
    exact map_succ_perm (f := fun j => (lower.vertex n j, upper.vertex n j))
      (by rw [vertex_period, vertex_period])
  · have hslanted : slanted n lower upper = straight n lower upper := by
      simp [slanted, straight, vertex_of_pole h]
    rw [hslanted]

theorem nodup_pairs {f g : ℕ → ℕ}
    (h : (∀ i < n, ∀ j < n, f i = f j → i = j) ∨ ∀ i < n, ∀ j < n, g i = g j → i = j) :
    ((List.range n).map fun j => (f j, g j)).Nodup := by
  refine List.nodup_range.map_on fun i hi j hj heq => ?_
  rw [List.mem_range] at hi hj
  obtain ⟨hf, hg⟩ := Prod.mk.inj heq
  rcases h with h | h
  · exact h i hi j hj hf
  · exact h i hi j hj hg

theorem nodup_rim (n : ℕ) (r : Row) : (r.rim n).Nodup := by
  unfold rim
  split
  · exact List.nodup_nil
  · rename_i hring
    exact nodup_pairs (.inl (vertex_inj (Bool.not_eq_true _ ▸ hring)))

theorem nodup_straight (h : lower.isPole = false ∨ upper.isPole = false) :
    (straight n lower upper).Nodup :=
  nodup_pairs (h.imp vertex_inj vertex_inj)

theorem nodup_slanted (h : lower.isPole = false ∨ upper.isPole = false) :
    (slanted n lower upper).Nodup :=
  nodup_pairs (h.imp vertex_inj vertex_succ_inj)

theorem nodup_spokes (hn : 2 ≤ n) (lower upper : Row) : (lower.spokes n upper).Nodup := by
  unfold spokes
  cases hlower : lower.isPole <;> cases hupper : upper.isPole
  · simp only [Bool.false_eq_true, if_false]
    refine List.nodup_append'.mpr ⟨nodup_straight (.inl hlower), nodup_slanted (.inl hlower), ?_⟩
    intro e hstraight hslanted
    obtain ⟨i, hi, rfl⟩ := List.mem_map.mp hstraight
    obtain ⟨j, hj, heq⟩ := List.mem_map.mp hslanted
    rw [List.mem_range] at hi hj
    obtain ⟨hsame, hnext⟩ := Prod.mk.inj heq
    have hindex := vertex_inj hlower j hj i hi hsame
    rw [vertex_of_ring hupper hi, vertex_succ_of_ring hupper hj] at hnext
    split_ifs at hnext <;> omega
  · simpa using nodup_straight (.inl hlower)
  · simpa using nodup_slanted (.inr hupper)
  · exact List.nodup_nil

theorem swap_not_mem_rim (hn : 3 ≤ n) (he : e ∈ r.rim n) : e.swap ∉ r.rim n := by
  intro hswap
  unfold rim at he hswap
  split at he
  · cases he
  · rename_i hring
    rw [if_neg hring] at hswap
    rw [Bool.not_eq_true] at hring
    obtain ⟨i, hi, rfl⟩ := List.mem_map.mp he
    obtain ⟨j, hj, heq⟩ := List.mem_map.mp hswap
    rw [List.mem_range] at hi hj
    obtain ⟨hback, hforth⟩ := Prod.mk.inj heq
    rw [vertex_of_ring hring hj, vertex_succ_of_ring hring hi] at hback
    rw [vertex_of_ring hring hi, vertex_succ_of_ring hring hj] at hforth
    split_ifs at hback hforth <;> omega

end Row

end Vertices

section Seams

variable {n bound : ℕ} {r r' : Row} {rows : List Row} {e : ℕ × ℕ}

theorem mem_seams_cons_cons : e ∈ seams n (r :: r' :: rows) ↔
    e ∈ r.rim n ∨ e ∈ r.spokes n r' ∨ e ∈ seams n (r' :: rows) := by
  simp [seams]

theorem start_le_of_mem_seams (hn : 0 < n) (hrows : (r :: rows).IsChain (Row.Below n))
    (he : e ∈ seams n (r :: rows)) : r.start ≤ e.1 ∧ r.start ≤ e.2 := by
  induction rows generalizing r with
  | nil =>
    have hrim := Row.mem_rim hn he
    omega
  | cons r' rows ih =>
    obtain ⟨hbelow, hrest⟩ := List.isChain_cons_cons.mp hrows
    have hstart : r.start ≤ r.stop n := Nat.le_add_right ..
    unfold Row.Below at hbelow
    rcases mem_seams_cons_cons.mp he with h | h | h
    · have hrim := Row.mem_rim hn h
      omega
    · have hspokes := Row.mem_spokes hn h
      omega
    · have hlater := ih hrest h
      omega

theorem lt_of_mem_seams (hn : 0 < n) (hbound : ∀ r ∈ rows, r.stop n ≤ bound)
    (he : e ∈ seams n rows) : e.1 < bound ∧ e.2 < bound := by
  fun_induction seams n rows with
  | case1 => cases he
  | case2 r =>
    have hrim := Row.mem_rim hn he
    have hstop := hbound r List.mem_cons_self
    omega
  | case3 r r' rows ih =>
    obtain ⟨hstop, hrest⟩ := List.forall_mem_cons.mp hbound
    have hstop' := hrest r' List.mem_cons_self
    rcases mem_seams_cons_cons.mp he with h | h | h
    · have hrim := Row.mem_rim hn h
      omega
    · have hspokes := Row.mem_spokes hn h
      omega
    · exact ih hrest h

theorem nodup_seams (hn : 2 ≤ n) (hrows : rows.IsChain (Row.Below n)) : (seams n rows).Nodup := by
  have hpos : 0 < n := by omega
  fun_induction seams n rows with
  | case1 => exact List.nodup_nil
  | case2 r => exact r.nodup_rim n
  | case3 r r' rows ih =>
    obtain ⟨hbelow, hrest⟩ := List.isChain_cons_cons.mp hrows
    unfold Row.Below at hbelow
    refine List.nodup_append'.mpr ⟨List.nodup_append'.mpr
      ⟨r.nodup_rim n, Row.nodup_spokes hn r r', fun e hrim hspokes => ?_⟩, ih hrest,
      fun e hhere hlater => ?_⟩
    · have hrow := Row.mem_rim hpos hrim
      have hnext := Row.mem_spokes hpos hspokes
      omega
    · have hstart := start_le_of_mem_seams hpos hrest hlater
      rcases List.mem_append.mp hhere with h | h
      · have hrow := Row.mem_rim hpos h
        omega
      · have hnext := Row.mem_spokes hpos h
        omega

theorem mem_rim_of_lt (hn : 0 < n) (hrows : (r' :: rows).IsChain (Row.Below n))
    (he : e ∈ seams n (r :: r' :: rows)) (hlow : e.2 < r'.start) : e ∈ r.rim n := by
  rcases mem_seams_cons_cons.mp he with h | h | h
  · exact h
  · have hspokes := Row.mem_spokes hn h
    omega
  · have hlater := start_le_of_mem_seams hn hrows h
    omega

theorem mem_seams_of_le (hn : 0 < n) (hbelow : r.stop n ≤ r'.start)
    (he : e ∈ seams n (r :: r' :: rows)) (hhigh : r'.start ≤ e.1) : e ∈ seams n (r' :: rows) := by
  rcases mem_seams_cons_cons.mp he with h | h | h
  · have hrim := Row.mem_rim hn h
    omega
  · have hspokes := Row.mem_spokes hn h
    omega
  · exact h

/-- Lines between rows lead up, and those along a ring of three or more vertices lead round it. -/
theorem swap_not_mem_seams (hn : 3 ≤ n) (hrows : rows.IsChain (Row.Below n))
    (he : e ∈ seams n rows) : e.swap ∉ seams n rows := by
  have hpos : 0 < n := by omega
  fun_induction seams n rows with
  | case1 => cases he
  | case2 r => exact Row.swap_not_mem_rim hn he
  | case3 r r' rows ih =>
    obtain ⟨hbelow, hrest⟩ := List.isChain_cons_cons.mp hrows
    unfold Row.Below at hbelow
    intro hswap
    rcases mem_seams_cons_cons.mp he with h | h | h
    · have hrim := Row.mem_rim hpos h
      exact Row.swap_not_mem_rim hn h (mem_rim_of_lt hpos hrest hswap (by simp; omega))
    · have hspokes := Row.mem_spokes hpos h
      have hlater := start_le_of_mem_seams hpos hrest
        (mem_seams_of_le hpos hbelow hswap (by simp; omega))
      simp only [Prod.snd_swap] at hlater
      omega
    · have hlater := start_le_of_mem_seams hpos hrest h
      exact ih hrest h (mem_seams_of_le hpos hbelow hswap (by simp; omega))

end Seams

end RayScene
