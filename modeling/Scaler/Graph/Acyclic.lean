import Mathlib.Data.Finset.Card
import Mathlib.Data.Finset.Dedup
import Scaler.Graph.TopologicalSorter

/-! What `prepare` of a `TopologicalSorter` makes sure of: the powers of the matrix have no entry on
their diagonal, so there is no walk with as many edges as there are keys. -/

namespace Scaler.TopologicalSorter

variable {K : Type} [DecidableEq K] {s : TopologicalSorter K}

theorem mem_mulMatrix {m : List (K × K)} {a c : K} : (a, c) ∈ s.mulMatrix m ↔ ∃ b, (a, b) ∈ m ∧ (b, c) ∈ s.matrix := by
  rw [mulMatrix, List.mem_dedup, List.mem_flatMap]
  constructor
  · rintro ⟨⟨a', b⟩, hm, hmap⟩
    obtain ⟨⟨b', c'⟩, hfilter, heq⟩ := List.mem_map.mp hmap
    obtain ⟨rfl, rfl⟩ := Prod.mk.inj heq
    obtain ⟨hmatrix, hb⟩ := List.mem_filter.mp hfilter
    obtain rfl : b' = b := of_decide_eq_true hb
    exact ⟨b', hm, hmatrix⟩
  · rintro ⟨b, hm, hmatrix⟩
    exact ⟨(a, b), hm, List.mem_map.mpr ⟨(b, c), List.mem_filter.mpr ⟨hmatrix, decide_eq_true rfl⟩, rfl⟩⟩

/-- The diagonals of the powers that were looked at are empty. -/
theorem diagonal_of_hasCycleWithin {m : List (K × K)} {n : Nat} (h : s.hasCycleWithin m n = false) {i : Nat} (hi : i < n)
    (a : K) : (a, a) ∉ s.mulMatrix^[i + 1] m := by
  induction n generalizing m i with
  | zero => exact absurd hi (Nat.not_lt_zero i)
  | succ n ih =>
    rw [hasCycleWithin, Bool.or_eq_false_iff] at h
    cases i with
    | zero =>
      intro hmem
      have hno := List.any_eq_false.mp h.1 (a, a) hmem
      exact hno (decide_eq_true rfl)
    | succ i => exact ih h.2 (Nat.lt_of_succ_lt_succ hi)

/-- A sequence of keys along the edges. -/
def Walk (s : TopologicalSorter K) (n : Nat) (v : Nat → K) : Prop := ∀ i < n, (v i, v (i + 1)) ∈ s.matrix

theorem Walk.mem_power {v : Nat → K} {n : Nat} (h : s.Walk n v) {i : Nat} (hkey : v i ∈ s.keys) {k : Nat} (hk : i + k ≤ n) :
    (v i, v (i + k)) ∈ s.mulMatrix^[k] (s.keys.map fun key => (key, key)) := by
  induction k with
  | zero => exact List.mem_map.mpr ⟨v i, hkey, rfl⟩
  | succ k ih =>
    rw [Function.iterate_succ_apply', mem_mulMatrix]
    exact ⟨v (i + k), ih (by omega), h (i + k) (by omega)⟩

/-- The nodes of the edges are keys. -/
def Closed (s : TopologicalSorter K) : Prop := ∀ e ∈ s.matrix, e.1 ∈ s.keys ∧ e.2 ∈ s.keys

/-- Without a cycle there is no walk through more nodes than there are keys. -/
theorem not_walk (hcycle : s.hasCycle = false) (hclosed : s.Closed) {v : Nat → K} (hstart : v 0 ∈ s.keys) :
    ¬s.Walk s.keys.length v := by
  intro hwalk
  have hkeys : ∀ i ≤ s.keys.length, v i ∈ s.keys := by
    intro i hi
    cases i with
    | zero => exact hstart
    | succ i => exact (hclosed _ (hwalk i hi)).2
  have hmaps : Set.MapsTo v (Finset.range (s.keys.length + 1)) s.keys.toFinset := by
    intro i hi
    rw [Finset.mem_coe, Finset.mem_range] at hi
    exact Finset.mem_coe.mpr (List.mem_toFinset.mpr (hkeys i (Nat.lt_succ_iff.mp hi)))
  have hcard : s.keys.toFinset.card < (Finset.range (s.keys.length + 1)).card := by
    rw [Finset.card_range]
    exact Nat.lt_succ_of_le (List.toFinset_card_le s.keys)
  obtain ⟨i, hi, j, hj, hne, heq⟩ := Finset.exists_ne_map_eq_of_card_lt_of_maps_to hcard hmaps
  rw [Finset.mem_range, Nat.lt_succ_iff] at hi hj
  -- the part between two visits of one key closes a cycle
  have hloop : ∀ i j, i < j → j ≤ s.keys.length → v i ≠ v j := by
    intro i j hlt hle heq
    have hmem := hwalk.mem_power (hkeys i (by omega)) (k := j - i - 1 + 1) (by omega)
    rw [show i + (j - i - 1 + 1) = j by omega, ← heq] at hmem
    exact diagonal_of_hasCycleWithin hcycle (by omega) (v i) hmem
  rcases Nat.lt_or_gt_of_ne hne with hlt | hgt
  · exact hloop i j hlt hj heq
  · exact hloop j i hgt hi heq.symm

theorem mem_addKey {ks : List K} {k x : K} : x ∈ addKey ks k ↔ x ∈ ks ∨ x = k := by
  unfold addKey
  split
  · next hk =>
    refine ⟨.inl, ?_⟩
    rintro (h | rfl)
    · exact h
    · exact hk
  · simp

theorem mem_foldl_addKey {ps ks : List K} {x : K} : x ∈ ps.foldl addKey ks ↔ x ∈ ks ∨ x ∈ ps := by
  induction ps generalizing ks with
  | nil => simp
  | cons p ps ih => rw [List.foldl_cons, ih, mem_addKey, List.mem_cons, or_assoc]

theorem mem_addKeys {ks : List K} {entry : K × List K} {x : K} :
    x ∈ addKeys ks entry ↔ x ∈ ks ∨ x = entry.1 ∨ x ∈ entry.2 := by
  rw [addKeys, mem_foldl_addKey, mem_addKey, or_assoc]

theorem mem_foldl_addKeys {graph : List (K × List K)} {ks : List K} {x : K} :
    x ∈ graph.foldl addKeys ks ↔ x ∈ ks ∨ ∃ entry ∈ graph, x = entry.1 ∨ x ∈ entry.2 := by
  induction graph generalizing ks with
  | nil => simp
  | cons entry graph ih => rw [List.foldl_cons, ih, mem_addKeys, List.exists_mem_cons_iff, or_assoc]

/-- The sorter of a graph, before and after `prepare`. -/
def ofGraph (graph : List (K × List K)) : TopologicalSorter K := (empty.mergeGraph graph).2

theorem mem_keys_ofGraph {graph : List (K × List K)} {x : K} :
    x ∈ (ofGraph graph).keys ↔ ∃ entry ∈ graph, x = entry.1 ∨ x ∈ entry.2 := by
  refine mem_foldl_addKeys.trans ⟨fun h => h.resolve_left List.not_mem_nil, .inr⟩

theorem mem_matrix_ofGraph {graph : List (K × List K)} {a b : K} :
    (a, b) ∈ (ofGraph graph).matrix ↔ ∃ entry ∈ graph, a = entry.1 ∧ b ∈ entry.2 := by
  change (a, b) ∈ [] ++ graph.flatMap (fun e => e.2.map fun p => (e.1, p)) ↔ _
  rw [List.nil_append, List.mem_flatMap]
  constructor
  · rintro ⟨entry, hentry, hmap⟩
    obtain ⟨p, hp, heq⟩ := List.mem_map.mp hmap
    obtain ⟨rfl, rfl⟩ := Prod.mk.inj heq
    exact ⟨entry, hentry, rfl, hp⟩
  · rintro ⟨entry, hentry, rfl, hb⟩
    exact ⟨entry, hentry, List.mem_map.mpr ⟨b, hb, rfl⟩⟩

theorem closed_ofGraph (graph : List (K × List K)) : (ofGraph graph).Closed := by
  rintro ⟨a, b⟩ hmem
  obtain ⟨entry, hentry, rfl, hb⟩ := mem_matrix_ofGraph.mp hmem
  exact ⟨mem_keys_ofGraph.mpr ⟨entry, hentry, .inl rfl⟩, mem_keys_ofGraph.mpr ⟨entry, hentry, .inr hb⟩⟩

theorem hasCycleWithin_congr {t : TopologicalSorter K} (hmatrix : t.matrix = s.matrix) (m : List (K × K)) (n : Nat) :
    t.hasCycleWithin m n = s.hasCycleWithin m n := by
  induction n generalizing m with
  | zero => rfl
  | succ n ih =>
    have hmul : t.mulMatrix m = s.mulMatrix m := by rw [mulMatrix, mulMatrix, hmatrix]
    rw [hasCycleWithin, hasCycleWithin, ih, hmul]

theorem hasCycle_congr {t : TopologicalSorter K} (hmatrix : t.matrix = s.matrix) (hkeys : t.keys = s.keys) :
    t.hasCycle = s.hasCycle := by
  rw [hasCycle, hkeys, hasCycleWithin_congr hmatrix, hasCycle]

theorem hasCycle_of_prepare {graph : List (K × List K)} (h : (ofGraph graph).prepare.1 = .ok ()) :
    (ofGraph graph).hasCycle = false := by
  unfold prepare at h
  split at h
  · cases h
  · dsimp only at h
    split at h
    · cases h
    · next hcycle =>
      rw [Bool.not_eq_true] at hcycle
      rw [← hcycle]
      exact hasCycle_congr rfl rfl

end Scaler.TopologicalSorter
