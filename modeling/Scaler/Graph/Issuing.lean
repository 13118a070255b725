import Scaler.Graph.Agreement

/-! A sorter in use: nodes are handed out when they are ready and become done one at a time, in any
order. -/

namespace Scaler.TopologicalSorter

variable {K : Type} [DecidableEq K] {s : TopologicalSorter K}

/-- Between two calls after `prepare`. Nodes that are visited and neither ready nor done are out. -/
structure Issuing (s : TopologicalSorter K) : Prop where
  keysNodup : s.keys.Nodup
  ready : ∀ k ∈ s.readyNodes.getD [], k ∈ s.visited
  visitedNodup : s.visited.Nodup
  visited : ∀ k ∈ s.visited, k ∈ s.keys ∧ s.zeroDegree k = true
  doneNodup : s.doneKeys.Nodup
  doneVisited : ∀ k ∈ s.doneKeys, k ∈ s.visited
  nVisited : s.nVisited = s.visited.length
  nDone : s.nDone = s.doneKeys.length

theorem Issuing.release (h : Issuing s) : Issuing s.release := by
  have hnew := fun k => mem_getZeroDegreeKeys (fun k hk => (h.visited k hk).2) (k := k)
  refine ⟨h.keysNodup, ?_, ?_, ?_, h.doneNodup, ?_, ?_, h.nDone⟩
  · intro k hk
    exact List.mem_append.mpr ((List.mem_append.mp hk).imp_left (h.ready k))
  · refine List.nodup_append.mpr ⟨h.visitedNodup, h.keysNodup.filter _, ?_⟩
    rintro a ha b hb rfl
    exact ((hnew a).mp hb).2.2 ha
  · intro k hk
    rcases List.mem_append.mp hk with hk | hk
    · exact h.visited k hk
    · exact ⟨((hnew k).mp hk).1, ((hnew k).mp hk).2.1⟩
  · intro k hk
    exact List.mem_append_left _ (h.doneVisited k hk)
  · change s.nVisited + s.getZeroDegreeKeys.length = (s.visited ++ s.getZeroDegreeKeys).length
    rw [h.nVisited, List.length_append]

theorem Issuing.getReady (h : Issuing s) {ready : List K} {s' : TopologicalSorter K} (hready : s.getReady = (.ok ready, s')) :
    Issuing s' ∧ s'.visited = s.visited ∧ s'.doneKeys = s.doneKeys ∧ s'.matrix = s.matrix ∧ ∀ k ∈ ready, k ∈ s.visited := by
  rw [TopologicalSorter.getReady] at hready
  split at hready
  · cases hready
  · next ready' hsome =>
    obtain ⟨heq, rfl⟩ := Prod.mk.inj hready
    obtain rfl := Except.ok.inj heq
    have hvisited := h.ready
    rw [hsome] at hvisited
    exact ⟨{ h with ready := fun k hk => absurd hk List.not_mem_nil }, rfl, rfl, rfl, hvisited⟩

/-- A node that is out is done. -/
theorem Issuing.done (h : Issuing s) (hprepared : s.readyNodes.isSome) {k : K} (hvisited : k ∈ s.visited) (hdone : k ∉ s.doneKeys) :
    ∃ s', s.done [k] = (.ok (), s') ∧ Issuing s' ∧ s'.readyNodes.isSome ∧ (∀ x ∈ s.visited, x ∈ s'.visited) ∧
      s'.doneKeys = k :: s.doneKeys ∧ s'.matrix = s.matrix := by
  have hmask : s.maskDone [k] = (.ok (), { s with doneKeys := k :: s.doneKeys }) := by
    refine maskDone_of_visited (List.nodup_singleton k) fun x hx => ?_
    obtain rfl := List.mem_singleton.mp hx
    exact ⟨(h.visited x hvisited).1, hvisited, hdone⟩
  have hmasked : Issuing { s with doneKeys := k :: s.doneKeys, nDone := s.nDone + 1 } := by
    refine { h with visited := fun x hx => ⟨(h.visited x hx).1, ?_⟩, doneNodup := ?_, doneVisited := ?_, nDone := ?_ }
    · have hsub : ∀ y ∈ s.doneKeys, y ∈ k :: s.doneKeys := fun y hy => List.mem_cons_of_mem k hy
      exact zeroDegree_of_subset (s := s) (t := { s with doneKeys := k :: s.doneKeys, nDone := s.nDone + 1 }) rfl hsub (h.visited x hx).2
    · exact List.nodup_cons.mpr ⟨hdone, h.doneNodup⟩
    · intro x hx
      rcases List.mem_cons.mp hx with rfl | hx
      · exact hvisited
      · exact h.doneVisited x hx
    · rw [h.nDone]
      rfl
  refine ⟨_, ?_, hmasked.release, rfl, fun x hx => List.mem_append_left _ hx, rfl, rfl⟩
  rw [TopologicalSorter.done, if_neg (by simp [Option.isSome_iff_ne_none.mp hprepared]), hmask]
  rfl

/-- When nothing is ready and nothing is out, all that was visited is done. -/
theorem Issuing.mem_doneKeys (h : Issuing s) (hactive : s.isActive = false) {k : K} (hvisited : k ∈ s.visited) : k ∈ s.doneKeys := by
  have hle : s.visited.length ≤ s.doneKeys.length := by
    have hcount : ¬ s.nDone < s.nVisited := by
      intro hlt
      rw [isActive, decide_eq_true hlt, Bool.true_or] at hactive
      cases hactive
    rw [h.nDone, h.nVisited] at hcount
    omega
  have hperm := (h.doneNodup.subperm h.doneVisited).perm_of_length_le hle
  exact hperm.mem_iff.mpr hvisited

theorem Issuing.pred_done (h : Issuing s) {a b : K} (hvisited : a ∈ s.visited) (hedge : (a, b) ∈ s.matrix) : b ∈ s.doneKeys := by
  have hall := List.all_eq_true.mp (h.visited a hvisited).2 (a, b) hedge
  simpa using hall

theorem nodup_keys_ofGraph (graph : List (K × List K)) : (ofGraph graph).keys.Nodup := by
  have hfold : ∀ ks : List K, ks.Nodup → (graph.foldl addKeys ks).Nodup := by
    induction graph with
    | nil => exact fun ks h => h
    | cons entry graph ih => exact fun ks h => ih _ (nodup_foldl_addKey (nodup_addKey h entry.1))
  exact hfold [] List.nodup_nil

theorem issuing_prepare (graph : List (K × List K)) : Issuing (ofGraph graph).prepare.2 := by
  rw [prepare_eq rfl]
  refine Issuing.release ⟨nodup_keys_ofGraph graph, ?_, List.nodup_nil, ?_, List.nodup_nil, ?_, rfl, rfl⟩
  · exact fun k hk => absurd hk List.not_mem_nil
  · exact fun k hk => absurd hk List.not_mem_nil
  · exact fun k hk => absurd hk List.not_mem_nil

end Scaler.TopologicalSorter
