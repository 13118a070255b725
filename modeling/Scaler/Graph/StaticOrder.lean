import Mathlib.Data.List.Perm.Basic
import Scaler.Graph.Acyclic
import Scaler.Graph.Graphlib

/-! `static_order` gives out all the nodes of a graph without a cycle, each of them after its predecessors. -/

namespace Scaler.TopologicalSorter

variable {K : Type} [DecidableEq K] {s : TopologicalSorter K} {ready out : List K}

section Cycle

/-- The entries of a power of the matrix are the ends of its paths. -/
theorem transGen_of_mem_power {m : List (K × K)} {n : Nat} {a c : K} (h : (a, c) ∈ s.mulMatrix^[n + 1] m) :
    ∃ b, (a, b) ∈ m ∧ Relation.TransGen (fun x y => (x, y) ∈ s.matrix) b c := by
  induction n generalizing c with
  | zero =>
    obtain ⟨b, hm, hmatrix⟩ := mem_mulMatrix.mp h
    exact ⟨b, hm, .single hmatrix⟩
  | succ n ih =>
    rw [Function.iterate_succ_apply', mem_mulMatrix] at h
    obtain ⟨b, hpower, hmatrix⟩ := h
    obtain ⟨d, hm, hpath⟩ := ih hpower
    exact ⟨d, hm, hpath.tail hmatrix⟩

theorem exists_diagonal_of_hasCycleWithin {m : List (K × K)} {n : Nat} (h : s.hasCycleWithin m n = true) :
    ∃ i a, (a, a) ∈ s.mulMatrix^[i + 1] m := by
  induction n generalizing m with
  | zero => cases h
  | succ n ih =>
    rw [hasCycleWithin, Bool.or_eq_true] at h
    rcases h with h | h
    · obtain ⟨⟨a, b⟩, hmem, heq⟩ := List.any_eq_true.mp h
      obtain rfl : a = b := of_decide_eq_true heq
      exact ⟨0, a, hmem⟩
    · obtain ⟨i, a, hmem⟩ := ih h
      exact ⟨i + 1, a, hmem⟩

omit [DecidableEq K] in
/-- A node of a cycle has a successor on the cycle, so one can walk on for ever. -/
theorem exists_walk_of_cycle {a : K} (h : Relation.TransGen (fun x y => (x, y) ∈ s.matrix) a a) :
    ∃ v : Nat → K, v 0 = a ∧ ∀ i, (v i, v (i + 1)) ∈ s.matrix := by
  have hnext : ∀ x : { x // Relation.TransGen (fun x y => (x, y) ∈ s.matrix) x x },
      ∃ y : { y // Relation.TransGen (fun x y => (x, y) ∈ s.matrix) y y }, (x.1, y.1) ∈ s.matrix := by
    rintro ⟨x, hx⟩
    obtain ⟨y, hxy, hyx⟩ := Relation.TransGen.head'_iff.mp hx
    exact ⟨⟨y, Relation.TransGen.tail' hyx hxy⟩, hxy⟩
  choose next hnext using hnext
  refine ⟨fun i => (next^[i] ⟨a, h⟩).1, rfl, fun i => ?_⟩
  beta_reduce
  rw [Function.iterate_succ_apply']
  exact hnext _

theorem hasCycle_iff (hclosed : s.Closed) :
    s.hasCycle = true ↔ ∃ a, Relation.TransGen (fun x y => (x, y) ∈ s.matrix) a a := by
  constructor
  · intro h
    obtain ⟨i, a, hmem⟩ := exists_diagonal_of_hasCycleWithin h
    obtain ⟨b, hb, hpath⟩ := transGen_of_mem_power hmem
    obtain ⟨k, -, heq⟩ := List.mem_map.mp hb
    obtain ⟨rfl, rfl⟩ := Prod.mk.inj heq
    exact ⟨k, hpath⟩
  · rintro ⟨a, hcycle⟩
    by_contra hno
    rw [Bool.not_eq_true] at hno
    obtain ⟨v, hstart, hwalk⟩ := exists_walk_of_cycle hcycle
    refine not_walk hno hclosed ?_ fun i _ => hwalk i
    exact (hclosed _ (hwalk 0)).1

theorem prepare_eq (hready : s.readyNodes = none) :
    s.prepare = (if s.hasCycle then .error .cycleError else .ok (), release { s with doneKeys := [], visited := [] }) := by
  have hnone : ¬ s.readyNodes.isSome = true := by
    rw [hready]
    exact Bool.false_ne_true
  have hcycle : (release { s with doneKeys := [], visited := [] }).hasCycle = s.hasCycle :=
    hasCycle_congr (s := s) (t := release { s with doneKeys := [], visited := [] }) rfl rfl
  rw [prepare, if_neg hnone]
  dsimp only
  rw [hcycle]

end Cycle

/-- The head of the loop: `out` has been given out and is done, and all the nodes of degree zero are
in it or ready. -/
structure Ordered (s : TopologicalSorter K) (ready out : List K) : Prop where
  sorterReady : s.readyNodes = some ready
  keysNodup : s.keys.Nodup
  nodup : (out ++ ready).Nodup
  visited : ∀ k, k ∈ s.visited ↔ k ∈ out ++ ready
  doneKeys : ∀ k, k ∈ s.doneKeys ↔ k ∈ out
  zeroDegree : ∀ k, k ∈ s.visited ↔ k ∈ s.keys ∧ s.zeroDegree k = true
  nVisited : s.nVisited = out.length + ready.length
  nDone : s.nDone = out.length
  order : ∀ a b, (a, b) ∈ s.matrix → a ∈ out → out.idxOf b < out.idxOf a

theorem maskDone_of_visited {ks : List K} (hnodup : ks.Nodup)
    (h : ∀ k ∈ ks, k ∈ s.keys ∧ k ∈ s.visited ∧ k ∉ s.doneKeys) :
    s.maskDone ks = (.ok (), { s with doneKeys := ks.reverse ++ s.doneKeys }) := by
  induction ks generalizing s with
  | nil => rfl
  | cons k ks ih =>
    obtain ⟨hkey, hvisited, hdone⟩ := h k List.mem_cons_self
    obtain ⟨hnot, hnodup⟩ := List.nodup_cons.mp hnodup
    have hguard : ¬(k ∉ s.keys ∨ k ∉ s.visited ∨ k ∈ s.doneKeys) := by tauto
    rw [maskDone, if_neg hguard, ih hnodup]
    · simp
    · intro x hx
      obtain ⟨hkey, hvisited, hdone⟩ := h x (List.mem_cons_of_mem _ hx)
      refine ⟨hkey, hvisited, fun hmem => ?_⟩
      rcases List.mem_cons.mp hmem with rfl | hmem
      · exact hnot hx
      · exact hdone hmem

theorem zeroDegree_of_subset {t : TopologicalSorter K} (hmatrix : t.matrix = s.matrix)
    (hdone : ∀ k ∈ s.doneKeys, k ∈ t.doneKeys) {k : K} (h : s.zeroDegree k = true) : t.zeroDegree k = true := by
  rw [TopologicalSorter.zeroDegree, hmatrix]
  refine List.all_eq_true.mpr fun e he => ?_
  have hall := List.all_eq_true.mp h e he
  simp only [Bool.or_eq_true, decide_eq_true_eq] at hall ⊢
  exact hall.imp_right (hdone e.2)

/-- Where the visited nodes have degree zero, the difference of the masks is the nodes that are new. -/
theorem mem_getZeroDegreeKeys (h : ∀ k ∈ s.visited, s.zeroDegree k = true) {k : K} :
    k ∈ s.getZeroDegreeKeys ↔ k ∈ s.keys ∧ s.zeroDegree k = true ∧ k ∉ s.visited := by
  rw [getZeroDegreeKeys, List.mem_filter]
  refine and_congr_right fun _ => ?_
  by_cases hv : k ∈ s.visited
  · simp [hv, h k hv]
  · simp [hv]

section Loop

/-- A key that is not done has a predecessor that is not done, or has degree zero. -/
theorem exists_waiting_pred {a : K} (h : s.zeroDegree a = false) : ∃ b, (a, b) ∈ s.matrix ∧ b ∉ s.doneKeys := by
  obtain ⟨⟨x, b⟩, he, hfalse⟩ := List.all_eq_false.mp h
  simp only [ne_eq, decide_not, Bool.or_eq_true, Bool.not_eq_eq_eq_not, Bool.not_true, decide_eq_false_iff_not,
    decide_eq_true_eq, not_or, not_not] at hfalse
  obtain ⟨rfl, hdone⟩ := hfalse
  exact ⟨b, he, hdone⟩

/-- Without a cycle, some node that is not done has only predecessors that are done. -/
theorem exists_zeroDegree (hcycle : s.hasCycle = false) (hclosed : s.Closed) {k : K} (hk : k ∈ s.keys) (hdone : k ∉ s.doneKeys) :
    ∃ x ∈ s.keys, x ∉ s.doneKeys ∧ s.zeroDegree x = true := by
  by_contra hno
  push Not at hno
  have hnext : ∀ x : { x // x ∈ s.keys ∧ x ∉ s.doneKeys }, ∃ y : { y // y ∈ s.keys ∧ y ∉ s.doneKeys }, (x.1, y.1) ∈ s.matrix := by
    rintro ⟨x, hkey, hdone⟩
    obtain ⟨y, hedge, hy⟩ := exists_waiting_pred (Bool.eq_false_iff.mpr (hno x hkey hdone))
    exact ⟨⟨y, (hclosed _ hedge).2, hy⟩, hedge⟩
  choose next hnext using hnext
  refine not_walk hcycle hclosed (v := fun i => (next^[i] ⟨k, hk, hdone⟩).1) hk fun i _ => ?_
  beta_reduce
  rw [Function.iterate_succ_apply']
  exact hnext _

theorem Ordered.mem_keys (h : Ordered s ready out) {k : K} (hk : k ∈ out ++ ready) : k ∈ s.keys :=
  ((h.zeroDegree k).mp ((h.visited k).mpr hk)).1

theorem Ordered.length_le (h : Ordered s ready out) : out.length + ready.length ≤ s.keys.length := by
  rw [← List.length_append]
  exact (h.nodup.subperm fun k hk => h.mem_keys hk).length_le

theorem Ordered.isActive (h : Ordered s ready out) : s.isActive = true ↔ ready ≠ [] := by
  have hpos : ready ≠ [] ↔ 0 < ready.length := List.length_pos_iff.symm
  rw [TopologicalSorter.isActive, h.sorterReady, h.nDone, h.nVisited, hpos]
  cases ready with
  | nil => simp
  | cons k ks => simp

/-- The node group is given out after all the predecessors of its nodes. -/
theorem Ordered.order_append (h : Ordered s ready out) {a b : K} (hedge : (a, b) ∈ s.matrix) (ha : a ∈ out ++ ready) :
    (out ++ ready).idxOf b < (out ++ ready).idxOf a := by
  have hzero := ((h.zeroDegree a).mp ((h.visited a).mpr ha)).2
  have hall := List.all_eq_true.mp hzero (a, b) hedge
  have hb : b ∈ out := (h.doneKeys b).mp (by simpa using hall)
  rw [List.idxOf_append_of_mem hb]
  by_cases hout : a ∈ out
  · rw [List.idxOf_append_of_mem hout]
    exact h.order a b hedge hout
  · rw [List.idxOf_append_of_notMem hout]
    exact Nat.lt_add_right _ (List.idxOf_lt_length_of_mem hb)

theorem Ordered.done (h : Ordered s ready out) :
    ∃ s' ready', done { s with readyNodes := some [] } ready = (.ok (), s') ∧ Ordered s' ready' (out ++ ready) ∧
      s'.keys = s.keys ∧ s'.matrix = s.matrix := by
  have hsub : ∀ k ∈ ready, k ∈ s.keys ∧ k ∈ s.visited ∧ k ∉ s.doneKeys := by
    intro k hk
    refine ⟨h.mem_keys (List.mem_append_right _ hk), (h.visited k).mpr (List.mem_append_right _ hk), fun hdone => ?_⟩
    exact (List.nodup_append.mp h.nodup).2.2 k ((h.doneKeys k).mp hdone) k hk rfl
  have hmask := maskDone_of_visited (s := { s with readyNodes := some [] }) (List.nodup_append.mp h.nodup).2.1 hsub
  set t : TopologicalSorter K :=
    { s with doneKeys := ready.reverse ++ s.doneKeys, readyNodes := some [], nDone := s.nDone + ready.length } with ht
  have hzero : ∀ k ∈ t.visited, t.zeroDegree k = true := by
    intro k hk
    exact zeroDegree_of_subset (s := s) (t := t) rfl (fun x hx => List.mem_append_right _ hx) ((h.zeroDegree k).mp hk).2
  have hnew := fun k => mem_getZeroDegreeKeys hzero (k := k)
  refine ⟨t.release, t.getZeroDegreeKeys, ?_, ⟨rfl, h.keysNodup, ?_, ?_, ?_, ?_, ?_, ?_, ?_⟩, rfl, rfl⟩
  · unfold TopologicalSorter.done
    rw [hmask]
    rfl
  · refine List.nodup_append.mpr ⟨h.nodup, h.keysNodup.filter _, ?_⟩
    rintro a ha b hb rfl
    exact ((hnew a).mp hb).2.2 ((h.visited a).mpr ha)
  · intro k
    change k ∈ s.visited ++ t.getZeroDegreeKeys ↔ _
    rw [List.mem_append, List.mem_append, h.visited]
  · intro k
    change k ∈ ready.reverse ++ s.doneKeys ↔ _
    rw [List.mem_append, List.mem_reverse, h.doneKeys, List.mem_append, or_comm]
  · intro k
    change k ∈ s.visited ++ t.getZeroDegreeKeys ↔ k ∈ s.keys ∧ t.zeroDegree k = true
    rw [List.mem_append, hnew]
    constructor
    · rintro (hk | hk)
      · exact ⟨((h.zeroDegree k).mp hk).1, hzero k hk⟩
      · exact ⟨hk.1, hk.2.1⟩
    · intro hk
      by_cases hv : k ∈ s.visited
      · exact .inl hv
      · exact .inr ⟨hk.1, hk.2, hv⟩
  · change s.nVisited + t.getZeroDegreeKeys.length = _
    rw [h.nVisited, List.length_append]
  · change s.nDone + ready.length = _
    rw [h.nDone, List.length_append]
  · intro a b hedge ha
    exact h.order_append hedge ha

theorem orderLoop_ordered (hcycle : s.hasCycle = false) (hclosed : s.Closed) (h : Ordered s ready out) {fuel : Nat}
    (hfuel : s.keys.length < out.length + fuel) :
    ∃ rest, orderLoop fuel s = some rest ∧ (out ++ rest).Perm s.keys ∧
      ∀ a b, (a, b) ∈ s.matrix → (out ++ rest).idxOf b < (out ++ rest).idxOf a := by
  induction fuel generalizing s ready out with
  | zero =>
    have := h.length_le
    omega
  | succ fuel ih =>
    by_cases hactive : s.isActive = true
    · obtain ⟨s', ready', hdone, hordered, hkeys, hmatrix⟩ := h.done
      have hpos : 0 < ready.length := List.length_pos_iff.mpr (h.isActive.mp hactive)
      have hclosed' : s'.Closed := by
        unfold Closed
        rw [hkeys, hmatrix]
        exact hclosed
      obtain ⟨rest, hloop, hperm, horder⟩ := ih ((hasCycle_congr hmatrix hkeys).trans hcycle) hclosed' hordered
        (by rw [hkeys, List.length_append]; omega)
      refine ⟨ready ++ rest, ?_, ?_, ?_⟩
      · rw [orderLoop, if_pos hactive, getReady, h.sorterReady]
        dsimp only
        rw [hdone]
        dsimp only
        rw [hloop]
        rfl
      · rw [← List.append_assoc, ← hkeys]
        exact hperm
      · rw [← List.append_assoc, ← hmatrix]
        exact horder
    · have hready : ready = [] := not_not.mp fun hne => hactive (h.isActive.mpr hne)
      subst hready
      have hall : ∀ k ∈ s.keys, k ∈ out := by
        intro k hk
        by_contra hnot
        obtain ⟨x, hx, hnotDone, hzero⟩ := exists_zeroDegree hcycle hclosed hk (fun hd => hnot ((h.doneKeys k).mp hd))
        have hvisited := (h.visited x).mp ((h.zeroDegree x).mpr ⟨hx, hzero⟩)
        rw [List.append_nil] at hvisited
        exact hnotDone ((h.doneKeys x).mpr hvisited)
      refine ⟨[], by rw [orderLoop, if_neg hactive], ?_, ?_⟩
      · refine (List.perm_ext_iff_of_nodup h.nodup h.keysNodup).mpr fun k => ⟨h.mem_keys, fun hk => ?_⟩
        exact List.mem_append_left _ (hall k hk)
      · intro a b hedge
        rw [List.append_nil]
        exact h.order a b hedge (hall a (hclosed _ hedge).1)

end Loop

/-- The sorter before `prepare`. -/
theorem staticOrder_topological (hready : s.readyNodes = none) (hnVisited : s.nVisited = 0) (hnDone : s.nDone = 0)
    (hnodup : s.keys.Nodup) (hclosed : s.Closed) (hcycle : s.hasCycle = false) {fuel : Nat} (hfuel : s.keys.length < fuel) :
    ∃ order, s.staticOrder fuel = some order ∧ order.Perm s.keys ∧
      ∀ a b, (a, b) ∈ s.matrix → order.idxOf b < order.idxOf a := by
  set t : TopologicalSorter K := { s with doneKeys := [], visited := [] } with ht
  have hnew := fun k => mem_getZeroDegreeKeys (s := t) (fun _ hk => absurd hk List.not_mem_nil) (k := k)
  have hsorted : Ordered t.release t.getZeroDegreeKeys [] := by
    refine ⟨?_, hnodup, ?_, fun k => Iff.rfl, fun k => Iff.rfl, fun k => ?_, ?_, hnDone, ?_⟩
    · change some (s.readyNodes.getD [] ++ t.getZeroDegreeKeys) = _
      rw [hready]
      rfl
    · exact hnodup.filter _
    · refine (hnew k).trans ?_
      exact and_congr_right fun _ => and_iff_left List.not_mem_nil
    · change s.nVisited + t.getZeroDegreeKeys.length = _
      rw [hnVisited]
      rfl
    · exact fun a b _ ha => absurd ha List.not_mem_nil
  have hcycle' : t.release.hasCycle = false := (hasCycle_congr (s := s) (t := t.release) rfl rfl).trans hcycle
  have hvisits : t.release.keys.length < ([] : List K).length + fuel := by
    rw [List.length_nil, Nat.zero_add]
    exact hfuel
  obtain ⟨order, hloop, hperm, horder⟩ := orderLoop_ordered hcycle' hclosed hsorted hvisits
  refine ⟨order, ?_, hperm, horder⟩
  rw [staticOrder, prepare_eq hready, if_neg (Bool.eq_false_iff.mp hcycle)]
  exact hloop

end Scaler.TopologicalSorter
