import Mathlib.Data.List.Dedup
import Scaler.Graph.StaticOrder

/-! The sorter on boolean matrices does what `graphlib.TopologicalSorter` does. A row that the mask of
the finished nodes has emptied is a count of predecessors that has come to zero. -/

namespace Scaler

namespace Graphlib.TopologicalSorter

variable {K : Type} [DecidableEq K] {g : TopologicalSorter K}

theorem foldl_decrement_frame (l : List K) (g : TopologicalSorter K) :
    (l.foldl decrement g).nodes = g.nodes ∧ (l.foldl decrement g).successors = g.successors ∧
      (l.foldl decrement g).npassedout = g.npassedout ∧ (l.foldl decrement g).nfinished = g.nfinished := by
  induction l generalizing g with
  | nil => exact ⟨rfl, rfl, rfl, rfl⟩
  | cons x l ih => exact ih (g.decrement x)

/-- Successors that lose all the predecessors that they have left become ready, each of them once. -/
theorem foldl_decrement {l ready : List K} (hready : g.readyNodes = some ready)
    (hcount : ∀ k ∈ l, (l.count k : Int) ≤ g.npredecessors k) :
    ∃ new, (l.foldl decrement g).readyNodes = some (ready ++ new) ∧ new.Nodup ∧
      (∀ k, k ∈ new ↔ k ∈ l ∧ g.npredecessors k = l.count k) ∧
      ∀ k, (l.foldl decrement g).npredecessors k = g.npredecessors k - l.count k := by
  induction l generalizing g ready with
  | nil => exact ⟨[], by simpa using hready, List.nodup_nil, by simp, by simp⟩
  | cons x l ih =>
    have hnpred : ∀ k, (g.decrement x).npredecessors k = g.npredecessors k - if k = x then 1 else 0 := by
      intro k
      change Function.update g.npredecessors x (g.npredecessors x - 1) k = _
      rw [Function.update_apply]
      split
      · next heq => rw [heq]
      · rw [Int.sub_zero]
    have hcons : ∀ k, ((x :: l).count k : Int) = l.count k + if k = x then 1 else 0 := by
      intro k
      rw [List.count_cons]
      by_cases hk : k = x
      · simp [hk]
      · have hne : ¬ x = k := fun heq => hk heq.symm
        simp [hk, hne]
    have hrest : ∀ k ∈ l, (l.count k : Int) ≤ (g.decrement x).npredecessors k := by
      intro k hk
      have hle := hcount k (List.mem_cons_of_mem _ hk)
      rw [hcons] at hle
      rw [hnpred]
      omega
    have hx := hcount x List.mem_cons_self
    rw [hcons, if_pos rfl] at hx
    have hpos : x ∈ l ↔ 0 < l.count x := List.count_pos_iff.symm
    by_cases hzero : g.npredecessors x - 1 = 0
    · have hready' : (g.decrement x).readyNodes = some (ready ++ [x]) := by
        rw [decrement, if_pos hzero, hready]
        rfl
      obtain ⟨new, hnew, hnodup, hmem, hleft⟩ := ih hready' hrest
      have hnot : x ∉ l := by
        rw [hpos]
        omega
      refine ⟨x :: new, ?_, List.nodup_cons.mpr ⟨fun hxn => hnot ((hmem x).mp hxn).1, hnodup⟩, fun k => ?_, fun k => ?_⟩
      · rw [List.foldl_cons, hnew, List.append_assoc, List.singleton_append]
      · rw [List.mem_cons, hmem, List.mem_cons, hnpred, hcons]
        by_cases hk : k = x
        · subst hk
          rw [if_pos rfl, List.count_eq_zero_of_not_mem hnot]
          simp only [true_or, true_and, true_iff]
          omega
        · rw [if_neg hk, or_iff_right hk, or_iff_right hk, Int.sub_zero, Int.add_zero]
      · rw [List.foldl_cons, hleft, hnpred, hcons]
        omega
    · have hready' : (g.decrement x).readyNodes = some ready := by
        rw [decrement, if_neg hzero, hready]
      obtain ⟨new, hnew, hnodup, hmem, hleft⟩ := ih hready' hrest
      refine ⟨new, hnew, hnodup, fun k => ?_, fun k => ?_⟩
      · rw [hmem, List.mem_cons, hnpred, hcons]
        by_cases hk : k = x
        · subst hk
          rw [if_pos rfl, hpos]
          simp only [true_or, true_and]
          omega
        · rw [if_neg hk, or_iff_right hk, Int.sub_zero, Int.add_zero]
      · rw [List.foldl_cons, hleft, hnpred, hcons]
        omega

end Graphlib.TopologicalSorter

namespace TopologicalSorter

variable {K : Type} [DecidableEq K] {s s' : TopologicalSorter K} {g g' : Graphlib.TopologicalSorter K} {ready gready : List K}

/-- The predecessors of a node that are not done. -/
def left (s : TopologicalSorter K) (k : K) : Nat := s.matrix.countP fun e => e.1 = k ∧ e.2 ∉ s.doneKeys

theorem zeroDegree_iff {k : K} : s.zeroDegree k = true ↔ s.left k = 0 := by
  rw [zeroDegree, left, List.all_eq_true, List.countP_eq_zero]
  refine forall₂_congr fun e _ => ?_
  simp only [Bool.or_eq_true, decide_eq_true_eq]
  tauto

/-- The two sorters have the same nodes and edges. -/
structure SameGraph (s : TopologicalSorter K) (g : Graphlib.TopologicalSorter K) : Prop where
  nodes : g.nodes = s.keys
  nodup : s.keys.Nodup
  closed : s.Closed
  successors : ∀ p, g.successors p = (s.matrix.filter fun e => e.2 = p).map Prod.fst

/-- Before `prepare`. -/
structure Setup (s : TopologicalSorter K) (g : Graphlib.TopologicalSorter K) : Prop extends SameGraph s g where
  sorterReady : s.readyNodes = none
  graphlibReady : g.readyNodes = none
  npredecessors : ∀ k, g.npredecessors k = s.matrix.countP fun e => e.1 = k
  nDone : s.nDone = 0
  nVisited : s.nVisited = 0
  npassedout : g.npassedout = 0
  nfinished : g.nfinished = 0

/-- After `prepare`. Nodes that are visited and not ready have been given out; in the middle of `done`
some nodes may have come to degree zero and are not visited yet. -/
structure Running (s : TopologicalSorter K) (g : Graphlib.TopologicalSorter K) (ready gready : List K) : Prop
    extends SameGraph s g where
  sorterReady : s.readyNodes = some ready
  graphlibReady : g.readyNodes = some gready
  readyNodup : ready.Nodup
  greadyNodup : gready.Nodup
  mem_gready : ∀ k, k ∈ gready ↔ k ∈ ready ∨ k ∈ s.keys ∧ s.zeroDegree k = true ∧ k ∉ s.visited
  readyVisited : ∀ k ∈ ready, k ∈ s.visited
  visited : ∀ k ∈ s.visited, k ∈ s.keys ∧ s.zeroDegree k = true
  visitedNodup : s.visited.Nodup
  doneOut : ∀ k ∈ s.doneKeys, k ∈ s.visited ∧ k ∉ ready
  npredecessors : ∀ k ∈ s.keys, g.npredecessors k = if k ∈ s.doneKeys then Graphlib.nodeDone
    else if k ∈ s.visited ∧ k ∉ ready then Graphlib.nodeOut else s.left k
  nVisited : s.nVisited = s.visited.length
  npassedout : g.npassedout + ready.length = s.visited.length
  nfinished : g.nfinished = s.doneKeys.length

/-- Between two calls all nodes of degree zero are visited. -/
structure Settled (s : TopologicalSorter K) : Prop where
  visited : ∀ k ∈ s.keys, s.zeroDegree k = true → k ∈ s.visited
  nDone : s.nDone = s.doneKeys.length

section Done

/-- One more node is done: its successors have one predecessor less for each edge. -/
theorem left_done {n : K} (hn : n ∉ s.doneKeys) (k : K) :
    s.left k = left { s with doneKeys := n :: s.doneKeys } k + ((s.matrix.filter fun e => e.2 = n).map Prod.fst).count k := by
  unfold left
  rw [List.count_eq_countP, List.countP_map, List.countP_filter]
  induction s.matrix with
  | nil => rfl
  | cons e es ih =>
    simp only [List.countP_cons, ih, List.mem_cons, not_or, Function.comp_apply]
    by_cases h1 : e.1 = k <;> by_cases h2 : e.2 = n <;> by_cases h3 : e.2 ∈ s.doneKeys <;> simp_all <;> omega

theorem Running.of_nodeOut (h : Running s g ready gready) {n : K} (hn : n ∈ s.keys) (hout : g.npredecessors n = Graphlib.nodeOut) :
    n ∈ s.visited ∧ n ∉ ready ∧ n ∉ s.doneKeys := by
  rw [h.npredecessors n hn] at hout
  split at hout
  · cases hout
  · next hdone =>
    split at hout
    · next hvisited => exact ⟨hvisited.1, hvisited.2, hdone⟩
    · unfold Graphlib.nodeOut at hout
      omega

/-- The nodes that wait for `n` are not visited before it is done. -/
theorem Running.waiting (h : Running s g ready gready) {n k : K} (hn : n ∉ s.doneKeys) (hedge : (k, n) ∈ s.matrix) :
    k ∈ s.keys ∧ s.zeroDegree k = false ∧ k ∉ s.visited ∧ k ∉ s.doneKeys := by
  have hzero : s.zeroDegree k ≠ true := by
    intro hzero
    have hall := List.all_eq_true.mp hzero (k, n) hedge
    simp [hn] at hall
  have hvisited : k ∉ s.visited := fun hvisited => hzero (h.visited k hvisited).2
  exact ⟨(h.closed _ hedge).1, Bool.eq_false_iff.mpr hzero, hvisited, fun hdone => hvisited (h.doneOut k hdone).1⟩

theorem mem_successors (h : SameGraph s g) {n k : K} : k ∈ g.successors n ↔ (k, n) ∈ s.matrix := by
  rw [h.successors, List.mem_map]
  constructor
  · rintro ⟨⟨a, b⟩, hmem, rfl⟩
    obtain ⟨hmatrix, hb⟩ := List.mem_filter.mp hmem
    obtain rfl : b = n := of_decide_eq_true hb
    exact hmatrix
  · intro hmatrix
    exact ⟨(k, n), List.mem_filter.mpr ⟨hmatrix, decide_eq_true rfl⟩, rfl⟩

theorem Running.doneNode (h : Running s g ready gready) {n : K} (hdone : g.doneNode n = .ok g') :
    n ∈ s.keys ∧ n ∈ s.visited ∧ n ∉ s.doneKeys ∧
      ∃ gready', Running { s with doneKeys := n :: s.doneKeys } g' ready gready' := by
  unfold Graphlib.TopologicalSorter.doneNode at hdone
  split at hdone
  · cases hdone
  · next hnodes =>
    split at hdone
    · cases hdone
    · next hout =>
      rw [not_not] at hnodes hout
      rw [h.nodes] at hnodes
      obtain ⟨hvisited, hnotReady, hnotDone⟩ := h.of_nodeOut hnodes hout
      refine ⟨hnodes, hvisited, hnotDone, ?_⟩
      set g₁ : Graphlib.TopologicalSorter K :=
        { g with npredecessors := Function.update g.npredecessors n Graphlib.nodeDone } with hg₁
      have hwait : ∀ k ∈ g.successors n, k ∈ s.keys ∧ s.zeroDegree k = false ∧ k ∉ s.visited ∧ k ∉ s.doneKeys :=
        fun k hk => h.waiting hnotDone ((mem_successors h.toSameGraph).mp hk)
      have hcounts : ∀ k ∈ g.successors n, g₁.npredecessors k = s.left k := by
        intro k hk
        obtain ⟨hkey, -, hnotVisited, hnotDone'⟩ := hwait k hk
        have hne : k ≠ n := fun heq => hnotVisited (heq ▸ hvisited)
        change Function.update g.npredecessors n Graphlib.nodeDone k = _
        rw [Function.update_of_ne hne, h.npredecessors k hkey, if_neg hnotDone', if_neg (fun hv => hnotVisited hv.1)]
      have hleft : ∀ k, s.left k = left { s with doneKeys := n :: s.doneKeys } k + (g.successors n).count k := by
        intro k
        rw [h.successors n]
        exact left_done hnotDone k
      have hle : ∀ k ∈ g.successors n, ((g.successors n).count k : Int) ≤ g₁.npredecessors k := by
        intro k hk
        rw [hcounts k hk, hleft k]
        omega
      obtain ⟨new, hnew, hnodup, hmem, hcount⟩ := Graphlib.TopologicalSorter.foldl_decrement (g := g₁) h.graphlibReady hle
      obtain ⟨hnodes', hsucc', hpassed', hfinished'⟩ := Graphlib.TopologicalSorter.foldl_decrement_frame (g.successors n) g₁
      obtain rfl := Except.ok.inj hdone
      -- the nodes that become ready are those whose count is all that is left
      have hmemNew : ∀ k, k ∈ new ↔ k ∈ s.keys ∧ s.zeroDegree k = false ∧
          zeroDegree { s with doneKeys := n :: s.doneKeys } k = true := by
        intro k
        rw [hmem, zeroDegree_iff]
        constructor
        · rintro ⟨hk, heq⟩
          rw [hcounts k hk] at heq
          have := hleft k
          exact ⟨(hwait k hk).1, (hwait k hk).2.1, by omega⟩
        · rintro ⟨hkey, hzero, hzero'⟩
          have hpos : s.left k ≠ 0 := fun heq => by
            rw [← zeroDegree_iff, hzero] at heq
            cases heq
          have := hleft k
          have hk : k ∈ g.successors n := List.count_pos_iff.mp (by omega)
          exact ⟨hk, by rw [hcounts k hk]; omega⟩
      have hmono : ∀ {k}, s.zeroDegree k = true → zeroDegree { s with doneKeys := n :: s.doneKeys } k = true :=
        zeroDegree_of_subset (s := s) (t := { s with doneKeys := n :: s.doneKeys }) rfl fun _ hx => List.mem_cons_of_mem _ hx
      refine ⟨gready ++ new, ⟨?_, h.nodup, h.closed, ?_⟩, h.sorterReady, hnew, h.readyNodup, ?_, ?_, h.readyVisited, ?_,
        h.visitedNodup, ?_, ?_, h.nVisited, ?_, ?_⟩
      · exact hnodes'.trans h.nodes
      · intro p
        exact (congrFun hsucc' p).trans (h.successors p)
      · refine List.nodup_append.mpr ⟨h.greadyNodup, hnodup, ?_⟩
        rintro a ha b hb rfl
        obtain ⟨hkey, hzero, -⟩ := (hmemNew a).mp hb
        rcases (h.mem_gready a).mp ha with hready | ⟨-, hzero', -⟩
        · exact Bool.false_ne_true (hzero.symm.trans (h.visited a (h.readyVisited a hready)).2)
        · exact Bool.false_ne_true (hzero.symm.trans hzero')
      · intro k
        rw [List.mem_append, h.mem_gready, hmemNew, or_assoc]
        refine or_congr_right ⟨?_, ?_⟩
        · rintro (⟨hkey, hzero, hnot⟩ | ⟨hkey, hzero, hzero'⟩)
          · exact ⟨hkey, hmono hzero, hnot⟩
          · refine ⟨hkey, hzero', fun hk => ?_⟩
            exact Bool.false_ne_true (hzero.symm.trans (h.visited k hk).2)
        · rintro ⟨hkey, hzero', hnot⟩
          cases hzero : s.zeroDegree k with
          | true => exact .inl ⟨hkey, rfl, hnot⟩
          | false => exact .inr ⟨hkey, rfl, hzero'⟩
      · exact fun k hk => ⟨(h.visited k hk).1, hmono (h.visited k hk).2⟩
      · intro k hk
        rcases List.mem_cons.mp hk with rfl | hk
        · exact ⟨hvisited, hnotReady⟩
        · exact h.doneOut k hk
      · intro k hkey
        refine (hcount k).trans ?_
        by_cases hkn : k = n
        · subst hkn
          have hzero : (g.successors k).count k = 0 := List.count_eq_zero.mpr fun hmem => (hwait k hmem).2.2.1 hvisited
          rw [if_pos List.mem_cons_self, hzero]
          change Function.update g.npredecessors k Graphlib.nodeDone k - _ = _
          rw [Function.update_self]
          rfl
        · have hmemDone : k ∈ n :: s.doneKeys ↔ k ∈ s.doneKeys := by
            rw [List.mem_cons, or_iff_right hkn]
          by_cases hk : k ∈ g.successors n
          · obtain ⟨-, -, hnotVisited, hnotDone'⟩ := hwait k hk
            have := hleft k
            rw [hcounts k hk, if_neg (fun hd => hnotDone' (hmemDone.mp hd)), if_neg (fun hv => hnotVisited hv.1)]
            omega
          · have hzero : (g.successors n).count k = 0 := List.count_eq_zero.mpr hk
            have hsame := hleft k
            rw [hzero, Nat.add_zero] at hsame
            rw [hzero, ← hsame]
            change Function.update g.npredecessors n Graphlib.nodeDone k - _ = _
            rw [Function.update_of_ne hkn, h.npredecessors k hkey]
            simp only [hmemDone, Int.ofNat_zero, Int.sub_zero]
      · exact (congrArg (· + ready.length) hpassed').trans h.npassedout
      · exact (congrArg (· + 1) hfinished').trans (congrArg (· + 1) h.nfinished)

theorem Running.doneNodes (h : Running s g ready gready) {nodes out : List K}
    (hdone : Graphlib.TopologicalSorter.doneNodes nodes g = (.ok out, g')) :
    out = [] ∧ ∃ s' gready', s.maskDone nodes = (.ok (), s') ∧ Running s' g' ready gready' ∧ s'.nDone = s.nDone ∧
      s'.doneKeys.length = s.doneKeys.length + nodes.length := by
  induction nodes generalizing s g gready with
  | nil =>
    obtain ⟨hout, rfl⟩ := Prod.mk.inj hdone
    exact ⟨(Except.ok.inj hout).symm, s, gready, rfl, h, rfl, rfl⟩
  | cons n nodes ih =>
    rw [Graphlib.TopologicalSorter.doneNodes] at hdone
    cases hnode : g.doneNode n with
    | error e =>
      rw [hnode] at hdone
      cases (Prod.mk.inj hdone).1
    | ok g₁ =>
      rw [hnode] at hdone
      obtain ⟨hkey, hvisited, hnotDone, gready₁, hrun⟩ := h.doneNode hnode
      obtain ⟨hout, s', gready', hmask, hrun', hnDone, hlength⟩ := ih hrun hdone
      have hguard : ¬(n ∉ s.keys ∨ n ∉ s.visited ∨ n ∈ s.doneKeys) := by tauto
      refine ⟨hout, s', gready', ?_, hrun', hnDone, ?_⟩
      · rw [maskDone, if_neg hguard]
        exact hmask
      · rw [hlength, List.length_cons, List.length_cons]
        omega

/-- `release` visits all that has come to degree zero. -/
theorem Running.release (h : Running s g ready gready) (n : Nat) (hn : n = s.doneKeys.length) :
    Running (TopologicalSorter.release { s with nDone := n }) g (ready ++ s.getZeroDegreeKeys) gready ∧
      Settled (TopologicalSorter.release { s with nDone := n }) := by
  have hnew := fun k => mem_getZeroDegreeKeys (fun k hk => (h.visited k hk).2) (k := k)
  have hfresh : ∀ k ∈ s.getZeroDegreeKeys, k ∉ s.visited := fun k hk => ((hnew k).mp hk).2.2
  refine ⟨⟨⟨h.nodes, h.nodup, h.closed, h.successors⟩, ?_, h.graphlibReady, ?_, h.greadyNodup, ?_, ?_, ?_, ?_, ?_, ?_, ?_,
    ?_, h.nfinished⟩, ?_, hn⟩
  · change some (s.readyNodes.getD [] ++ s.getZeroDegreeKeys) = _
    rw [h.sorterReady]
    rfl
  · refine List.nodup_append.mpr ⟨h.readyNodup, h.nodup.filter _, ?_⟩
    rintro a ha b hb rfl
    exact hfresh a hb (h.readyVisited a ha)
  · intro k
    change _ ↔ _ ∨ k ∈ s.keys ∧ s.zeroDegree k = true ∧ k ∉ s.visited ++ s.getZeroDegreeKeys
    rw [h.mem_gready, List.mem_append, List.mem_append, hnew]
    tauto
  · intro k hk
    exact List.mem_append.mpr ((List.mem_append.mp hk).imp_left (h.readyVisited k))
  · intro k hk
    rcases List.mem_append.mp hk with hk | hk
    · exact h.visited k hk
    · exact ⟨((hnew k).mp hk).1, ((hnew k).mp hk).2.1⟩
  · refine List.nodup_append.mpr ⟨h.visitedNodup, h.nodup.filter _, ?_⟩
    rintro a ha b hb rfl
    exact hfresh a hb ha
  · intro k hk
    obtain ⟨hvisited, hnotReady⟩ := h.doneOut k hk
    refine ⟨List.mem_append_left _ hvisited, fun hmem => ?_⟩
    exact (List.mem_append.mp hmem).elim hnotReady fun hk => hfresh k hk hvisited
  · intro k hkey
    have hout : (k ∈ s.visited ++ s.getZeroDegreeKeys ∧ k ∉ ready ++ s.getZeroDegreeKeys) ↔ k ∈ s.visited ∧ k ∉ ready := by
      rw [List.mem_append, List.mem_append]
      have := hfresh k
      tauto
    rw [h.npredecessors k hkey]
    change _ = if k ∈ s.doneKeys then _ else if k ∈ s.visited ++ s.getZeroDegreeKeys ∧ _ then _ else _
    simp only [hout]
    rfl
  · change s.nVisited + s.getZeroDegreeKeys.length = (s.visited ++ s.getZeroDegreeKeys).length
    rw [h.nVisited, List.length_append]
  · change _ = (s.visited ++ s.getZeroDegreeKeys).length
    rw [List.length_append, List.length_append, ← h.npassedout]
    omega
  · intro k hkey hzero
    by_cases hv : k ∈ s.visited
    · exact List.mem_append_left _ hv
    · exact List.mem_append_right _ ((hnew k).mpr ⟨hkey, hzero, hv⟩)

end Done

section Calls

theorem nodup_addKey {ks : List K} (h : ks.Nodup) (k : K) : (addKey ks k).Nodup := by
  unfold addKey
  split
  · exact h
  · next hk => exact List.nodup_append.mpr ⟨h, List.nodup_singleton k, fun a ha b hb heq => hk (by simp_all)⟩

theorem nodup_foldl_addKey {ps ks : List K} (h : ks.Nodup) : (ps.foldl addKey ks).Nodup := by
  induction ps generalizing ks with
  | nil => exact h
  | cons p ps ih => exact ih (nodup_addKey h p)

theorem foldl_addSuccessor (n : K) (ps : List K) (successors : K → List K) (p : K) :
    ps.foldl (Graphlib.TopologicalSorter.addSuccessor n) successors p =
      successors p ++ ((ps.map fun q => (n, q)).filter fun e => e.2 = p).map Prod.fst := by
  induction ps generalizing successors with
  | nil => simp
  | cons q ps ih =>
    rw [List.foldl_cons, ih, Graphlib.TopologicalSorter.addSuccessor, Function.update_apply, List.map_cons, List.filter_cons]
    by_cases hq : p = q
    · simp [hq]
    · have hne : ¬ q = p := fun heq => hq heq.symm
      simp [hq, hne]

theorem Setup.add (h : Setup s g) (entry : K × List K) :
    ∃ g', g.add entry.1 entry.2 = (.ok [], g') ∧ Setup (s.mergeGraph [entry]).2 g' := by
  have hg : ¬ g.readyNodes.isSome = true := by
    rw [h.graphlibReady]
    exact Bool.false_ne_true
  have hs : ¬ s.readyNodes.isSome = true := by
    rw [h.sorterReady]
    exact Bool.false_ne_true
  obtain ⟨n, ps⟩ := entry
  rw [Graphlib.TopologicalSorter.add, if_neg hg, mergeGraph, if_neg hs]
  refine ⟨_, rfl, ⟨?_, ?_, ?_, ?_⟩, h.sorterReady, h.graphlibReady, ?_, h.nDone, h.nVisited, h.npassedout, h.nfinished⟩
  · exact congrArg (addKeys · (n, ps)) h.nodes
  · exact nodup_foldl_addKey (nodup_addKey h.nodup n)
  · rintro ⟨a, b⟩ hmem
    change a ∈ addKeys s.keys (n, ps) ∧ b ∈ addKeys s.keys (n, ps)
    rw [mem_addKeys, mem_addKeys]
    rcases List.mem_append.mp hmem with hmem | hmem
    · exact ⟨.inl (h.closed _ hmem).1, .inl (h.closed _ hmem).2⟩
    · rw [List.flatMap_singleton] at hmem
      obtain ⟨q, hq, heq⟩ := List.mem_map.mp hmem
      obtain ⟨rfl, rfl⟩ := Prod.mk.inj heq
      exact ⟨.inr (.inl rfl), .inr (.inr hq)⟩
  · intro p
    refine (foldl_addSuccessor n ps g.successors p).trans ?_
    rw [h.successors, List.flatMap_singleton, List.filter_append, List.map_append]
  · intro k
    change Function.update g.npredecessors n (g.npredecessors n + ps.length) k = _
    rw [Function.update_apply, List.flatMap_singleton, List.countP_append, List.countP_map]
    split
    · next hk =>
      subst hk
      rw [h.npredecessors]
      simp [Function.comp_def]
    · next hk =>
      have hne : ¬ n = k := fun heq => hk heq.symm
      rw [h.npredecessors]
      simp [Function.comp_def, hne]

theorem mergeGraph_cons (hready : s.readyNodes = none) (entry : K × List K) (graph : List (K × List K)) :
    s.mergeGraph (entry :: graph) = (s.mergeGraph [entry]).2.mergeGraph graph := by
  simp [mergeGraph, hready]

theorem Setup.mergeGraph (h : Setup s g) (graph : List (K × List K)) :
    ∃ g', Graphlib.TopologicalSorter.mergeGraph graph g = (.ok [], g') ∧
      (s.mergeGraph graph).1 = .ok () ∧ Setup (s.mergeGraph graph).2 g' := by
  induction graph generalizing s g with
  | nil =>
    have hs : s.mergeGraph [] = (.ok (), s) := by
      rw [TopologicalSorter.mergeGraph, h.sorterReady, if_neg (by simp), List.flatMap_nil, List.append_nil, List.foldl_nil,
        ← h.sorterReady]
    rw [hs, Graphlib.TopologicalSorter.mergeGraph, h.graphlibReady]
    exact ⟨g, rfl, rfl, h⟩
  | cons entry graph ih =>
    obtain ⟨g₁, hadd, hsetup⟩ := h.add entry
    rw [mergeGraph_cons h.sorterReady, Graphlib.TopologicalSorter.mergeGraph, hadd]
    exact ih hsetup

/-- Without finished nodes all the predecessors are left. -/
theorem left_of_doneKeys_nil {k : K} (h : s.doneKeys = []) : s.left k = s.matrix.countP fun e => e.1 = k := by
  rw [left, h]
  simp

theorem Setup.prepare (h : Setup s g) :
    ∃ ready gready, Running s.prepare.2 g.prepare.2 ready gready ∧ Settled s.prepare.2 := by
  have hg : ¬ g.readyNodes.isSome = true := by
    rw [h.graphlibReady]
    exact Bool.false_ne_true
  set t : TopologicalSorter K := { s with doneKeys := [], visited := [], readyNodes := some [] } with ht
  have hleft : ∀ k, (t.left k : Int) = g.npredecessors k := fun k => by rw [h.npredecessors, left_of_doneKeys_nil rfl]
  -- nothing is visited yet, and the nodes of degree zero are about to be
  have hrun : Running t g.prepare.2 [] (g.nodes.filter fun node => g.npredecessors node = 0) := by
    rw [Graphlib.TopologicalSorter.prepare, if_neg hg]
    refine ⟨⟨h.nodes, h.nodup, h.closed, h.successors⟩, rfl, rfl, List.nodup_nil, ?_, ?_, ?_, ?_, List.nodup_nil, ?_, ?_,
      h.nVisited, h.npassedout, h.nfinished⟩
    · rw [h.nodes]
      exact h.nodup.filter _
    · intro k
      rw [List.mem_filter, h.nodes, zeroDegree_iff, decide_eq_true_eq, ← hleft]
      simp [ht]
    · exact fun k hk => absurd hk List.not_mem_nil
    · exact fun k hk => absurd hk List.not_mem_nil
    · exact fun k hk => absurd hk List.not_mem_nil
    · intro k _
      rw [hleft]
      simp [ht]
  have hprepare : s.prepare.2 = TopologicalSorter.release { t with nDone := s.nDone } := by
    rw [prepare_eq h.sorterReady]
    simp only [TopologicalSorter.release, h.sorterReady, ht]
    rfl
  rw [hprepare]
  exact ⟨_, _, hrun.release s.nDone h.nDone⟩

theorem Running.perm (h : Running s g ready gready) (hsettled : Settled s) : gready.Perm ready := by
  refine (List.perm_ext_iff_of_nodup h.greadyNodup h.readyNodup).mpr fun k => ?_
  rw [h.mem_gready]
  refine or_iff_left ?_
  rintro ⟨hkey, hzero, hnot⟩
  exact hnot (hsettled.visited k hkey hzero)

theorem Running.getReady (h : Running s g ready gready) (hsettled : Settled s) :
    Running s.getReady.2 g.getReady.2 [] [] ∧ Settled s.getReady.2 := by
  have hmem : ∀ k, k ∈ gready ↔ k ∈ ready := fun k => (h.perm hsettled).mem_iff
  rw [TopologicalSorter.getReady, h.sorterReady, Graphlib.TopologicalSorter.getReady, h.graphlibReady]
  refine ⟨⟨⟨h.nodes, h.nodup, h.closed, h.successors⟩, rfl, rfl, List.nodup_nil, List.nodup_nil, ?_, ?_, h.visited,
    h.visitedNodup, ?_, ?_, h.nVisited, ?_, h.nfinished⟩, ?_, hsettled.nDone⟩
  · intro k
    simp only [List.not_mem_nil, false_or, false_iff]
    rintro ⟨hkey, hzero, hnot⟩
    exact hnot (hsettled.visited k hkey hzero)
  · exact fun k hk => absurd hk List.not_mem_nil
  · exact fun k hk => ⟨(h.doneOut k hk).1, List.not_mem_nil⟩
  · intro k hkey
    simp only [hmem, List.not_mem_nil, not_false_eq_true, and_true]
    by_cases hready : k ∈ ready
    · have hdone : k ∉ s.doneKeys := fun hd => (h.doneOut k hd).2 hready
      rw [if_pos hready, if_neg hdone, if_pos (h.readyVisited k hready)]
    · rw [if_neg hready, h.npredecessors k hkey]
      simp only [hready, not_false_eq_true, and_true]
      rfl
  · change g.npassedout + gready.length + 0 = _
    rw [(h.perm hsettled).length_eq]
    exact h.npassedout
  · exact hsettled.visited

theorem Running.isActive (h : Running s g ready gready) (hsettled : Settled s) : s.isActive = g.isActive := by
  have hlength := (h.perm hsettled).length_eq
  rw [TopologicalSorter.isActive, Graphlib.TopologicalSorter.isActive, h.sorterReady, h.graphlibReady, hsettled.nDone,
    h.nVisited, ← h.npassedout, h.nfinished]
  cases ready with
  | nil =>
    have hnil : gready = [] := List.length_eq_zero_iff.mp hlength
    rw [hnil]
    rfl
  | cons k ks =>
    have hne : gready ≠ [] := fun heq => by
      rw [heq] at hlength
      cases hlength
    obtain ⟨k', ks', rfl⟩ := List.exists_cons_of_ne_nil hne
    simp

theorem SameGraph.hasCycle_iff (h : SameGraph s g) : s.hasCycle = true ↔ g.HasCycle := by
  have hedge : g.Edge = fun x y => (x, y) ∈ s.matrix := by
    funext x y
    exact propext (mem_successors h)
  rw [TopologicalSorter.hasCycle_iff h.closed, Graphlib.TopologicalSorter.HasCycle, hedge]

theorem Setup.prepare_cycleError (h : Setup s g) : s.prepare.1 = .error .cycleError ↔ g.HasCycle := by
  rw [← h.toSameGraph.hasCycle_iff, prepare_eq h.sorterReady]
  dsimp only
  split
  · next hcycle => simp [hcycle]
  · next hcycle => simp [hcycle]

/-- The two sorters between two calls. -/
def Agrees (s : TopologicalSorter K) (g : Graphlib.TopologicalSorter K) : Prop :=
  Setup s g ∨ ∃ ready gready, Running s g ready gready ∧ Settled s

theorem agrees_empty : Agrees (empty : TopologicalSorter K) Graphlib.TopologicalSorter.empty := by
  refine .inl ⟨⟨rfl, List.nodup_nil, fun e he => absurd he List.not_mem_nil, fun _ => rfl⟩, rfl, rfl, fun _ => rfl, rfl, rfl,
    rfl, rfl⟩

theorem Running.done (h : Running s g ready gready) (hsettled : Settled s) {nodes out : List K} (hdone : g.done nodes = (.ok out, g')) :
    out = [] ∧ (s.done nodes).1 = .ok () ∧ Agrees (s.done nodes).2 g' := by
  rw [Graphlib.TopologicalSorter.done, h.graphlibReady, if_neg (by simp)] at hdone
  obtain ⟨hout, s', gready', hmask, hrun, hnDone, hlength⟩ := h.doneNodes hdone
  rw [TopologicalSorter.done, h.sorterReady, if_neg (by simp), hmask]
  have hcount : s'.nDone + nodes.length = s'.doneKeys.length := by rw [hnDone, hsettled.nDone, hlength]
  exact ⟨hout, rfl, .inr ⟨_, _, hrun.release _ hcount⟩⟩

theorem Running.mergeGraph_error (h : Running s g ready gready) (graph : List (K × List K)) :
    Graphlib.TopologicalSorter.mergeGraph graph g = (.error .valueError, g) := by
  cases graph with
  | nil => rw [Graphlib.TopologicalSorter.mergeGraph, h.graphlibReady, if_pos (by rfl)]
  | cons entry graph =>
    rw [Graphlib.TopologicalSorter.mergeGraph, Graphlib.TopologicalSorter.add, h.graphlibReady, if_pos (by rfl)]

theorem Agrees.call (h : Agrees s g) {c : SorterCall K} {out : List K} (hcall : g.call c = (.ok out, g')) :
    ∃ out' s', s.call c = (.ok out', s') ∧ out.Perm out' ∧ out'.Nodup ∧ Agrees s' g' := by
  rcases h with h | ⟨ready, gready, h, hsettled⟩
  · cases c with
    | add node predecessors =>
      obtain ⟨g₁, hadd, hsetup⟩ := h.add (node, predecessors)
      obtain ⟨hout, rfl⟩ := Prod.mk.inj (hadd.symm.trans hcall)
      obtain rfl := Except.ok.inj hout
      obtain ⟨-, -, hok, -⟩ := h.mergeGraph [(node, predecessors)]
      refine ⟨[], (s.mergeGraph [(node, predecessors)]).2, ?_, .refl _, List.nodup_nil, .inl hsetup⟩
      simp only [TopologicalSorter.call, hok]
      rfl
    | mergeGraph graph =>
      obtain ⟨g₁, hmerge, hok, hsetup⟩ := h.mergeGraph graph
      obtain ⟨hout, rfl⟩ := Prod.mk.inj (hmerge.symm.trans hcall)
      obtain rfl := Except.ok.inj hout
      refine ⟨[], (s.mergeGraph graph).2, ?_, .refl _, List.nodup_nil, .inl hsetup⟩
      simp only [TopologicalSorter.call, hok]
      rfl
    | prepare =>
      obtain ⟨ready, gready, hrun, hsettled⟩ := h.prepare
      change g.prepare = _ at hcall
      rw [hcall] at hrun
      have hacyclic : ¬ s.hasCycle = true := by
        intro hcycle
        rw [Graphlib.TopologicalSorter.prepare, h.graphlibReady, if_neg (by simp), if_pos (h.hasCycle_iff.mp hcycle)] at hcall
        cases (Prod.mk.inj hcall).1
      have hout : out = [] := by
        rw [Graphlib.TopologicalSorter.prepare, h.graphlibReady, if_neg (by simp),
          if_neg (fun hcycle => hacyclic (h.hasCycle_iff.mpr hcycle))] at hcall
        exact (Except.ok.inj (Prod.mk.inj hcall).1).symm
      subst hout
      refine ⟨[], s.prepare.2, ?_, .refl _, List.nodup_nil, .inr ⟨ready, gready, hrun, hsettled⟩⟩
      rw [TopologicalSorter.call, prepare_eq h.sorterReady, if_neg hacyclic]
      rfl
    | getReady =>
      rw [Graphlib.TopologicalSorter.call, Graphlib.TopologicalSorter.getReady, h.graphlibReady] at hcall
      cases (Prod.mk.inj hcall).1
    | done nodes =>
      rw [Graphlib.TopologicalSorter.call, Graphlib.TopologicalSorter.done, h.graphlibReady] at hcall
      cases (Prod.mk.inj hcall).1
  · cases c with
    | add node predecessors =>
      rw [Graphlib.TopologicalSorter.call, Graphlib.TopologicalSorter.add, h.graphlibReady] at hcall
      cases (Prod.mk.inj hcall).1
    | mergeGraph graph =>
      rw [Graphlib.TopologicalSorter.call, h.mergeGraph_error] at hcall
      cases (Prod.mk.inj hcall).1
    | prepare =>
      rw [Graphlib.TopologicalSorter.call, Graphlib.TopologicalSorter.prepare, h.graphlibReady] at hcall
      cases (Prod.mk.inj hcall).1
    | getReady =>
      have hnext := h.getReady hsettled
      change g.getReady = _ at hcall
      rw [hcall] at hnext
      refine ⟨ready, s.getReady.2, ?_, ?_, h.readyNodup, .inr ⟨[], [], hnext⟩⟩
      · rw [TopologicalSorter.call, TopologicalSorter.getReady, h.sorterReady]
      · rw [Graphlib.TopologicalSorter.getReady, h.graphlibReady] at hcall
        rw [← Except.ok.inj (Prod.mk.inj hcall).1]
        exact h.perm hsettled
    | done nodes =>
      obtain ⟨rfl, hok, hagrees⟩ := h.done hsettled hcall
      refine ⟨[], (s.done nodes).2, ?_, .refl _, List.nodup_nil, hagrees⟩
      simp only [TopologicalSorter.call, hok]
      rfl

theorem Agrees.runCalls (h : Agrees s g) {calls : List (SorterCall K)} {outs : List (List K)}
    (hrun : runCalls Graphlib.TopologicalSorter.call calls g = some (outs, g')) :
    ∃ outs' s', Scaler.runCalls TopologicalSorter.call calls s = some (outs', s') ∧
      List.Forall₂ (fun out out' => out.Perm out' ∧ out'.Nodup) outs outs' ∧ Agrees s' g' := by
  induction calls generalizing s g outs with
  | nil =>
    obtain ⟨rfl, rfl⟩ := Prod.mk.inj (Option.some.inj hrun)
    exact ⟨[], s, rfl, .nil, h⟩
  | cons c calls ih =>
    rw [Scaler.runCalls] at hrun
    rcases hcall : g.call c with ⟨result, g₁⟩
    rw [hcall] at hrun
    cases result with
    | error e => cases hrun
    | ok out =>
      obtain ⟨⟨outs₁, g₂⟩, hrest, heq⟩ := Option.map_eq_some_iff.mp hrun
      obtain ⟨rfl, rfl⟩ := Prod.mk.inj heq
      obtain ⟨out', s₁, hsorter, hperm, hnodup, hagrees⟩ := h.call hcall
      obtain ⟨outs', s', hruns, hforall, hagrees'⟩ := ih hagrees hrest
      refine ⟨out' :: outs', s', ?_, .cons ⟨hperm, hnodup⟩ hforall, hagrees'⟩
      rw [Scaler.runCalls, hsorter]
      dsimp only
      rw [hruns]
      rfl

end Calls

/-- For every mapping, in one or several calls, and every run of calls that the standard library accepts:
the same calls return here, what is ready is the same set of nodes without repeats, the two are active
together, and before `prepare` a cycle is reported exactly if there is one; without one, `static_order`
is a topological order of all the nodes. -/
theorem agrees_with_graphlib {calls : List (SorterCall K)} {outs : List (List K)} {g : Graphlib.TopologicalSorter K}
    (hrun : runCalls Graphlib.TopologicalSorter.call calls Graphlib.TopologicalSorter.empty = some (outs, g)) :
    ∃ outs' s, runCalls TopologicalSorter.call calls empty = some (outs', s) ∧
      List.Forall₂ (fun out out' => out.Perm out' ∧ out'.Nodup) outs outs' ∧
      (g.readyNodes.isSome = true → s.readyNodes.isSome = true ∧ s.isActive = g.isActive) ∧
      (g.readyNodes = none →
        (s.prepare.1 = .error .cycleError ↔ g.HasCycle) ∧
        (¬ g.HasCycle → ∀ fuel, g.nodes.length < fuel → ∃ order, s.staticOrder fuel = some order ∧ order.Perm g.nodes ∧
          ∀ node predecessor, g.Edge node predecessor → order.idxOf predecessor < order.idxOf node)) := by
  obtain ⟨outs', s, hsorter, hforall, hagrees⟩ := agrees_empty.runCalls hrun
  refine ⟨outs', s, hsorter, hforall, ?_, ?_⟩
  · intro hsome
    rcases hagrees with h | ⟨ready, gready, h, hsettled⟩
    · rw [h.graphlibReady] at hsome
      cases hsome
    · refine ⟨?_, h.isActive hsettled⟩
      rw [h.sorterReady]
      rfl
  · intro hnone
    rcases hagrees with h | ⟨ready, gready, h, hsettled⟩
    · refine ⟨h.prepare_cycleError, fun hacyclic fuel hfuel => ?_⟩
      have hcycle : s.hasCycle = false := Bool.eq_false_iff.mpr fun hcycle => hacyclic (h.hasCycle_iff.mp hcycle)
      rw [h.nodes] at hfuel
      obtain ⟨order, horder, hperm, hbefore⟩ :=
        staticOrder_topological h.sorterReady h.nVisited h.nDone h.nodup h.closed hcycle hfuel
      refine ⟨order, horder, h.nodes ▸ hperm, fun node predecessor hedge => ?_⟩
      exact hbefore node predecessor ((mem_successors h.toSameGraph).mp hedge)
    · rw [h.graphlibReady] at hnone
      cases hnone

/-- A diamond with a repeated predecessor, in two calls. -/
def diamond : List (SorterCall (Fin 4)) := [.add 1 [0, 0], .mergeGraph [(2, [0]), (3, [1, 2])]]

/-- A run over it that is not finished. -/
def diamondRun : List (SorterCall (Fin 4)) :=
  [.prepare, .getReady, .done [0], .getReady, .done [2], .done [1], .getReady]

def diamondGraph : Graphlib.TopologicalSorter (Fin 4) :=
  (Graphlib.TopologicalSorter.mergeGraph [(1, [0, 0]), (2, [0]), (3, [1, 2])] Graphlib.TopologicalSorter.empty).2

theorem acyclic_diamondGraph : ¬ diamondGraph.HasCycle := by
  have hless : ∀ a b : Fin 4, diamondGraph.Edge a b → b < a := by
    unfold Graphlib.TopologicalSorter.Edge
    decide
  rintro ⟨a, hpath⟩
  have hlt : ∀ {b}, Relation.TransGen diamondGraph.Edge a b → b < a := by
    intro b hb
    induction hb with
    | single h => exact hless _ _ h
    | tail _ h ih => exact Fin.lt_trans (hless _ _ h) ih
  exact Fin.lt_irrefl a (hlt hpath)

theorem runCalls_diamond :
    runCalls Graphlib.TopologicalSorter.call diamond Graphlib.TopologicalSorter.empty =
      some ([[], []], diamondGraph) := rfl

theorem runCalls_diamondRun :
    ∃ g, runCalls Graphlib.TopologicalSorter.call (diamond ++ diamondRun) Graphlib.TopologicalSorter.empty =
      some ([[], [], [], [0], [], [1, 2], [], [], [3]], g) ∧ g.readyNodes.isSome = true ∧ g.isActive = true := by
  have hprepare : diamondGraph.call .prepare = (.ok [], { diamondGraph with readyNodes := some [0] }) := by
    change diamondGraph.prepare = _
    rw [Graphlib.TopologicalSorter.prepare, if_neg (by decide), if_neg acyclic_diamondGraph]
    rfl
  obtain ⟨g, hrun, hg⟩ : ∃ g, runCalls Graphlib.TopologicalSorter.call diamondRun diamondGraph =
      some ([[], [0], [], [1, 2], [], [], [3]], g) ∧ g.readyNodes.isSome = true ∧ g.isActive = true := by
    rw [diamondRun, runCalls, hprepare]
    exact ⟨_, rfl, rfl, rfl⟩
  refine ⟨g, ?_, hg⟩
  change Option.map _ (Option.map _ (runCalls _ diamondRun diamondGraph)) = _
  rw [hrun]
  rfl

theorem agrees_with_graphlib_diamond :
    (∃ outs s, runCalls TopologicalSorter.call (diamond ++ diamondRun) empty = some (outs, s) ∧
      List.Forall₂ (fun out out' => out.Perm out' ∧ out'.Nodup) [[], [], [], [0], [], [1, 2], [], [], [3]] outs ∧
      s.isActive = true) ∧
    ∃ outs s, runCalls TopologicalSorter.call diamond empty = some (outs, s) ∧
      s.prepare.1 ≠ .error .cycleError ∧
      ∃ order, s.staticOrder 5 = some order ∧ order.Perm diamondGraph.nodes ∧ order.idxOf 0 < order.idxOf 1 ∧
        order.idxOf 2 < order.idxOf 3 := by
  constructor
  · obtain ⟨g, hrun, hsome, hactive⟩ := runCalls_diamondRun
    obtain ⟨outs, s, hsorter, hforall, hsame, -⟩ := agrees_with_graphlib hrun
    exact ⟨outs, s, hsorter, hforall, (hsame hsome).2.trans hactive⟩
  · obtain ⟨outs, s, hsorter, -, -, hunprepared⟩ := agrees_with_graphlib runCalls_diamond
    obtain ⟨hcycle, hstatic⟩ := hunprepared rfl
    obtain ⟨order, horder, hperm, hbefore⟩ := hstatic acyclic_diamondGraph 5 (by decide)
    refine ⟨outs, s, hsorter, fun h => acyclic_diamondGraph (hcycle.mp h), order, horder, hperm, ?_, ?_⟩
    · exact hbefore 1 0 (by unfold Graphlib.TopologicalSorter.Edge; decide)
    · exact hbefore 3 2 (by unfold Graphlib.TopologicalSorter.Edge; decide)

end TopologicalSorter

end Scaler
