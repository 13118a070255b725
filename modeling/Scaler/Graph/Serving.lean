import Scaler.Graph.Issuing

/-! A sorter that several callers use: what one call of `get_ready` or `done` leaves as it is for the others,
also when it raises. -/

namespace Scaler.TopologicalSorter

variable {K : Type} [DecidableEq K] {s s' : TopologicalSorter K}

/-- `prepare` was called, and no node is ready twice. -/
structure Serving (s : TopologicalSorter K) : Prop where
  issuing : Issuing s
  prepared : s.readyNodes.isSome
  readyNodup : (s.readyNodes.getD []).Nodup

/-- Some `get_ready` returned the node. -/
def Handed (s : TopologicalSorter K) (k : K) : Prop := k ∈ s.visited ∧ k ∉ s.readyNodes.getD []

instance (k : K) : Decidable (s.Handed k) := inferInstanceAs (Decidable (_ ∧ _))

/-- The second sorter is what calls made of the first. -/
structure Onward (s s' : TopologicalSorter K) : Prop where
  keys : s'.keys = s.keys
  doneKeys : ∀ k ∈ s.doneKeys, k ∈ s'.doneKeys
  handed : Serving s → ∀ k, s.Handed k → s'.Handed k
  serving : Serving s → Serving s'

theorem Onward.refl (s : TopologicalSorter K) : Onward s s := ⟨rfl, fun _ hk => hk, fun _ _ hk => hk, id⟩

theorem Onward.trans {s'' : TopologicalSorter K} (h : Onward s s') (h' : Onward s' s'') : Onward s s'' where
  keys := h'.keys.trans h.keys
  doneKeys k hk := h'.doneKeys k (h.doneKeys k hk)
  handed hs k hk := h'.handed (h.serving hs) k (h.handed hs k hk)
  serving hs := h'.serving (h.serving hs)

theorem getReady_onward {x : Except Exn (List K)} (h : s.getReady = (x, s')) :
    Onward s s' ∧ ∀ ready, x = .ok ready → ready = s.readyNodes.getD [] ∧ (Serving s → ∀ k ∈ ready, s'.Handed k) := by
  rw [getReady] at h
  split at h
  · obtain ⟨rfl, rfl⟩ := Prod.mk.inj h.symm
    refine ⟨.refl _, fun ready hok => ?_⟩
    cases hok
  · next ready hsome =>
    obtain ⟨rfl, rfl⟩ := Prod.mk.inj h.symm
    have hready : s.readyNodes.getD [] = ready := by rw [hsome, Option.getD_some]
    refine ⟨⟨rfl, fun _ hk => hk, fun _ k hk => ⟨hk.1, List.not_mem_nil⟩, fun hs => ⟨?_, rfl, List.nodup_nil⟩⟩, ?_⟩
    · exact { hs.issuing with ready := fun k hk => absurd hk List.not_mem_nil }
    · intro ready' hok
      obtain rfl := Except.ok.inj hok
      refine ⟨hready.symm, fun hs k hk => ⟨hs.issuing.ready k (hready ▸ hk), List.not_mem_nil⟩⟩

theorem done_onward {k : K} {x : Except Exn Unit} (h : s.done [k] = (x, s')) :
    Onward s s' ∧ (x = .ok () → k ∉ s.doneKeys ∧ k ∈ s'.doneKeys) := by
  have hraised : ∀ e : Exn, Except.error e = (.ok () : Except Exn Unit) → k ∉ s.doneKeys ∧ k ∈ s.doneKeys := by
    intro e hok
    cases hok
  rw [done] at h
  split at h
  · obtain ⟨rfl, rfl⟩ := Prod.mk.inj h
    exact ⟨.refl _, hraised _⟩
  · next hprepared =>
    by_cases hbad : k ∉ s.keys ∨ k ∉ s.visited ∨ k ∈ s.doneKeys
    · rw [maskDone, if_pos hbad] at h
      obtain ⟨rfl, rfl⟩ := Prod.mk.inj h
      exact ⟨.refl s, hraised _⟩
    · rw [maskDone, if_neg hbad, maskDone] at h
      obtain ⟨rfl, rfl⟩ := Prod.mk.inj h
      push Not at hbad
      obtain ⟨-, hvisited, hdone⟩ := hbad
      have hsome : s.readyNodes.isSome := by
        rw [Option.isSome_iff_ne_none]
        simpa using hprepared
      have hnew : Serving s → ∀ y ∈ { s with doneKeys := k :: s.doneKeys, nDone := s.nDone + 1 }.getZeroDegreeKeys, y ∉ s.visited := by
        intro hs y hy
        refine ((mem_getZeroDegreeKeys fun z hz => ?_).mp hy).2.2
        exact zeroDegree_of_subset (s := s) (t := { s with doneKeys := k :: s.doneKeys, nDone := s.nDone + 1 }) rfl
          (fun x hx => List.mem_cons_of_mem k hx) (hs.issuing.visited z hz).2
      refine ⟨⟨rfl, fun j hj => List.mem_cons_of_mem k hj, fun hs j hj => ⟨List.mem_append_left _ hj.1, ?_⟩, fun hs => ⟨?_, rfl, ?_⟩⟩,
        fun _ => ⟨hdone, List.mem_cons_self⟩⟩
      · intro hmem
        rcases List.mem_append.mp hmem with hold | hfresh
        · exact hj.2 hold
        · exact hnew hs j hfresh hj.1
      · obtain ⟨s'', hok, hissuing, -⟩ := hs.issuing.done hsome hvisited hdone
        have hgood : ¬ (k ∉ s.keys ∨ k ∉ s.visited ∨ k ∈ s.doneKeys) := by
          push Not
          exact ⟨(hs.issuing.visited k hvisited).1, hvisited, hdone⟩
        rw [done, if_neg hprepared, maskDone, if_neg hgood, maskDone] at hok
        obtain ⟨-, rfl⟩ := Prod.mk.inj hok
        exact hissuing
      · refine List.nodup_append.mpr ⟨hs.readyNodup, hs.issuing.keysNodup.filter _, ?_⟩
        rintro a ha b hb rfl
        exact hnew hs a hb (hs.issuing.ready a ha)

theorem serving_prepare (graph : List (K × List K)) : Serving (ofGraph graph).prepare.2 := by
  refine ⟨issuing_prepare graph, ?_, ?_⟩
  · rw [prepare_eq rfl]
    rfl
  · rw [prepare_eq rfl]
    exact (nodup_keys_ofGraph graph).filter _

theorem serving_empty : Serving { (empty : TopologicalSorter K) with readyNodes := some [] } where
  issuing := ⟨List.nodup_nil, fun _ hk => absurd hk List.not_mem_nil, List.nodup_nil, fun _ hk => absurd hk List.not_mem_nil,
    List.nodup_nil, fun _ hk => absurd hk List.not_mem_nil, rfl, rfl⟩
  prepared := rfl
  readyNodup := List.nodup_nil

end Scaler.TopologicalSorter
