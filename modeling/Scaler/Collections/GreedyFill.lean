import Mathlib.Algebra.Order.BigOperators.Group.List
import Mathlib.Algebra.Order.Group.Int
import Mathlib.Algebra.Ring.Int.Defs
import Mathlib.Data.List.Basic

/-! Filling capacities in order, each with as much as is left. -/

namespace Collections

def greedyFill : Int → List Int → List Int
  | _, [] => []
  | left, cap :: caps => min left cap :: greedyFill (max 0 (left - cap)) caps

/-- The counts are the greedy fill of `target`: each gets what those before it leave, up to its
capacity; whoever comes before a positive count is full; and nothing is lost. -/
structure IsGreedyFill (target : Int) (caps counts : List Int) : Prop where
  length : counts.length = caps.length
  each : ∀ (i : Nat) (cap : Int), caps[i]? = some cap →
    counts[i]? = some (min cap (max 0 (target - (caps.take i).sum)))
  full : ∀ (i j : Nat) (cap count : Int), i < j → caps[i]? = some cap → counts[j]? = some count → 0 < count →
    counts[i]? = some cap
  total : counts.sum = min target caps.sum

theorem length_greedyFill (left : Int) (caps : List Int) : (greedyFill left caps).length = caps.length := by
  induction caps generalizing left with
  | nil => rfl
  | cons cap caps ih => rw [greedyFill, List.length_cons, List.length_cons, ih]

theorem getElem?_greedyFill {left : Int} {caps : List Int} (hleft : 0 ≤ left) (hcaps : ∀ cap ∈ caps, 0 ≤ cap)
    {i : Nat} {cap : Int} (h : caps[i]? = some cap) :
    (greedyFill left caps)[i]? = some (min cap (max 0 (left - (caps.take i).sum))) := by
  induction caps generalizing left i with
  | nil => cases h
  | cons c caps ih =>
    have hc : 0 ≤ c := hcaps c List.mem_cons_self
    cases i with
    | zero =>
      cases h
      simp only [greedyFill, List.getElem?_cons_zero, List.take_zero, List.sum_nil, Option.some.injEq]
      omega
    | succ i =>
      rw [List.getElem?_cons_succ] at h
      have hrest := ih (le_max_left 0 (left - c)) (fun cap' hcap' => hcaps cap' (List.mem_cons_of_mem _ hcap')) h
      have hsum : 0 ≤ (caps.take i).sum := List.sum_nonneg fun cap' hcap' =>
        hcaps cap' (List.mem_cons_of_mem _ (List.mem_of_mem_take hcap'))
      rw [greedyFill, List.getElem?_cons_succ, hrest, List.take_succ_cons, List.sum_cons]
      congr 2
      omega

theorem sum_greedyFill {left : Int} {caps : List Int} (hleft : 0 ≤ left) (hcaps : ∀ cap ∈ caps, 0 ≤ cap) :
    (greedyFill left caps).sum = min left caps.sum := by
  induction caps generalizing left with
  | nil =>
    rw [greedyFill, List.sum_nil]
    omega
  | cons c caps ih =>
    have hc : 0 ≤ c := hcaps c List.mem_cons_self
    have hrest := ih (le_max_left 0 (left - c)) fun cap' hcap' => hcaps cap' (List.mem_cons_of_mem _ hcap')
    have hsum : 0 ≤ caps.sum := List.sum_nonneg fun cap' hcap' => hcaps cap' (List.mem_cons_of_mem _ hcap')
    rw [greedyFill, List.sum_cons, List.sum_cons, hrest]
    omega

theorem isGreedyFill_greedyFill {left : Int} {caps : List Int} (hleft : 0 ≤ left) (hcaps : ∀ cap ∈ caps, 0 ≤ cap) :
    IsGreedyFill left caps (greedyFill left caps) where
  length := length_greedyFill left caps
  each := fun i cap h => getElem?_greedyFill hleft hcaps h
  full := by
    intro i j cap count hij hi hj hpos
    have hlt : j < caps.length := by
      rw [← length_greedyFill left caps]
      exact (List.getElem?_eq_some_iff.mp hj).1
    obtain ⟨cap', hcap'⟩ : ∃ cap', caps[j]? = some cap' := ⟨_, List.getElem?_eq_getElem hlt⟩
    have hcount := getElem?_greedyFill hleft hcaps hcap'
    rw [hj] at hcount
    have hvalue := Option.some.inj hcount
    -- what is left before `j` is positive, so the capacity at `i` was used up
    have hsplit : (caps.take j).sum = (caps.take i).sum + cap + ((caps.take j).drop (i + 1)).sum := by
      have hget : (caps.take j)[i]? = some cap := by rw [List.getElem?_take_of_lt hij, hi]
      have htake : (caps.take j).take (i + 1) = caps.take i ++ [cap] := by
        rw [List.take_add_one, hget, List.take_take, Nat.min_eq_left (by omega)]
        rfl
      calc (caps.take j).sum = ((caps.take j).take (i + 1) ++ (caps.take j).drop (i + 1)).sum := by
            rw [List.take_append_drop]
        _ = (caps.take i).sum + cap + ((caps.take j).drop (i + 1)).sum := by
            rw [htake, List.sum_append, List.sum_append, List.sum_singleton]
    have hrest : 0 ≤ ((caps.take j).drop (i + 1)).sum := List.sum_nonneg fun cap' hcap' =>
      hcaps cap' (List.mem_of_mem_take (List.mem_of_mem_drop hcap'))
    rw [getElem?_greedyFill hleft hcaps hi]
    congr 1
    omega
  total := sum_greedyFill hleft hcaps

end Collections
