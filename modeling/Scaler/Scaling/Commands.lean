import Mathlib.Algebra.BigOperators.Group.List.Basic
import Mathlib.Algebra.Ring.Int.Defs
import Scaler.Scaling.Policies

/-! What reaches a manager of a command: the sum of the requests whose capabilities are among its
own, with the same values. -/

namespace Scaler

open Collections

theorem Capabilities.ext {d d' : Capabilities} (h : d.entries = d'.entries) : d = d' := by
  cases d
  cases d'
  cases h
  rfl

/-- The capabilities of a request are the dictionary it was made from. -/
theorem capabilitiesToDict_entries (capabilities : Capabilities) :
    capabilitiesToDict capabilities.entries = capabilities := by
  refine Capabilities.ext ?_
  have hnodup : (((Dict.empty : Capabilities).entries ++ capabilities.entries).map Prod.fst).Nodup :=
    capabilities.nodup
  rw [capabilitiesToDict, Dict.entries_foldl_set hnodup]
  rfl

theorem itemsSubset_iff {capabilities own : Capabilities} :
    itemsSubset capabilities own = true ↔ ∀ name value, capabilities.get? name = some value → own.get? name = some value := by
  rw [itemsSubset, List.all_eq_true]
  constructor
  · intro h name value hget
    simpa using h (name, value) ((Dict.mem_entries capabilities name value).mpr hget)
  · rintro h ⟨name, value⟩ hmem
    simpa using h name value ((Dict.mem_entries capabilities name value).mp hmem)

theorem mem_keySet {capabilities : Capabilities} {name : String} :
    name ∈ keySet capabilities ↔ (capabilities.get? name).isSome = true := by
  rw [keySet, List.mem_toFinset, Dict.mem_keys]

theorem keySet_subset {capabilities own : Capabilities} (h : itemsSubset capabilities own = true) :
    keySet capabilities ⊆ keySet own := by
  intro name hname
  obtain ⟨value, hvalue⟩ := Option.isSome_iff_exists.mp (mem_keySet.mp hname)
  rw [mem_keySet, itemsSubset_iff.mp h name value hvalue]
  rfl

@[simp] theorem itemsSubset_empty (own : Capabilities) : itemsSubset .empty own = true := rfl

/-- The count a manager derives, over the integers. -/
theorem extractDesiredCount_build (desiredPerCapset : List (Capabilities × Int)) (own : Capabilities) :
    (extractDesiredCount (buildSetDesiredCommand desiredPerCapset) own : Int) =
      ((desiredPerCapset.filter fun entry => itemsSubset entry.1 own).map fun entry => max 0 entry.2).sum := by
  induction desiredPerCapset with
  | nil => rfl
  | cons entry rest ih =>
    rw [extractDesiredCount, buildSetDesiredCommand] at ih ⊢
    rw [List.map_cons, List.filter_cons, List.filter_cons]
    simp only [capabilitiesToDict_entries]
    split
    · rw [List.map_cons, List.sum_cons, List.map_cons, List.sum_cons, Int.natCast_add, ih]
      congr 1
      exact Int.toNat_of_nonneg (le_max_left 0 entry.2)
    · exact ih

end Scaler
