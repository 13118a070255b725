import Mathlib.Data.List.Nodup
import Scaler.Utility.Containers

/-! The pairs of a `ManyToManyDict`. Its two dictionaries hold the same pairs, and a key is there only
with a pair. -/

namespace Scaler

open Collections

namespace KeyValueDictSet

section Values

variable {K V : Type} [DecidableEq K] {d : KeyValueDictSet K V} {k : K}

def values (d : KeyValueDictSet K V) (k : K) : List V := (d.get? k).getD []

/-- The values of a key are a set that is not empty. -/
structure Wf (d : KeyValueDictSet K V) : Prop where
  nonempty : ∀ k vs, d.get? k = some vs → vs ≠ []
  nodup : ∀ k vs, d.get? k = some vs → vs.Nodup

theorem Wf.empty : Wf (Dict.empty : KeyValueDictSet K V) := ⟨nofun, nofun⟩

theorem values_of_get? {vs : List V} (h : d.get? k = some vs) : values d k = vs := by
  rw [values, h]
  rfl

theorem values_of_get?_none (h : d.get? k = none) : values d k = [] := by
  rw [values, h]
  rfl

theorem contains_iff (h : Wf d) : d.contains k = true ↔ ∃ v, v ∈ values d k := by
  rw [Dict.contains]
  cases hget : d.get? k with
  | none => simp [values_of_get?_none hget]
  | some vs =>
    obtain ⟨v, hv⟩ := List.exists_mem_of_ne_nil vs (h.nonempty k vs hget)
    exact ⟨fun _ => ⟨v, (values_of_get? hget).symm ▸ hv⟩, fun _ => rfl⟩

theorem nodup_values (h : Wf d) (k : K) : (values d k).Nodup := by
  cases hget : d.get? k with
  | none => simp [values_of_get?_none hget]
  | some vs => exact (values_of_get? hget).symm ▸ h.nodup k vs hget

end Values

variable {K V : Type} [DecidableEq K] [DecidableEq V] {d : KeyValueDictSet K V} {k k' : K} {v v' : V}

theorem mem_values_add : v' ∈ values (add d k v) k' ↔ k' = k ∧ v' = v ∨ v' ∈ values d k' := by
  rw [values, add, Dict.get?_set]
  split
  · next heq =>
    subst heq
    simp [values]
  · next hne => simp [values, hne]

theorem Wf.add (h : Wf d) (k : K) (v : V) : Wf (add d k v) where
  nonempty := fun k' vs hget => by
    rcases Dict.get?_set_cases hget with ⟨-, rfl⟩ | hold
    · exact List.ne_nil_of_mem (List.mem_insert_self (a := v))
    · exact h.nonempty k' vs hold
  nodup := fun k' vs hget => by
    rcases Dict.get?_set_cases hget with ⟨-, rfl⟩ | hold
    · exact (nodup_values h k).insert
    · exact h.nodup k' vs hold

theorem removeValue_of_not_mem (h : v ∉ values d k) : removeValue d k v = (false, d) := by
  rw [removeValue]
  cases hget : d.get? k with
  | none => rfl
  | some vs =>
    rw [values_of_get? hget] at h
    exact if_neg h

theorem removeValue_of_mem (h : v ∈ values d k) :
    removeValue d k v =
      (true, if (values d k).erase v = [] then d.erase k else d.set k ((values d k).erase v)) := by
  rw [removeValue]
  cases hget : d.get? k with
  | none =>
    rw [values_of_get?_none hget] at h
    exact absurd h List.not_mem_nil
  | some vs =>
    rw [values_of_get? hget] at h ⊢
    exact if_pos h

theorem mem_values_removeValue (hd : Wf d) (h : v ∈ values d k) :
    v' ∈ values (removeValue d k v).2 k' ↔ v' ∈ values d k' ∧ ¬ (k' = k ∧ v' = v) := by
  rw [removeValue_of_mem h]
  by_cases hk : k' = k
  · subst hk
    have hvalues : values (if (values d k').erase v = [] then d.erase k' else d.set k' ((values d k').erase v)) k' =
        (values d k').erase v := by
      split
      · next hempty => rw [hempty, values_of_get?_none (Dict.get?_erase_self d k')]
      · exact values_of_get? (Dict.get?_set_self d k' _)
    rw [hvalues, (nodup_values hd k').mem_erase_iff]
    simp [and_comm]
  · have hvalues : values (if (values d k).erase v = [] then d.erase k else d.set k ((values d k).erase v)) k' =
        values d k' := by
      unfold values
      split
      · rw [Dict.get?_erase_ne d hk]
      · rw [Dict.get?_set_ne d hk]
    rw [hvalues]
    simp [hk]

theorem Wf.removeValue (hd : Wf d) (h : v ∈ values d k) : Wf (removeValue d k v).2 := by
  rw [removeValue_of_mem h]
  constructor
  · intro k' vs hget
    dsimp only at hget
    split at hget
    · rw [Dict.get?_erase] at hget
      split at hget
      · cases hget
      · exact hd.nonempty k' vs hget
    · next hne =>
      rcases Dict.get?_set_cases hget with ⟨-, rfl⟩ | hold
      · exact hne
      · exact hd.nonempty k' vs hold
  · intro k' vs hget
    dsimp only at hget
    split at hget
    · rw [Dict.get?_erase] at hget
      split at hget
      · cases hget
      · exact hd.nodup k' vs hget
    · rcases Dict.get?_set_cases hget with ⟨-, rfl⟩ | hold
      · exact (nodup_values hd k).erase v
      · exact hd.nodup k' vs hold

end KeyValueDictSet

namespace ManyToManyDict

open KeyValueDictSet

variable {L R : Type} [DecidableEq L] [DecidableEq R] {d : ManyToManyDict L R} {l l' : L} {r r' : R}

def Pair (d : ManyToManyDict L R) (l : L) (r : R) : Prop := r ∈ d.getRightItems l

structure Wf (d : ManyToManyDict L R) : Prop where
  left : KeyValueDictSet.Wf d.leftKeyToRightKey
  right : KeyValueDictSet.Wf d.rightKeyToLeftKey
  mirror : ∀ l r, l ∈ d.getLeftItems r ↔ d.Pair l r

theorem Wf.empty : (empty : ManyToManyDict L R).Wf := ⟨.empty, .empty, fun _ _ => by simp [Pair, getLeftItems, getRightItems, ManyToManyDict.empty]⟩

theorem hasLeftKey_iff (h : d.Wf) : d.hasLeftKey l = true ↔ ∃ r, d.Pair l r := contains_iff h.left

theorem hasRightKey_iff (h : d.Wf) : d.hasRightKey r = true ↔ ∃ l, d.Pair l r := by
  rw [hasRightKey, contains_iff h.right]
  exact exists_congr fun l => h.mirror l r

theorem hasKeyPair_iff (h : d.Wf) : d.hasKeyPair l r = true ↔ d.Pair l r := by
  rw [hasKeyPair, Bool.and_eq_true, decide_eq_true_iff, decide_eq_true_iff, h.mirror]
  exact and_self_iff

theorem pair_add : (d.add l r).Pair l' r' ↔ l' = l ∧ r' = r ∨ d.Pair l' r' := mem_values_add

theorem Wf.add (h : d.Wf) (l : L) (r : R) : (d.add l r).Wf where
  left := h.left.add l r
  right := h.right.add r l
  mirror := fun l' r' => by
    rw [pair_add, ← h.mirror, and_comm]
    exact mem_values_add

/-- A pair is added for each element of a list. -/
theorem foldl_add {α : Type} (left : α → L) (right : α → R) (as : List α) (h : d.Wf) :
    (as.foldl (fun d a => d.add (left a) (right a)) d).Wf ∧
      ∀ l r, (as.foldl (fun d a => d.add (left a) (right a)) d).Pair l r ↔ d.Pair l r ∨ ∃ a ∈ as, l = left a ∧ r = right a := by
  induction as generalizing d with
  | nil => exact ⟨h, fun l r => by simp⟩
  | cons a as ih =>
    obtain ⟨hwf, hpair⟩ := ih (h.add (left a) (right a))
    refine ⟨hwf, fun l r => ?_⟩
    rw [List.foldl_cons, hpair, pair_add, List.exists_mem_cons_iff]
    tauto

theorem remove_of_pair (hd : d.Wf) (h : d.Pair l r) :
    d.remove l r = (.ok (), ⟨(removeValue d.leftKeyToRightKey l r).2, (removeValue d.rightKeyToLeftKey r l).2⟩) := by
  have hleft : (removeValue d.leftKeyToRightKey l r).1 = true := by rw [removeValue_of_mem h]
  have hright : (removeValue d.rightKeyToLeftKey r l).1 = true := by rw [removeValue_of_mem ((hd.mirror l r).mpr h)]
  unfold remove
  dsimp only
  rw [if_pos hleft, if_pos hright]

theorem pair_remove (hd : d.Wf) (h : d.Pair l r) : (d.remove l r).2.Pair l' r' ↔ d.Pair l' r' ∧ ¬ (l' = l ∧ r' = r) := by
  rw [remove_of_pair hd h]
  exact mem_values_removeValue hd.left h

theorem Wf.remove (hd : d.Wf) (h : d.Pair l r) : (d.remove l r).2.Wf := by
  have hpair : ∀ l' r', (d.remove l r).2.Pair l' r' ↔ d.Pair l' r' ∧ ¬ (l' = l ∧ r' = r) := fun _ _ => pair_remove hd h
  have hright := (hd.mirror l r).mpr h
  rw [remove_of_pair hd h] at hpair ⊢
  refine ⟨hd.left.removeValue h, hd.right.removeValue hright, fun l' r' => ?_⟩
  rw [hpair, ← hd.mirror, and_comm (a := l' = l)]
  exact mem_values_removeValue hd.right hright

end ManyToManyDict

end Scaler
