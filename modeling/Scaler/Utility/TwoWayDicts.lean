import Scaler.Utility.ManyToMany

/-! Histories of the two-way dictionaries. An operation either is refused, and then nothing changed,
or leaves two maps that are inverse relations. -/

namespace Scaler

open Collections

namespace KeyValueDictSet

variable {K V : Type} [DecidableEq K] [DecidableEq V] {d : KeyValueDictSet K V} {k k' : K} {v v' : V}

/-- Whether or not the pair was there. -/
theorem mem_values_dropValue (hd : Wf d) (k : K) (v : V) :
    v' ∈ values (removeValue d k v).2 k' ↔ v' ∈ values d k' ∧ ¬ (k' = k ∧ v' = v) := by
  by_cases h : v ∈ values d k
  · exact mem_values_removeValue hd h
  · rw [removeValue_of_not_mem h]
    refine ⟨fun hmem => ⟨hmem, ?_⟩, fun hmem => hmem.1⟩
    rintro ⟨rfl, rfl⟩
    exact h hmem

theorem Wf.dropValue (hd : Wf d) (k : K) (v : V) : Wf (KeyValueDictSet.removeValue d k v).2 := by
  by_cases h : v ∈ values d k
  · exact hd.removeValue h
  · rw [removeValue_of_not_mem h]
    exact hd

/-- The loop over the values of a key that was removed. -/
theorem dropValues_spec (v : V) (ks : List K) (hd : Wf d) :
    Wf (ks.foldl (fun e k => (KeyValueDictSet.removeValue e k v).2) d) ∧
      ∀ k' v', v' ∈ values (ks.foldl (fun e k => (KeyValueDictSet.removeValue e k v).2) d) k' ↔
        v' ∈ values d k' ∧ ¬ (k' ∈ ks ∧ v' = v) := by
  induction ks generalizing d with
  | nil => exact ⟨hd, fun k' v' => by simp⟩
  | cons k ks ih =>
    obtain ⟨hwf, hmem⟩ := ih (hd.dropValue k v)
    refine ⟨hwf, fun k' v' => ?_⟩
    rw [List.foldl_cons, hmem, mem_values_dropValue hd, List.mem_cons]
    tauto

omit [DecidableEq V] in
theorem Wf.erase (hd : Wf d) (k : K) : Wf (d.erase k) where
  nonempty := fun k' vs hget => by
    rw [Dict.get?_erase] at hget
    split at hget
    · cases hget
    · exact hd.nonempty k' vs hget
  nodup := fun k' vs hget => by
    rw [Dict.get?_erase] at hget
    split at hget
    · cases hget
    · exact hd.nodup k' vs hget

omit [DecidableEq V] in
theorem mem_values_erase : v ∈ values (d.erase k) k' ↔ v ∈ values d k' ∧ k' ≠ k := by
  rw [values, Dict.get?_erase]
  split
  · next heq => simp [heq]
  · next hne => simp [values, hne]

end KeyValueDictSet

namespace ManyToManyDict

open KeyValueDictSet

variable {L R : Type} [DecidableEq L] [DecidableEq R] {d : ManyToManyDict L R} {l l' : L} {r r' : R}

/-- The same pairs with the sides exchanged. -/
def swap (d : ManyToManyDict L R) : ManyToManyDict R L := ⟨d.rightKeyToLeftKey, d.leftKeyToRightKey⟩

theorem Wf.swap (h : d.Wf) : d.swap.Wf := ⟨h.right, h.left, fun r l => (h.mirror l r).symm⟩

theorem remove_of_not_pair (h : ¬ d.Pair l r) : d.remove l r = (.error .keyError, d) := by
  rw [remove, removeValue_of_not_mem h]
  rfl

theorem removeLeftKey_of_absent (h : d.hasLeftKey l = false) : d.removeLeftKey l = (.error .keyError, d) := by
  have hget : d.leftKeyToRightKey.get? l = none := by
    rw [hasLeftKey, Dict.contains] at h
    exact Option.isNone_iff_eq_none.mp (by simpa using h)
  rw [removeLeftKey, KeyValueDictSet.removeKey, hget]
  rfl

theorem removeLeftKey_of_present (h : d.hasLeftKey l = true) :
    d.removeLeftKey l = (.ok (d.getRightItems l),
      ⟨d.leftKeyToRightKey.erase l,
        (d.getRightItems l).foldl (fun right r => (removeValue right r l).2) d.rightKeyToLeftKey⟩) := by
  obtain ⟨rs, hget⟩ := Option.isSome_iff_exists.mp h
  have hitems : d.getRightItems l = rs := values_of_get? hget
  rw [removeLeftKey, KeyValueDictSet.removeKey, hget, hitems]
  rfl

/-- Every pair of the key is gone, from both sides. -/
theorem Wf.removeLeftKey (hd : d.Wf) (h : d.hasLeftKey l = true) :
    (d.removeLeftKey l).2.Wf ∧ ∀ l' r', (d.removeLeftKey l).2.Pair l' r' ↔ d.Pair l' r' ∧ l' ≠ l := by
  obtain ⟨hwf, hmem⟩ := dropValues_spec l (d.getRightItems l) hd.right
  have hpair : ∀ l' r', (d.removeLeftKey l).2.Pair l' r' ↔ d.Pair l' r' ∧ l' ≠ l := by
    intro l' r'
    rw [removeLeftKey_of_present h]
    exact mem_values_erase
  refine ⟨⟨?_, ?_, ?_⟩, hpair⟩
  · rw [removeLeftKey_of_present h]
    exact hd.left.erase l
  · rw [removeLeftKey_of_present h]
    exact hwf
  · intro l' r'
    have hleft : l' ∈ (d.removeLeftKey l).2.getLeftItems r' ↔
        l' ∈ d.getLeftItems r' ∧ ¬ (r' ∈ d.getRightItems l ∧ l' = l) := by
      rw [removeLeftKey_of_present h]
      exact hmem r' l'
    rw [hleft, hpair, hd.mirror]
    refine and_congr_right fun hthere => not_congr ⟨fun hgone => hgone.2, fun heq => ?_⟩
    subst heq
    exact ⟨hthere, rfl⟩

theorem removeRightKey_eq (d : ManyToManyDict L R) (r : R) :
    d.removeRightKey r = ((d.swap.removeLeftKey r).1, (d.swap.removeLeftKey r).2.swap) := rfl

section Histories

inductive Operation (L R : Type) where
  | add (l : L) (r : R)
  | remove (l : L) (r : R)
  | removeLeftKey (l : L)
  | removeRightKey (r : R)
  deriving DecidableEq, Repr

/-- What the operation reports, and the dictionary after it. -/
def Operation.apply (d : ManyToManyDict L R) : Operation L R → Except Exn Unit × ManyToManyDict L R
  | .add l r => (.ok (), d.add l r)
  | .remove l r => d.remove l r
  | .removeLeftKey l => ((d.removeLeftKey l).1.map fun _ => (), (d.removeLeftKey l).2)
  | .removeRightKey r => ((d.removeRightKey r).1.map fun _ => (), (d.removeRightKey r).2)

def run (ops : List (Operation L R)) : ManyToManyDict L R := ops.foldl (fun d op => (op.apply d).2) empty

/-- The pair or the key that is to be removed is missing. -/
def Operation.Refused (d : ManyToManyDict L R) : Operation L R → Prop
  | .add _ _ => False
  | .remove l r => ¬ d.Pair l r
  | .removeLeftKey l => d.hasLeftKey l = false
  | .removeRightKey r => d.hasRightKey r = false

theorem Operation.apply_cases (hd : d.Wf) (op : Operation L R) :
    op.Refused d ∧ op.apply d = (.error .keyError, d) ∨
      ¬ op.Refused d ∧ (op.apply d).1 = .ok () ∧ (op.apply d).2.Wf := by
  cases op with
  | add l r => exact .inr ⟨id, rfl, hd.add l r⟩
  | remove l r =>
    by_cases h : d.Pair l r
    · refine .inr ⟨not_not.mpr h, ?_, hd.remove h⟩
      rw [Operation.apply, remove_of_pair hd h]
    · exact .inl ⟨h, remove_of_not_pair h⟩
  | removeLeftKey l =>
    cases h : d.hasLeftKey l with
    | false =>
      refine .inl ⟨h, ?_⟩
      rw [Operation.apply, removeLeftKey_of_absent h]
      rfl
    | true =>
      refine .inr ⟨by simp [Operation.Refused, h], ?_, (hd.removeLeftKey h).1⟩
      rw [Operation.apply, removeLeftKey_of_present h]
      rfl
  | removeRightKey r =>
    cases h : d.hasRightKey r with
    | false =>
      refine .inl ⟨h, ?_⟩
      rw [Operation.apply, removeRightKey_eq, removeLeftKey_of_absent (d := d.swap) h]
      rfl
    | true =>
      refine .inr ⟨by simp [Operation.Refused, h], ?_, (hd.swap.removeLeftKey h).1.swap⟩
      rw [Operation.apply, removeRightKey_eq, removeLeftKey_of_present (d := d.swap) h]
      rfl

theorem wf_run (ops : List (Operation L R)) : (run ops).Wf := by
  refine List.foldlRecOn (motive := Wf) ops _ .empty fun d hd op _ => ?_
  rcases Operation.apply_cases hd op with ⟨-, hsame⟩ | ⟨-, -, hnext⟩
  · rw [hsame]
    exact hd
  · exact hnext

end Histories

end ManyToManyDict

namespace OneToManyDict

variable {K V : Type} [DecidableEq K] [DecidableEq V] {d : OneToManyDict K V} {k k' : K} {v v' : V}

structure Wf (d : OneToManyDict K V) : Prop where
  keys : KeyValueDictSet.Wf d.keyToValues
  mirror : ∀ k v, v ∈ d.getValues k ↔ d.getKey? v = some k

theorem Wf.empty : (empty : OneToManyDict K V).Wf :=
  ⟨.empty, fun _ _ => by simp [getValues, getKey?, OneToManyDict.empty]⟩

theorem add_of_owned (h : d.getKey? v = some k') (hne : k' ≠ k) : d.add k v = (.error .valueError, d) := by
  have hget : d.valueToKey.get? v = some k' := h
  rw [add, hget, if_pos (by simpa using hne)]

theorem add_of_free (h : ∀ k', d.getKey? v = some k' → k' = k) :
    d.add k v = (.ok (), ⟨KeyValueDictSet.add d.keyToValues k v, d.valueToKey.set v k⟩) := by
  have hfree : ¬ (d.valueToKey.get? v).any (· ≠ k) = true := by
    simp only [Option.any_eq_true, decide_eq_true_eq, not_exists, not_and, not_not]
    exact h
  rw [add, if_neg hfree]
  rfl

theorem Wf.add (hd : d.Wf) (h : ∀ k', d.getKey? v = some k' → k' = k) : (d.add k v).2.Wf := by
  rw [add_of_free h]
  refine ⟨hd.keys.add k v, fun k' v' => ?_⟩
  have hvalues : v' ∈ KeyValueDictSet.values (KeyValueDictSet.add d.keyToValues k v) k' ↔ _ :=
    KeyValueDictSet.mem_values_add
  have hold : v' ∈ KeyValueDictSet.values d.keyToValues k' ↔ d.getKey? v' = some k' := hd.mirror k' v'
  refine hvalues.trans ?_
  rw [hold]
  change _ ↔ (d.valueToKey.set v k).get? v' = some k'
  rw [Dict.get?_set]
  by_cases hv : v' = v
  · subst hv
    rw [if_pos rfl, Option.some.injEq]
    refine ⟨?_, fun heq => .inl ⟨heq.symm, rfl⟩⟩
    rintro (⟨hk, -⟩ | howner)
    · exact hk.symm
    · exact (h k' howner).symm
  · rw [if_neg hv]
    simp [hv, getKey?]

theorem removeValue_of_absent (h : d.getKey? v = none) : d.removeValue v = (.error .valueError, d) := by
  have hget : d.valueToKey.get? v = none := h
  rw [removeValue, hget]

theorem removeValue_of_owned (hd : d.Wf) (h : d.getKey? v = some k) :
    d.removeValue v = (.ok k, ⟨(KeyValueDictSet.removeValue d.keyToValues k v).2, d.valueToKey.erase v⟩) := by
  have hget : d.valueToKey.get? v = some k := h
  have hmem : v ∈ d.getValues k := (hd.mirror k v).mpr h
  rw [removeValue, hget, KeyValueDictSet.removeValue_of_mem hmem]
  cases hvalues : d.keyToValues.get? k with
  | none => simp [getValues, hvalues] at hmem
  | some vs =>
    rw [KeyValueDictSet.values_of_get? hvalues]
    dsimp only
    rw [hvalues]

theorem Wf.removeValue (hd : d.Wf) (h : d.getKey? v = some k) : (d.removeValue v).2.Wf := by
  rw [removeValue_of_owned hd h]
  refine ⟨hd.keys.dropValue k v, fun k' v' => ?_⟩
  refine (KeyValueDictSet.mem_values_dropValue hd.keys k v).trans ?_
  have hold : v' ∈ KeyValueDictSet.values d.keyToValues k' ↔ d.getKey? v' = some k' := hd.mirror k' v'
  rw [hold, getKey?, getKey?, Dict.get?_erase]
  by_cases hv : v' = v
  · subst hv
    have hget : d.valueToKey.get? v' = some k := h
    rw [hget]
    simp [eq_comm]
  · simp [hv]

theorem removeKey_of_absent (h : d.hasKey k = false) : d.removeKey k = (.error .keyError, d) := by
  have hget : d.keyToValues.get? k = none := by
    rw [hasKey, Dict.contains] at h
    exact Option.isNone_iff_eq_none.mp (by simpa using h)
  rw [removeKey, hget]

theorem removeKey_of_present (h : d.hasKey k = true) :
    d.removeKey k =
      (.ok (d.getValues k), ⟨d.keyToValues.erase k, (d.getValues k).foldl Dict.erase d.valueToKey⟩) := by
  obtain ⟨vs, hget⟩ := Option.isSome_iff_exists.mp h
  have hvalues : d.getValues k = vs := KeyValueDictSet.values_of_get? hget
  rw [removeKey, hget, hvalues]

theorem Wf.removeKey (hd : d.Wf) (h : d.hasKey k = true) : (d.removeKey k).2.Wf := by
  rw [removeKey_of_present h]
  refine ⟨hd.keys.erase k, fun k' v' => ?_⟩
  refine KeyValueDictSet.mem_values_erase.trans ?_
  have hold : v' ∈ KeyValueDictSet.values d.keyToValues k' ↔ d.getKey? v' = some k' := hd.mirror k' v'
  change _ ↔ ((d.getValues k).foldl Dict.erase d.valueToKey).get? v' = some k'
  rw [hold, Dict.get?_foldl_erase]
  split
  · next howner =>
    rw [hd.mirror] at howner
    simp [howner, eq_comm]
  · next hother =>
    rw [hd.mirror] at hother
    refine ⟨fun hkept => hkept.1, fun hkey => ⟨hkey, ?_⟩⟩
    rintro rfl
    exact hother hkey

section Histories

inductive Operation (K V : Type) where
  | add (k : K) (v : V)
  | removeKey (k : K)
  | removeValue (v : V)
  deriving DecidableEq, Repr

def Operation.apply (d : OneToManyDict K V) : Operation K V → Except Exn Unit × OneToManyDict K V
  | .add k v => d.add k v
  | .removeKey k => ((d.removeKey k).1.map fun _ => (), (d.removeKey k).2)
  | .removeValue v => ((d.removeValue v).1.map fun _ => (), (d.removeValue v).2)

def run (ops : List (Operation K V)) : OneToManyDict K V := ops.foldl (fun d op => (op.apply d).2) empty

/-- Another key owns the value, or what is to be removed is missing. -/
def Operation.Refused (d : OneToManyDict K V) : Operation K V → Prop
  | .add k v => ∃ k', d.getKey? v = some k' ∧ k' ≠ k
  | .removeKey k => d.hasKey k = false
  | .removeValue v => d.getKey? v = none

theorem Operation.apply_cases (hd : d.Wf) (op : Operation K V) :
    (op.Refused d ∧ ∃ e, op.apply d = (.error e, d)) ∨
      ¬ op.Refused d ∧ (op.apply d).1 = .ok () ∧ (op.apply d).2.Wf := by
  cases op with
  | add k v =>
    by_cases h : ∃ k', d.getKey? v = some k' ∧ k' ≠ k
    · obtain ⟨k', howner, hne⟩ := h
      exact .inl ⟨⟨k', howner, hne⟩, _, add_of_owned howner hne⟩
    · have hfree : ∀ k', d.getKey? v = some k' → k' = k := by simpa using h
      refine .inr ⟨h, ?_, hd.add hfree⟩
      rw [Operation.apply, add_of_free hfree]
  | removeKey k =>
    cases h : d.hasKey k with
    | false =>
      refine .inl ⟨h, .keyError, ?_⟩
      rw [Operation.apply, removeKey_of_absent h]
      rfl
    | true =>
      refine .inr ⟨by simp [Operation.Refused, h], ?_, hd.removeKey h⟩
      rw [Operation.apply, removeKey_of_present h]
      rfl
  | removeValue v =>
    cases h : d.getKey? v with
    | none =>
      refine .inl ⟨h, .valueError, ?_⟩
      rw [Operation.apply, removeValue_of_absent h]
      rfl
    | some k =>
      refine .inr ⟨by simp [Operation.Refused, h], ?_, hd.removeValue h⟩
      rw [Operation.apply, removeValue_of_owned hd h]
      rfl

theorem wf_run (ops : List (Operation K V)) : (run ops).Wf := by
  refine List.foldlRecOn (motive := Wf) ops _ .empty fun d hd op _ => ?_
  rcases Operation.apply_cases hd op with ⟨-, e, hsame⟩ | ⟨-, -, hnext⟩
  · rw [hsame]
    exact hd
  · exact hnext

end Histories

end OneToManyDict

/-- After every history of operations the two maps of a dictionary are inverse relations without empty sets,
and the next operation fails exactly when it is refused, with both maps as they were. -/
theorem twoWayDicts_inverse {L R K V : Type} [DecidableEq L] [DecidableEq R] [DecidableEq K] [DecidableEq V]
    (pairOps : List (ManyToManyDict.Operation L R)) (ownerOps : List (OneToManyDict.Operation K V)) :
    ((∀ l r, l ∈ (ManyToManyDict.run pairOps).getLeftItems r ↔ r ∈ (ManyToManyDict.run pairOps).getRightItems l) ∧
      (∀ l, (ManyToManyDict.run pairOps).leftKeyToRightKey.get? l ≠ some []) ∧
      (∀ r, (ManyToManyDict.run pairOps).rightKeyToLeftKey.get? r ≠ some []) ∧
      ∀ op : ManyToManyDict.Operation L R,
        ((∃ e, (op.apply (ManyToManyDict.run pairOps)).1 = .error e) ↔ op.Refused (ManyToManyDict.run pairOps)) ∧
          ∀ e, (op.apply (ManyToManyDict.run pairOps)).1 = .error e →
            (op.apply (ManyToManyDict.run pairOps)).2 = ManyToManyDict.run pairOps) ∧
      (∀ k v, v ∈ (OneToManyDict.run ownerOps).getValues k ↔ (OneToManyDict.run ownerOps).getKey? v = some k) ∧
      (∀ k, (OneToManyDict.run ownerOps).keyToValues.get? k ≠ some []) ∧
      (∀ k k' v, v ∈ (OneToManyDict.run ownerOps).getValues k → v ∈ (OneToManyDict.run ownerOps).getValues k' → k = k') ∧
      (∀ v, (OneToManyDict.run ownerOps).hasValue v = true → ∃ k, v ∈ (OneToManyDict.run ownerOps).getValues k) ∧
      ∀ op : OneToManyDict.Operation K V,
        ((∃ e, (op.apply (OneToManyDict.run ownerOps)).1 = .error e) ↔ op.Refused (OneToManyDict.run ownerOps)) ∧
          ∀ e, (op.apply (OneToManyDict.run ownerOps)).1 = .error e →
            (op.apply (OneToManyDict.run ownerOps)).2 = OneToManyDict.run ownerOps := by
  have hpairs := ManyToManyDict.wf_run pairOps
  have howners := OneToManyDict.wf_run ownerOps
  refine ⟨⟨hpairs.mirror, fun l hempty => hpairs.left.nonempty l [] hempty rfl,
    fun r hempty => hpairs.right.nonempty r [] hempty rfl, fun op => ?_⟩,
    howners.mirror, fun k hempty => howners.keys.nonempty k [] hempty rfl, ?_, ?_, fun op => ?_⟩
  · rcases ManyToManyDict.Operation.apply_cases hpairs op with ⟨hrefused, hsame⟩ | ⟨haccepted, hok, -⟩
    · rw [hsame]
      exact ⟨⟨fun _ => hrefused, fun _ => ⟨_, rfl⟩⟩, fun _ _ => rfl⟩
    · rw [hok]
      exact ⟨⟨nofun, fun hrefused => absurd hrefused haccepted⟩, nofun⟩
  · intro k k' v hv hv'
    rw [howners.mirror] at hv hv'
    exact Option.some.inj (hv.symm.trans hv')
  · intro v hv
    obtain ⟨k, hkey⟩ := Option.isSome_iff_exists.mp hv
    exact ⟨k, (howners.mirror k v).mpr hkey⟩
  · rcases OneToManyDict.Operation.apply_cases howners op with ⟨hrefused, e, hsame⟩ | ⟨haccepted, hok, -⟩
    · rw [hsame]
      exact ⟨⟨fun _ => hrefused, fun _ => ⟨_, rfl⟩⟩, fun _ _ => rfl⟩
    · rw [hok]
      exact ⟨⟨nofun, fun hrefused => absurd hrefused haccepted⟩, nofun⟩

end Scaler
