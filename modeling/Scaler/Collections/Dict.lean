import Mathlib.Algebra.Ring.Int.Defs
import Mathlib.Algebra.Ring.Nat
import Mathlib.Data.List.Basic
import Mathlib.Data.List.Nodup
import Mathlib.Data.List.Perm.Subperm

/-! Insertion-ordered dictionaries with distinct keys. Storing under a present
key keeps its position, storing under a new key appends. -/

namespace Collections

variable {K V : Type} [DecidableEq K]

def lookupIn (k : K) : List (K × V) → Option V
  | [] => none
  | (k', v) :: es => if k' = k then some v else lookupIn k es

def setIn (k : K) (v : V) : List (K × V) → List (K × V)
  | [] => [(k, v)]
  | (k', v') :: es => if k' = k then (k, v) :: es else (k', v') :: setIn k v es

def eraseIn (k : K) : List (K × V) → List (K × V)
  | [] => []
  | (k', v) :: es => if k' = k then es else (k', v) :: eraseIn k es

theorem mem_keys_setIn {k k' : K} {v : V} {es : List (K × V)} :
    k' ∈ (setIn k v es).map Prod.fst ↔ k' = k ∨ k' ∈ es.map Prod.fst := by
  induction es with
  | nil => simp [setIn]
  | cons e es ih =>
    obtain ⟨a, b⟩ := e
    by_cases h : a = k
    · simp [setIn, h]
    · simp only [setIn, h, if_false, List.map_cons, List.mem_cons, ih]
      tauto

theorem nodup_setIn {k : K} {v : V} {es : List (K × V)} (h : (es.map Prod.fst).Nodup) :
    ((setIn k v es).map Prod.fst).Nodup := by
  induction es with
  | nil => simp [setIn]
  | cons e es ih =>
    obtain ⟨a, b⟩ := e
    simp only [List.map_cons, List.nodup_cons] at h
    by_cases ha : a = k
    · subst ha
      simpa [setIn] using h
    · simp only [setIn, ha, if_false, List.map_cons, List.nodup_cons]
      refine ⟨?_, ih h.2⟩
      rw [mem_keys_setIn]
      rintro (he | he)
      · exact ha he
      · exact h.1 he

theorem eraseIn_sublist (k : K) (es : List (K × V)) : (eraseIn k es).Sublist es := by
  induction es with
  | nil => exact List.Sublist.refl _
  | cons e es ih =>
    obtain ⟨a, b⟩ := e
    by_cases h : a = k
    · simp [eraseIn, h]
    · simpa [eraseIn, h] using ih

theorem lookupIn_eq_none {k : K} {es : List (K × V)} :
    lookupIn k es = none ↔ k ∉ es.map Prod.fst := by
  induction es with
  | nil => simp [lookupIn]
  | cons e es ih =>
    obtain ⟨a, b⟩ := e
    by_cases h : a = k
    · simp [lookupIn, h]
    · simp only [lookupIn, h, if_false, ih, List.map_cons, List.mem_cons]
      tauto

theorem lookupIn_setIn_self (k : K) (v : V) (es : List (K × V)) :
    lookupIn k (setIn k v es) = some v := by
  induction es with
  | nil => simp [setIn, lookupIn]
  | cons e es ih =>
    obtain ⟨a, b⟩ := e
    by_cases h : a = k
    · simp [setIn, lookupIn, h]
    · simp [setIn, lookupIn, h, ih]

theorem lookupIn_setIn_ne {k k' : K} (h : k' ≠ k) (v : V) (es : List (K × V)) :
    lookupIn k' (setIn k v es) = lookupIn k' es := by
  induction es with
  | nil => simp [setIn, lookupIn, Ne.symm h]
  | cons e es ih =>
    obtain ⟨a, b⟩ := e
    by_cases ha : a = k
    · subst ha
      simp [setIn, lookupIn, Ne.symm h]
    · by_cases ha' : a = k'
      · subst ha'
        simp [setIn, lookupIn, ha]
      · simp [setIn, lookupIn, ha, ha', ih]

theorem lookupIn_eraseIn_self {k : K} {es : List (K × V)} (h : (es.map Prod.fst).Nodup) :
    lookupIn k (eraseIn k es) = none := by
  induction es with
  | nil => simp [eraseIn, lookupIn]
  | cons e es ih =>
    obtain ⟨a, b⟩ := e
    simp only [List.map_cons, List.nodup_cons] at h
    by_cases ha : a = k
    · subst ha
      simpa [eraseIn, lookupIn_eq_none] using h.1
    · simp [eraseIn, lookupIn, ha, ih h.2]

theorem lookupIn_eraseIn_ne {k k' : K} (h : k' ≠ k) (es : List (K × V)) :
    lookupIn k' (eraseIn k es) = lookupIn k' es := by
  induction es with
  | nil => simp [eraseIn]
  | cons e es ih =>
    obtain ⟨a, b⟩ := e
    by_cases ha : a = k
    · subst ha
      simp [eraseIn, lookupIn, Ne.symm h]
    · by_cases ha' : a = k'
      · subst ha'
        simp [eraseIn, lookupIn, ha]
      · simp [eraseIn, lookupIn, ha, ha', ih]

theorem mem_of_lookupIn {k : K} {v : V} {es : List (K × V)} (h : lookupIn k es = some v) :
    (k, v) ∈ es := by
  induction es with
  | nil => simp [lookupIn] at h
  | cons e es ih =>
    obtain ⟨a, b⟩ := e
    by_cases ha : a = k
    · simp only [lookupIn, ha, if_true, Option.some.injEq] at h
      simp [ha, h]
    · simp only [lookupIn, ha, if_false] at h
      exact List.mem_cons_of_mem _ (ih h)

theorem lookupIn_of_mem {k : K} {v : V} {es : List (K × V)} (hn : (es.map Prod.fst).Nodup)
    (h : (k, v) ∈ es) : lookupIn k es = some v := by
  induction es with
  | nil => simp at h
  | cons e es ih =>
    obtain ⟨a, b⟩ := e
    simp only [List.map_cons, List.nodup_cons] at hn
    rcases List.mem_cons.mp h with he | he
    · obtain ⟨rfl, rfl⟩ := Prod.mk.inj he
      simp [lookupIn]
    · have ha : a ≠ k := by
        rintro rfl
        exact hn.1 (List.mem_map_of_mem (f := Prod.fst) he)
      simp [lookupIn, ha, ih hn.2 he]

omit [DecidableEq K] in
theorem map_fst_filterMap_sublist {W : Type} (f : V → Option W) (es : List (K × V)) :
    ((es.filterMap fun e => (f e.2).map fun w => (e.1, w)).map Prod.fst).Sublist (es.map Prod.fst) := by
  induction es with
  | nil => exact List.Sublist.refl _
  | cons e es ih =>
    rw [List.filterMap_cons, List.map_cons]
    cases f e.2 with
    | none => exact ih.cons e.1
    | some w => exact ih.cons_cons e.1

/-- A dictionary is its list of entries; no key occurs twice. -/
structure Dict (K V : Type) where
  entries : List (K × V)
  nodup : (entries.map Prod.fst).Nodup

namespace Dict

def empty : Dict K V := ⟨[], by simp⟩

def get? (d : Dict K V) (k : K) : Option V := lookupIn k d.entries

def set (d : Dict K V) (k : K) (v : V) : Dict K V := ⟨setIn k v d.entries, nodup_setIn d.nodup⟩

def erase (d : Dict K V) (k : K) : Dict K V :=
  ⟨eraseIn k d.entries, d.nodup.sublist ((eraseIn_sublist k d.entries).map Prod.fst)⟩

def contains (d : Dict K V) (k : K) : Bool := (d.get? k).isSome

def keys (d : Dict K V) : List K := d.entries.map Prod.fst

/-- The comprehension `{key a: value a for a in as}` on top of `d`; the first exception ends it. -/
def comprehend {α ε : Type} (key : α → K) (value : α → Except ε V) :
    List α → Dict K V → Except ε (Dict K V)
  | [], d => .ok d
  | a :: as, d =>
    match value a with
    | .error e => .error e
    | .ok v => comprehend key value as (d.set (key a) v)

/-- The comprehension `{k: f(v) for k, v in d.items()}`. -/
def mapValues {W : Type} (f : V → W) (d : Dict K V) : Dict K W where
  entries := d.entries.map fun e => (e.1, f e.2)
  nodup := by
    rw [List.map_map]
    exact d.nodup

/-- The number of entries whose value satisfies `p`. -/
def countValues (d : Dict K V) (p : V → Bool) : Nat := d.entries.countP fun e => p e.2

@[simp] theorem get?_empty (k : K) : (empty : Dict K V).get? k = none := rfl

@[simp] theorem get?_set_self (d : Dict K V) (k : K) (v : V) : (d.set k v).get? k = some v :=
  lookupIn_setIn_self k v d.entries

theorem get?_set_ne (d : Dict K V) {k k' : K} (h : k' ≠ k) (v : V) :
    (d.set k v).get? k' = d.get? k' := lookupIn_setIn_ne h v d.entries

theorem get?_set (d : Dict K V) (k k' : K) (v : V) :
    (d.set k v).get? k' = if k' = k then some v else d.get? k' := by
  by_cases h : k' = k
  · simp [h]
  · simp [h, get?_set_ne]

theorem setIn_of_not_mem {k : K} {v : V} {es : List (K × V)} (h : k ∉ es.map Prod.fst) :
    setIn k v es = es ++ [(k, v)] := by
  induction es with
  | nil => rfl
  | cons e es ih =>
    rw [List.map_cons, List.mem_cons, not_or] at h
    rw [setIn, if_neg (Ne.symm h.1), ih h.2, List.cons_append]

/-- Entries with distinct new keys are appended in their order. -/
theorem entries_foldl_set {es : List (K × V)} {d : Dict K V} (hnodup : ((d.entries ++ es).map Prod.fst).Nodup) :
    (es.foldl (fun d e => d.set e.1 e.2) d).entries = d.entries ++ es := by
  induction es generalizing d with
  | nil => rw [List.foldl_nil, List.append_nil]
  | cons e es ih =>
    have hnew : e.1 ∉ d.entries.map Prod.fst := by
      rw [List.map_append, List.nodup_append] at hnodup
      exact fun hmem => hnodup.2.2 e.1 hmem e.1 List.mem_cons_self rfl
    have hset : (d.set e.1 e.2).entries = d.entries ++ [e] := setIn_of_not_mem hnew
    rw [List.foldl_cons, ih, hset, List.append_assoc, List.singleton_append]
    rwa [hset, List.append_assoc, List.singleton_append]

/-- The dictionary of a list whose keys are distinct. -/
theorem get?_foldl_set {α : Type} (key : α → K) (value : α → V) {as : List α} (hnodup : (as.map key).Nodup)
    (d : Dict K V) (k : K) :
    (as.foldl (fun d a => d.set (key a) (value a)) d).get? k =
      ((as.find? fun a => key a = k).map value).or (d.get? k) := by
  induction as generalizing d with
  | nil => rfl
  | cons a as ih =>
    rw [List.map_cons, List.nodup_cons] at hnodup
    rw [List.foldl_cons, ih hnodup.2, List.find?_cons]
    by_cases hk : key a = k
    · have hnone : as.find? (fun a => key a = k) = none := by
        rw [List.find?_eq_none]
        intro a' ha'
        have hne : key a' ≠ k := fun he => hnodup.1 (hk ▸ he ▸ List.mem_map_of_mem ha')
        simpa using hne
      simp [hnone, hk]
    · simp [hk, get?_set_ne _ (Ne.symm hk)]

theorem get?_foldl_set_of_not_mem {es : List (K × V)} {k : K} (h : k ∉ es.map Prod.fst) (d : Dict K V) :
    (es.foldl (fun d e => d.set e.1 e.2) d).get? k = d.get? k := by
  induction es generalizing d with
  | nil => rfl
  | cons e es ih =>
    rw [List.map_cons, List.mem_cons, not_or] at h
    rw [List.foldl_cons, ih h.2, get?_set_ne _ h.1]

/-- The entries of `e` go over those of `d`. -/
theorem get?_update (d e : Dict K V) (k : K) :
    (e.entries.foldl (fun d x => d.set x.1 x.2) d).get? k = (e.get? k).or (d.get? k) := by
  rw [get?_foldl_set Prod.fst Prod.snd e.nodup]
  congr 1
  change _ = lookupIn k e.entries
  induction e.entries with
  | nil => rfl
  | cons x xs ih =>
    rw [List.find?_cons, lookupIn]
    by_cases hk : x.1 = k
    · simp [hk]
    · simp [hk, ih]

theorem get?_set_cases {d : Dict K V} {k k' : K} {v w : V} (h : (d.set k v).get? k' = some w) :
    (k' = k ∧ w = v) ∨ d.get? k' = some w := by
  by_cases hk : k' = k
  · subst hk
    rw [get?_set_self] at h
    exact .inl ⟨rfl, (Option.some.inj h).symm⟩
  · rw [get?_set_ne _ hk] at h
    exact .inr h

@[simp] theorem get?_erase_self (d : Dict K V) (k : K) : (d.erase k).get? k = none :=
  lookupIn_eraseIn_self d.nodup

theorem get?_erase_ne (d : Dict K V) {k k' : K} (h : k' ≠ k) :
    (d.erase k).get? k' = d.get? k' := lookupIn_eraseIn_ne h d.entries

theorem get?_erase (d : Dict K V) (k k' : K) :
    (d.erase k).get? k' = if k' = k then none else d.get? k' := by
  by_cases h : k' = k
  · simp [h]
  · simp [h, get?_erase_ne]

theorem get?_foldl_erase (ks : List K) (d : Dict K V) (k : K) :
    (ks.foldl erase d).get? k = if k ∈ ks then none else d.get? k := by
  induction ks generalizing d with
  | nil => simp
  | cons j js ih =>
    rw [List.foldl_cons, ih, get?_erase]
    by_cases hjs : k ∈ js
    · simp [hjs]
    · simp [hjs]

theorem eraseIn_of_not_mem {k : K} {es : List (K × V)} (h : k ∉ es.map Prod.fst) :
    eraseIn k es = es := by
  induction es with
  | nil => rfl
  | cons e es ih =>
    simp only [List.map_cons, List.mem_cons, not_or] at h
    rw [eraseIn, if_neg (fun he => h.1 he.symm), ih h.2]

theorem erase_of_get?_none {d : Dict K V} {k : K} (h : d.get? k = none) : d.erase k = d := by
  have he := eraseIn_of_not_mem (lookupIn_eq_none.mp h)
  cases d
  simp only [erase, mk.injEq]
  exact he

theorem eraseIn_setIn (k : K) (v : V) (es : List (K × V)) :
    eraseIn k (setIn k v es) = eraseIn k es := by
  induction es with
  | nil => simp [setIn, eraseIn]
  | cons e es ih =>
    obtain ⟨a, b⟩ := e
    by_cases ha : a = k
    · simp [setIn, eraseIn, ha]
    · simp [setIn, eraseIn, ha, ih]

theorem erase_set (d : Dict K V) (k : K) (v : V) : (d.set k v).erase k = d.erase k := by
  simp only [erase, set, mk.injEq]
  exact eraseIn_setIn k v d.entries

theorem mem_keys (d : Dict K V) (k : K) : k ∈ d.keys ↔ (d.get? k).isSome := by
  rw [Option.isSome_iff_ne_none, Ne, get?, lookupIn_eq_none, not_not]
  rfl

theorem mem_entries (d : Dict K V) (k : K) (v : V) : (k, v) ∈ d.entries ↔ d.get? k = some v :=
  ⟨lookupIn_of_mem d.nodup, mem_of_lookupIn⟩

theorem countP_setIn_absent {k : K} {v : V} {p : K × V → Bool} {es : List (K × V)}
    (h : lookupIn k es = none) :
    (setIn k v es).countP p = es.countP p + (if p (k, v) then 1 else 0) := by
  induction es with
  | nil => simp [setIn, List.countP_cons]
  | cons e es ih =>
    obtain ⟨a, b⟩ := e
    by_cases ha : a = k
    · simp [lookupIn, ha] at h
    · simp only [lookupIn, ha, if_false] at h
      simp only [setIn, ha, if_false, List.countP_cons, ih h]
      omega

theorem countP_setIn_present {k : K} {v w : V} {p : K × V → Bool} {es : List (K × V)}
    (h : lookupIn k es = some w) :
    (setIn k v es).countP p + (if p (k, w) then 1 else 0) =
      es.countP p + (if p (k, v) then 1 else 0) := by
  induction es with
  | nil => simp [lookupIn] at h
  | cons e es ih =>
    obtain ⟨a, b⟩ := e
    by_cases ha : a = k
    · simp only [lookupIn, ha, if_true, Option.some.injEq] at h
      simp only [setIn, ha, if_true, List.countP_cons, h]
      omega
    · simp only [lookupIn, ha, if_false] at h
      have hh := ih h
      simp only [setIn, ha, if_false, List.countP_cons]
      omega

theorem countP_eraseIn {k : K} {w : V} {p : K × V → Bool} {es : List (K × V)}
    (h : lookupIn k es = some w) :
    (eraseIn k es).countP p + (if p (k, w) then 1 else 0) = es.countP p := by
  induction es with
  | nil => simp [lookupIn] at h
  | cons e es ih =>
    obtain ⟨a, b⟩ := e
    by_cases ha : a = k
    · simp only [lookupIn, ha, if_true, Option.some.injEq] at h
      simp [eraseIn, ha, List.countP_cons, h]
    · simp only [lookupIn, ha, if_false] at h
      have hh := ih h
      simp only [eraseIn, ha, if_false, List.countP_cons]
      omega

theorem countValues_set_absent (d : Dict K V) {k : K} {v : V} (p : V → Bool)
    (h : d.get? k = none) :
    (d.set k v).countValues p = d.countValues p + (if p v then 1 else 0) :=
  countP_setIn_absent (p := fun e => p e.2) h

theorem countValues_set_present (d : Dict K V) {k : K} {v w : V} (p : V → Bool)
    (h : d.get? k = some w) :
    (d.set k v).countValues p + (if p w then 1 else 0) =
      d.countValues p + (if p v then 1 else 0) :=
  countP_setIn_present (p := fun e => p e.2) h

theorem countValues_erase (d : Dict K V) {k : K} {w : V} (p : V → Bool)
    (h : d.get? k = some w) :
    (d.erase k).countValues p + (if p w then 1 else 0) = d.countValues p :=
  countP_eraseIn (p := fun e => p e.2) h

/-- `sum(d.values())`. -/
def total (d : Dict K Int) : Int := (d.entries.map Prod.snd).sum

theorem total_setIn {k : K} {v w : Int} {es : List (K × Int)} (h : lookupIn k es = some w) :
    ((setIn k v es).map Prod.snd).sum = (es.map Prod.snd).sum + (v - w) := by
  induction es with
  | nil => simp [lookupIn] at h
  | cons e es ih =>
    obtain ⟨a, b⟩ := e
    by_cases ha : a = k
    · simp only [lookupIn, ha, if_true, Option.some.injEq] at h
      simp only [setIn, ha, if_true, List.map_cons, List.sum_cons, h]
      omega
    · simp only [lookupIn, ha, if_false] at h
      have hh := ih h
      simp only [setIn, ha, if_false, List.map_cons, List.sum_cons]
      omega

theorem total_set (d : Dict K Int) {k : K} {v w : Int} (h : d.get? k = some w) :
    (d.set k v).total = d.total + (v - w) := total_setIn h

theorem lookupIn_map {W : Type} (f : V → W) (k : K) (es : List (K × V)) :
    lookupIn k (es.map fun e => (e.1, f e.2)) = (lookupIn k es).map f := by
  induction es with
  | nil => rfl
  | cons e es ih =>
    rw [List.map_cons, lookupIn, lookupIn]
    split
    · rfl
    · exact ih

theorem get?_mapValues {W : Type} (f : V → W) (d : Dict K V) (k : K) : (d.mapValues f).get? k = (d.get? k).map f :=
  lookupIn_map f k d.entries

theorem keys_setIn {k : K} {v w : V} {es : List (K × V)} (h : lookupIn k es = some w) :
    (setIn k v es).map Prod.fst = es.map Prod.fst := by
  induction es with
  | nil => simp [lookupIn] at h
  | cons e es ih =>
    obtain ⟨a, b⟩ := e
    by_cases ha : a = k
    · simp [setIn, ha]
    · simp only [lookupIn, ha, if_false] at h
      simp only [setIn, ha, if_false, List.map_cons, ih h]

theorem keys_set (d : Dict K V) {k : K} {v w : V} (h : d.get? k = some w) : (d.set k v).keys = d.keys := keys_setIn h

/-- What the entries weigh together, when `f` weighs a value. -/
def sumValues (d : Dict K V) (f : V → Nat) : Nat := (d.entries.map fun e => f e.2).sum

theorem sum_setIn_absent {k : K} {v : V} {f : V → Nat} {es : List (K × V)}
    (h : lookupIn k es = none) :
    ((setIn k v es).map fun e => f e.2).sum = (es.map fun e => f e.2).sum + f v := by
  induction es with
  | nil => simp [setIn]
  | cons e es ih =>
    obtain ⟨a, b⟩ := e
    by_cases ha : a = k
    · simp [lookupIn, ha] at h
    · simp only [lookupIn, ha, if_false] at h
      have hh := ih h
      simp only [setIn, ha, if_false, List.map_cons, List.sum_cons]
      omega

theorem sum_setIn_present {k : K} {v w : V} {f : V → Nat} {es : List (K × V)}
    (h : lookupIn k es = some w) :
    ((setIn k v es).map fun e => f e.2).sum + f w = (es.map fun e => f e.2).sum + f v := by
  induction es with
  | nil => simp [lookupIn] at h
  | cons e es ih =>
    obtain ⟨a, b⟩ := e
    by_cases ha : a = k
    · simp only [lookupIn, ha, if_true, Option.some.injEq] at h
      simp only [setIn, ha, if_true, List.map_cons, List.sum_cons, h]
      omega
    · simp only [lookupIn, ha, if_false] at h
      have hh := ih h
      simp only [setIn, ha, if_false, List.map_cons, List.sum_cons]
      omega

theorem sum_eraseIn {k : K} {w : V} {f : V → Nat} {es : List (K × V)}
    (h : lookupIn k es = some w) :
    ((eraseIn k es).map fun e => f e.2).sum + f w = (es.map fun e => f e.2).sum := by
  induction es with
  | nil => simp [lookupIn] at h
  | cons e es ih =>
    obtain ⟨a, b⟩ := e
    by_cases ha : a = k
    · simp only [lookupIn, ha, if_true, Option.some.injEq] at h
      simp only [eraseIn, ha, if_true, List.map_cons, List.sum_cons, h]
      omega
    · simp only [lookupIn, ha, if_false] at h
      have hh := ih h
      simp only [eraseIn, ha, if_false, List.map_cons, List.sum_cons]
      omega

theorem sumValues_set_absent (d : Dict K V) {k : K} {v : V} (f : V → Nat) (h : d.get? k = none) :
    (d.set k v).sumValues f = d.sumValues f + f v := sum_setIn_absent h

theorem sumValues_set_present (d : Dict K V) {k : K} {v w : V} (f : V → Nat)
    (h : d.get? k = some w) : (d.set k v).sumValues f + f w = d.sumValues f + f v :=
  sum_setIn_present h

theorem sumValues_erase (d : Dict K V) {k : K} {w : V} (f : V → Nat) (h : d.get? k = some w) :
    (d.erase k).sumValues f + f w = d.sumValues f := sum_eraseIn h

theorem countValues_pos {d : Dict K V} {p : V → Bool} :
    0 < d.countValues p ↔ ∃ k v, d.get? k = some v ∧ p v = true := by
  unfold countValues
  rw [List.countP_pos_iff]
  constructor
  · rintro ⟨⟨k, v⟩, hm, hp⟩
    exact ⟨k, v, (mem_entries d k v).mp hm, hp⟩
  · rintro ⟨k, v, hm, hp⟩
    exact ⟨(k, v), (mem_entries d k v).mpr hm, hp⟩

theorem sumValues_pos {d : Dict K V} {f : V → Nat} :
    0 < d.sumValues f ↔ ∃ k v, d.get? k = some v ∧ 0 < f v := by
  rw [sumValues, List.sum_pos_iff_exists_pos_nat]
  constructor
  · rintro ⟨x, hx, hp⟩
    obtain ⟨⟨k, v⟩, hm, rfl⟩ := List.mem_map.mp hx
    exact ⟨k, v, (mem_entries d k v).mp hm, hp⟩
  · rintro ⟨k, v, hm, hp⟩
    exact ⟨f v, List.mem_map.mpr ⟨(k, v), (mem_entries d k v).mpr hm, rfl⟩, hp⟩

theorem comprehend_ok {α ε : Type} (key : α → K) {value : α → Except ε V} {as : List α}
    (h : ∀ a ∈ as, ∃ v, value a = .ok v) (d : Dict K V) :
    ∃ d', comprehend key value as d = .ok d' ∧
      ∀ k, (d'.get? k).isSome ↔ (d.get? k).isSome ∨ ∃ a ∈ as, key a = k := by
  induction as generalizing d with
  | nil => exact ⟨d, rfl, by simp⟩
  | cons a as ih =>
    obtain ⟨v, hv⟩ := h a List.mem_cons_self
    obtain ⟨d', hd, hk⟩ := ih (fun b hb => h b (List.mem_cons_of_mem a hb)) (d.set (key a) v)
    refine ⟨d', by simp only [comprehend, hv, hd], fun k => ?_⟩
    rw [hk k, get?_set]
    by_cases he : k = key a
    · simp [he]
    · simp [he, Ne.symm he]

/-- The entries of a comprehension whose keys are new. -/
theorem entries_comprehend {α ε : Type} {key : α → K} {value : α → Except ε V} {as : List α} {d d' : Dict K V}
    (hnodup : (d.keys ++ as.map key).Nodup) (h : comprehend key value as d = .ok d') :
    ∃ vs, List.Forall₂ (fun a v => value a = .ok v) as vs ∧ d'.entries = d.entries ++ (as.map key).zip vs := by
  induction as generalizing d with
  | nil =>
    cases h
    exact ⟨[], .nil, (List.append_nil _).symm⟩
  | cons a as ih =>
    unfold comprehend at h
    cases hv : value a with
    | error e =>
      rw [hv] at h
      cases h
    | ok v =>
      rw [hv] at h
      have hnew : key a ∉ d.entries.map Prod.fst := by
        rw [List.nodup_append] at hnodup
        exact fun hmem => hnodup.2.2 (key a) hmem (key a) List.mem_cons_self rfl
      have hset : (d.set (key a) v).entries = d.entries ++ [(key a, v)] := setIn_of_not_mem hnew
      have hkeys : ((d.set (key a) v).keys ++ as.map key).Nodup := by
        rw [keys, hset, List.map_append, List.append_assoc]
        exact hnodup
      obtain ⟨vs, hvs, hentries⟩ := ih hkeys h
      refine ⟨v :: vs, .cons hv hvs, ?_⟩
      rw [hentries, hset, List.append_assoc]
      rfl

/-- Dictionaries with the same keys have the same size. -/
theorem length_keys_congr {W : Type} {d : Dict K V} {d' : Dict K W}
    (h : ∀ k, (d.get? k).isSome = (d'.get? k).isSome) : d.keys.length = d'.keys.length := by
  refine List.Perm.length_eq ((List.perm_ext_iff_of_nodup d.nodup d'.nodup).mpr fun k => ?_)
  exact (mem_keys d k).trans (h k ▸ (mem_keys d' k).symm)

theorem length_keys_le {W : Type} {d : Dict K V} {d' : Dict K W}
    (h : ∀ k, (d.get? k).isSome → (d'.get? k).isSome) : d.keys.length ≤ d'.keys.length := by
  refine (d.nodup.subperm fun k hk => ?_).length_le
  exact (mem_keys d' k).mpr (h k ((mem_keys d k).mp hk))

theorem length_keys_erase (d : Dict K V) {k : K} {w : V} (h : d.get? k = some w) :
    (d.erase k).keys.length + 1 = d.keys.length := by
  have hc := countP_eraseIn (p := fun _ : K × V => true) h
  simpa [keys, erase] using hc

theorem setIn_of_lookupIn {k : K} {v : V} {es : List (K × V)} (h : lookupIn k es = some v) : setIn k v es = es := by
  induction es with
  | nil => cases h
  | cons e es ih =>
    obtain ⟨k', v'⟩ := e
    rw [lookupIn] at h
    rw [setIn]
    by_cases hk : k' = k
    · rw [if_pos hk] at h ⊢
      rw [hk, Option.some.inj h]
    · rw [if_neg hk] at h ⊢
      rw [ih h]

/-- Storing what is there changes nothing. -/
theorem set_of_get? {d : Dict K V} {k : K} {v : V} (h : d.get? k = some v) : d.set k v = d := by
  obtain ⟨es, hnodup⟩ := d
  have hset : setIn k v es = es := setIn_of_lookupIn h
  simp only [set, hset]

/-- One value is stored under many keys. -/
theorem get?_foldl_set_const {α : Type} (key : α → K) (v : V) (as : List α) (d : Dict K V) (k : K) :
    (as.foldl (fun d a => d.set (key a) v) d).get? k = if ∃ a ∈ as, key a = k then some v else d.get? k := by
  induction as generalizing d with
  | nil => simp
  | cons a as ih =>
    rw [List.foldl_cons, ih, get?_set]
    by_cases hk : key a = k
    · simp [hk]
    · simp [hk, Ne.symm hk]

theorem foldl_set_const_iff {α : Type} (key : α → K) (v : V) (as : List α) (d : Dict K V) :
    as.foldl (fun d a => d.set (key a) v) d = d ↔ ∀ a ∈ as, d.get? (key a) = some v := by
  constructor
  · intro heq a ha
    rw [← heq, get?_foldl_set_const, if_pos ⟨a, ha, rfl⟩]
  · intro hall
    induction as with
    | nil => rfl
    | cons a as ih =>
      rw [List.foldl_cons, set_of_get? (hall a List.mem_cons_self)]
      exact ih fun a' ha' => hall a' (List.mem_cons_of_mem _ ha')

end Dict

end Collections
