import Mathlib.Data.List.Forall2

/-! What a computation that may fail ends with. -/

namespace Collections

variable {α β ε : Type}

/-- The computation ends with a value that satisfies `P`, or with an error that satisfies `E`. -/
def Ends (E : ε → Prop) (x : Except ε α) (P : α → Prop) : Prop :=
  match x with
  | .ok a => P a
  | .error e => E e

variable {E : ε → Prop} {x : Except ε α} {f : α → Except ε β} {P P' : α → Prop} {Q : β → Prop}

theorem Ends.bind (hx : Ends E x P) (hf : ∀ a, P a → Ends E (f a) Q) : Ends E (x >>= f) Q := by
  cases x with
  | ok a => exact hf a hx
  | error e => exact hx

theorem Ends.mono (hx : Ends E x P) (h : ∀ a, P a → P' a) : Ends E x P' := by
  cases x with
  | ok a => exact h a hx
  | error e => exact hx

theorem Ends.and {E' : ε → Prop} (hx : Ends E x P) (hx' : Ends E' x P') : Ends E x fun a => P a ∧ P' a := by
  cases x with
  | ok a => exact ⟨hx, hx'⟩
  | error e => exact hx

theorem Ends.of_eq {a : α} (hx : Ends E x P) (h : x = .ok a) : P a := by
  rw [h] at hx
  exact hx

/-- Without errors there is a value. -/
theorem Ends.exists_ok (hx : Ends E x P) (hE : ∀ e, ¬E e) : ∃ a, x = .ok a ∧ P a := by
  cases x with
  | ok a => exact ⟨a, rfl, hx⟩
  | error e => exact absurd hx (hE e)

/-- A loop that succeeded: its values are those of its rounds. -/
theorem forall₂_of_mapM_ok {as : List α} {bs : List β} (h : as.mapM f = .ok bs) :
    List.Forall₂ (fun a b => f a = .ok b) as bs := by
  induction as generalizing bs with
  | nil =>
    cases h
    exact .nil
  | cons a as ih =>
    rw [List.mapM_cons] at h
    cases ha : f a with
    | error e =>
      rw [ha] at h
      cases h
    | ok b =>
      cases has : as.mapM f with
      | error e =>
        rw [ha, has] at h
        cases h
      | ok bs' =>
        rw [ha, has] at h
        cases h
        exact .cons ha (ih has)

theorem forall₂_of_mapM_some {g : α → Option β} {as : List α} {bs : List β} (h : as.mapM g = some bs) :
    List.Forall₂ (fun a b => g a = some b) as bs := by
  induction as generalizing bs with
  | nil =>
    cases h
    exact .nil
  | cons a as ih =>
    rw [List.mapM_cons] at h
    obtain ⟨b, hb, h⟩ := Option.bind_eq_some_iff.mp h
    obtain ⟨bs', hbs, h⟩ := Option.bind_eq_some_iff.mp h
    cases h
    exact .cons hb (ih hbs)

theorem eq_error_of_bind {e : ε} (h : x >>= f = .error e) (hf : ∀ a, f a ≠ .error e) : x = .error e := by
  cases x with
  | error e' =>
    cases h
    rfl
  | ok a => exact absurd h (hf a)

/-- A loop that failed failed in one of its rounds. -/
theorem exists_of_mapM_error {as : List α} {e : ε} (h : as.mapM f = .error e) : ∃ a ∈ as, f a = .error e := by
  induction as with
  | nil => cases h
  | cons a as ih =>
    rw [List.mapM_cons] at h
    cases ha : f a with
    | error e' =>
      rw [ha] at h
      cases h
      exact ⟨a, List.mem_cons_self, ha⟩
    | ok b =>
      cases has : as.mapM f with
      | error e' =>
        rw [ha, has] at h
        cases h
        obtain ⟨a', ha', hfailed⟩ := ih has
        exact ⟨a', List.mem_cons_of_mem a ha', hfailed⟩
      | ok bs =>
        rw [ha, has] at h
        cases h

/-- Only the rounds that fail with `e` may change when the loop does not fail with `e`. -/
theorem mapM_congr_of_ne {g : α → Except ε β} {e : ε} (hfg : ∀ a, f a ≠ .error e → g a = f a) {as : List α}
    (h : as.mapM f ≠ .error e) : as.mapM g = as.mapM f := by
  induction as with
  | nil => rfl
  | cons a as ih =>
    rw [List.mapM_cons] at h
    rw [List.mapM_cons, List.mapM_cons]
    cases ha : f a with
    | error e' =>
      rw [ha] at h
      have hne : f a ≠ .error e := by
        intro he
        rw [ha] at he
        obtain rfl := Except.error.inj he
        exact h rfl
      rw [hfg a hne, ha]
      rfl
    | ok b =>
      rw [ha] at h
      have hne : f a ≠ .error e := by
        rw [ha]
        exact nofun
      have hrest : as.mapM f ≠ .error e := by
        intro he
        rw [he] at h
        exact h rfl
      rw [hfg a hne, ha, ih hrest]

theorem exists_left_of_forall₂ {R : α → β → Prop} {as : List α} {bs : List β} (h : List.Forall₂ R as bs) :
    ∀ b ∈ bs, ∃ a ∈ as, R a b := by
  induction h with
  | nil => exact fun b hb => absurd hb List.not_mem_nil
  | cons hab _ ih =>
    intro b' hb'
    rcases List.mem_cons.mp hb' with rfl | hb'
    · exact ⟨_, List.mem_cons_self, hab⟩
    · obtain ⟨a', ha', hr⟩ := ih b' hb'
      exact ⟨a', List.mem_cons_of_mem _ ha', hr⟩

theorem exists_right_of_forall₂ {R : α → β → Prop} {as : List α} {bs : List β} (h : List.Forall₂ R as bs) :
    ∀ a ∈ as, ∃ b ∈ bs, R a b :=
  exists_left_of_forall₂ h.flip

theorem forall₂_of_zip {γ : Type} {R : α → β → Prop} {S : α × β → γ → Prop} {as : List α} {bs : List β} {cs : List γ}
    (h : List.Forall₂ R as bs) (hzip : List.Forall₂ S (as.zip bs) cs) :
    List.Forall₂ (fun a c => ∃ b, R a b ∧ S (a, b) c) as cs := by
  induction h generalizing cs with
  | nil =>
    cases hzip
    exact .nil
  | cons hab _ ih =>
    rw [List.zip_cons_cons] at hzip
    cases hzip with
    | cons hc hzip => exact .cons ⟨_, hab, hc⟩ (ih hzip)

/-- Two loops whose rounds give the same give the same. -/
theorem mapM_congr_forall₂ {γ : Type} {g : β → Except ε γ} {f : α → Except ε γ} {as : List α} {bs : List β}
    (h : List.Forall₂ (fun a b => f a = g b) as bs) : as.mapM f = bs.mapM g := by
  induction h with
  | nil => rfl
  | cons hab _ ih => rw [List.mapM_cons, List.mapM_cons, hab, ih]

section Runs

variable {σ : Type} (step : σ → α → Except ε σ) (ok : σ → α → Prop)

/-- Every step of the run is `ok` where it happens. -/
def Along : σ → List α → Prop
  | _, [] => True
  | s, a :: as => ok s a ∧ ∀ s', step s a = .ok s' → Along s' as

variable {step ok} {s s' : σ} {as bs : List α}

/-- An invariant of the steps is an invariant of the runs. -/
theorem Ends.foldlM {I : σ → Prop} (hstep : ∀ s a, I s → ok s a → Ends E (step s a) I) (hs : I s)
    (has : Along step ok s as) : Ends E (as.foldlM step s) I := by
  induction as generalizing s with
  | nil => exact hs
  | cons a as ih =>
    obtain ⟨ha, hnext⟩ := has
    have h := hstep s a hs ha
    rw [List.foldlM_cons]
    cases he : step s a with
    | error e =>
      rw [he] at h
      exact h
    | ok s' =>
      rw [he] at h
      exact ih h (hnext s' he)

theorem Along.cons {a : α} (hstep : step s a = .ok s') (ha : ok s a) (has : Along step ok s' as) :
    Along step ok s (a :: as) := by
  refine ⟨ha, fun t ht => ?_⟩
  cases hstep.symm.trans ht
  exact has

theorem Along.append (h : Along step ok s (as ++ bs)) (hs : as.foldlM step s = .ok s') :
    Along step ok s as ∧ Along step ok s' bs := by
  induction as generalizing s with
  | nil =>
    cases hs
    exact ⟨trivial, h⟩
  | cons a as ih =>
    obtain ⟨ha, hnext⟩ := h
    rw [List.foldlM_cons] at hs
    cases he : step s a with
    | error e =>
      rw [he] at hs
      cases hs
    | ok t =>
      rw [he] at hs
      obtain ⟨has, hbs⟩ := ih (hnext t he) hs
      refine ⟨⟨ha, fun t' ht' => ?_⟩, hbs⟩
      cases he.symm.trans ht'
      exact has

end Runs

/-- An invariant of steps that may be impossible. -/
theorem foldlM_some {σ : Type} {I : σ → Prop} {step : σ → α → Option σ} (hstep : ∀ s a s', I s → step s a = some s' → I s')
    {as : List α} {s s' : σ} (hs : I s) (h : as.foldlM step s = some s') : I s' := by
  induction as generalizing s with
  | nil =>
    obtain rfl := Option.some.inj h
    exact hs
  | cons a as ih =>
    rw [List.foldlM_cons] at h
    obtain ⟨t, ht, h⟩ := Option.bind_eq_some_iff.mp h
    exact ih (hstep s a t hs ht) h

/-- `Along` for steps that may be impossible. -/
def AlongSome {σ : Type} (step : σ → α → Option σ) (ok : σ → α → Prop) : σ → List α → Prop
  | _, [] => True
  | s, a :: as => ok s a ∧ ∀ s', step s a = some s' → AlongSome step ok s' as

theorem AlongSome.foldlM {σ : Type} {I : σ → Prop} {step : σ → α → Option σ} {ok : σ → α → Prop}
    (hstep : ∀ s a s', I s → ok s a → step s a = some s' → I s') {as : List α} {s s' : σ} (hs : I s)
    (has : AlongSome step ok s as) (h : as.foldlM step s = some s') : I s' := by
  induction as generalizing s with
  | nil =>
    obtain rfl := Option.some.inj h
    exact hs
  | cons a as ih =>
    rw [List.foldlM_cons] at h
    obtain ⟨t, ht, h⟩ := Option.bind_eq_some_iff.mp h
    exact ih (hstep s a t hs has.1 ht) (has.2 t ht) h

section TotalRuns

variable {σ : Type} (step : σ → α → σ) (ok : σ → α → Prop)

/-- `Along` for steps that cannot fail. -/
def Throughout : σ → List α → Prop
  | _, [] => True
  | s, a :: as => ok s a ∧ Throughout (step s a) as

variable {step ok} {s : σ} {as : List α}

theorem Throughout.foldl {I : σ → Prop} (hstep : ∀ s a, I s → ok s a → I (step s a)) (hs : I s)
    (has : Throughout step ok s as) : I (as.foldl step s) := by
  induction as generalizing s with
  | nil => exact hs
  | cons a as ih => exact ih (hstep s a hs has.1) has.2

end TotalRuns

end Collections
