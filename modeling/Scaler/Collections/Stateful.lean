import Mathlib.Data.List.Forall2

/-! Computations that may raise, and that keep the state they had reached when they do. -/

namespace Collections

variable {ε σ α β : Type}

/-- The state after the computation, whether it returned or raised. -/
def endState (m : EStateM ε σ α) (s : σ) : σ :=
  match m.run s with
  | .ok _ s' => s'
  | .error _ s' => s'

/-- Started in a state of `I`, the computation ends in one, also when it raises. -/
def Keeps (I : σ → Prop) (m : EStateM ε σ α) : Prop := ∀ s, I s → I (endState m s)

variable {I : σ → Prop} {m : EStateM ε σ α} {f : α → EStateM ε σ β}

theorem endState_of_ok {s s' : σ} {a : α} (h : m.run s = .ok a s') : endState m s = s' := by
  rw [endState, h]

theorem endState_of_error {s s' : σ} {e : ε} (h : m.run s = .error e s') : endState m s = s' := by
  rw [endState, h]

theorem run_bind_of_ok {s s' : σ} {a : α} (h : m.run s = .ok a s') : (m >>= f).run s = (f a).run s' := by
  have he : m s = .ok a s' := h
  simp only [EStateM.run, bind, EStateM.bind, he]

theorem endState_bind_of_ok {s s' : σ} {a : α} (h : m.run s = .ok a s') :
    endState (m >>= f) s = endState (f a) s' := by
  rw [endState, run_bind_of_ok h, endState]

theorem run_bind_of_error {s s' : σ} {e : ε} (h : m.run s = .error e s') :
    (m >>= f).run s = .error e s' := by
  have he : m s = .error e s' := h
  simp only [EStateM.run, bind, EStateM.bind, he]

/-- A sequence that returned is two computations that returned. -/
theorem run_bind_ok {s s' : σ} {b : β} (h : (m >>= f).run s = .ok b s') :
    ∃ a t, m.run s = .ok a t ∧ (f a).run t = .ok b s' := by
  cases hm : m.run s with
  | ok a t => exact ⟨a, t, rfl, (run_bind_of_ok hm).symm.trans h⟩
  | error e t => cases (run_bind_of_error hm).symm.trans h

theorem Keeps.pure (a : α) : Keeps I (pure a : EStateM ε σ α) := fun _ hs => hs

theorem Keeps.throw (e : ε) : Keeps I (throw e : EStateM ε σ α) := fun _ hs => hs

/-- Only the values that `m` can return matter for the rest. -/
theorem Keeps.bind_of_run (hm : Keeps I m) (hf : ∀ a s s', m.run s = .ok a s' → Keeps I (f a)) :
    Keeps I (m >>= f) := by
  intro s hs
  have hend := hm s hs
  cases he : m.run s with
  | ok a s' =>
    rw [endState_of_ok he] at hend
    rw [endState_bind_of_ok he]
    exact hf a s s' he s' hend
  | error e s' =>
    rw [endState_of_error he] at hend
    rwa [endState_of_error (run_bind_of_error he)]

theorem Keeps.bind (hm : Keeps I m) (hf : ∀ a, Keeps I (f a)) : Keeps I (m >>= f) :=
  hm.bind_of_run fun a _ _ _ => hf a

/-- Every value of a loop is the value of one of its rounds. -/
theorem run_mapM_ok {as : List α} {bs : List β} {s s' : σ} (h : (as.mapM f).run s = .ok bs s') :
    ∀ b ∈ bs, ∃ a ∈ as, ∃ t t', (f a).run t = .ok b t' := by
  induction as generalizing bs s with
  | nil =>
    cases h
    exact fun b hb => absurd hb List.not_mem_nil
  | cons a as ih =>
    rw [List.mapM_cons] at h
    obtain ⟨b, t, hb, hrest⟩ := run_bind_ok h
    obtain ⟨bs', t', hbs, hpure⟩ := run_bind_ok hrest
    cases hpure
    intro b' hb'
    rcases List.mem_cons.mp hb' with rfl | hb'
    · exact ⟨a, List.mem_cons_self, s, t, hb⟩
    · obtain ⟨a', ha', hrun⟩ := ih hbs b' hb'
      exact ⟨a', List.mem_cons_of_mem _ ha', hrun⟩

/-- The rounds of a loop, each between the states of the loop. -/
theorem forall₂_of_run_mapM {R : σ → σ → Prop} (hrefl : ∀ s, R s s) (htrans : ∀ s t u, R s t → R t u → R s u)
    (hround : ∀ a s b s', (f a).run s = .ok b s' → R s s') {as : List α} {bs : List β} {s s' : σ}
    (h : (as.mapM f).run s = .ok bs s') :
    R s s' ∧ List.Forall₂ (fun a b => ∃ t t', R s t ∧ (f a).run t = .ok b t' ∧ R t' s') as bs := by
  induction as generalizing bs s with
  | nil =>
    cases h
    exact ⟨hrefl _, .nil⟩
  | cons a as ih =>
    rw [List.mapM_cons] at h
    obtain ⟨b, t, hb, hrest⟩ := run_bind_ok h
    obtain ⟨bs', t', hbs, hpure⟩ := run_bind_ok hrest
    cases hpure
    have hfirst := hround a s b t hb
    obtain ⟨hlast, hrounds⟩ := ih hbs
    refine ⟨htrans s t _ hfirst hlast, .cons ⟨s, t, hrefl s, hb, hlast⟩ (hrounds.imp ?_)⟩
    rintro a' b' ⟨u, u', hu, hrun, hu'⟩
    exact ⟨u, u', htrans s t u hfirst hu, hrun, hu'⟩

theorem Keeps.mapM {as : List α} (h : ∀ a ∈ as, Keeps I (f a)) : Keeps I (as.mapM f) := by
  induction as with
  | nil => exact Keeps.pure []
  | cons a as ih =>
    have hrest := ih fun a' ha' => h a' (List.mem_cons_of_mem _ ha')
    rw [List.mapM_cons]
    exact (h a List.mem_cons_self).bind fun b => hrest.bind fun bs => .pure (b :: bs)

end Collections
