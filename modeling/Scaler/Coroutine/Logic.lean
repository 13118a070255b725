import Scaler.Coroutine.Machine

/-! A program logic for the event loop. Every thread owns tokens; the invariant
relates the shared state to all tokens and holds whenever no thread runs. A thread
reestablishes it before it gives up control and then knows nothing but its own
tokens. -/

namespace Coroutine

variable {σ ε ι π τ α β : Type}

/-- The tokens `t` in the hands of the thread `i`. -/
def tag (i : Tid) (t : Multiset τ) : Multiset (Tid × τ) := t.map (Prod.mk i)

@[simp] theorem tag_zero (i : Tid) : tag i (0 : Multiset τ) = 0 := rfl

@[simp] theorem tag_add (i : Tid) (t u : Multiset τ) : tag i (t + u) = tag i t + tag i u :=
  Multiset.map_add _ _ _

@[simp] theorem tag_singleton (i : Tid) (a : τ) : tag i {a} = {(i, a)} := rfl

theorem mem_tag {i : Tid} {t : Multiset τ} {p : Tid × τ} :
    p ∈ tag i t ↔ p.1 = i ∧ p.2 ∈ t := by
  unfold tag
  rw [Multiset.mem_map]
  constructor
  · rintro ⟨a, ha, rfl⟩
    exact ⟨rfl, ha⟩
  · rintro ⟨rfl, ha⟩
    exact ⟨p.2, ha, rfl⟩

/-- `give p` is what a caller hands to the procedure `p`, and `ret p e` what `p`
leaves behind when it raises `e`. An activation of `p` keeps only tokens in its
`scope` across a suspension; `waits l t` says that `t` includes what a thread
suspended at `l` must own. -/
structure Protocol (σ ε ι π τ : Type) where
  Inv : σ → Multiset (Tid × τ) → Prop
  give : π → Multiset τ
  ret : π → ε → Multiset τ
  scope : π → τ → Prop
  waits : ι → Multiset τ → Prop
  waits_add : ∀ {l t} (u), waits l t → waits l (t + u)
  scope_ret : ∀ {p q e a}, a ∈ ret q e → scope p a
  inv_drop : ∀ {s i p e M}, Inv s (tag i (ret p e) + M) → Inv s M
  inv_move : ∀ {s n i p e M}, Inv s (tag (n :: i) (ret p e) + M) → Inv s (tag i (ret p e) + M)

namespace Protocol

variable (L : Protocol σ ε ι π τ)

/-- The tokens of the children that `i` gathers for `ps`. -/
def kids (n : Nat) (i : Tid) : List π → Multiset (Tid × τ)
  | [] => 0
  | p :: ps => tag (n :: i) (L.give p) + kids (n + 1) i ps

/-- What an activation of `p` leaves behind. -/
def back (p : π) : Option ε → Multiset τ
  | none => 0
  | some e => L.ret p e

@[simp] theorem back_none (p : π) : L.back p none = 0 := rfl

abbrev Post (σ ε τ α : Type) := Except ε α → σ → Multiset (Tid × τ) → Prop

/-- The weakest precondition of `c`, run by the thread `i` in an activation of `p`,
with `M` the tokens of everybody else. -/
def wp (p : π) (i : Tid) :
    Coro σ ε ι π α → Post σ ε τ α → σ → Multiset (Tid × τ) → Prop
  | .ret a, Q, s, M => Q (.ok a) s M
  | .raise e, Q, s, M => Q (.error e) s M
  | .act f k, Q, s, M => wp p i (k s) Q (f s) M
  | .self k, Q, s, M => wp p i (k i) Q s M
  | .choose k, Q, s, M => ∀ b, wp p i (k b) Q s M
  | .await l ready k, Q, s, M =>
    ∃ t : Multiset τ, (∀ a ∈ t, L.scope p a) ∧ L.waits l t ∧ L.Inv s (tag i t + M) ∧
      ∀ s' M', L.Inv s' (tag i t + M') → ready s' = true → wp p i k Q s' M'
  | .call q k, Q, s, M =>
    ∃ t : Multiset τ, (∀ a ∈ t, L.scope p a) ∧ L.Inv s (tag i (L.give q) + (tag i t + M)) ∧
      ∀ e s' M', L.Inv s' (tag i (L.back q e) + (tag i t + M')) → wp p i (k e) Q s' M'
  | .gather ps k, Q, s, M =>
    ∃ t : Multiset τ, (∀ a ∈ t, L.scope p a) ∧ (∀ n, L.Inv s (L.kids n i ps + (tag i t + M))) ∧
      ∀ q e s' M', L.Inv s' (tag i (L.back q e) + (tag i t + M')) → wp p i (k e) Q s' M'

/-- What a finished activation of `p` in the thread `i` guarantees. -/
def done (p : π) (i : Tid) : Post σ ε τ Unit
  | .ok _, s, M => L.Inv s M
  | .error e, s, M => L.Inv s (tag i (L.ret p e) + M)

variable {L}

theorem wp_mono {p : π} {i : Tid} {c : Coro σ ε ι π α} {Q Q' : Post σ ε τ α}
    (h : ∀ r s M, Q r s M → Q' r s M) {s : σ} {M : Multiset (Tid × τ)}
    (hc : L.wp p i c Q s M) : L.wp p i c Q' s M := by
  induction c generalizing s M with
  | ret a => exact h _ _ _ hc
  | raise e => exact h _ _ _ hc
  | act f k ih => exact ih _ hc
  | self k ih => exact ih _ hc
  | choose k ih => exact fun b => ih b (hc b)
  | await l ready k ih =>
    obtain ⟨t, hs, hw, hi, hk⟩ := hc
    exact ⟨t, hs, hw, hi, fun s' M' hi' hr => ih (hk s' M' hi' hr)⟩
  | call q k ih =>
    obtain ⟨t, hs, hi, hk⟩ := hc
    exact ⟨t, hs, hi, fun e s' M' hi' => ih e (hk e s' M' hi')⟩
  | gather ps k ih =>
    obtain ⟨t, hs, hi, hk⟩ := hc
    exact ⟨t, hs, hi, fun q e s' M' hi' => ih e (hk q e s' M' hi')⟩

theorem wp_bind {p : π} {i : Tid} {c : Coro σ ε ι π α} {g : α → Coro σ ε ι π β}
    {Q : Post σ ε τ β} {s : σ} {M : Multiset (Tid × τ)}
    (hc : L.wp p i c (fun r s M => match r with
      | .ok a => L.wp p i (g a) Q s M
      | .error e => Q (.error e) s M) s M) :
    L.wp p i (c.bind g) Q s M := by
  induction c generalizing s M with
  | ret a => exact hc
  | raise e => exact hc
  | act f k ih => exact ih _ hc
  | self k ih => exact ih _ hc
  | choose k ih => exact fun b => ih b (hc b)
  | await l ready k ih =>
    obtain ⟨t, hs, hw, hi, hk⟩ := hc
    exact ⟨t, hs, hw, hi, fun s' M' hi' hr => ih (hk s' M' hi' hr)⟩
  | call q k ih =>
    obtain ⟨t, hs, hi, hk⟩ := hc
    exact ⟨t, hs, hi, fun e s' M' hi' => ih e (hk e s' M' hi')⟩
  | gather ps k ih =>
    obtain ⟨t, hs, hi, hk⟩ := hc
    exact ⟨t, hs, hi, fun q e s' M' hi' => ih e (hk q e s' M' hi')⟩

theorem wp_attempt {p : π} {i : Tid} {c : Coro σ ε ι π α} {Q : Post σ ε τ (Except ε α)}
    {s : σ} {M : Multiset (Tid × τ)}
    (hc : L.wp p i c (fun r s M => Q (.ok r) s M) s M) : L.wp p i c.attempt Q s M := by
  induction c generalizing s M with
  | ret a => exact hc
  | raise e => exact hc
  | act f k ih => exact ih _ hc
  | self k ih => exact ih _ hc
  | choose k ih => exact fun b => ih b (hc b)
  | await l ready k ih =>
    obtain ⟨t, hs, hw, hi, hk⟩ := hc
    exact ⟨t, hs, hw, hi, fun s' M' hi' hr => ih (hk s' M' hi' hr)⟩
  | call q k ih =>
    obtain ⟨t, hs, hi, hk⟩ := hc
    exact ⟨t, hs, hi, fun e s' M' hi' => ih e (hk e s' M' hi')⟩
  | gather ps k ih =>
    obtain ⟨t, hs, hi, hk⟩ := hc
    exact ⟨t, hs, hi, fun q e s' M' hi' => ih e (hk q e s' M' hi')⟩

/-- The frame rule: tokens in scope may be kept aside while `c` runs. -/
theorem wp_frame {p : π} {i : Tid} {c : Coro σ ε ι π α} {Q : Post σ ε τ α} (u : Multiset τ)
    (hu : ∀ a ∈ u, L.scope p a) {s : σ} {M : Multiset (Tid × τ)}
    (hc : L.wp p i c Q s (tag i u + M)) :
    L.wp p i c (fun r s M => Q r s (tag i u + M)) s M := by
  have hadd : ∀ {t : Multiset τ}, (∀ a ∈ t, L.scope p a) → ∀ a ∈ t + u, L.scope p a := by
    intro t ht a ha
    rcases Multiset.mem_add.mp ha with h | h
    · exact ht a h
    · exact hu a h
  induction c generalizing s M with
  | ret a => exact hc
  | raise e => exact hc
  | act f k ih => exact ih _ hc
  | self k ih => exact ih _ hc
  | choose k ih => exact fun b => ih b (hc b)
  | await l ready k ih =>
    obtain ⟨t, hs, hw, hi, hk⟩ := hc
    refine ⟨t + u, hadd hs, L.waits_add u hw, by rwa [tag_add, add_assoc], ?_⟩
    intro s' M' hi' hr
    rw [tag_add, add_assoc] at hi'
    exact ih (hk s' _ hi' hr)
  | call q k ih =>
    obtain ⟨t, hs, hi, hk⟩ := hc
    refine ⟨t + u, hadd hs, by rwa [tag_add, add_assoc], ?_⟩
    intro e s' M' hi'
    rw [tag_add, add_assoc] at hi'
    exact ih e (hk e s' _ hi')
  | gather ps k ih =>
    obtain ⟨t, hs, hi, hk⟩ := hc
    refine ⟨t + u, hadd hs, fun n => by rw [tag_add, add_assoc]; exact hi n, ?_⟩
    intro q e s' M' hi'
    rw [tag_add, add_assoc] at hi'
    exact ih e (hk q e s' _ hi')

section Rules

variable {p : π} {i : Tid} {Q : Post σ ε τ α} {s : σ} {M : Multiset (Tid × τ)}

/-- A sequence: go on from every way the first part can end. -/
theorem wp_seq {c : Coro σ ε ι π β} {g : β → Coro σ ε ι π α}
    (hc : L.wp p i c (fun r s M => match r with
      | .ok a => L.wp p i (g a) Q s M
      | .error e => Q (.error e) s M) s M) : L.wp p i (c >>= g) Q s M := wp_bind hc

theorem wp_modify {f : σ → σ} {g : Unit → Coro σ ε ι π α} (h : L.wp p i (g ()) Q (f s) M) :
    L.wp p i (Coro.modify f >>= g) Q s M := h

theorem wp_reads {f : σ → β} {g : β → Coro σ ε ι π α} (h : L.wp p i (g (f s)) Q s M) :
    L.wp p i (Coro.reads f >>= g) Q s M := h

theorem wp_sync {f : σ → Except ε β × σ} {g : β → Coro σ ε ι π α}
    (hok : ∀ a s', f s = (.ok a, s') → L.wp p i (g a) Q s' M)
    (he : ∀ e s', f s = (.error e, s') → Q (.error e) s' M) :
    L.wp p i (Coro.sync f >>= g) Q s M := by
  refine wp_seq ?_
  change L.wp p i (Coro.ofExcept (f s).1) _ (f s).2 M
  generalize hr : f s = r at hok he
  obtain ⟨x, s'⟩ := r
  cases x with
  | ok a => exact hok a s' rfl
  | error e => exact he e s' rfl

theorem wp_await {l : ι} {ready : σ → Bool} {g : Unit → Coro σ ε ι π α} (t : Multiset τ)
    (hs : ∀ a ∈ t, L.scope p a) (hw : L.waits l t) (h : L.Inv s (tag i t + M))
    (hk : ∀ s' M', L.Inv s' (tag i t + M') → ready s' = true → L.wp p i (g ()) Q s' M') :
    L.wp p i (Coro.await l ready (Coro.ret ()) >>= g) Q s M :=
  ⟨t, hs, hw, h, hk⟩

theorem wp_pause {l : ι} {Q : Post σ ε τ Unit} (t : Multiset τ) (hs : ∀ a ∈ t, L.scope p a)
    (hw : L.waits l t) (h : L.Inv s (tag i t + M))
    (hk : ∀ s' M', L.Inv s' (tag i t + M') → Q (.ok ()) s' M') :
    L.wp p i (Coro.pause l) Q s M :=
  ⟨t, hs, hw, h, fun s' M' h' _ => hk s' M' h'⟩

theorem wp_run {q : π} {Q : Post σ ε τ Unit} (t : Multiset τ) (hs : ∀ a ∈ t, L.scope p a)
    (h : L.Inv s (tag i (L.give q) + (tag i t + M)))
    (hk : ∀ s' M', L.Inv s' (tag i t + M') → Q (.ok ()) s' M')
    (he : ∀ e s' M', L.Inv s' (tag i (L.ret q e) + (tag i t + M')) → Q (.error e) s' M') :
    L.wp p i (Coro.run q) Q s M := by
  refine ⟨t, hs, h, fun e s' M' h' => ?_⟩
  cases e with
  | none => exact hk s' M' (by simpa using h')
  | some e => exact he e s' M' h'

theorem wp_gatherAll {ps : List π} {Q : Post σ ε τ Unit} (t : Multiset τ)
    (hs : ∀ a ∈ t, L.scope p a) (h : ∀ n, L.Inv s (L.kids n i ps + (tag i t + M)))
    (hk : ∀ s' M', L.Inv s' (tag i t + M') → Q (.ok ()) s' M')
    (he : ∀ q e s' M', L.Inv s' (tag i (L.ret q e) + (tag i t + M')) → Q (.error e) s' M') :
    L.wp p i (Coro.gatherAll ps) Q s M := by
  refine ⟨t, hs, h, fun q e s' M' h' => ?_⟩
  cases e with
  | none => exact hk s' M' (by simpa using h')
  | some e => exact he q e s' M' h'

theorem wp_always {c : Coro σ ε ι π α} {f : Coro σ ε ι π Unit}
    (hc : L.wp p i c (fun r s M => L.wp p i f (fun r' s M => match r' with
      | .ok _ => Q r s M
      | .error e => Q (.error e) s M) s M) s M) : L.wp p i (Coro.always c f) Q s M := by
  refine wp_bind (wp_attempt (wp_mono ?_ hc))
  intro r s M h
  refine wp_bind (wp_mono ?_ h)
  intro r' s M h'
  cases r' with
  | error e => exact h'
  | ok u =>
    cases r with
    | ok a => exact h'
    | error e => exact h'

/-- The loop rule: `J` says what holds before the remaining items. -/
theorem wp_forEach {as : List β} {f : β → Coro σ ε ι π Unit} {Q : Post σ ε τ Unit}
    (J : List β → σ → Multiset (Tid × τ) → Prop) (h : J as s M)
    (hf : ∀ a as s M, J (a :: as) s M → L.wp p i (f a) (fun r s M => match r with
      | .ok _ => J as s M
      | .error e => Q (.error e) s M) s M)
    (hk : ∀ s M, J [] s M → Q (.ok ()) s M) : L.wp p i (Coro.forEach as f) Q s M := by
  induction as generalizing s M with
  | nil => exact hk s M h
  | cons a as ih =>
    refine wp_bind (wp_mono ?_ (hf a as s M h))
    intro r s M hr
    cases r with
    | ok u => exact ih hr
    | error e => exact hr

/-- What a parent hands to each of its children, taken from its own tokens. -/
theorem inv_kids {ps : List π} (hfork : ∀ {s n i p M}, L.Inv s (tag i (L.give p) + M) →
      L.Inv s (tag (n :: i) (L.give p) + M))
    (h : L.Inv s (tag i (ps.map L.give).sum + M)) (n : Nat) : L.Inv s (L.kids n i ps + M) := by
  induction ps generalizing n M with
  | nil => simpa [kids] using h
  | cons q ps ih =>
    rw [kids, add_right_comm, add_comm]
    apply ih
    rw [add_left_comm]
    apply hfork
    simpa [add_assoc] using h

end Rules

end Protocol

end Coroutine
