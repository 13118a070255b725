import Scaler.Coroutine.Logic

/-! Soundness of the program logic: the invariant holds in every reachable
configuration in which no thread runs, for tokens that the threads own in the
scope of their activations. -/

namespace Coroutine

variable {σ ε ι π τ : Type}

namespace Protocol

variable (L : Protocol σ ε ι π τ)

/-- Every procedure keeps the invariant when its caller hands it its tokens. -/
structure Verifies (P : Program σ ε ι π) : Prop where
  body : ∀ p i s M, L.Inv s (tag i (L.give p) + M) →
    L.wp p i (P.body p) (L.done p i) s M
  entry : ∀ p, P.entry p = true → L.give p = 0
  scope : ∀ p, ∀ a ∈ L.give p, L.scope p a
  waits : ∀ p l r k, P.body p = .await l r k → L.waits l (L.give p)

/-- What the threads `ts` own; `own i` lists the tokens of the activations of `i`. -/
def total (own : Tid → List (Multiset τ)) (ts : List (Thread σ ε ι π)) : Multiset (Tid × τ) :=
  (ts.map fun t => tag t.id (own t.id).sum).sum

/-- A waiting activation of `p` goes on from any state, with the tokens `t`; a join
also keeps what the first child that raised left behind. -/
def CodeOk (p : π) (i : Tid) (t : Multiset τ) : Code σ ε ι π → Prop
  | .run c => (∀ l r k, c = .await l r k → L.waits l t) ∧
      ∀ s M k, L.Inv s (tag i t + M) → wake s (.run c) = some k → L.wp p i k (L.done p i) s M
  | .join pending err k => (∀ j ∈ pending, ∃ n, j = n :: i) ∧ ∃ t' q, t = t' + L.back q err ∧
      (∀ a ∈ t', L.scope p a) ∧ ∀ q e s M, L.Inv s (tag i (L.back q e) + (tag i t' + M)) →
        L.wp p i (k e) (L.done p i) s M

/-- The callers of an activation of `q` go on when it returns or raises. -/
def StackOk (i : Tid) : π → List (π × (Option ε → Coro σ ε ι π Unit)) → List (Multiset τ) → Prop
  | _, [], [] => True
  | q, (p, k) :: cs, t :: ts => (∀ a ∈ t, L.scope p a) ∧
      (∀ e s M, L.Inv s (tag i (L.back q e) + (tag i t + M)) →
        L.wp p i (k e) (L.done p i) s M) ∧ StackOk i p cs ts
  | _, _, _ => False

def Parked (th : Thread σ ε ι π) (toks : List (Multiset τ)) : Prop :=
  ∃ t ts, toks = t :: ts ∧ (∀ a ∈ t, L.scope th.proc a) ∧ L.CodeOk th.proc th.id t th.code ∧
    L.StackOk th.id th.proc th.callers ts

/-- The running thread owns nothing by itself: its tokens are in its precondition. -/
def Running (c : Config σ ε ι π) (own : Tid → List (Multiset τ)) (th : Thread σ ε ι π) : Prop :=
  ∃ k ts, th.code = .run k ∧ own th.id = 0 :: ts ∧ L.StackOk th.id th.proc th.callers ts ∧
    L.wp th.proc th.id k (L.done th.proc th.id) c.state (total own c.threads)

structure Holds (c : Config σ ε ι π) (own : Tid → List (Multiset τ)) : Prop where
  nodup : (c.threads.map Thread.id).Nodup
  fresh : ∀ th ∈ c.threads, ∃ n r, th.id = n :: r ∧ n < c.next
  parked : ∀ th ∈ c.threads, c.current ≠ some th.id → L.Parked th (own th.id)
  running : ∀ i, c.current = some i → ∃ th ∈ c.threads, th.id = i ∧ L.Running c own th
  idle : c.current = none → L.Inv c.state (total own c.threads)

variable {L}

section Total

variable {own : Tid → List (Multiset τ)} {ts : List (Thread σ ε ι π)}

@[simp] theorem total_nil : total own ([] : List (Thread σ ε ι π)) = 0 := rfl

theorem total_cons (th : Thread σ ε ι π) :
    total own (th :: ts) = tag th.id (own th.id).sum + total own ts := by
  simp [total]

theorem total_append (us : List (Thread σ ε ι π)) :
    total own (ts ++ us) = total own ts + total own us := by
  simp [total]

theorem total_congr {own' : Tid → List (Multiset τ)}
    (h : ∀ th ∈ ts, own' th.id = own th.id) : total own' ts = total own ts := by
  unfold total
  congr 1
  apply List.map_congr_left
  intro th hth
  rw [h th hth]

theorem total_update_of_not_mem {i : Tid} {x : List (Multiset τ)} (h : i ∉ ts.map Thread.id) :
    total (Function.update own i x) ts = total own ts := by
  apply total_congr
  intro th hth
  apply Function.update_of_ne
  rintro rfl
  exact h (List.mem_map_of_mem hth)

/-- The tokens of the thread `i` on one side, everything else on the other. -/
theorem total_update {i : Tid} (hn : (ts.map Thread.id).Nodup) (hi : i ∈ ts.map Thread.id) :
    ∃ M, ∀ x, total (Function.update own i x) ts = tag i x.sum + M := by
  induction ts with
  | nil => simp at hi
  | cons th ts ih =>
    simp only [List.map_cons, List.nodup_cons] at hn
    by_cases he : th.id = i
    · subst he
      refine ⟨total own ts, fun x => ?_⟩
      rw [total_cons, Function.update_self, total_update_of_not_mem hn.1]
    · simp only [List.map_cons, List.mem_cons] at hi
      obtain ⟨M, hM⟩ := ih hn.2 (hi.resolve_left (fun h => he h.symm))
      refine ⟨tag th.id (own th.id).sum + M, fun x => ?_⟩
      rw [total_cons, hM, Function.update_of_ne he, add_left_comm]

theorem total_map_id (f : Thread σ ε ι π → Thread σ ε ι π) (hf : ∀ th ∈ ts, (f th).id = th.id) :
    total own (ts.map f) = total own ts := by
  unfold total
  rw [List.map_map]
  congr 1
  apply List.map_congr_left
  intro th hth
  simp only [Function.comp_apply, hf th hth]

/-- A thread that owns nothing can leave. -/
theorem total_filter {i : Tid} (hi : own i = [0]) :
    total own (ts.filter fun t => t.id ≠ i) = total own ts := by
  induction ts with
  | nil => rfl
  | cons u us ih =>
    rw [List.filter_cons, total_cons, ← ih]
    by_cases he : u.id = i
    · simp [he, hi]
    · simp [he, total_cons]

end Total

section Config

variable {c : Config σ ε ι π} {i : Tid}

theorem mem_update {f : Thread σ ε ι π → Thread σ ε ι π} {th : Thread σ ε ι π}
    (h : th ∈ (c.update i f).threads) :
    ∃ t ∈ c.threads, (t.id = i ∧ th = f t) ∨ (t.id ≠ i ∧ th = t) := by
  obtain ⟨t, ht, rfl⟩ := List.mem_map.mp h
  refine ⟨t, ht, ?_⟩
  by_cases he : t.id = i
  · exact .inl ⟨he, if_pos he⟩
  · exact .inr ⟨he, if_neg he⟩

theorem map_id_update {f : Thread σ ε ι π → Thread σ ε ι π} (hf : ∀ t, (f t).id = t.id) :
    (c.update i f).threads.map Thread.id = c.threads.map Thread.id := by
  simp only [Config.update, List.map_map]
  apply List.map_congr_left
  intro t _
  simp only [Function.comp_apply]
  split
  · exact hf t
  · rfl

theorem total_update_threads {own : Tid → List (Multiset τ)}
    {f : Thread σ ε ι π → Thread σ ε ι π} (hf : ∀ t, (f t).id = t.id) :
    total own (c.update i f).threads = total own c.threads := by
  apply total_map_id
  intro t _
  split
  · exact hf t
  · rfl

theorem thread?_some {th : Thread σ ε ι π} (h : c.thread? i = some th) :
    th ∈ c.threads ∧ th.id = i := by
  refine ⟨List.mem_of_find?_eq_some h, ?_⟩
  simpa using List.find?_some h

theorem eq_of_id {ts : List (Thread σ ε ι π)} (hn : (ts.map Thread.id).Nodup)
    {t u : Thread σ ε ι π} (ht : t ∈ ts) (hu : u ∈ ts) (h : t.id = u.id) : t = u :=
  List.inj_on_of_nodup_map hn ht hu h

end Config

section Step

variable {P : Program σ ε ι π} {c : Config σ ε ι π} {own : Tid → List (Multiset τ)}
variable {th : Thread σ ε ι π}

/-- The thread `th` changes its code and its tokens; all others stay parked. -/
theorem Holds.replace (h : L.Holds c own) (hth : th ∈ c.threads)
    (hc : ∀ t ∈ c.threads, t.id ≠ th.id → c.current ≠ some t.id)
    {f : Thread σ ε ι π → Thread σ ε ι π} (hf : ∀ t, (f t).id = t.id)
    {x : List (Multiset τ)} {s : σ} {j : Option Tid} (hcur : j = none ∨ j = some th.id)
    (hp : j = none → L.Parked (f th) x ∧ L.Inv s (total (Function.update own th.id x) c.threads))
    (hr : j = some th.id → ∃ k ts, (f th).code = .run k ∧ x = 0 :: ts ∧
      L.StackOk th.id (f th).proc (f th).callers ts ∧
      L.wp (f th).proc th.id k (L.done (f th).proc th.id) s
        (total (Function.update own th.id x) c.threads)) :
    L.Holds { c.update th.id f with state := s, current := j } (Function.update own th.id x) where
  nodup := by
    change ((c.update th.id f).threads.map Thread.id).Nodup
    rw [map_id_update hf]
    exact h.nodup
  fresh := by
    intro t ht
    obtain ⟨u, hu, ⟨he, rfl⟩ | ⟨he, rfl⟩⟩ := mem_update ht
    · rw [hf]
      exact h.fresh u hu
    · exact h.fresh t hu
  parked := by
    intro t ht hne
    obtain ⟨u, hu, ⟨he, rfl⟩ | ⟨he, rfl⟩⟩ := mem_update ht
    · obtain rfl := eq_of_id h.nodup hu hth he
      rw [hf] at hne ⊢
      rw [Function.update_self]
      rcases hcur with hcur | hcur
      · exact (hp hcur).1
      · exact absurd hcur hne
    · rw [Function.update_of_ne he]
      exact h.parked t hu (hc t hu he)
  running := by
    intro i hj
    change j = some i at hj
    rcases hcur with hcur | hcur
    · rw [hcur] at hj
      cases hj
    · have he : i = th.id := by
        rw [hcur] at hj
        exact (Option.some.inj hj).symm
      subst he
      obtain ⟨k, ts, hk, hx, hs, hw⟩ := hr hcur
      refine ⟨f th, List.mem_map.mpr ⟨th, hth, if_pos rfl⟩, hf th, k, ts, hk, ?_, ?_, ?_⟩
      · rw [hf, Function.update_self, hx]
      · rw [hf]
        exact hs
      · rw [hf]
        change L.wp _ _ _ _ s (total _ (c.update th.id f).threads)
        rw [total_update_threads hf]
        exact hw
  idle := by
    intro hj
    change L.Inv s (total _ (c.update th.id f).threads)
    rw [total_update_threads hf]
    exact (hp hj).2

theorem others (hcur : c.current = some th.id) :
    ∀ t ∈ c.threads, t.id ≠ th.id → c.current ≠ some t.id := by
  intro t _ hne he
  rw [hcur] at he
  exact hne (Option.some.inj he).symm

/-- The tokens of `th` and those of all other threads. -/
theorem Holds.split (h : L.Holds c own) (hth : th ∈ c.threads) :
    ∃ M, (∀ x, total (Function.update own th.id x) c.threads = tag th.id x.sum + M) ∧
      total own c.threads = tag th.id (own th.id).sum + M := by
  have hm : th.id ∈ c.threads.map Thread.id := List.mem_map_of_mem hth
  have htotal : ∃ M, ∀ x, total (Function.update own th.id x) c.threads = tag th.id x.sum + M :=
    total_update h.nodup hm
  obtain ⟨M, hM⟩ := htotal
  refine ⟨M, hM, ?_⟩
  rw [← hM, Function.update_eq_self]

@[simp] theorem notify_id (j : Tid) (e : Option ε) (u : Thread σ ε ι π) :
    (notify j e u).id = u.id := by
  unfold notify
  split
  · rfl
  · split <;> rfl

@[simp] theorem notify_proc (j : Tid) (e : Option ε) (u : Thread σ ε ι π) :
    (notify j e u).proc = u.proc := by
  unfold notify
  split
  · rfl
  · split <;> rfl

@[simp] theorem notify_callers (j : Tid) (e : Option ε) (u : Thread σ ε ι π) :
    (notify j e u).callers = u.callers := by
  unfold notify
  split
  · rfl
  · split <;> rfl

theorem notify_run {j : Tid} {e : Option ε} {k : Coro σ ε ι π Unit} (h : th.code = .run k) :
    notify j e th = th := by
  simp [notify, h]

theorem notify_code_join {j : Tid} {e err : Option ε} {pending : List Tid}
    {k : Option ε → Coro σ ε ι π Unit} (h : th.code = .join pending err k) :
    (notify j e th).code =
      if j ∈ pending then .join (pending.erase j) (err <|> e) k else .join pending err k := by
  unfold notify
  simp only [h]
  split
  · rfl
  · exact h

/-- The thread `th` waits for the child `j` and no child of it raised so far. -/
def AwaitsChild (th : Thread σ ε ι π) (j : Tid) : Prop :=
  ∃ pending k, th.code = .join pending none k ∧ j ∈ pending

theorem Parked.notify {toks : List (Multiset τ)} {j : Tid} {e : Option ε}
    (h : L.Parked th toks) (he : e = none ∨ ¬ AwaitsChild th j) :
    L.Parked (Coroutine.notify j e th) toks := by
  obtain ⟨t, ts, ht, hs, hc, hk⟩ := h
  refine ⟨t, ts, ht, by rwa [notify_proc], ?_, by rwa [notify_id, notify_proc, notify_callers]⟩
  rw [notify_proc, notify_id]
  cases hcode : th.code with
  | run c =>
    rw [notify_run hcode, hcode]
    rwa [hcode] at hc
  | join pending err k =>
    rw [hcode] at hc
    rw [notify_code_join hcode]
    split
    · rename_i hj
      obtain ⟨hid, t', q, htq, hsc, hgo⟩ := hc
      refine ⟨fun i hi => hid i (List.mem_of_mem_erase hi), t', q, ?_, hsc, hgo⟩
      cases err with
      | some x => exact htq
      | none =>
        rcases he with rfl | he
        · exact htq
        · exact absurd ⟨pending, k, hcode, hj⟩ he
    · exact hc

/-- The first child that raises leaves its tokens with its parent. -/
theorem Parked.notify_raise {t : Multiset τ} {ts : List (Multiset τ)} {j : Tid} {x : ε}
    (h : L.Parked th (t :: ts)) (hj : AwaitsChild th j) (q : π) :
    L.Parked (Coroutine.notify j (some x) th) ((t + L.ret q x) :: ts) := by
  obtain ⟨t₀, ts₀, ht, hs, hc, hk⟩ := h
  cases ht
  obtain ⟨pending, k, hcode, hm⟩ := hj
  refine ⟨t + L.ret q x, ts, rfl, ?_, ?_, by rwa [notify_id, notify_proc, notify_callers]⟩
  · intro a ha
    rw [notify_proc]
    rcases Multiset.mem_add.mp ha with ha | ha
    · exact hs a ha
    · exact L.scope_ret ha
  · rw [notify_proc, notify_id, notify_code_join hcode, if_pos hm]
    rw [hcode] at hc
    obtain ⟨hid, t', q', htq, hsc, hgo⟩ := hc
    refine ⟨fun i hi => hid i (List.mem_of_mem_erase hi), t', q, ?_, hsc, hgo⟩
    rw [htq]
    simp [back]

theorem AwaitsChild.id {toks : List (Multiset τ)} {j : Tid} (h : L.Parked th toks)
    (hj : AwaitsChild th j) : ∃ n, j = n :: th.id := by
  obtain ⟨t, ts, _, _, hc, _⟩ := h
  obtain ⟨pending, k, hcode, hm⟩ := hj
  rw [hcode] at hc
  exact hc.1 j hm

theorem mem_finish {e : Option ε} {i : Tid} {u : Thread σ ε ι π} (hu : u ∈ (finish c i e).threads) :
    ∃ v ∈ c.threads, v.id ≠ i ∧ u = notify i e v := by
  obtain ⟨v, hv, rfl⟩ := List.mem_map.mp hu
  obtain ⟨hv, hne⟩ := List.mem_filter.mp hv
  exact ⟨v, hv, by simpa using hne, rfl⟩

theorem total_finish {e : Option ε} (hown : own th.id = [0]) :
    total own (finish c th.id e).threads = total own c.threads := by
  change total own ((c.threads.filter _).map (notify th.id e)) = _
  rw [total_map_id _ (fun u _ => notify_id _ _ u)]
  exact total_filter hown

theorem Holds.finish_of (h : L.Holds c own) {e : Option ε} {own' : Tid → List (Multiset τ)}
    (hp : ∀ v ∈ c.threads, v.id ≠ th.id → L.Parked (notify th.id e v) (own' v.id))
    (hi : L.Inv c.state (total own' (Coroutine.finish c th.id e).threads)) :
    L.Holds (Coroutine.finish c th.id e) own' where
  nodup := by
    change (((c.threads.filter _).map (notify th.id e)).map Thread.id).Nodup
    rw [List.map_map]
    have hid : (Thread.id ∘ notify th.id e : Thread σ ε ι π → Tid) = Thread.id := by
      funext u
      exact notify_id _ _ _
    rw [hid]
    exact (List.filter_sublist.map _).nodup h.nodup
  fresh := by
    intro u hu
    obtain ⟨v, hv, _, rfl⟩ := mem_finish hu
    rw [notify_id]
    exact h.fresh v hv
  parked := by
    intro u hu _
    obtain ⟨v, hv, hne, rfl⟩ := mem_finish hu
    rw [notify_id]
    exact hp v hv hne
  running := by
    intro j hj
    cases hj
  idle := fun _ => hi

theorem Holds.finish (h : L.Holds c own) (hcur : c.current = some th.id)
    (hown : own th.id = [0]) {e : Option ε}
    (hi : L.Inv c.state (tag th.id (L.back th.proc e) + total own c.threads)) :
    ∃ own', L.Holds (finish c th.id e) own' := by
  have hpark : ∀ v ∈ c.threads, v.id ≠ th.id → L.Parked v (own v.id) :=
    fun v hv hne => h.parked v hv (others hcur v hv hne)
  have hlast : (e = none ∨ ∀ v ∈ c.threads, v.id ≠ th.id → ¬ AwaitsChild v th.id) →
      ∃ own', L.Holds (Coroutine.finish c th.id e) own' := by
    intro hq
    refine ⟨own, h.finish_of (fun v hv hne => (hpark v hv hne).notify ?_) ?_⟩
    · rcases hq with hq | hq
      · exact .inl hq
      · exact .inr (hq v hv hne)
    · rw [total_finish hown]
      cases e with
      | none => simpa using hi
      | some x => exact L.inv_drop hi
  cases e with
  | none => exact hlast (.inl rfl)
  | some x =>
    by_cases hq : ∃ v ∈ c.threads, v.id ≠ th.id ∧ AwaitsChild v th.id
    · obtain ⟨v, hv, hne, hj⟩ := hq
      obtain ⟨n, hn⟩ := hj.id (hpark v hv hne)
      obtain ⟨t, ts, hvo, _⟩ := hpark v hv hne
      obtain ⟨M, hM, hM'⟩ := h.split hv
      refine ⟨Function.update own v.id ((t + L.ret th.proc x) :: ts), h.finish_of ?_ ?_⟩
      · intro u hu hune
        by_cases huv : u.id = v.id
        · obtain rfl := eq_of_id h.nodup hu hv huv
          rw [Function.update_self]
          have hpu := hpark u hu hne
          rw [hvo] at hpu
          exact hpu.notify_raise hj _
        · rw [Function.update_of_ne huv]
          refine (hpark u hu hune).notify (.inr fun hju => huv ?_)
          obtain ⟨m, hm⟩ := hju.id (hpark u hu hune)
          rw [hn, List.cons.injEq] at hm
          exact hm.2.symm
      · rw [total_finish (by rw [Function.update_of_ne hne.symm]; exact hown), hM]
        rw [hM', hvo] at hi
        simp only [back, hn] at hi
        have hi' := L.inv_move hi
        simpa [add_assoc, add_left_comm] using hi'
    · refine hlast (.inr fun v hv hne hj => hq ⟨v, hv, hne, hj⟩)

theorem Holds.returned (h : L.Holds c own) (hth : th ∈ c.threads) (hcur : c.current = some th.id)
    {ts : List (Multiset τ)} (hown : own th.id = 0 :: ts)
    (hs : L.StackOk th.id th.proc th.callers ts) {e : Option ε}
    (hi : L.Inv c.state (tag th.id (L.back th.proc e) + total own c.threads)) :
    ∃ own', L.Holds (returned c th e) own' := by
  cases hcal : th.callers with
  | nil =>
    cases ts with
    | cons t ts => simp [hcal, StackOk] at hs
    | nil =>
      simp only [Coroutine.returned, hcal]
      exact h.finish hcur hown hi
  | cons pk rest =>
    obtain ⟨p, k⟩ := pk
    cases ts with
    | nil => simp [hcal, StackOk] at hs
    | cons t ts =>
      rw [hcal] at hs
      obtain ⟨hsc, hk, hrest⟩ := hs
      obtain ⟨M, hM, hM'⟩ := h.split hth
      refine ⟨Function.update own th.id (0 :: ts), ?_⟩
      simp only [Coroutine.returned, hcal]
      have hr := h.replace (f := fun u => { u with proc := p, code := .run (k e), callers := rest })
        (x := 0 :: ts) (s := c.state) (j := c.current) hth (others hcur) (fun _ => rfl) (.inr hcur)
        (fun hn => by rw [hcur] at hn; cases hn) ?_
      · exact hr
      · intro _
        refine ⟨k e, ts, rfl, rfl, hrest, ?_⟩
        apply hk
        rw [hM]
        rw [hM', hown] at hi
        simpa [add_assoc] using hi

/-- The running thread goes on with `k`, after an update of the state. -/
theorem Holds.advance (h : L.Holds c own) (hth : th ∈ c.threads) (hcur : c.current = some th.id)
    {ts : List (Multiset τ)} (hown : own th.id = 0 :: ts) (hs : L.StackOk th.id th.proc th.callers ts)
    {k : Coro σ ε ι π Unit} {s : σ}
    (hw : L.wp th.proc th.id k (L.done th.proc th.id) s (total own c.threads)) :
    L.Holds { c.update th.id (·.setCode (.run k)) with state := s } own := by
  have hx : Function.update own th.id (0 :: ts) = own := by rw [← hown, Function.update_eq_self]
  have hr := h.replace (f := fun u => u.setCode (.run k)) (x := 0 :: ts) (s := s) hth (others hcur)
    (fun _ => rfl) (.inr rfl) (fun hn => by cases hn) (fun _ => ⟨k, ts, rfl, rfl, hs, by rwa [hx]⟩)
  rw [hx, ← hcur] at hr
  exact hr

theorem Holds.await (h : L.Holds c own) (hth : th ∈ c.threads) (hcur : c.current = some th.id)
    {ts : List (Multiset τ)} (hown : own th.id = 0 :: ts) (hs : L.StackOk th.id th.proc th.callers ts)
    {l : ι} {r : σ → Bool} {k : Coro σ ε ι π Unit} (hcode : th.code = .run (.await l r k))
    (hw : L.wp th.proc th.id (.await l r k) (L.done th.proc th.id) c.state
      (total own c.threads)) :
    ∃ own', L.Holds { c with current := none } own' := by
  obtain ⟨t, hsc, hwt, hi, hk⟩ := hw
  obtain ⟨M, hM, hM'⟩ := h.split hth
  have hr := h.replace (f := id) (x := t :: ts) (s := c.state) (j := none) hth (others hcur)
    (fun _ => rfl) (.inl rfl) ?_ (fun hn => by cases hn)
  · refine ⟨Function.update own th.id (t :: ts), ?_⟩
    have hid : c.update th.id id = c := by simp [Config.update]
    rw [hid] at hr
    exact hr
  · intro _
    refine ⟨⟨t, ts, rfl, hsc, ?_, hs⟩, ?_⟩
    · change L.CodeOk th.proc th.id t th.code
      rw [hcode]
      refine ⟨fun l' r' k' he => ?_, fun s M k' hinv hwake => ?_⟩
      · cases he
        exact hwt
      · simp only [wake, Option.ite_none_right_eq_some, Option.some.injEq] at hwake
        obtain ⟨hready, rfl⟩ := hwake
        exact hk s M hinv hready
    · rw [hM, List.sum_cons, tag_add, add_assoc]
      rw [hM', hown] at hi
      simpa using hi

theorem Holds.call (hv : L.Verifies P) (h : L.Holds c own) (hth : th ∈ c.threads)
    (hcur : c.current = some th.id) {ts : List (Multiset τ)} (hown : own th.id = 0 :: ts)
    (hs : L.StackOk th.id th.proc th.callers ts) {q : π} {k : Option ε → Coro σ ε ι π Unit}
    (hw : L.wp th.proc th.id (.call q k) (L.done th.proc th.id) c.state (total own c.threads)) :
    ∃ own', L.Holds (c.update th.id fun u =>
      { u with proc := q, code := .run (P.body q), callers := (u.proc, k) :: u.callers }) own' := by
  obtain ⟨t, hsc, hi, hk⟩ := hw
  obtain ⟨M, hM, hM'⟩ := h.split hth
  refine ⟨Function.update own th.id (0 :: t :: ts), ?_⟩
  have hr := h.replace (f := fun u => { u with
      proc := q, code := .run (P.body q), callers := (u.proc, k) :: u.callers })
    (x := 0 :: t :: ts) (s := c.state) (j := c.current) hth (others hcur)
    (fun _ => rfl) (.inr hcur) (fun hn => by rw [hcur] at hn; cases hn) ?_
  · exact hr
  · intro _
    refine ⟨P.body q, t :: ts, rfl, rfl, ⟨hsc, hk, hs⟩, ?_⟩
    apply hv.body
    rw [hM]
    rw [hM', hown] at hi
    simpa [add_assoc] using hi

/-- The children's first tokens, on top of what `own` says. -/
def ownKids (L : Protocol σ ε ι π τ) (n : Nat) (i : Tid) :
    List π → (Tid → List (Multiset τ)) → Tid → List (Multiset τ)
  | [], own => own
  | p :: ps, own => Function.update (ownKids L (n + 1) i ps own) (n :: i) [L.give p]

theorem ownKids_of_lt {n m : Nat} {i r : Tid} {ps : List π} (h : m < n) :
    ownKids L n i ps own (m :: r) = own (m :: r) := by
  induction ps generalizing n with
  | nil => rfl
  | cons p ps ih =>
    rw [ownKids, Function.update_of_ne (by simp; omega)]
    exact ih (by omega)

theorem id_of_mem_children {n : Nat} {i : Tid} {ps : List π}
    (h : th ∈ children P n i ps) : ∃ m, th.id = m :: i ∧ n ≤ m ∧ m < n + ps.length := by
  induction ps generalizing n with
  | nil => simp [children] at h
  | cons p ps ih =>
    simp only [children, List.mem_cons] at h
    rcases h with rfl | h
    · exact ⟨n, rfl, by omega, by simp⟩
    · obtain ⟨m, hm, h1, h2⟩ := ih h
      refine ⟨m, hm, by omega, ?_⟩
      simp only [List.length_cons]
      omega

theorem nodup_children {n : Nat} {i : Tid} {ps : List π} :
    ((children P n i ps).map Thread.id).Nodup := by
  induction ps generalizing n with
  | nil => simp [children]
  | cons p ps ih =>
    simp only [children, List.map_cons, List.nodup_cons]
    refine ⟨?_, ih⟩
    intro hm
    obtain ⟨t, ht, he⟩ := List.mem_map.mp hm
    obtain ⟨m, hm', h1, _⟩ := id_of_mem_children ht
    rw [hm', List.cons.injEq] at he
    omega

theorem total_children {n : Nat} {i : Tid} {ps : List π} :
    total (ownKids L n i ps own) (children P n i ps) = L.kids n i ps := by
  induction ps generalizing n with
  | nil => rfl
  | cons p ps ih =>
    rw [children, total_cons, ownKids, Function.update_self, total_update_of_not_mem, ih]
    · simp [kids]
    · intro hm
      obtain ⟨t, ht, he⟩ := List.mem_map.mp hm
      obtain ⟨m, hm', h1, _⟩ := id_of_mem_children ht
      rw [hm', List.cons.injEq] at he
      omega

theorem parked_body (hv : L.Verifies P) (p : π) (i : Tid) :
    L.Parked ⟨i, p, .run (P.body p), []⟩ [L.give p] := by
  refine ⟨L.give p, [], rfl, hv.scope p, ⟨hv.waits p, ?_⟩, trivial⟩
  intro s M k hi hk
  have hb := hv.body p i s M hi
  cases hc : P.body p with
  | await l r k' =>
    rw [hc] at hk hb
    simp only [wake, Option.ite_none_right_eq_some, Option.some.injEq] at hk
    obtain ⟨hr, rfl⟩ := hk
    obtain ⟨t, _, _, hi', hk'⟩ := hb
    exact hk' s M hi' hr
  | ret a => rw [hc] at hk hb; cases hk; exact hb
  | raise e => rw [hc] at hk hb; cases hk; exact hb
  | act f k' => rw [hc] at hk hb; cases hk; exact hb
  | self k' => rw [hc] at hk hb; cases hk; exact hb
  | choose k' => rw [hc] at hk hb; cases hk; exact hb
  | call q k' => rw [hc] at hk hb; cases hk; exact hb
  | gather ps k' => rw [hc] at hk hb; cases hk; exact hb

theorem parked_children (hv : L.Verifies P) {n : Nat} {i : Tid} {ps : List π}
    (h : th ∈ children P n i ps) : L.Parked th (ownKids L n i ps own th.id) := by
  induction ps generalizing n with
  | nil => simp [children] at h
  | cons p ps ih =>
    simp only [children, List.mem_cons] at h
    rcases h with rfl | h
    · rw [ownKids, Function.update_self]
      exact parked_body hv p _
    · obtain ⟨m, hm, h1, _⟩ := id_of_mem_children h
      rw [ownKids, Function.update_of_ne]
      · exact ih h
      · rw [hm]
        simp
        omega

theorem Holds.fork (hv : L.Verifies P) (h : L.Holds c own) (hth : th ∈ c.threads)
    (hcur : c.current = some th.id) {ts : List (Multiset τ)} (hown : own th.id = 0 :: ts)
    (hs : L.StackOk th.id th.proc th.callers ts) {ps : List π} {k : Option ε → Coro σ ε ι π Unit}
    (hw : L.wp th.proc th.id (.gather ps k) (L.done th.proc th.id) c.state
      (total own c.threads)) :
    ∃ own', L.Holds (fork P c th.id ps k) own' := by
  obtain ⟨t, hsc, hi, hk⟩ := hw
  obtain ⟨M, hM, hM'⟩ := h.split hth
  have hold : ∀ u ∈ c.threads, ownKids L c.next th.id ps (Function.update own th.id (t :: ts)) u.id =
      Function.update own th.id (t :: ts) u.id := by
    intro u hu
    obtain ⟨n, r, hid, hn⟩ := h.fresh u hu
    rw [hid, ownKids_of_lt hn]
  set f : Thread σ ε ι π → Thread σ ε ι π :=
    (·.setCode (.join ((children P c.next th.id ps).map Thread.id) none k))
  have hf : ∀ u, (f u).id = u.id := fun _ => rfl
  refine ⟨ownKids L c.next th.id ps (Function.update own th.id (t :: ts)), ?_, ?_, ?_, ?_, ?_⟩
  · change (((c.update th.id f).threads ++ children P c.next th.id ps).map Thread.id).Nodup
    rw [List.map_append, map_id_update hf]
    refine List.nodup_append.mpr ⟨h.nodup, nodup_children, ?_⟩
    rintro i hi' j hj rfl
    obtain ⟨u, hu, rfl⟩ := List.mem_map.mp hi'
    obtain ⟨v, hv', he⟩ := List.mem_map.mp hj
    obtain ⟨n, r, hid, hn⟩ := h.fresh u hu
    obtain ⟨m, hm, h1, _⟩ := id_of_mem_children hv'
    rw [hid, hm, List.cons.injEq] at he
    omega
  · intro u hu
    change ∃ n r, u.id = n :: r ∧ n < c.next + ps.length
    rcases List.mem_append.mp hu with hu | hu
    · obtain ⟨v, hv', ⟨_, rfl⟩ | ⟨_, rfl⟩⟩ := mem_update hu
      · obtain ⟨n, r, hid, hn⟩ := h.fresh v hv'
        exact ⟨n, r, hid, by omega⟩
      · obtain ⟨n, r, hid, hn⟩ := h.fresh u hv'
        exact ⟨n, r, hid, by omega⟩
    · obtain ⟨m, hm, _, h2⟩ := id_of_mem_children hu
      exact ⟨m, _, hm, h2⟩
  · intro u hu _
    rcases List.mem_append.mp hu with hu | hu
    · obtain ⟨v, hv', ⟨he, rfl⟩ | ⟨he, rfl⟩⟩ := mem_update hu
      · obtain rfl := eq_of_id h.nodup hv' hth he
        rw [hf, hold v hv', Function.update_self]
        refine ⟨t, ts, rfl, hsc, ⟨?_, t, v.proc, by simp, hsc, hk⟩, hs⟩
        intro j hj
        obtain ⟨w, hw, rfl⟩ := List.mem_map.mp hj
        obtain ⟨m, hm, _⟩ := id_of_mem_children hw
        exact ⟨m, hm⟩
      · rw [hold u hv', Function.update_of_ne he]
        exact h.parked u hv' (others hcur u hv' he)
    · exact parked_children hv hu
  · intro j hj
    cases hj
  · intro _
    change L.Inv c.state (total _ ((c.update th.id f).threads ++ children P c.next th.id ps))
    rw [total_append, total_children, total_update_threads hf, total_congr hold, hM, add_comm]
    have hi' := hi c.next
    rw [hM', hown] at hi'
    simpa [add_assoc] using hi'

theorem Holds.exec (hv : L.Verifies P) (h : L.Holds c own) {b : Bool} {c' : Config σ ε ι π}
    (hstep : step P c (.exec b) = some c') : ∃ own', L.Holds c' own' := by
  simp only [step] at hstep
  cases hcur : c.current with
  | none => simp [hcur] at hstep
  | some i =>
    obtain ⟨th, hth, rfl, k, ts, hcode, hown, hs, hw⟩ := h.running i hcur
    have hfind : c.thread? th.id = some th := by
      cases hf : c.thread? th.id with
      | none => simpa using List.find?_eq_none.mp hf th hth
      | some u =>
        obtain ⟨hu, he⟩ := thread?_some hf
        rw [eq_of_id h.nodup hu hth he]
    simp only [hcur, hfind, hcode, Option.some.injEq] at hstep
    subst hstep
    cases k with
    | ret a =>
      change L.Inv c.state (total own c.threads) at hw
      exact h.returned hth hcur hown hs (by simpa using hw)
    | raise e => exact h.returned hth hcur hown hs hw
    | act f k => exact ⟨own, h.advance hth hcur hown hs hw⟩
    | self k => exact ⟨own, h.advance hth hcur hown hs hw⟩
    | choose k => exact ⟨own, h.advance hth hcur hown hs (hw b)⟩
    | await l r k => exact h.await hth hcur hown hs hcode hw
    | call q k => exact h.call hv hth hcur hown hs hw
    | gather ps k =>
      cases ps with
      | nil =>
        obtain ⟨t, _, hi, hk⟩ := hw
        refine ⟨own, h.advance hth hcur hown hs ?_⟩
        have hi' := hi 0
        simp only [kids, zero_add] at hi'
        exact hk th.proc none _ _ (by simpa using hi')
      | cons p ps => exact h.fork hv hth hcur hown hs hw

theorem Holds.spawn (hv : L.Verifies P) (h : L.Holds c own) {p : π} {c' : Config σ ε ι π}
    (hstep : step P c (.spawn p) = some c') : ∃ own', L.Holds c' own' := by
  simp only [step, Option.ite_none_right_eq_some, Option.some.injEq] at hstep
  obtain ⟨⟨hcur, hp⟩, rfl⟩ := hstep
  have hne : ∀ u ∈ c.threads, u.id ≠ [c.next] := by
    intro u hu he
    obtain ⟨n, r, hid, hn⟩ := h.fresh u hu
    rw [hid, List.cons.injEq] at he
    omega
  have hnot : [c.next] ∉ c.threads.map Thread.id := by
    intro hm
    obtain ⟨u, hu, he⟩ := List.mem_map.mp hm
    exact hne u hu he
  refine ⟨Function.update own [c.next] [L.give p], ?_, ?_, ?_, ?_, ?_⟩
  · simp only [List.map_append, List.map_cons, List.map_nil]
    refine List.nodup_append.mpr ⟨h.nodup, by simp, ?_⟩
    rintro i hi j hj rfl
    simp only [List.mem_singleton] at hj
    exact hnot (hj ▸ hi)
  · intro u hu
    rcases List.mem_append.mp hu with hu | hu
    · obtain ⟨n, r, hid, hn⟩ := h.fresh u hu
      exact ⟨n, r, hid, Nat.lt_succ_of_lt hn⟩
    · simp only [List.mem_singleton] at hu
      subst hu
      exact ⟨c.next, [], rfl, Nat.lt_succ_self _⟩
  · intro u hu _
    rcases List.mem_append.mp hu with hu | hu
    · rw [Function.update_of_ne (hne u hu)]
      exact h.parked u hu (by rw [hcur]; simp)
    · simp only [List.mem_singleton] at hu
      subst hu
      rw [Function.update_self]
      exact parked_body hv p _
  · intro j hj
    rw [hcur] at hj
    cases hj
  · intro _
    rw [total_append, total_update_of_not_mem hnot, total_cons, Function.update_self, hv.entry p hp]
    simpa using h.idle hcur

theorem Holds.resume (h : L.Holds c own) {i : Tid} {c' : Config σ ε ι π}
    (hstep : step P c (.resume i) = some c') : ∃ own', L.Holds c' own' := by
  simp only [step] at hstep
  cases hcur : c.current with
  | some j => simp [hcur] at hstep
  | none =>
    cases hf : c.thread? i with
    | none => simp [hcur, hf] at hstep
    | some th =>
      obtain ⟨hth, rfl⟩ := thread?_some hf
      simp only [hcur, hf, Option.map_eq_some_iff] at hstep
      obtain ⟨k, hk, rfl⟩ := hstep
      obtain ⟨t, ts, hown, hsc, hcode, hs⟩ := h.parked th hth (by rw [hcur]; simp)
      obtain ⟨M, hM, hM'⟩ := h.split hth
      have hi := h.idle hcur
      rw [hM', hown, List.sum_cons, tag_add, add_assoc] at hi
      refine ⟨Function.update own th.id (0 :: ts), ?_⟩
      refine h.replace (f := fun u => u.setCode (.run k)) (s := c.state) hth
        (fun u _ _ => by rw [hcur]; simp) (fun _ => rfl) (.inr rfl) (fun hn => by cases hn) ?_
      intro _
      refine ⟨k, ts, rfl, rfl, hs, ?_⟩
      rw [hM]
      simp only [List.sum_cons, zero_add]
      cases hc : th.code with
      | run c =>
        rw [hc] at hcode hk
        exact hcode.2 _ _ _ hi hk
      | join pending err k' =>
        rw [hc] at hcode hk
        simp only [wake, Option.ite_none_right_eq_some, Option.some.injEq] at hk
        obtain ⟨_, rfl⟩ := hk
        obtain ⟨_, t', q, rfl, _, hgo⟩ := hcode
        apply hgo q
        rwa [tag_add, add_comm (tag th.id t'), add_assoc] at hi

end Step

theorem holds_of_reachable {P : Program σ ε ι π} (hv : L.Verifies P) {s : σ} (h0 : L.Inv s 0)
    {c : Config σ ε ι π} (h : Reachable P s c) : ∃ own, L.Holds c own := by
  induction h with
  | start =>
    refine ⟨fun _ => [], ?_, ?_, ?_, ?_, fun _ => h0⟩
    · exact List.nodup_nil
    · intro th hth
      cases hth
    · intro th hth
      cases hth
    · intro i hi
      cases hi
  | @step c c' m _ hstep ih =>
    obtain ⟨own, ho⟩ := ih
    cases m with
    | spawn p => exact ho.spawn hv hstep
    | resume i => exact ho.resume hstep
    | exec b => exact ho.exec hv hstep

theorem mem_total {own : Tid → List (Multiset τ)} {ts : List (Thread σ ε ι π)} {i : Tid} {a : τ} :
    (i, a) ∈ total own ts ↔ ∃ th ∈ ts, th.id = i ∧ a ∈ (own i).sum := by
  induction ts with
  | nil => simp
  | cons th ts ih =>
    rw [total_cons, Multiset.mem_add, ih]
    simp only [tag, Multiset.mem_map, Prod.mk.injEq, List.mem_cons, exists_eq_or_imp]
    constructor
    · rintro (⟨b, hb, rfl, rfl⟩ | h)
      · exact .inl ⟨rfl, hb⟩
      · exact .inr h
    · rintro (⟨rfl, hb⟩ | h)
      · exact .inl ⟨a, hb, rfl, rfl⟩
      · exact .inr h

/-- A token of a stack is in the scope of one of its activations. -/
theorem StackOk.scope {i : Tid} {q : π} {callers : List (π × (Option ε → Coro σ ε ι π Unit))}
    {ts : List (Multiset τ)} (h : L.StackOk i q callers ts) {a : τ} (ha : a ∈ ts.sum) :
    ∃ p ∈ callers.map Prod.fst, L.scope p a := by
  induction callers generalizing q ts with
  | nil =>
    cases ts with
    | nil => simp at ha
    | cons t ts => exact h.elim
  | cons c cs ih =>
    cases ts with
    | nil => exact h.elim
    | cons t ts =>
      obtain ⟨hsc, _, hrest⟩ := h
      rw [List.sum_cons, Multiset.mem_add] at ha
      rcases ha with ha | ha
      · exact ⟨c.1, by simp, hsc a ha⟩
      · obtain ⟨p, hp, hs⟩ := ih hrest ha
        exact ⟨p, by simp [hp], hs⟩

/-- When no thread runs, the invariant holds of tokens that live in the scope of
procedures in progress, and every thread at an await owns what its label asks for. -/
theorem Verifies.invariant {P : Program σ ε ι π} (hv : L.Verifies P) {s : σ} (h0 : L.Inv s 0)
    {c : Config σ ε ι π} (h : Reachable P s c) (hc : c.Suspended) :
    ∃ M, L.Inv c.state M ∧
      (∀ i a, (i, a) ∈ M → ∃ th ∈ c.threads, th.id = i ∧ ∃ p ∈ th.frames, L.scope p a) ∧
      ∀ th ∈ c.threads, ∀ l r k, th.code = .run (.await l r k) →
        ∃ t, L.waits l t ∧ tag th.id t ≤ M := by
  obtain ⟨own, ho⟩ := holds_of_reachable hv h0 h
  refine ⟨total own c.threads, ho.idle hc, ?_, ?_⟩
  · intro i a ha
    obtain ⟨th, hth, rfl, ha⟩ := mem_total.mp ha
    obtain ⟨t, ts, hown, hsc, _, hs⟩ := ho.parked th hth (by rw [hc]; simp)
    refine ⟨th, hth, rfl, ?_⟩
    rw [hown, List.sum_cons, Multiset.mem_add] at ha
    rcases ha with ha | ha
    · exact ⟨th.proc, by simp [Thread.frames], hsc a ha⟩
    · obtain ⟨p, hp, hs⟩ := hs.scope ha
      exact ⟨p, by simp only [Thread.frames, List.mem_cons]; exact .inr hp, hs⟩
  · intro th hth l r k hcode
    obtain ⟨t, ts, hown, _, hok, _⟩ := ho.parked th hth (by rw [hc]; simp)
    rw [hcode] at hok
    refine ⟨t, hok.1 l r k rfl, ?_⟩
    obtain ⟨M, _, hM⟩ := ho.split hth
    rw [hM, hown, List.sum_cons, tag_add, add_assoc]
    exact Multiset.le_add_right _ _

end Protocol

end Coroutine
