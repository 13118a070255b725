import Scaler.Invariant.Basic

/-! The lock of a machine is held by the one coroutine that applies an event to it, so
an event finds the machine as it was when the lock was taken. -/

namespace Scaler

open Collections Coroutine

variable {cfg : SchedulerConfig} {s s' : Sched} {i : Tid} {t : TaskID} {uid : Nat} {e : TaskEvent}
  {source : TaskState} {phase : Phase} {a : Tok} {K t₁ t₂ : Multiset Tok}

/-- The token belongs to the coroutine that holds the lock `uid`. -/
def Tok.holds (uid : Nat) : Tok → Bool
  | .apply u _ _ _ | .closing u => u = uid
  | _ => false

/-- The token is of the event `e`, which is not applied yet. -/
def Tok.pends (e : TaskEvent) : Tok → Bool
  | .event e' | .wait _ e' => e' = e
  | _ => false

def holders (uid : Nat) (K : Multiset Tok) : Nat := K.countP fun a => a.holds uid = true

def pending (e : TaskEvent) (K : Multiset Tok) : Nat := K.countP fun a => a.pends e = true

@[simp] theorem holders_zero : holders uid 0 = 0 := rfl

@[simp] theorem holders_add (K L : Multiset Tok) :
    holders uid (K + L) = holders uid K + holders uid L := Multiset.countP_add _ _ _

@[simp] theorem holders_singleton (a : Tok) :
    holders uid {a} = if a.holds uid then 1 else 0 := by
  by_cases h : a.holds uid = true <;> simp [holders, ← Multiset.cons_zero, h]

@[simp] theorem pending_zero : pending e 0 = 0 := rfl

@[simp] theorem pending_add (K L : Multiset Tok) :
    pending e (K + L) = pending e K + pending e L := Multiset.countP_add _ _ _

@[simp] theorem pending_singleton (a : Tok) : pending e {a} = if a.pends e then 1 else 0 := by
  by_cases h : a.pends e = true <;> simp [pending, ← Multiset.cons_zero, h]

theorem holders_eq_zero (h : holders uid K = 0) {a : Tok} (ha : a ∈ K) : a.holds uid = false := by
  have := Multiset.countP_eq_zero.mp h a ha
  simpa using this

/-- Locks, machines and the coroutines that hold locks agree. -/
structure Locked (v : TaskView) (K : Multiset Tok) : Prop where
  held : ∀ uid, holders uid K = if (v.locks uid).owner.isSome then 1 else 0
  machine : ∀ {uid e source phase}, .apply uid e source phase ∈ K →
    v.taskIdToStateMachine.get? e.taskId = some ⟨uid, source⟩
  closed : ∀ {uid}, .closing uid ∈ K → uid < v.nextUid ∧
    ∀ t m, v.taskIdToStateMachine.get? t = some m → m.uid ≠ uid
  waits : ∀ {uid e}, .wait uid e ∈ K → uid < v.nextUid
  inj : ∀ {t u m n}, v.taskIdToStateMachine.get? t = some m →
    v.taskIdToStateMachine.get? u = some n → m.uid = n.uid → t = u
  bound : ∀ {t m}, v.taskIdToStateMachine.get? t = some m → m.uid < v.nextUid
  live : ∀ {t m}, v.taskIdToStateMachine.get? t = some m → m.state.isTerminal = false

namespace Locked

variable {v v' : TaskView}

/-- Only the machines, the owners of the locks and the next machine's number matter. -/
theorem frame (h : Locked v K) (hm : v'.taskIdToStateMachine = v.taskIdToStateMachine)
    (hl : ∀ uid, (v'.locks uid).owner = (v.locks uid).owner) (hn : v'.nextUid = v.nextUid) : Locked v' K := by
  refine ⟨?_, ?_, ?_, ?_, ?_, ?_, ?_⟩
  · intro uid
    rw [hl]
    exact h.held uid
  · rw [hm]
    exact h.machine
  · rw [hm, hn]
    exact h.closed
  · rw [hn]
    exact h.waits
  · rw [hm]
    exact h.inj
  · rw [hm, hn]
    exact h.bound
  · rw [hm]
    exact h.live

theorem events {L : Multiset Tok} (h : Locked v (L + K)) {L' : Multiset Tok}
    (hL : ∀ a ∈ L, (∃ e, a = .event e) ∨ ∃ uid e, a = .wait uid e) (hL' : ∀ a ∈ L', (∃ e, a = .event e) ∨
      ∃ uid e, a = .wait uid e ∧ uid < v.nextUid) : Locked v (L' + K) := by
  have hz : ∀ uid, holders uid L = 0 := by
    refine fun uid => Multiset.countP_eq_zero.mpr fun a ha => ?_
    rcases hL a ha with ⟨e, rfl⟩ | ⟨_, e, rfl⟩ <;> exact Bool.false_ne_true
  have hz' : ∀ uid, holders uid L' = 0 := by
    refine fun uid => Multiset.countP_eq_zero.mpr fun a ha => ?_
    rcases hL' a ha with ⟨e, rfl⟩ | ⟨_, e, rfl, _⟩ <;> exact Bool.false_ne_true
  have hmem : ∀ {a}, a ∈ L' + K → a ∈ L' ∨ a ∈ L + K := by
    intro a ha
    rcases Multiset.mem_add.mp ha with ha | ha
    · exact .inl ha
    · exact .inr (Multiset.mem_add.mpr (.inr ha))
  refine ⟨?_, ?_, ?_, ?_, h.inj, h.bound, h.live⟩
  · intro uid
    rw [← h.held uid, holders_add, holders_add, hz, hz']
  · intro uid e source phase ha
    rcases hmem ha with ha | ha
    · rcases hL' _ ha with ⟨_, hx⟩ | ⟨_, _, hx, _⟩ <;> cases hx
    · exact h.machine ha
  · intro uid ha
    rcases hmem ha with ha | ha
    · rcases hL' _ ha with ⟨_, hx⟩ | ⟨_, _, hx, _⟩ <;> cases hx
    · exact h.closed ha
  · intro uid e ha
    rcases hmem ha with ha | ha
    · rcases hL' _ ha with ⟨_, hx⟩ | ⟨_, _, hx, hn⟩
      · cases hx
      · cases hx
        exact hn
    · exact h.waits ha

theorem owner (h : Locked v ({.apply uid e source phase} + K)) :
    (v.locks uid).owner.isSome = true := by
  have hh := h.held uid
  rw [holders_add, holders_singleton] at hh
  simp only [Tok.holds, decide_true, if_true] at hh
  by_contra hn
  simp only [hn] at hh
  simp at hh

theorem alone (h : Locked v ({.apply uid e source phase} + K)) : holders uid K = 0 := by
  have hh := h.held uid
  rw [h.owner, holders_add, holders_singleton] at hh
  simpa [Tok.holds] using hh

theorem get (h : Locked v ({.apply uid e source phase} + K)) :
    v.taskIdToStateMachine.get? e.taskId = some ⟨uid, source⟩ :=
  h.machine (Multiset.mem_add.mpr (.inl (Multiset.mem_singleton_self _)))

/-- Events of one task are applied one after the other. -/
theorem distinct (h : Locked v ({.apply uid e source phase} + K)) {uid' : Nat} {e' : TaskEvent}
    {source' : TaskState} {phase' : Phase} (ha : .apply uid' e' source' phase' ∈ K) :
    e'.taskId ≠ e.taskId := by
  intro he
  have hm := h.machine (Multiset.mem_add.mpr (.inr ha))
  rw [he, h.get] at hm
  cases hm
  have := holders_eq_zero h.alone ha
  simp [Tok.holds] at this

theorem advance (h : Locked v ({.apply uid e source phase} + K)) (phase' : Phase) :
    Locked v ({.apply uid e source phase'} + K) := by
  have hmem : ∀ {a}, a ∈ ({.apply uid e source phase'} + K : Multiset Tok) →
      a = .apply uid e source phase' ∨ a ∈ ({.apply uid e source phase} + K : Multiset Tok) := by
    intro a ha
    rcases Multiset.mem_add.mp ha with ha | ha
    · exact .inl (Multiset.mem_singleton.mp ha)
    · exact .inr (Multiset.mem_add.mpr (.inr ha))
  refine ⟨?_, ?_, ?_, ?_, h.inj, h.bound, h.live⟩
  · intro u
    rw [← h.held u, holders_add, holders_add, holders_singleton, holders_singleton]
    rfl
  · intro u e' x p ha
    rcases hmem ha with ha | ha
    · cases ha
      exact h.get
    · exact h.machine ha
  · intro u ha
    rcases hmem ha with ha | ha
    · cases ha
    · exact h.closed ha
  · intro u e' ha
    rcases hmem ha with ha | ha
    · cases ha
    · exact h.waits ha

theorem release {a : Tok} (h : Locked v ({a} + K)) (ha : a.holds uid = true)
    (hl : v'.locks = Function.update v.locks uid { v.locks uid with owner := none })
    (hm : v'.taskIdToStateMachine = v.taskIdToStateMachine) (hn : v'.nextUid = v.nextUid) :
    Locked v' K := by
  have hmem : ∀ {b}, b ∈ K → b ∈ ({a} + K : Multiset Tok) :=
    fun hb => Multiset.mem_add.mpr (.inr hb)
  refine ⟨?_, fun hb => ?_, fun hb => ?_, fun hb => ?_, ?_, ?_, ?_⟩
  · intro u
    have hh := h.held u
    rw [holders_add, holders_singleton] at hh
    rw [hl]
    by_cases hu : u = uid
    · subst hu
      rw [Function.update_self]
      rw [if_pos ha] at hh
      split at hh <;> simp at hh ⊢
      exact hh
    · rw [Function.update_of_ne hu, ← hh]
      have : a.holds u = false := by
        cases a with
        | apply u' => 
          simp only [Tok.holds, decide_eq_true_eq] at ha
          simp [Tok.holds, ha, Ne.symm hu]
        | closing u' =>
          simp only [Tok.holds, decide_eq_true_eq] at ha
          simp [Tok.holds, ha, Ne.symm hu]
        | _ => rfl
      simp [this]
  · rw [hm]
    exact h.machine (hmem hb)
  · rw [hm, hn]
    exact h.closed (hmem hb)
  · rw [hn]
    exact h.waits (hmem hb)
  · rw [hm]
    exact h.inj
  · rw [hm, hn]
    exact h.bound
  · rw [hm]
    exact h.live

/-- The machine of the event that is being applied is replaced by `m` or removed. -/
theorem update {d : Dict TaskID StateMachine} (h : Locked v ({.apply uid e source phase} + K))
    (hd : ∀ t, t ≠ e.taskId → d.get? t = v.taskIdToStateMachine.get? t)
    (he : ∀ m, d.get? e.taskId = some m → m.uid = uid ∧ m.state.isTerminal = false)
    (hm : v'.taskIdToStateMachine = d)
    (hl : v'.locks = Function.update v.locks uid { v.locks uid with owner := none })
    (hn : v'.nextUid = v.nextUid) : Locked v' K := by
  have hmem : ∀ {b}, b ∈ K → b ∈ ({.apply uid e source phase} + K : Multiset Tok) :=
    fun hb => Multiset.mem_add.mpr (.inr hb)
  have hold : ∀ {t m}, d.get? t = some m → m.state.isTerminal = false ∧
      ∃ m', v.taskIdToStateMachine.get? t = some m' ∧ m'.uid = m.uid := by
    intro t m ht
    by_cases hte : t = e.taskId
    · subst hte
      obtain ⟨hu, hs⟩ := he m ht
      exact ⟨hs, ⟨uid, source⟩, h.get, hu.symm⟩
    · rw [hd t hte] at ht
      exact ⟨h.live ht, m, ht, rfl⟩
  refine ⟨?_, fun hb => ?_, fun hb => ?_, fun hb => ?_, fun ht hu hx => ?_, fun ht => ?_, fun ht => ?_⟩
  · have hr : Locked { v with locks := v'.locks } K :=
      h.release (by simp [Tok.holds]) hl rfl rfl
    exact hr.held
  · rw [hm, hd _ (h.distinct hb)]
    exact h.machine (hmem hb)
  · obtain ⟨hlt, hb⟩ := h.closed (hmem hb)
    rw [hm, hn]
    refine ⟨hlt, fun t m ht => ?_⟩
    obtain ⟨_, m', hm', hu⟩ := hold ht
    rw [← hu]
    exact hb t m' hm'
  · rw [hn]
    exact h.waits (hmem hb)
  · rw [hm] at ht hu
    obtain ⟨_, m', hm', hx'⟩ := hold ht
    obtain ⟨_, n', hn', hy'⟩ := hold hu
    exact h.inj hm' hn' (by rw [hx', hy', hx])
  · rw [hm] at ht
    obtain ⟨_, m', hm', hx'⟩ := hold ht
    rw [hn, ← hx']
    exact h.bound hm'
  · rw [hm] at ht
    exact (hold ht).1

/-- The machine of the event that is being applied is removed under its lock. -/
theorem shut (h : Locked v ({.apply uid e source phase} + K))
    (hm : v'.taskIdToStateMachine = v.taskIdToStateMachine.erase e.taskId) (hl : v'.locks = v.locks)
    (hn : v'.nextUid = v.nextUid) : Locked v' ({.closing uid} + K) := by
  have hmem : ∀ {b}, b ∈ ({.closing uid} + K : Multiset Tok) → b = .closing uid ∨ b ∈ K := by
    intro b hb
    rwa [Multiset.mem_add, Multiset.mem_singleton] at hb
  have hin : ∀ {b}, b ∈ K → b ∈ ({.apply uid e source phase} + K : Multiset Tok) :=
    fun hb => Multiset.mem_add.mpr (.inr hb)
  have hold : ∀ {u m}, v'.taskIdToStateMachine.get? u = some m →
      u ≠ e.taskId ∧ v.taskIdToStateMachine.get? u = some m := by
    intro u m hu
    rw [hm, Dict.get?_erase] at hu
    split at hu
    · cases hu
    · next hue => exact ⟨hue, hu⟩
  refine ⟨fun u => ?_, fun hb => ?_, fun hb => ?_, fun hb => ?_,
    fun hx hy => h.inj (hold hx).2 (hold hy).2, fun hx => hn ▸ h.bound (hold hx).2,
    fun hx => h.live (hold hx).2⟩
  · rw [hl, ← h.held u, holders_add, holders_add, holders_singleton, holders_singleton]
    rfl
  · rcases hmem hb with hb | hb
    · cases hb
    · rw [hm, Dict.get?_erase_ne _ (h.distinct hb)]
      exact h.machine (hin hb)
  · rcases hmem hb with hb | hb
    · cases hb
      refine ⟨hn ▸ h.bound h.get, fun u m hu hx => ?_⟩
      obtain ⟨hue, hu⟩ := hold hu
      exact hue (h.inj hu h.get hx)
    · obtain ⟨hlt, hc⟩ := h.closed (hin hb)
      exact ⟨hn ▸ hlt, fun u m hu => hc u m (hold hu).2⟩
  · rcases hmem hb with hb | hb
    · cases hb
    · exact hn ▸ h.waits (hin hb)

theorem register (h : Locked v K) (ht : v.taskIdToStateMachine.get? t = none)
    (hm : v'.taskIdToStateMachine = v.taskIdToStateMachine.set t ⟨v.nextUid, .inactive⟩)
    (hl : v'.locks = v.locks) (hn : v'.nextUid = v.nextUid + 1) : Locked v' K := by
  have hold : ∀ {u m}, v'.taskIdToStateMachine.get? u = some m →
      u = t ∧ m = ⟨v.nextUid, .inactive⟩ ∨ u ≠ t ∧ v.taskIdToStateMachine.get? u = some m := by
    intro u m hu
    rw [hm, Dict.get?_set] at hu
    split at hu
    · next hut => exact .inl ⟨hut, (Option.some.inj hu).symm⟩
    · next hut => exact .inr ⟨hut, hu⟩
  refine ⟨?_, fun hb => ?_, fun hb => ?_, fun hb => ?_, fun hx hy huv => ?_, fun hx => ?_,
    fun hx => ?_⟩
  · rw [hl]
    exact h.held
  · have hb := h.machine hb
    rw [hm, Dict.get?_set_ne]
    · exact hb
    · rintro rfl
      rw [ht] at hb
      cases hb
  · obtain ⟨hlt, hb⟩ := h.closed hb
    refine ⟨by omega, fun u m hu => ?_⟩
    rcases hold hu with ⟨_, rfl⟩ | ⟨_, hu⟩
    · exact Nat.ne_of_gt hlt
    · exact hb u m hu
  · have := h.waits hb
    omega
  · rcases hold hx with ⟨rfl, rfl⟩ | ⟨_, hx⟩ <;> rcases hold hy with ⟨rfl, rfl⟩ | ⟨_, hy⟩
    · rfl
    · have := h.bound hy
      simp only at huv
      omega
    · have := h.bound hx
      simp only at huv
      omega
    · exact h.inj hx hy huv
  · rw [hn]
    rcases hold hx with ⟨_, rfl⟩ | ⟨_, hx⟩
    · exact Nat.lt_succ_self _
    · exact Nat.lt_succ_of_lt (h.bound hx)
  · rcases hold hx with ⟨_, rfl⟩ | ⟨_, hx⟩
    · rfl
    · exact h.live hx

theorem take (h : Locked v ({.wait uid e} + K)) {l : Lock} (hf : (v.locks uid).owner = none)
    (hm : v.taskIdToStateMachine.get? e.taskId = some ⟨uid, source⟩)
    (hl : v'.locks = Function.update v.locks uid l) (ho : l.owner.isSome = true)
    (hm' : v'.taskIdToStateMachine = v.taskIdToStateMachine) (hn : v'.nextUid = v.nextUid) :
    Locked v' ({.apply uid e source phase} + K) := by
  have hmem : ∀ {b}, b ∈ ({.apply uid e source phase} + K : Multiset Tok) →
      b = .apply uid e source phase ∨ b ∈ ({.wait uid e} + K : Multiset Tok) := by
    intro b hb
    rcases Multiset.mem_add.mp hb with hb | hb
    · exact .inl (Multiset.mem_singleton.mp hb)
    · exact .inr (Multiset.mem_add.mpr (.inr hb))
  refine ⟨?_, fun hb => ?_, fun hb => ?_, fun hb => ?_, ?_, ?_, ?_⟩
  · intro u
    have hh := h.held u
    rw [holders_add, holders_singleton] at hh ⊢
    rw [hl]
    by_cases hu : u = uid
    · subst hu
      rw [Function.update_self, ho]
      rw [hf] at hh
      simpa [Tok.holds] using hh
    · rw [Function.update_of_ne hu, ← hh]
      simp [Tok.holds, Ne.symm hu]
  · rw [hm']
    rcases hmem hb with hb | hb
    · cases hb
      exact hm
    · exact h.machine hb
  · rw [hm', hn]
    rcases hmem hb with hb | hb
    · cases hb
    · exact h.closed hb
  · rw [hn]
    rcases hmem hb with hb | hb
    · cases hb
    · exact h.waits hb
  · rw [hm']
    exact h.inj
  · rw [hm', hn]
    exact h.bound
  · rw [hm']
    exact h.live

end Locked

namespace Sched

variable {x y : TaskState}

theorem commit_eq (hm : s.taskIdToStateMachine.get? t = some ⟨uid, x⟩)
    (ho : (s.locks uid).owner.isSome = true) (y : TaskState) :
    s.commit t y = { (s.count x (-1)).count y 1 with
      taskIdToStateMachine := s.taskIdToStateMachine.set t ⟨uid, y⟩ } := by
  obtain ⟨o, ho⟩ := Option.isSome_iff_exists.mp ho
  simp [commit, getStateMachine, hm, ho]

theorem remove_eq (hm : s.taskIdToStateMachine.get? t = some ⟨uid, x⟩)
    (ho : (s.locks uid).owner.isSome = true) (y : TaskState) :
    (s.commit t y).removeStateMachine t = { (s.count x (-1)).count y 1 with
      taskIdToStateMachine := s.taskIdToStateMachine.erase t
      trace := .removed t uid y :: s.trace } := by
  rw [commit_eq hm ho]
  simp only [removeStateMachine, getStateMachine, Dict.get?_set_self, Dict.erase_set]
  rfl

theorem settle_eq (hm : s.taskIdToStateMachine.get? t = some ⟨uid, x⟩)
    (ho : (s.locks uid).owner.isSome = true) (hy : y.isTerminal = false) :
    s.settle t y = { (s.count x (-1)).count y 1 with
      taskIdToStateMachine := s.taskIdToStateMachine.set t ⟨uid, y⟩ } := by
  rw [settle, hy, commit_eq hm ho]
  rfl

theorem settle_terminal_eq (hm : s.taskIdToStateMachine.get? t = some ⟨uid, x⟩)
    (ho : (s.locks uid).owner.isSome = true) (hy : y.isTerminal = true) :
    s.settle t y = { (s.count x (-1)).count y 1 with
      taskIdToStateMachine := s.taskIdToStateMachine.erase t
      trace := .removed t uid y :: s.trace
      taskIdToTask := s.taskIdToTask.erase t } := by
  rw [settle, hy, if_pos rfl, remove_eq hm ho]
  rfl

theorem tearDown_eq (hm : s.taskIdToStateMachine.get? t = some ⟨uid, x⟩)
    (ho : (s.locks uid).owner.isSome = true) :
    s.tearDown t = { (s.count x (-1)).count .failed 1 with
      taskIdToStateMachine := s.taskIdToStateMachine.erase t
      trace := .removed t uid .failed :: s.trace
      taskIdToTask := s.taskIdToTask.erase t
      unassigned := s.unassigned.erase t } := by
  rw [tearDown, remove_eq hm ho]
  rfl

end Sched

theorem lockReady_owner (h : Sched.lockReady uid i s = true) : (s.locks uid).owner = none := by
  simp only [Sched.lockReady, Bool.and_eq_true, Option.isNone_iff_eq_none] at h
  exact h.1

theorem TaskStep.locked (h : TaskStep i s t₁ s' t₂) (hl : Locked s.taskView (taskToks t₁ + K)) :
    Locked s'.taskView (taskToks t₂ + K) := by
  cases h with
  | message => exact hl
  | known => exact hl
  | refuse h => exact Locked.register hl h rfl rfl rfl
  | hold h => exact Locked.register hl h rfl rfl rfl
  | assign h =>
    refine Locked.events (L := 0) ?_ (by simp) ?_
    · exact Locked.register hl h rfl rfl rfl
    · intro a ha
      exact .inl ⟨_, Multiset.mem_singleton.mp ha⟩
  | acquire =>
    refine (Locked.events (L := 0) hl (by simp) ?_).frame rfl (fun _ => rfl) rfl
    intro a ha
    exact .inl ⟨_, Multiset.mem_singleton.mp ha⟩
  | acquireNone => exact hl.frame rfl (fun _ => rfl) rfl
  | drainFail => exact hl.frame rfl (fun _ => rfl) rfl
  | @loseEvent e =>
    refine Locked.events (L := {.event e}) hl ?_ (by rintro a ⟨⟩)
    intro a ha
    exact .inl ⟨e, Multiset.mem_singleton.mp ha⟩
  | report =>
    refine Locked.events (L := 0) hl (by simp) ?_
    intro a ha
    exact .inl ⟨_, Multiset.mem_singleton.mp ha⟩
  | @drop e =>
    have hl : Locked (s.dropEvent e).taskView ({.event e} + K) := Locked.frame hl rfl (fun _ => rfl) rfl
    refine Locked.events hl ?_ (by rintro a ⟨⟩)
    intro a ha
    exact .inl ⟨e, Multiset.mem_singleton.mp ha⟩
  | @enqueue e m h =>
    refine Locked.frame (v := s.taskView) ?_ rfl (fun u => ?_) rfl
    · refine Locked.events (L := {.event e}) hl ?_ ?_
      · intro a ha
        exact .inl ⟨e, Multiset.mem_singleton.mp ha⟩
      · intro a ha
        exact .inr ⟨_, _, Multiset.mem_singleton.mp ha, hl.bound h⟩
    · change (Function.update s.locks m.uid _ u).owner = (s.locks u).owner
      by_cases hum : u = m.uid
      · subst hum
        rw [Function.update_self]
      · rw [Function.update_of_ne hum]
  | @expire uid e =>
    refine Locked.frame (v := s.taskView) ?_ rfl (fun u => ?_) rfl
    · refine Locked.events (L := {.wait uid e}) hl ?_ (by rintro a ⟨⟩)
      intro a ha
      exact .inr ⟨uid, e, Multiset.mem_singleton.mp ha⟩
    · change (Function.update s.locks uid _ u).owner = (s.locks u).owner
      by_cases hu : u = uid
      · subst hu
        rw [Function.update_self]
      · rw [Function.update_of_ne hu]
  | @takeStale uid e hr h =>
    refine Locked.frame (v := s.taskView) ?_ rfl (fun u => ?_) rfl
    · refine Locked.events (L := {.wait uid e}) hl ?_ (by rintro a ⟨⟩)
      intro a ha
      exact .inr ⟨uid, e, Multiset.mem_singleton.mp ha⟩
    · change (Function.update (Function.update s.locks uid _) uid _ u).owner = (s.locks u).owner
      by_cases hu : u = uid
      · subst hu
        rw [Function.update_self, lockReady_owner hr]
      · rw [Function.update_of_ne hu, Function.update_of_ne hu]
  | take hr h => exact hl.take (lockReady_owner hr) h rfl rfl rfl rfl
  | decline =>
    rw [taskToks_zero, zero_add]
    exact hl.release (decide_eq_true rfl) rfl rfl rfl
  | dispatch => exact (hl.advance _).frame rfl (fun _ => rfl) rfl
  | unqueue => exact (hl.advance _).frame rfl (fun _ => rfl) rfl
  | release => exact (hl.advance _).frame rfl (fun _ => rfl) rfl
  | releaseFail => exact (hl.advance _).frame rfl (fun _ => rfl) rfl
  | owner => exact hl.frame rfl (fun _ => rfl) rfl
  | tell => exact (hl.advance _).frame rfl (fun _ => rfl) rfl
  | place => exact (hl.advance _).frame rfl (fun _ => rfl) rfl
  | placeFail => exact (hl.advance _).frame rfl (fun _ => rfl) rfl
  | suspend => exact (hl.advance _).frame rfl (fun _ => rfl) rfl
  | finish =>
    rw [Sched.taskView_onTaskFinish]
    exact hl.advance _
  | answer => exact (hl.advance _).frame rfl (fun _ => rfl) rfl
  | spoil => exact (hl.advance _).frame rfl (fun _ => rfl) rfl
  | @settle uid e source phase y h =>
    have hl : Locked _ ({.apply uid e source phase} + K) := hl
    rw [taskToks_zero, zero_add]
    cases hy : y.isTerminal with
    | false =>
      rw [Sched.settle_eq hl.get hl.owner hy]
      refine hl.update (d := s.taskIdToStateMachine.set e.taskId ⟨uid, y⟩) ?_ ?_ rfl rfl rfl
      · exact fun t ht => Dict.get?_set_ne _ ht _
      · intro m hm
        rw [Dict.get?_set_self] at hm
        cases hm
        exact ⟨rfl, hy⟩
    | true =>
      rw [Sched.settle_terminal_eq hl.get hl.owner hy]
      refine hl.update (d := s.taskIdToStateMachine.erase e.taskId) ?_ ?_ rfl rfl rfl
      · exact fun t ht => Dict.get?_erase_ne _ ht
      · intro m hm
        rw [Dict.get?_erase_self] at hm
        cases hm
  | faulted => exact (hl.advance _).frame rfl (fun _ => rfl) rfl
  | popOwner =>
    rw [Sched.taskView_onTaskFinish]
    exact hl.advance _
  | answerFault => exact (hl.advance _).frame rfl (fun _ => rfl) rfl
  | spoilFault => exact (hl.advance _).frame rfl (fun _ => rfl) rfl
  | free => exact (hl.advance _).frame rfl (fun _ => rfl) rfl
  | @tearDown uid e source phase h =>
    have hl : Locked _ ({.apply uid e source phase} + K) := hl
    rw [Sched.tearDown_eq hl.get hl.owner]
    exact hl.shut rfl rfl rfl
  | close =>
    rw [taskToks_zero, zero_add]
    exact hl.release (decide_eq_true rfl) rfl rfl rfl

theorem removeWorker_locked {w : WorkerID} {ts : List TaskID}
    (hr : s.removeWorker w = (.ok ts, s')) (h : Locked s.taskView K) :
    Locked s'.taskView (toks (fun t => .event (.workerDisconnected t w)) ts + K) := by
  refine Locked.events (L := 0) ?_ (by simp) ?_
  · rw [show s' = _ from (congrArg Prod.snd hr).symm]
    exact (zero_add K).symm ▸ h.frame rfl (fun _ => rfl) rfl
  · intro a ha
    obtain ⟨t, _, rfl⟩ := mem_toks.mp ha
    exact .inl ⟨_, rfl⟩

theorem Run.locked {M : Multiset (Tid × Tok)} (h : Run cfg s M) :
    Locked s.taskView (taskToks (M.map Prod.snd)) := by
  refine Run.taskInvariant (J := Locked) ?_ TaskStep.locked ?_ removeWorker_locked ?_ h
  · refine ⟨fun _ => rfl, ?_, ?_, ?_, ?_, ?_, ?_⟩ <;> simp [Sched.init, Sched.taskView]
  · exact fun h => h.frame rfl (fun _ => rfl) rfl
  · intro s s' w x K hr h
    rw [show s' = _ from (congrArg Prod.snd hr).symm]
    exact h.frame rfl (fun _ => rfl) rfl

/-- Every event that is under way was noted when it was raised. -/
def Noted (l : List TaskEvent) (K : Multiset Tok) : Prop :=
  ∀ e, e.IsInternal → pending e K ≤ l.count e

namespace Noted

variable {l : List TaskEvent}

/-- An event that is being applied is not under way any more. -/
theorem apply {L : Multiset Tok} (h : Noted l (L + K)) (hL : ∀ e, pending e L = 0)
    {L' : Multiset Tok} (hL' : ∀ e, pending e L' = 0) : Noted l (L' + K) := by
  intro e he
  have hh := h e he
  rw [pending_add, hL] at hh
  rwa [pending_add, hL']

theorem drop (h : Noted l ({a} + K)) (ha : a.pends e = true) : Noted (l.erase e) (0 + K) := by
  intro e' he
  have hh := h e' he
  rw [pending_add, pending_singleton] at hh
  rw [zero_add]
  by_cases hee : e' = e
  · subst hee
    rw [if_pos ha] at hh
    rw [List.count_erase_self]
    omega
  · rw [List.count_erase_of_ne hee]
    omega

theorem raise (h : Noted l (0 + K)) : Noted (e :: l) ({.event e} + K) := by
  intro e' he
  have hh := h e' he
  rw [zero_add] at hh
  rw [pending_add, pending_singleton, List.count_cons]
  simp only [Tok.pends, decide_eq_true_eq, beq_iff_eq]
  omega

theorem raiseAll {α : Type} {f : α → TaskEvent} (ts : List α) (h : Noted l K) :
    Noted (ts.map f ++ l) (toks (fun t => .event (f t)) ts + K) := by
  induction ts with
  | nil => simpa [toks] using h
  | cons t ts ih =>
    have hh : Noted _ ({.event (f t)} + _) := raise (e := f t) (by rwa [zero_add])
    rw [← add_assoc] at hh
    exact hh

end Noted

theorem TaskStep.noted (h : TaskStep i s t₁ s' t₂) (hn : Noted s.raised (taskToks t₁ + K)) :
    Noted s'.raised (taskToks t₂ + K) := by
  cases h with
  | message => exact hn
  | known => exact hn
  | refuse => exact hn
  | hold => exact hn
  | assign => exact hn.raise
  | acquire => exact hn.raise
  | acquireNone => exact hn
  | drainFail => exact hn
  | loseEvent =>
    intro e' he
    have hh := hn e' he
    rw [pending_add] at hh ⊢
    exact le_trans (Nat.add_le_add_right (Nat.zero_le _) _) hh
  | @report e _ hi =>
    intro e' he
    have hh := hn e' he
    rw [pending_add] at hh ⊢
    rw [show taskToks {Tok.event e} = {.event e} from rfl, pending_singleton]
    have hne : ¬ e = e' := fun h => hi (h ▸ he)
    simpa [Tok.pends, hne] using hh
  | drop => exact hn.drop (decide_eq_true rfl)
  | enqueue =>
    intro e' he
    have hh := hn e' he
    rw [pending_add] at hh ⊢
    exact hh
  | expire => exact hn.drop (decide_eq_true rfl)
  | takeStale => exact hn.drop (decide_eq_true rfl)
  | take => exact (hn.drop (decide_eq_true rfl)).apply (fun _ => rfl) fun _ => rfl
  | settle =>
    rw [show (Sched.releaseLock _ _).raised = _ from Sched.raised_settle _ _ _]
    exact hn.apply (fun _ => rfl) fun _ => rfl
  | tearDown =>
    rw [Sched.raised_tearDown]
    exact hn.apply (fun _ => rfl) fun _ => rfl
  | finish =>
    rw [show (Sched.onTaskFinish s _).raised = _ from
      congrArg TaskView.raised (s.taskView_onTaskFinish _)]
    exact hn.apply (fun _ => rfl) fun _ => rfl
  | popOwner =>
    rw [show (Sched.onTaskFinish s _).raised = _ from
      congrArg TaskView.raised (s.taskView_onTaskFinish _)]
    exact hn.apply (fun _ => rfl) fun _ => rfl
  | _ => exact hn.apply (fun _ => rfl) fun _ => rfl

theorem removeWorker_noted {w : WorkerID} {ts : List TaskID}
    (hr : s.removeWorker w = (.ok ts, s')) (h : Noted s.raised K) :
    Noted s'.raised (toks (fun t => .event (.workerDisconnected t w)) ts + K) := by
  obtain ⟨hx, rfl⟩ := Prod.mk.inj hr
  have hh := Noted.raiseAll (f := fun t => .workerDisconnected t w) ts h
  change Noted (List.map _ ((s.policy.removeWorker w).1.toOption.getD []) ++ s.raised) _
  rwa [hx]

theorem Run.noted {M : Multiset (Tid × Tok)} (h : Run cfg s M) :
    Noted s.raised (taskToks (M.map Prod.snd)) := by
  refine Run.taskInvariant (J := fun v => Noted v.raised) ?_ TaskStep.noted ?_ removeWorker_noted ?_ h
  · exact fun _ _ => Nat.zero_le _
  · exact fun h => h
  · intro s s' w x K hr h
    obtain ⟨hx, rfl⟩ := Prod.mk.inj hr
    change Noted (List.map _ ((s.policy.removeWorker w).1.toOption.getD []) ++ s.raised) K
    rwa [hx]

end Scaler
