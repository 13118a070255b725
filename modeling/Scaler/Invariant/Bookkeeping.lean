import Scaler.Invariant.Locality

/-! The books of the task controller: the counters of the states, the payloads and the
queue of tasks without a worker. -/

namespace Scaler

open Collections Coroutine

variable {cfg : SchedulerConfig} {ok : Prop} {i : Tid} {s s' : Sched} {t₁ t₂ K : Multiset Tok}
  {t : TaskID} {p p' : Place}

section Counters

def Obs.removedIn (x : TaskState) : Obs → Bool
  | .removed _ _ y => y = x
  | _ => false

/-- A counter counts the machines in its state and those that were removed in it, and a
machine is removed in a terminal state. -/
structure Counted (v : TaskView) : Prop where
  counter : ∀ x, v.statistics x = v.taskIdToStateMachine.countValues (fun m => m.state = x) +
    v.history.countP (Obs.removedIn x)
  removed : ∀ x, x.isTerminal = false → v.history.countP (Obs.removedIn x) = 0

variable {v v' : TaskView}

theorem Counted.frame (h : Counted v) (hs : v'.statistics = v.statistics)
    (hm : v'.taskIdToStateMachine = v.taskIdToStateMachine)
    (hh : ∀ x, v'.history.countP (Obs.removedIn x) = v.history.countP (Obs.removedIn x)) :
    Counted v' := by
  refine ⟨fun x => ?_, fun x hx => ?_⟩
  · rw [hs, hm, hh]
    exact h.counter x
  · rw [hh]
    exact h.removed x hx

theorem Counted.register (h : Counted v) {uid : Nat} (ht : v.taskIdToStateMachine.get? t = none)
    (hs : v'.statistics = Function.update v.statistics .inactive (v.statistics .inactive + 1))
    (hm : v'.taskIdToStateMachine = v.taskIdToStateMachine.set t ⟨uid, .inactive⟩)
    (hh : ∀ x, v'.history.countP (Obs.removedIn x) = v.history.countP (Obs.removedIn x)) :
    Counted v' := by
  refine ⟨fun x => ?_, fun x hx => ?_⟩
  · rw [hs, hm, hh, Dict.countValues_set_absent _ _ ht]
    have hx := h.counter x
    by_cases he : TaskState.inactive = x
    · subst he
      rw [Function.update_self, hx]
      simp
      omega
    · rw [Function.update_of_ne (Ne.symm he), hx]
      simp [he]
  · rw [hh]
    exact h.removed x hx

/-- A transition moves one machine from a counter to another. -/
theorem statistics_transition {x y : TaskState} (z : TaskState) :
    ((s.count x (-1)).count y 1).statistics z =
      s.statistics z - (if x = z then 1 else 0) + (if y = z then 1 else 0) := by
  unfold Sched.count
  by_cases hy : y = z
  · subst hy
    by_cases hx : x = y
    · subst hx
      simp
    · simp [hx, Function.update_of_ne (Ne.symm hx)]
  · by_cases hx : x = z
    · subst hx
      simp [hy, Function.update_of_ne (Ne.symm hy)]
      omega
    · simp [hx, hy, Function.update_of_ne (Ne.symm hx), Function.update_of_ne (Ne.symm hy)]

theorem Counted.commit (h : Counted s.taskView) {uid : Nat} {x y : TaskState}
    (ht : s.taskIdToStateMachine.get? t = some ⟨uid, x⟩)
    (hs : v.statistics = ((s.count x (-1)).count y 1).statistics)
    (hm : v.taskIdToStateMachine = s.taskIdToStateMachine.set t ⟨uid, y⟩)
    (hh : v.history = s.taskView.history) : Counted v := by
  refine ⟨fun z => ?_, fun z hz => hh ▸ h.removed z hz⟩
  have hz : s.statistics z = _ := h.counter z
  have hc := s.taskIdToStateMachine.countValues_set_present (v := ⟨uid, y⟩)
    (fun m => decide (m.state = z)) ht
  rw [hs, hm, hh, statistics_transition, hz]
  simp only [decide_eq_true_eq, Sched.taskView] at hc ⊢
  split_ifs at hc ⊢ <;> omega

theorem Counted.remove (h : Counted s.taskView) {uid : Nat} {x y : TaskState}
    (hy : y.isTerminal = true) (ht : s.taskIdToStateMachine.get? t = some ⟨uid, x⟩)
    (hs : v.statistics = ((s.count x (-1)).count y 1).statistics)
    (hm : v.taskIdToStateMachine = s.taskIdToStateMachine.erase t)
    (hh : v.history = .removed t uid y :: s.taskView.history) : Counted v := by
  have hr : ∀ z, v.history.countP (Obs.removedIn z) =
      s.taskView.history.countP (Obs.removedIn z) + if y = z then 1 else 0 := by
    intro z
    rw [hh, List.countP_cons]
    simp [Obs.removedIn]
  refine ⟨fun z => ?_, fun z hz => ?_⟩
  · have hz : s.statistics z = _ := h.counter z
    have hc := s.taskIdToStateMachine.countValues_erase (fun m => decide (m.state = z)) ht
    rw [hs, hm, hr, statistics_transition, hz]
    simp only [decide_eq_true_eq, Sched.taskView] at hc ⊢
    split_ifs at hc ⊢ <;> push_cast <;> omega
  · have hyz : y ≠ z := by
      rintro rfl
      rw [hy] at hz
      cases hz
    rw [hr, h.removed z hz, if_neg hyz]

theorem TaskStep.counted (h : TaskStep i s t₁ s' t₂) (hl : Locked s.taskView (taskToks t₁ + K))
    (hk : Counted s.taskView) : Counted s'.taskView := by
  cases h with
  | refuse h => exact hk.register h rfl rfl fun _ => rfl
  | hold h => exact hk.register h rfl rfl fun _ => rfl
  | assign h => exact hk.register h rfl rfl fun _ => rfl
  | finish =>
    rw [Sched.taskView_onTaskFinish]
    exact hk
  | popOwner =>
    rw [Sched.taskView_onTaskFinish]
    exact hk
  | @settle uid e source phase y =>
    have hl : Locked _ ({.apply uid e source phase} + K) := hl
    cases hy : y.isTerminal with
    | false =>
      rw [Sched.settle_eq hl.get hl.owner hy]
      exact hk.commit hl.get rfl rfl rfl
    | true =>
      rw [Sched.settle_terminal_eq hl.get hl.owner hy]
      exact hk.remove hy hl.get rfl rfl rfl
  | @tearDown uid e source phase =>
    have hl : Locked _ ({.apply uid e source phase} + K) := hl
    rw [Sched.tearDown_eq hl.get hl.owner]
    exact hk.remove rfl hl.get rfl rfl rfl
  | spoilFault h =>
    refine hk.frame rfl rfl fun _ => ?_
    rcases h with rfl | rfl <;> rfl
  | _ => exact hk.frame rfl rfl fun _ => rfl

theorem Run.counted {M : Multiset (Tid × Tok)} (h : Run cfg s M) : Counted s.taskView := by
  have hall : Locked s.taskView (taskToks (M.map Prod.snd)) ∧ Counted s.taskView := by
    refine Run.taskInvariant (J := fun v K => Locked v K ∧ Counted v) ?_ ?_ ?_ ?_ ?_ h
    · exact ⟨(Run.init : Run cfg _ 0).locked, fun _ => rfl, fun _ _ => rfl⟩
    · rintro i s s' t t' K hs ⟨hl, hk⟩
      exact ⟨hs.locked hl, hs.counted hl hk⟩
    · rintro s w c n K ⟨hl, hk⟩
      exact ⟨hl.frame rfl (fun _ => rfl) rfl, hk.frame rfl rfl fun _ => rfl⟩
    · rintro s s' w ts K hs ⟨hl, hk⟩
      refine ⟨removeWorker_locked hs hl, ?_⟩
      rw [show s' = _ from (congrArg Prod.snd hs).symm]
      exact hk.frame rfl rfl fun _ => rfl
    · rintro s s' w x K hs ⟨hl, hk⟩
      rw [show s' = _ from (congrArg Prod.snd hs).symm]
      exact ⟨hl.frame rfl (fun _ => rfl) rfl, hk.frame rfl rfl fun _ => rfl⟩
  exact hall.2

/-- Registered machines are not in a terminal state. -/
theorem Run.count_terminal {M : Multiset (Tid × Tok)} (h : Run cfg s M) {x : TaskState}
    (hx : x.isTerminal = true) :
    s.taskIdToStateMachine.countValues (fun m => decide (m.state = x)) = 0 := by
  refine Nat.eq_zero_of_not_pos fun hc => ?_
  obtain ⟨t, m, hm, hs⟩ := Dict.countValues_pos.mp hc
  have hl := h.locked.live hm
  rw [of_decide_eq_true hs, hx] at hl
  cases hl

end Counters

section Queue

def TaskEvent.isDispatch : TaskEvent → Bool
  | .hasCapacity _ _ => true
  | _ => false

/-- The phases in which the task of an action may be queued again. -/
def Phase.Parks : Phase → Prop
  | .queued | .faulted | .reported _ | .freed => True
  | _ => False

/-- The action of this event gets here from this state. -/
def Busy.Coherent (b : Busy) : Prop :=
  match b.phase with
  | .vacant => b.event.Releases b.source
  | .placed => b.event.isDispatch = true ∨ b.source = .running ∨ b.source = .balanceCanceling
  | .queued => b.source = .running ∨ b.source = .balanceCanceling
  | .told => b.source = .running
  | _ => True

/-- The dispatches that are not applied yet. -/
def Place.dispatches (p : Place) : Nat := p.waits.countP fun w => w.event.isDispatch = true

/-- The dispatches that are not over. -/
def Place.dispatching (p : Place) : Nat :=
  p.dispatches + if p.busy.any (·.event.isDispatch) then 1 else 0

/-- A task has a payload as long as it has a machine; it is queued at most once, and only
while it is inactive and nothing dispatches it. -/
structure Place.Booked (p : Place) : Prop where
  payload : p.payload.isSome = p.machine.isSome
  busy : ∀ b, p.busy = some b → p.machine = some ⟨b.uid, b.source⟩ ∧ b.Coherent
  single : p.queued ≤ 1
  queue : 0 < p.queued → ∃ m, p.machine = some m ∧
    (∀ b, p.busy = some b → b.phase = .start ∨ b.phase.Parks) ∧
    (m.state ≠ .inactive → ∃ b, p.busy = some b ∧ b.phase.Parks)
  dispatch : p.dispatching ≤ 1
  apart : 0 < p.dispatching → p.queued = 0
  inactive : ∀ m, p.machine = some m → m.state ≠ .inactive →
    (∀ b, p.busy = some b → ¬ b.phase.Parks) → p.dispatches = 0

namespace Place.Booked

theorem empty : Place.empty.Booked :=
  ⟨rfl, by rintro b ⟨⟩, Nat.zero_le _, by rintro ⟨⟩, Nat.zero_le _, fun _ => rfl, by rintro m ⟨⟩⟩

/-- What waits changes, but no dispatch is added. -/
theorem frame (h : p.Booked) {W : Multiset Waiting}
    (hW : W.countP (fun w => w.event.isDispatch = true) ≤ p.dispatches) (holder : Option WorkerID)
    (history : List Obs) :
    Place.Booked { p with waits := W, holder := holder, history := history } := by
  have hd := h.dispatch
  have ha := h.apart
  unfold dispatching at hd ha
  refine ⟨h.payload, h.busy, h.single, h.queue, ?_, fun hp => ha ?_, fun m hm hs hk => ?_⟩
  · unfold dispatching dispatches
    dsimp only
    omega
  · unfold dispatching dispatches at hp
    dsimp only at hp
    omega
  · have := h.inactive m hm hs hk
    unfold dispatches
    dsimp only
    omega

theorem advance (h : p.Booked) {b : Busy} (hb : p.busy = some b) (phase : Phase)
    (hc : Busy.Coherent { b with phase := phase }) (hk : b.phase.Parks → phase.Parks)
    (hq : 0 < p.queued → phase.Parks) (holder : Option WorkerID) (history : List Obs) :
    Place.Booked
      { p with busy := some { b with phase := phase }, holder := holder, history := history } := by
  have hm := (h.busy b hb).1
  have hd : (Place.mk p.machine p.payload p.queued holder (some { b with phase := phase }) p.waits
      history).dispatching = p.dispatching := by
    unfold dispatching dispatches
    simp [hb]
  refine ⟨h.payload, ?_, h.single, fun hp => ?_, hd ▸ h.dispatch, hd ▸ h.apart, fun m hm' hs hn => ?_⟩
  · rintro _ ⟨⟩
    exact ⟨hm, hc⟩
  · refine ⟨_, hm, ?_, fun _ => ⟨_, rfl, hq hp⟩⟩
    rintro _ ⟨⟩
    exact .inr (hq hp)
  · refine h.inactive m hm' hs fun b' hb' hk' => hn _ rfl ?_
    rw [hb] at hb'
    cases hb'
    exact hk hk'

/-- An action that is past its start, or not of an inactive task, found the task off the queue. -/
theorem off_queue (h : p.Booked) {b : Busy} (hb : p.busy = some b) (hn : ¬ b.phase.Parks)
    (hs : b.phase = .start → b.source ≠ .inactive) : p.queued = 0 := by
  refine Nat.eq_zero_of_not_pos fun hq => ?_
  obtain ⟨m, hm, hp, hx⟩ := h.queue hq
  have hm' := (h.busy b hb).1
  rw [hm] at hm'
  cases hm'
  rcases hp b hb with hp | hp
  · obtain ⟨b', hb', hp'⟩ := hx (hs hp)
    rw [hb] at hb'
    cases hb'
    exact hn hp'
  · exact hn hp

/-- The action of `b` is over, and the machine is in the state `y`. -/
theorem leave (h : p.Booked) {b : Busy} (hb : p.busy = some b) {y : TaskState}
    (hq : 0 < p.queued → y = .inactive) (hd : y ≠ .inactive → p.dispatches = 0) :
    Place.Booked { p with busy := none, machine := some ⟨b.uid, y⟩ } := by
  have hdis := h.dispatch
  have hap := h.apart
  unfold dispatching at hdis hap
  refine ⟨?_, by rintro b ⟨⟩, h.single, fun hp => ?_, ?_, fun hp => hap ?_, ?_⟩
  · rw [h.payload, (h.busy b hb).1]
    rfl
  · refine ⟨_, rfl, by rintro b ⟨⟩, fun hy => absurd (hq hp) hy⟩
  · exact Nat.le_trans (Nat.le_add_right _ _) hdis
  · exact Nat.lt_of_lt_of_le hp (Nat.le_add_right _ _)
  · rintro m ⟨⟩ hy _
    exact hd hy

theorem gone (h : p.Booked) {q : Nat} (hq : q = 0) (history : List Obs) :
    Place.Booked { p with busy := none, machine := none, payload := none, queued := q, history := history } := by
  subst hq
  refine ⟨rfl, by rintro b ⟨⟩, Nat.zero_le _, fun h => absurd h (Nat.lt_irrefl 0), ?_, fun _ => rfl,
    by rintro m ⟨⟩⟩
  exact Nat.le_trans (Nat.le_add_right _ _) h.dispatch

theorem register (h : p.Booked) (hm : p.machine = none) (uid : Nat) (task : Task)
    {q : Nat} {W : Multiset Waiting}
    (hW : q = 1 ∧ W.countP (fun w => w.event.isDispatch = true) = 0 ∨
      q = 0 ∧ W.countP (fun w => w.event.isDispatch = true) ≤ 1)
    (holder : Option WorkerID) (history : List Obs) :
    Place.Booked ⟨some ⟨uid, .inactive⟩, some task, q, holder, p.busy, W, history⟩ := by
  have hb : p.busy = none := by
    cases hb : p.busy with
    | none => rfl
    | some b =>
      have := (h.busy b hb).1
      rw [hm] at this
      cases this
  rw [hb]
  refine ⟨rfl, by rintro b ⟨⟩, ?_, fun _ => ⟨_, rfl, by rintro b ⟨⟩, fun hx => absurd rfl hx⟩, ?_,
    fun hx => ?_, ?_⟩
  · change q ≤ 1
    omega
  · change W.countP _ + 0 ≤ 1
    omega
  · change 0 < W.countP _ + 0 at hx
    change q = 0
    omega
  · rintro m ⟨⟩ hx _
    exact absurd rfl hx

theorem dequeue (h : p.Booked) : Place.Booked { p with queued := p.queued - 1 } := by
  have h1 := h.single
  have h0 : p.queued - 1 = 0 := by omega
  rw [h0]
  exact ⟨h.payload, h.busy, Nat.zero_le 1, fun hq => absurd hq (Nat.lt_irrefl 0), h.dispatch,
    fun _ => rfl, h.inactive⟩

theorem acquire (h : p.Booked) (w : WorkerID) (hq : 0 < p.queued) (holder : Option WorkerID) :
    Place.Booked
      { p with queued := p.queued - 1, holder := holder, waits := ⟨none, .hasCapacity t w⟩ ::ₘ p.waits } := by
  have h1 := h.single
  have h0 : p.dispatching = 0 := by
    have := h.apart
    omega
  have heq : (Place.mk p.machine p.payload (p.queued - 1) holder p.busy
      (⟨none, .hasCapacity t w⟩ ::ₘ p.waits) p.history).dispatching = p.dispatching + 1 := by
    unfold dispatching dispatches
    rw [Multiset.countP_cons]
    simp only [TaskEvent.isDispatch, if_true]
    omega
  obtain ⟨m, hm, hp, hx⟩ := h.queue hq
  refine ⟨h.payload, h.busy, ?_, fun hq' => ?_, ?_, fun _ => ?_, fun m' hm' hs hk => ?_⟩
  · change p.queued - 1 ≤ 1
    omega
  · change 0 < p.queued - 1 at hq'
    omega
  · rw [heq]
    omega
  · change p.queued - 1 = 0
    omega
  · rw [hm] at hm'
    cases hm'
    obtain ⟨b, hb, hb'⟩ := hx hs
    exact absurd hb' (hk b hb)

theorem suspend (h : p.Booked) {b : Busy} (hb : p.busy = some b) (hs : b.source ≠ .inactive)
    (hn : ¬ b.phase.Parks) (he : b.event.isDispatch = false)
    (hc : Busy.Coherent { b with phase := .queued }) (holder : Option WorkerID) :
    Place.Booked
      { p with busy := some { b with phase := .queued }, holder := holder, queued := p.queued + 1 } := by
  have hq := h.off_queue hb hn fun _ => hs
  have hm := (h.busy b hb).1
  have hd : p.dispatches = 0 := by
    refine h.inactive _ hm hs fun b' hb' => ?_
    rw [hb] at hb'
    cases hb'
    exact hn
  have h0 : (Place.mk p.machine p.payload (p.queued + 1) holder (some { b with phase := .queued })
      p.waits p.history).dispatching = 0 := by
    change p.dispatches + _ = 0
    rw [hd]
    simp [he]
  refine ⟨h.payload, ?_, ?_, fun _ => ⟨_, hm, ?_, fun _ => ⟨_, rfl, trivial⟩⟩, ?_, fun hx => ?_, ?_⟩
  · rintro _ ⟨⟩
    exact ⟨hm, hc⟩
  · change p.queued + 1 ≤ 1
    omega
  · rintro _ ⟨⟩
    exact .inr trivial
  · rw [h0]
    exact Nat.zero_le 1
  · rw [h0] at hx
    cases hx
  · intro m _ _ hk
    exact absurd trivial (hk _ rfl)

end Place.Booked

/-- No dispatch of an earlier task with the same id is under way when a task is registered,
and the registration goes through. -/
def Obs.RegistersAnew : Obs → Prop
  | .registered _ _ pending => ∀ e ∈ pending, e.isDispatch = false
  | .refused _ => False
  | _ => True

theorem TaskEvent.isInternal_of_isDispatch {e : TaskEvent} (h : e.isDispatch = true) :
    e.IsInternal := by
  cases e with
  | hasCapacity => trivial
  | _ => cases h

theorem dispatches_eq_zero {pending : List TaskEvent} (hp : ∀ w ∈ p.waits, w.event.IsInternal → w.event ∈ pending)
    (hC : ∀ e ∈ pending, e.isDispatch = false) : p.dispatches = 0 := by
  refine Multiset.countP_eq_zero.mpr fun w hw hd => ?_
  rw [hC _ (hp w hw (TaskEvent.isInternal_of_isDispatch hd))] at hd
  cases hd

theorem Place.Booked.unqueued (h : p.Booked) (hm : p.machine = none) : p.queued = 0 := by
  refine Nat.eq_zero_of_not_pos fun hq => ?_
  obtain ⟨m, hm', _⟩ := h.queue hq
  rw [hm] at hm'
  cases hm'

theorem dispatches_cons {w : Waiting} {R : Multiset Waiting} (hw : p.waits = w ::ₘ R) :
    p.dispatches = R.countP (fun w => w.event.isDispatch = true) +
      if w.event.isDispatch = true then 1 else 0 := by
  unfold Place.dispatches
  rw [hw, Multiset.countP_cons]

theorem countP_dispatch_cons (w : Waiting) (R : Multiset Waiting) :
    (w ::ₘ R).countP (fun w => w.event.isDispatch = true) =
      R.countP (fun w => w.event.isDispatch = true) + if w.event.isDispatch = true then 1 else 0 :=
  Multiset.countP_cons _ _ _

theorem Place.Booked.take (h : p.Booked) {uid : Nat} {e : TaskEvent} {source : TaskState}
    {R : Multiset Waiting} (hk : p.waits = ⟨some uid, e⟩ ::ₘ R)
    (hm : p.machine = some ⟨uid, source⟩) (hb : p.busy = none) (history : List Obs) :
    Place.Booked
      { p with busy := some ⟨uid, e, source, .start⟩, waits := R, history := history } := by
  have hd := dispatches_cons hk
  have hdis := h.dispatch
  have hap := h.apart
  have heq : (Place.mk p.machine p.payload p.queued p.holder (some ⟨uid, e, source, .start⟩) R
      history).dispatching = p.dispatching := by
    unfold dispatching
    rw [hd, hb]
    rfl
  refine ⟨h.payload, ?_, h.single, fun hq => ?_, heq ▸ hdis, heq ▸ hap, fun m hm' hs _ => ?_⟩
  · rintro _ ⟨⟩
    exact ⟨hm, trivial⟩
  · obtain ⟨m, hm', _, hx⟩ := h.queue hq
    refine ⟨m, hm', ?_, fun hs => ?_⟩
    · rintro _ ⟨⟩
      exact .inl rfl
    · obtain ⟨b, hb', _⟩ := hx hs
      rw [hb] at hb'
      cases hb'
  · have := h.inactive m hm' hs fun b hb' => by
      rw [hb] at hb'
      cases hb'
    change R.countP _ = 0
    omega

theorem TaskEvent.Places.source {e : TaskEvent} {source : TaskState} {phase : Phase}
    (h : e.Places source phase) : source = .running ∨ source = .balanceCanceling := by
  cases e with
  | cancelConfirmCanceled => exact .inr h.1
  | cancelConfirmNotFound => exact .inr h.1
  | workerDisconnected => exact h.1
  | _ => exact h.elim

theorem TaskEvent.Places.not_parks {e : TaskEvent} {source : TaskState} {phase : Phase}
    (h : e.Places source phase) : ¬ phase.Parks := by
  cases e with
  | cancelConfirmCanceled => exact h.2 ▸ id
  | cancelConfirmNotFound => exact h.2 ▸ id
  | workerDisconnected => exact h.2 ▸ id
  | _ => exact h.elim

theorem TaskEvent.Places.not_dispatch {e : TaskEvent} {source : TaskState} {phase : Phase}
    (h : e.Places source phase) : e.isDispatch = false := by
  cases e with
  | hasCapacity => exact h.elim
  | _ => rfl

theorem TaskEvent.Replies.phase {e : TaskEvent} {source : TaskState} {phase : Phase}
    (h : e.Replies source phase) :
    phase = .vacant ∨ phase = .start ∧ (source = .running ∨ source = .canceling) := by
  cases e <;> simp only [TaskEvent.Replies] at h <;> tauto

theorem Phase.Next.parks {phase phase' : Phase} (h : phase.Next phase') :
    phase.Parks ∧ phase'.Parks ∨ ¬ phase.Parks ∧ phase ≠ .start := by
  cases h with
  | answer => exact .inr ⟨id, Phase.noConfusion⟩
  | spoil => exact .inr ⟨id, Phase.noConfusion⟩
  | popOwner => exact .inl ⟨trivial, trivial⟩
  | answerFault => exact .inl ⟨trivial, trivial⟩

theorem Phase.Next.coherent {b : Busy} {phase : Phase} (h : b.phase.Next phase) :
    Busy.Coherent { b with phase := phase } := by
  obtain ⟨uid, e, source, phase'⟩ := b
  cases h <;> trivial

/-- Where an action ends that does not end the task. -/
theorem TaskEvent.Lands.live {e : TaskEvent} {source y : TaskState} {phase : Phase}
    (h : e.Lands source phase y) (hy : y.isTerminal = false) :
    y = .inactive ∧ phase = .queued ∨
      y ≠ .inactive ∧ ¬ phase.Parks ∧ (phase = .start → source ≠ .inactive) ∧
        (source = .inactive → phase = .placed) := by
  cases y with
  | inactive => exact .inl ⟨rfl, h⟩
  | running =>
    refine .inr ⟨TaskState.noConfusion, ?_⟩
    rcases h with rfl | ⟨_, rfl, rfl | rfl⟩
    · exact ⟨id, Phase.noConfusion, fun _ => rfl⟩
    · exact ⟨id, fun _ => TaskState.noConfusion, TaskState.noConfusion⟩
    · exact ⟨id, fun _ => TaskState.noConfusion, TaskState.noConfusion⟩
  | canceling =>
    refine .inr ⟨TaskState.noConfusion, ?_⟩
    rcases h with ⟨_, ⟨rfl, rfl⟩ | ⟨rfl, rfl⟩⟩
    · exact ⟨id, Phase.noConfusion, TaskState.noConfusion⟩
    · exact ⟨id, fun _ => TaskState.noConfusion, TaskState.noConfusion⟩
  | balanceCanceling =>
    refine .inr ⟨TaskState.noConfusion, ?_⟩
    obtain ⟨_, rfl, rfl⟩ := h
    exact ⟨id, Phase.noConfusion, TaskState.noConfusion⟩
  | _ => cases hy

theorem TaskEvent.Lands.terminal {e : TaskEvent} {source y : TaskState} {phase : Phase}
    (h : e.Lands source phase y) (hy : y.isTerminal = true) : phase = .ended none := by
  cases y with
  | inactive => cases hy
  | running => cases hy
  | canceling => cases hy
  | balanceCanceling => cases hy
  | _ => exact h

theorem PlaceStep.booked (h : PlaceStep ok t p p') (hC : ∀ o ∈ p'.history, o.RegistersAnew)
    (hp : p.Booked) : p'.Booked := by
  have hless : ∀ {w : Waiting} {R : Multiset Waiting}, p.waits = w ::ₘ R →
      R.countP (fun w => w.event.isDispatch = true) ≤ p.dispatches :=
    fun hw => (dispatches_cons hw).symm ▸ Nat.le_add_right _ _
  have hplaced : ∀ {e : TaskEvent} {source : TaskState} {phase : Phase}, e.Places source phase →
      source ≠ .inactive := by
    intro e source phase he
    rcases he.source with rfl | rfl <;> exact TaskState.noConfusion
  cases h with
  | hold task hm ht hu hpend hh =>
    have hd := dispatches_eq_zero hpend (hC _ List.mem_cons_self)
    have hq := hp.unqueued hm
    exact hp.register hm _ task (.inl ⟨by omega, hd⟩) _ _
  | assign task w hm ht hu hpend hh =>
    have hd := dispatches_eq_zero hpend (hC _ List.mem_cons_self)
    refine hp.register hm _ task (.inr ⟨hp.unqueued hm, ?_⟩) _ _
    rw [countP_dispatch_cons, show p.waits.countP _ = 0 from hd]
    exact Nat.le_refl 1
  | refuse => exact (hC _ List.mem_cons_self).elim
  | acquire w hq hh => exact hp.acquire w hq _
  | lose hk h => exact hp.frame (hless hk) _ _
  | report he hi =>
    refine hp.frame ?_ _ _
    rw [countP_dispatch_cons, if_neg fun hd => hi (TaskEvent.isInternal_of_isDispatch hd)]
    exact Nat.le_refl _
  | drop hk hm => exact hp.frame (hless hk) _ _
  | enqueue hk hm =>
    refine hp.frame ?_ _ _
    rw [countP_dispatch_cons, dispatches_cons hk]
  | expire hk he => exact hp.frame (hless hk) _ _
  | stale hk hm => exact hp.frame (hless hk) _ _
  | take hk he hm hb => exact hp.take hk hm hb _
  | @decline uid e source hb hj h =>
    have hm := (hp.busy _ hb).1
    have hx := hp.leave hb (y := source) (fun hq => ?_) fun hs => ?_
    · change Place.Booked { p with busy := none, machine := some ⟨uid, source⟩ } at hx
      rwa [← hm] at hx
    · by_contra hs
      have := hp.off_queue hb id fun _ => hs
      omega
    · refine hp.inactive _ hm hs fun b hb' => ?_
      rw [hb] at hb'
      cases hb'
      exact id
  | dispatch hb hj hpay =>
    have hq : p.queued = 0 := by
      refine hp.apart ?_
      unfold Place.dispatching
      simp [hb, TaskEvent.isDispatch]
    exact hp.advance hb .placed (.inl rfl) id (fun hx => by omega) _ _
  | unqueue hb hj hq =>
    have h1 := hp.single
    exact hp.dequeue.advance hb .vacant rfl id (fun hx => absurd hx (by simp only; omega)) _ _
  | @release uid e source h hb hj he hq ho hh =>
    have hz : p.queued = 0 := by
      by_cases hs : source = .inactive
      · exact hq hs
      · exact hp.off_queue hb id fun _ => hs
    exact hp.advance hb .vacant he id (fun hx => by omega) _ _
  | @tell uid e source w hb he hh =>
    have hs : source = .running := by
      cases e <;> first | exact he | exact he.elim
    have hz := hp.off_queue hb id fun _ => by
      rw [hs]
      rintro ⟨⟩
    exact hp.advance hb .told hs id (fun hx => by omega) _ _
  | place hb he hj hpay hh =>
    have hz := hp.off_queue hb he.not_parks fun _ => hplaced he
    exact hp.advance hb .placed (.inr he.source) (fun hx => (he.not_parks hx).elim)
      (fun hx => by omega) _ _
  | placeFail hb he hj hh =>
    have hz := hp.off_queue hb he.not_parks fun _ => hplaced he
    exact hp.advance hb .spoiled trivial (fun hx => (he.not_parks hx).elim) (fun hx => by omega) _ _
  | suspend hb he hj hh => exact hp.suspend hb (hplaced he) he.not_parks he.not_dispatch he.source _
  | @finish uid e source phase due hb he hn hj =>
    have hn : ¬ phase.Parks ∧ (phase = .start → source ≠ .inactive) := by
      rcases he.phase with rfl | ⟨rfl, rfl | rfl⟩
      · exact ⟨id, Phase.noConfusion⟩
      · exact ⟨id, fun _ => TaskState.noConfusion⟩
      · exact ⟨id, fun _ => TaskState.noConfusion⟩
    have hz := hp.off_queue hb hn.1 hn.2
    exact hp.advance hb (.ended due) trivial (fun hx => (hn.1 hx).elim) (fun hx => by omega) _ _
  | next hb h =>
    rcases h.parks with ⟨_, hk⟩ | ⟨hk, hs⟩
    · exact hp.advance hb _ (Phase.Next.coherent (b := ⟨_, _, _, _⟩) h) (fun _ => hk) (fun _ => hk) _ _
    · have hz := hp.off_queue hb hk fun hx => (hs hx).elim
      exact hp.advance hb _ (Phase.Next.coherent (b := ⟨_, _, _, _⟩) h) (fun hx => (hk hx).elim)
        (fun hx => by omega) _ _
  | fault hb => exact hp.advance hb .faulted trivial (fun _ => trivial) (fun _ => trivial) _ _
  | free hb hh => exact hp.advance hb .freed trivial (fun _ => trivial) (fun _ => trivial) _ _
  | @settle uid e source phase y hb h hy =>
    refine hp.leave hb (fun hq => ?_) fun hne => ?_
    · rcases h.live hy with ⟨hx, _⟩ | ⟨_, hk, hs, _⟩
      · exact hx
      · have := hp.off_queue hb hk hs
        omega
    · rcases h.live hy with ⟨hx, _⟩ | ⟨_, hk, _, hi⟩
      · exact absurd hx hne
      · by_cases hs : source = .inactive
        · have hc := (hp.busy _ hb).2
          rw [hs, hi hs] at hc
          have hd := hp.dispatch
          rcases hc with hc | hc | hc
          · unfold Place.dispatching at hd
            rw [hb, Option.any_some, if_pos hc] at hd
            omega
          · cases hc
          · cases hc
        · refine hp.inactive _ (hp.busy _ hb).1 hs fun b hb' => ?_
          rw [hb] at hb'
          cases hb'
          exact hk
  | finished hb h hy =>
    obtain rfl := h.terminal hy
    exact hp.gone (hp.off_queue hb id Phase.noConfusion) _
  | tearDown hb h =>
    have h1 := hp.single
    exact hp.gone (by omega) _
  | lost w us b n hu hh =>
    refine hp.frame ?_ _ _
    have h0 : (Multiset.replicate n (⟨none, .workerDisconnected t w⟩ : Waiting)).countP
        (fun w => w.event.isDispatch = true) = 0 := by
      refine Multiset.countP_eq_zero.mpr fun x hx => ?_
      rw [Multiset.eq_of_mem_replicate hx]
      exact Bool.false_ne_true
    rw [Multiset.countP_add, h0, zero_add]
    exact Nat.le_refl _
  | drift hh => exact hp.frame (Nat.le_refl _) _ _

end Queue

/-- No dispatch of an earlier task is under way when a task with its id is registered. -/
def Sched.NoOldDispatch (s : Sched) : Prop :=
  ∀ t uid pending, .registered t uid pending ∈ s.trace → ∀ e ∈ pending, e.isDispatch = false

/-- The payloads are those of the registered tasks; the queue holds such tasks, each once,
so that it could always be drained. -/
structure Sched.QueueBooked (s : Sched) : Prop where
  payloads : ∀ t, s.taskIdToTask.contains t = s.taskIdToStateMachine.contains t
  nodup : s.unassigned.Nodup
  registered : ∀ t ∈ s.unassigned,
    s.taskIdToStateMachine.contains t = true ∧ s.taskIdToTask.contains t = true
  drained : Obs.drainFailed ∉ s.trace

theorem Run.queueBooked {M : Multiset (Tid × Tok)} (h : Run cfg s M)
    (hr : ∀ t, Obs.refused t ∉ s.trace) (hn : s.NoOldDispatch) : s.QueueBooked := by
  have hC : ∀ o ∈ s.trace, o.RegistersAnew := by
    intro o ho
    cases o with
    | registered t uid pending => exact hn t uid pending ho
    | refused t => exact hr t ho
    | _ => trivial
  have he : Everywhere False (fun _ p => p.Booked) s.taskView (taskToks (M.map Prod.snd)) := by
    refine h.everywhere (fun _ => Place.Booked.empty) (fun hs hC hp => hs.booked hC hp) ?_
      (fun hf => hf.elim) hC
    intro t p hp hq
    obtain ⟨m, hm, _⟩ := hp.queue hq
    rw [hp.payload, hm]
    rfl
  have hall : ∀ t, s.unassigned.count t ≤ 1 ∧
      s.taskIdToTask.contains t = s.taskIdToStateMachine.contains t ∧
      (t ∈ s.unassigned → s.taskIdToStateMachine.contains t = true) := by
    intro t
    obtain ⟨p, hs, hp⟩ := he.places t
    have hq : s.unassigned.count t = p.queued := hs.queued
    have hm : s.taskIdToStateMachine.get? t = p.machine := hs.machine
    have hpay : s.taskIdToTask.get? t = p.payload := hs.payload
    refine ⟨hq ▸ hp.single, ?_, fun ht => ?_⟩
    · rw [Dict.contains, Dict.contains, hm, hpay]
      exact hp.payload
    · obtain ⟨m, hm', _⟩ := hp.queue (hq ▸ List.count_pos_iff.mpr ht)
      rw [Dict.contains, hm, hm']
      rfl
  refine ⟨fun t => (hall t).2.1, List.nodup_iff_count_le_one.mpr fun t => (hall t).1, fun t ht => ?_, ?_⟩
  · have hm := (hall t).2.2 ht
    exact ⟨hm, (hall t).2.1.trans hm⟩
  · exact fun hd => he.drained (List.mem_filter.mpr ⟨hd, rfl⟩)

/-- In every state at an await the counters are right, and as long as no registration failed
and none met an old dispatch of its id, so are the payloads and the queue. -/
theorem task_books_agree {c : Config Sched Exn Label Proc}
    (h : Reachable scheduler (Sched.init cfg) c) (hc : c.Suspended)
    (hr : ∀ t, Obs.refused t ∉ c.state.trace) :
    (∀ x, x.isTerminal = false →
      c.state.statistics x = c.state.taskIdToStateMachine.countValues (fun m => m.state = x)) ∧
    (∀ x, x.isTerminal = true → c.state.statistics x = c.state.trace.countP (Obs.removedIn x)) ∧
    (c.state.NoOldDispatch → c.state.QueueBooked) := by
  obtain ⟨M, hM, _⟩ := exists_run h hc
  have hk := hM.counted
  refine ⟨fun x hx => ?_, fun x hx => ?_, fun hn => hM.queueBooked hr hn⟩
  · have hs : c.state.statistics x = _ := hk.counter x
    rw [hs, hk.removed x hx]
    simp [Sched.taskView]
  · have hs : c.state.statistics x = _ := hk.counter x
    have hf : c.state.taskView.history.countP (Obs.removedIn x) =
        c.state.trace.countP (Obs.removedIn x) := by
      unfold Sched.taskView
      rw [List.countP_filter]
      refine List.countP_congr fun o _ => ?_
      cases o <;> simp [Obs.removedIn, Obs.isTask]
    have h0 : c.state.taskView.taskIdToStateMachine.countValues (fun m => decide (m.state = x)) = 0 :=
      hM.count_terminal hx
    rw [hs, h0, hf]
    simp

/-- A task without arguments of the client 100. -/
def plainTask (t : Nat) : Task := ⟨⟨t⟩, ⟨100⟩, [], ⟨0⟩, [], []⟩

def firstTask : List (Move Proc) :=
  [.spawn (.onReceiveMessage 100 (.task (plainTask 1))), .resume [0]]

theorem task_books_agree_first : ∃ c : Config Sched Exn Label Proc,
    Reachable scheduler (Sched.init ⟨.evenLoad, false⟩) c ∧ c.Suspended ∧
      c.state.unassigned = [⟨1⟩] ∧ c.state.NoOldDispatch ∧ c.state.QueueBooked := by
  have hd : (drive scheduler 50 (start (Sched.init ⟨.evenLoad, false⟩)) firstTask).any (fun c =>
      c.current.isNone && decide (c.state.unassigned = [⟨1⟩]) &&
        decide (c.state.trace = [.registered ⟨1⟩ 0 [], .received 100 (.task (plainTask 1))])) = true := by
    decide +kernel
  obtain ⟨c, hc, hb⟩ := (Option.any_eq_true _ _).mp hd
  simp only [Bool.and_eq_true, Option.isNone_iff_eq_none, decide_eq_true_eq] at hb
  obtain ⟨⟨hs, hu⟩, ht⟩ := hb
  have hr := Reachable.drive .start hc
  have hn : c.state.NoOldDispatch := by
    intro t uid pending hm e he
    rw [ht] at hm
    simp only [List.mem_cons, Obs.registered.injEq, List.not_mem_nil, or_false, reduceCtorEq] at hm
    obtain ⟨_, _, rfl⟩ := hm
    cases he
  refine ⟨c, hr, hs, hu, hn, (task_books_agree hr hs fun t hm => ?_).2.2 hn⟩
  rw [ht] at hm
  simp at hm

/-- A task of the client 101 that not every worker can run. -/
def needingTask (t : Nat) (capability : String) : Task := ⟨⟨t⟩, ⟨101⟩, [], ⟨0⟩, [], [(capability, 1)]⟩

/-- The full worker 200 gives the task 3 back to the balancer, and it goes to the worker 201; the task 2, for which
200 has room now, stays queued. The client 100 cancels 3 and 201 dies before it answers, so the queue is drained and 2
is chosen for 200. Before it is dispatched the client 101 dies, which cancels 2, and the binder gets another task 2,
which nobody can run; the old dispatch gets through to it, and the client cancels it. -/
def oldDispatch : List (Move Proc × List Bool) := List.flatten [
  turn (.onReceiveMessage 200 (.workerHeartbeat ⟨2, [("gpu", 1)], []⟩)) 0 3,
  turn (.onReceiveMessage 101 .clientHeartbeat) 1 2,
  turn (.onReceiveMessage 100 (.task (plainTask 1))) 2 4,
  turn (.onReceiveMessage 100 (.task (plainTask 3))) 3 4,
  turn (.onReceiveMessage 101 (.task (needingTask 2 "gpu"))) 4 2,
  turn (.onReceiveMessage 201 (.workerHeartbeat ⟨1, [], []⟩)) 5 3,
  turn (.onTaskBalanceCancel ⟨3⟩) 6 4,
  turn (.onReceiveMessage 200 (.taskCancelConfirm ⟨⟨3⟩, .canceled⟩)) 7 4,
  turn (.onReceiveMessage 100 (.taskCancel ⟨⟨3⟩, false⟩)) 8 4,
  [(.spawn .workerRoutine, []), (.resume [9], [true, false])], wakes [9] 4,
  turn .clientRoutine 11 4,
  turn (.onReceiveMessage 101 (.task (needingTask 2 "fpga"))) 12 2, wakes [10, 9] 4, wakes [9] 1,
  turn (.onReceiveMessage 101 (.taskCancel ⟨⟨2⟩, false⟩)) 13 4]

def Obs.isRefusal : Obs → Bool
  | .refused _ => true
  | _ => false

/-- The id stays queued without a machine and a payload, and the next drain raises. -/
theorem old_dispatch_corrupts_queue : ∃ c : Config Sched Exn Label Proc,
    ReachableIn scheduler Serial (Sched.init ⟨.capability, false⟩) c ∧
      Reachable scheduler (Sched.init ⟨.capability, false⟩) c ∧ c.Suspended ∧ c.threads.length = 0 ∧
      (∀ t, Obs.refused t ∉ c.state.trace) ∧ ⟨2⟩ ∈ c.state.unassigned ∧
      c.state.taskIdToStateMachine.contains ⟨2⟩ = false ∧ c.state.taskIdToTask.contains ⟨2⟩ = false ∧
      c.state.acquireWorkers.1.toOption = none := by
  have hd : (driveIn scheduler Serial 200 (start (Sched.init ⟨.capability, false⟩)) oldDispatch).any (fun c =>
      c.current.isNone && decide (c.threads.length = 0) &&
        c.state.trace.all (fun o => !o.isRefusal) && decide (⟨2⟩ ∈ c.state.unassigned) &&
        !c.state.taskIdToStateMachine.contains ⟨2⟩ && !c.state.taskIdToTask.contains ⟨2⟩ &&
        c.state.acquireWorkers.1.toOption.isNone) = true := by
    decide +kernel
  obtain ⟨c, hc, hb⟩ := (Option.any_eq_true _ _).mp hd
  simp only [Bool.and_eq_true, Option.isNone_iff_eq_none, List.all_eq_true, Bool.not_eq_true',
    decide_eq_true_eq] at hb
  obtain ⟨⟨⟨⟨⟨⟨hs, h0⟩, hr⟩, hq⟩, hm⟩, hp⟩, ha⟩ := hb
  have hreached := ReachableIn.start.drive hc
  refine ⟨c, hreached, hreached.reachable, hs, h0, fun t ht => ?_, hq, hm, hp, ha⟩
  have := hr _ ht
  cases this

end Scaler
