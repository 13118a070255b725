import Scaler.Invariant.Locks
import Scaler.Policy.AllocateInvariant

/-! What happens to one task. A place is all that the scheduler knows of a task: its
machine, its payload, how often it is queued, who holds it, the event that is being
applied to it and the events that wait. A step of the scheduler is a step at the place
of one task; the others at most see a change of holder. -/

namespace Scaler

open Collections Coroutine

/-- An event under way: not routed yet, or waiting for the lock of a machine. -/
structure Waiting where
  uid : Option Nat
  event : TaskEvent
  deriving DecidableEq, Repr

/-- An event that is being applied. -/
structure Busy where
  uid : Nat
  event : TaskEvent
  source : TaskState
  phase : Phase
  deriving DecidableEq, Repr

structure Place where
  machine : Option StateMachine
  payload : Option Task
  queued : Nat
  holder : Option WorkerID
  busy : Option Busy
  waits : Multiset Waiting
  history : List Obs

/-- The observation says something about the task. -/
def Obs.concerns (t : TaskID) : Obs → Bool
  | .sent _ (.task task) _ => task.taskId = t
  | .registered u _ _ | .refused u | .removed u _ _ => u = t
  | .applied e _ _ _ _ | .faulted e | .timedOut e => e.taskId = t
  | .workerRemoved _ _ _ => true
  | _ => false

def Tok.concerns (t : TaskID) : Tok → Bool
  | .event e | .wait _ e | .apply _ e _ _ => e.taskId = t
  | _ => false

def Waiting.tok (w : Waiting) : Tok :=
  match w.uid with
  | none => .event w.event
  | some uid => .wait uid w.event

def Busy.tok (b : Busy) : Tok := .apply b.uid b.event b.source b.phase

/-- `__is_task_owned_by_worker` when the policy has this holder for the task. -/
def TaskEvent.isOwned (e : TaskEvent) (holder : Option WorkerID) : Bool :=
  match e.reporter?, holder with
  | some w, some holder => holder = w
  | _, _ => true

namespace Place

def empty : Place := ⟨none, none, 0, none, none, 0, []⟩

def toks (p : Place) : Multiset Tok :=
  (match p.busy with
    | none => 0
    | some b => {b.tok}) + p.waits.map Waiting.tok

/-- The newest observation is that `e` was applied, in the present state. -/
def JustApplied (p : Place) (e : TaskEvent) (source : TaskState) : Prop :=
  ∃ c tr, p.history = .applied e source p.holder c (decide (0 < p.queued)) :: tr

/-- The place is what the task controller knows of `t`. -/
structure Shows (p : Place) (v : TaskView) (K : Multiset Tok) (t : TaskID) : Prop where
  machine : v.taskIdToStateMachine.get? t = p.machine
  payload : v.taskIdToTask.get? t = p.payload
  queued : v.unassigned.count t = p.queued
  holder : v.policy.getWorkerByTaskId t = p.holder
  history : v.history.filter (Obs.concerns t) = p.history
  toks : K.filter (fun a => a.concerns t = true) = p.toks

end Place

/-- Parts of an action that change nothing at the place. -/
inductive Phase.Next : Phase → Phase → Prop
  | answer {c} : Next (.ended (some c)) (.ended none)
  | spoil {c} : Next (.ended (some c)) .spoiled
  | popOwner {due} : Next .faulted (.reported due)
  | answerFault {c} : Next (.reported (some c)) (.reported none)

/-- The steps at the place of `t`; `ok` says that the policy keeps its tables in order and
that no drain of the queue failed. -/
inductive PlaceStep (ok : Prop) (t : TaskID) (p : Place) : Place → Prop
  | hold {uid pending h} (task : Task) (hm : p.machine = none) (ht : task.taskId = t)
      (hu : ∀ w ∈ p.waits, ∀ u, w.uid = some u → u < uid)
      (hp : ∀ w ∈ p.waits, w.event.IsInternal → w.event ∈ pending) (hh : ok → h = p.holder) :
    PlaceStep ok t p
      { p with
        machine := some ⟨uid, .inactive⟩
        payload := some task
        queued := p.queued + 1
        holder := h
        history := .registered t uid pending :: p.history }
  | assign {uid pending h} (task : Task) (w : WorkerID) (hm : p.machine = none) (ht : task.taskId = t)
      (hu : ∀ w ∈ p.waits, ∀ u, w.uid = some u → u < uid)
      (hp : ∀ w ∈ p.waits, w.event.IsInternal → w.event ∈ pending) (hh : ok → h = some w) :
    PlaceStep ok t p
      { p with
        machine := some ⟨uid, .inactive⟩
        payload := some task
        holder := h
        waits := ⟨none, .hasCapacity t w⟩ ::ₘ p.waits
        history := .registered t uid pending :: p.history }
  | refuse (uid : Nat) (pending : List TaskEvent) :
    PlaceStep ok t p
      { p with
        machine := some ⟨uid, .inactive⟩
        history := .refused t :: .registered t uid pending :: p.history }
  | acquire {h} (w : WorkerID) (hq : 0 < p.queued) (hh : ok → h = some w) :
    PlaceStep ok t p
      { p with
        queued := p.queued - 1
        holder := h
        waits := ⟨none, .hasCapacity t w⟩ ::ₘ p.waits }
  | lose {e R} (hk : p.waits = ⟨none, e⟩ ::ₘ R) (h : ¬ ok) : PlaceStep ok t p { p with waits := R }
  | report {e} (he : e.taskId = t) (hi : ¬ e.IsInternal) :
    PlaceStep ok t p { p with waits := ⟨none, e⟩ ::ₘ p.waits }
  | drop {e R} (hk : p.waits = ⟨none, e⟩ ::ₘ R) (hm : p.machine = none) :
    PlaceStep ok t p { p with waits := R }
  | enqueue {e R m} (hk : p.waits = ⟨none, e⟩ ::ₘ R) (hm : p.machine = some m) :
    PlaceStep ok t p { p with waits := ⟨some m.uid, e⟩ ::ₘ R }
  | stale {uid e R} (hk : p.waits = ⟨some uid, e⟩ ::ₘ R) (hm : ∀ m, p.machine = some m → m.uid ≠ uid) :
    PlaceStep ok t p { p with waits := R }
  | expire {uid e R} (hk : p.waits = ⟨some uid, e⟩ ::ₘ R) (he : e.taskId = t) :
    PlaceStep ok t p { p with waits := R, history := .timedOut e :: p.history }
  | take {uid e source c R} (hk : p.waits = ⟨some uid, e⟩ ::ₘ R) (he : e.taskId = t)
      (hm : p.machine = some ⟨uid, source⟩) (hb : p.busy = none) :
    PlaceStep ok t p
      { p with
        busy := some ⟨uid, e, source, .start⟩
        waits := R
        history := .applied e source p.holder c (decide (0 < p.queued)) :: p.history }
  | decline {uid e source} (hb : p.busy = some ⟨uid, e, source, .start⟩)
      (hj : p.JustApplied e source) (h : e.Refuses source ∨ e.isOwned p.holder = false) :
    PlaceStep ok t p { p with busy := none }
  | dispatch {uid w task} (hb : p.busy = some ⟨uid, .hasCapacity t w, .inactive, .start⟩)
      (hj : p.JustApplied (.hasCapacity t w) .inactive) (hp : p.payload = some task) :
    PlaceStep ok t p
      { p with
        busy := some ⟨uid, .hasCapacity t w, .inactive, .placed⟩
        history := .sent (.worker w) (.task task) p.holder :: p.history }
  | unqueue {uid c m} (hb : p.busy = some ⟨uid, .taskCancelRequested t c m, .inactive, .start⟩)
      (hj : p.JustApplied (.taskCancelRequested t c m) .inactive) (hq : 0 < p.queued) :
    PlaceStep ok t p
      { p with
        busy := some ⟨uid, .taskCancelRequested t c m, .inactive, .vacant⟩
        queued := p.queued - 1 }
  | release {uid e source h} (hb : p.busy = some ⟨uid, e, source, .start⟩)
      (hj : p.JustApplied e source) (he : e.Releases source)
      (hq : source = .inactive → p.queued = 0) (ho : e.isOwned p.holder = true)
      (hh : ok → h = none) :
    PlaceStep ok t p { p with busy := some ⟨uid, e, source, .vacant⟩, holder := h }
  | tell {uid e source w} (hb : p.busy = some ⟨uid, e, source, .start⟩) (he : e.Tells source)
      (hh : p.holder = some w) : PlaceStep ok t p { p with busy := some ⟨uid, e, source, .told⟩ }
  | place {uid e source phase task w h} (hb : p.busy = some ⟨uid, e, source, phase⟩)
      (he : e.Places source phase) (hj : phase = .start → p.JustApplied e source)
      (hp : p.payload = some task) (hh : ok → h = some w) :
    PlaceStep ok t p
      { p with
        busy := some ⟨uid, e, source, .placed⟩
        holder := h
        history := .sent (.worker w) (.task task) h :: p.history }
  | placeFail {uid e source phase w h} (hb : p.busy = some ⟨uid, e, source, phase⟩)
      (he : e.Places source phase) (hj : phase = .start → p.JustApplied e source)
      (hh : ok → h = some w) :
    PlaceStep ok t p { p with busy := some ⟨uid, e, source, .spoiled⟩, holder := h }
  | suspend {uid e source phase h} (hb : p.busy = some ⟨uid, e, source, phase⟩)
      (he : e.Places source phase) (hj : phase = .start → p.JustApplied e source)
      (hh : ok → h = p.holder) :
    PlaceStep ok t p
      { p with busy := some ⟨uid, e, source, .queued⟩, holder := h, queued := p.queued + 1 }
  | finish {uid e source phase} (due : Option ClientID) (hb : p.busy = some ⟨uid, e, source, phase⟩)
      (he : e.Replies source phase)
      (hn : phase = .start → source = .running → p.holder = none)
      (hj : phase = .start → source = .canceling → p.JustApplied e source) :
    PlaceStep ok t p { p with busy := some ⟨uid, e, source, .ended due⟩ }
  | next {uid e source phase phase'} (hb : p.busy = some ⟨uid, e, source, phase⟩)
      (h : phase.Next phase') : PlaceStep ok t p { p with busy := some ⟨uid, e, source, phase'⟩ }
  | fault {uid e source phase} (hb : p.busy = some ⟨uid, e, source, phase⟩) :
    PlaceStep ok t p
      { p with busy := some ⟨uid, e, source, .faulted⟩, history := .faulted e :: p.history }
  | free {uid e source h} (hb : p.busy = some ⟨uid, e, source, .reported none⟩)
      (hh : ok → h = none) :
    PlaceStep ok t p { p with busy := some ⟨uid, e, source, .freed⟩, holder := h }
  | settle {uid e source phase y} (hb : p.busy = some ⟨uid, e, source, phase⟩)
      (h : e.Lands source phase y) (hy : y.isTerminal = false) :
    PlaceStep ok t p { p with busy := none, machine := some ⟨uid, y⟩ }
  | finished {uid e source phase y} (hb : p.busy = some ⟨uid, e, source, phase⟩)
      (h : e.Lands source phase y) (hy : y.isTerminal = true) :
    PlaceStep ok t p
      { p with
        busy := none
        machine := none
        payload := none
        history := .removed t uid y :: p.history }
  | tearDown {uid e source phase} (hb : p.busy = some ⟨uid, e, source, phase⟩)
      (h : phase = .freed ∨ phase = .reported none ∧ ¬ ok) :
    PlaceStep ok t p
      { p with
        busy := none
        machine := none
        payload := none
        queued := p.queued - 1
        history := .removed t uid .failed :: p.history }
  | lost {h} (w : WorkerID) (us : List TaskID) (b : Bool) (n : Nat)
      (hu : p.holder = some w → ∀ x ∈ p.waits, x.event = .hasCapacity t w → t ∈ us)
      (hh : ok → n = 1 ∧ p.holder = some w ∧ h = none ∨ n = 0 ∧ p.holder ≠ some w ∧ h = p.holder) :
    PlaceStep ok t p
      { p with
        holder := h
        waits := Multiset.replicate n ⟨none, .workerDisconnected t w⟩ + p.waits
        history := .workerRemoved w us b :: p.history }
  | drift {h} (hh : ok → h = p.holder) : PlaceStep ok t p { p with holder := h }

section Tokens

variable {t : TaskID} {v v' : TaskView} {K K' : Multiset Tok} {p : Place}

theorem Waiting.tok_injective : Function.Injective Waiting.tok := by
  rintro ⟨u, e⟩ ⟨u', e'⟩ h
  cases u <;> cases u' <;> cases h <;> rfl

theorem Waiting.tok_ne_tok (w : Waiting) (b : Busy) : w.tok ≠ b.tok := by
  obtain ⟨u, e⟩ := w
  cases u <;> rintro ⟨⟩

theorem Busy.tok_injective {b b' : Busy} (h : b.tok = b'.tok) : b = b' := by
  cases b
  cases b'
  cases h
  rfl

theorem filter_concerns_add {a : Tok} (h : a.concerns t = true) :
    ({a} + K).filter (fun a => a.concerns t = true) =
      {a} + K.filter (fun a => a.concerns t = true) := by
  rw [Multiset.filter_add, Multiset.filter_singleton, if_pos h]

theorem filter_concerns_add_of_false {a : Tok} (h : a.concerns t = false) :
    ({a} + K).filter (fun a => a.concerns t = true) = K.filter (fun a => a.concerns t = true) := by
  rw [Multiset.filter_add, Multiset.filter_singleton, if_neg (by simp [h]), Multiset.empty_eq_zero, zero_add]

namespace Place.Shows

theorem busy (b : Busy) (hs : Shows p v ({b.tok} + K) t) (hb : b.event.taskId = t) :
    p.busy = some b ∧ K.filter (fun a => a.concerns t = true) = p.waits.map Waiting.tok := by
  have hk := hs.toks
  rw [filter_concerns_add (by simpa [Tok.concerns, Busy.tok] using hb), Place.toks] at hk
  cases hbusy : p.busy with
  | none =>
    have hm : b.tok ∈ p.waits.map Waiting.tok := by
      rw [hbusy, zero_add] at hk
      rw [← hk]
      simp
    obtain ⟨w, _, hw⟩ := Multiset.mem_map.mp hm
    exact absurd hw (w.tok_ne_tok b)
  | some b' =>
    rw [hbusy] at hk
    have hm : b.tok ∈ ({b'.tok} + p.waits.map Waiting.tok : Multiset Tok) := by
      rw [← hk]
      simp
    rcases Multiset.mem_add.mp hm with hm | hm
    · rw [Multiset.mem_singleton] at hm
      cases Busy.tok_injective hm
      exact ⟨rfl, add_left_cancel hk⟩
    · obtain ⟨w, _, hw⟩ := Multiset.mem_map.mp hm
      exact absurd hw (w.tok_ne_tok b)

theorem waiting (w : Waiting) (hs : Shows p v ({w.tok} + K) t) (hw : w.event.taskId = t) :
    ∃ R, p.waits = w ::ₘ R ∧ K.filter (fun a => a.concerns t = true) =
      { p with waits := R }.toks := by
  have hc : w.tok.concerns t = true := by
    obtain ⟨u, e⟩ := w
    cases u <;> simpa [Tok.concerns, Waiting.tok] using hw
  have hk := hs.toks
  rw [filter_concerns_add hc] at hk
  have hm : w.tok ∈ p.toks := by
    rw [← hk]
    simp
  have hw : w ∈ p.waits := by
    unfold Place.toks at hm
    rcases Multiset.mem_add.mp hm with hm | hm
    · split at hm
      · cases hm
      · exact absurd (Multiset.mem_singleton.mp hm) (w.tok_ne_tok _)
    · obtain ⟨w', hw, he⟩ := Multiset.mem_map.mp hm
      rwa [← Waiting.tok_injective he]
  obtain ⟨R, hR⟩ := Multiset.exists_cons_of_mem hw
  refine ⟨R, hR, ?_⟩
  have ht : p.toks = {w.tok} + { p with waits := R }.toks := by
    unfold Place.toks
    rw [hR, Multiset.map_cons, ← Multiset.singleton_add]
    ac_rfl
  rw [ht] at hk
  exact add_left_cancel hk

theorem mem_waits (hs : Shows p v K t) {w : Waiting} (hw : w ∈ p.waits) : w.tok ∈ K := by
  have : w.tok ∈ p.toks := Multiset.mem_add.mpr (.inr (Multiset.mem_map_of_mem _ hw))
  rw [← hs.toks] at this
  exact (Multiset.mem_filter.mp this).1

theorem busy_mem (hs : Shows p v K t) {b : Busy} (hb : p.busy = some b) : b.tok ∈ K := by
  have : b.tok ∈ p.toks := by
    rw [Place.toks, hb]
    simp
  rw [← hs.toks] at this
  exact (Multiset.mem_filter.mp this).1

theorem busy_taskId (hs : Shows p v K t) {b : Busy} (hb : p.busy = some b) : b.event.taskId = t := by
  have : b.tok ∈ p.toks := by
    rw [Place.toks, hb]
    simp
  rw [← hs.toks] at this
  simpa [Tok.concerns, Busy.tok] using (Multiset.mem_filter.mp this).2

/-- Nothing is being applied to a task whose lock is free. -/
theorem idle (hs : Shows p v K t) (hl : Locked v K) {uid : Nat} {source : TaskState}
    (hm : p.machine = some ⟨uid, source⟩) (ho : (v.locks uid).owner = none) : p.busy = none := by
  cases hb : p.busy with
  | none => rfl
  | some b =>
    have hx := hl.machine (hs.busy_mem hb)
    rw [hs.busy_taskId hb, hs.machine, hm] at hx
    have hz : holders uid K = 0 := by
      rw [hl.held, ho]
      rfl
    have hf := holders_eq_zero hz (hs.busy_mem hb)
    cases hx
    simp [Tok.holds, Busy.tok] at hf

/-- A step elsewhere at most changes the holder. -/
theorem drift (hs : Shows p v K t)
    (hm : v'.taskIdToStateMachine.get? t = v.taskIdToStateMachine.get? t)
    (hp : v'.taskIdToTask.get? t = v.taskIdToTask.get? t)
    (hq : v'.unassigned.count t = v.unassigned.count t)
    (hh : v'.history.filter (Obs.concerns t) = v.history.filter (Obs.concerns t))
    (hk : K'.filter (fun a => a.concerns t = true) = K.filter (fun a => a.concerns t = true)) :
    Shows { p with holder := v'.policy.getWorkerByTaskId t } v' K' t :=
  ⟨hm.trans hs.machine, hp.trans hs.payload, hq.trans hs.queued, rfl, hh.trans hs.history,
    hk.trans hs.toks⟩

end Place.Shows

theorem toks_busy (b : Busy) (hb : b.event.taskId = t) {W : Multiset Waiting}
    (hk : K.filter (fun a => a.concerns t = true) = W.map Waiting.tok) :
    ({b.tok} + K).filter (fun a => a.concerns t = true) = {b.tok} + W.map Waiting.tok := by
  rw [filter_concerns_add (by simpa [Tok.concerns, Busy.tok] using hb), hk]

theorem toks_idle {W : Multiset Waiting}
    (hk : K.filter (fun a => a.concerns t = true) = W.map Waiting.tok) :
    (0 + K).filter (fun a => a.concerns t = true) = 0 + W.map Waiting.tok := by
  rw [zero_add, hk, zero_add]

/-- Work on other tasks does not show at the place. -/
theorem toks_elsewhere {t₁ t₂ : Multiset Tok} (h₁ : ∀ a ∈ t₁, a.concerns t = false)
    (h₂ : ∀ a ∈ t₂, a.concerns t = false) :
    (taskToks t₂ + K).filter (fun a => a.concerns t = true) =
      (taskToks t₁ + K).filter fun a => a.concerns t = true := by
  have hnil : ∀ {L : Multiset Tok}, (∀ a ∈ L, a.concerns t = false) →
      (taskToks L).filter (fun a => a.concerns t = true) = 0 := by
    refine fun hL => Multiset.filter_eq_nil.mpr fun a ha => ?_
    simp [hL a (mem_taskToks.mp ha).1]
  rw [Multiset.filter_add, Multiset.filter_add, hnil h₁, hnil h₂]

/-- A step on another task leaves the place as it is. -/
theorem Place.Shows.elsewhere {ok : Prop} {t₁ t₂ : Multiset Tok} (hs : Shows p v (taskToks t₁ + K) t)
    (h₁ : ∀ a ∈ t₁, a.concerns t = false) (h₂ : ∀ a ∈ t₂, a.concerns t = false)
    (hm : v'.taskIdToStateMachine.get? t = v.taskIdToStateMachine.get? t)
    (hp : v'.taskIdToTask.get? t = v.taskIdToTask.get? t)
    (hq : v'.unassigned.count t = v.unassigned.count t)
    (hw : v'.policy.getWorkerByTaskId t = v.policy.getWorkerByTaskId t)
    (hh : v'.history.filter (Obs.concerns t) = v.history.filter (Obs.concerns t)) :
    ∃ p', Shows p' v' (taskToks t₂ + K) t ∧ PlaceStep ok t p p' :=
  ⟨p, ⟨hm.trans hs.machine, hp.trans hs.payload, hq.trans hs.queued, hw.trans hs.holder, hh.trans hs.history,
    (toks_elsewhere h₁ h₂).trans hs.toks⟩, .drift fun _ => rfl⟩

theorem toks_waiting (w : Waiting) (hw : w.event.taskId = t) {R : Multiset Waiting}
    (hk : K.filter (fun a => a.concerns t = true) = { p with waits := R }.toks)
    (hp : p.waits = w ::ₘ R) :
    ({w.tok} + K).filter (fun a => a.concerns t = true) = p.toks := by
  have hc : w.tok.concerns t = true := by
    obtain ⟨u, e⟩ := w
    cases u <;> simpa [Tok.concerns, Waiting.tok] using hw
  rw [filter_concerns_add hc, hk]
  unfold Place.toks
  rw [hp, Multiset.map_cons, ← Multiset.singleton_add]
  ac_rfl

end Tokens

end Scaler
