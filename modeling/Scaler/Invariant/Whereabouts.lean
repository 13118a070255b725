import Scaler.Invariant.Bookkeeping

/-! Where a task is, as long as no action raises, no worker is lost with a task that is still to be sent to it, and
nothing of an earlier task with the same id is under way. Where events may be dropped (`strict` is false), a task may be
with nobody; otherwise it is on hold, on its way to a worker, with a worker or about to be told that it lost it. -/

namespace Scaler

open Collections Coroutine

/-- The worker was asked for the task and does not have it any more. -/
def TaskEvent.givesBack : TaskEvent → Bool
  | .cancelConfirmCanceled _ _ _ | .cancelConfirmNotFound _ _ _ => true
  | _ => false

def TaskEvent.isLoss : TaskEvent → Bool
  | .workerDisconnected _ _ => true
  | _ => false

/-- The worker that has the task, as far as messages tell; the newest observation is first. -/
def outstanding (t : TaskID) : List Obs → Option WorkerID
  | [] => none
  | .sent (.worker w) (.task task) _ :: tr => if task.taskId = t then some w else outstanding t tr
  | .removed u _ _ :: tr => if u = t then none else outstanding t tr
  | .workerRemoved w _ _ :: tr => if outstanding t tr = some w then none else outstanding t tr
  | .applied e .balanceCanceling _ _ _ :: tr =>
    if e.taskId = t ∧ e.givesBack = true ∧ outstanding t tr = e.reporter? then none else outstanding t tr
  | _ :: tr => outstanding t tr

/-- None of the events that lose track of a task. -/
def Obs.Undisturbed : Obs → Prop
  | .registered _ _ pending => pending = []
  | .refused _ | .faulted _ => False
  | .workerRemoved _ undispatched _ => undispatched = []
  | .applied e .balanceCanceling holder _ _ => e.givesBack = true → holder ≠ none
  | _ => True

theorem Obs.Undisturbed.registersAnew {o : Obs} (h : o.Undisturbed) : o.RegistersAnew := by
  cases o with
  | registered t uid pending =>
    intro e he
    rw [show pending = [] from h] at he
    cases he
  | refused t => exact h.elim
  | _ => trivial

/-- An event was dropped because the lock of its machine did not come in time. -/
def Obs.isTimeout : Obs → Bool
  | .timedOut _ => true
  | _ => false

section Outstanding

variable {t : TaskID} {tr : List Obs} {w : WorkerID} {e : TaskEvent} {source : TaskState}
  {holder : Option WorkerID} {c : Option ClientID} {q : Bool}

theorem outstanding_cons_of_not_concerns {o : Obs} (h : o.concerns t = false) :
    outstanding t (o :: tr) = outstanding t tr := by
  cases o with
  | sent peer m holder =>
    cases peer with
    | worker w => cases m <;> simp_all [outstanding, Obs.concerns]
    | client c => cases m <;> rfl
  | applied e source holder c q =>
    have he : e.taskId ≠ t := by simpa [Obs.concerns] using h
    cases source <;> simp [outstanding, he]
  | removed u uid x =>
    have hu : u ≠ t := by simpa [Obs.concerns] using h
    simp [outstanding, hu]
  | workerRemoved => cases h
  | _ => rfl

theorem outstanding_cons_of_not_task {o : Obs} (h : o.isTask = false) :
    outstanding t (o :: tr) = outstanding t tr := by
  cases o with
  | sent peer m holder =>
    cases peer with
    | worker w => cases m <;> simp_all [outstanding, Obs.isTask]
    | client c => cases m <;> rfl
  | applied => cases h
  | removed => cases h
  | workerRemoved => cases h
  | _ => rfl

theorem outstanding_congr {o : Obs} {tr' : List Obs} (h : outstanding t tr' = outstanding t tr) :
    outstanding t (o :: tr') = outstanding t (o :: tr) := by
  cases o with
  | sent peer m holder =>
    cases peer with
    | worker w => cases m <;> simp [outstanding, h]
    | client c => cases m <;> simp [outstanding, h]
  | applied e source holder c q => cases source <;> simp [outstanding, h]
  | _ => simp [outstanding, h]

/-- Only what concerns the task says where it is. -/
theorem outstanding_filter (tr : List Obs) :
    outstanding t ((tr.filter Obs.isTask).filter (Obs.concerns t)) = outstanding t tr := by
  induction tr with
  | nil => rfl
  | cons o tr ih =>
    by_cases ht : o.isTask = true
    · rw [List.filter_cons_of_pos ht]
      by_cases hc : o.concerns t = true
      · rw [List.filter_cons_of_pos hc]
        exact outstanding_congr ih
      · rw [List.filter_cons_of_neg hc, ih, outstanding_cons_of_not_concerns (by simpa using hc)]
    · rw [List.filter_cons_of_neg ht, ih, outstanding_cons_of_not_task (by simpa using ht)]

theorem outstanding_applied (h : outstanding t (.applied e source holder c q :: tr) = some w) :
    outstanding t tr = some w := by
  cases source with
  | balanceCanceling =>
    rw [outstanding] at h
    split at h
    · cases h
    · exact h
  | _ => exact h

/-- A worker that gives the task back does not have it. -/
theorem outstanding_givesBack (he : e.taskId = t) (hback : e.givesBack = true)
    (h : outstanding t (.applied e .balanceCanceling holder c q :: tr) = some w) : e.reporter? ≠ some w := by
  intro hw
  have htr := outstanding_applied h
  rw [outstanding, if_pos ⟨he, hback, htr.trans hw.symm⟩] at h
  cases h

theorem outstanding_workerRemoved {us : List TaskID} {b : Bool} {v : WorkerID}
    (h : outstanding t (.workerRemoved v us b :: tr) = some w) : outstanding t tr = some w ∧ w ≠ v := by
  rw [outstanding] at h
  split at h
  · cases h
  · next hne =>
    refine ⟨h, ?_⟩
    rintro rfl
    exact hne h

end Outstanding

/-- Whenever the task was sent to a worker, nobody had it and the policy recorded that worker. -/
def SentApart (t : TaskID) (tr : List Obs) : Prop :=
  ∀ w task h earlier, .sent (.worker w) (.task task) h :: earlier <:+ tr → outstanding t earlier = none ∧ h = some w

theorem SentApart.cons {t : TaskID} {tr : List Obs} {o : Obs} (h : SentApart t tr)
    (ho : ∀ w task h', o = .sent (.worker w) (.task task) h' → outstanding t tr = none ∧ h' = some w) :
    SentApart t (o :: tr) := by
  intro w task h' earlier hsuffix
  rcases List.suffix_cons_iff.mp hsuffix with heq | hold
  · obtain ⟨ho', rfl⟩ := List.cons.inj heq
    exact ho w task h' ho'.symm
  · exact h w task h' earlier hold

namespace Place

/-- The disconnects that are not applied yet. -/
def losses (p : Place) : Nat := p.waits.countP fun w => w.event.isLoss = true

/-- The task is on hold, or on its way to the worker that was chosen for it, or was dropped on this way. -/
structure Choosing (strict : Prop) (t : TaskID) (p : Place) : Prop where
  one : p.queued + p.dispatches = 1 ∧ p.losses = 0 ∨ ¬ strict ∧ p.queued + p.dispatches = 0
  chosen : ∀ x ∈ p.waits, x.event.isDispatch = true → ∃ w, x.event = .hasCapacity t w ∧ p.holder = some w
  nobody : outstanding t p.history = none

/-- A worker has the task, or the task is about to be told that it lost its worker. -/
structure Holding (strict : Prop) (t : TaskID) (p : Place) : Prop where
  held : strict → p.holder ≠ none ∨ 0 < p.losses
  known : ∀ w, outstanding t p.history = some w → p.holder = some w

/-- The task is in this state, and nothing was done about it yet. -/
def Stands (strict : Prop) (t : TaskID) (p : Place) (x : TaskState) : Prop :=
  if x = .inactive then p.Choosing strict t else p.Holding strict t

/-- An event is taken up. -/
def Starts (strict : Prop) (t : TaskID) (p : Place) (e : TaskEvent) (source : TaskState) : Prop :=
  match e with
  | .hasCapacity _ w =>
    source = .inactive ∧ outstanding t p.history = none ∧ (p.JustApplied e source → p.holder = some w)
  | .workerDisconnected _ _ =>
    (source = .inactive → ¬ strict ∧ p.queued + p.dispatches = 0) ∧ p.holder = none ∧ p.losses = 0 ∧
      outstanding t p.history = none
  | _ => p.Stands strict t source

/-- An event is being applied. -/
def Works (strict : Prop) (t : TaskID) (p : Place) (b : Busy) : Prop :=
  match b.phase with
  | .start => p.Starts strict t b.event b.source
  | .vacant =>
    p.holder = none ∧ (b.event.Places b.source .vacant → p.losses = 0 ∧ outstanding t p.history = none)
  | .placed | .told => p.Holding strict t
  | .queued => p.Choosing strict t
  | .ended _ => p.holder = none
  | .spoiled => True
  | .faulted | .reported _ | .freed => False

def Fits (strict : Prop) (t : TaskID) (p : Place) : Prop :=
  match p.busy, p.machine with
  | some b, _ => p.Works strict t b
  | none, some m => p.Stands strict t m.state
  | none, none => p.holder = none ∧ outstanding t p.history = none

/-- What is known about the whereabouts of the task. -/
structure Kept (strict : Prop) (t : TaskID) (p : Place) : Prop where
  booked : p.Booked
  live : ∀ m, p.machine = some m → m.state.isTerminal = false
  payload : ∀ task, p.payload = some task → task.taskId = t
  about : ∀ b, p.busy = some b → b.event.taskId = t
  fresh : ∀ x ∈ p.waits, x.event.IsInternal → ∀ u, x.uid = some u → ∀ m, p.machine = some m → m.uid = u
  queue : 0 < p.queued → p.holder = none
  lost : 0 < p.losses → p.holder = none ∧ p.queued = 0
  once : p.losses ≤ 1
  apart : SentApart t p.history
  fits : p.Fits strict t

end Place

section Steps

variable {strict : Prop} {t : TaskID} {p p' : Place}

theorem TaskEvent.isInternal_of_isLoss {e : TaskEvent} (h : e.isLoss = true) : e.IsInternal := by
  cases e with
  | workerDisconnected => trivial
  | _ => cases h

theorem losses_cons {w : Waiting} {R : Multiset Waiting} (hw : p.waits = w ::ₘ R) :
    p.losses = R.countP (fun w => w.event.isLoss = true) + if w.event.isLoss = true then 1 else 0 := by
  unfold Place.losses
  rw [hw, Multiset.countP_cons]

theorem countP_loss_cons (w : Waiting) (R : Multiset Waiting) :
    (w ::ₘ R).countP (fun w => w.event.isLoss = true) =
      R.countP (fun w => w.event.isLoss = true) + if w.event.isLoss = true then 1 else 0 :=
  Multiset.countP_cons _ _ _

namespace Place

theorem Starts.other {e : TaskEvent} {source : TaskState} (hd : e.isDispatch = false) (hl : e.isLoss = false) :
    p.Starts strict t e source = p.Stands strict t source := by
  cases e with
  | hasCapacity => cases hd
  | workerDisconnected => cases hl
  | _ => rfl

theorem Holding.nobody (h : p.Holding strict t) (hh : p.holder = none) : outstanding t p.history = none := by
  cases ho : outstanding t p.history with
  | none => rfl
  | some w =>
    have hw := h.known w ho
    rw [hh] at hw
    cases hw

/-- Events leave, and only where they may be dropped do the scheduler's own become fewer. -/
structure Fewer (strict : Prop) (p : Place) (W : Multiset Waiting) : Prop where
  dispatches : W.countP (fun w => w.event.isDispatch = true) ≤ p.dispatches
  losses : W.countP (fun w => w.event.isLoss = true) ≤ p.losses
  same : strict → W.countP (fun w => w.event.isDispatch = true) = p.dispatches ∧
    W.countP (fun w => w.event.isLoss = true) = p.losses
  sub : ∀ x ∈ W, x.event.isDispatch = true → ∃ y ∈ p.waits, y.event = x.event

theorem Fewer.rfl : p.Fewer strict p.waits :=
  ⟨Nat.le_refl _, Nat.le_refl _, fun _ => ⟨Eq.refl _, Eq.refl _⟩, fun x hx _ => ⟨x, hx, Eq.refl _⟩⟩

theorem Choosing.frame (h : p.Choosing strict t) {W : Multiset Waiting} (hW : p.Fewer strict W) (busy : Option Busy)
    (machine : Option StateMachine) {history : List Obs}
    (ho : ∀ w, outstanding t history = some w → outstanding t p.history = some w) :
    Choosing strict t { p with machine := machine, busy := busy, waits := W, history := history } := by
  refine ⟨?_, fun x hx hdis => ?_, Option.eq_none_iff_forall_ne_some.mpr fun w hw => ?_⟩
  · change p.queued + W.countP _ = 1 ∧ W.countP _ = 0 ∨ ¬ strict ∧ p.queued + W.countP _ = 0
    have hd := hW.dispatches
    have hl := hW.losses
    rcases h.one with ⟨hone, hnone⟩ | ⟨hdropped, hzero⟩
    · by_cases hs : strict
      · have hsame := (hW.same hs).1
        exact .inl ⟨by omega, by omega⟩
      · by_cases heq : p.queued + W.countP (fun w => w.event.isDispatch = true) = 1
        · exact .inl ⟨heq, by omega⟩
        · exact .inr ⟨hs, by omega⟩
    · exact .inr ⟨hdropped, by omega⟩
  · obtain ⟨y, hy, heq⟩ := hW.sub x hx hdis
    rw [← heq]
    exact h.chosen y hy (heq ▸ hdis)
  · have hold := ho w hw
    rw [h.nobody] at hold
    cases hold

theorem Holding.frame (h : p.Holding strict t) {W : Multiset Waiting}
    (hl : strict → p.losses ≤ W.countP (fun w => w.event.isLoss = true)) (busy : Option Busy)
    (machine : Option StateMachine) {history : List Obs}
    (ho : ∀ w, outstanding t history = some w → outstanding t p.history = some w) :
    Holding strict t { p with machine := machine, busy := busy, waits := W, history := history } :=
  ⟨fun hs => (h.held hs).imp_right fun hpos => Nat.lt_of_lt_of_le hpos (hl hs), fun w hw => h.known w (ho w hw)⟩

theorem Stands.frame {x : TaskState} (h : p.Stands strict t x) {W : Multiset Waiting} (hW : p.Fewer strict W)
    (busy : Option Busy) (machine : Option StateMachine) {history : List Obs}
    (ho : ∀ w, outstanding t history = some w → outstanding t p.history = some w) :
    Stands strict t { p with machine := machine, busy := busy, waits := W, history := history } x := by
  unfold Stands at h ⊢
  split
  · next hx =>
    rw [if_pos hx] at h
    exact h.frame hW busy machine ho
  · next hx =>
    rw [if_neg hx] at h
    exact h.frame (fun hs => Nat.le_of_eq (hW.same hs).2.symm) busy machine ho

theorem fits_busy {b : Busy} (hb : p.busy = some b) : p.Fits strict t ↔ p.Works strict t b := by
  rw [Fits, hb]

theorem fits_idle {m : StateMachine} (hb : p.busy = none) (hm : p.machine = some m) :
    p.Fits strict t ↔ p.Stands strict t m.state := by
  rw [Fits, hb, hm]

theorem fits_gone (hb : p.busy = none) (hm : p.machine = none) :
    p.Fits strict t ↔ p.holder = none ∧ outstanding t p.history = none := by
  rw [Fits, hb, hm]

/-- Nothing happens at the place but that events leave or come and something is noted. -/
theorem Kept.frame (h : p.Kept strict t) {W : Multiset Waiting} {history : List Obs}
    (hd : W.countP (fun w => w.event.isDispatch = true) ≤ p.dispatches)
    (hl : W.countP (fun w => w.event.isLoss = true) ≤ p.losses) (hW : p.machine ≠ none → p.Fewer strict W)
    (hfresh : ∀ x ∈ W, x.event.IsInternal → ∀ u, x.uid = some u → ∀ m, p.machine = some m → m.uid = u)
    (ho : ∀ w, outstanding t history = some w → outstanding t p.history = some w)
    (hj : ∀ e source, JustApplied { p with waits := W, history := history } e source → p.JustApplied e source)
    (hapart : SentApart t history) : Kept strict t { p with waits := W, history := history } := by
  have hnobody : outstanding t p.history = none → outstanding t history = none := by
    refine fun hnone => Option.eq_none_iff_forall_ne_some.mpr fun w hw => ?_
    rw [ho w hw] at hnone
    cases hnone
  refine ⟨h.booked.frame hd _ _, h.live, h.payload, h.about, hfresh, h.queue,
    fun hpos => h.lost (Nat.lt_of_lt_of_le hpos hl), Nat.le_trans hl h.once, hapart, ?_⟩
  have hf := h.fits
  cases hb : p.busy with
  | none =>
    cases hm : p.machine with
    | none =>
      rw [fits_gone hb hm] at hf
      exact (fits_gone (by rfl) (by rfl)).mpr ⟨hf.1, hnobody hf.2⟩
    | some m =>
      rw [fits_idle hb hm] at hf
      exact (fits_idle (by rfl) (by rfl)).mpr (hf.frame (hW (by simp [hm])) none (some m) ho)
  | some b =>
    have hW := hW (by simp [(h.booked.busy b hb).1])
    have hgone : ∀ hs : strict, p.losses ≤ W.countP (fun w => w.event.isLoss = true) :=
      fun hs => Nat.le_of_eq (hW.same hs).2.symm
    rw [fits_busy hb] at hf
    refine (fits_busy (by rfl)).mpr ?_
    obtain ⟨uid, e, source, phase⟩ := b
    cases phase with
    | start =>
      cases e with
      | hasCapacity => exact ⟨hf.1, hnobody hf.2.1, fun happlied => hf.2.2 (hj _ _ happlied)⟩
      | workerDisconnected =>
        refine ⟨fun hs => ⟨(hf.1 hs).1, ?_⟩, hf.2.1, ?_, hnobody hf.2.2.2⟩
        · have hzero := (hf.1 hs).2
          change p.queued + W.countP _ = 0
          omega
        · have hzero := hf.2.2.1
          change W.countP _ = 0
          omega
      | _ => exact Stands.frame hf hW _ _ ho
    | vacant =>
      refine ⟨hf.1, fun hplaces => ⟨?_, hnobody (hf.2 hplaces).2⟩⟩
      have hzero := (hf.2 hplaces).1
      change W.countP _ = 0
      omega
    | placed => exact Holding.frame hf hgone _ _ ho
    | told => exact Holding.frame hf hgone _ _ ho
    | queued => exact Choosing.frame hf hW _ _ ho
    | _ => exact hf

/-- Other events wait, but no more and no fewer of the scheduler's own. -/
theorem Kept.rewait (h : p.Kept strict t) {W : Multiset Waiting}
    (hd : W.countP (fun w => w.event.isDispatch = true) ≤ p.dispatches)
    (hl : W.countP (fun w => w.event.isLoss = true) ≤ p.losses) (hW : p.machine ≠ none → p.Fewer strict W)
    (hfresh : ∀ x ∈ W, x.event.IsInternal → ∀ u, x.uid = some u → ∀ m, p.machine = some m → m.uid = u) :
    Kept strict t { p with waits := W } :=
  h.frame hd hl hW hfresh (fun _ hw => hw) (fun _ _ happlied => happlied) h.apart

theorem Kept.empty : Place.empty.Kept strict t := by
  refine ⟨Booked.empty, ?_, ?_, ?_, ?_, fun _ => rfl, fun _ => ⟨rfl, rfl⟩, Nat.zero_le 1, ?_, ?_⟩
  · rintro m ⟨⟩
  · rintro task ⟨⟩
  · rintro b ⟨⟩
  · exact fun x hx => absurd hx (Multiset.notMem_zero x)
  · exact fun w task h earlier hsuffix => absurd (List.suffix_nil.mp hsuffix) (List.cons_ne_nil _ _)
  · exact (fits_gone rfl rfl).mpr ⟨rfl, rfl⟩

theorem Kept.gone (h : p.Kept strict t) (hm : p.machine = none) :
    p.busy = none ∧ p.holder = none ∧ p.queued = 0 ∧ outstanding t p.history = none := by
  have hb : p.busy = none := by
    cases hb : p.busy with
    | none => rfl
    | some b =>
      have hm' := (h.booked.busy b hb).1
      rw [hm] at hm'
      cases hm'
  obtain ⟨hholder, hnobody⟩ := (fits_gone hb hm).mp h.fits
  exact ⟨hb, hholder, h.booked.unqueued hm, hnobody⟩

theorem Kept.onHold (h : p.Kept strict t) (hq : 0 < p.queued) :
    p.Choosing strict t ∧
      ∀ p' : Place, p'.busy = p.busy → p'.machine = p.machine → p'.Choosing strict t → p'.Fits strict t := by
  obtain ⟨m, hm, hphase, hactive⟩ := h.booked.queue hq
  have hf := h.fits
  cases hb : p.busy with
  | none =>
    have hs : m.state = .inactive := by
      by_contra hs
      obtain ⟨b, hb', _⟩ := hactive hs
      rw [hb] at hb'
      cases hb'
    rw [fits_idle hb hm, Stands, if_pos hs] at hf
    refine ⟨hf, fun p' hb' hm' hc => (fits_idle hb' (hm'.trans hm)).mpr ?_⟩
    rwa [Stands, if_pos hs]
  | some b =>
    have hsource : p.machine = some ⟨b.uid, b.source⟩ := (h.booked.busy b hb).1
    have hdispatch : b.event.isDispatch = false := by
      by_contra hd
      have hpos : 0 < p.dispatching := by
        unfold dispatching
        rw [hb, Option.any_some, if_pos (by simpa using hd)]
        omega
      have := h.booked.apart hpos
      omega
    have hstart : b.phase = .start → b.source = .inactive := by
      intro hs
      by_contra hne
      rw [hm] at hsource
      obtain rfl := Option.some.inj hsource
      obtain ⟨b', hb', hparks⟩ := hactive hne
      rw [hb] at hb'
      obtain rfl := Option.some.inj hb'
      rw [hs] at hparks
      exact hparks
    have hp := hphase b hb
    rw [fits_busy hb] at hf
    obtain ⟨uid, e, source, phase⟩ := b
    cases phase with
    | start =>
      obtain rfl : source = .inactive := hstart rfl
      have hloss : e.isLoss = false := by
        cases e with
        | workerDisconnected =>
          have hzero := (hf.1 rfl).2
          omega
        | _ => rfl
      change p.Starts strict t e .inactive at hf
      rw [Starts.other hdispatch hloss, Stands, if_pos rfl] at hf
      refine ⟨hf, fun p' hb' _ hc => (fits_busy hb').mpr ?_⟩
      change p'.Starts strict t e .inactive
      rwa [Starts.other hdispatch hloss, Stands, if_pos rfl]
    | queued => exact ⟨hf, fun p' hb' _ hc => (fits_busy hb').mpr hc⟩
    | faulted => exact hf.elim
    | reported => exact hf.elim
    | freed => exact hf.elim
    | _ =>
      rcases hp with hp | hp
      · cases hp
      · exact hp.elim

/-- Where a worker is looked for, nobody has the task. -/
theorem Kept.placing (h : p.Kept strict t) {uid : Nat} {e : TaskEvent} {source : TaskState} {phase : Phase}
    (hb : p.busy = some ⟨uid, e, source, phase⟩) (he : e.Places source phase) :
    p.holder = none ∧ p.losses = 0 ∧ outstanding t p.history = none := by
  have hf := (fits_busy hb).mp h.fits
  cases e with
  | cancelConfirmCanceled =>
    obtain ⟨rfl, rfl⟩ := he
    exact ⟨hf.1, hf.2 ⟨rfl, rfl⟩⟩
  | cancelConfirmNotFound =>
    obtain ⟨rfl, rfl⟩ := he
    exact ⟨hf.1, hf.2 ⟨rfl, rfl⟩⟩
  | workerDisconnected =>
    obtain ⟨_, rfl⟩ := he
    exact ⟨hf.2.1, hf.2.2.1, hf.2.2.2⟩
  | _ => exact he.elim

/-- A task that is given back was with the worker that reports it. -/
theorem Kept.released (h : p.Kept strict t) {uid : Nat} {e : TaskEvent} {source : TaskState}
    (hb : p.busy = some ⟨uid, e, source, .start⟩) (hj : p.JustApplied e source)
    (ho : e.isOwned p.holder = true) (hC : ∀ o ∈ p.history, o.Undisturbed) (he : e.Places source .vacant) :
    p.losses = 0 ∧ outstanding t p.history = none := by
  have hback : e.givesBack = true ∧ source = .balanceCanceling := by
    cases e with
    | cancelConfirmCanceled => exact ⟨rfl, he.1⟩
    | cancelConfirmNotFound => exact ⟨rfl, he.1⟩
    | workerDisconnected => cases he.2
    | _ => exact he.elim
  obtain ⟨hback, rfl⟩ := hback
  obtain ⟨c, tr, hhistory⟩ := hj
  have hheld : p.holder ≠ none := by
    have hu := hC (.applied e .balanceCanceling p.holder c (decide (0 < p.queued))) (hhistory ▸ List.mem_cons_self)
    exact hu hback
  have hf : p.Holding strict t := by
    have hf := (fits_busy hb).mp h.fits
    change p.Starts strict t e .balanceCanceling at hf
    rwa [Starts.other (by cases e <;> first | rfl | cases hback) (by cases e <;> first | rfl | cases hback), Stands,
      if_neg (by simp)] at hf
  refine ⟨Nat.eq_zero_of_not_pos fun hpos => hheld (h.lost hpos).1, ?_⟩
  cases hnobody : outstanding t p.history with
  | none => rfl
  | some w =>
    have hw := hf.known w hnobody
    rw [hhistory] at hnobody
    have hne := outstanding_givesBack (h.about _ hb) hback hnobody
    obtain ⟨v, hv⟩ : ∃ v, e.reporter? = some v := by
      cases e with
      | cancelConfirmCanceled => exact ⟨_, rfl⟩
      | cancelConfirmNotFound => exact ⟨_, rfl⟩
      | _ => cases hback
    unfold TaskEvent.isOwned at ho
    rw [hv, hw] at ho
    rw [hv] at hne
    exact absurd (congrArg some (of_decide_eq_true ho).symm) hne

/-- The worker of the task is removed. -/
def deprived (t : TaskID) (w : WorkerID) (b : Bool) (p : Place) : Place :=
  { p with
    holder := none
    waits := ⟨none, .workerDisconnected t w⟩ ::ₘ p.waits
    history := .workerRemoved w [] b :: p.history }

theorem Kept.lose (h : p.Kept strict t) {w : WorkerID} {b : Bool} (hw : p.holder = some w)
    (hu : ∀ x ∈ p.waits, x.event ≠ .hasCapacity t w)
    (hbooked : (p.deprived t w b).Booked) : (p.deprived t w b).Kept strict t := by
  have hq : p.queued = 0 := Nat.eq_zero_of_not_pos fun hpos => by
    rw [h.queue hpos] at hw
    cases hw
  have hl : p.losses = 0 := Nat.eq_zero_of_not_pos fun hpos => by
    rw [(h.lost hpos).1] at hw
    cases hw
  have hone : (p.deprived t w b).losses = 1 := by
    change Multiset.countP _ (_ ::ₘ p.waits) = 1
    rw [countP_loss_cons, show p.waits.countP _ = 0 from hl]
    rfl
  have hdispatches : (p.deprived t w b).dispatches = p.dispatches := by
    change Multiset.countP _ (_ ::ₘ p.waits) = _
    rw [countP_dispatch_cons]
    rfl
  have hchoosing : p.Choosing strict t → (p.deprived t w b).Choosing strict t := by
    intro hc
    rcases hc.one with ⟨hexpects, -⟩ | ⟨hdropped, hzero⟩
    · have hpos : 0 < p.dispatches := by omega
      obtain ⟨x, hx, hd⟩ := Multiset.countP_pos.mp hpos
      obtain ⟨v, hv, hholder⟩ := hc.chosen x hx hd
      rw [hw] at hholder
      obtain rfl := Option.some.inj hholder
      exact absurd hv (hu x hx)
    · have hnone : (p.deprived t w b).dispatches = 0 := by omega
      refine ⟨.inr ⟨hdropped, ?_⟩, fun x hx hd => absurd hd (Multiset.countP_eq_zero.mp hnone x hx), ?_⟩
      · rw [hnone]
        exact hq
      · change outstanding t (.workerRemoved w [] b :: p.history) = none
        rw [outstanding, hc.nobody, if_neg (Option.some_ne_none w).symm]
  have hholding : p.Holding strict t → (p.deprived t w b).Holding strict t := by
    refine fun hh => ⟨fun _ => .inr (hone ▸ Nat.one_pos), fun v hv => ?_⟩
    obtain ⟨hold, hne⟩ := outstanding_workerRemoved hv
    have hknown := hh.known v hold
    rw [hw] at hknown
    exact absurd (Option.some.inj hknown).symm hne
  have hstands : ∀ x, p.Stands strict t x → (p.deprived t w b).Stands strict t x := by
    intro x hx
    unfold Stands at hx ⊢
    split
    · next hs =>
      rw [if_pos hs] at hx
      exact hchoosing hx
    · next hs =>
      rw [if_neg hs] at hx
      exact hholding hx
  have hsome : p.holder ≠ none := by
    rw [hw]
    exact Option.some_ne_none w
  refine ⟨hbooked, h.live, h.payload, h.about, fun x hx hi u hxu m hm => ?_, fun hpos => absurd hq (Nat.ne_of_gt hpos),
    fun _ => ⟨rfl, hq⟩, Nat.le_of_eq hone, h.apart.cons fun _ _ _ heq => ?_, ?_⟩
  · rcases Multiset.mem_cons.mp hx with rfl | hx
    · cases hxu
    · exact h.fresh x hx hi u hxu m hm
  · cases heq
  · have hf := h.fits
    cases hb : p.busy with
    | none =>
      cases hm : p.machine with
      | none => exact absurd ((fits_gone hb hm).mp hf).1 hsome
      | some m =>
        exact (fits_idle (p := p.deprived t w b) hb hm).mpr (hstands m.state ((fits_idle hb hm).mp hf))
    | some a =>
      have hf := (fits_busy hb).mp hf
      refine (fits_busy (p := p.deprived t w b) hb).mpr ?_
      obtain ⟨uid, e, source, phase⟩ := a
      cases phase with
      | start =>
        cases e with
        | hasCapacity u v =>
          refine ⟨hf.1, Option.eq_none_iff_forall_ne_some.mpr fun v hv => ?_, ?_⟩
          · have hold := (outstanding_workerRemoved hv).1
            rw [hf.2.1] at hold
            cases hold
          · rintro ⟨c, tr, heq⟩
            cases heq
        | workerDisconnected => exact absurd hf.2.1 hsome
        | _ => exact hstands source hf
      | vacant => exact absurd hf.1 hsome
      | placed => exact hholding hf
      | told => exact hholding hf
      | queued => exact hchoosing hf
      | ended => exact absurd hf hsome
      | _ => exact hf

/-- Another worker was lost. -/
theorem Kept.spare (h : p.Kept strict t) (w : WorkerID) (b : Bool) :
    Kept strict t { p with history := .workerRemoved w [] b :: p.history } := by
  refine h.frame (Nat.le_refl _) (Nat.le_refl _) (fun _ => .rfl) h.fresh (fun v hv => (outstanding_workerRemoved hv).1)
    ?_ (h.apart.cons fun _ _ _ heq => ?_)
  · rintro e source ⟨c, tr, heq⟩
    cases heq
  · cases heq

theorem Kept.expire (h : p.Kept strict t) {uid : Nat} {e : TaskEvent} {R : Multiset Waiting}
    (hk : p.waits = ⟨some uid, e⟩ ::ₘ R) (hs : ¬ strict) :
    Kept strict t { p with waits := R, history := .timedOut e :: p.history } := by
  have hmem : ∀ x ∈ R, x ∈ p.waits := fun x hx => hk ▸ Multiset.mem_cons_of_mem hx
  have hd : R.countP (fun w => w.event.isDispatch = true) ≤ p.dispatches := by
    rw [dispatches_cons hk]
    exact Nat.le_add_right _ _
  have hl : R.countP (fun w => w.event.isLoss = true) ≤ p.losses := by
    rw [losses_cons hk]
    exact Nat.le_add_right _ _
  refine h.frame hd hl (fun _ => ⟨hd, hl, fun h => absurd h hs, fun x hx _ => ⟨x, hmem x hx, rfl⟩⟩)
    (fun x hx => h.fresh x (hmem x hx)) (fun _ hw => hw) ?_ (h.apart.cons fun _ _ _ heq => ?_)
  · rintro e' source ⟨c, tr, heq⟩
    cases heq
  · cases heq

theorem Kept.take (h : p.Kept strict t) {uid : Nat} {e : TaskEvent} {source : TaskState} {c : Option ClientID}
    {R : Multiset Waiting} (hk : p.waits = ⟨some uid, e⟩ ::ₘ R) (he : e.taskId = t)
    (hm : p.machine = some ⟨uid, source⟩) (hb : p.busy = none)
    (hbooked : Place.Booked { p with
      busy := some ⟨uid, e, source, .start⟩
      waits := R
      history := .applied e source p.holder c (decide (0 < p.queued)) :: p.history }) :
    Kept strict t { p with
      busy := some ⟨uid, e, source, .start⟩
      waits := R
      history := .applied e source p.holder c (decide (0 < p.queued)) :: p.history } := by
  have hmem : ∀ x ∈ R, x ∈ p.waits := fun x hx => hk ▸ Multiset.mem_cons_of_mem hx
  have hd := dispatches_cons hk
  have hl := losses_cons hk
  have hs : p.Stands strict t source := (fits_idle hb hm).mp h.fits
  have ho : ∀ w, outstanding t (.applied e source p.holder c (decide (0 < p.queued)) :: p.history) = some w →
      outstanding t p.history = some w := fun w hw => outstanding_applied hw
  have hnobody : outstanding t p.history = none →
      outstanding t (.applied e source p.holder c (decide (0 < p.queued)) :: p.history) = none := by
    refine fun hnone => Option.eq_none_iff_forall_ne_some.mpr fun w hw => ?_
    rw [ho w hw] at hnone
    cases hnone
  have hstay : e.isDispatch = false → e.isLoss = false → Stands strict t { p with
      busy := some ⟨uid, e, source, .start⟩
      waits := R
      history := .applied e source p.holder c (decide (0 < p.queued)) :: p.history } source := by
    intro hdis hloss
    rw [if_neg (by simp [hdis])] at hd
    rw [if_neg (by simp [hloss])] at hl
    exact hs.frame ⟨Nat.le_of_eq hd.symm, Nat.le_of_eq hl.symm, fun _ => ⟨hd.symm, hl.symm⟩,
      fun x hx _ => ⟨x, hmem x hx, rfl⟩⟩ _ p.machine ho
  have hfew : R.countP (fun w => w.event.isLoss = true) ≤ p.losses := by omega
  refine ⟨hbooked, h.live, h.payload, ?_, fun x hx => h.fresh x (hmem x hx), h.queue,
    fun hpos => h.lost (Nat.lt_of_lt_of_le hpos hfew), Nat.le_trans hfew h.once, h.apart.cons fun _ _ _ heq => ?_,
    (fits_busy (by rfl)).mpr ?_⟩
  · rintro b ⟨⟩
    exact he
  · cases heq
  · cases e with
    | hasCapacity u w =>
      have hinactive : source = .inactive := by
        by_contra hne
        have hz := h.booked.inactive _ hm hne fun b hb' => by
          rw [hb] at hb'
          cases hb'
        rw [hd, if_pos (by rfl)] at hz
        omega
      subst hinactive
      rw [Stands, if_pos rfl] at hs
      obtain ⟨v, hv, hholder⟩ := hs.chosen ⟨some uid, .hasCapacity u w⟩ (hk ▸ Multiset.mem_cons_self _ _) rfl
      cases hv
      exact ⟨rfl, hnobody hs.nobody, fun _ => hholder⟩
    | workerDisconnected u w =>
      rw [if_pos (by rfl)] at hl
      have hnone : p.holder = none := (h.lost (by omega)).1
      rw [if_neg (by exact Bool.false_ne_true)] at hd
      have honce := h.once
      have hzero : R.countP (fun w => w.event.isLoss = true) = 0 := by omega
      unfold Stands at hs
      split at hs
      · rcases hs.one with ⟨-, hfree⟩ | ⟨hdropped, hnowhere⟩
        · omega
        · refine ⟨fun _ => ⟨hdropped, ?_⟩, hnone, hzero, hnobody hs.nobody⟩
          change p.queued + R.countP _ = 0
          omega
      · next hactive => exact ⟨fun hs => absurd hs hactive, hnone, hzero, hnobody (hs.nobody hnone)⟩
    | _ => exact hstay rfl rfl

theorem Kept.decline (h : p.Kept strict t) {uid : Nat} {e : TaskEvent} {source : TaskState}
    (hb : p.busy = some ⟨uid, e, source, .start⟩) (hr : e.Refuses source ∨ e.isOwned p.holder = false) :
    p.Stands strict t source := by
  have hf := (fits_busy hb).mp h.fits
  have hm : p.machine = some ⟨uid, source⟩ := (h.booked.busy _ hb).1
  cases e with
  | hasCapacity u w =>
    have hinactive : source = .inactive := hf.1
    subst hinactive
    rcases hr with hr | hr
    · exact absurd rfl hr
    · cases hr
  | workerDisconnected u w =>
    rcases hr with ⟨hrunning, hbalance, hcanceling⟩ | hr
    · have hinactive : source = .inactive := by
        have hl := h.live _ hm
        cases source <;> simp_all [TaskState.isTerminal]
      obtain ⟨hdropped, hzero⟩ := hf.1 hinactive
      have hd : p.dispatches = 0 := by omega
      rw [Stands, if_pos hinactive]
      exact ⟨.inr ⟨hdropped, hzero⟩, fun x hx hdis => absurd hdis (Multiset.countP_eq_zero.mp hd x hx), hf.2.2.2⟩
    · cases hr
  | _ => exact hf

end Place

theorem TaskEvent.Lands.stands {uid : Nat} {e : TaskEvent} {source y : TaskState} {phase : Phase}
    (h : e.Lands source phase y) (hy : y.isTerminal = false) (hw : p.Works strict t ⟨uid, e, source, phase⟩) :
    p.Stands strict t y := by
  have hstart : ∀ {e : TaskEvent}, e.isDispatch = false → e.isLoss = false → source ≠ .inactive →
      p.Works strict t ⟨uid, e, source, .start⟩ → p.Holding strict t := by
    intro e hd hl hs hw
    change p.Starts strict t e source at hw
    rwa [Place.Starts.other hd hl, Place.Stands, if_neg hs] at hw
  cases y with
  | inactive =>
    obtain rfl : phase = .queued := h
    exact hw
  | running =>
    rcases h with rfl | ⟨⟨_, _, _, rfl⟩, rfl, hs⟩
    · exact hw
    · exact hstart rfl rfl (by rcases hs with rfl | rfl <;> exact TaskState.noConfusion) hw
  | canceling =>
    obtain ⟨⟨_, _, _, rfl⟩, ⟨-, rfl⟩ | ⟨rfl, rfl⟩⟩ := h
    · exact hw
    · exact hstart rfl rfl TaskState.noConfusion hw
  | balanceCanceling =>
    obtain ⟨_, -, rfl⟩ := h
    exact hw
  | _ => cases hy

namespace Place

theorem zero_of_external (hno : ∀ x ∈ p.waits, ¬ x.event.IsInternal) : p.dispatches = 0 ∧ p.losses = 0 := by
  refine ⟨Multiset.countP_eq_zero.mpr fun x hx hd => ?_, Multiset.countP_eq_zero.mpr fun x hx hl => ?_⟩
  · exact hno x hx (TaskEvent.isInternal_of_isDispatch hd)
  · exact hno x hx (TaskEvent.isInternal_of_isLoss hl)

theorem Kept.hold (hp : p.Kept strict t) {uid : Nat} {pending : List TaskEvent} {task : Task} (hm : p.machine = none)
    (ht : task.taskId = t) (hno : ∀ x ∈ p.waits, ¬ x.event.IsInternal)
    (hbooked : Booked { p with
      machine := some ⟨uid, .inactive⟩
      payload := some task
      queued := p.queued + 1
      history := .registered t uid pending :: p.history }) :
    Kept strict t { p with
      machine := some ⟨uid, .inactive⟩
      payload := some task
      queued := p.queued + 1
      history := .registered t uid pending :: p.history } := by
  obtain ⟨hb, hholder, hq, hnobody⟩ := hp.gone hm
  obtain ⟨hd, hl⟩ := zero_of_external hno
  refine ⟨hbooked, ?_, ?_, hp.about, fun x hx hi => absurd hi (hno x hx), fun _ => hholder,
    fun hpos => absurd hl (Nat.ne_of_gt hpos), hp.once, hp.apart.cons fun _ _ _ heq => ?_, ?_⟩
  · rintro m ⟨⟩
    rfl
  · rintro task' ⟨⟩
    exact ht
  · cases heq
  · refine (fits_idle (by exact hb) (by rfl)).mpr ?_
    rw [Stands, if_pos rfl]
    refine ⟨.inl ⟨?_, hl⟩, fun x hx hdis => absurd (TaskEvent.isInternal_of_isDispatch hdis) (hno x hx), hnobody⟩
    change p.queued + 1 + p.dispatches = 1
    omega

theorem Kept.assign (hp : p.Kept strict t) {uid : Nat} {pending : List TaskEvent} {task : Task} {w : WorkerID}
    (hm : p.machine = none) (ht : task.taskId = t) (hno : ∀ x ∈ p.waits, ¬ x.event.IsInternal)
    (hbooked : Booked { p with
      machine := some ⟨uid, .inactive⟩
      payload := some task
      holder := some w
      waits := ⟨none, .hasCapacity t w⟩ ::ₘ p.waits
      history := .registered t uid pending :: p.history }) :
    Kept strict t { p with
      machine := some ⟨uid, .inactive⟩
      payload := some task
      holder := some w
      waits := ⟨none, .hasCapacity t w⟩ ::ₘ p.waits
      history := .registered t uid pending :: p.history } := by
  obtain ⟨hb, -, hq, hnobody⟩ := hp.gone hm
  obtain ⟨hd, hl⟩ := zero_of_external hno
  have hl' : Multiset.countP (fun w => w.event.isLoss = true) (⟨none, .hasCapacity t w⟩ ::ₘ p.waits) = 0 := by
    rw [countP_loss_cons]
    exact hl
  refine ⟨hbooked, ?_, ?_, hp.about, fun x hx hi u hu' m hm' => ?_, fun hpos => absurd hq (Nat.ne_of_gt hpos),
    fun hpos => absurd hl' (Nat.ne_of_gt hpos), Nat.le_of_eq hl' |>.trans (Nat.zero_le 1),
    hp.apart.cons fun _ _ _ heq => ?_, ?_⟩
  · rintro m ⟨⟩
    rfl
  · rintro task' ⟨⟩
    exact ht
  · rcases Multiset.mem_cons.mp hx with rfl | hx
    · cases hu'
    · exact absurd hi (hno x hx)
  · cases heq
  · refine (fits_idle (by exact hb) (by rfl)).mpr ?_
    rw [Stands, if_pos rfl]
    refine ⟨.inl ⟨?_, hl'⟩, fun x hx hdis => ?_, hnobody⟩
    · change p.queued + Multiset.countP _ (_ ::ₘ p.waits) = 1
      rw [countP_dispatch_cons, show p.waits.countP _ = 0 from hd, hq]
      rfl
    · rcases Multiset.mem_cons.mp hx with rfl | hx
      · exact ⟨w, rfl, rfl⟩
      · exact absurd (TaskEvent.isInternal_of_isDispatch hdis) (hno x hx)

theorem Kept.acquire (hp : p.Kept strict t) {w : WorkerID} (hq : 0 < p.queued)
    (hbooked : Booked { p with
      queued := p.queued - 1
      holder := some w
      waits := ⟨none, .hasCapacity t w⟩ ::ₘ p.waits }) :
    Kept strict t { p with
      queued := p.queued - 1
      holder := some w
      waits := ⟨none, .hasCapacity t w⟩ ::ₘ p.waits } := by
  obtain ⟨hc, hfits⟩ := hp.onHold hq
  obtain ⟨hone, hl⟩ := hc.one.resolve_right fun hdropped => by omega
  have hd : p.dispatches = 0 := by omega
  have hl' : Multiset.countP (fun w => w.event.isLoss = true) (⟨none, .hasCapacity t w⟩ ::ₘ p.waits) = 0 := by
    rw [countP_loss_cons]
    exact hl
  refine ⟨hbooked, hp.live, hp.payload, hp.about, fun x hx hi u hu m hm => ?_, fun hpos => ?_,
    fun hpos => absurd hl' (Nat.ne_of_gt hpos), Nat.le_of_eq hl' |>.trans (Nat.zero_le 1), hp.apart, hfits _ rfl rfl ?_⟩
  · rcases Multiset.mem_cons.mp hx with rfl | hx
    · cases hu
    · exact hp.fresh x hx hi u hu m hm
  · change 0 < p.queued - 1 at hpos
    omega
  · refine ⟨.inl ⟨?_, hl'⟩, fun x hx hdis => ?_, hc.nobody⟩
    · change p.queued - 1 + Multiset.countP _ (_ ::ₘ p.waits) = 1
      rw [countP_dispatch_cons, show p.waits.countP _ = 0 from hd, if_pos (by rfl)]
      omega
    · rcases Multiset.mem_cons.mp hx with rfl | hx
      · exact ⟨w, rfl, rfl⟩
      · exact absurd hdis (Multiset.countP_eq_zero.mp hd x hx)

theorem Kept.report (hp : p.Kept strict t) {e : TaskEvent} (hi : ¬ e.IsInternal) :
    Kept strict t { p with waits := ⟨none, e⟩ ::ₘ p.waits } := by
  have hd : e.isDispatch ≠ true := fun hd => hi (TaskEvent.isInternal_of_isDispatch hd)
  have hl : e.isLoss ≠ true := fun hl => hi (TaskEvent.isInternal_of_isLoss hl)
  have hdispatches : (⟨none, e⟩ ::ₘ p.waits).countP (fun w => w.event.isDispatch = true) = p.dispatches := by
    rw [countP_dispatch_cons, if_neg hd]
    rfl
  have hlosses : (⟨none, e⟩ ::ₘ p.waits).countP (fun w => w.event.isLoss = true) = p.losses := by
    rw [countP_loss_cons, if_neg hl]
    rfl
  refine hp.rewait (Nat.le_of_eq hdispatches) (Nat.le_of_eq hlosses) (fun _ => ⟨Nat.le_of_eq hdispatches,
    Nat.le_of_eq hlosses, fun _ => ⟨hdispatches, hlosses⟩, fun x hx hdis => ?_⟩) fun x hx hi' u hu m hm => ?_
  · rcases Multiset.mem_cons.mp hx with rfl | hx
    · exact absurd hdis hd
    · exact ⟨x, hx, rfl⟩
  · rcases Multiset.mem_cons.mp hx with rfl | hx
    · exact absurd hi' hi
    · exact hp.fresh x hx hi' u hu m hm

theorem Kept.drop (hp : p.Kept strict t) {x : Waiting} {R : Multiset Waiting} (hk : p.waits = x ::ₘ R)
    (hm : p.machine = none) : Kept strict t { p with waits := R } := by
  refine hp.rewait ?_ ?_ (fun hne => absurd hm hne) fun x hx hi u hu m hm' => ?_
  · rw [dispatches_cons hk]
    exact Nat.le_add_right _ _
  · rw [losses_cons hk]
    exact Nat.le_add_right _ _
  · rw [hm] at hm'
    cases hm'

theorem Kept.enqueue (hp : p.Kept strict t) {e : TaskEvent} {R : Multiset Waiting} {m : StateMachine}
    (hk : p.waits = ⟨none, e⟩ ::ₘ R) (hm : p.machine = some m) :
    Kept strict t { p with waits := ⟨some m.uid, e⟩ ::ₘ R } := by
  have hd : (⟨some m.uid, e⟩ ::ₘ R).countP (fun w => w.event.isDispatch = true) = p.dispatches := by
    rw [countP_dispatch_cons, dispatches_cons hk]
  have hl : (⟨some m.uid, e⟩ ::ₘ R).countP (fun w => w.event.isLoss = true) = p.losses := by
    rw [countP_loss_cons, losses_cons hk]
  refine hp.rewait (Nat.le_of_eq hd) (Nat.le_of_eq hl) (fun _ => ⟨Nat.le_of_eq hd, Nat.le_of_eq hl,
    fun _ => ⟨hd, hl⟩, fun x hx _ => ?_⟩) fun x hx hi u hu m' hm' => ?_
  · rcases Multiset.mem_cons.mp hx with rfl | hx
    · exact ⟨⟨none, e⟩, hk ▸ Multiset.mem_cons_self _ _, rfl⟩
    · exact ⟨x, hk ▸ Multiset.mem_cons_of_mem hx, rfl⟩
  · rcases Multiset.mem_cons.mp hx with rfl | hx
    · rw [hm] at hm'
      obtain rfl := Option.some.inj hm'
      exact Option.some.inj hu
    · exact hp.fresh x (hk ▸ Multiset.mem_cons_of_mem hx) hi u hu m' hm'

/-- An event waited for the lock of an earlier machine. -/
theorem Kept.stale (hp : p.Kept strict t) {uid : Nat} {e : TaskEvent} {R : Multiset Waiting}
    (hk : p.waits = ⟨some uid, e⟩ ::ₘ R) (hm : ∀ m, p.machine = some m → m.uid ≠ uid) :
    Kept strict t { p with waits := R } := by
  have hmem : ∀ x ∈ R, x ∈ p.waits := fun x hx => hk ▸ Multiset.mem_cons_of_mem hx
  cases hm' : p.machine with
  | none => exact hm' ▸ hp.drop hk hm'
  | some m =>
    have hext : ¬ e.IsInternal := fun hi =>
      hm m hm' (hp.fresh ⟨some uid, e⟩ (hk ▸ Multiset.mem_cons_self _ _) hi uid rfl m hm')
    have hd : R.countP (fun w => w.event.isDispatch = true) = p.dispatches := by
      rw [dispatches_cons hk, if_neg fun hd => hext (TaskEvent.isInternal_of_isDispatch hd)]
      rfl
    have hl : R.countP (fun w => w.event.isLoss = true) = p.losses := by
      rw [losses_cons hk, if_neg fun hl => hext (TaskEvent.isInternal_of_isLoss hl)]
      rfl
    rw [← hm']
    exact hp.rewait (Nat.le_of_eq hd) (Nat.le_of_eq hl) (fun _ => ⟨Nat.le_of_eq hd, Nat.le_of_eq hl,
      fun _ => ⟨hd, hl⟩, fun x hx _ => ⟨x, hmem x hx, rfl⟩⟩) fun x hx => hp.fresh x (hmem x hx)

/-- An event that was taken up moves on, and the task is where it was. -/
theorem Kept.advance (hp : p.Kept strict t) {uid : Nat} {e : TaskEvent} {source : TaskState} {phase phase' : Phase}
    (hb : p.busy = some ⟨uid, e, source, phase⟩)
    (hbooked : Booked { p with busy := some ⟨uid, e, source, phase'⟩ })
    (hw : Works strict t { p with busy := some ⟨uid, e, source, phase'⟩ } ⟨uid, e, source, phase'⟩) :
    Kept strict t { p with busy := some ⟨uid, e, source, phase'⟩ } := by
  have habout := hp.about _ hb
  refine ⟨hbooked, hp.live, hp.payload, ?_, hp.fresh, hp.queue, hp.lost, hp.once, hp.apart,
    (fits_busy (by rfl)).mpr hw⟩
  rintro b ⟨⟩
  exact habout

theorem Kept.sent (hp : p.Kept strict t) {uid : Nat} {e : TaskEvent} {source : TaskState} {phase : Phase}
    {task : Task} {w : WorkerID} (hb : p.busy = some ⟨uid, e, source, phase⟩) (hpay : p.payload = some task)
    (hq : p.queued = 0) (hl : p.losses = 0) (hnobody : outstanding t p.history = none)
    (hbooked : Booked { p with
      busy := some ⟨uid, e, source, .placed⟩
      holder := some w
      history := .sent (.worker w) (.task task) (some w) :: p.history }) :
    Kept strict t { p with
      busy := some ⟨uid, e, source, .placed⟩
      holder := some w
      history := .sent (.worker w) (.task task) (some w) :: p.history } := by
  have habout := hp.about _ hb
  have htask := hp.payload _ hpay
  refine ⟨hbooked, hp.live, hp.payload, ?_, hp.fresh, fun hpos => absurd hq (Nat.ne_of_gt hpos),
    fun hpos => absurd hl (Nat.ne_of_gt hpos), hp.once, hp.apart.cons fun _ _ _ heq => ?_,
    ⟨fun _ => .inl (Option.some_ne_none w), fun v hv => ?_⟩⟩
  · rintro b ⟨⟩
    exact habout
  · cases heq
    exact ⟨hnobody, rfl⟩
  · rwa [outstanding, if_pos htask] at hv

theorem Kept.dispatch (hp : p.Kept strict t) {uid : Nat} {w : WorkerID} {task : Task}
    (hb : p.busy = some ⟨uid, .hasCapacity t w, .inactive, .start⟩)
    (hj : p.JustApplied (.hasCapacity t w) .inactive) (hpay : p.payload = some task)
    (hbooked : Booked { p with
      busy := some ⟨uid, .hasCapacity t w, .inactive, .placed⟩
      history := .sent (.worker w) (.task task) p.holder :: p.history }) :
    Kept strict t { p with
      busy := some ⟨uid, .hasCapacity t w, .inactive, .placed⟩
      history := .sent (.worker w) (.task task) p.holder :: p.history } := by
  obtain ⟨-, hnobody, hheld⟩ := (fits_busy hb).mp hp.fits
  have hholder : p.holder = some w := hheld hj
  have hfree : p.holder ≠ none := by
    rw [hholder]
    exact Option.some_ne_none w
  have hq : p.queued = 0 := Nat.eq_zero_of_not_pos fun hpos => hfree (hp.queue hpos)
  have hl : p.losses = 0 := Nat.eq_zero_of_not_pos fun hpos => hfree (hp.lost hpos).1
  rw [hholder] at hbooked ⊢
  exact hp.sent hb hpay hq hl hnobody hbooked

theorem Kept.unqueue (hp : p.Kept strict t) {uid : Nat} {c : ClientID} {m : TaskCancel}
    (hb : p.busy = some ⟨uid, .taskCancelRequested t c m, .inactive, .start⟩) (hq : 0 < p.queued)
    (hbooked : Booked { p with
      busy := some ⟨uid, .taskCancelRequested t c m, .inactive, .vacant⟩
      queued := p.queued - 1 }) :
    Kept strict t { p with
      busy := some ⟨uid, .taskCancelRequested t c m, .inactive, .vacant⟩
      queued := p.queued - 1 } := by
  have habout := hp.about _ hb
  refine ⟨hbooked, hp.live, hp.payload, ?_, hp.fresh, fun _ => hp.queue hq, fun hpos => ?_, hp.once, hp.apart,
    ⟨hp.queue hq, fun he => he.elim⟩⟩
  · rintro b ⟨⟩
    exact habout
  · obtain ⟨hnone, hz⟩ := hp.lost hpos
    exact absurd hz (Nat.ne_of_gt hq)

theorem Kept.release (hp : p.Kept strict t) {uid : Nat} {e : TaskEvent} {source : TaskState}
    (hb : p.busy = some ⟨uid, e, source, .start⟩) (hj : p.JustApplied e source) (ho : e.isOwned p.holder = true)
    (hC : ∀ o ∈ p.history, o.Undisturbed)
    (hbooked : Booked { p with busy := some ⟨uid, e, source, .vacant⟩, holder := none }) :
    Kept strict t { p with busy := some ⟨uid, e, source, .vacant⟩, holder := none } := by
  have habout := hp.about _ hb
  refine ⟨hbooked, hp.live, hp.payload, ?_, hp.fresh, fun _ => rfl, fun hpos => ⟨rfl, (hp.lost hpos).2⟩, hp.once,
    hp.apart, ⟨rfl, fun hplaces => hp.released hb hj ho hC hplaces⟩⟩
  rintro b ⟨⟩
  exact habout

theorem Kept.tell (hp : p.Kept strict t) {uid : Nat} {e : TaskEvent} {source : TaskState}
    (hb : p.busy = some ⟨uid, e, source, .start⟩) (he : e.Tells source)
    (hbooked : Booked { p with busy := some ⟨uid, e, source, .told⟩ }) :
    Kept strict t { p with busy := some ⟨uid, e, source, .told⟩ } := by
  have hf := (fits_busy hb).mp hp.fits
  refine hp.advance hb hbooked ?_
  cases e with
  | taskCancelRequested =>
    obtain rfl : source = .running := he
    exact Holding.frame hf (fun _ => Nat.le_refl _) _ _ fun _ hw => hw
  | balanceCancelRequested =>
    obtain rfl : source = .running := he
    exact Holding.frame hf (fun _ => Nat.le_refl _) _ _ fun _ hw => hw
  | _ => exact he.elim

theorem Kept.place (hp : p.Kept strict t) {uid : Nat} {e : TaskEvent} {source : TaskState} {phase : Phase}
    {task : Task} {w : WorkerID} (hb : p.busy = some ⟨uid, e, source, phase⟩) (he : e.Places source phase)
    (hpay : p.payload = some task)
    (hbooked : Booked { p with
      busy := some ⟨uid, e, source, .placed⟩
      holder := some w
      history := .sent (.worker w) (.task task) (some w) :: p.history }) :
    Kept strict t { p with
      busy := some ⟨uid, e, source, .placed⟩
      holder := some w
      history := .sent (.worker w) (.task task) (some w) :: p.history } := by
  obtain ⟨-, hl, hnobody⟩ := hp.placing hb he
  have hq := hp.booked.off_queue hb he.not_parks fun _ => by
    rcases he.source with rfl | rfl <;> exact TaskState.noConfusion
  exact hp.sent hb hpay hq hl hnobody hbooked

theorem Kept.placeFail (hp : p.Kept strict t) {uid : Nat} {e : TaskEvent} {source : TaskState} {phase : Phase}
    {h : Option WorkerID} (hb : p.busy = some ⟨uid, e, source, phase⟩) (he : e.Places source phase)
    (hbooked : Booked { p with busy := some ⟨uid, e, source, .spoiled⟩, holder := h }) :
    Kept strict t { p with busy := some ⟨uid, e, source, .spoiled⟩, holder := h } := by
  obtain ⟨-, hl, -⟩ := hp.placing hb he
  have habout := hp.about _ hb
  have hq := hp.booked.off_queue hb he.not_parks fun _ => by
    rcases he.source with rfl | rfl <;> exact TaskState.noConfusion
  refine ⟨hbooked, hp.live, hp.payload, ?_, hp.fresh, fun hpos => absurd hq (Nat.ne_of_gt hpos),
    fun hpos => absurd hl (Nat.ne_of_gt hpos), hp.once, hp.apart, trivial⟩
  rintro b ⟨⟩
  exact habout

theorem Kept.suspend (hp : p.Kept strict t) {uid : Nat} {e : TaskEvent} {source : TaskState} {phase : Phase}
    (hb : p.busy = some ⟨uid, e, source, phase⟩) (he : e.Places source phase)
    (hbooked : Booked { p with busy := some ⟨uid, e, source, .queued⟩, queued := p.queued + 1 }) :
    Kept strict t { p with busy := some ⟨uid, e, source, .queued⟩, queued := p.queued + 1 } := by
  obtain ⟨hnone, hl, hnobody⟩ := hp.placing hb he
  have habout := hp.about _ hb
  have hactive : source ≠ .inactive := by
    rcases he.source with rfl | rfl <;> exact TaskState.noConfusion
  have hq := hp.booked.off_queue hb he.not_parks fun _ => hactive
  have hd : p.dispatches = 0 := by
    refine hp.booked.inactive _ (hp.booked.busy _ hb).1 hactive fun b hb' => ?_
    rw [hb] at hb'
    obtain rfl := Option.some.inj hb'
    exact he.not_parks
  refine ⟨hbooked, hp.live, hp.payload, ?_, hp.fresh, fun _ => hnone, fun hpos => absurd hl (Nat.ne_of_gt hpos),
    hp.once, hp.apart, ⟨.inl ⟨?_, hl⟩, fun x hx hdis => ?_, hnobody⟩⟩
  · rintro b ⟨⟩
    exact habout
  · change p.queued + 1 + p.dispatches = 1
    omega
  · exact absurd hdis (Multiset.countP_eq_zero.mp hd x hx)

/-- Whoever answers the client has freed the worker before. -/
theorem Kept.finish (hp : p.Kept strict t) {uid : Nat} {e : TaskEvent} {source : TaskState} {phase : Phase}
    (due : Option ClientID) (hb : p.busy = some ⟨uid, e, source, phase⟩) (he : e.Replies source phase)
    (hn : phase = .start → source = .running → p.holder = none)
    (hbooked : Booked { p with busy := some ⟨uid, e, source, .ended due⟩ }) :
    Kept strict t { p with busy := some ⟨uid, e, source, .ended due⟩ } := by
  have hf := (fits_busy hb).mp hp.fits
  refine hp.advance hb hbooked ?_
  change p.holder = none
  rcases he.phase with rfl | ⟨rfl, rfl | rfl⟩
  · exact hf.1
  · exact hn rfl rfl
  · cases e with
    | workerDisconnected => exact hf.2.1
    | _ => simp [TaskEvent.Replies] at he

theorem Kept.next (hp : p.Kept strict t) {uid : Nat} {e : TaskEvent} {source : TaskState} {phase phase' : Phase}
    (hb : p.busy = some ⟨uid, e, source, phase⟩) (h : phase.Next phase')
    (hbooked : Booked { p with busy := some ⟨uid, e, source, phase'⟩ }) :
    Kept strict t { p with busy := some ⟨uid, e, source, phase'⟩ } := by
  have hf := (fits_busy hb).mp hp.fits
  refine hp.advance hb hbooked ?_
  cases h with
  | answer => exact hf
  | spoil => trivial
  | popOwner => exact hf.elim
  | answerFault => exact hf.elim

/-- An action ends, and the task is where the state of its machine says it is. -/
theorem Kept.leave (hp : p.Kept strict t) {uid : Nat} {e : TaskEvent} {source y : TaskState} {phase : Phase}
    (hb : p.busy = some ⟨uid, e, source, phase⟩) (hy : y.isTerminal = false) (hs : p.Stands strict t y)
    (hbooked : Booked { p with busy := none, machine := some ⟨uid, y⟩ }) :
    Kept strict t { p with busy := none, machine := some ⟨uid, y⟩ } := by
  refine ⟨hbooked, ?_, hp.payload, ?_, fun x hx hi u hu m hm => ?_, hp.queue, hp.lost, hp.once, hp.apart, ?_⟩
  · rintro m ⟨⟩
    exact hy
  · rintro b ⟨⟩
  · obtain rfl := Option.some.inj hm
    exact hp.fresh x hx hi u hu ⟨uid, source⟩ (hp.booked.busy _ hb).1
  · exact (fits_idle (by rfl) (by rfl)).mpr (hs.frame .rfl none (some ⟨uid, y⟩) fun _ hw => hw)

theorem Kept.finished (hp : p.Kept strict t) {uid : Nat} {e : TaskEvent} {source y : TaskState} {phase : Phase}
    (hb : p.busy = some ⟨uid, e, source, phase⟩) (h : e.Lands source phase y) (hy : y.isTerminal = true)
    (hbooked : Booked { p with
      busy := none
      machine := none
      payload := none
      history := .removed t uid y :: p.history }) :
    Kept strict t { p with
      busy := none
      machine := none
      payload := none
      history := .removed t uid y :: p.history } := by
  obtain rfl := h.terminal hy
  have hnone : p.holder = none := (fits_busy hb).mp hp.fits
  refine ⟨hbooked, ?_, ?_, ?_, fun x _ _ u _ m hm => ?_, hp.queue, hp.lost, hp.once,
    hp.apart.cons fun _ _ _ heq => ?_, (fits_gone (by rfl) (by rfl)).mpr ⟨hnone, ?_⟩⟩
  · rintro m ⟨⟩
  · rintro task ⟨⟩
  · rintro b ⟨⟩
  · cases hm
  · cases heq
  · exact if_pos rfl

end Place

theorem PlaceStep.kept (h : PlaceStep True t p p') (hC : ∀ o ∈ p'.history, o.Undisturbed)
    (hdropped : strict → ∀ o ∈ p'.history, o.isTimeout = false) (hp : p.Kept strict t) : p'.Kept strict t := by
  have hbooked := h.booked (fun o ho => (hC o ho).registersAnew) hp.booked
  have hnew : ∀ {uid pending}, Obs.registered t uid pending ∈ p'.history →
      (∀ x ∈ p.waits, x.event.IsInternal → x.event ∈ pending) → ∀ x ∈ p.waits, ¬ x.event.IsInternal := by
    intro uid pending hmem hpend x hx hi
    have hin := hpend x hx hi
    rw [show pending = [] from hC _ hmem] at hin
    exact absurd hin List.not_mem_nil
  cases h with
  | hold task hm ht hu hpend hh =>
    obtain rfl := hh trivial
    exact hp.hold hm ht (hnew List.mem_cons_self hpend) hbooked
  | assign task w hm ht hu hpend hh =>
    obtain rfl := hh trivial
    exact hp.assign hm ht (hnew List.mem_cons_self hpend) hbooked
  | refuse => exact (hC _ List.mem_cons_self).elim
  | acquire w hq hh =>
    obtain rfl := hh trivial
    exact hp.acquire hq hbooked
  | lose hk h => exact absurd trivial h
  | report he hi => exact hp.report hi
  | drop hk hm => exact hp.drop hk hm
  | enqueue hk hm => exact hp.enqueue hk hm
  | stale hk hm => exact hp.stale hk hm
  | expire hk he =>
    refine hp.expire hk fun hs => ?_
    cases hdropped hs _ List.mem_cons_self
  | take hk he hm hb => exact hp.take hk he hm hb hbooked
  | @decline uid e source hb hj h =>
    have hm : p.machine = some ⟨uid, source⟩ := (hp.booked.busy _ hb).1
    have hleft := hp.leave (y := source) hb (hp.live _ hm) (hp.decline hb h) (hm ▸ hbooked)
    rwa [← hm] at hleft
  | dispatch hb hj hpay => exact hp.dispatch hb hj hpay hbooked
  | unqueue hb hj hq => exact hp.unqueue hb hq hbooked
  | release hb hj he hq ho hh =>
    obtain rfl := hh trivial
    exact hp.release hb hj ho hC hbooked
  | tell hb he hh => exact hp.tell hb he hbooked
  | place hb he hj hpay hh =>
    obtain rfl := hh trivial
    exact hp.place hb he hpay hbooked
  | placeFail hb he hj hh => exact hp.placeFail hb he hbooked
  | suspend hb he hj hh =>
    obtain rfl := hh trivial
    exact hp.suspend hb he hbooked
  | finish due hb he hn hj => exact hp.finish due hb he hn hbooked
  | next hb h => exact hp.next hb h hbooked
  | fault hb => exact (hC _ List.mem_cons_self).elim
  | free hb hh => exact ((Place.fits_busy hb).mp hp.fits).elim
  | settle hb h hy => exact hp.leave hb hy (h.stands hy ((Place.fits_busy hb).mp hp.fits)) hbooked
  | finished hb h hy => exact hp.finished hb h hy hbooked
  | tearDown hb h =>
    rcases h with rfl | ⟨rfl, hno⟩
    · exact ((Place.fits_busy hb).mp hp.fits).elim
    · exact absurd trivial hno
  | lost w us b n hu hh =>
    obtain rfl : us = [] := hC _ List.mem_cons_self
    rcases hh trivial with ⟨rfl, hw, rfl⟩ | ⟨rfl, hw, rfl⟩
    · refine hp.lose hw (fun x hx heq => ?_) hbooked
      exact absurd (hu hw x hx heq) List.not_mem_nil
    · rw [Multiset.replicate_zero, zero_add]
      exact hp.spare w b
  | drift hh =>
    obtain rfl := hh trivial
    exact hp

theorem Place.Kept.unheld (h : p.Kept strict t) : p.Unheld := by
  refine ⟨fun hm => (h.gone hm).2.1, h.queue, fun b hb he _ => (h.placing hb he).1⟩

end Steps

end Scaler
