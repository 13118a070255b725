import Scaler.Client.Future
import Scaler.Collections.Outcome

/-! A `ScalerFuture` calls its callbacks and notifies its waiters once, when its outcome is
settled, unless it is forced to cancelled after that or has no result object. -/

namespace Scaler

open Collections

namespace ScalerFuture

variable {Obj : Type} {f : ScalerFuture Obj}

/-- The outcome is known: it was received, or there is no object to receive. -/
def settled (f : ScalerFuture Obj) : Bool :=
  f.resultReceived || (f.done && f.resultObjectId.isNone)

/-- The result object is being fetched. -/
def Fetching (f : ScalerFuture Obj) : Prop := ∃ isException, f.resultObjectFuture = some ⟨isException, false⟩

/-- Who was told is who registered, if the future is settled, and nobody otherwise. -/
structure Told (f : ScalerFuture Obj) : Prop where
  received : f.resultReceived = true → f.done = true
  cancelled : f.cancelled = true → f.resultReceived = true
  ready : f.resultObjectId.isSome = true → f.done = true ∧ f.taskResultType.isSome = true
  fetched : f.fetched.length = if f.resultObjectFuture.isSome then 1 else 0
  invoked : f.invoked = if f.settled then f.doneCallbacks else []
  notified : f.notified.map Prod.fst = if f.settled then f.waiters else []
  quiet : f.settled = true → f.resultReceived = false → f.hasResultListeners = false

structure Core (f : ScalerFuture Obj) : Prop extends Told f where
  fetch : ∀ isException, f.resultObjectFuture = some ⟨isException, true⟩ → f.resultReceived = true

/-- A future that is done and has somebody to tell is settled or on the way to it. -/
def UnderWay (f : ScalerFuture Obj) : Prop :=
  f.done = true → f.settled = false → f.isDelayed = false ∨ f.hasResultListeners = true → f.Fetching

theorem startResultObjectFetch_cases (f : ScalerFuture Obj) :
    f.startResultObjectFetch = f ∧ (f.resultObjectId = none ∨ f.taskResultType = none ∨
      f.cancelled = true ∨ f.resultReceived = true ∨ f.resultObjectFuture.isSome = true) ∨
    ∃ isException request, f.resultObjectFuture = none ∧
      f.startResultObjectFetch = { f with
        resultObjectFuture := some ⟨isException, false⟩, fetched := f.fetched ++ [request] } := by
  unfold startResultObjectFetch
  cases ho : f.resultObjectId with
  | none => exact .inl ⟨rfl, .inl rfl⟩
  | some objectId =>
    cases ht : f.taskResultType with
    | none => exact .inl ⟨rfl, .inr (.inl rfl)⟩
    | some taskResultType =>
      dsimp only
      split
      · next h =>
        simp only [Bool.or_eq_true] at h
        refine .inl ⟨rfl, .inr (.inr ?_)⟩
        tauto
      · next h =>
        simp only [Bool.or_eq_true, not_or] at h
        exact .inr ⟨_, _, by simpa using h.2, rfl⟩

theorem Core.startResultObjectFetch (h : f.Core) : f.startResultObjectFetch.Core := by
  obtain ⟨he, -⟩ | ⟨b, r, hnone, he⟩ := startResultObjectFetch_cases f
  · rw [he]
    exact h
  rw [he]
  refine ⟨⟨h.received, h.cancelled, h.ready, ?_, h.invoked, h.notified, h.quiet⟩, ?_⟩
  · have hf := h.fetched
    rw [hnone] at hf
    simp only [Option.isSome_none, Bool.false_eq_true, if_false] at hf
    simp [List.length_eq_zero_iff.mp hf]
  · rintro b' hb
    cases hb

@[simp] theorem done_startResultObjectFetch : f.startResultObjectFetch.done = f.done := by
  obtain ⟨he, -⟩ | ⟨b, r, -, he⟩ := startResultObjectFetch_cases f
  · rw [he]
  · rw [he]
    rfl

@[simp] theorem settled_startResultObjectFetch : f.startResultObjectFetch.settled = f.settled := by
  obtain ⟨he, -⟩ | ⟨b, r, -, he⟩ := startResultObjectFetch_cases f
  · rw [he]
  · rw [he]
    rfl

theorem Core.fetching (h : f.Core) (hd : f.done = true) (hs : f.settled = false) :
    f.startResultObjectFetch.Fetching := by
  simp only [settled, hd, Bool.true_and, Bool.or_eq_false_iff] at hs
  obtain ⟨hr, ho⟩ := hs
  have hid : f.resultObjectId.isSome = true := by simpa using ho
  obtain ⟨he, hcase⟩ | ⟨b, r, hnone, he⟩ := startResultObjectFetch_cases f
  · rw [he]
    rcases hcase with hc | hc | hc | hc | hc
    · simp [hc] at ho
    · have := (h.ready hid).2
      simp [hc] at this
    · rw [h.cancelled hc] at hr
      cases hr
    · rw [hc] at hr
      cases hr
    · obtain ⟨⟨b, done⟩, hf⟩ := Option.isSome_iff_exists.mp hc
      cases done with
      | false => exact ⟨b, hf⟩
      | true =>
        rw [h.fetch b hf] at hr
        cases hr
  · rw [he]
    exact ⟨b, rfl⟩

theorem hasResultListeners_eq_false :
    f.hasResultListeners = false ↔ f.doneCallbacks = [] ∧ f.waiters = [] := by
  simp [hasResultListeners]

/-- Telling everybody settles a future that was not settled, or has nobody to tell. -/
theorem Told.settle {f' : ScalerFuture Obj} (h : f.Told)
    (hq : f.settled = true → f.hasResultListeners = false)
    (hreceived : f'.resultReceived = true) (hdone : f'.done = true)
    (hready : f'.resultObjectId = f.resultObjectId ∧ f'.taskResultType = f.taskResultType)
    (hfetch : f'.resultObjectFuture = f.resultObjectFuture ∧ f'.fetched = f.fetched)
    (hcallbacks : f'.doneCallbacks = f.doneCallbacks ∧ f'.invoked = f.invoked ++ f.doneCallbacks)
    (hwaiters : f'.waiters = f.waiters ∧
      f'.notified.map Prod.fst = f.notified.map Prod.fst ++ f.waiters) : f'.Core := by
  have hsettled : f'.settled = true := by simp [settled, hreceived]
  refine ⟨⟨fun _ => hdone, fun _ => hreceived, ?_, ?_, ?_, ?_, ?_⟩, fun _ _ => hreceived⟩
  · intro hid
    rw [hready.1] at hid
    rw [hready.2]
    exact ⟨hdone, (h.ready hid).2⟩
  · rw [hfetch.1, hfetch.2]
    exact h.fetched
  · rw [hsettled, if_pos rfl, hcallbacks.2, hcallbacks.1, h.invoked]
    cases hs : f.settled with
    | false => simp
    | true => simp [(hasResultListeners_eq_false.mp (hq hs)).1]
  · rw [hsettled, if_pos rfl, hwaiters.2, hwaiters.1, h.notified]
    cases hs : f.settled with
    | false => simp
    | true => simp [(hasResultListeners_eq_false.mp (hq hs)).2]
  · intro _ hr
    rw [hreceived] at hr
    cases hr

theorem Told.markCanceled (h : f.Told) (hq : f.settled = true → f.hasResultListeners = false) :
    f.markCanceled.Core :=
  h.settle hq rfl rfl ⟨rfl, rfl⟩ ⟨rfl, rfl⟩ ⟨rfl, rfl⟩
    ⟨rfl, by simp [ScalerFuture.markCanceled, notifyWaiters, invokeCallbacks, Function.comp_def]⟩

/-- A result or exception that is accepted settles the future. -/
theorem Told.setResultOrException (h : f.Told) {result exception profilingInfo : Option Obj}
    {f' : ScalerFuture Obj}
    (he : f.setResultOrException result exception profilingInfo = .ok f') :
    f'.Core ∧ f'.settled = true := by
  unfold ScalerFuture.setResultOrException at he
  split at he
  · cases he
  next hguard =>
  have hreceived : f.resultReceived = false := by
    simp only [Bool.or_eq_true, not_or, Bool.not_eq_true] at hguard
    exact hguard.2
  split at he
  · cases he
  · cases he
    cases exception with
    | some e =>
      exact ⟨h.settle (fun hs => h.quiet hs hreceived) rfl rfl ⟨rfl, rfl⟩ ⟨rfl, rfl⟩ ⟨rfl, rfl⟩
        ⟨rfl, by simp [notifyWaiters, invokeCallbacks, Function.comp_def]⟩, rfl⟩
    | none =>
      exact ⟨h.settle (fun hs => h.quiet hs hreceived) rfl rfl ⟨rfl, rfl⟩ ⟨rfl, rfl⟩ ⟨rfl, rfl⟩
        ⟨rfl, by simp [notifyWaiters, invokeCallbacks, Function.comp_def]⟩, rfl⟩

theorem UnderWay.of_settled (h : f.settled = true) : f.UnderWay := by
  intro _ hs
  rw [h] at hs
  cases hs

/-- What the future keeps over its operations. -/
structure Once (f : ScalerFuture Obj) : Prop where
  core : f.Core
  underWay : f.UnderWay

theorem Core.once_startResultObjectFetch (h : f.Core) : f.startResultObjectFetch.Once where
  core := h.startResultObjectFetch
  underWay := by
    intro hd hs _
    rw [done_startResultObjectFetch] at hd
    rw [settled_startResultObjectFetch] at hs
    exact h.fetching hd hs

theorem once_create (taskId : TaskID) (isDelayed : Bool) (groupTaskId : Option TaskID) :
    (create taskId isDelayed groupTaskId : ScalerFuture Obj).Once where
  core := ⟨⟨by simp [create], by simp [create, ScalerFuture.cancelled], by simp [create],
    rfl, rfl, rfl, by simp [create, settled, done]⟩, by simp [create]⟩
  underWay := by simp [UnderWay, create, done]

/-- The operations after which the future still tells everybody once: a result without an
object comes only to a future that nobody listens to, a settled future is forced to
cancelled only if nobody listens to it, and no waiter is added to a settled future. -/
def Orderly (f : ScalerFuture Obj) : FutureOp Obj → Prop
  | .setResultReady none _ _ => f.done = false → f.hasResultListeners = false
  | .forceSetCanceled => f.settled = true → f.cancelled = false → f.hasResultListeners = false
  | .addWaiter _ => f.settled = false
  | _ => True

theorem Once.setResultReady (h : f.Once) {objectId : Option ObjectID} {type : TaskResultType}
    {profile : Option Obj} (hop : f.Orderly (.setResultReady objectId type profile))
    {f' : ScalerFuture Obj} (he : f.setResultReady objectId type profile = .ok f') : f'.Once := by
  unfold ScalerFuture.setResultReady at he
  split at he
  · cases he
  next hd =>
  have hdone : f.done = false := by simpa using hd
  have hreceived : f.resultReceived = false := by
    by_contra hr
    rw [h.core.received (by simpa using hr)] at hdone
    cases hdone
  have hunsettled : f.settled = false := by simp [settled, hreceived, hdone]
  have hinvoked : f.invoked = [] := by rw [h.core.invoked, hunsettled]; rfl
  have hnotified : f.notified.map Prod.fst = [] := by rw [h.core.notified, hunsettled]; rfl
  cases he
  -- the future with its object id and type, before the fetch is started
  generalize hg : ({ f with
    state := FutureState.finished
    resultObjectId := objectId
    taskResultType := some type
    profilingInfo := profile <|> f.profilingInfo } : ScalerFuture Obj) = g
  have hlisten : g.hasResultListeners = f.hasResultListeners := by rw [← hg]; rfl
  have hsettled : g.settled = objectId.isNone := by rw [← hg]; simp [settled, done, hreceived]
  have hquiet : g.settled = true → g.hasResultListeners = false := by
    intro hs
    rw [hsettled] at hs
    cases objectId with
    | none =>
      rw [hlisten]
      exact hop hdone
    | some o => cases hs
  have hcore : g.Core := by
    refine ⟨⟨fun _ => by rw [← hg]; rfl, fun hc => ?_, fun _ => by rw [← hg]; exact ⟨rfl, rfl⟩, ?_, ?_, ?_,
      fun hs _ => hquiet hs⟩, ?_⟩
    · rw [← hg] at hc
      cases hc
    · rw [← hg]
      exact h.core.fetched
    · have : g.invoked = [] := by rw [← hg]; exact hinvoked
      rw [this]
      split
      · next hs => rw [(hasResultListeners_eq_false.mp (hquiet hs)).1]
      · rfl
    · have : g.notified.map Prod.fst = [] := by rw [← hg]; exact hnotified
      rw [this]
      split
      · next hs => rw [(hasResultListeners_eq_false.mp (hquiet hs)).2]
      · rfl
    · intro b hb
      rw [← hg] at hb ⊢
      exact h.core.fetch b hb
  split
  · exact hcore.once_startResultObjectFetch
  · next hnobody =>
    refine ⟨hcore, fun _ _ hl => ?_⟩
    simp only [Bool.or_eq_true, Bool.not_eq_true', not_or] at hnobody
    rcases hl with hl | hl
    · exact absurd hl hnobody.1
    · exact absurd hl hnobody.2

theorem Once.setResultOrException (h : f.Once) {result exception profilingInfo : Option Obj}
    {f' : ScalerFuture Obj}
    (he : f.setResultOrException result exception profilingInfo = .ok f') : f'.Once := by
  obtain ⟨hcore, hs⟩ := h.core.toTold.setResultOrException he
  exact ⟨hcore, .of_settled hs⟩

theorem Once.setCanceled (h : f.Once) : f.setCanceled.Once := by
  unfold ScalerFuture.setCanceled
  split
  · exact h
  · next hd =>
    refine ⟨h.core.toTold.markCanceled fun hs => ?_, .of_settled rfl⟩
    refine h.core.quiet hs ?_
    by_contra hr
    exact hd (h.core.received (by simpa using hr))

theorem Once.forceSetCanceled (h : f.Once) (hop : f.Orderly .forceSetCanceled) :
    f.forceSetCanceled.Once := by
  unfold ScalerFuture.forceSetCanceled
  split
  · exact h
  · next hc =>
    exact ⟨h.core.toTold.markCanceled fun hs => hop hs (by simpa using hc), .of_settled rfl⟩

theorem Once.cancel (h : f.Once) : f.cancel.Once := by
  unfold ScalerFuture.cancel
  split
  · exact h
  · exact ⟨⟨⟨h.core.received, h.core.cancelled, h.core.ready, h.core.fetched, h.core.invoked,
      h.core.notified, h.core.quiet⟩, h.core.fetch⟩, h.underWay⟩

theorem Once.addDoneCallback (h : f.Once) (c : Callback) : (f.addDoneCallback c).Once := by
  unfold ScalerFuture.addDoneCallback
  split
  · have hs := h.core.once_startResultObjectFetch
    exact ⟨⟨⟨hs.core.received, hs.core.cancelled, hs.core.ready, hs.core.fetched, hs.core.invoked,
      hs.core.notified, hs.core.quiet⟩, hs.core.fetch⟩, hs.underWay⟩
  · next hd =>
    have hdone : f.done = false := by simpa using hd
    have hreceived : f.resultReceived = false := by
      by_contra hr
      exact hd (h.core.received (by simpa using hr))
    have hs : f.settled = false := by simp [settled, hreceived, hdone]
    have hinvoked := h.core.invoked
    have hnotified := h.core.notified
    rw [hs] at hinvoked hnotified
    have hs' : ({ f with doneCallbacks := f.doneCallbacks ++ [c] } : ScalerFuture Obj).settled = false := hs
    refine ⟨⟨⟨h.core.received, h.core.cancelled, h.core.ready, h.core.fetched, ?_, ?_, ?_⟩,
      h.core.fetch⟩, fun hd' => absurd hd' hd⟩
    · rw [hs']
      exact hinvoked
    · rw [hs']
      exact hnotified
    · intro hs''
      rw [hs'] at hs''
      cases hs''

theorem Once.addWaiter (h : f.Once) {w : Waiter} (hop : f.Orderly (.addWaiter w)) :
    (f.addWaiter w).Once := by
  have hs : f.settled = false := hop
  have hinvoked := h.core.invoked
  have hnotified := h.core.notified
  rw [hs] at hinvoked hnotified
  have hs' : ({ f with waiters := f.waiters ++ [w] } : ScalerFuture Obj).settled = false := hs
  have hcore : ({ f with waiters := f.waiters ++ [w] } : ScalerFuture Obj).Core := by
    refine ⟨⟨h.core.received, h.core.cancelled, h.core.ready, h.core.fetched, ?_, ?_, ?_⟩, h.core.fetch⟩
    · rw [hs']
      exact hinvoked
    · rw [hs']
      exact hnotified
    · intro hs''
      rw [hs'] at hs''
      cases hs''
  unfold ScalerFuture.addWaiter
  dsimp only
  split
  · exact hcore.once_startResultObjectFetch
  · next hdelayed => exact ⟨hcore, fun hd _ _ => h.underWay hd hs (.inl (by simpa using hdelayed))⟩

theorem Once.waitResultObject (h : f.Once) : f.waitResultObject.Once := by
  unfold ScalerFuture.waitResultObject
  split
  · exact h.core.once_startResultObjectFetch
  · exact h

theorem acceptFetched_eq (f : ScalerFuture Obj) (b : Bool) (object : Except Obj Obj) :
    ∃ result exception, f.acceptFetched b object = f.setResultOrException result exception none := by
  cases object with
  | error e => exact ⟨none, some e, rfl⟩
  | ok o =>
    cases b with
    | true => exact ⟨none, some o, rfl⟩
    | false => exact ⟨some o, none, rfl⟩

/-- The fetch ended: there was none, its object is accepted, or it comes too late. -/
theorem onResultObjectFetched_cases (f : ScalerFuture Obj) (object : Except Obj Obj) :
    f.onResultObjectFetched object = f ∨
    ∃ b g result exception, f.resultObjectFuture = some ⟨b, false⟩ ∧
      g = { f with resultObjectFuture := some ⟨b, true⟩ } ∧
      (g.setResultOrException result exception none = .ok (f.onResultObjectFetched object) ∨
        ∃ e, g.setResultOrException result exception none = .error e ∧
          f.onResultObjectFetched object = g) := by
  unfold ScalerFuture.onResultObjectFetched
  split
  next b hb =>
    obtain ⟨result, exception, hr⟩ :=
      acceptFetched_eq ({ f with resultObjectFuture := some ⟨b, true⟩ } : ScalerFuture Obj) b object
    refine .inr ⟨b, _, result, exception, hb, rfl, ?_⟩
    dsimp only
    rw [hr]
    cases ({ f with resultObjectFuture := some ⟨b, true⟩ } :
        ScalerFuture Obj).setResultOrException result exception none with
    | ok f' => exact .inl rfl
    | error e => exact .inr ⟨e, rfl, rfl⟩
  next => exact .inl rfl

/-- The result of the fetch settles the future, unless it is settled already. -/
theorem Once.onResultObjectFetched (h : f.Once) (object : Except Obj Obj) :
    (f.onResultObjectFetched object).Once := by
  obtain he | ⟨b, g, result, exception, hb, rfl, hcase⟩ := onResultObjectFetched_cases f object
  · rw [he]
    exact h
  have htold : ({ f with resultObjectFuture := some ⟨b, true⟩ } : ScalerFuture Obj).Told := by
    refine ⟨h.core.received, h.core.cancelled, h.core.ready, ?_, h.core.invoked, h.core.notified,
      h.core.quiet⟩
    have hf := h.core.fetched
    rw [hb] at hf
    exact hf
  obtain he | ⟨e, he, hsame⟩ := hcase
  · obtain ⟨hcore, hs⟩ := htold.setResultOrException he
    exact ⟨hcore, .of_settled hs⟩
  · have hreceived : f.resultReceived = true := by
      unfold ScalerFuture.setResultOrException at he
      split at he
      · next hg =>
        rcases Bool.or_eq_true_iff.mp hg with hc | hr
        · exact h.core.cancelled hc
        · exact hr
      · simp at he
    rw [hsame]
    exact ⟨⟨htold, fun _ _ => hreceived⟩, .of_settled (by simp [settled, hreceived])⟩

theorem Once.step (h : f.Once) {op : FutureOp Obj} (hop : f.Orderly op) : (f.step op).Once := by
  cases op with
  | setResultReady objectId type profile =>
    simp only [ScalerFuture.step]
    cases he : f.setResultReady objectId type profile with
    | ok f' => exact h.setResultReady hop he
    | error e => exact h
  | resultObjectFetched object => exact h.onResultObjectFetched object
  | setCanceled => exact h.setCanceled
  | setException exception profilingInfo =>
    simp only [ScalerFuture.step]
    cases he : f.setException exception profilingInfo with
    | ok f' => exact h.setResultOrException he
    | error e => exact h
  | setResult result profilingInfo =>
    simp only [ScalerFuture.step]
    cases he : f.setResult result profilingInfo with
    | ok f' => exact h.setResultOrException he
    | error e => exact h
  | cancel => exact h.cancel
  | addDoneCallback c => exact h.addDoneCallback c
  | addWaiter w => exact h.addWaiter hop
  | waitResultObject => exact h.waitResultObject
  | forceSetCanceled => exact h.forceSetCanceled hop

/-- The callback that an operation registers: one added to a future that is not done. -/
def newCallback (f : ScalerFuture Obj) : FutureOp Obj → List Callback
  | .addDoneCallback c => if f.done then [] else [c]
  | _ => []

def newWaiter : FutureOp Obj → List Waiter
  | .addWaiter w => [w]
  | _ => []

/-- The callbacks registered in a run before the future is done. -/
def registeredCallbacks (f : ScalerFuture Obj) : List (FutureOp Obj) → List Callback
  | [] => []
  | op :: ops => f.newCallback op ++ registeredCallbacks (f.step op) ops

def registeredWaiters (ops : List (FutureOp Obj)) : List Waiter := ops.flatMap newWaiter

/-- Who has registered with the future. -/
def listeners (f : ScalerFuture Obj) : List Callback × List Waiter := (f.doneCallbacks, f.waiters)

@[simp] theorem listeners_startResultObjectFetch :
    f.startResultObjectFetch.listeners = f.listeners := by
  obtain ⟨he, -⟩ | ⟨b, r, -, he⟩ := startResultObjectFetch_cases f
  · rw [he]
  · rw [he]
    rfl

theorem listeners_setResultOrException {result exception profilingInfo : Option Obj}
    {f' : ScalerFuture Obj}
    (he : f.setResultOrException result exception profilingInfo = .ok f') :
    f'.listeners = f.listeners := by
  unfold ScalerFuture.setResultOrException at he
  split at he
  · cases he
  split at he
  · cases he
  · cases he
    cases exception <;> rfl

theorem listeners_onResultObjectFetched (object : Except Obj Obj) :
    (f.onResultObjectFetched object).listeners = f.listeners := by
  obtain he | ⟨b, g, result, exception, -, rfl, he | ⟨e, -, he⟩⟩ := onResultObjectFetched_cases f object
  · rw [he]
  · exact (listeners_setResultOrException he).trans rfl
  · rw [he]
    rfl

theorem listeners_setResultReady {objectId : Option ObjectID} {type : TaskResultType}
    {profile : Option Obj} {f' : ScalerFuture Obj}
    (he : f.setResultReady objectId type profile = .ok f') : f'.listeners = f.listeners := by
  unfold ScalerFuture.setResultReady at he
  split at he
  · cases he
  · cases he
    split
    · exact listeners_startResultObjectFetch
    · rfl

theorem listeners_step (op : FutureOp Obj) :
    (f.step op).listeners = (f.doneCallbacks ++ f.newCallback op, f.waiters ++ newWaiter op) := by
  cases op with
  | setResultReady objectId type profile =>
    simp only [ScalerFuture.step, newCallback, newWaiter, List.append_nil]
    cases he : f.setResultReady objectId type profile with
    | ok f' => exact listeners_setResultReady he
    | error e => rfl
  | resultObjectFetched object =>
    simp only [newCallback, newWaiter, List.append_nil]
    exact listeners_onResultObjectFetched object
  | setCanceled =>
    simp only [ScalerFuture.step, ScalerFuture.setCanceled, newCallback, newWaiter, List.append_nil]
    split <;> rfl
  | setException exception profilingInfo =>
    simp only [ScalerFuture.step, newCallback, newWaiter, List.append_nil]
    cases he : f.setException exception profilingInfo with
    | ok f' => exact listeners_setResultOrException he
    | error e => rfl
  | setResult result profilingInfo =>
    simp only [ScalerFuture.step, newCallback, newWaiter, List.append_nil]
    cases he : f.setResult result profilingInfo with
    | ok f' => exact listeners_setResultOrException he
    | error e => rfl
  | cancel =>
    simp only [ScalerFuture.step, ScalerFuture.cancel, newCallback, newWaiter, List.append_nil]
    split <;> rfl
  | addDoneCallback c =>
    simp only [ScalerFuture.step, ScalerFuture.addDoneCallback, newCallback, newWaiter,
      List.append_nil]
    split
    · rw [List.append_nil]
      exact listeners_startResultObjectFetch
    · rfl
  | addWaiter w =>
    simp only [ScalerFuture.step, ScalerFuture.addWaiter, newCallback, newWaiter, List.append_nil]
    split
    · exact listeners_startResultObjectFetch
    · rfl
  | waitResultObject =>
    simp only [ScalerFuture.step, ScalerFuture.waitResultObject, newCallback, newWaiter,
      List.append_nil]
    split
    · exact listeners_startResultObjectFetch
    · rfl
  | forceSetCanceled =>
    simp only [ScalerFuture.step, ScalerFuture.forceSetCanceled, newCallback, newWaiter,
      List.append_nil]
    split <;> rfl

theorem listeners_run (f : ScalerFuture Obj) (ops : List (FutureOp Obj)) :
    (ops.foldl step f).listeners =
      (f.doneCallbacks ++ f.registeredCallbacks ops, f.waiters ++ registeredWaiters ops) := by
  induction ops generalizing f with
  | nil => simp [listeners, registeredCallbacks, registeredWaiters]
  | cons op ops ih =>
    have hstep := listeners_step (f := f) op
    simp only [listeners, Prod.mk.injEq] at hstep
    rw [List.foldl_cons, ih, hstep.1, hstep.2]
    simp [registeredCallbacks, registeredWaiters]

/-- After the run `ops` from `f` exactly the registered callbacks and waiters were told, once
and only if the outcome is settled, and the object was fetched at most once; a future that is
done and has listeners, but no outcome yet, is being fetched. -/
structure ResolvedOnce (f : ScalerFuture Obj) (ops : List (FutureOp Obj)) : Prop where
  callbacks : (ops.foldl step f).invoked =
    if (ops.foldl step f).settled then f.registeredCallbacks ops else []
  waiters : (ops.foldl step f).notified.map Prod.fst =
    if (ops.foldl step f).settled then registeredWaiters ops else []
  fetches : (ops.foldl step f).fetched.length ≤ 1
  underWay : (ops.foldl step f).done = true → (ops.foldl step f).settled = false →
    (ops.foldl step f).hasResultListeners = true → (ops.foldl step f).Fetching

/-- In every order of the operations, as long as each is orderly where it happens, a future
resolves once. -/
theorem future_resolves_once (taskId : TaskID) (isDelayed : Bool) (groupTaskId : Option TaskID)
    (ops : List (FutureOp Obj)) (h : Throughout step Orderly (create taskId isDelayed groupTaskId) ops) :
    (create taskId isDelayed groupTaskId).ResolvedOnce ops := by
  have honce : (ops.foldl step (create taskId isDelayed groupTaskId)).Once :=
    Throughout.foldl (I := Once) (fun _ _ hf hop => hf.step hop)
      (once_create taskId isDelayed groupTaskId) h
  have hlisten := listeners_run (create taskId isDelayed groupTaskId) ops
  simp only [listeners, Prod.mk.injEq] at hlisten
  have hnone : (create taskId isDelayed groupTaskId : ScalerFuture Obj).doneCallbacks = [] := rfl
  have hnobody : (create taskId isDelayed groupTaskId : ScalerFuture Obj).waiters = [] := rfl
  rw [hnone, hnobody, List.nil_append, List.nil_append] at hlisten
  refine ⟨?_, ?_, ?_, fun hd hs hl => honce.underWay hd hs (.inr hl)⟩
  · rw [← hlisten.1]
    exact honce.core.invoked
  · rw [← hlisten.2]
    exact honce.core.notified
  · rw [honce.core.fetched]
    split
    · exact Nat.le_refl _
    · exact Nat.zero_le _

/-- A callback and a waiter, a result, its fetch, then a cancellation that comes too late. -/
theorem future_resolves_once_late_cancel :
    (create ⟨1⟩ true none : ScalerFuture Nat).ResolvedOnce
      [.addDoneCallback ⟨0⟩, .addWaiter ⟨0⟩, .setResultReady (some ⟨5⟩) .success none,
        .resultObjectFetched (.ok 42), .setCanceled] :=
  future_resolves_once ⟨1⟩ true none _ ⟨trivial, rfl, trivial, trivial, trivial, trivial⟩

/-- Forcing a future to cancelled after its result arrived calls the callback and notifies
the waiter again; a result without an object never calls the callback. -/
theorem future_resolves_twice_or_never :
    ¬(create ⟨1⟩ false none : ScalerFuture Nat).ResolvedOnce
        [.addDoneCallback ⟨0⟩, .addWaiter ⟨0⟩, .setResultReady (some ⟨5⟩) .success none,
          .resultObjectFetched (.ok 42), .forceSetCanceled] ∧
      ¬(create ⟨1⟩ false (some ⟨1⟩) : ScalerFuture Nat).ResolvedOnce
        [.addDoneCallback ⟨0⟩, .setResultReady none .success none] := by
  constructor
  · intro h
    exact absurd h.callbacks (by decide)
  · intro h
    exact absurd h.callbacks (by decide)

end ScalerFuture

end Scaler
