import Scaler.Client.Agent
import Scaler.Client.FutureOnce

/-! The two id tables of the client agent: as long as a registered future is unresolved, its
task is tracked, so that the scheduler's answers reach it. -/

namespace Scaler

open Collections

namespace ScalerFuture

variable {Obj : Type} {f : ScalerFuture Obj}

/-- The task that a cancel of the future names. -/
def cancelTarget (f : ScalerFuture Obj) : TaskID := f.groupTaskId.getD f.taskId

/-- An unresolved future has received neither a result nor profiling information. -/
def Blank (f : ScalerFuture Obj) : Prop :=
  f.done = false → f.resultReceived = false ∧ f.profilingInfo = none

/-- What a client-side operation does not change: the names of a future, and that it is done. -/
structure Grows (f f' : ScalerFuture Obj) : Prop where
  taskId : f'.taskId = f.taskId
  target : f'.cancelTarget = f.cancelTarget
  done : f.done = true → f'.done = true
  blank : f.Blank → f'.Blank

theorem Grows.refl (f : ScalerFuture Obj) : Grows f f := ⟨rfl, rfl, id, id⟩

theorem Grows.trans {f g h : ScalerFuture Obj} (hfg : Grows f g) (hgh : Grows g h) : Grows f h :=
  ⟨hgh.taskId.trans hfg.taskId, hgh.target.trans hfg.target, fun hd => hgh.done (hfg.done hd),
    fun hb => hgh.blank (hfg.blank hb)⟩

theorem Grows.of_done {f' : ScalerFuture Obj} (hid : f'.taskId = f.taskId)
    (htarget : f'.cancelTarget = f.cancelTarget) (hd : f'.done = true) : Grows f f' := by
  refine ⟨hid, htarget, fun _ => hd, fun _ hd' => ?_⟩
  rw [hd] at hd'
  cases hd'

theorem grows_startResultObjectFetch (f : ScalerFuture Obj) : Grows f f.startResultObjectFetch := by
  unfold startResultObjectFetch
  split
  · split
    · exact .refl f
    · exact ⟨rfl, rfl, id, id⟩
  · exact .refl f

theorem grows_setResultOrException {result exception profilingInfo : Option Obj}
    {f' : ScalerFuture Obj}
    (he : f.setResultOrException result exception profilingInfo = .ok f') :
    Grows f f' ∧ f'.done = true := by
  unfold setResultOrException at he
  split at he
  · cases he
  split at he
  · cases he
  · cases he
    cases exception with
    | none => exact ⟨.of_done rfl rfl rfl, rfl⟩
    | some e => exact ⟨.of_done rfl rfl rfl, rfl⟩

theorem grows_forceSetCanceled (f : ScalerFuture Obj) : Grows f f.forceSetCanceled := by
  unfold forceSetCanceled
  split
  · exact .refl f
  · exact .of_done rfl rfl rfl

theorem grows_onResultObjectFetched (f : ScalerFuture Obj) (object : Except Obj Obj) :
    Grows f (f.onResultObjectFetched object) := by
  obtain he | ⟨b, g, result, exception, -, rfl, he | ⟨e, -, he⟩⟩ := onResultObjectFetched_cases f object
  · rw [he]
    exact .refl f
  · have hmark : Grows f { f with resultObjectFuture := some ⟨b, true⟩ } := ⟨rfl, rfl, id, id⟩
    exact hmark.trans (grows_setResultOrException he).1
  · rw [he]
    exact ⟨rfl, rfl, id, id⟩

theorem grows_client (f : ScalerFuture Obj) (op : ClientOp Obj) : Grows f (f.step op.toFutureOp) := by
  cases op with
  | cancel =>
    simp only [ClientOp.toFutureOp, step, cancel]
    split
    · exact .refl f
    · exact ⟨rfl, rfl, id, id⟩
  | addDoneCallback c =>
    simp only [ClientOp.toFutureOp, step, addDoneCallback]
    split
    · exact (grows_startResultObjectFetch f).trans ⟨rfl, rfl, id, id⟩
    · exact ⟨rfl, rfl, id, id⟩
  | addWaiter w =>
    have hadd : Grows f { f with waiters := f.waiters ++ [w] } := ⟨rfl, rfl, id, id⟩
    simp only [ClientOp.toFutureOp, step, addWaiter]
    split
    · exact hadd.trans (grows_startResultObjectFetch _)
    · exact hadd
  | waitResultObject =>
    simp only [ClientOp.toFutureOp, step, waitResultObject]
    split
    · exact grows_startResultObjectFetch f
    · exact .refl f
  | resultObjectFetched object => exact grows_onResultObjectFetched f object
  | forceSetCanceled => exact grows_forceSetCanceled f

theorem blank_create (taskId : TaskID) (isDelayed : Bool) (groupTaskId : Option TaskID) :
    (create taskId isDelayed groupTaskId : ScalerFuture Obj).Blank := fun _ => ⟨rfl, rfl⟩

theorem cancelled_of_not_done (h : f.done = false) : f.cancelled = false := by
  unfold done cancelled at *
  cases hs : f.state <;> simp_all

theorem done_setCanceled (f : ScalerFuture Obj) : f.setCanceled.done = true := by
  unfold setCanceled
  split
  · assumption
  · rfl

theorem grows_setCanceled (f : ScalerFuture Obj) : Grows f f.setCanceled := by
  refine .of_done ?_ ?_ (done_setCanceled f)
  · unfold setCanceled
    split <;> rfl
  · unfold setCanceled
    split <;> rfl

end ScalerFuture

/-- A result as the scheduler sends it: profiling information or none, one object or none. -/
def TaskResult.WellFormed (r : TaskResult) : Prop :=
  (r.metadata = [] ∨ r.metadata.length = 16) ∧ r.results.length ≤ 1

namespace ClientAgent

variable {Obj : Type} {objects : ClientObjects Obj} {s : ClientAgent Obj}

variable (objects) in
/-- A well-formed result resolves an unresolved future. -/
theorem resolve_ok {r : TaskResult} (hr : r.WellFormed) {f : ScalerFuture Obj} (hb : f.Blank)
    (hd : f.done = false) :
    ∃ f', resolve objects r f = .ok f' ∧ f.Grows f' ∧ f'.done = true := by
  have hprofile : ∃ profile, retrieveProfilingResult objects r = .ok profile := by
    unfold retrieveProfilingResult
    rcases hr.1 with hm | hm
    · exact ⟨none, if_pos hm⟩
    · by_cases hnil : r.metadata = []
      · exact ⟨none, if_pos hnil⟩
      · exact ⟨_, by rw [if_neg hnil, if_pos hm]⟩
  have hobject : ∃ objectId, getResultObjectId r = .ok objectId := by
    unfold getResultObjectId
    have hlen := hr.2
    match h : r.results with
    | [] => exact ⟨none, rfl⟩
    | [o] => exact ⟨some o, rfl⟩
    | _ :: _ :: os =>
      rw [h] at hlen
      simp at hlen
  obtain ⟨profile, hp⟩ := hprofile
  obtain ⟨objectId, ho⟩ := hobject
  have hready : ∃ f', f.setResultReady objectId r.resultType profile = .ok f' ∧ f.Grows f' ∧
      f'.done = true := by
    unfold ScalerFuture.setResultReady
    rw [hd]
    refine ⟨_, rfl, ?_⟩
    split
    · refine ⟨.of_done ?_ ?_ ?_, ?_⟩
      · exact (ScalerFuture.grows_startResultObjectFetch _).taskId
      · exact (ScalerFuture.grows_startResultObjectFetch _).target
      · exact ScalerFuture.done_startResultObjectFetch
      · exact ScalerFuture.done_startResultObjectFetch
    · exact ⟨.of_done rfl rfl rfl, rfl⟩
  have hexception : ∃ f', f.setException (some (objects.workerDiedError r.taskId)) profile = .ok f' := by
    unfold ScalerFuture.setException ScalerFuture.setResultOrException
    rw [ScalerFuture.cancelled_of_not_done hd, (hb hd).1, (hb hd).2]
    simp
  unfold resolve
  rw [hp]
  cases ht : r.resultType with
  | failedWorkerDied =>
    obtain ⟨f', he⟩ := hexception
    exact ⟨f', he, ScalerFuture.grows_setResultOrException he⟩
  | success =>
    rw [ht] at hready
    obtain ⟨f', he, hg⟩ := hready
    exact ⟨f', by rw [ho]; exact he, hg⟩
  | failed =>
    rw [ht] at hready
    obtain ⟨f', he, hg⟩ := hready
    exact ⟨f', by rw [ho]; exact he, hg⟩

/-- The future is registered and not done. -/
def Awaited (s : ClientAgent Obj) (t : TaskID) (f : ScalerFuture Obj) : Prop :=
  t ∈ s.taskIdToFuture ∧ s.futures.get? t = some f ∧ f.done = false

structure Tracked (s : ClientAgent Obj) : Prop where
  known : ∀ t ∈ s.taskIdToFuture, (s.futures.get? t).isSome = true
  named : ∀ t f, s.futures.get? t = some f → f.taskId = t
  blank : ∀ t f, s.futures.get? t = some f → f.Blank
  nodup : s.taskIdToFuture.Nodup
  tracked : ∀ t f, s.Awaited t f → t ∈ s.taskIds
  target : ∀ t f, s.Awaited t f → f.cancelTarget ∈ s.taskIds

theorem tracked_empty : (empty : ClientAgent Obj).Tracked where
  known := by simp [empty]
  named := by simp [empty]
  blank := by simp [empty]
  nodup := List.nodup_nil
  tracked := by simp [empty, Awaited]
  target := by simp [empty, Awaited]

/-- The tables change as futures are replaced by later versions of themselves, while every
future that is still awaited stays tracked. -/
theorem Tracked.replace {s' : ClientAgent Obj} (h : s.Tracked)
    (hfutures : ∀ t f', s'.futures.get? t = some f' →
      ∃ f, s.futures.get? t = some f ∧ f.Grows f')
    (hknown : ∀ t, (s.futures.get? t).isSome = true → (s'.futures.get? t).isSome = true)
    (hsub : ∀ t ∈ s'.taskIdToFuture, t ∈ s.taskIdToFuture) (hnodup : s'.taskIdToFuture.Nodup)
    (hids : ∀ t f, s'.Awaited t f → (t ∈ s.taskIds → t ∈ s'.taskIds) ∧
      (f.cancelTarget ∈ s.taskIds → f.cancelTarget ∈ s'.taskIds)) : s'.Tracked := by
  have hold : ∀ t f', s'.Awaited t f' → ∃ f, s.Awaited t f ∧ f.Grows f' := by
    rintro t f' ⟨ht, hf', hd⟩
    obtain ⟨f, hf, hg⟩ := hfutures t f' hf'
    refine ⟨f, ⟨hsub t ht, hf, ?_⟩, hg⟩
    by_contra hdone
    rw [hg.done (by simpa using hdone)] at hd
    cases hd
  refine ⟨fun t ht => hknown t (h.known t (hsub t ht)), ?_, ?_, hnodup, ?_, ?_⟩
  · intro t f' hf'
    obtain ⟨f, hf, hg⟩ := hfutures t f' hf'
    exact hg.taskId.trans (h.named t f hf)
  · intro t f' hf'
    obtain ⟨f, hf, hg⟩ := hfutures t f' hf'
    exact hg.blank (h.blank t f hf)
  · intro t f' hf'
    obtain ⟨f, hf, -⟩ := hold t f' hf'
    exact (hids t f' hf').1 (h.tracked t f hf)
  · intro t f' hf'
    obtain ⟨f, hf, hg⟩ := hold t f' hf'
    refine (hids t f' hf').2 ?_
    rw [hg.target]
    exact h.target t f hf

theorem get?_set_grows {t : TaskID} {f f' : ScalerFuture Obj} (hf : s.futures.get? t = some f)
    (hg : f.Grows f') (u : TaskID) (g : ScalerFuture Obj)
    (hu : (s.futures.set t f').get? u = some g) : ∃ g₀, s.futures.get? u = some g₀ ∧ g₀.Grows g := by
  rw [Dict.get?_set] at hu
  split at hu
  · next he =>
    cases hu
    exact ⟨f, he ▸ hf, hg⟩
  · exact ⟨g, hu, .refl g⟩

theorem isSome_get?_set {t : TaskID} {f' : ScalerFuture Obj} (u : TaskID)
    (hu : (s.futures.get? u).isSome = true) : ((s.futures.set t f').get? u).isSome = true := by
  rw [Dict.get?_set]
  split
  · rfl
  · exact hu

/-- Only the futures, the table of the manager and the ids count. -/
theorem Tracked.congr {s' : ClientAgent Obj} (h : s.Tracked) (hf : s'.futures = s.futures)
    (ht : s'.taskIdToFuture = s.taskIdToFuture) (hids : ∀ t ∈ s.taskIds, t ∈ s'.taskIds) :
    s'.Tracked := by
  refine h.replace (fun t f hf' => ⟨f, hf ▸ hf', .refl f⟩) (fun t h => hf ▸ h) (fun t h => ht ▸ h)
    (ht ▸ h.nodup) fun t f _ => ⟨hids t, hids f.cancelTarget⟩

theorem Tracked.addFuture (h : s.Tracked) (t : TaskID) (isDelayed : Bool) (group : Option TaskID)
    (ht : t ∈ s.taskIds) (hg : group.getD t ∈ s.taskIds) :
    (s.addFuture (.create t isDelayed group)).Tracked := by
  have hget : ∀ u f, (s.addFuture (.create t isDelayed group)).futures.get? u = some f →
      (u = t ∧ f = .create t isDelayed group) ∨ (u ≠ t ∧ s.futures.get? u = some f) := by
    intro u f hu
    simp only [ClientAgent.addFuture] at hu
    rw [Dict.get?_set] at hu
    split at hu
    · next he =>
      cases hu
      exact .inl ⟨he, rfl⟩
    · next hne => exact .inr ⟨hne, hu⟩
  have hold : ∀ u f, (s.addFuture (.create t isDelayed group)).Awaited u f → u ≠ t →
      s.futures.get? u = some f → s.Awaited u f := by
    rintro u f ⟨hu, -, hd⟩ hne hf
    refine ⟨?_, hf, hd⟩
    rcases List.mem_insert_iff.mp hu with he | hu
    · exact absurd he hne
    · exact hu
  refine ⟨?_, ?_, ?_, h.nodup.insert, ?_, ?_⟩
  · intro u hu
    simp only [ClientAgent.addFuture] at hu ⊢
    rw [Dict.get?_set]
    split
    · rfl
    · next hne =>
      rcases List.mem_insert_iff.mp hu with he | hu
      · exact absurd he hne
      · exact h.known u hu
  · intro u f hf
    rcases hget u f hf with ⟨rfl, rfl⟩ | ⟨-, hf⟩
    · rfl
    · exact h.named u f hf
  · intro u f hf
    rcases hget u f hf with ⟨rfl, rfl⟩ | ⟨-, hf⟩
    · exact ScalerFuture.blank_create _ _ _
    · exact h.blank u f hf
  · intro u f hu
    rcases hget u f hu.2.1 with ⟨rfl, rfl⟩ | ⟨hne, hf⟩
    · exact ht
    · exact h.tracked u f (hold u f hu hne hf)
  · intro u f hu
    rcases hget u f hu.2.1 with ⟨rfl, rfl⟩ | ⟨hne, hf⟩
    · exact hg
    · exact h.target u f (hold u f hu hne hf)

theorem Tracked.submit (h : s.Tracked) (task : Task) (isDelayed : Bool) :
    (s.submit task isDelayed).Tracked := by
  have hids : ({ s with taskIds := s.taskIds.insert task.taskId } : ClientAgent Obj).Tracked :=
    h.congr rfl rfl fun t ht => List.mem_insert_of_mem ht
  have hadd := hids.addFuture task.taskId isDelayed none List.mem_insert_self List.mem_insert_self
  exact hadd.congr rfl rfl fun t ht => ht

theorem mem_foldl_insert {α : Type} [DecidableEq α] (as bs : List α) (a : α) :
    a ∈ as.foldl (fun ids t => ids.insert t) bs ↔ a ∈ as ∨ a ∈ bs := by
  induction as generalizing bs with
  | nil => simp
  | cons b as ih =>
    rw [List.foldl_cons, ih, List.mem_insert_iff, List.mem_cons]
    tauto

theorem Tracked.get (h : s.Tracked) (graph : GraphTask) (isDelayed : Bool) :
    (s.get graph isDelayed).Tracked := by
  have hadd : ∀ (ts : List TaskID) (s : ClientAgent Obj), s.Tracked → graph.taskId ∈ s.taskIds →
      (∀ t ∈ ts, t ∈ s.taskIds) → (ts.foldl
        (fun s t => s.addFuture (.create t isDelayed (some graph.taskId))) s).Tracked := by
    intro ts
    induction ts with
    | nil => exact fun s hs _ _ => hs
    | cons t ts ih =>
      intro s hs hg hts
      exact ih _ (hs.addFuture t isDelayed (some graph.taskId) (hts t (by simp)) hg) hg
        fun u hu => hts u (by simp [hu])
  -- the ids are added after the futures, but adding futures does not look at them
  have hframe : ∀ (ts : List TaskID) (s : ClientAgent Obj) ids,
      ts.foldl (fun s t => s.addFuture (.create t isDelayed (some graph.taskId)))
        { s with taskIds := ids } =
      { ts.foldl (fun s t => s.addFuture (.create t isDelayed (some graph.taskId))) s with
        taskIds := ids } := by
    intro ts
    induction ts with
    | nil => exact fun _ _ => rfl
    | cons t ts ih => exact fun s ids => ih (s.addFuture (.create t isDelayed (some graph.taskId))) ids
  have hkeep : ∀ (ts : List TaskID) (s : ClientAgent Obj),
      (ts.foldl (fun s t => s.addFuture (.create t isDelayed (some graph.taskId))) s).taskIds =
        s.taskIds := by
    intro ts
    induction ts with
    | nil => exact fun _ => rfl
    | cons t ts ih => exact fun s => ih (s.addFuture (.create t isDelayed (some graph.taskId)))
  have hmem := mem_foldl_insert graph.targets (s.taskIds.insert graph.taskId)
  generalize hnew : graph.targets.foldl (fun ids t => ids.insert t) (s.taskIds.insert graph.taskId) =
    ids at hmem
  have hids : ({ s with taskIds := ids } : ClientAgent Obj).Tracked :=
    h.congr rfl rfl fun t ht => (hmem t).mpr (.inr (List.mem_insert_of_mem ht))
  have hall := hadd (graph.taskId :: graph.targets) _ hids
    ((hmem _).mpr (.inr List.mem_insert_self)) (by
      intro t ht
      rcases List.mem_cons.mp ht with rfl | ht
      · exact (hmem _).mpr (.inr List.mem_insert_self)
      · exact (hmem t).mpr (.inl ht))
  rw [hframe] at hall
  refine hall.congr rfl rfl fun t ht => ?_
  simp only [ClientAgent.get, onNewGraphTask, hkeep, hnew]
  exact ht

theorem Tracked.onFuture (h : s.Tracked) (t : TaskID) (op : ClientOp Obj) :
    (s.onFuture t op).Tracked := by
  unfold ClientAgent.onFuture
  cases hf : s.futures.get? t with
  | none => exact h
  | some f =>
    exact h.replace (get?_set_grows hf (f.grows_client op)) isSome_get?_set (fun _ => id) h.nodup
      fun _ _ _ => ⟨id, id⟩

theorem Tracked.onCancelTask (h : s.Tracked) (c : TaskCancel) : (s.onCancelTask c).Tracked := by
  unfold ClientAgent.onCancelTask
  split
  · exact h.congr rfl rfl fun _ => id
  · exact h

/-- No other awaited future is cancelled through this id. -/
def LastOfGroup (s : ClientAgent Obj) (t : TaskID) : Prop :=
  ∀ u f, s.Awaited u f → u ≠ t → f.cancelTarget ≠ t

/-- The events that keep every awaited future tracked. A message for a tracked task is a
well-formed result for an awaited future, if one is registered, or a confirmation, and one of
a failed cancel only if no future is awaited; the umbrella task of a graph is answered after
the other futures of the graph. -/
def Orderly (s : ClientAgent Obj) : ClientEvent Obj → Prop
  | .taskResult r => r.taskId ∈ s.taskIds → s.LastOfGroup r.taskId ∧
      (r.taskId ∈ s.taskIdToFuture → r.WellFormed ∧ ∃ f, s.Awaited r.taskId f)
  | .taskCancelConfirm c => c.taskId ∈ s.taskIds → s.LastOfGroup c.taskId ∧
      (c.cancelConfirmType = .cancelFailed → ∀ f, ¬s.Awaited c.taskId f)
  | _ => True

theorem Tracked.giveUp {s' : ClientAgent Obj} (h : s.Tracked) {t : TaskID} (hlast : s.LastOfGroup t)
    (hfutures : ∀ u f', s'.futures.get? u = some f' →
      ∃ f, s.futures.get? u = some f ∧ f.Grows f')
    (hknown : ∀ u, (s.futures.get? u).isSome = true → (s'.futures.get? u).isSome = true)
    (hsub : ∀ u ∈ s'.taskIdToFuture, u ∈ s.taskIdToFuture) (hnodup : s'.taskIdToFuture.Nodup)
    (hids : s'.taskIds = s.taskIds.erase t) (hgone : ∀ f, ¬s'.Awaited t f) : s'.Tracked := by
  refine h.replace hfutures hknown hsub hnodup fun u f' hu => ?_
  have hne : u ≠ t := by
    rintro rfl
    exact hgone f' hu
  obtain ⟨f, hf, hg⟩ := hfutures u f' hu.2.1
  have hawaited : s.Awaited u f := by
    refine ⟨hsub u hu.1, hf, ?_⟩
    by_contra hd
    have hd' := hg.done (by simpa using hd)
    rw [hu.2.2] at hd'
    cases hd'
  have htarget : f'.cancelTarget ≠ t := by
    rw [hg.target]
    exact hlast u f hawaited hne
  rw [hids]
  exact ⟨(List.mem_erase_of_ne hne).mpr, (List.mem_erase_of_ne htarget).mpr⟩

variable (objects) in
/-- A well-formed result takes an awaited future out of both tables and resolves it. -/
theorem Tracked.result_resolves (h : s.Tracked) {r : TaskResult} (hr : r.WellFormed)
    {f : ScalerFuture Obj} (hf : s.Awaited r.taskId f) :
    ∃ f', f.Grows f' ∧ f'.done = true ∧ s.onTaskResult objects r = .ok { s with
      sentObjectIds := r.results.foldl (fun ids o => ids.insert o) s.sentObjectIds
      taskIds := s.taskIds.erase r.taskId
      taskIdToFuture := s.taskIdToFuture.erase r.taskId
      futures := s.futures.set r.taskId f' } := by
  obtain ⟨f', he, hg, hd⟩ := resolve_ok objects hr (h.blank _ f hf.2.1) hf.2.2
  refine ⟨f', hg, hd, ?_⟩
  unfold ClientAgent.onTaskResult setFutureResult
  dsimp only
  rw [if_pos (h.tracked _ f hf), if_pos hf.1]
  simp only [hf.2.1, he]
  rfl

theorem Tracked.onTaskResult (h : s.Tracked) {r : TaskResult} (hop : s.Orderly (.taskResult r)) :
    ∃ s', s.onTaskResult objects r = .ok s' ∧ s'.Tracked := by
  by_cases hid : r.taskId ∈ s.taskIds
  · obtain ⟨hlast, hfuture⟩ := hop hid
    by_cases hreg : r.taskId ∈ s.taskIdToFuture
    · obtain ⟨hwf, f, hf⟩ := hfuture hreg
      obtain ⟨f', hg, -, he⟩ := h.result_resolves objects hwf hf
      refine ⟨_, he, ?_⟩
      refine h.giveUp hlast (get?_set_grows hf.2.1 hg) isSome_get?_set
        (fun u hu => List.mem_of_mem_erase hu) (h.nodup.erase _) rfl ?_
      rintro g ⟨hm, -⟩
      exact h.nodup.not_mem_erase hm
    · unfold ClientAgent.onTaskResult setFutureResult
      dsimp only
      rw [if_pos hid, if_neg hreg]
      refine ⟨_, rfl, ?_⟩
      refine h.giveUp hlast (fun u f hu => ⟨f, hu, .refl f⟩) (fun _ => id) (fun _ => id) h.nodup rfl ?_
      exact fun f hf => hreg hf.1
  · unfold ClientAgent.onTaskResult
    dsimp only
    rw [if_neg hid]
    exact ⟨_, rfl, h.congr rfl rfl fun _ => id⟩

theorem confirm_resolves {c : TaskCancelConfirm}
    (hc : c.cancelConfirmType ≠ .cancelFailed) {f : ScalerFuture Obj} (hf : s.futures.get? c.taskId = some f)
    (hid : c.taskId ∈ s.taskIds) (hreg : c.taskId ∈ s.taskIdToFuture) :
    s.onTaskCancelConfirm c = { s with
      taskIds := s.taskIds.erase c.taskId
      taskIdToFuture := s.taskIdToFuture.erase c.taskId
      futures := s.futures.set c.taskId f.setCanceled } := by
  unfold ClientAgent.onTaskCancelConfirm setFutureCanceled
  dsimp only
  rw [if_pos hid, if_pos hreg]
  simp only [hf]
  cases ht : c.cancelConfirmType with
  | canceled => rfl
  | cancelNotFound => rfl
  | cancelFailed => exact absurd ht hc

theorem Tracked.onTaskCancelConfirm (h : s.Tracked) {c : TaskCancelConfirm}
    (hop : s.Orderly (.taskCancelConfirm c)) : (s.onTaskCancelConfirm c).Tracked := by
  by_cases hid : c.taskId ∈ s.taskIds
  · obtain ⟨hlast, hfailed⟩ := hop hid
    by_cases hreg : c.taskId ∈ s.taskIdToFuture
    · obtain ⟨f, hf⟩ := Option.isSome_iff_exists.mp (h.known _ hreg)
      by_cases hc : c.cancelConfirmType = .cancelFailed
      · unfold ClientAgent.onTaskCancelConfirm setFutureCanceled
        dsimp only
        rw [if_pos hid, if_pos hreg]
        simp only [hf, hc]
        have hmem : ∀ u ∈ (s.taskIdToFuture.erase c.taskId).insert c.taskId, u ∈ s.taskIdToFuture := by
          intro u hu
          rcases List.mem_insert_iff.mp hu with rfl | hu
          · exact hreg
          · exact List.mem_of_mem_erase hu
        refine h.giveUp hlast (fun u g hu => ⟨g, hu, .refl g⟩) (fun _ => id) hmem
          (h.nodup.erase _).insert rfl ?_
        rintro g ⟨-, hg, hd⟩
        exact hfailed hc g ⟨hreg, hg, hd⟩
      · rw [confirm_resolves hc hf hid hreg]
        refine h.giveUp hlast (get?_set_grows hf f.grows_setCanceled) isSome_get?_set
          (fun u hu => List.mem_of_mem_erase hu) (h.nodup.erase _) rfl ?_
        rintro g ⟨hm, -⟩
        exact h.nodup.not_mem_erase hm
    · unfold ClientAgent.onTaskCancelConfirm setFutureCanceled
      dsimp only
      rw [if_pos hid, if_neg hreg]
      refine h.giveUp hlast (fun u f hu => ⟨f, hu, .refl f⟩) (fun _ => id) (fun _ => id) h.nodup rfl ?_
      exact fun f hf => hreg hf.1
  · unfold ClientAgent.onTaskCancelConfirm
    rw [if_neg hid]
    exact h

/-- Every future of `d` is a later version of one of `s`, and none is missing. -/
def Versions (s : ClientAgent Obj) (d : Dict TaskID (ScalerFuture Obj)) : Prop :=
  (∀ t f, d.get? t = some f → ∃ g, s.futures.get? t = some g ∧ g.Grows f) ∧
    ∀ t, (s.futures.get? t).isSome = true → (d.get? t).isSome = true

theorem Versions.failFuture {d : Dict TaskID (ScalerFuture Obj)} (h : s.Versions d) (exception : Obj)
    (t : TaskID) : s.Versions (failFuture exception d t) := by
  unfold ClientAgent.failFuture
  cases hf : d.get? t with
  | none => exact h
  | some f =>
    have hstep : f.Grows (f.step (.setException (some exception) none)) := by
      simp only [ScalerFuture.step]
      cases he : f.setException (some exception) none with
      | error e => exact .refl f
      | ok f' => exact (ScalerFuture.grows_setResultOrException he).1
    refine ⟨fun u g hu => ?_, fun u hu => ?_⟩
    · rw [Dict.get?_set] at hu
      split at hu
      · next he =>
        cases hu
        obtain ⟨f₀, hf₀, hg₀⟩ := h.1 t f hf
        exact ⟨f₀, he ▸ hf₀, hg₀.trans hstep⟩
      · exact h.1 u g hu
    · rw [Dict.get?_set]
      split
      · rfl
      · exact h.2 u hu

theorem Versions.failAll {d : Dict TaskID (ScalerFuture Obj)} (h : s.Versions d) (exception : Obj)
    (ts : List TaskID) : s.Versions (ts.foldl (ClientAgent.failFuture exception) d) := by
  induction ts generalizing d with
  | nil => exact h
  | cons t ts ih => exact ih (h.failFuture exception t)

theorem Tracked.setAllFuturesWithException (h : s.Tracked) (exception : Obj) :
    (s.setAllFuturesWithException exception).Tracked := by
  have hsame : s.Versions s.futures := ⟨fun t f hf => ⟨f, hf, .refl f⟩, fun _ => id⟩
  obtain ⟨hfutures, hknown⟩ := hsame.failAll exception s.taskIdToFuture
  exact h.replace hfutures hknown (fun t ht => absurd ht List.not_mem_nil) List.nodup_nil
    fun _ _ _ => ⟨id, id⟩

variable (objects) in
theorem Tracked.step (h : s.Tracked) {e : ClientEvent Obj} (he : s.Orderly e) :
    ∃ s', s.step objects e = .ok s' ∧ s'.Tracked := by
  cases e with
  | submit task isDelayed => exact ⟨_, rfl, h.submit task isDelayed⟩
  | get graph isDelayed => exact ⟨_, rfl, h.get graph isDelayed⟩
  | future t op => exact ⟨_, rfl, h.onFuture t op⟩
  | receiveCancel =>
    simp only [ClientAgent.step]
    split
    · exact ⟨s, rfl, h⟩
    · next c cs hc =>
      have htake : ({ s with fromClient := cs } : ClientAgent Obj).Tracked := h.congr rfl rfl fun _ => id
      exact ⟨_, rfl, htake.onCancelTask c⟩
  | taskResult r =>
    exact h.onTaskResult he
  | taskCancelConfirm c => exact ⟨_, rfl, h.onTaskCancelConfirm he⟩
  | stop exception => exact ⟨_, rfl, h.setAllFuturesWithException exception⟩

/-- Every awaited future is tracked, so that an answer of the scheduler resolves it and a
cancel of it is forwarded. -/
structure Resolvable (objects : ClientObjects Obj) (s : ClientAgent Obj) : Prop where
  tracked : ∀ t f, s.Awaited t f → t ∈ s.taskIds
  result : ∀ t f, s.Awaited t f → ∀ r : TaskResult, r.taskId = t → r.WellFormed →
    ∃ s' f', s.onTaskResult objects r = .ok s' ∧ s'.futures.get? t = some f' ∧ f'.done = true
  confirmed : ∀ t f, s.Awaited t f → ∀ c : TaskCancelConfirm, c.taskId = t →
    c.cancelConfirmType ≠ .cancelFailed →
    ∃ f', (s.onTaskCancelConfirm c).futures.get? t = some f' ∧ f'.done = true
  forwarded : ∀ t f, s.Awaited t f → ∀ c : TaskCancel, c.taskId = f.cancelTarget →
    (s.onCancelTask c).toScheduler = s.toScheduler ++ [Message.taskCancel c]

theorem Tracked.resolvable (h : s.Tracked) : s.Resolvable objects where
  tracked := h.tracked
  result := by
    rintro t f hf r rfl hr
    obtain ⟨f', -, hd, he⟩ := h.result_resolves objects hr hf
    exact ⟨_, f', he, Dict.get?_set_self _ _ _, hd⟩
  confirmed := by
    rintro t f hf c rfl hc
    rw [confirm_resolves hc hf.2.1 (h.tracked _ f hf) hf.1]
    exact ⟨_, Dict.get?_set_self _ _ _, f.done_setCanceled⟩
  forwarded := by
    intro t f hf c hc
    unfold ClientAgent.onCancelTask
    rw [if_pos (hc ▸ h.target t f hf)]

/-- In every run whose events are orderly where they happen no handler raises, and every
awaited future stays resolvable. -/
theorem client_runs_resolvable (objects : ClientObjects Obj) (es : List (ClientEvent Obj))
    (hes : Along (step objects) Orderly empty es) :
    ∃ s, es.foldlM (step objects) empty = .ok s ∧ s.Resolvable objects := by
  have hstep : ∀ (s : ClientAgent Obj) e, s.Tracked → s.Orderly e →
      Ends (fun _ => False) (s.step objects e) Tracked := by
    intro s e hs he
    obtain ⟨s', hs', ht⟩ := hs.step objects he
    rw [hs']
    exact ht
  obtain ⟨s, hs, ht⟩ := (Ends.foldlM hstep tracked_empty hes).exists_ok fun _ => id
  exact ⟨s, hs, ht.resolvable⟩

def lengthObjects : ClientObjects Nat := ⟨List.length, TaskID.bytes⟩

/-- A task is submitted, its cancel comes too late and its result arrives. -/
theorem client_runs_resolvable_result :
    ∃ s, [ClientEvent.submit ⟨⟨1⟩, ⟨0⟩, [], ⟨0⟩, [], []⟩ true, .future ⟨1⟩ .cancel, .receiveCancel,
        .taskResult ⟨⟨1⟩, .success, [], [⟨5⟩]⟩].foldlM (step lengthObjects) empty = .ok s ∧
      s.Resolvable lengthObjects := by
  refine client_runs_resolvable lengthObjects _ (.cons rfl trivial (.cons rfl trivial
    (.cons rfl trivial (.cons rfl (fun _ => ⟨?_, fun _ => ⟨⟨.inl rfl, Nat.le_refl _⟩, ?_⟩⟩) trivial))))
  · rintro u f ⟨hu, -⟩ hne
    exact absurd (List.mem_singleton.mp hu) hne
  · exact ⟨_, List.mem_singleton_self _, rfl, rfl⟩

/-- After the confirmation of a failed cancel the id of the task is no longer tracked, so the
result of the task is dropped and its future stays unresolved. -/
theorem failed_cancel_loses_result :
    ∃ s f, [ClientEvent.submit ⟨⟨1⟩, ⟨0⟩, [], ⟨0⟩, [], []⟩ true, .future ⟨1⟩ .cancel, .receiveCancel,
        .taskCancelConfirm ⟨⟨1⟩, .cancelFailed⟩,
        .taskResult ⟨⟨1⟩, .success, [], [⟨5⟩]⟩].foldlM (step lengthObjects) empty = .ok s ∧
      s.Awaited ⟨1⟩ f ∧ ¬s.Resolvable lengthObjects := by
  refine ⟨_, _, rfl, ⟨List.mem_singleton_self _, rfl, rfl⟩, fun h => ?_⟩
  have hmem := h.tracked ⟨1⟩ _ ⟨List.mem_singleton_self _, rfl, rfl⟩
  exact absurd hmem (by decide)

end ClientAgent

end Scaler
