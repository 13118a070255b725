import Mathlib.Data.List.Dedup
import Scaler.Scheduler.ObjectLifetime

/-! Clients and the objects that the scheduler tracks for them, at the granularity of `await`: a disconnect
ends behind the cancellation of the client's tasks, a fault report adds its object behind the call that stores
it, and a graph that is aborted behind the one that duplicates it. Any other coroutine may run in between. -/

namespace Scaler.ClientObjects

open Collections

inductive ObjectContentType where
  | serializer
  | object
  deriving DecidableEq, Repr

/-- `_ObjectCreation`. -/
structure ObjectCreation (Client ObjectId : Type) where
  objectId : ObjectId
  objectCreator : Client
  objectType : ObjectContentType
  objectName : List UInt8
  deriving DecidableEq, Repr

/-- The fields of the client controller and of the object controller, and the coroutines that wait. The queue
holds all that was ever put into it. The last three are there for the specification only: the clients whose
disconnect has completed and that have not registered since, the objects with the clients that they were added
for, and the objects, each as often as it came into the tracker. -/
structure State (Client Task ObjectId : Type) where
  clientLastSeen : List Client
  clientToTaskIds : OneToManyDict Client Task
  objectTracker : ObjectUsage.ObjectTracker Client ObjectId (ObjectCreation Client ObjectId)
  queueDeletedObjectIds : List ObjectId
  disconnecting : List Client
  reporting : List (ObjectCreation Client ObjectId)
  duplicating : List (ObjectCreation Client ObjectId)
  gone : List Client
  additions : List (ObjectId × Client)
  trackings : List ObjectId

inductive Event (Client Task ObjectId : Type) where
  | heartbeat (client : Client)
  | taskBegin (client : Client) (task : Task)
  | taskFinish (task : Task)
  | disconnect (client : Client)
  | disconnected (client : Client)
  | createObjects (objectUser : Client) (objects : List (ObjectId × ObjectContentType × List UInt8))
  | deleteObjects (objectUser : Client) (objectIds : List ObjectId)
  | reportFault (task : Task) (objectId : ObjectId)
  | objectStored (index : Nat)
  | storeFailed (index : Nat)
  | duplicateObject (owner : Client) (newObjectId : ObjectId) (objectName : List UInt8)
  | objectDuplicated (index : Nat)
  | duplicateFailed (index : Nat)

namespace State

variable {Client Task ObjectId : Type} [DecidableEq Client] [DecidableEq Task] [DecidableEq ObjectId]

def initial : State Client Task ObjectId := ⟨[], .empty, .empty, [], [], [], [], [], [], []⟩

variable (s : State Client Task ObjectId)

def hasClientId (client : Client) : Bool := client ∈ s.clientLastSeen

def onAddObject (creation : ObjectCreation Client ObjectId) : State Client Task ObjectId :=
  let tracker := s.objectTracker.addObject ObjectCreation.objectId creation
  { s with
    objectTracker := (tracker.addBlocksForOneObject creation.objectId [creation.objectCreator]).2
    additions := s.additions ++ [(creation.objectId, creation.objectCreator)]
    trackings := if s.objectTracker.hasObject creation.objectId then s.trackings else s.trackings ++ [creation.objectId] }

/-- `__finished_object_storage` is the callback of the tracker. -/
def finish (removal : List (ObjectCreation Client ObjectId) × ObjectUsage.ObjectTracker Client ObjectId (ObjectCreation Client ObjectId)) :
    State Client Task ObjectId :=
  { s with
    objectTracker := removal.2
    queueDeletedObjectIds := s.queueDeletedObjectIds ++ removal.1.map ObjectCreation.objectId }

def onDelObjects (client : Client) (objectIds : List ObjectId) : State Client Task ObjectId :=
  objectIds.foldl (fun s objectId => s.finish (s.objectTracker.removeOneBlockForObjects [objectId] client)) s

def cleanClient (client : Client) : State Client Task ObjectId :=
  s.finish (ObjectUsage.ObjectTracker.removeBlocks [client] s.objectTracker)

def onObjectCreate (objectUser : Client) (objects : List (ObjectId × ObjectContentType × List UInt8)) :
    State Client Task ObjectId :=
  if s.hasClientId objectUser then
    objects.foldl (fun s (objectId, objectType, objectName) => s.onAddObject ⟨objectId, objectUser, objectType, objectName⟩) s
  else s

/-- `on_task_finish`: the client that the task belonged to. -/
def onTaskFinish (task : Task) : Option Client × State Client Task ObjectId :=
  match s.clientToTaskIds.removeValue task with
  | (.ok client, tasks) => (some client, { s with clientToTaskIds := tasks })
  | (.error _, _) => (none, s)

/-- `__report_fault_to_client` up to its first `await`. -/
def reportFaultToClient (task : Task) (objectId : ObjectId) : State Client Task ObjectId :=
  match s.onTaskFinish task with
  | (none, s) => s
  | (some client, s) => { s with reporting := s.reporting ++ [⟨objectId, client, .object, "<scheduler error>".toUTF8.toList⟩] }

def step : Event Client Task ObjectId → State Client Task ObjectId
  | .heartbeat client =>
    { s with clientLastSeen := s.clientLastSeen.insert client, gone := s.gone.filter (· ≠ client) }
  | .taskBegin client task => { s with clientToTaskIds := (s.clientToTaskIds.add client task).2 }
  | .taskFinish task => (s.onTaskFinish task).2
  | .disconnect client =>
    { s with clientLastSeen := s.clientLastSeen.filter (· ≠ client), disconnecting := s.disconnecting ++ [client] }
  | .disconnected client =>
    if client ∈ s.disconnecting then
      let s := { s with disconnecting := s.disconnecting.erase client }.cleanClient client
      if s.hasClientId client then s else { s with gone := s.gone.insert client }
    else s
  | .createObjects objectUser objects => s.onObjectCreate objectUser objects
  | .deleteObjects objectUser objectIds => s.onDelObjects objectUser objectIds.dedup
  | .reportFault task objectId => s.reportFaultToClient task objectId
  | .objectStored index =>
    match s.reporting[index]? with
    | some creation => { s with reporting := s.reporting.eraseIdx index }.onAddObject creation
    | none => s
  | .storeFailed index => { s with reporting := s.reporting.eraseIdx index }
  | .duplicateObject owner newObjectId objectName =>
    { s with duplicating := s.duplicating ++ [⟨newObjectId, owner, .object, objectName⟩] }
  | .objectDuplicated index =>
    match s.duplicating[index]? with
    | some creation => { s with duplicating := s.duplicating.eraseIdx index }.onAddObject creation
    | none => s
  | .duplicateFailed index => { s with duplicating := s.duplicating.eraseIdx index }

end State

section Specification

variable {Client Task ObjectId : Type} [DecidableEq Client] [DecidableEq Task] [DecidableEq ObjectId]

def Owns (s : State Client Task ObjectId) (client : Client) (objectId : ObjectId) : Prop := s.objectTracker.Refers objectId client

/-- A client that is gone owns nothing; every object in the tracker has an owner that is not gone; and an object
whose clients are all gone was queued for deletion once for every time that it came into the tracker. -/
structure NoneOutlives (s : State Client Task ObjectId) : Prop where
  none : ∀ client ∈ s.gone, ∀ objectId, ¬Owns s client objectId
  owned : ∀ objectId, s.objectTracker.hasObject objectId = true → ∃ client, client ∉ s.gone ∧ Owns s client objectId
  queued : ∀ objectId, (∀ client, (objectId, client) ∈ s.additions → client ∈ s.gone) →
    s.objectTracker.hasObject objectId = false ∧ s.queueDeletedObjectIds.count objectId = s.trackings.count objectId

/-- The client of a coroutine that adds its object now has not gone meanwhile. -/
def ForClient (s : State Client Task ObjectId) : Event Client Task ObjectId → Prop
  | .objectStored index => ∀ creation, s.reporting[index]? = some creation → creation.objectCreator ∉ s.gone
  | .objectDuplicated index => ∀ creation, s.duplicating[index]? = some creation → creation.objectCreator ∉ s.gone
  | _ => True

inductive Reached : State Client Task ObjectId → Prop
  | initial : Reached .initial
  | step {s} (event) : Reached s → Reached (s.step event)

/-- The runs in which every step meets the condition. -/
inductive ReachedForClients : State Client Task ObjectId → Prop
  | initial : ReachedForClients .initial
  | step {s event} : ReachedForClients s → ForClient s event → ReachedForClients (s.step event)

end Specification

section Bookkeeping

variable {Client Task ObjectId : Type} [DecidableEq Client] [DecidableEq ObjectId] {s : State Client Task ObjectId}

structure Bookkeeping (s : State Client Task ObjectId) : Prop where
  wf : s.objectTracker.Wf ObjectCreation.objectId
  held : ∀ objectId, s.objectTracker.hasObject objectId = true → ∃ client, Owns s client objectId
  added : ∀ objectId client, Owns s client objectId → (objectId, client) ∈ s.additions
  queued : ∀ objectId, s.queueDeletedObjectIds.count objectId + (if s.objectTracker.hasObject objectId then 1 else 0) =
    s.trackings.count objectId

theorem Bookkeeping.initial : Bookkeeping (.initial : State Client Task ObjectId) where
  wf := .empty
  held := nofun
  added := fun _ _ howns => absurd howns List.not_mem_nil
  queued := fun _ => rfl

theorem added_onAddObject (h : Bookkeeping s) (creation : ObjectCreation Client ObjectId) :
    (s.objectTracker.addObject ObjectCreation.objectId creation).Added
      (fun objectId client => objectId = creation.objectId ∧ client ∈ [creation.objectCreator])
      (s.onAddObject creation).objectTracker := by
  refine ObjectUsage.ObjectTracker.added_addBlocksForOneObject (h.wf.addObject creation) fun _ => ?_
  simp [ObjectUsage.ObjectTracker.hasObject, ObjectUsage.ObjectTracker.addObject, Dict.contains]

theorem owns_onAddObject (h : Bookkeeping s) (creation : ObjectCreation Client ObjectId) (client : Client) (objectId : ObjectId) :
    Owns (s.onAddObject creation) client objectId ↔
      Owns s client objectId ∨ objectId = creation.objectId ∧ client = creation.objectCreator := by
  refine ((added_onAddObject h creation).refers objectId client).trans ?_
  rw [List.mem_singleton]
  rfl

theorem hasObject_onAddObject (h : Bookkeeping s) (creation : ObjectCreation Client ObjectId) (objectId : ObjectId) :
    (s.onAddObject creation).objectTracker.hasObject objectId = true ↔
      objectId = creation.objectId ∨ s.objectTracker.hasObject objectId = true := by
  rw [ObjectUsage.ObjectTracker.hasObject, (added_onAddObject h creation).objects, ObjectUsage.ObjectTracker.addObject, Dict.contains, Dict.get?_set]
  split
  · next heq => simp [heq]
  · next hne => simp [hne, ObjectUsage.ObjectTracker.hasObject, Dict.contains]

theorem Bookkeeping.onAddObject (h : Bookkeeping s) (creation : ObjectCreation Client ObjectId) : Bookkeeping (s.onAddObject creation) where
  wf := (added_onAddObject h creation).wf (h.wf.addObject creation)
  held := fun objectId hhas => by
    rcases (hasObject_onAddObject h creation objectId).mp hhas with heq | hold
    · exact ⟨creation.objectCreator, (owns_onAddObject h creation _ _).mpr (.inr ⟨heq, rfl⟩)⟩
    · obtain ⟨client, howns⟩ := h.held objectId hold
      exact ⟨client, (owns_onAddObject h creation _ _).mpr (.inl howns)⟩
  added := fun objectId client howns => by
    refine List.mem_append.mpr ?_
    rcases (owns_onAddObject h creation client objectId).mp howns with hold | ⟨rfl, rfl⟩
    · exact .inl (h.added objectId client hold)
    · exact .inr (List.mem_singleton_self _)
  queued := fun objectId => by
    have hold := h.queued objectId
    have hiff := hasObject_onAddObject h creation objectId
    change s.queueDeletedObjectIds.count objectId + _ =
      (if s.objectTracker.hasObject creation.objectId then s.trackings else s.trackings ++ [creation.objectId]).count objectId
    by_cases heq : objectId = creation.objectId
    · subst heq
      rw [if_pos (hiff.mpr (.inl rfl))]
      split
      · next hpresent => rwa [if_pos hpresent] at hold
      · next habsent =>
        rw [if_neg habsent] at hold
        rw [List.count_append, ← hold]
        simp
    · have hsame : ((s.onAddObject creation).objectTracker.hasObject objectId = true) =
          (s.objectTracker.hasObject objectId = true) := propext (hiff.trans (or_iff_right heq))
      have hcount : ∀ l : List ObjectId, (l ++ [creation.objectId]).count objectId = l.count objectId := by
        intro l
        rw [List.count_append, List.count_singleton, if_neg (by simpa using Ne.symm heq), Nat.add_zero]
      simp only [hsame, hold]
      split
      · rfl
      · exact (hcount _).symm

/-- The callback of a removal puts an object into the queue when the tracker gives it up, once. -/
theorem Bookkeeping.finish {P : ObjectId → Client → Prop} {ready : List (ObjectCreation Client ObjectId)}
    {tracker : ObjectUsage.ObjectTracker Client ObjectId (ObjectCreation Client ObjectId)} (h : Bookkeeping s)
    (hremoved : ObjectUsage.ObjectTracker.Removed ObjectCreation.objectId s.objectTracker P ready tracker) :
    Bookkeeping (s.finish (ready, tracker)) where
  wf := hremoved.wf
  held := fun objectId hhas => by
    have hkept : ¬s.objectTracker.LosesLastBlock P objectId := by
      intro hlost
      rw [ObjectUsage.ObjectTracker.hasObject, Dict.contains, State.finish, hremoved.lost objectId hlost] at hhas
      cases hhas
    have hbefore : s.objectTracker.hasObject objectId = true := by
      rw [ObjectUsage.ObjectTracker.hasObject, Dict.contains, ← hremoved.kept objectId hkept]
      exact hhas
    by_contra hnone
    refine hkept ⟨h.held objectId hbefore, fun client howns => ?_⟩
    by_contra hnot
    exact hnone ⟨client, (hremoved.refers objectId client).mpr ⟨howns, hnot⟩⟩
  added := fun objectId client howns => h.added objectId client ((hremoved.refers objectId client).mp howns).1
  queued := fun objectId => by
    have hold := h.queued objectId
    change (s.queueDeletedObjectIds ++ ready.map ObjectCreation.objectId).count objectId +
      (if (tracker.objectKeyToObject.get? objectId).isSome then 1 else 0) = s.trackings.count objectId
    rw [List.count_append]
    by_cases hlost : s.objectTracker.LosesLastBlock P objectId
    · obtain ⟨client, howns⟩ := hlost.1
      have hpresent := h.wf.present objectId client howns
      obtain ⟨creation, hget⟩ := Option.isSome_iff_exists.mp hpresent
      have hkey := h.wf.keyed objectId creation hget
      have hmem : objectId ∈ ready.map ObjectCreation.objectId := by
        refine List.mem_map.mpr ⟨creation, (hremoved.called creation).mpr ?_, hkey⟩
        rw [hkey]
        exact ⟨hlost, hget⟩
      rw [List.count_eq_one_of_mem hremoved.once hmem, hremoved.lost objectId hlost, ← hold, if_pos hpresent]
      rfl
    · have hnot : objectId ∉ ready.map ObjectCreation.objectId := by
        intro hmem
        obtain ⟨creation, hready, rfl⟩ := List.mem_map.mp hmem
        exact hlost ((hremoved.called creation).mp hready).1
      rw [List.count_eq_zero.mpr hnot, hremoved.kept objectId hlost]
      exact hold

theorem owns_finish {P : ObjectId → Client → Prop} {ready : List (ObjectCreation Client ObjectId)}
    {tracker : ObjectUsage.ObjectTracker Client ObjectId (ObjectCreation Client ObjectId)}
    (hremoved : ObjectUsage.ObjectTracker.Removed ObjectCreation.objectId s.objectTracker P ready tracker) (client : Client) (objectId : ObjectId) :
    Owns (s.finish (ready, tracker)) client objectId ↔ Owns s client objectId ∧ ¬P objectId client :=
  hremoved.refers objectId client

end Bookkeeping

section Cleaning

variable {Client Task ObjectId : Type} [DecidableEq Client] [DecidableEq ObjectId] {s : State Client Task ObjectId}

structure Sound (s : State Client Task ObjectId) : Prop where
  books : Bookkeeping s
  gone : ∀ client ∈ s.gone, client ∉ s.clientLastSeen ∧ ∀ objectId, ¬Owns s client objectId

theorem Sound.noneOutlives (h : Sound s) : NoneOutlives s where
  none := fun client hgone => (h.gone client hgone).2
  owned := fun objectId hhas => by
    obtain ⟨client, howns⟩ := h.books.held objectId hhas
    exact ⟨client, fun hgone => (h.gone client hgone).2 objectId howns, howns⟩
  queued := fun objectId hall => by
    have habsent : s.objectTracker.hasObject objectId = false := by
      refine Bool.eq_false_iff.mpr fun hhas => ?_
      obtain ⟨client, howns⟩ := h.books.held objectId hhas
      exact (h.gone client (hall client (h.books.added objectId client howns))).2 objectId howns
    have hcount := h.books.queued objectId
    rw [habsent] at hcount
    exact ⟨habsent, hcount⟩

/-- The tasks and the coroutines that wait have no part in it. -/
theorem Sound.waiting (h : Sound s) (tasks : OneToManyDict Client Task) (disconnecting : List Client)
    (reporting duplicating : List (ObjectCreation Client ObjectId)) :
    Sound { s with
      clientToTaskIds := tasks
      disconnecting := disconnecting
      reporting := reporting
      duplicating := duplicating } :=
  ⟨⟨h.books.wf, h.books.held, h.books.added, h.books.queued⟩, h.gone⟩

theorem Sound.onAddObject (h : Sound s) {creation : ObjectCreation Client ObjectId} (hlive : creation.objectCreator ∉ s.gone) :
    Sound (s.onAddObject creation) where
  books := h.books.onAddObject creation
  gone := fun client hgone => by
    refine ⟨(h.gone client hgone).1, fun objectId howns => ?_⟩
    rcases (owns_onAddObject h.books creation client objectId).mp howns with hold | ⟨-, rfl⟩
    · exact (h.gone client hgone).2 objectId hold
    · exact hlive hgone

theorem Sound.finish {P : ObjectId → Client → Prop} {ready : List (ObjectCreation Client ObjectId)}
    {tracker : ObjectUsage.ObjectTracker Client ObjectId (ObjectCreation Client ObjectId)} (h : Sound s)
    (hremoved : ObjectUsage.ObjectTracker.Removed ObjectCreation.objectId s.objectTracker P ready tracker) : Sound (s.finish (ready, tracker)) where
  books := h.books.finish hremoved
  gone := fun client hgone => ⟨(h.gone client hgone).1, fun objectId howns =>
    (h.gone client hgone).2 objectId ((owns_finish hremoved client objectId).mp howns).1⟩

/-- The client that a create instruction names is registered, and stays so while its objects are added. -/
theorem Sound.onObjectCreate (h : Sound s) (objectUser : Client) (objects : List (ObjectId × ObjectContentType × List UInt8)) :
    Sound (s.onObjectCreate objectUser objects) := by
  rw [State.onObjectCreate]
  split
  · next hregistered =>
    refine (List.foldlRecOn (motive := fun s => Sound s ∧ s.hasClientId objectUser = true) objects _ ⟨h, hregistered⟩ ?_).1
    rintro s ⟨hs, hseen⟩ object -
    refine ⟨hs.onAddObject fun hgone => ?_, hseen⟩
    exact (hs.gone objectUser hgone).1 (by simpa [State.hasClientId] using hseen)
  · exact h

theorem Sound.onDelObjects (h : Sound s) (client : Client) (objectIds : List ObjectId) : Sound (s.onDelObjects client objectIds) :=
  List.foldlRecOn (motive := Sound) objectIds _ h fun _ hs objectId _ =>
    hs.finish (ObjectUsage.ObjectTracker.removed_removeOneBlockForObjects hs.books.wf [objectId] client)

/-- Behind the cleaning nothing belongs to the client any more. -/
theorem Sound.cleanClient (h : Sound s) (client : Client) :
    Sound (s.cleanClient client) ∧ ∀ objectId, ¬Owns (s.cleanClient client) client objectId := by
  have hremoved := ObjectUsage.ObjectTracker.removed_removeBlocks h.books.wf [client]
  refine ⟨h.finish hremoved, fun objectId howns => ?_⟩
  exact ((owns_finish hremoved client objectId).mp howns).2 (List.mem_singleton_self client)

end Cleaning

section Runs

variable {Client Task ObjectId : Type} [DecidableEq Client] [DecidableEq Task] [DecidableEq ObjectId]
  {s : State Client Task ObjectId}

theorem Sound.onTaskFinish (h : Sound s) (task : Task) : Sound (s.onTaskFinish task).2 := by
  unfold State.onTaskFinish
  split
  · exact h.waiting _ _ _ _
  · exact h

theorem Sound.reportFaultToClient (h : Sound s) (task : Task) (objectId : ObjectId) : Sound (s.reportFaultToClient task objectId) := by
  have hfinish := h.onTaskFinish task
  unfold State.reportFaultToClient
  split
  · next heq =>
    rw [heq] at hfinish
    exact hfinish
  · next heq =>
    rw [heq] at hfinish
    exact hfinish.waiting _ _ _ _

theorem Sound.step (h : Sound s) {event : Event Client Task ObjectId} (hfor : ForClient s event) : Sound (s.step event) := by
  cases event with
  | heartbeat client =>
    refine ⟨⟨h.books.wf, h.books.held, h.books.added, h.books.queued⟩, fun c hgone => ?_⟩
    obtain ⟨hgone, hne⟩ := List.mem_filter.mp hgone
    refine ⟨fun hseen => ?_, (h.gone c hgone).2⟩
    rcases List.mem_insert_iff.mp hseen with rfl | hseen
    · simp at hne
    · exact (h.gone c hgone).1 hseen
  | taskBegin client task => exact h.waiting _ _ _ _
  | taskFinish task => exact h.onTaskFinish task
  | disconnect client =>
    refine ⟨⟨h.books.wf, h.books.held, h.books.added, h.books.queued⟩, fun c hgone => ⟨fun hseen => ?_, (h.gone c hgone).2⟩⟩
    exact (h.gone c hgone).1 (List.mem_of_mem_filter hseen)
  | disconnected client =>
    rw [State.step]
    split
    · have hwaiting : Sound { s with disconnecting := s.disconnecting.erase client } := h.waiting _ _ _ _
      obtain ⟨hclean, hnothing⟩ := hwaiting.cleanClient client
      dsimp only
      split
      · exact hclean
      · next hunseen =>
        refine ⟨⟨hclean.books.wf, hclean.books.held, hclean.books.added, hclean.books.queued⟩, fun c hgone => ?_⟩
        rcases List.mem_insert_iff.mp hgone with rfl | hold
        · exact ⟨by simpa [State.hasClientId] using hunseen, hnothing⟩
        · exact hclean.gone c hold
    · exact h
  | createObjects objectUser objects => exact h.onObjectCreate objectUser objects
  | deleteObjects objectUser objectIds => exact h.onDelObjects objectUser objectIds.dedup
  | reportFault task objectId => exact h.reportFaultToClient task objectId
  | objectStored index =>
    rw [State.step]
    split
    · next creation hget =>
      have hwaiting : Sound { s with reporting := s.reporting.eraseIdx index } := h.waiting _ _ _ _
      exact hwaiting.onAddObject (hfor creation hget)
    · exact h
  | storeFailed index => exact h.waiting _ _ _ _
  | duplicateObject owner newObjectId objectName => exact h.waiting _ _ _ _
  | objectDuplicated index =>
    rw [State.step]
    split
    · next creation hget =>
      have hwaiting : Sound { s with duplicating := s.duplicating.eraseIdx index } := h.waiting _ _ _ _
      exact hwaiting.onAddObject (hfor creation hget)
    · exact h
  | duplicateFailed index => exact h.waiting _ _ _ _

theorem ReachedForClients.sound (h : ReachedForClients s) : Sound s := by
  induction h with
  | initial => exact ⟨.initial, nofun⟩
  | step _ hfor ih => exact ih.step hfor

/-- Objects do not outlive their client in a run whose coroutines add objects only for clients that are there. -/
theorem noneOutlives_of_forClients (h : ReachedForClients s) : NoneOutlives s := h.sound.noneOutlives

/-- Two clients with an object each; a fault is reported to the first and the abort of a graph adds
an object for the second, then the first one leaves. -/
theorem noneOutlives_two_clients : ∃ s : State Nat Nat Nat,
    ReachedForClients s ∧ s.gone = [1] ∧ s.queueDeletedObjectIds = [9, 7] ∧
      s.additions = [(7, 1), (8, 2), (9, 1), (10, 2)] ∧ NoneOutlives s := by
  have hcreated : ReachedForClients (((((State.initial : State Nat Nat Nat).step (.heartbeat 1)).step (.heartbeat 2)).step
      (.createObjects 1 [(7, .object, [])])).step (.createObjects 2 [(8, .object, [])])) :=
    .step (.step (.step (.step .initial trivial) trivial) trivial) trivial
  have hbegun : ReachedForClients (State.step _ (.taskBegin 1 5)) := hcreated.step trivial
  have hfailed : ReachedForClients (State.step _ (.reportFault 5 9)) := hbegun.step trivial
  have hreported : ReachedForClients (State.step _ (.objectStored 0)) := hfailed.step fun creation hcreation => by
    cases hcreation
    exact List.not_mem_nil
  have haborted : ReachedForClients (State.step _ (.duplicateObject 2 10 [])) := hreported.step trivial
  have hduplicated : ReachedForClients (State.step _ (.objectDuplicated 0)) := haborted.step fun creation hcreation => by
    cases hcreation
    exact List.not_mem_nil
  have hleaving : ReachedForClients (State.step _ (.disconnect 1)) := hduplicated.step trivial
  have hcleaned : ReachedForClients (State.step _ (.disconnected 1)) := hleaving.step trivial
  exact ⟨_, hcleaned, rfl, rfl, rfl, noneOutlives_of_forClients hcleaned⟩

/-- The disconnect completes while the report of a fault waits for the object storage. -/
theorem fault_outlives_client : ¬∀ s : State Nat Nat Nat, Reached s → NoneOutlives s := by
  intro hall
  have hwaiting : Reached ((((State.initial : State Nat Nat Nat).step (.heartbeat 1)).step (.taskBegin 1 5)).step (.reportFault 5 7)) :=
    .step _ (.step _ (.step _ .initial))
  have hadded := ((hwaiting.step (.disconnect 1)).step (.disconnected 1)).step (.objectStored 0)
  exact (hall _ hadded).none 1 (List.mem_singleton_self 1) 7 (List.mem_singleton_self 1)

end Runs

end Scaler.ClientObjects
