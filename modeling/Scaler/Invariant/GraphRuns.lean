import Scaler.Graph.Serving
import Scaler.Invariant.Basic
import Scaler.Scheduler.Registration

/-! Graphs while coroutines interleave: every coroutine that works on a graph has to do with a graph that others
changed since it last looked. -/

namespace Scaler

open Collections Coroutine

/-- What a node keeps while nothing reports for it. -/
def TaskInfo.kept (info : TaskInfo) : Task × List ObjectID := (info.task, info.resultObjectIds)

namespace Graph

/-- The second graph is what steps of the controller made of the first. -/
structure Onward (g g' : Graph) : Prop where
  sorter : g.sorter.Onward g'.sorter
  tasks : ∀ t, (g'.tasks.get? t).map TaskInfo.kept = (g.tasks.get? t).map TaskInfo.kept

variable {g g' : Graph}

theorem Onward.refl (g : Graph) : Onward g g := ⟨.refl _, fun _ => rfl⟩

theorem Onward.trans {g'' : Graph} (h : Onward g g') (h' : Onward g' g'') : Onward g g'' :=
  ⟨h.sorter.trans h'.sorter, fun t => (h'.tasks t).trans (h.tasks t)⟩

theorem Onward.of_sorter {sorter : TopologicalSorter TaskID} (h : g.sorter.Onward sorter) : Onward g { g with sorter := sorter } :=
  ⟨h, fun _ => rfl⟩

theorem setState_onward (t : TaskID) (state : NodeTaskState) : Onward g (g.setInfo t ({ · with state := state })) := by
  refine ⟨?_, fun t' => ?_⟩
  · rw [sorter_setInfo]
    exact .refl _
  · rw [get?_setInfo]
    split
    · rw [Option.map_map]
      rfl
    · rfl

theorem setCanceled_onward (c : TaskCancelConfirm) : Onward g (g.setCanceled c) := by
  unfold setCanceled
  split
  · exact setState_onward _ _
  · exact .refl g
  · exact setState_onward _ _

theorem markNodeCanceled_onward {c : TaskCancelConfirm} {x : Except Exn Unit} (h : g.markNodeCanceled c = (x, g')) : Onward g g' := by
  rw [markNodeCanceled] at h
  split at h
  · obtain ⟨-, rfl⟩ := Prod.mk.inj h
    exact .refl _
  · obtain ⟨y, sorter, hdone⟩ : ∃ y sorter, g.sorter.done [c.taskId] = (y, sorter) := ⟨_, _, rfl⟩
    have honward := (TopologicalSorter.done_onward hdone).1
    have htasks := (setCanceled_onward (g := g) c).tasks
    rw [hdone] at h
    cases y with
    | error e =>
      obtain ⟨-, rfl⟩ := Prod.mk.inj h
      exact ⟨honward, htasks⟩
    | ok =>
      obtain ⟨-, rfl⟩ := Prod.mk.inj h
      exact ⟨honward, htasks⟩

theorem markAllCanceled_onward {ts : List TaskID} {x : Except Exn Unit} (h : markAllCanceled ts g = (x, g')) : Onward g g' := by
  induction ts generalizing g with
  | nil =>
    obtain ⟨-, rfl⟩ := Prod.mk.inj h
    exact .refl _
  | cons t ts ih =>
    obtain ⟨y, g₁, hmark⟩ : ∃ y g₁, g.markNodeCanceled ⟨t, .canceled⟩ = (y, g₁) := ⟨_, _, rfl⟩
    rw [markAllCanceled, hmark] at h
    cases y with
    | error e =>
      obtain ⟨-, rfl⟩ := Prod.mk.inj h
      exact markNodeCanceled_onward hmark
    | ok => exact (markNodeCanceled_onward hmark).trans (ih h)

theorem cancelInactive_onward {n : Nat} {x : Except Exn (List TaskCancelConfirm)} (h : cancelInactive n g = (x, g')) :
    Onward g g' := by
  induction n generalizing g g' x with
  | zero =>
    obtain ⟨-, rfl⟩ := Prod.mk.inj h
    exact .refl _
  | succ n ih =>
    rw [cancelInactive] at h
    split at h
    · obtain ⟨-, rfl⟩ := Prod.mk.inj h
      exact .refl _
    · obtain ⟨y, sorter, hready⟩ : ∃ y sorter, g.sorter.getReady = (y, sorter) := ⟨_, _, rfl⟩
      have honward := Onward.of_sorter (TopologicalSorter.getReady_onward hready).1
      rw [hready] at h
      cases y with
      | error e =>
        obtain ⟨-, rfl⟩ := Prod.mk.inj h
        exact honward
      | ok ready =>
        dsimp only at h
        split at h
        · obtain ⟨-, rfl⟩ := Prod.mk.inj h
          exact honward
        · obtain ⟨z, g₁, hmark⟩ : ∃ z g₁, markAllCanceled ready { g with sorter := sorter } = (z, g₁) := ⟨_, _, rfl⟩
          have hmarked := honward.trans (markAllCanceled_onward hmark)
          rw [hmark] at h
          cases z with
          | error e =>
            obtain ⟨-, rfl⟩ := Prod.mk.inj h
            exact hmarked
          | ok =>
            obtain ⟨-, rfl⟩ := Prod.mk.inj h
            exact hmarked.trans (ih rfl)

theorem tasks_cleanIntermediateResult (t : TaskID) (ds : List TaskID) (g : Graph) :
    (g.cleanIntermediateResult t ds).2.1.tasks = g.tasks := by
  induction ds generalizing g with
  | nil => rfl
  | cons d ds ih =>
    rw [cleanIntermediateResult]
    split
    · rfl
    · dsimp only
      split
      · exact ih _
      · split
        · exact ih _
        · split
          · rfl
          · exact ih _

/-- The node of a result, as `__mark_node_done` notes it first. -/
def reported (g : Graph) (r : TaskResult) : Graph :=
  g.setInfo r.taskId ({ · with resultObjectIds := r.results, state := nodeTaskState r.resultType })

theorem markNodeDone_onward {r : TaskResult} {x : Except Exn Unit} {deleted : List (TaskID × List ObjectID)}
    (h : g.markNodeDone r = (x, g', deleted)) :
    Onward (g.reported r) g' ∧ (x = .ok () → r.taskId ∉ g.sorter.doneKeys ∧ r.taskId ∈ g'.sorter.doneKeys) := by
  rw [markNodeDone] at h
  split at h
  · next hnone =>
    obtain ⟨hx, hrest⟩ := Prod.mk.inj h
    obtain ⟨rfl, -⟩ := Prod.mk.inj hrest
    subst hx
    refine ⟨?_, fun hok => by cases hok⟩
    rw [reported, setInfo, hnone]
    exact .refl _
  · next info hinfo =>
    dsimp only at h
    rw [← reported] at h
    have hstart : (g.reported r).sorter = g.sorter := sorter_setInfo _ _ _
    have hsorter := sorter_cleanIntermediateResult r.taskId info.task.requiredTaskIds (g.reported r)
    have htasks := tasks_cleanIntermediateResult r.taskId info.task.requiredTaskIds (g.reported r)
    obtain ⟨y, g₂, deleted', hclean⟩ : ∃ y g₂ deleted', (g.reported r).cleanIntermediateResult r.taskId info.task.requiredTaskIds =
        (y, g₂, deleted') := ⟨_, _, _, rfl⟩
    rw [hclean] at h hsorter htasks
    have hcleaned : Onward (g.reported r) g₂ := by
      refine ⟨?_, fun t => by rw [htasks]⟩
      rw [hsorter]
      exact .refl _
    have hsame : g₂.sorter = g.sorter := hsorter.trans hstart
    cases y with
    | error e =>
      obtain ⟨hx, hrest⟩ := Prod.mk.inj h
      obtain ⟨rfl, -⟩ := Prod.mk.inj hrest
      subst hx
      exact ⟨hcleaned, fun hok => by cases hok⟩
    | ok =>
      dsimp only at h
      obtain ⟨z, sorter, hdone⟩ : ∃ z sorter, g₂.sorter.done [r.taskId] = (z, sorter) := ⟨_, _, rfl⟩
      obtain ⟨honward, hnew⟩ := TopologicalSorter.done_onward hdone
      rw [hdone] at h
      rw [hsame] at hnew
      cases z with
      | error e =>
        obtain ⟨hx, hrest⟩ := Prod.mk.inj h
        obtain ⟨rfl, -⟩ := Prod.mk.inj hrest
        subst hx
        exact ⟨hcleaned.trans (.of_sorter honward), fun hok => by cases hok⟩
      | ok =>
        obtain ⟨hx, hrest⟩ := Prod.mk.inj h
        obtain ⟨rfl, -⟩ := Prod.mk.inj hrest
        subst hx
        exact ⟨hcleaned.trans ⟨honward, fun _ => rfl⟩, hnew⟩

end Graph

/-- What the graph controller is told, and what it does with the nodes. -/
def Obs.isGraph : Obs → Bool
  | .received _ (.graphTask _) | .graphRegistered _ _ | .submitted _ _ | .nodeDone _ _ _ _ _ _ => true
  | _ => false

def Sched.graphHistory (s : Sched) : List Obs := s.trace.filter Obs.isGraph

/-- The graphs that were registered under the id. -/
def registrations (g : TaskID) (h : List Obs) : List Nat :=
  h.filterMap fun
    | .graphRegistered g' ref => if g' = g then some ref else none
    | _ => none

def Obs.isSubmission (g t : TaskID) : Obs → Bool
  | .submitted g' task => g' = g ∧ task.taskId = t
  | _ => false

/-- The result of the node is accepted. -/
def Obs.isReport (g t : TaskID) : Obs → Bool
  | .nodeDone g' r _ _ _ none => g' = g ∧ r.taskId = t
  | _ => false

def Heard (h : List Obs) (client : ClientID) (gt : GraphTask) : Prop := .received client.bytes (.graphTask gt) ∈ h

/-- The argument `b` of a submitted task stands for the argument `a` of its node. -/
def Fills (g : TaskID) (h : List Obs) : Argument → Argument → Prop
  | .objectID id, b => b = .objectID id
  | .task d, b => ∃ r running undispatched deleted error o, .nodeDone g r running undispatched deleted error ∈ h ∧
      r.taskId = d ∧ r.results = [o] ∧ b = .objectID o

/-- A submitted task is a node of a graph that was received and registered, with the results that other nodes
have reported as its arguments. -/
def Obs.SubmitsFrom (h : List Obs) : Obs → Prop
  | .submitted g task => ∃ client gt node args, Heard h client gt ∧ gt.taskId = g ∧ (∃ ref, .graphRegistered g ref ∈ h) ∧
      node ∈ gt.graph ∧ task = { node with functionArgs := args } ∧ List.Forall₂ (Fills g h) node.functionArgs args
  | _ => True

def SubmitsSoundly : List Obs → Prop
  | [] => True
  | o :: h => o.SubmitsFrom h ∧ SubmitsSoundly h

theorem mem_registrations {g : TaskID} {h : List Obs} {ref : Nat} : ref ∈ registrations g h ↔ .graphRegistered g ref ∈ h := by
  unfold registrations
  rw [List.mem_filterMap]
  constructor
  · rintro ⟨o, ho, hsome⟩
    cases o with
    | graphRegistered g' ref' =>
      rw [Option.ite_none_right_eq_some] at hsome
      obtain ⟨rfl, hsome⟩ := hsome
      rwa [← Option.some.inj hsome]
    | _ => cases hsome
  · exact fun ho => ⟨_, ho, if_pos rfl⟩

theorem registrations_cons {g : TaskID} {o : Obs} {h : List Obs} (ho : ∀ g ref, o ≠ .graphRegistered g ref) :
    registrations g (o :: h) = registrations g h := by
  cases o with
  | graphRegistered g' ref => exact absurd rfl (ho g' ref)
  | _ => rfl

theorem registrations_registered (g g' : TaskID) (ref : Nat) (h : List Obs) :
    registrations g (.graphRegistered g' ref :: h) = if g' = g then ref :: registrations g h else registrations g h := by
  by_cases hg : g' = g
  · simp [registrations, hg]
  · simp [registrations, hg]

theorem SubmitsSoundly.split {later earlier h : List Obs} {o : Obs} (hs : SubmitsSoundly h) (hsplit : h = later ++ o :: earlier) :
    o.SubmitsFrom earlier := by
  induction later generalizing h with
  | nil =>
    subst hsplit
    exact hs.1
  | cons o' later ih =>
    subst hsplit
    exact ih hs.2 rfl

/-- Tokens of the graph controller that lead to a registered graph or to a submitted node. -/
def Tok.isGraph : Tok → Bool
  | .taken _ _ | .adding _ _ _ | .batch _ _ _ => true
  | _ => false

def Tok.isBatch (g t : TaskID) : Tok → Bool
  | .batch g' _ t' => g' = g ∧ t' = t
  | _ => false

def graphToks (t : Multiset Tok) : Multiset Tok := t.filter fun a => a.isGraph = true

@[simp] theorem graphToks_zero : graphToks 0 = 0 := rfl

@[simp] theorem graphToks_add (t u : Multiset Tok) : graphToks (t + u) = graphToks t + graphToks u := Multiset.filter_add _ _ _

theorem graphToks_eq_zero {t : Multiset Tok} (h : ∀ a ∈ t, a.isGraph = false) : graphToks t = 0 := by
  refine Multiset.filter_eq_nil.mpr fun a ha => ?_
  simp [h a ha]

theorem graphToks_toks {α : Type} {f : α → Tok} {l : List α} (h : ∀ a, (f a).isGraph = false) : graphToks (toks f l) = 0 := by
  refine graphToks_eq_zero fun a ha => ?_
  obtain ⟨x, -, rfl⟩ := mem_toks.mp ha
  exact h x

theorem graphToks_batch (g : TaskID) (ref : Nat) (ready : List TaskID) : graphToks (toks (.batch g ref) ready) = toks (.batch g ref) ready := by
  refine Multiset.filter_eq_self.mpr fun a ha => ?_
  obtain ⟨x, -, rfl⟩ := mem_toks.mp ha
  rfl

/-- What the graph controller relies on between two steps, with the tokens of its coroutines. -/
structure Sched.Serves (s : Sched) (T : Multiset Tok) : Prop where
  queue : ∀ p ∈ s.graphQueue, Heard s.graphHistory p.1 p.2
  taken : ∀ client gt, .taken client gt ∈ T → Heard s.graphHistory client gt
  adding : ∀ client gt done, .adding client gt done ∈ T → Heard s.graphHistory client gt
  batch : ∀ g ref t, .batch g ref t ∈ T → ref ∈ registrations g s.graphHistory
  registered : ∀ g ref, s.graphTaskIdToGraph.get? g = some ref → ref ∈ registrations g s.graphHistory
  fresh : ∀ g ref, ref ∈ registrations g s.graphHistory → ref < s.nextGraph
  apart : ∀ g g' ref, ref ∈ registrations g s.graphHistory → ref ∈ registrations g' s.graphHistory → g = g'
  nodup : ∀ g, (registrations g s.graphHistory).Nodup
  message : ∀ g ref, ref ∈ registrations g s.graphHistory → ∃ client gt, Heard s.graphHistory client gt ∧ gt.taskId = g ∧
    ∀ t, ((s.graphs ref).tasks.get? t).map (·.task) = ((NewGraph.ofTasks gt.graph).tasks.get? t).map (·.task)
  serving : ∀ ref, (s.graphs ref).sorter.Serving
  results : ∀ ref t info, (s.graphs ref).tasks.get? t = some info → info.resultObjectIds ≠ [] →
    ∃ g r running undispatched deleted error, .nodeDone g r running undispatched deleted error ∈ s.graphHistory ∧
      ref ∈ registrations g s.graphHistory ∧ r.taskId = t ∧ r.results = info.resultObjectIds
  submissions : ∀ g t, s.graphHistory.countP (Obs.isSubmission g t) + T.countP (fun a => a.isBatch g t = true) ≤
    (registrations g s.graphHistory).countP fun ref => (s.graphs ref).sorter.Handed t
  reports : ∀ g t, s.graphHistory.countP (Obs.isReport g t) ≤
    (registrations g s.graphHistory).countP fun ref => t ∈ (s.graphs ref).sorter.doneKeys
  sound : SubmitsSoundly s.graphHistory

/-- The controller went on without hearing of a graph, submitting a node or accepting a result. -/
structure Sched.Idles (s s' : Sched) : Prop where
  queue : ∀ p ∈ s'.graphQueue, p ∈ s.graphQueue
  refs : ∀ g ref, s'.graphTaskIdToGraph.get? g = some ref → s.graphTaskIdToGraph.get? g = some ref
  next : s'.nextGraph = s.nextGraph
  graphs : ∀ ref, (s.graphs ref).Onward (s'.graphs ref)
  history : s'.graphHistory = s.graphHistory

section Frame

variable {s s' s'' : Sched} {T T' : Multiset Tok}

theorem Sched.Idles.refl (s : Sched) : s.Idles s := ⟨fun _ hp => hp, fun _ _ hr => hr, rfl, fun _ => .refl _, rfl⟩

theorem Sched.Idles.trans (h : s.Idles s') (h' : s'.Idles s'') : s.Idles s'' where
  queue p hp := h.queue p (h'.queue p hp)
  refs g ref hr := h.refs g ref (h'.refs g ref hr)
  next := h'.next.trans h.next
  graphs ref := (h.graphs ref).trans (h'.graphs ref)
  history := h'.history.trans h.history

theorem Sched.Idles.of_view (h : s'.graphView = s.graphView) (hhistory : s'.graphHistory = s.graphHistory) : s.Idles s' where
  queue p hp := by
    rwa [show s.graphQueue = s'.graphQueue from (congrArg GraphView.graphQueue h).symm]
  refs g ref hr := by
    rwa [show s.graphTaskIdToGraph = s'.graphTaskIdToGraph from (congrArg GraphView.graphTaskIdToGraph h).symm]
  next := congrArg GraphView.nextGraph h
  graphs ref := by
    rw [show s'.graphs = s.graphs from congrArg GraphView.graphs h]
    exact .refl _
  history := hhistory

theorem Sched.Idles.setGraph {ref : Nat} {g : Graph} (h : (s.graphs ref).Onward g) : s.Idles (s.setGraph ref g) := by
  refine ⟨fun _ hp => hp, fun _ _ hr => hr, rfl, fun r => ?_, rfl⟩
  change (s.graphs r).Onward (Function.update s.graphs ref g r)
  by_cases hr : r = ref
  · subst hr
    rwa [Function.update_self]
  · rw [Function.update_of_ne hr]
    exact .refl _

theorem Sched.Idles.note {o : Obs} (h : s.Idles s') (ho : o.isGraph = false) : s.Idles (s'.note o) := by
  refine h.trans (.of_view rfl ?_)
  change (o :: s'.trace).filter Obs.isGraph = _
  rw [List.filter_cons_of_neg (by simp [ho])]
  rfl

/-- Fewer tokens and idle steps keep everything. -/
theorem Sched.Serves.idle (h : s.Serves T) (hi : s.Idles s') (ht : T' ≤ T) : s'.Serves T' := by
  have hmem : ∀ a ∈ T', a ∈ T := fun a ha => Multiset.mem_of_le ht ha
  have hkept : ∀ ref t, ((s'.graphs ref).tasks.get? t).map (·.task) = ((s.graphs ref).tasks.get? t).map (·.task) := by
    intro ref t
    have htasks := congrArg (Option.map Prod.fst) ((hi.graphs ref).tasks t)
    rwa [Option.map_map, Option.map_map] at htasks
  constructor
  · exact fun p hp => hi.history ▸ h.queue p (hi.queue p hp)
  · exact fun client gt ha => hi.history ▸ h.taken client gt (hmem _ ha)
  · exact fun client gt done ha => hi.history ▸ h.adding client gt done (hmem _ ha)
  · exact fun g ref t ha => hi.history ▸ h.batch g ref t (hmem _ ha)
  · exact fun g ref hr => hi.history ▸ h.registered g ref (hi.refs g ref hr)
  · intro g ref hr
    rw [hi.next]
    exact h.fresh g ref (hi.history ▸ hr)
  · exact fun g g' ref hr hr' => h.apart g g' ref (hi.history ▸ hr) (hi.history ▸ hr')
  · exact fun g => hi.history ▸ h.nodup g
  · intro g ref hr
    obtain ⟨client, gt, hheard, hid, htasks⟩ := h.message g ref (hi.history ▸ hr)
    exact ⟨client, gt, hi.history ▸ hheard, hid, fun t => (hkept ref t).trans (htasks t)⟩
  · exact fun ref => (hi.graphs ref).sorter.serving (h.serving ref)
  · intro ref t info hinfo hresults
    have htasks := (hi.graphs ref).tasks t
    rw [hinfo, Option.map_some, eq_comm, Option.map_eq_some_iff] at htasks
    obtain ⟨info', hinfo', hsame⟩ := htasks
    have heq : info'.resultObjectIds = info.resultObjectIds := congrArg Prod.snd hsame
    rw [hi.history, ← heq]
    exact h.results ref t info' hinfo' (heq ▸ hresults)
  · intro g t
    rw [hi.history]
    have hfewer := Multiset.countP_le_of_le (fun a : Tok => a.isBatch g t = true) ht
    have hmore : (registrations g s.graphHistory).countP (fun ref => (s.graphs ref).sorter.Handed t) ≤
        (registrations g s.graphHistory).countP fun ref => (s'.graphs ref).sorter.Handed t := by
      refine List.countP_mono_left fun ref _ hhanded => decide_eq_true ?_
      exact (hi.graphs ref).sorter.handed (h.serving ref) t (of_decide_eq_true hhanded)
    have hold := h.submissions g t
    omega
  · intro g t
    rw [hi.history]
    refine (h.reports g t).trans (List.countP_mono_left fun ref _ hdone => decide_eq_true ?_)
    exact (hi.graphs ref).sorter.doneKeys t (of_decide_eq_true hdone)
  · exact hi.history ▸ h.sound

end Frame

theorem countP_gain {α : Type} {p q : α → Bool} {l : List α} (h : ∀ x ∈ l, p x = true → q x = true) {a : α} (ha : a ∈ l)
    (hp : p a = false) (hq : q a = true) : l.countP p + 1 ≤ l.countP q := by
  induction l with
  | nil => exact absurd ha List.not_mem_nil
  | cons b l ih =>
    have hrest : ∀ x ∈ l, p x = true → q x = true := fun x hx => h x (List.mem_cons_of_mem _ hx)
    have hmono := List.countP_mono_left hrest
    have hhead : p b = true → q b = true := h b List.mem_cons_self
    rw [List.countP_cons, List.countP_cons]
    rcases List.mem_cons.mp ha with rfl | ha
    · simp only [hp, hq, Bool.false_eq_true, if_false, if_true]
      omega
    · have hgain := ih hrest ha
      by_cases hb : p b = true
      · rw [if_pos hb, if_pos (hhead hb)]
        omega
      · rw [if_neg hb]
        split <;> omega

/-- How many tokens of the nodes that become ready are about the node `t`. -/
theorem countP_batch (g g' t : TaskID) (ref : Nat) (ready : List TaskID) :
    (toks (.batch g ref) ready).countP (fun a => a.isBatch g' t = true) = if g = g' then ready.count t else 0 := by
  unfold toks
  rw [Multiset.coe_countP, List.countP_map]
  by_cases hg : g = g'
  · rw [if_pos hg, List.count]
    refine List.countP_congr fun u _ => ?_
    simp [Tok.isBatch, hg]
  · rw [if_neg hg]
    refine List.countP_eq_zero.mpr fun u _ => ?_
    simp [Tok.isBatch, hg]

theorem NewGraph.resultObjectIds_ofTasks {tasks : List Task} {t : TaskID} {info : TaskInfo} (h : (ofTasks tasks).tasks.get? t = some info) :
    info.resultObjectIds = [] := by
  induction tasks using List.reverseRecOn with
  | nil => cases h
  | append_singleton tasks task ih =>
    rw [ofTasks, List.foldl_append] at h
    change ((ofTasks tasks).tasks.set task.taskId ⟨.inactive, task, []⟩).get? t = some info at h
    rw [Dict.get?_set] at h
    split at h
    · rw [← Option.some.inj h]
    · exact ih h

section Moves

variable {s s' : Sched} {T T' : Multiset Tok} {g : TaskID} {ref : Nat} {t : TaskID} {client : ClientID} {gt : GraphTask}

theorem Fills.mono {h h' : List Obs} (hsub : ∀ o ∈ h, o ∈ h') {a b : Argument} (hf : Fills g h a b) : Fills g h' a b := by
  cases a with
  | objectID id => exact hf
  | task d =>
    obtain ⟨r, running, undispatched, deleted, error, o, hmem, hrest⟩ := hf
    exact ⟨r, running, undispatched, deleted, error, o, hsub _ hmem, hrest⟩

/-- An observation that is neither a registration nor a report; a submission uses up a token. -/
theorem Sched.Serves.observe (h : s.Serves T) {o : Obs} (hregistered : ∀ g ref, o ≠ .graphRegistered g ref)
    (hreports : ∀ g t, o.isReport g t = false) (hsound : o.SubmitsFrom s.graphHistory) (hview : s'.graphView = s.graphView)
    (hhistory : s'.graphHistory = o :: s.graphHistory) (hle : T' ≤ T)
    (hsubmits : ∀ g t, (if o.isSubmission g t = true then 1 else 0) + T'.countP (fun a => a.isBatch g t = true) ≤
      T.countP fun a => a.isBatch g t = true) : s'.Serves T' := by
  have hmem : ∀ a ∈ T', a ∈ T := fun a ha => Multiset.mem_of_le hle ha
  have hqueue : s'.graphQueue = s.graphQueue := congrArg GraphView.graphQueue hview
  have hrefs : s'.graphTaskIdToGraph = s.graphTaskIdToGraph := congrArg GraphView.graphTaskIdToGraph hview
  have hgraphs : s'.graphs = s.graphs := congrArg GraphView.graphs hview
  have hnext : s'.nextGraph = s.nextGraph := congrArg GraphView.nextGraph hview
  have hregistrations : ∀ g, registrations g s'.graphHistory = registrations g s.graphHistory := by
    intro g
    rw [hhistory, registrations_cons hregistered]
  have hmore : ∀ o' ∈ s.graphHistory, o' ∈ s'.graphHistory := fun o' ho' => hhistory ▸ List.mem_cons_of_mem o ho'
  constructor
  · exact fun p hp => hmore _ (h.queue p (hqueue ▸ hp))
  · exact fun client gt ha => hmore _ (h.taken client gt (hmem _ ha))
  · exact fun client gt done ha => hmore _ (h.adding client gt done (hmem _ ha))
  · exact fun g ref t ha => hregistrations g ▸ h.batch g ref t (hmem _ ha)
  · exact fun g ref hr => hregistrations g ▸ h.registered g ref (hrefs ▸ hr)
  · intro g ref hr
    rw [hnext]
    exact h.fresh g ref (hregistrations g ▸ hr)
  · exact fun g g' ref hr hr' => h.apart g g' ref (hregistrations g ▸ hr) (hregistrations g' ▸ hr')
  · exact fun g => hregistrations g ▸ h.nodup g
  · intro g ref hr
    obtain ⟨client, gt, hheard, hid, htasks⟩ := h.message g ref (hregistrations g ▸ hr)
    exact ⟨client, gt, hmore _ hheard, hid, fun t => hgraphs ▸ htasks t⟩
  · exact fun ref => hgraphs ▸ h.serving ref
  · intro ref t info hinfo hresults
    obtain ⟨g, r, running, undispatched, deleted, error, hmem, hr, hrest⟩ := h.results ref t info (hgraphs ▸ hinfo) hresults
    exact ⟨g, r, running, undispatched, deleted, error, hmore _ hmem, hregistrations g ▸ hr, hrest⟩
  · intro g t
    rw [hregistrations, hgraphs, hhistory, List.countP_cons]
    have hold := h.submissions g t
    have hused := hsubmits g t
    omega
  · intro g t
    rw [hregistrations, hgraphs, hhistory, List.countP_cons_of_neg (by simp [hreports])]
    exact h.reports g t
  · rw [hhistory]
    exact ⟨hsound, h.sound⟩

theorem Sched.Serves.hear (h : s.Serves T) {source : Nat} {gt : GraphTask} (hview : s'.graphView = s.graphView)
    (hhistory : s'.graphHistory = .received source (.graphTask gt) :: s.graphHistory) : s'.Serves T :=
  h.observe (o := .received source (.graphTask gt)) (fun _ _ heq => by cases heq) (fun _ _ => rfl) trivial hview hhistory le_rfl
    fun _ _ => (Nat.zero_add _).le

theorem Sched.Serves.enqueue (h : s.Serves T) (hheard : Heard s.graphHistory client gt) :
    { s with graphQueue := s.graphQueue ++ [(client, gt)] }.Serves T := by
  refine { h with queue := fun p hp => ?_ }
  rcases List.mem_append.mp hp with hp | hp
  · exact h.queue p hp
  · rw [List.mem_singleton.mp hp]
    exact hheard

/-- A message on its way through the queue. -/
theorem Sched.Serves.carry (h : s.Serves T) {a : Tok} (hle : T' ≤ a ::ₘ T) (ha : ∀ g t, a.isBatch g t = false)
    (htaken : ∀ client gt, a = .taken client gt → Heard s.graphHistory client gt)
    (hadding : ∀ client gt done, a = .adding client gt done → Heard s.graphHistory client gt) : s.Serves T' := by
  have hbatch : ∀ g ref t, a ≠ .batch g ref t := by
    rintro g ref t rfl
    have hself := ha g t
    rw [Tok.isBatch, decide_eq_false_iff_not] at hself
    exact hself ⟨rfl, rfl⟩
  have hmem : ∀ b ∈ T', b = a ∨ b ∈ T := fun b hb => Multiset.mem_cons.mp (Multiset.mem_of_le hle hb)
  refine { h with taken := fun client gt hb => ?_, adding := fun client gt done hb => ?_, batch := fun g ref t hb => ?_,
                  submissions := fun g t => ?_ }
  · exact (hmem _ hb).elim (fun heq => htaken client gt heq.symm) (h.taken client gt)
  · exact (hmem _ hb).elim (fun heq => hadding client gt done heq.symm) (h.adding client gt done)
  · exact (hmem _ hb).elim (fun heq => absurd heq.symm (hbatch g ref t)) (h.batch g ref t)
  · have hfewer := Multiset.countP_le_of_le (fun b : Tok => b.isBatch g t = true) hle
    rw [Multiset.countP_cons_of_neg (p := fun b : Tok => b.isBatch g t = true) T (by simp [ha])] at hfewer
    have hold := h.submissions g t
    omega

theorem graphHistory_cons {o : Obs} (h : s'.trace = o :: s.trace) (ho : o.isGraph = true) : s'.graphHistory = o :: s.graphHistory := by
  rw [Sched.graphHistory, h, List.filter_cons_of_pos ho]
  rfl

theorem Sched.Serves.register (h : s.Serves T) {sorter : TopologicalSorter TaskID} (hheard : Heard s.graphHistory client gt)
    (hprepare : (NewGraph.ofTasks gt.graph).prepare = .ok sorter) :
    (s.registerGraph gt.taskId (Graph.ofTasks client gt sorter)).Serves T := by
  set graph := Graph.ofTasks client gt sorter with hgraph
  have hhistory : (s.registerGraph gt.taskId graph).graphHistory = .graphRegistered gt.taskId s.nextGraph :: s.graphHistory :=
    graphHistory_cons rfl rfl
  have hnew : ∀ g, s.nextGraph ∉ registrations g s.graphHistory := fun g hmem => absurd (h.fresh g _ hmem) (Nat.lt_irrefl _)
  have hregistrations : ∀ g, registrations g (s.registerGraph gt.taskId graph).graphHistory =
      if gt.taskId = g then s.nextGraph :: registrations g s.graphHistory else registrations g s.graphHistory := by
    intro g
    rw [hhistory, registrations_registered]
  have hself : (s.registerGraph gt.taskId graph).graphs s.nextGraph = graph := Function.update_self _ _ _
  have hother : ∀ g ref, ref ∈ registrations g s.graphHistory → (s.registerGraph gt.taskId graph).graphs ref = s.graphs ref := by
    intro g ref hr
    refine Function.update_of_ne ?_ _ _
    rintro rfl
    exact hnew g hr
  have hold : ∀ g ref, ref ∈ registrations g s.graphHistory → ref ∈ registrations g (s.registerGraph gt.taskId graph).graphHistory := by
    intro g ref hr
    rw [hregistrations]
    split
    · exact List.mem_cons_of_mem _ hr
    · exact hr
  have hcases : ∀ g ref, ref ∈ registrations g (s.registerGraph gt.taskId graph).graphHistory →
      gt.taskId = g ∧ ref = s.nextGraph ∨ ref ∈ registrations g s.graphHistory := by
    intro g ref hr
    rw [hregistrations] at hr
    split at hr
    · next heq => exact (List.mem_cons.mp hr).imp_left fun href => ⟨heq, href⟩
    · exact .inr hr
  have hmore : ∀ o ∈ s.graphHistory, o ∈ (s.registerGraph gt.taskId graph).graphHistory := fun o ho => hhistory ▸ List.mem_cons_of_mem _ ho
  have hcount : ∀ (p : TopologicalSorter TaskID → Bool) g, (registrations g s.graphHistory).countP (fun ref => p (s.graphs ref).sorter) ≤
      (registrations g (s.registerGraph gt.taskId graph).graphHistory).countP
        fun ref => p ((s.registerGraph gt.taskId graph).graphs ref).sorter := by
    intro p g
    have hsame : (registrations g s.graphHistory).countP (fun ref => p (s.graphs ref).sorter) =
        (registrations g s.graphHistory).countP fun ref => p ((s.registerGraph gt.taskId graph).graphs ref).sorter :=
      List.countP_congr fun ref hr => by rw [hother g ref hr]
    rw [hsame, hregistrations]
    split
    · rw [List.countP_cons]
      omega
    · exact Nat.le_refl _
  constructor
  · exact fun p hp => hmore _ (h.queue p hp)
  · exact fun client gt ha => hmore _ (h.taken client gt ha)
  · exact fun client gt done ha => hmore _ (h.adding client gt done ha)
  · exact fun g ref t ha => hold g ref (h.batch g ref t ha)
  · intro g ref hr
    change (s.graphTaskIdToGraph.set gt.taskId s.nextGraph).get? g = some ref at hr
    rw [Dict.get?_set] at hr
    split at hr
    · next heq =>
      rw [hregistrations, if_pos heq.symm, Option.some.inj hr]
      exact List.mem_cons_self
    · exact hold g ref (h.registered g ref hr)
  · intro g ref hr
    change ref < s.nextGraph + 1
    rcases hcases g ref hr with ⟨-, rfl⟩ | hr
    · exact Nat.lt_succ_self _
    · exact Nat.lt_succ_of_lt (h.fresh g ref hr)
  · intro g g' ref hr hr'
    rcases hcases g ref hr with ⟨rfl, rfl⟩ | hr
    · rcases hcases g' _ hr' with ⟨rfl, -⟩ | hr'
      · rfl
      · exact absurd hr' (hnew g')
    · rcases hcases g' ref hr' with ⟨-, rfl⟩ | hr'
      · exact absurd hr (hnew g)
      · exact h.apart g g' ref hr hr'
  · intro g
    rw [hregistrations]
    split
    · exact List.nodup_cons.mpr ⟨hnew g, h.nodup g⟩
    · exact h.nodup g
  · intro g ref hr
    rcases hcases g ref hr with ⟨rfl, rfl⟩ | hr
    · exact ⟨client, gt, hmore _ hheard, rfl, fun t => by rw [hself]; rfl⟩
    · obtain ⟨client', gt', hheard', hid, htasks⟩ := h.message g ref hr
      exact ⟨client', gt', hmore _ hheard', hid, fun t => by rw [hother g ref hr]; exact htasks t⟩
  · intro ref
    change (Function.update s.graphs s.nextGraph graph ref).sorter.Serving
    by_cases hr : ref = s.nextGraph
    · rw [hr, Function.update_self]
      change sorter.Serving
      rw [NewGraph.prepare_ok hprepare]
      exact TopologicalSorter.serving_prepare _
    · rw [Function.update_of_ne hr]
      exact h.serving ref
  · intro ref t info hinfo hresults
    change (Function.update s.graphs s.nextGraph graph ref).tasks.get? t = some info at hinfo
    by_cases hr : ref = s.nextGraph
    · rw [hr, Function.update_self] at hinfo
      exact absurd (NewGraph.resultObjectIds_ofTasks hinfo) hresults
    · rw [Function.update_of_ne hr] at hinfo
      obtain ⟨g, r, running, undispatched, deleted, error, hmem, hr, hrest⟩ := h.results ref t info hinfo hresults
      exact ⟨g, r, running, undispatched, deleted, error, hmore _ hmem, hold g ref hr, hrest⟩
  · intro g t
    rw [hhistory, List.countP_cons_of_neg (by simp [Obs.isSubmission])]
    rw [hhistory] at hcount
    exact (h.submissions g t).trans (hcount (fun sorter => sorter.Handed t) g)
  · intro g t
    rw [hhistory, List.countP_cons_of_neg (by simp [Obs.isReport])]
    rw [hhistory] at hcount
    exact (h.reports g t).trans (hcount (fun sorter => t ∈ sorter.doneKeys) g)
  · rw [hhistory]
    exact ⟨trivial, h.sound⟩

/-- The ready nodes are handed to the coroutine that submits them. -/
theorem Sched.Serves.handOut (h : s.Serves T) {ready : List TaskID} {sorter : TopologicalSorter TaskID}
    (hr : ref ∈ registrations g s.graphHistory) (hready : (s.graphs ref).sorter.getReady = (.ok ready, sorter)) :
    (s.setGraph ref { s.graphs ref with sorter := sorter }).Serves (toks (.batch g ref) ready + T) := by
  obtain ⟨honward, hrest⟩ := TopologicalSorter.getReady_onward hready
  obtain ⟨hreadyNodes, hhanded⟩ := hrest ready rfl
  have hidle : s.Idles (s.setGraph ref { s.graphs ref with sorter := sorter }) := .setGraph (.of_sorter honward)
  have hkept := h.idle hidle (le_refl T)
  refine { hkept with taken := fun client gt ha => ?_, adding := fun client gt done ha => ?_, batch := fun g' ref' t ha => ?_,
                      submissions := fun g' t => ?_ }
  · rcases Multiset.mem_add.mp ha with ha | ha
    · obtain ⟨x, -, hx⟩ := mem_toks.mp ha
      cases hx
    · exact hkept.taken client gt ha
  · rcases Multiset.mem_add.mp ha with ha | ha
    · obtain ⟨x, -, hx⟩ := mem_toks.mp ha
      cases hx
    · exact hkept.adding client gt done ha
  · rcases Multiset.mem_add.mp ha with ha | ha
    · obtain ⟨x, -, hx⟩ := mem_toks.mp ha
      obtain ⟨rfl, rfl, rfl⟩ := Tok.batch.inj hx
      exact hr
    · exact hkept.batch g' ref' t ha
  · rw [Multiset.countP_add, countP_batch]
    have hold := h.submissions g' t
    have hstill := hkept.submissions g' t
    have hgraph : (s.setGraph ref { s.graphs ref with sorter := sorter }).graphs ref = { s.graphs ref with sorter := sorter } :=
      Function.update_self _ _ _
    by_cases hg : g = g'
    · subst hg
      by_cases ht : t ∈ ready
      · have hnodup : ready.Nodup := hreadyNodes ▸ (h.serving ref).readyNodup
        have hgain := countP_gain (p := fun ref => decide ((s.graphs ref).sorter.Handed t))
          (q := fun r => decide (((s.setGraph ref { s.graphs ref with sorter := sorter }).graphs r).sorter.Handed t))
          (fun r _ hp => decide_eq_true ((hidle.graphs r).sorter.handed (h.serving r) t (of_decide_eq_true hp))) hr
          (decide_eq_false fun hp => hp.2 (hreadyNodes ▸ ht))
          (decide_eq_true (by rw [hgraph]; exact hhanded (h.serving ref) t ht))
        rw [if_pos rfl, List.count_eq_one_of_mem hnodup ht]
        change s.graphHistory.countP (Obs.isSubmission g t) + (1 + T.countP (fun a => a.isBatch g t = true)) ≤
          (registrations g s.graphHistory).countP _
        omega
      · rw [if_pos rfl, List.count_eq_zero_of_not_mem ht, Nat.zero_add]
        exact hstill
    · rw [if_neg hg, Nat.zero_add]
      exact hstill

theorem Sched.submitNode_idles {t : TaskID} {x : Except Exn Task} (h : s.submitNode g ref t = (x, s')) :
    ((∃ e, x = .error e) ∧ s.Idles s') ∨ ∃ info s₁ args, (s.graphs ref).tasks.get? t = some info ∧ s.Idles s₁ ∧
      Graph.argumentObjects (s₁.graph? g) info.task.functionArgs = .ok args ∧
      x = .ok { info.task with functionArgs := args } ∧ s' = s₁.note (.submitted g { info.task with functionArgs := args }) := by
  rw [Sched.submitNode] at h
  split at h
  · obtain ⟨rfl, rfl⟩ := Prod.mk.inj h
    exact .inl ⟨⟨_, rfl⟩, .refl s⟩
  · next info hinfo =>
    dsimp only at h
    set s₁ := s.setGraph ref { (s.graphs ref).setInfo t ({ · with state := .running }) with
      runningTaskIds := (s.graphs ref).runningTaskIds.insert t } with hs₁
    have hidle : s.Idles s₁ := .setGraph ((Graph.setState_onward t .running).trans ⟨.refl _, fun _ => rfl⟩)
    split at h
    · obtain ⟨rfl, rfl⟩ := Prod.mk.inj h
      exact .inl ⟨⟨_, rfl⟩, hidle⟩
    · next args hargs =>
      obtain ⟨rfl, rfl⟩ := Prod.mk.inj h
      exact .inr ⟨info, s₁, args, hinfo, hidle, hargs, rfl, rfl⟩

/-- The results that stand in a graph of the id were reported for a graph of the id. -/
theorem Sched.Serves.fills (h : s.Serves T) {as bs : List Argument} (hargs : Graph.argumentObjects (s.graph? g) as = .ok bs) :
    List.Forall₂ (Fills g s.graphHistory) as bs := by
  refine List.Forall₂.imp (fun a b hresolved => ?_) (Graph.argumentObjects_ok hargs)
  cases a with
  | objectID id => exact hresolved
  | task d =>
    obtain ⟨graph, info, o, hgraph, hinfo, hone, rfl⟩ := hresolved
    rw [Sched.graph?, Option.map_eq_some_iff] at hgraph
    obtain ⟨ref, href, rfl⟩ := hgraph
    obtain ⟨g', r, running, undispatched, deleted, error, hmem, hr, hid, hresults⟩ :=
      h.results ref d info hinfo (by simp [hone])
    obtain rfl := h.apart g' g ref hr (h.registered g ref href)
    exact ⟨r, running, undispatched, deleted, error, o, hmem, hid, hresults.trans hone, rfl⟩

theorem Sched.Serves.submit (h : s.Serves (.batch g ref t ::ₘ T)) {task : Task} (hsubmit : s.submitNode g ref t = (.ok task, s')) :
    s'.Serves T := by
  have hr := h.batch g ref t (Multiset.mem_cons_self _ _)
  obtain ⟨⟨e, herror⟩, -⟩ | ⟨info, s₁, args, hinfo, hidle, hargs, hok, rfl⟩ := Sched.submitNode_idles hsubmit
  · cases herror
  · obtain rfl := Except.ok.inj hok
    have hkept := h.idle hidle le_rfl
    obtain ⟨client, gt, hheard, hid, htasks⟩ := h.message g ref hr
    have hreads := NewGraph.reads_ofTasks gt.graph
    obtain ⟨node, hnode, hsame⟩ : ∃ node, (NewGraph.ofTasks gt.graph).tasks.get? t = some node ∧ node.task = info.task := by
      have hmap := htasks t
      rwa [hinfo, Option.map_some, eq_comm, Option.map_eq_some_iff] at hmap
    obtain ⟨hkey, hmem⟩ := hreads.node t node hnode
    rw [hsame] at hkey hmem
    rw [← hidle.history] at hheard hr
    refine hkept.observe (o := .submitted g { info.task with functionArgs := args }) (fun _ _ heq => by cases heq) (fun _ _ => rfl)
      ⟨client, gt, info.task, args, hheard, hid, ⟨ref, mem_registrations.mp hr⟩, hmem, rfl, hkept.fills hargs⟩ rfl
      (graphHistory_cons rfl rfl) (Multiset.le_cons_self _ _) fun g' t' => ?_
    rw [Multiset.countP_cons]
    have hsame : Obs.isSubmission g' t' (.submitted g { info.task with functionArgs := args }) = Tok.isBatch g' t' (.batch g ref t) := by
      simp [Obs.isSubmission, Tok.isBatch, hkey]
    rw [hsame]
    omega

theorem Sched.Serves.accept (h : s.Serves T) {r : TaskResult} {y : Except Exn Unit} {graph : Graph}
    {deleted deleted' : List (TaskID × List ObjectID)} {running undispatched : List TaskID} {error : Option Exn}
    (hr : ref ∈ registrations g s.graphHistory) (hmark : (s.graphs ref).markNodeDone r = (y, graph, deleted)) (herror : error = none → y = .ok ())
    (hqueue : s'.graphQueue = s.graphQueue) (hrefs : s'.graphTaskIdToGraph = s.graphTaskIdToGraph) (hnext : s'.nextGraph = s.nextGraph)
    (hgraphs : s'.graphs = Function.update s.graphs ref graph)
    (hhistory : s'.graphHistory = .nodeDone g r running undispatched deleted' error :: s.graphHistory) : s'.Serves T := by
  obtain ⟨honward, hnew⟩ := Graph.markNodeDone_onward hmark
  have hself : s'.graphs ref = graph := by rw [hgraphs, Function.update_self]
  have hother : ∀ r', r' ≠ ref → s'.graphs r' = s.graphs r' := fun r' hne => by rw [hgraphs, Function.update_of_ne hne]
  have hsorter : ∀ r', (s.graphs r').sorter.Onward (s'.graphs r').sorter := by
    intro r'
    by_cases hne : r' = ref
    · rw [hne, hself, ← show ((s.graphs ref).reported r).sorter = (s.graphs ref).sorter from Graph.sorter_setInfo _ _ _]
      exact honward.sorter
    · rw [hother r' hne]
      exact .refl _
  have hregistrations : ∀ g', registrations g' s'.graphHistory = registrations g' s.graphHistory := by
    intro g'
    rw [hhistory, registrations_cons fun _ _ heq => by cases heq]
  have hmore : ∀ o ∈ s.graphHistory, o ∈ s'.graphHistory := fun o ho => hhistory ▸ List.mem_cons_of_mem _ ho
  have hinfos : ∀ t info, graph.tasks.get? t = some info → ∃ info', (s.graphs ref).tasks.get? t = some info' ∧ info'.task = info.task ∧
      (info'.resultObjectIds = info.resultObjectIds ∨ t = r.taskId ∧ r.results = info.resultObjectIds) := by
    intro t info hinfo
    have hkept := honward.tasks t
    rw [hinfo, Option.map_some, eq_comm, Option.map_eq_some_iff] at hkept
    obtain ⟨info₁, hinfo₁, hsame⟩ := hkept
    rw [Graph.reported, Graph.get?_setInfo] at hinfo₁
    have htask : info₁.task = info.task := congrArg Prod.fst hsame
    have hresults : info₁.resultObjectIds = info.resultObjectIds := congrArg Prod.snd hsame
    split at hinfo₁
    · next heq =>
      obtain ⟨info₀, hinfo₀, rfl⟩ := Option.map_eq_some_iff.mp hinfo₁
      exact ⟨info₀, hinfo₀, htask, .inr ⟨heq, hresults⟩⟩
    · exact ⟨info₁, hinfo₁, htask, .inl hresults⟩
  constructor
  · exact fun p hp => hmore _ (h.queue p (hqueue ▸ hp))
  · exact fun client gt ha => hmore _ (h.taken client gt ha)
  · exact fun client gt done ha => hmore _ (h.adding client gt done ha)
  · exact fun g ref t ha => hregistrations g ▸ h.batch g ref t ha
  · exact fun g ref hr => hregistrations g ▸ h.registered g ref (hrefs ▸ hr)
  · intro g ref hr
    rw [hnext]
    exact h.fresh g ref (hregistrations g ▸ hr)
  · exact fun g g' ref hr hr' => h.apart g g' ref (hregistrations g ▸ hr) (hregistrations g' ▸ hr')
  · exact fun g => hregistrations g ▸ h.nodup g
  · intro g' ref' hr'
    obtain ⟨client, gt, hheard, hid, htasks⟩ := h.message g' ref' (hregistrations g' ▸ hr')
    refine ⟨client, gt, hmore _ hheard, hid, fun t => ?_⟩
    by_cases hne : ref' = ref
    · rw [← htasks, hne, hself]
      have hkept := congrArg (Option.map Prod.fst) (honward.tasks t)
      rw [Option.map_map, Option.map_map] at hkept
      refine hkept.trans ?_
      rw [Graph.reported, Graph.get?_setInfo]
      split
      · rw [Option.map_map]
        rfl
      · rfl
    · rw [hother ref' hne]
      exact htasks t
  · exact fun r' => (hsorter r').serving (h.serving r')
  · intro ref' t info hinfo hresults
    by_cases hne : ref' = ref
    · rw [hne, hself] at hinfo
      obtain ⟨info', hinfo', -, hsame | ⟨rfl, hreport⟩⟩ := hinfos t info hinfo
      · rw [← hsame] at hresults
        obtain ⟨g', r', running', undispatched', deleted'', error', hmem, hr', hid, hids⟩ := h.results ref t info' hinfo' hresults
        rw [hne]
        exact ⟨g', r', running', undispatched', deleted'', error', hmore _ hmem, hregistrations g' ▸ hr', hid, hids.trans hsame⟩
      · rw [hne]
        refine ⟨g, r, running, undispatched, deleted', error, ?_, hregistrations g ▸ hr, rfl, hreport⟩
        rw [hhistory]
        exact List.mem_cons_self
    · rw [hother ref' hne] at hinfo
      obtain ⟨g', r', running', undispatched', deleted'', error', hmem, hr', hrest⟩ := h.results ref' t info hinfo hresults
      exact ⟨g', r', running', undispatched', deleted'', error', hmore _ hmem, hregistrations g' ▸ hr', hrest⟩
  · intro g' t
    rw [hregistrations, hhistory, List.countP_cons_of_neg (by simp [Obs.isSubmission])]
    refine (h.submissions g' t).trans (List.countP_mono_left fun r' _ hhanded => decide_eq_true ?_)
    exact (hsorter r').handed (h.serving r') t (of_decide_eq_true hhanded)
  · intro g' t
    have hmono : ∀ r' ∈ registrations g' s.graphHistory, decide (t ∈ (s.graphs r').sorter.doneKeys) = true →
        decide (t ∈ (s'.graphs r').sorter.doneKeys) = true :=
      fun r' _ hdone => decide_eq_true ((hsorter r').doneKeys t (of_decide_eq_true hdone))
    rw [hregistrations, hhistory, List.countP_cons]
    split
    · next hreport =>
      cases error with
      | some e => cases hreport
      | none =>
        obtain ⟨rfl, rfl⟩ := of_decide_eq_true hreport
        obtain ⟨hbefore, hafter⟩ := hnew (herror rfl)
        have hgain := countP_gain hmono hr (decide_eq_false hbefore) (decide_eq_true (by rw [hself]; exact hafter))
        have hold := h.reports g r.taskId
        omega
    · exact (h.reports g' t).trans (List.countP_mono_left hmono)
  · rw [hhistory]
    exact ⟨trivial, h.sound⟩

theorem Sched.Serves.report (h : s.Serves T) {r : TaskResult} {x : Except Exn Unit} (hdone : s.markNodeDone r = (x, s')) : s'.Serves T := by
  cases hg : s.taskIdToGraphTaskId.get? r.taskId with
  | none =>
    rw [Sched.markNodeDone, hg] at hdone
    obtain ⟨-, rfl⟩ := Prod.mk.inj hdone
    exact h.idle (.note (.refl s) rfl) le_rfl
  | some g =>
    cases hr : s.graphTaskIdToGraph.get? g with
    | none =>
      rw [Sched.markNodeDone, hg] at hdone
      dsimp only at hdone
      rw [hr] at hdone
      obtain ⟨-, rfl⟩ := Prod.mk.inj hdone
      refine h.idle (.note ⟨fun _ hp => hp, fun _ _ hr => hr, rfl, fun _ => .refl _, rfl⟩ rfl) le_rfl
    | some ref =>
      obtain ⟨tracker, deletedIds, heq⟩ := Sched.markNodeDone_eq hg hr
      rw [heq] at hdone
      obtain ⟨y, graph, deleted, hmark⟩ : ∃ y graph deleted, (s.graphs ref).markNodeDone r = (y, graph, deleted) := ⟨_, _, _, rfl⟩
      rw [hmark] at hdone
      obtain ⟨-, rfl⟩ := Prod.mk.inj hdone
      refine h.accept (h.registered g ref hr) hmark (fun herror => ?_) rfl rfl rfl rfl (graphHistory_cons rfl rfl)
      cases y with
      | error e => cases herror
      | ok => rfl

end Moves

section Steps

variable {i : Tid} {s s' : Sched} {t t' K : Multiset Tok} {g : TaskID}

theorem Sched.popGraph_idles (s : Sched) (g : TaskID) : s.Idles (s.popGraph g).2 := by
  have hfinish : s.Idles (s.onTaskFinish g) :=
    .of_view (congrArg Prod.fst (s.offTask_onTaskFinish g)) (congrArg (List.filter Obs.isGraph) (s.trace_onTaskFinish g))
  have hids : ∀ ids, (s.onTaskFinish g).Idles { s.onTaskFinish g with taskIdToGraphTaskId := ids } :=
    fun _ => ⟨fun _ hp => hp, fun _ _ hr => hr, rfl, fun _ => .refl _, rfl⟩
  rw [Sched.popGraph]
  split
  · exact hfinish
  · dsimp only
    split
    · exact hfinish.trans (hids _)
    · refine hfinish.trans ⟨fun _ hp => hp, fun g' ref hr => ?_, rfl, fun _ => .refl _, rfl⟩
      change ((s.onTaskFinish g).graphTaskIdToGraph.erase g).get? g' = some ref at hr
      rw [Dict.get?_erase] at hr
      split at hr
      · cases hr
      · exact hr

theorem PopStep.idles {m : Message} (h : PopStep g m s s' t) : s.Idles s' ∧ graphToks t = 0 := by
  have hpop := s.popGraph_idles g
  cases h with
  | ok h =>
    rw [h] at hpop
    exact ⟨hpop.note rfl, rfl⟩
  | sendFail h =>
    rw [h] at hpop
    exact ⟨hpop.note rfl, rfl⟩
  | popFail h =>
    rw [h] at hpop
    exact ⟨hpop.note rfl, rfl⟩

theorem Sched.acceptCancel_idles (s : Sched) (g : TaskID) (ref : Nat) : s.Idles (s.acceptCancel g ref) := by
  have hidle : s.Idles (s.setGraph ref { s.graphs ref with status := .canceling }) := .setGraph ⟨.refl _, fun _ => rfl⟩
  exact hidle.note (o := .graphCanceling g (s.graphs ref).runningTaskIds (s.graphs ref).undispatched) rfl

theorem VisitStep.idles (h : VisitStep g s s' t) : s.Idles s' ∧ graphToks t = 0 := by
  cases h with
  | pop _ hp => exact hp.idles
  | pass => exact ⟨.refl s, rfl⟩
  | accept => exact ⟨s.acceptCancel_idles g _, rfl⟩

theorem AbortStep.idles {x : TaskResultType} (h : AbortStep g x s s' t) : s.Idles s' ∧ graphToks t = 0 := by
  cases h with
  | pop _ hp => exact hp.idles
  | abort =>
    refine ⟨.setGraph ⟨.refl _, fun _ => rfl⟩, ?_⟩
    rw [graphToks_add, graphToks_toks fun _ => rfl]
    rfl

theorem CheckStep.serves (h : CheckStep g s s' t) (hs : s.Serves K) : s'.Serves (graphToks t + K) := by
  cases h with
  | done _ _ hp =>
    obtain ⟨hidle, ht⟩ := hp.idles
    rw [ht, zero_add]
    exact hs.idle hidle le_rfl
  | ready hr _ hready =>
    rw [graphToks_batch]
    exact hs.handOut (hs.registered _ _ hr) hready

theorem Sched.sweep_idles {ref : Nat} {x : Except Exn (List TaskCancelConfirm)} (h : s.sweep g ref = (x, s')) : s.Idles s' := by
  obtain ⟨y, graph, hcancel⟩ : ∃ y graph, (s.graphs ref).cancelInactive ((s.graphs ref).sorter.keys.length + 1) = (y, graph) := ⟨_, _, rfl⟩
  have hidle : s.Idles (s.setGraph ref graph) := .setGraph (Graph.cancelInactive_onward hcancel)
  rw [Sched.sweep, hcancel] at h
  obtain ⟨rfl, rfl⟩ := Prod.mk.inj h
  cases y with
  | ok confirms => exact hidle.note (o := .graphSwept g) rfl
  | error e => exact hidle.note (o := .sweepFailed g) rfl

theorem Sched.markNodeCanceled_idles {ref : Nat} {c : TaskCancelConfirm} {x : Except Exn Unit} (h : s.markNodeCanceled g ref c = (x, s')) :
    s.Idles s' := by
  obtain ⟨y, graph, hcancel⟩ : ∃ y graph, (s.graphs ref).markNodeCanceled c = (y, graph) := ⟨_, _, rfl⟩
  have hidle : s.Idles (s.setGraph ref graph) := .setGraph (Graph.markNodeCanceled_onward hcancel)
  rw [Sched.markNodeCanceled, hcancel] at h
  obtain ⟨rfl, rfl⟩ := Prod.mk.inj h
  exact hidle.note (o := .nodeCanceled g c.taskId _ _) rfl

theorem GraphStep.serves (h : GraphStep i s t s' t') (hs : s.Serves (graphToks t + K)) : s'.Serves (graphToks t' + K) := by
  have hall : ∀ {s'}, s.Idles s' → s'.Serves (graphToks t + K) := fun hi => hs.idle hi le_rfl
  have hless : ∀ {s'}, s.Idles s' → s'.Serves (0 + K) := fun hi => hs.idle hi (add_le_add_left (Multiset.zero_le _) K)
  have hmove : ∀ ids, s.Idles { s with taskIdToGraphTaskId := ids } := fun _ => ⟨fun _ hp => hp, fun _ _ hr => hr, rfl, fun _ => .refl _, rfl⟩
  cases h with
  | queueGraph h => exact hs.enqueue (List.mem_filter.mpr ⟨h, rfl⟩)
  | @takeGraph client gt rest h =>
    have hheard : Heard s.graphHistory client gt := hs.queue (client, gt) (h ▸ List.mem_cons_self)
    have hrest : s.Idles { s with graphQueue := rest } :=
      ⟨fun p hp => h ▸ List.mem_cons_of_mem _ hp, fun _ _ hr => hr, rfl, fun _ => .refl _, rfl⟩
    refine (hless hrest).carry (a := .taken client gt) (le_of_eq (by rw [zero_add]; rfl)) (fun _ _ => rfl) (fun client' gt' heq => ?_) fun _ _ _ heq => ?_
    · obtain ⟨rfl, rfl⟩ := Tok.taken.inj heq
      exact hheard
    · cases heq
  | refuseGraph => exact hless (.note (.refl s) rfl)
  | @beginGraph client gt s₁ h =>
    have hheard := hs.taken client gt (Multiset.mem_add.mpr (.inl (Multiset.mem_singleton_self _)))
    have hbegin : s.Idles s₁ := by
      obtain rfl : (s.onTaskBegin client gt.taskId).2 = s₁ := congrArg Prod.snd h
      exact .of_view rfl rfl
    have hidle : s.Idles { s₁ with taskIdToGraphTaskId := s₁.taskIdToGraphTaskId.set gt.taskId gt.taskId } :=
      hbegin.trans ⟨fun _ hp => hp, fun _ _ hr => hr, rfl, fun _ => .refl _, rfl⟩
    rw [← hidle.history] at hheard
    refine (hless hidle).carry (a := .adding client gt []) (le_of_eq (by rw [zero_add]; rfl)) (fun _ _ => rfl) (fun _ _ heq => ?_) fun client' gt' done heq => ?_
    · cases heq
    · obtain ⟨rfl, rfl, -⟩ := Tok.adding.inj heq
      exact hheard
  | @addNode client gt done task rest h =>
    have hheard := hs.adding client gt done (Multiset.mem_add.mpr (.inl (Multiset.mem_singleton_self _)))
    refine (hless (hmove _)).carry (a := .adding client gt (done ++ [task])) (le_of_eq (by rw [zero_add]; rfl)) (fun _ _ => rfl) (fun _ _ heq => ?_)
      fun client' gt' done' heq => ?_
    · cases heq
    · obtain ⟨rfl, rfl, -⟩ := Tok.adding.inj heq
      exact hheard
  | rejectGraph => exact hless (.note (.refl s) rfl)
  | @registerGraph client gt sorter _ _ h hc =>
    have hheard := hs.adding client gt gt.graph (Multiset.mem_add.mpr (.inl (Multiset.mem_singleton_self _)))
    have hkept := hless (.refl s)
    rw [zero_add] at hkept
    exact hc.serves (hkept.register hheard h)
  | submit h =>
    have hkept := Sched.Serves.submit hs h
    rwa [← zero_add K] at hkept
  | submitted => exact hless (.refl s)
  | submitFail h =>
    obtain ⟨-, hidle⟩ | ⟨info, s₁, args, -, -, -, hok, -⟩ := Sched.submitNode_idles h
    · exact hless (hidle.note rfl)
    · cases hok
  | loseBatch => exact hless (.refl s)
  | loseRefused => exact hless (.refl s)
  | giveUp => exact hless (.refl s)
  | nodeDone _ _ _ _ h _ hc hx =>
    have hkept := hs.report h
    rw [graphToks_add, add_comm (graphToks _), add_assoc]
    rcases Classical.em _ with hsuccess | hfailed
    · exact (hc hsuccess).serves hkept
    · obtain ⟨hidle, ht⟩ := (hx hfailed).idles
      rw [ht, zero_add]
      exact hkept.idle hidle le_rfl
  | nodeDoneFail _ h =>
    rw [pair_eq, graphToks_add, show graphToks {Tok.fault .other} = 0 from rfl, add_zero]
    exact hs.report h
  | nodeCanceled _ _ _ h hv =>
    obtain ⟨hidle, ht⟩ := hv.idles
    rw [graphToks_add, ht, add_zero]
    exact hall ((Sched.markNodeCanceled_idles h).trans hidle)
  | nodeCanceledFail _ _ _ h =>
    rw [pair_eq, graphToks_add, show graphToks {Tok.fault .other} = 0 from rfl, add_zero]
    exact hall (Sched.markNodeCanceled_idles h)
  | stranger => exact hless (.refl s)
  | notFound => exact hless (.note (.refl s) rfl)
  | visit _ hv =>
    obtain ⟨hidle, ht⟩ := hv.idles
    rw [ht]
    exact hless hidle
  | sweep h =>
    rw [graphToks_add, graphToks_toks fun _ => rfl]
    exact hless (Sched.sweep_idles h)
  | sweepFail h => exact hless (Sched.sweep_idles h)
  | sweptEnd => exact hless (.refl s)
  | sweptPop _ hp =>
    obtain ⟨hidle, ht⟩ := hp.idles
    rw [ht]
    exact hless hidle
  | retire _ _ h => exact hs.report h
  | abortReady _ hr =>
    rw [graphToks_add, graphToks_toks fun _ => rfl]
    exact hless (.setGraph (.of_sorter (TopologicalSorter.getReady_onward hr).1))
  | abortedEnd => exact hless (.refl s)
  | abortedPop _ hp =>
    obtain ⟨hidle, ht⟩ := hp.idles
    rw [ht]
    exact hless hidle
  | address => exact hless (.refl s)
  | send => exact hless (.note (.refl s) rfl)
  | sendFail => exact hless (.note (.refl s) rfl)
  | lose => exact hless (.refl s)

theorem Sched.graphHistory_settle (s : Sched) (t : TaskID) (x : TaskState) : (s.settle t x).graphHistory = s.graphHistory := by
  have hremoved : ((s.commit t x).removeStateMachine t).graphHistory = s.graphHistory := by
    rw [← show (s.commit t x).graphHistory = s.graphHistory from congrArg (List.filter Obs.isGraph) (s.trace_commit t x)]
    unfold removeStateMachine
    split <;> rfl
  unfold settle
  split
  · exact hremoved
  · exact congrArg (List.filter Obs.isGraph) (s.trace_commit t x)

theorem TaskStep.graphHistory (h : TaskStep i s t s' t') : s'.graphHistory = s.graphHistory := by
  cases h with
  | finish => exact congrArg (List.filter Obs.isGraph) (s.trace_onTaskFinish _)
  | popOwner => exact congrArg (List.filter Obs.isGraph) (s.trace_onTaskFinish _)
  | settle => exact s.graphHistory_settle _ _
  | tearDown => exact s.graphHistory_settle _ .failed
  | spoilFault h => rcases h with rfl | rfl <;> rfl
  | _ => rfl

theorem TaskStep.graphToks (h : TaskStep i s t s' t') : Scaler.graphToks t = 0 ∧ Scaler.graphToks t' = 0 := by
  cases h <;> exact ⟨rfl, rfl⟩

theorem OtherStep.graphToks (h : OtherStep i s t s' t') : Scaler.graphToks t = 0 ∧ Scaler.graphToks t' = 0 := by
  cases h with
  | removeWorker => exact ⟨rfl, graphToks_toks fun _ => rfl⟩
  | _ => exact ⟨rfl, rfl⟩

theorem OtherStep.graphHistory (h : OtherStep i s t s' t') :
    s'.graphHistory = s.graphHistory ∨ ∃ source gt, s'.graphHistory = .received source (.graphTask gt) :: s.graphHistory := by
  cases h with
  | @receive source m =>
    cases m with
    | graphTask gt => exact .inr ⟨source, gt, rfl⟩
    | _ => exact .inl rfl
  | weaken => exact .inl rfl
  | addWorker h => exact .inl (congrArg (fun r => Sched.graphHistory r.2) h.symm)
  | connect => exact .inl (congrArg (List.filter Obs.isGraph) (Sched.trace_noteHeartbeat _ _ _))
  | heartbeat => exact .inl (congrArg (List.filter Obs.isGraph) (Sched.trace_noteHeartbeat _ _ _))
  | leave =>
    left
    unfold Sched.removeWorkerFromManager
    split
    · rfl
    · dsimp only
      split
      · rfl
      · split <;> rfl
  | removeWorker h => exact .inl (congrArg (fun r => Sched.graphHistory r.2) h.symm)
  | removeWorkerFail h => exact .inl (congrArg (fun r => Sched.graphHistory r.2) h.symm)
  | _ => exact .inl rfl

theorem Step.serves (h : Step i s t s' t') (hs : s.Serves (graphToks t + K)) : s'.Serves (graphToks t' + K) := by
  cases h with
  | task h =>
    rw [h.graphToks.1] at hs
    rw [h.graphToks.2]
    exact hs.idle (.of_view h.graphView h.graphHistory) le_rfl
  | graph h => exact h.serves hs
  | other h =>
    rw [h.graphToks.1] at hs
    rw [h.graphToks.2]
    rcases h.graphHistory with hsame | ⟨source, gt, hheard⟩
    · exact hs.idle (.of_view h.graphView hsame) le_rfl
    · exact hs.hear h.graphView hheard

theorem Sched.serves_init (cfg : SchedulerConfig) : (Sched.init cfg).Serves 0 := by
  constructor
  · exact fun p hp => absurd hp List.not_mem_nil
  · exact fun _ _ ha => absurd ha (Multiset.notMem_zero _)
  · exact fun _ _ _ ha => absurd ha (Multiset.notMem_zero _)
  · exact fun _ _ _ ha => absurd ha (Multiset.notMem_zero _)
  · intro g ref hr
    cases hr
  · exact fun _ _ hr => absurd hr List.not_mem_nil
  · exact fun _ _ _ hr => absurd hr List.not_mem_nil
  · exact fun _ => List.nodup_nil
  · exact fun _ _ hr => absurd hr List.not_mem_nil
  · exact fun _ => TopologicalSorter.serving_empty
  · intro ref t info hinfo
    cases hinfo
  · exact fun _ _ => Nat.le_refl 0
  · exact fun _ _ => Nat.le_refl 0
  · trivial

theorem Run.serves {cfg : SchedulerConfig} {M : Multiset (Tid × Tok)} (h : Run cfg s M) : s.Serves (graphToks (M.map Prod.snd)) := by
  refine Run.invariant (J := fun s T => s.Serves (graphToks T)) (Sched.serves_init cfg) (fun hs hj => ?_) h
  rw [graphToks_add] at hj ⊢
  exact hs.serves hj

end Steps

section Runs

variable {cfg : SchedulerConfig} {c : Config Sched Exn Label Proc}

/-- A submitted task is a node of a graph that was received and registered before, and each argument of it that was
a node is the one result which that node reported before. -/
theorem submitted_nodes_sound (h : Reachable scheduler (Sched.init cfg) c) (hc : c.Suspended) {g : TaskID} {task : Task}
    {later earlier : List Obs} (htrace : c.state.trace = later ++ .submitted g task :: earlier) :
    (Obs.submitted g task).SubmitsFrom earlier := by
  obtain ⟨M, hrun, -⟩ := exists_run h hc
  have hsplit : c.state.graphHistory = later.filter Obs.isGraph ++ .submitted g task :: earlier.filter Obs.isGraph := by
    rw [Sched.graphHistory, htrace, List.filter_append, List.filter_cons_of_pos rfl]
  have hmem : ∀ o ∈ earlier.filter Obs.isGraph, o ∈ earlier := fun o ho => List.mem_of_mem_filter ho
  obtain ⟨client, gt, node, args, hheard, hid, ⟨ref, href⟩, hnode, heq, hargs⟩ := hrun.serves.sound.split hsplit
  exact ⟨client, gt, node, args, hmem _ hheard, hid, ⟨ref, hmem _ href⟩, hnode, heq, hargs.imp fun _ _ hf => hf.mono hmem⟩

/-- Every registration of a graph submits a node and accepts a result for it at most once. -/
theorem nodes_once_per_registration (h : Reachable scheduler (Sched.init cfg) c) (hc : c.Suspended) (g t : TaskID) :
    c.state.trace.countP (Obs.isSubmission g t) ≤ (registrations g c.state.trace).length ∧
      c.state.trace.countP (Obs.isReport g t) ≤ (registrations g c.state.trace).length := by
  obtain ⟨M, hrun, -⟩ := exists_run h hc
  have hserves := hrun.serves
  have hregistrations : registrations g c.state.graphHistory = registrations g c.state.trace := by
    rw [registrations, registrations, Sched.graphHistory, List.filterMap_filter]
    refine List.filterMap_congr fun o _ => ?_
    cases o with
    | graphRegistered => rfl
    | _ => exact ite_self none
  have hcount : ∀ p : Obs → Bool, (∀ o, p o = true → o.isGraph = true) → c.state.graphHistory.countP p = c.state.trace.countP p := by
    intro p hp
    rw [Sched.graphHistory, List.countP_filter]
    refine List.countP_congr fun o _ => ?_
    rw [Bool.and_eq_true, and_iff_left_of_imp (hp o)]
  have hsubmissions := hserves.submissions g t
  have hreports := hserves.reports g t
  rw [hregistrations, hcount] at hsubmissions hreports
  · refine ⟨?_, hreports.trans List.countP_le_length⟩
    have hall := List.countP_le_length (p := fun ref => decide ((c.state.graphs ref).sorter.Handed t)) (l := registrations g c.state.trace)
    omega
  · intro o ho
    cases o with
    | nodeDone => rfl
    | _ => cases ho
  · intro o ho
    cases o with
    | submitted => rfl
    | _ => cases ho

/-- The node 2 takes the result of the node 1. -/
def chainGraph : GraphTask :=
  ⟨⟨5⟩, ⟨100⟩, [⟨2⟩], [⟨⟨1⟩, ⟨100⟩, [], ⟨0⟩, [], []⟩, ⟨⟨2⟩, ⟨100⟩, [], ⟨0⟩, [.task ⟨1⟩], []⟩]⟩

/-- One worker runs the first node, and the second one is submitted with its result. -/
def chainRun : List (Move Proc) :=
  [.spawn (.onReceiveMessage 200 (.workerHeartbeat ⟨1, [], []⟩)), .resume [0], .resume [0], .resume [0],
    .spawn (.onReceiveMessage 100 (.graphTask chainGraph)), .resume [1], .spawn .graphRoutine, .resume [2], .resume [2],
    .resume [2], .resume [2], .resume [2], .resume [2],
    .spawn (.onReceiveMessage 200 (.taskResult ⟨⟨1⟩, .success, [], [⟨77⟩]⟩)), .resume [3], .resume [3], .resume [3], .resume [3]]

theorem chainRun_runs : ∃ c : Config Sched Exn Label Proc, Reachable scheduler (Sched.init ⟨.evenLoad, false⟩) c ∧ c.Suspended ∧
    .submitted ⟨5⟩ ⟨⟨2⟩, ⟨100⟩, [], ⟨0⟩, [.objectID ⟨77⟩], []⟩ ∈ c.state.trace ∧ (registrations ⟨5⟩ c.state.trace).length = 1 := by
  have hd : (drive scheduler 50 (start (Sched.init ⟨.evenLoad, false⟩)) chainRun).any (fun c => c.current.isNone &&
      decide (.submitted ⟨5⟩ ⟨⟨2⟩, ⟨100⟩, [], ⟨0⟩, [.objectID ⟨77⟩], []⟩ ∈ c.state.trace) &&
      decide ((registrations ⟨5⟩ c.state.trace).length = 1)) = true := by
    decide +kernel
  obtain ⟨c, hc, hb⟩ := (Option.any_eq_true _ _).mp hd
  simp only [Bool.and_eq_true, Option.isNone_iff_eq_none, decide_eq_true_eq] at hb
  exact ⟨c, Reachable.drive .start hc, hb.1.1, hb.1.2, hb.2⟩

theorem submitted_nodes_sound_chain : ∃ (c : Config Sched Exn Label Proc) (earlier : List Obs),
    Reachable scheduler (Sched.init ⟨.evenLoad, false⟩) c ∧
      .submitted ⟨5⟩ ⟨⟨2⟩, ⟨100⟩, [], ⟨0⟩, [.objectID ⟨77⟩], []⟩ :: earlier <:+ c.state.trace ∧
      (Obs.submitted ⟨5⟩ ⟨⟨2⟩, ⟨100⟩, [], ⟨0⟩, [.objectID ⟨77⟩], []⟩).SubmitsFrom earlier := by
  obtain ⟨c, hr, hs, hmem, -⟩ := chainRun_runs
  obtain ⟨later, earlier, hsplit⟩ := List.append_of_mem hmem
  exact ⟨c, earlier, hr, ⟨later, hsplit.symm⟩, submitted_nodes_sound hr hs hsplit⟩

theorem nodes_once_per_registration_chain : ∃ c : Config Sched Exn Label Proc, Reachable scheduler (Sched.init ⟨.evenLoad, false⟩) c ∧
    c.state.trace.countP (Obs.isSubmission ⟨5⟩ ⟨2⟩) = 1 := by
  obtain ⟨c, hr, hs, hmem, hone⟩ := chainRun_runs
  refine ⟨c, hr, Nat.le_antisymm ?_ (List.countP_pos_iff.mpr ⟨_, hmem, rfl⟩)⟩
  rw [← hone]
  exact (nodes_once_per_registration hr hs ⟨5⟩ ⟨2⟩).1

end Runs

end Scaler
