import Scaler.Invariant.GraphIds
import Scaler.Invariant.Replies

/-! How a graph ends for its client: once for every time it was registered, when it leaves the maps of the graph
controller. -/

namespace Scaler

open Collections Coroutine

/-- A client is told how the graph ended. -/
def Obs.endsGraph (g : TaskID) : Obs → Bool
  | .sent (.client _) m _ => m.repliesTo g && decide (m ≠ .taskCancelConfirm ⟨g, .cancelNotFound⟩)
  | _ => false

def Obs.opensGraph (g : TaskID) : Obs → Bool
  | .graphRegistered g' _ => g' = g
  | _ => false

/-- The graph was registered and has not ended since. -/
def graphOpen (g : TaskID) : List Obs → Bool
  | [] => false
  | o :: tr => o.opensGraph g || !o.endsGraph g && graphOpen g tr

/-- Only a graph that is open ends. -/
def Obs.EndsOpen (g : TaskID) (o : Obs) (tr : List Obs) : Prop := o.endsGraph g = true → graphOpen g tr = true

/-- A graph that the controller knows is open. -/
structure Sched.Books (s : Sched) (g : TaskID) : Prop where
  opened : (s.graphTaskIdToGraph.get? g).isSome → graphOpen g s.trace = true
  ends : Throughout (Obs.EndsOpen g) s.trace

/-- No message on its way ends the graph. -/
def Tok.bides (g : TaskID) : Tok → Bool
  | .owes _ m | .owed _ m => !(m.repliesTo g && decide (m ≠ .taskCancelConfirm ⟨g, .cancelNotFound⟩))
  | _ => true

section Account

variable {g : TaskID} {o : Obs} {tr : List Obs}

theorem graphOpen_cons (hopens : o.opensGraph g = false) (hends : o.endsGraph g = false) : graphOpen g (o :: tr) = graphOpen g tr := by
  rw [graphOpen, hopens, hends, Bool.false_or, Bool.not_false, Bool.true_and]

theorem graphOpen_split (h : graphOpen g tr = true) :
    ∃ mid ref before, tr = mid ++ Obs.graphRegistered g ref :: before ∧ ∀ o ∈ mid, o.endsGraph g = false := by
  induction tr with
  | nil => cases h
  | cons o tr ih =>
    rw [graphOpen, Bool.or_eq_true, Bool.and_eq_true, Bool.not_eq_true'] at h
    rcases h with hopens | ⟨ho, hopen⟩
    · cases o with
      | graphRegistered g' ref =>
        obtain rfl := of_decide_eq_true hopens
        exact ⟨[], ref, tr, rfl, fun o ho => absurd ho List.not_mem_nil⟩
      | _ => cases hopens
    · obtain ⟨mid, ref, before, rfl, hmid⟩ := ih hopen
      exact ⟨o :: mid, ref, before, rfl, List.forall_mem_cons.mpr ⟨ho, hmid⟩⟩

end Account

section Steps

variable {i : Tid} {s s' : Sched} {g g' : TaskID} {ref : Nat} {u u' T R : Multiset Tok}

theorem Sched.Books.note {o : Obs} (h : s.Books g) (hopens : o.opensGraph g = false) (hends : o.endsGraph g = false) :
    (s.note o).Books g where
  opened hsome := (graphOpen_cons hopens hends).trans (h.opened hsome)
  ends := by
    refine ⟨fun hyes => ?_, h.ends⟩
    rw [hends] at hyes
    cases hyes

theorem Sched.Books.of_trace (h : s.Books g) (htrace : s'.trace = s.trace)
    (hrefs : ∀ ref, s'.graphTaskIdToGraph.get? g = some ref → (s.graphTaskIdToGraph.get? g).isSome) : s'.Books g where
  opened hsome := by
    obtain ⟨ref, href⟩ := Option.isSome_iff_exists.mp hsome
    rw [htrace]
    exact h.opened (hrefs ref href)
  ends := by
    rw [htrace]
    exact h.ends

theorem Sched.Books.popGraph (h : s.Books g) (g' : TaskID) : (s.popGraph g').2.Books g :=
  h.of_trace (s.trace_popGraph g') fun ref href => Option.isSome_iff_exists.mpr ⟨ref, (s.popGraph_idles g').refs g ref href⟩

/-- A message about one graph does not end another one. -/
theorem Message.repliesTo_ne {m : Message} (hm : m.IsReplyTo g') (hg : g ≠ g') : m.repliesTo g = false := by
  by_contra hreplies
  exact hg (Message.repliesTo_unique hm (eq_true_of_ne_false hreplies))

theorem PopStep.books {m : Message} (h : PopStep g' m s s' u) (hm : m.IsReplyTo g') (hb : s.Books g) : s'.Books g := by
  have hpop := hb.popGraph g'
  cases h with
  | @ok s₁ info h =>
    rw [h] at hpop
    by_cases hg : g = g'
    · subst hg
      obtain ⟨ref, href, hrefs, -⟩ := Sched.popGraph_ok h
      have htrace : s₁.trace = s.trace := by rw [← s.trace_popGraph g, h]
      have hgone : s₁.graphTaskIdToGraph.get? g = none := by rw [hrefs, Dict.get?_erase_self]
      refine ⟨fun hsome => ?_, fun _ => ?_, hpop.ends⟩
      · rw [show (s₁.noteSent (.client info.client) m).graphTaskIdToGraph = s₁.graphTaskIdToGraph from rfl, hgone] at hsome
        cases hsome
      · rw [htrace]
        exact hb.opened (Option.isSome_iff_exists.mpr ⟨ref, href⟩)
    · exact hpop.note rfl (by rw [Obs.endsGraph, Message.repliesTo_ne hm hg, Bool.false_and])
  | sendFail h =>
    rw [h] at hpop
    exact hpop.note rfl rfl
  | popFail h =>
    rw [h] at hpop
    exact hpop.note rfl rfl

theorem bides_toks {α : Type} {f : α → Tok} {l : List α} (h : ∀ x ∈ l, (f x).bides g = true) : ∀ a ∈ toks f l, a.bides g = true := by
  intro a ha
  obtain ⟨x, hx, rfl⟩ := mem_toks.mp ha
  exact h x hx

theorem PopStep.bides {m : Message} (h : PopStep g' m s s' u) : ∀ a ∈ u, a.bides g = true := by
  cases h with
  | ok => exact fun a ha => absurd ha (Multiset.notMem_zero a)
  | sendFail => exact fun a ha => Multiset.mem_singleton.mp ha ▸ rfl
  | popFail => exact fun a ha => Multiset.mem_singleton.mp ha ▸ rfl

theorem CheckStep.books (h : CheckStep g' s s' u) (hb : s.Books g) : s'.Books g ∧ s.Idles s' ∧ ∀ a ∈ u, a.bides g = true := by
  cases h with
  | done _ _ hp => exact ⟨hp.books rfl hb, hp.idles.1, hp.bides⟩
  | ready _ _ hr =>
    exact ⟨hb.of_trace rfl fun ref href => Option.isSome_iff_exists.mpr ⟨ref, href⟩,
      .setGraph (.of_sorter (TopologicalSorter.getReady_onward hr).1), bides_toks fun _ _ => rfl⟩

theorem VisitStep.books (h : VisitStep g' s s' u) (hb : s.Books g) : s'.Books g ∧ ∀ a ∈ u, a.bides g = true := by
  cases h with
  | pop _ hp => exact ⟨hp.books rfl hb, hp.bides⟩
  | pass => exact ⟨hb, fun a ha => absurd ha (Multiset.notMem_zero a)⟩
  | accept =>
    refine ⟨?_, fun a ha => Multiset.mem_singleton.mp ha ▸ rfl⟩
    exact Sched.Books.note (o := .graphCanceling g' _ _) (s := s.setGraph _ _) ⟨hb.opened, hb.ends⟩ rfl rfl

theorem AbortStep.books {x : TaskResultType} (h : AbortStep g' x s s' u) (hb : s.Books g) : s'.Books g ∧ ∀ a ∈ u, a.bides g = true := by
  cases h with
  | pop _ hp => exact ⟨hp.books rfl hb, hp.bides⟩
  | abort =>
    refine ⟨⟨hb.opened, hb.ends⟩, fun a ha => ?_⟩
    rcases Multiset.mem_add.mp ha with ha | ha
    · exact Multiset.mem_singleton.mp ha ▸ rfl
    · exact bides_toks (f := (.retire g' _ · x)) (fun _ _ => rfl) a ha

theorem Sched.Books.markNodeDone (hb : s.Books g) {r : TaskResult} {x : Except Exn Unit} (h : s.markNodeDone r = (x, s')) : s'.Books g := by
  cases hg : s.taskIdToGraphTaskId.get? r.taskId with
  | none =>
    rw [Sched.markNodeDone, hg] at h
    obtain ⟨-, rfl⟩ := Prod.mk.inj h
    exact hb.note rfl rfl
  | some g' =>
    cases hr : s.graphTaskIdToGraph.get? g' with
    | none =>
      rw [Sched.markNodeDone, hg] at h
      dsimp only at h
      rw [hr] at h
      obtain ⟨-, rfl⟩ := Prod.mk.inj h
      exact Books.note (s := { s with taskIdToGraphTaskId := s.taskIdToGraphTaskId.erase r.taskId }) ⟨hb.opened, hb.ends⟩ rfl rfl
    | some ref =>
      obtain ⟨tracker, deleted, heq⟩ := Sched.markNodeDone_eq hg hr
      rw [heq] at h
      obtain ⟨-, rfl⟩ := Prod.mk.inj h
      have hnoted : ∀ fault, (s.note (.nodeDone g' r (s.graphs ref).runningTaskIds (s.graphs ref).undispatched
          ((s.graphs ref).markNodeDone r).2.2 fault)).Books g := fun fault => hb.note rfl rfl
      exact ⟨(hnoted _).opened, (hnoted _).ends⟩

/-- A node whose result is accepted is a node of a graph that was received. -/
theorem Sched.Serves.mentioned (hs : s.Serves T) {r : TaskResult} (h : s.markNodeDone r = (.ok (), s')) :
    ∃ client gt, Heard s.graphHistory client gt ∧ gt.Mentions r.taskId := by
  cases hg : s.taskIdToGraphTaskId.get? r.taskId with
  | none =>
    rw [Sched.markNodeDone, hg] at h
    cases congrArg Prod.fst h
  | some g' =>
    cases hr : s.graphTaskIdToGraph.get? g' with
    | none =>
      rw [Sched.markNodeDone, hg] at h
      dsimp only at h
      rw [hr] at h
      cases congrArg Prod.fst h
    | some ref =>
      obtain ⟨tracker, deleted, heq⟩ := Sched.markNodeDone_eq hg hr
      rw [heq] at h
      have hok : ((s.graphs ref).markNodeDone r).1 = .ok () := congrArg Prod.fst h
      obtain ⟨client, gt, hheard, -, htasks⟩ := hs.message g' ref (hs.registered g' ref hr)
      refine ⟨client, gt, hheard, ?_⟩
      cases hinfo : (s.graphs ref).tasks.get? r.taskId with
      | none =>
        rw [Graph.markNodeDone, hinfo] at hok
        cases hok
      | some info =>
        have hnode := htasks r.taskId
        rw [hinfo, Option.map_some, eq_comm, Option.map_eq_some_iff] at hnode
        obtain ⟨node, hnode, -⟩ := hnode
        obtain ⟨hid, hmem⟩ := (NewGraph.reads_ofTasks gt.graph).node _ _ hnode
        exact ⟨node.task, hmem, .inl hid⟩

theorem Sched.Books.submitNode (hb : s.Books g) {v : TaskID} {x : Except Exn Task} (h : s.submitNode g' ref v = (x, s')) : s'.Books g := by
  rw [Sched.submitNode] at h
  split at h
  · obtain ⟨-, rfl⟩ := Prod.mk.inj h
    exact hb
  · dsimp only at h
    split at h
    · obtain ⟨-, rfl⟩ := Prod.mk.inj h
      exact ⟨hb.opened, hb.ends⟩
    · obtain ⟨-, rfl⟩ := Prod.mk.inj h
      exact Books.note (o := .submitted g' _) (s := s.setGraph _ _) ⟨hb.opened, hb.ends⟩ rfl rfl

theorem Sched.Books.sweep (hb : s.Books g) {x : Except Exn (List TaskCancelConfirm)} (h : s.sweep g' ref = (x, s')) : s'.Books g := by
  obtain ⟨y, graph, hcancel⟩ : ∃ y graph, (s.graphs ref).cancelInactive ((s.graphs ref).sorter.keys.length + 1) = (y, graph) := ⟨_, _, rfl⟩
  rw [Sched.sweep, hcancel] at h
  obtain ⟨-, rfl⟩ := Prod.mk.inj h
  cases y with
  | ok confirms => exact Books.note (o := .graphSwept g') (s := s.setGraph ref graph) ⟨hb.opened, hb.ends⟩ rfl rfl
  | error e => exact Books.note (o := .sweepFailed g') (s := s.setGraph ref graph) ⟨hb.opened, hb.ends⟩ rfl rfl

theorem Sched.Books.markNodeCanceled (hb : s.Books g) {c : TaskCancelConfirm} {x : Except Exn Unit}
    (h : s.markNodeCanceled g' ref c = (x, s')) : s'.Books g := by
  rw [Sched.markNodeCanceled] at h
  obtain ⟨-, rfl⟩ := Prod.mk.inj h
  exact Books.note (o := .nodeCanceled g' c.taskId _ _) (s := s.setGraph ref _) ⟨hb.opened, hb.ends⟩ rfl rfl

theorem Sched.Books.registerGraph (hb : s.Books g) (graph : Graph) : (s.registerGraph g' graph).Books g := by
  have htrace : (s.registerGraph g' graph).trace = .graphRegistered g' s.nextGraph :: s.trace := rfl
  refine ⟨fun hsome => ?_, ?_⟩
  · rw [htrace, graphOpen]
    by_cases hg : g' = g
    · simp [Obs.opensGraph, hg]
    · change ((s.graphTaskIdToGraph.set g' s.nextGraph).get? g).isSome at hsome
      rw [Dict.get?_set_ne _ (Ne.symm hg)] at hsome
      simp [Obs.endsGraph, hb.opened hsome]
  · rw [htrace]
    exact ⟨fun hends => absurd hends Bool.false_ne_true, hb.ends⟩

theorem Sched.Idles.notMem_keys (h : s.Idles s') (hkeys : ∀ ref, g ∉ (s.graphs ref).sorter.keys) (ref : Nat) :
    g ∉ (s'.graphs ref).sorter.keys := by
  rw [(h.graphs ref).sorter.keys]
  exact hkeys ref

/-- What keeps a graph from being ended by the work on other graphs. -/
structure Sched.Keeps (s : Sched) (g : TaskID) (T : Multiset Tok) : Prop where
  machine : s.getStateMachine g = none
  keys : ∀ ref, g ∉ (s.graphs ref).sorter.keys
  toks : ∀ a ∈ T, a.bides g = true
  books : s.Books g

theorem GraphStep.books (h : GraphStep i s u s' u') (hs : s.Serves (graphToks (u + R)))
    (hnot : ∀ client gt, Heard s.graphHistory client gt → ¬ gt.Mentions g) (hk : s.Keeps g (u + R)) :
    s'.Books g ∧ (∀ ref, g ∉ (s'.graphs ref).sorter.keys) ∧ ∀ a ∈ u', a ∈ u ∨ a.bides g = true := by
  have hall : ∀ {b : Tok}, b.bides g = true → ∀ a ∈ ({b} : Multiset Tok), a ∈ u ∨ a.bides g = true := by
    intro b hb a hmem
    exact .inr (Multiset.mem_singleton.mp hmem ▸ hb)
  have hzero : ∀ a ∈ (0 : Multiset Tok), a ∈ u ∨ a.bides g = true := fun a hmem => absurd hmem (Multiset.notMem_zero a)
  have hadd : ∀ {v w : Multiset Tok}, v ≤ u → (∀ a ∈ w, a.bides g = true) → ∀ a ∈ v + w, a ∈ u ∨ a.bides g = true := by
    intro v w hv hw a hmem
    exact (Multiset.mem_add.mp hmem).imp (Multiset.mem_of_le hv) (hw a)
  have hmine : ∀ a ∈ u, a.bides g = true := fun a hmem => hk.toks a (Multiset.mem_add.mpr (.inl hmem))
  have hb := hk.books
  have hkeys := hk.keys
  cases h with
  | queueGraph => exact ⟨⟨hb.opened, hb.ends⟩, hkeys, hzero⟩
  | takeGraph => exact ⟨⟨hb.opened, hb.ends⟩, hkeys, hall rfl⟩
  | refuseGraph => exact ⟨hb.note rfl rfl, hkeys, hall rfl⟩
  | @beginGraph client gt s₁ h =>
    obtain rfl : (s.onTaskBegin client gt.taskId).2 = s₁ := congrArg Prod.snd h
    exact ⟨⟨hb.opened, hb.ends⟩, hkeys, hall rfl⟩
  | addNode => exact ⟨⟨hb.opened, hb.ends⟩, hkeys, hall rfl⟩
  | rejectGraph => exact ⟨hb.note rfl rfl, hkeys, hall rfl⟩
  | @registerGraph client gt sorter _ _ h hc =>
    have hheard : Heard s.graphHistory client gt :=
      hs.adding client gt gt.graph (Multiset.mem_filter.mpr ⟨Multiset.mem_add.mpr (.inl (Multiset.mem_singleton_self _)), rfl⟩)
    obtain ⟨hcheck, hidle, htoks⟩ := hc.books (hb.registerGraph (Graph.ofTasks client gt sorter))
    refine ⟨hcheck, hidle.notMem_keys fun ref => ?_, fun a hmem => .inr (htoks a hmem)⟩
    change g ∉ (Function.update s.graphs s.nextGraph (Graph.ofTasks client gt sorter) ref).sorter.keys
    by_cases hr : ref = s.nextGraph
    · rw [hr, Function.update_self]
      exact fun hkey => hnot client gt hheard (NewGraph.keys_prepare h hkey)
    · rw [Function.update_of_ne hr]
      exact hkeys ref
  | submit h =>
    refine ⟨hb.submitNode h, (Sched.submitNode_passes h).keys hkeys, fun a hmem => .inr ?_⟩
    rcases Multiset.mem_cons.mp hmem with rfl | hmem
    · rfl
    · exact Multiset.mem_singleton.mp hmem ▸ rfl
  | submitted => exact ⟨hb, hkeys, hzero⟩
  | submitFail h => exact ⟨(hb.submitNode h).note rfl rfl, (Sched.submitNode_passes h).keys hkeys, hall rfl⟩
  | loseBatch => exact ⟨hb, hkeys, hall rfl⟩
  | loseRefused => exact ⟨hb, hkeys, fun a hmem => .inl (Multiset.mem_add.mpr (.inr hmem))⟩
  | giveUp => exact ⟨hb, hkeys, hall rfl⟩
  | @nodeDone r s₁ _ _ _ _ _ _ _ _ _ h _ hok hx =>
    have hdone : s₁.Books g := hb.markNodeDone h
    have hkeys₁ := (Sched.markNodeDone_passes h).1.keys hkeys
    rcases Classical.em (r.resultType = .success) with hsuccess | hfailed
    · obtain ⟨hcheck, hidle, htoks⟩ := (hok hsuccess).books hdone
      exact ⟨hcheck, hidle.notMem_keys hkeys₁, hadd le_rfl htoks⟩
    · obtain ⟨habort, htoks⟩ := (hx hfailed).books hdone
      exact ⟨habort, (hx hfailed).idles.1.notMem_keys hkeys₁, hadd le_rfl htoks⟩
  | nodeDoneFail _ h =>
    refine ⟨hb.markNodeDone h, (Sched.markNodeDone_passes h).1.keys hkeys, hadd (w := {.fault .other}) le_rfl fun a hmem => ?_⟩
    exact Multiset.mem_singleton.mp hmem ▸ rfl
  | nodeCanceled _ _ _ h hv =>
    obtain ⟨hvisit, htoks⟩ := hv.books (hb.markNodeCanceled h)
    exact ⟨hvisit, hv.idles.1.notMem_keys ((Sched.markNodeCanceled_passes h).keys hkeys), hadd le_rfl htoks⟩
  | nodeCanceledFail _ _ _ h =>
    refine ⟨hb.markNodeCanceled h, (Sched.markNodeCanceled_passes h).keys hkeys, hadd (w := {.fault .other}) le_rfl fun a hmem => ?_⟩
    exact Multiset.mem_singleton.mp hmem ▸ rfl
  | @stranger c v _ _ => exact ⟨hb, hkeys, hall (by simp [Tok.bides, Message.repliesTo])⟩
  | @notFound c v h =>
    exact ⟨hb.note rfl (by simp [Obs.endsGraph, Message.repliesTo]), hkeys, hzero⟩
  | visit _ hv =>
    obtain ⟨hvisit, htoks⟩ := hv.books hb
    exact ⟨hvisit, hv.idles.1.notMem_keys hkeys, fun a hmem => .inr (htoks a hmem)⟩
  | @sweep g' ref confirms s' h =>
    obtain ⟨hsweep, hconfirms⟩ := Sched.sweep_passes (t := g) (hs.serving ref) h
    refine ⟨hb.sweep h, hsweep.keys hkeys, fun a hmem => .inr ?_⟩
    rcases Multiset.mem_add.mp hmem with hmem | hmem
    · exact Multiset.mem_singleton.mp hmem ▸ rfl
    · refine bides_toks (fun c hc => ?_) a hmem
      have hne : c.taskId ≠ g := fun heq => hkeys ref (heq ▸ hconfirms confirms rfl c hc)
      simp [Tok.bides, Message.repliesTo, hne]
  | sweepFail h => exact ⟨hb.sweep h, (Sched.sweep_passes (t := g) (hs.serving _) h).1.keys hkeys, hall rfl⟩
  | sweptEnd => exact ⟨hb, hkeys, hzero⟩
  | sweptPop _ hp => exact ⟨hp.books rfl hb, hp.idles.1.notMem_keys hkeys, fun a hmem => .inr (hp.bides a hmem)⟩
  | @retire g' ref v x r _ hw _ h =>
    refine ⟨hb.markNodeDone h, (Sched.markNodeDone_passes h).1.keys hkeys, hall ?_⟩
    obtain ⟨client, gt, hheard, hmentions⟩ := hs.mentioned h
    have hne : r.taskId ≠ g := fun heq => hnot client gt hheard (heq ▸ hmentions)
    simp [Tok.bides, Message.repliesTo, hne]
  | abortReady _ hr =>
    exact ⟨⟨hb.opened, hb.ends⟩, Sched.Idles.notMem_keys (.setGraph (.of_sorter (TopologicalSorter.getReady_onward hr).1)) hkeys,
      hadd le_rfl (bides_toks fun _ _ => rfl)⟩
  | abortedEnd => exact ⟨hb, hkeys, hzero⟩
  | abortedPop _ hp => exact ⟨hp.books rfl hb, hp.idles.1.notMem_keys hkeys, fun a hmem => .inr (hp.bides a hmem)⟩
  | address => exact ⟨hb, hkeys, hall (hmine (.owes _ _) (Multiset.mem_singleton_self _))⟩
  | @send c m =>
    have hm : Obs.endsGraph g (.sent (.client c) m none) = false :=
      (Bool.not_eq_true' _).mp (hmine (.owed c m) (Multiset.mem_singleton_self _))
    exact ⟨hb.note rfl hm, hkeys, hzero⟩
  | sendFail => exact ⟨hb.note rfl rfl, hkeys, hall rfl⟩
  | lose => exact ⟨hb, hkeys, hall rfl⟩

theorem Sched.Books.settle (hb : s.Books g) (t : TaskID) (x : TaskState) : (s.settle t x).Books g := by
  have hgraphs : (s.commit t x).graphView = s.graphView := congrArg Prod.fst (s.offTask_commit t x)
  have hcommit : (s.commit t x).Books g := hb.of_trace (s.trace_commit t x) fun ref href => by
    rw [show (s.commit t x).graphTaskIdToGraph = s.graphTaskIdToGraph from congrArg GraphView.graphTaskIdToGraph hgraphs] at href
    exact Option.isSome_iff_exists.mpr ⟨ref, href⟩
  unfold Sched.settle
  split
  · have hremoved : ((s.commit t x).removeStateMachine t).Books g := by
      unfold removeStateMachine
      split
      · exact hcommit
      · exact Books.note (o := .removed t _ _) (s := { s.commit t x with taskIdToStateMachine := _ }) ⟨hcommit.opened, hcommit.ends⟩ rfl rfl
    exact ⟨hremoved.opened, hremoved.ends⟩
  · exact hcommit

theorem Sched.Books.onTaskFinish (hb : s.Books g) (t : TaskID) : (s.onTaskFinish t).Books g := by
  refine hb.of_trace (s.trace_onTaskFinish t) fun ref href => ?_
  have hgraphs : (s.onTaskFinish t).graphView = s.graphView := congrArg Prod.fst (s.offTask_onTaskFinish t)
  rw [show (s.onTaskFinish t).graphTaskIdToGraph = s.graphTaskIdToGraph from congrArg GraphView.graphTaskIdToGraph hgraphs] at href
  exact Option.isSome_iff_exists.mpr ⟨ref, href⟩

theorem Sched.Books.addStateMachine (hb : s.Books g) (t : TaskID) : (s.addStateMachine t).Books g := by
  have hnoted := hb.note (o := .registered t s.nextUid (s.raised.filter fun e => e.taskId = t)) rfl rfl
  exact ⟨hnoted.opened, hnoted.ends⟩

theorem TaskStep.books (h : TaskStep i s u s' u') (hl : Locked s.taskView (taskToks u + taskToks R)) (hn : s.getStateMachine g = none)
    (hb : s.Books g) : s'.Books g := by
  -- The answer is about a task with a machine.
  have hother : ∀ {uid e source phase m}, u = {.apply uid e source phase} → Message.IsReplyTo e.taskId m → m.repliesTo g = false := by
    intro uid e source phase m hu hm
    subst hu
    refine Message.repliesTo_ne hm ?_
    rintro rfl
    have hmachine : s.getStateMachine e.taskId = some ⟨uid, source⟩ := Locked.get hl
    rw [hn] at hmachine
    cases hmachine
  cases h with
  | refuse => exact (hb.addStateMachine _).note rfl rfl
  | hold => exact ⟨(hb.addStateMachine _).opened, (hb.addStateMachine _).ends⟩
  | assign => exact ⟨(hb.addStateMachine _).opened, (hb.addStateMachine _).ends⟩
  | drainFail => exact hb.note rfl rfl
  | @take uid e source =>
    exact Sched.Books.note (s := (s.takeLock uid i).dropEvent e) (o := .applied e source _ _ _) ⟨hb.opened, hb.ends⟩ rfl rfl
  | @expire uid e => exact Sched.Books.note (s := (s.leaveWaiters uid i).dropEvent e) (o := .timedOut e) ⟨hb.opened, hb.ends⟩ rfl rfl
  | dispatch => exact hb.note rfl rfl
  | releaseFail => exact Sched.Books.note (s := { s with policy := _ }) ⟨hb.opened, hb.ends⟩ rfl rfl
  | tell => exact hb.note rfl rfl
  | place => exact Sched.Books.note (s := { s with policy := _ }) ⟨hb.opened, hb.ends⟩ rfl rfl
  | placeFail => exact Sched.Books.note (s := { s with policy := _ }) ⟨hb.opened, hb.ends⟩ rfl rfl
  | spoil => exact hb.note rfl rfl
  | faulted => exact hb.note rfl rfl
  | answer h => exact hb.note rfl (by rw [Obs.endsGraph, hother rfl h, Bool.false_and])
  | answerFault h => exact hb.note rfl (by rw [Obs.endsGraph, hother rfl h, Bool.false_and])
  | finish => exact hb.onTaskFinish _
  | popOwner => exact hb.onTaskFinish _
  | settle => exact ⟨(hb.settle _ _).opened, (hb.settle _ _).ends⟩
  | tearDown => exact ⟨(hb.settle _ .failed).opened, (hb.settle _ .failed).ends⟩
  | spoilFault h =>
    rcases h with rfl | rfl
    · exact hb.note rfl rfl
    · exact hb.note rfl rfl
  | _ => exact ⟨hb.opened, hb.ends⟩

theorem OtherStep.books (h : OtherStep i s u s' u') (hb : s.Books g) : s'.Books g := by
  have hview : s'.trace = s.trace → s'.Books g := fun htrace => hb.of_trace htrace fun ref href => by
    rw [show s'.graphTaskIdToGraph = s.graphTaskIdToGraph from congrArg GraphView.graphTaskIdToGraph h.graphView] at href
    exact Option.isSome_iff_exists.mpr ⟨ref, href⟩
  have hremoved : ∀ {w} {x : Except Exn (List TaskID)} {s₁ : Sched}, s.removeWorker w = (x, s₁) → s₁.Books g := by
    intro w x s₁ hr
    rw [show s₁ = _ from (congrArg Prod.snd hr).symm]
    have hnoted := hb.note (o := .workerRemoved w (s.undispatched w) (s.returning w)) rfl rfl
    exact ⟨hnoted.opened, hnoted.ends⟩
  cases h with
  | receive => exact hb.note rfl rfl
  | @plainSend peer m h =>
    refine hb.note rfl ?_
    cases peer with
    | worker w => rfl
    | client c => rw [Obs.endsGraph, h.repliesTo, Bool.false_and]
  | sendFail => exact hb.note rfl rfl
  | storageFail => exact hb.note rfl rfl
  | payloadMissing => exact hb.note rfl rfl
  | cancelRefused => exact hb.note rfl rfl
  | addWorker h => exact hview (congrArg (fun r => r.2.trace) h.symm)
  | connect => exact hview (Sched.trace_noteHeartbeat _ _ _)
  | heartbeat => exact hview (Sched.trace_noteHeartbeat _ _ _)
  | @leave w _ =>
    obtain ⟨ms, ws, heq⟩ := Sched.removeWorkerFromManager_eq { s with workerAliveSince := s.workerAliveSince.erase w } w
    rw [heq]
    exact ⟨hb.opened, hb.ends⟩
  | removeWorker h => exact hremoved h
  | removeWorkerFail h => exact (hremoved h).note rfl rfl
  | _ => exact ⟨hb.opened, hb.ends⟩

theorem Sched.getStateMachine_settle (t u : TaskID) (x : TaskState) (hn : s.getStateMachine t = none) : (s.settle u x).getStateMachine t = none := by
  have hcommit : (s.commit u x).getStateMachine t = none := by
    rw [← Option.isNone_iff_eq_none, s.getStateMachine_commit, hn]
    rfl
  unfold settle
  split
  · change ((s.commit u x).removeStateMachine u).getStateMachine t = none
    unfold removeStateMachine
    split
    · exact hcommit
    · exact Dict.get?_erase_none hcommit
  · exact hcommit

/-- Only a registration makes a machine. -/
theorem TaskStep.absent (h : TaskStep i s u s' u') (hnot : ∀ uid pending, .registered g uid pending ∉ s'.trace)
    (hn : s.getStateMachine g = none) : s'.getStateMachine g = none := by
  have hadd : ∀ {v}, (∃ uid pending, .registered v uid pending ∈ s'.trace) → (s.addStateMachine v).getStateMachine g = none := by
    rintro v ⟨uid, pending, hmem⟩
    have hne : g ≠ v := by
      rintro rfl
      exact hnot uid pending hmem
    exact (Dict.get?_set_ne _ hne _).trans hn
  cases h with
  | refuse => exact hadd ⟨_, _, List.mem_cons_of_mem _ List.mem_cons_self⟩
  | hold => exact hadd ⟨_, _, List.mem_cons_self⟩
  | assign => exact hadd ⟨_, _, List.mem_cons_self⟩
  | settle => exact Sched.getStateMachine_settle g _ _ hn
  | tearDown => exact Sched.getStateMachine_settle g _ .failed hn
  | finish => exact (congrArg (fun v : TaskView => v.taskIdToStateMachine.get? g) (s.taskView_onTaskFinish _)).trans hn
  | popOwner => exact (congrArg (fun v : TaskView => v.taskIdToStateMachine.get? g) (s.taskView_onTaskFinish _)).trans hn
  | spoilFault h =>
    rcases h with rfl | rfl
    · exact hn
    · exact hn
  | _ => exact hn

theorem TaskStep.bides (h : TaskStep i s u s' u') : ∀ a ∈ u', a.bides g = true := by
  cases h <;> exact forall_of_filter rfl

theorem OtherStep.bides (h : OtherStep i s u s' u') : ∀ a ∈ u', a.bides g = true := by
  cases h with
  | removeWorker h => exact bides_toks fun _ _ => rfl
  | _ => exact forall_of_filter rfl

theorem Step.books (h : Step i s u s' u') (hs : s.Serves (graphToks (u + R))) (hl : Locked s.taskView (taskToks (u + R)))
    (hnot : ∀ client gt, Heard s.graphHistory client gt → ¬ gt.Mentions g) (hfree : ∀ uid pending, .registered g uid pending ∉ s'.trace)
    (hk : s.Keeps g (u + R)) : s'.Keeps g (u' + R) := by
  have hmine : ∀ a ∈ u, a.bides g = true := fun a hmem => hk.toks a (Multiset.mem_add.mpr (.inl hmem))
  have hrest : ∀ a ∈ R, a.bides g = true := fun a hmem => hk.toks a (Multiset.mem_add.mpr (.inr hmem))
  have hgraphs : s'.graphView = s.graphView → ∀ ref, g ∉ (s'.graphs ref).sorter.keys := by
    intro hview
    rw [show s'.graphs = s.graphs from congrArg GraphView.graphs hview]
    exact hk.keys
  cases h with
  | task h =>
    rw [taskToks_add] at hl
    refine ⟨h.absent hfree hk.machine, hgraphs h.graphView, fun a hmem => ?_, h.books hl hk.machine hk.books⟩
    exact (Multiset.mem_add.mp hmem).elim (h.bides a) (hrest a)
  | graph h =>
    obtain ⟨hbooks, hkeys, htoks⟩ := h.books hs hnot hk
    refine ⟨?_, hkeys, fun a hmem => ?_, hbooks⟩
    · exact (congrArg (fun v : TaskView => v.taskIdToStateMachine.get? g) h.taskView).trans hk.machine
    · exact (Multiset.mem_add.mp hmem).elim (fun hmem => (htoks a hmem).elim (hmine a) id) (hrest a)
  | other h =>
    have hmachine : s'.getStateMachine g = none := by
      have habsent : (s'.getStateMachine g).isNone = (s.getStateMachine g).isNone := congrArg Standing.absent (h.standing (t := g))
      rwa [hk.machine, Option.isNone_none, Option.isNone_iff_eq_none] at habsent
    refine ⟨hmachine, hgraphs h.graphView, fun a hmem => ?_, h.books hk.books⟩
    exact (Multiset.mem_add.mp hmem).elim (h.bides a) (hrest a)

end Steps

section Runs

variable {cfg : SchedulerConfig} {s : Sched} {g : TaskID}

theorem Run.books {M : Multiset (Tid × Tok)} (h : Run cfg s M) (hnot : ∀ client gt, Heard s.graphHistory client gt → ¬ gt.Mentions g)
    (hfree : ∀ uid pending, .registered g uid pending ∉ s.trace) : s.Keeps g (M.map Prod.snd) := by
  induction h with
  | init =>
    refine ⟨rfl, fun ref => List.not_mem_nil, fun a ha => absurd ha (Multiset.notMem_zero a), fun hsome => ?_, trivial⟩
    cases hsome
  | @step s s' i u u' M hrun hs ih =>
    have hbefore : ∀ client gt, Heard s.graphHistory client gt → ¬ gt.Mentions g :=
      fun client gt hheard => hnot client gt (hheard.of_suffix hs.graphHistory)
    have hkeeps := ih hbefore fun uid pending hmem => hfree uid pending (hs.trace.subset hmem)
    have hserves := hrun.serves
    have hlocked := hrun.locked
    rw [Multiset.map_add, map_snd_tag] at hkeeps hserves hlocked ⊢
    exact hs.books hserves hlocked hbefore hfree hkeeps
  | fork _ _ ih =>
    rw [Multiset.map_cons] at ih ⊢
    exact ih hnot hfree
  | join _ ih =>
    rw [Multiset.map_cons] at ih ⊢
    exact ih hnot hfree

/-- A client is told how a graph ended once for each time the graph was registered, unless the id of the graph is also
that of a task. It can hear in between that the id is not known. -/
theorem graph_answered_once {c : Config Sched Exn Label Proc} (h : Reachable scheduler (Sched.init cfg) c) (hc : c.Suspended)
    (hnot : ∀ source gt, .received source (.graphTask gt) ∈ c.state.trace → ¬ gt.Mentions g)
    (hfree : ∀ uid pending, .registered g uid pending ∉ c.state.trace) {client : ClientID} {m : Message} {holder : Option WorkerID}
    {later earlier : List Obs} (htrace : c.state.trace = later ++ .sent (.client client) m holder :: earlier) (hm : m.IsReplyTo g)
    (hknown : m ≠ .taskCancelConfirm ⟨g, .cancelNotFound⟩) :
    ∃ mid ref before, earlier = mid ++ Obs.graphRegistered g ref :: before ∧ ∀ o ∈ mid, o.endsGraph g = false := by
  obtain ⟨M, hrun, -⟩ := exists_run h hc
  have hends := (hrun.books (fun client gt hheard => hnot client.bytes gt (List.mem_of_mem_filter hheard)) hfree).books.ends
  rw [htrace] at hends
  refine graphOpen_split (hends.split ?_)
  rw [Obs.endsGraph, Message.repliesTo_iff.mpr hm, Bool.true_and]
  exact decide_eq_true hknown

/-- The chain up to its end. -/
def chainEnd : List (Move Proc) :=
  chainRun ++ [Move.resume [3], .resume [3], .resume [3],
    .spawn (.onReceiveMessage 200 (.taskResult ⟨⟨2⟩, .success, [], [⟨78⟩]⟩)), .resume [4], .resume [4], .resume [4], .resume [4]]

/-- The id is not that of a task. -/
def Obs.frees (g : TaskID) : Obs → Bool
  | .received _ (.graphTask gt) => !gt.graph.any fun node => decide (node.taskId = g ∨ g ∈ node.requiredTaskIds)
  | .registered t _ _ => t ≠ g
  | _ => true

theorem graph_answered_once_chain : ∃ (c : Config Sched Exn Label Proc) (earlier : List Obs),
    Reachable scheduler (Sched.init ⟨.evenLoad, false⟩) c ∧
      c.state.trace = .sent (.client ⟨100⟩) (.taskResult ⟨⟨5⟩, .success, [], []⟩) none :: earlier ∧
      ∃ mid ref before, earlier = mid ++ Obs.graphRegistered ⟨5⟩ ref :: before ∧ ∀ o ∈ mid, o.endsGraph ⟨5⟩ = false := by
  have hd : (drive scheduler 50 (start (Sched.init ⟨.evenLoad, false⟩)) chainEnd).any (fun c => c.current.isNone &&
      c.state.trace.all (Obs.frees ⟨5⟩) &&
      decide (c.state.trace.head? = some (.sent (.client ⟨100⟩) (.taskResult ⟨⟨5⟩, .success, [], []⟩) none))) = true := by
    decide +kernel
  obtain ⟨c, hc, hb⟩ := (Option.any_eq_true _ _).mp hd
  simp only [Bool.and_eq_true, Option.isNone_iff_eq_none, List.all_eq_true, decide_eq_true_eq] at hb
  obtain ⟨⟨hs, hfrees⟩, hhead⟩ := hb
  obtain ⟨earlier, htrace⟩ := List.head?_eq_some_iff.mp hhead
  have hr : Reachable scheduler (Sched.init ⟨.evenLoad, false⟩) c := Reachable.drive .start hc
  have hnot : ∀ source gt, .received source (.graphTask gt) ∈ c.state.trace → ¬ gt.Mentions ⟨5⟩ := by
    rintro source gt hmem ⟨node, hnode, hor⟩
    have hany : (gt.graph.any fun node => decide (node.taskId = ⟨5⟩ ∨ ⟨5⟩ ∈ node.requiredTaskIds)) = true :=
      List.any_eq_true.mpr ⟨node, hnode, decide_eq_true hor⟩
    have hfree := hfrees _ hmem
    rw [Obs.frees, hany] at hfree
    cases hfree
  have hfree : ∀ uid pending, .registered ⟨5⟩ uid pending ∉ c.state.trace := by
    intro uid pending hmem
    have hne := hfrees _ hmem
    simp [Obs.frees] at hne
  refine ⟨c, earlier, hr, htrace, ?_⟩
  rw [← List.nil_append (_ :: earlier)] at htrace
  exact graph_answered_once hr hs hnot hfree htrace rfl (by simp)

end Runs

end Scaler
