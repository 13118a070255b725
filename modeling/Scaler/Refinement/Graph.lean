import Scaler.Refinement.Protocol

/-! The coroutines of the graph controller make steps of the system. -/

namespace Scaler

open Collections Coroutine

variable {cfg : SchedulerConfig} {p : Proc} {i : Tid} {s : Sched} {M : Multiset (Tid × Tok)}
  {g : TaskID} {ref : Nat}

theorem umbrella_ends {m : Message}
    (hp : ∀ s' u, PopStep g m s s' u → Run cfg s' (tag i u + M)) :
    wp cfg p i (syncNoting (.popFailed g) (·.popGraph g) >>= fun info =>
      binderSend (.client info.client) m) (ends cfg i 0 {Tok.fault .other}) s M := by
  refine wp_syncNoting ?_ ?_
  · intro info s' h
    refine binderSend_ends (by simp) (hp _ _ (.ok h)) ?_
    have hf := hp _ _ (.sendFail h)
    exact hf.step (.other (.weaken rfl))
  · intro e s' h
    exact (hp _ _ (.popFail h)).step (.other (.weaken rfl))

/-- The loop over the nodes the sorter handed out. -/
theorem submitNodes_ends {ready : List TaskID}
    (h : Run cfg s (tag i (toks (.batch g ref) ready) + M)) :
    wp cfg p i (Coro.forEach ready (submitNode g ref)) (ends cfg i 0 {Tok.fault .other}) s M := by
  refine Protocol.wp_forEach (fun ready s M => Run cfg s (tag i (toks (.batch g ref) ready) + M)) h
    ?_ (fun s M h => h)
  intro t rest s M h
  rw [toks_cons] at h
  refine wp_syncNoting ?_ ?_
  · intro task s' hs
    have h := h.frame (.graph (.submit hs))
    refine wp_ends (run_ends (t := {Tok.submitting g ref t} + toks (.batch g ref) rest) ?_ ?_) ?_ ?_
    · intro a ha
      rcases Multiset.mem_add.mp ha with ha | ha
      · rw [Multiset.mem_singleton.mp ha]
        trivial
      · obtain ⟨u, _, rfl⟩ := mem_toks.mp ha
        trivial
    · rw [← add_assoc, add_comm (Proc.give _)]
      exact h
    · intro _ s M h
      have h := h.frame (.graph .submitted)
      rwa [zero_add] at h
    · intro e s M h
      have hl : Run cfg s (tag i {Tok.submitting g ref t, Tok.fault (.refused task.taskId)} + M) := by
        refine Run.loseAll (f := .batch g ref) (l := rest) (fun u => .graph .loseRefused) ?_
        convert h using 3
        rw [add_comm, ← add_assoc, add_comm {_}]
        rfl
      exact (hl.step (.graph .giveUp)).step (.other .weakenRefused)
  · intro e s' hs
    have h := h.frame (.graph (.submitFail hs))
    rw [add_comm {_}] at h
    exact (Run.loseAll (fun u => .graph .loseBatch) h).step (.other (.weaken rfl))

theorem checkOneGraph_ends (hr : s.graphTaskIdToGraph.get? g = some ref)
    (hp : (s.graphs ref).Prepared) (hc : ∀ s' u, CheckStep g s s' u → Run cfg s' (tag i u + M)) :
    wp cfg p i (checkOneGraph g) (ends cfg i 0 {Tok.fault .other}) s M := by
  refine wp_index hr (Protocol.wp_reads ?_)
  split
  · next ha => exact umbrella_ends fun s' u h => hc _ _ (.done hr (by simpa using ha) h)
  · next ha =>
    refine Protocol.wp_sync ?_ ?_
    · intro ready s' hs
      simp only [Prod.mk.injEq] at hs
      obtain ⟨h1, rfl⟩ := hs
      refine submitNodes_ends (hc _ _ (.ready hr (by simpa using ha) ?_))
      rw [← h1]
    · intro e s' hs
      obtain ⟨ready, hready⟩ := Option.isSome_iff_exists.mp hp
      simp [TopologicalSorter.getReady, hready] at hs

theorem cancelGraphUmbrellaTask_ends (hf : s.isGraphFinished g = true)
    (hp : ∀ s' u, PopStep g (.taskCancelConfirm ⟨g, .canceled⟩) s s' u → Run cfg s' (tag i u + M)) :
    wp cfg p i (cancelGraphUmbrellaTask g) (ends cfg i 0 {Tok.fault .other}) s M := by
  refine Protocol.wp_reads ?_
  rw [hf]
  exact umbrella_ends hp

theorem cancelWholeGraph_ends (hr : s.graphTaskIdToGraph.get? g = some ref)
    (hv : ∀ s' u, VisitStep g s s' u → Run cfg s' (tag i u + M)) :
    wp cfg p i (cancelWholeGraph g) (ends cfg i 0 {Tok.fault .other}) s M := by
  refine Protocol.wp_reads ?_
  split
  · next hf => exact cancelGraphUmbrellaTask_ends hf fun s' u h => hv _ _ (.pop hf h)
  · next hf =>
    have hf : s.isGraphFinished g = false := by simpa using hf
    refine wp_index hr (Protocol.wp_reads ?_)
    split
    · next hn => exact hv _ _ (.pass hr hf hn)
    · next hn =>
      refine Protocol.wp_modify ?_
      refine wp_then (gather_ends (t := {Tok.canceling g ref}) ?_ ?_) ?_ ?_
      · intro a ha
        rw [Multiset.mem_singleton.mp ha]
        trivial
      · rw [sum_give_zero fun _ => rfl, zero_add]
        exact hv _ _ (.accept hr hf (by simpa using hn))
      · intro _ s M h
        refine Protocol.wp_sync ?_ ?_
        · intro confirms s' hs
          have h := h.step (.graph (.sweep hs))
          refine Protocol.wp_reads ?_
          refine wp_then (gather_ends (t := {Tok.swept g ref}) ?_ ?_) ?_ ?_
          · intro a ha
            rw [Multiset.mem_singleton.mp ha]
            trivial
          · rw [toks_give (fun _ => rfl)]
            rw [add_comm {Tok.swept g ref}] at h
            exact h.eachStep fun c => .graph .address
          · intro _ s M h
            refine Protocol.wp_reads ?_
            split
            · next hf => exact cancelGraphUmbrellaTask_ends hf fun s' u hp => h.step (.graph (.sweptPop hf hp))
            · next hf => exact h.step (.graph (.sweptEnd (by simpa using hf)))
          · intro e s M h
            exact h.loseWork (by simp [Tok.IsWork])
        · intro e s' hs
          exact h.step (.graph (.sweepFail hs))
      · intro e s M h
        exact h.loseWork (by simp [Tok.IsWork])

theorem onGraphTaskCancel_ends {cancel : TaskCancel} (h : Run cfg s M) :
    wp cfg p i (onGraphTaskCancel cancel) (ends cfg i 0 {Tok.fault .other}) s M := by
  have h : Run cfg s (tag i 0 + M) := by simpa using h
  refine Protocol.wp_reads ?_
  split
  · exact h
  · next g _ =>
    refine Protocol.wp_reads ?_
    split
    · exact h
    · next hc =>
      have hc : s.graphTaskIdToGraph.contains g = true := by simpa using hc
      obtain ⟨ref, hr⟩ := Option.isSome_iff_exists.mp hc
      exact cancelWholeGraph_ends hr fun s' u hv => h.step (.graph (.visit hc hv))

/-- What `__graph_for_subtask` finds. -/
theorem Sched.graphForSubtask_some {s : Sched} {t : TaskID} {graph : Graph}
    (h : s.graphForSubtask t = some graph) : ∃ g ref, s.taskIdToGraphTaskId.get? t = some g ∧
      s.graphTaskIdToGraph.get? g = some ref ∧ s.graphs ref = graph := by
  unfold graphForSubtask graph? at h
  obtain ⟨g, hg, hm⟩ := Option.bind_eq_some_iff.mp h
  obtain ⟨ref, hr, he⟩ := Option.map_eq_some_iff.mp hm
  exact ⟨g, ref, hg, hr, he⟩

theorem onGraphSubTaskCancelConfirm_ends {c : TaskCancelConfirm} {w : Tok}
    (hw : w.Warrants c.taskId) (hk : p.keeps w) (h : Run cfg s (tag i {w} + M)) :
    wp cfg p i (onGraphSubTaskCancelConfirm c) (ends cfg i {w} ({Tok.fault .other} + {w})) s M := by
  refine Protocol.wp_reads ?_
  split
  · exact h
  · next hn =>
    obtain ⟨graph, hgraph⟩ := Option.ne_none_iff_exists'.mp (by simpa using hn)
    obtain ⟨g, ref, hg, hr, rfl⟩ := Sched.graphForSubtask_some hgraph
    refine wp_index hg (wp_index hr (Protocol.wp_sync ?_ ?_))
    · intro _ s₁ hm
      have hr₁ : s₁.graphTaskIdToGraph.get? g = some ref := by
        obtain rfl : (s.markNodeCanceled g ref c).2 = s₁ := congrArg Prod.snd hm
        exact hr
      have hv := wp_beside (p := p) {w} (by simpa using hk) <|
        cancelWholeGraph_ends hr₁ fun s' u hv =>
          (h.step (.graph (.nodeCanceled hw hg hr hm hv))).swap.aside
      rwa [zero_add] at hv
    · intro e s' hm
      have h : Run cfg s' (tag i ({w} + {Tok.fault .other}) + M) :=
        h.step (.graph (.nodeCanceledFail hw hg hr hm))
      exact h.swap

/-- New objects belong to the object controller's part of the state. -/
theorem generateObjectId_wp {α : Type} {k : ObjectID → Scaler.M α}
    {Q : Protocol.Post Sched Exn Tok α} {N : Multiset (Tid × Tok)} (h : Run cfg s N)
    (hk : ∀ id s', Run cfg s' N → wp cfg p i (k id) Q s' M) :
    wp cfg p i (generateObjectId >>= k) Q s M :=
  hk ⟨s.nextObject⟩ { s with nextObject := s.nextObject + 1 } (h.objects _ _ _)

theorem duplicateObjects_ends {owner : ClientID} {objects : List (ObjectID × Bytes)}
    {ids : List ObjectID} {ps : List Proc} {t : Multiset Tok} (ht : ∀ a ∈ t, p.keeps a)
    (hps : ∀ q ∈ ps, q.give = 0) (h : Run cfg s (tag i t + M)) :
    wp cfg p i (duplicateObjects owner objects ids ps) (ends cfg i t ({Tok.fault .other} + t)) s M := by
  induction objects generalizing ids ps s M with
  | nil =>
    refine wp_then (gather_ends ht ?_) (fun _ _ _ h => h) (fun _ _ _ h => h)
    have hz : (ps.map Proc.give).sum = 0 := by
      apply List.sum_eq_zero
      intro x hx
      obtain ⟨q, hq, rfl⟩ := List.mem_map.mp hx
      exact hps q hq
    rwa [hz, zero_add]
  | cons o objects ih =>
    refine generateObjectId_wp h fun id s' h => ih ?_ h
    intro q hq
    rcases List.mem_append.mp hq with hq | hq
    · exact hps q hq
    · rw [List.mem_singleton.mp hq]
      rfl

section Abort

variable {client : ClientID} {objects : List (ObjectID × Bytes)} {x : TaskResultType}

variable (g ref x) in
/-- What an abort has in hand with the nodes `ts` still to retire. -/
def abortToks (ts : List TaskID) (results : List TaskResult) : Multiset Tok :=
  toks (.retire g ref · x) ts +
    ({Tok.aborting g ref x} + toks (fun r => .owes ref (.taskResult r)) results)

theorem abortToks_isWork {ts : List TaskID} {results : List TaskResult} :
    ∀ a ∈ abortToks g ref x ts results, a.IsWork ∧ p.keeps a := by
  intro a ha
  simp only [abortToks, Multiset.mem_add, mem_toks, Multiset.mem_singleton] at ha
  rcases ha with ⟨u, _, rfl⟩ | rfl | ⟨r, _, rfl⟩
  · exact ⟨trivial, trivial⟩
  · exact ⟨trivial, trivial⟩
  · exact ⟨trivial, trivial⟩

/-- Retiring the nodes `ts` turns each into a reply that is owed. -/
theorem abortNodes_wp {Q : Protocol.Post Sched Exn Tok (TaskResult × List TaskResult)}
    {ts : List TaskID} {r : TaskResult} {results : List TaskResult} (hx : r.resultType = x)
    (h : Run cfg s (tag i (abortToks g ref x ts results) + M))
    (hk : ∀ r results s M, r.resultType = x →
      Run cfg s (tag i (abortToks g ref x [] results) + M) → Q (.ok (r, results)) s M)
    (he : ∀ e s M, Run cfg s (tag i {Tok.fault .other} + M) → Q (.error e) s M) :
    wp cfg p i (abortNodes client objects ts r results) Q s M := by
  induction ts generalizing r results s M with
  | nil => exact hk r results s M hx h
  | cons t ts ih =>
    refine Protocol.wp_seq (wp_then (duplicateObjects_ends
      (fun a ha => (abortToks_isWork a ha).2) (by simp) h) ?_ ?_)
    · intro ids s M h
      refine Protocol.wp_sync ?_ ?_
      · intro _ s' hm
        refine ih (r := { r with taskId := t, results := ids }) hx ?_
        rw [abortToks, toks_cons, add_assoc] at h
        have h := h.frame (.graph (.retire (r := { r with taskId := t, results := ids }) rfl hx hm))
        convert h using 3
        rw [abortToks, toks_append, toks_cons, toks_nil, add_zero, add_comm (toks _ results)]
        ac_rfl
      · intro e s' hm
        rw [abortToks, toks_cons, add_assoc] at h
        have h := h.frame (.graph (.nodeDoneFail (w := .retire g ref t x)
          (r := { r with taskId := t, results := ids }) rfl hm))
        refine he e s' M (Run.loseWork (t := abortToks g ref x (t :: ts) results)
          (fun a ha => (abortToks_isWork (p := p) a ha).1) ?_)
        convert h using 3
        rw [abortToks, toks_cons, pair_eq]
        ac_rfl
    · intro e s M h
      exact he e s M (h.loseWork fun a ha => (abortToks_isWork (p := p) a ha).1)

/-- The replies are sent and the umbrella task is answered when nothing else runs. -/
theorem finishAbort_ends {r : TaskResult} {results : List TaskResult} (hx : r.resultType = x)
    (hc : (s.graphs ref).client = client) (h : Run cfg s (tag i (abortToks g ref x [] results) + M)) :
    wp cfg p i (finishAbort g client r results) (ends cfg i 0 {Tok.fault .other}) s M := by
  refine wp_then (gather_ends (t := {Tok.aborting g ref x}) (by simp [Proc.keeps]) ?_) ?_ ?_
  · rw [toks_give (fun _ => rfl)]
    rw [abortToks, toks_nil, zero_add] at h
    subst hc
    exact h.swap.eachStep fun r => .graph .address
  · intro _ s M h
    refine Protocol.wp_reads ?_
    split
    · next hf =>
      refine umbrella_ends fun s' u hp => ?_
      rw [hx] at hp
      exact h.step (.graph (.abortedPop hf hp))
    · next hf => exact h.step (.graph (.abortedEnd (by simpa using hf)))
  · intro e s M h
    exact h.loseWork (by simp [Tok.IsWork])

theorem abortInactive_ends {r : TaskResult} {results : List TaskResult} (hx : r.resultType = x)
    (h : Run cfg s (tag i (abortToks g ref x [] results) + M)) :
    wp cfg p i (abortInactive g ref r objects results) (ends cfg i 0 {Tok.fault .other}) s M := by
  refine Protocol.wp_reads ?_
  split
  · exact finishAbort_ends hx rfl h
  · next ha =>
    refine Protocol.wp_sync ?_ ?_
    · intro ready s' hs
      simp only [Prod.mk.injEq] at hs
      obtain ⟨h1, rfl⟩ := hs
      have hc : ((s.setGraph ref { s.graphs ref with
          sorter := (s.graphs ref).sorter.getReady.2 }).graphs ref).client = (s.graphs ref).client := by
        simp [Sched.setGraph]
      have hready : (s.graphs ref).sorter.getReady = (.ok ready, (s.graphs ref).sorter.getReady.2) := by
        rw [← h1]
      rw [abortToks, toks_nil, zero_add] at h
      have h : Run cfg (s.setGraph ref { s.graphs ref with
          sorter := (s.graphs ref).sorter.getReady.2 }) (tag i (abortToks g ref x ready results) + M) := by
        have h := h.frame (.graph (.abortReady (by simpa using ha) hready))
        convert h using 3
        rw [abortToks]
        ac_rfl
      split
      · next hnil =>
        subst hnil
        exact finishAbort_ends hx hc h
      · refine Protocol.wp_seq (abortNodes_wp hx h ?_ (fun e s M h => h))
        intro r results s M hx h
        refine wp_ends (run_ends (t := 0) (by simp) ?_) (fun _ _ _ h => h) ?_
        · rw [abortToks, toks_nil, zero_add] at h
          rwa [add_zero, Proc.give, hx]
        · intro e s M h
          rwa [add_zero] at h
    · intro e s' hs
      obtain ⟨ready, hready⟩ := Option.isSome_iff_exists.mp (h.sane.graphs ref)
      simp [TopologicalSorter.getReady, hready] at hs

theorem abortWholeGraph_ends {r : TaskResult} (hr : s.graphTaskIdToGraph.get? g = some ref)
    (ha : ∀ s' u, AbortStep g r.resultType s s' u → Run cfg s' (tag i u + M)) :
    wp cfg p i (abortWholeGraph g r) (ends cfg i 0 {Tok.fault .other}) s M := by
  refine Protocol.wp_reads ?_
  split
  · next hf => exact umbrella_ends fun s' u hp => ha _ _ (.pop hf hp)
  · next hf =>
    refine wp_index hr (Protocol.wp_reads (Protocol.wp_modify (Protocol.wp_reads ?_)))
    have h := ha _ _ (.abort (by simpa using hf) hr)
    have ht : ({Tok.aborting g ref r.resultType} : Multiset Tok) +
        toks (.retire g ref · r.resultType) (s.graphs ref).runningTaskIds =
          abortToks g ref r.resultType (s.graphs ref).runningTaskIds [] := by
      rw [abortToks, toks_nil, add_zero, add_comm]
    rw [ht] at h
    refine Protocol.wp_seq (abortNodes_wp rfl h ?_ (fun e s M h => h))
    · intro r' results s M hx h
      refine wp_ends (run_ends (t := 0) (by simp) ?_) (fun _ _ _ h => h) ?_
      · rw [abortToks, toks_nil, zero_add] at h
        rwa [add_zero, Proc.give, hx]
      · intro e s M h
        rwa [add_zero] at h

end Abort

theorem onGraphSubTaskResult_ends {r : TaskResult} {w : Tok} (hw : w.Warrants r.taskId)
    (hn : ∀ g ref t x, w ≠ .retire g ref t x) (hk : p.keeps w) (h : Run cfg s (tag i {w} + M)) :
    wp cfg p i (onGraphSubTaskResult r) (ends cfg i {w} ({Tok.fault .other} + {w})) s M := by
  refine Protocol.wp_reads ?_
  split
  · exact h
  · next graph hgraph =>
    obtain ⟨g, ref, hg, hr, rfl⟩ := Sched.graphForSubtask_some hgraph
    refine wp_index hg ?_
    split
    · exact onGraphSubTaskCancelConfirm_ends hw hk h
    · next hc =>
      refine Protocol.wp_sync ?_ ?_
      · intro _ s₁ hm
        have hr₁ : s₁.graphTaskIdToGraph.get? g = some ref := by
          obtain ⟨tracker, deleted, he⟩ := Sched.markNodeDone_eq hg hr
          obtain rfl : (s.markNodeDone r).2 = s₁ := congrArg Prod.snd hm
          rw [he]
          exact hr
        have hprep := Sched.prepared_markNodeDone h.sane.graphs hm
        split
        · next hs =>
          have hv := wp_beside (p := p) {w} (by simpa using hk) <|
            checkOneGraph_ends hr₁ (hprep ref) fun s' u hv => (h.step (.graph
              (.nodeDone hw hg hr hc hm hn (fun _ => hv) fun hx => absurd hs hx))).swap.aside
          rwa [zero_add] at hv
        · next hs =>
          have hv := wp_beside (p := p) {w} (by simpa using hk) <|
            abortWholeGraph_ends hr₁ fun s' u hv => (h.step (.graph
              (.nodeDone hw hg hr hc hm hn (fun hx => absurd hx hs) fun _ => hv))).swap.aside
          rwa [zero_add] at hv
      · intro e s' hm
        have h : Run cfg s' (tag i ({w} + {Tok.fault .other}) + M) :=
          h.step (.graph (.nodeDoneFail hw hm))
        exact h.swap

section Registration

variable {client : ClientID} {gt : GraphTask}

theorem NewGraph.ofTasks_append (tasks : List Task) (task : Task) :
    NewGraph.ofTasks (tasks ++ [task]) = (NewGraph.ofTasks tasks).addTask task := by
  simp [NewGraph.ofTasks]

theorem addNodes_wp {Q : Protocol.Post Sched Exn Tok NewGraph} {done rest : List Task}
    (hd : gt.graph = done ++ rest) (h : Run cfg s (tag i {Tok.adding client gt done} + M))
    (hk : ∀ s M, Run cfg s (tag i {Tok.adding client gt gt.graph} + M) →
      Q (.ok (NewGraph.ofTasks gt.graph)) s M)
    (he : ∀ e s M, Run cfg s (tag i {Tok.fault .other} + M) → Q (.error e) s M) :
    wp cfg .graphRoutine i (addNodes gt.taskId rest (NewGraph.ofTasks done)) Q s M := by
  induction rest generalizing done s M with
  | nil =>
    rw [List.append_nil] at hd
    subst hd
    exact hk s M h
  | cons task rest ih =>
    refine Protocol.wp_modify (wp_then (monitorSend_ends (t := {Tok.adding client gt (done ++ [task])})
      (by simp [Proc.keeps]) (h.step (.graph (.addNode hd)))) ?_ ?_)
    · intro _ s M h
      rw [← NewGraph.ofTasks_append]
      exact ih (by simp [hd]) h
    · intro e s M h
      exact he e s M ((h.loseWork (by simp [Tok.IsWork])).step (.other (.weaken rfl)))

theorem Sched.onTaskBegin_error {s s' : Sched} {c : ClientID} {t : TaskID} {e : Exn}
    (h : s.onTaskBegin c t = (.error e, s')) : s' = s := by
  obtain rfl : (s.onTaskBegin c t).2 = s' := congrArg Prod.snd h
  have he : (s.clientToTaskIds.add c t).1 = .error e := congrArg Prod.fst h
  unfold Sched.onTaskBegin
  unfold OneToManyDict.add at he ⊢
  split at he
  · next hc => simp only [if_pos hc]
  · cases he

theorem addNewGraph_ends (h : Run cfg s (tag i {Tok.taken client gt} + M)) :
    wp cfg .graphRoutine i (addNewGraph client gt) (ends cfg i 0 {Tok.fault .other}) s M := by
  refine wp_syncNoting ?_ ?_
  · intro _ s' hb
    have h : Run cfg _ (tag i {Tok.adding client gt []} + M) := h.step (.graph (.beginGraph hb))
    refine Protocol.wp_modify (Protocol.wp_seq (addNodes_wp rfl h ?_ (fun e s M h => h)))
    intro s M h
    refine wp_syncNoting ?_ ?_
    · intro sorter s' hp
      simp only [Prod.mk.injEq] at hp
      obtain ⟨hp, rfl⟩ := hp
      refine Protocol.wp_modify (checkOneGraph_ends (Dict.get?_set_self _ _ s.nextGraph) ?_
        fun s' u hc => h.step (.graph (.registerGraph hp hc)))
      · exact Sched.prepared_setGraph h.sane.graphs (Graph.prepared_ofTasks hp) s.nextGraph
    · intro e s' hp
      simp only [Prod.mk.injEq] at hp
      obtain ⟨hp, rfl⟩ := hp
      exact (h.step (.graph (.rejectGraph hp))).step (.other (.weaken rfl))
  · intro e s' hb
    rw [Sched.onTaskBegin_error hb]
    exact (h.step (.graph (.refuseGraph hb))).step (.other (.weaken rfl))

theorem graphRoutine_ends (h : Run cfg s M) :
    wp cfg .graphRoutine i graphRoutine (ends cfg i 0 {Tok.fault .other}) s M := by
  have h : Run cfg s (tag i 0 + M) := by simpa using h
  refine Protocol.wp_await 0 (by simp) trivial h ?_
  intro s M h hr
  cases hq : s.graphQueue with
  | nil => simp [hq] at hr
  | cons a rest =>
    obtain ⟨client, gt⟩ := a
    have hhead : s.graphQueue.head? = some (client, gt) := by simp [hq]
    refine wp_index hhead (Protocol.wp_modify (addNewGraph_ends ?_))
    simp only [hq, List.tail_cons]
    exact h.step (.graph (.takeGraph hq))

end Registration

end Scaler
