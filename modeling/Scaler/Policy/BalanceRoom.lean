import Scaler.Policy.BalanceLevels
import Scaler.Policy.Calls

/-! Whether the moves of `balance` fit into the queues of their receivers. The balancer compares
loads with the target and never looks at a queue's size. -/

namespace Scaler

open Collections

namespace CapabilityAllocatePolicy

/-- Every worker is stored under its own identifier and holds no more than its queue takes. -/
structure Bounded (p : CapabilityAllocatePolicy) : Prop where
  keyed : p.Keyed
  fits : ∀ w h, p.workerIdToWorker.get? w = some h → h.nTasks ≤ h.queueSize

theorem bounded_empty : empty.Bounded := by
  constructor
  · intro w h hget
    cases hget
  · intro w h hget
    cases hget

theorem Bounded.set {p p' : CapabilityAllocatePolicy} (h : p.Bounded) {w : WorkerID} {x : WorkerHolder}
    (he : p'.workerIdToWorker = p.workerIdToWorker.set w x) (hw : x.workerId = w) (hx : x.nTasks ≤ x.queueSize) :
    p'.Bounded := by
  refine ⟨h.keyed.set he hw, fun v y hy => ?_⟩
  rw [he] at hy
  obtain ⟨-, rfl⟩ | hy := Dict.get?_set_cases hy
  · exact hx
  · exact h.fits v y hy

theorem Bounded.of_erase {p p' : CapabilityAllocatePolicy} (h : p.Bounded) {w : WorkerID}
    (he : p'.workerIdToWorker = p.workerIdToWorker.erase w) : p'.Bounded := by
  have hold : ∀ v y, p'.workerIdToWorker.get? v = some y → p.workerIdToWorker.get? v = some y := by
    intro v y hy
    rw [he, Dict.get?_erase] at hy
    split at hy
    · cases hy
    · exact hy
  exact ⟨fun v y hy => h.keyed v y (hold v y hy), fun v y hy => h.fits v y (hold v y hy)⟩

theorem afterCall_eq_ok {α σ : Type} {r : Except Exn α × σ} {s : σ} (h : afterCall r = .ok s) : r.2 = s := by
  obtain ⟨outcome, after⟩ := r
  cases outcome with
  | ok a =>
    cases h
    rfl
  | error e => cases h

/-- A worker that may be picked has a free slot. -/
theorem free_of_mem_availableWorkers {p : CapabilityAllocatePolicy} {capabilities : List (String × Int)}
    {x : WorkerHolder} (h : x ∈ p.availableWorkers capabilities) : x ∈ p.workers ∧ x.nTasks + 1 ≤ x.queueSize := by
  rw [availableWorkers] at h
  split at h
  · cases h
  · obtain ⟨hmem, hfree⟩ := List.mem_filter.mp h
    rw [Bool.and_eq_true, decide_eq_true_eq, WorkerHolder.nFree] at hfree
    exact ⟨hmem, by omega⟩

theorem Bounded.removeTask {p : CapabilityAllocatePolicy} (h : p.Bounded) (t : TaskID) : (p.removeTask t).2.Bounded := by
  rw [CapabilityAllocatePolicy.removeTask]
  split
  · exact h
  · dsimp only
    split
    · exact ⟨h.keyed, h.fits⟩
    · next x hx =>
      split
      · refine h.set rfl (h.keyed _ x hx) (Nat.le_trans ?_ (h.fits _ x hx))
        exact (eraseIn_sublist t x.taskIdToTask.entries).length_le
      · exact ⟨h.keyed, h.fits⟩

theorem Bounded.removeWorker {p : CapabilityAllocatePolicy} (h : p.Bounded) (w : WorkerID) :
    (p.removeWorker w).2.Bounded := by
  rw [CapabilityAllocatePolicy.removeWorker]
  split
  · exact h
  · dsimp only
    split
    · exact h.of_erase rfl
    · exact h.of_erase rfl

theorem Bounded.call {p p' : CapabilityAllocatePolicy} (h : p.Bounded) {c : PolicyCall} (hc : p.call c = .ok p') :
    p'.Bounded := by
  cases c with
  | addWorker w capabilities queueSize =>
    cases hc
    rw [addWorker]
    split
    · exact h
    · exact h.set rfl rfl (Nat.zero_le _)
  | removeWorker w => exact afterCall_eq_ok hc ▸ h.removeWorker w
  | assignTask order task =>
    cases hc
    rw [assignTaskIn]
    split
    · exact h
    · next x hx =>
      obtain ⟨-, hfree⟩ := free_of_mem_availableWorkers ((order.perm _).mem_iff.mp (minLoaded_mem hx))
      exact h.set rfl rfl ((nTasks_set_le x _ _).trans hfree)
  | removeTask t => exact afterCall_eq_ok hc ▸ h.removeTask t

theorem bounded_calls {cs : List PolicyCall} {p : CapabilityAllocatePolicy} (h : cs.foldlM call empty = .ok p) :
    p.Bounded := by
  have hall : ∀ {p₀ : CapabilityAllocatePolicy}, p₀.Bounded → cs.foldlM call p₀ = .ok p → p.Bounded := by
    clear h
    induction cs with
    | nil =>
      intro p₀ h₀ h
      cases h
      exact h₀
    | cons c cs ih =>
      intro p₀ h₀ h
      rw [List.foldlM_cons] at h
      cases hc : p₀.call c with
      | error e =>
        rw [hc] at h
        cases h
      | ok p₁ =>
        rw [hc] at h
        exact ih (h₀.call hc) h
  exact hall bounded_empty h

/-- Every worker that is below the target by a whole task has room for what it could get: up to the target, or all
that the donors have for it; or the donors have too little to raise it above its queue size. -/
def Roomy (p : CapabilityAllocatePolicy) : Prop :=
  p.hasIdleWorkers = true → ∀ v w, p.workerIdToWorker.get? v = some w → (w.nTasks : ℚ) ≤ p.balanceTarget - 1 →
    ⌊p.balanceTarget⌋₊ ≤ w.queueSize ∨ w.nTasks + p.offered w ≤ w.queueSize ∨
      ∀ d ∈ p.donors, ∀ task ∈ d.taskIdToTask.entries, acceptable w task = true → p.surplus < p.raising w task

section

variable {p : CapabilityAllocatePolicy} {moves : List BalanceMove}

/-- Where there is room for all that a worker could get, the moves fit. -/
theorem Moved.fits (h : p.Moved p.balanceTarget moves) (hlevelled : p.Levelled moves) (hbounded : p.Bounded)
    (hidle : p.hasIdleWorkers = true) (hroomy : p.Roomy) {v : WorkerID} {x : WorkerHolder}
    (hx : (p.afterMoves moves).get? v = some x) : x.nTasks ≤ x.queueSize := by
  obtain ⟨w, hw, hsame⟩ := h.same v x hx
  have hheld := hbounded.fits v w hw
  have hgot := nTasks_le_received hx hw
  rw [hsame.queueSize]
  by_cases hnone : (moves.filter fun m => m.receiver = v) = []
  · rw [hnone] at hgot
    exact hgot.trans hheld
  · obtain ⟨m, hm⟩ := List.exists_mem_of_ne_nil _ hnone
    obtain ⟨hm, hreceiver⟩ := List.mem_filter.mp hm
    obtain ⟨x', hx', hle⟩ := h.received m hm
    rw [of_decide_eq_true hreceiver, hx] at hx'
    cases hx'
    have hfloor : x.nTasks ≤ ⌊p.balanceTarget⌋₊ := Nat.le_floor hle
    by_cases hlow : (w.nTasks : ℚ) ≤ p.balanceTarget - 1
    · obtain hroom | hroom | hlittle := hroomy hidle v w hw hlow
      · exact hfloor.trans hroom
      · exact hgot.trans ((Nat.add_le_add_left (h.received_le hbounded.keyed hw) _).trans hroom)
      · by_contra hover
        obtain ⟨d, hd, task, htask, haccepts, hraising⟩ :=
          hlevelled.raising_le h hbounded.keyed hw hheld hx (Nat.lt_of_not_le hover)
        have hfew := hlittle d hd task htask (List.all_eq_true.mpr fun c hc => decide_eq_true (haccepts c hc))
        exact absurd hraising (Nat.not_le_of_lt hfew)
    · have hone : (1 : ℚ) ≤ p.balanceTarget := le_max_right _ _
      have hlt : ⌊p.balanceTarget⌋₊ < w.nTasks + 1 := by
        rw [Nat.floor_lt (by linarith)]
        push_cast
        linarith
      exact hfloor.trans ((Nat.lt_succ_iff.mp hlt).trans hheld)

end

/-- Whatever the calls that led to a state, if the workers below the target have room for what they
could get, then the advice of `balance` can be carried out: every advised task has another worker
that accepts it, and with all of them moved no worker holds more than its queue takes. -/
theorem advice_fits (lists : SortedKeyList WorkerHolder WorkerHolder.nTasks) (cs : List PolicyCall)
    {p : CapabilityAllocatePolicy} (hp : cs.foldlM call empty = .ok p) (hroomy : p.Roomy) :
    ∃ n final, p.Returns lists n final ∧
      (∀ w, (final.balancingAdvice.get? w).getD [] =
        (final.moves.filter fun m => m.donor = w).map fun m => m.task.1) ∧
      (∀ m ∈ final.moves, m.receiver ≠ m.donor ∧
        ∃ h, p.workerIdToWorker.get? m.receiver = some h ∧ h.Accepts m.task) ∧
      ∀ v x, (p.afterMoves final.moves).get? v = some x → x.nTasks ≤ x.queueSize := by
  have hbounded := bounded_calls hp
  by_cases hidle : p.hasIdleWorkers = true
  · obtain ⟨n, final, last, hreturns, ⟨hlisted, hlevelled⟩, -, hmoves, hadvice⟩ :=
      returns_of_rounds lists hidle (I := fun st => p.Listed p.balanceTarget st ∧ p.Levelled st.moves)
        (fun st st' h hround => ⟨h.1.round hround, h.2.round h.1 hround⟩)
        ⟨listed_start lists hbounded.keyed, levelled_nil p⟩
    have hsound := hlisted.soundAdvice
    refine ⟨n, final, hreturns, ?_⟩
    rw [hmoves, hadvice]
    exact ⟨hsound.advised, hsound.accepted, fun v x hx => hlisted.moved.fits hlevelled hbounded hidle hroomy hx⟩
  · refine ⟨0, ⟨[], Dict.empty, [], []⟩, returns_of_run fun k _ => ?_, fun w => rfl, by simp, hbounded.fits⟩
    rw [balanceRun, if_neg hidle]

/-- The calls behind `hoarding`. -/
def hoardingCalls (n queueSize : Nat) : List PolicyCall :=
  PolicyCall.addWorker ⟨1⟩ [] n :: (List.range n).map (fun t => PolicyCall.assignTask .insertion ⟨⟨t⟩, ⟨0⟩, [], ⟨0⟩, [], []⟩) ++
    [.addWorker ⟨2⟩ [] queueSize]

theorem advice_fits_hoarding : (hoarding 4 2).Roomy ∧
    ∃ n final, (hoarding 4 2).Returns (.stable _) n final ∧
      ∀ v x, ((hoarding 4 2).afterMoves final.moves).get? v = some x → x.nTasks ≤ x.queueSize := by
  have hroomy : (hoarding 4 2).Roomy := by
    intro _ v w hw _
    have hmem : (v, w) ∈ (hoarding 4 2).workerIdToWorker.entries := (Dict.mem_entries _ _ _).mpr hw
    have hall : ∀ e ∈ (hoarding 4 2).workerIdToWorker.entries, ⌊(hoarding 4 2).balanceTarget⌋₊ ≤ e.2.queueSize := by
      decide +kernel
    exact .inl (hall (v, w) hmem)
  obtain ⟨n, final, hreturns, -, -, hfits⟩ :=
    advice_fits (.stable _) (hoardingCalls 4 2) (p := hoarding 4 2) rfl hroomy
  exact ⟨hroomy, n, final, hreturns, hfits⟩

/-- Two of the four tasks are advised for an idle worker whose queue takes one. -/
theorem advice_overfills :
    (hoardingCalls 4 1).foldlM call empty = .ok (hoarding 4 1) ∧
    ∃ final, (hoarding 4 1).balanceRun (.stable _) 10 = some (.ok final) ∧
      (hoarding 4 1).balance (.stable _) 10 = some (.ok final.balancingAdvice, hoarding 4 1) ∧
      (hoarding 4 1).loadAfter final.moves ⟨2⟩ = 2 ∧
      ((hoarding 4 1).workerIdToWorker.get? ⟨2⟩).map WorkerHolder.queueSize = some 1 := by
  have hrun : ((hoarding 4 1).balanceRun (.stable _) 10).map (fun r => r.map BalanceState.moves) =
      some (.ok [⟨⟨1⟩, (⟨3⟩, []), ⟨2⟩⟩, ⟨⟨1⟩, (⟨2⟩, []), ⟨2⟩⟩]) := by
    decide +kernel
  obtain ⟨r, hr, hmoves⟩ := Option.map_eq_some_iff.mp hrun
  cases r with
  | error e => cases hmoves
  | ok final =>
    refine ⟨rfl, final, hr, ?_, ?_, rfl⟩
    · rw [balance, hr]
      rfl
    · have hfinal : final.moves = [⟨⟨1⟩, (⟨3⟩, []), ⟨2⟩⟩, ⟨⟨1⟩, (⟨2⟩, []), ⟨2⟩⟩] := Except.ok.inj hmoves
      rw [hfinal]
      decide

end CapabilityAllocatePolicy

end Scaler
