import Mathlib.Data.List.Nodup
import Scaler.Collections.Outcome
import Scaler.Worker.Agent

/-! A task that is processed has one processor or is being reported as failed, and the
processors that are in use are registered under their own ids. -/

namespace Scaler.Worker.Agent

open Collections

variable {s s' : Agent} {t : TaskID} {p : Nat}

/-- The task of a process. -/
def taskOf (s : Agent) (process : Nat) : Option TaskID := (s.holders process).task.map (·.taskId)

/-- The tasks whose failures are being stored, by the heartbeat or by the dispatcher. -/
def reported (s : Agent) : List TaskID :=
  s.heartbeat.toList.map (·.taskId) ++ match s.dispatcher with
    | .storing task => [task.taskId]
    | _ => []

/-- A task that is being processed has one processor, the current one or one that is
suspended for it, or its failure is being stored. -/
structure Held (s : Agent) : Prop where
  held : ∀ p t, s.taskOf p = some t → t ∈ s.processingTaskIds ∧
    (s.currentHolder = some p ∨ s.suspendedHoldersByTaskId.get? t = some p)
  suspended : ∀ t p, s.suspendedHoldersByTaskId.get? t = some p →
    s.taskOf p = some t ∧ s.currentHolder ≠ some p ∧ p < s.started
  alone : ∀ p t, s.currentHolder = some p → s.taskOf p = some t →
    s.suspendedHoldersByTaskId.get? t = none
  current : ∀ p, s.currentHolder = some p → p < s.started
  nodup : s.processingTaskIds.Nodup
  reported : ∀ t ∈ s.reported, t ∈ s.processingTaskIds ∧ ∀ p, s.taskOf p ≠ some t
  once : s.reported.Nodup

@[simp] theorem taskOf_setHolder (s : Agent) (p q : Nat) (r : Holder) :
    (s.setHolder p r).taskOf q = if q = p then r.task.map (·.taskId) else s.taskOf q := by
  simp only [taskOf, setHolder, Function.update_apply]
  split <;> rfl

@[simp] theorem taskOf_killProcessor (s : Agent) (p q : Nat) :
    (s.killProcessor p).taskOf q = if q = p then none else s.taskOf q :=
  taskOf_setHolder s p q { s.holders p with task := none }

@[simp] theorem taskOf_startNewProcessor (s : Agent) (q : Nat) :
    s.startNewProcessor.taskOf q = if q = s.started then none else s.taskOf q :=
  taskOf_setHolder s s.started q ⟨none, none, false⟩

theorem currentTaskId_eq_some : s.currentTaskId = some t ↔ ∃ p, s.currentHolder = some p ∧ s.taskOf p = some t := by
  unfold currentTaskId currentTask taskOf
  cases s.currentHolder <;> simp

theorem killProcessor_endTask (s : Agent) (p : Nat) : (s.endTask p).killProcessor p = s.killProcessor p := by
  simp [killProcessor, endTask, setHolder]

/-- A failing processor is no longer looked up for its task, whether it was before or not. -/
theorem onFailingProcessor_erase (hreg : s.holdersByProcessorId.get? p = some p) (ht : s.taskOf p = some t) :
    onFailingProcessor { s with suspendedHoldersByTaskId := s.suspendedHoldersByTaskId.erase t } p =
      s.onFailingProcessor p := by
  obtain ⟨task, htask, rfl⟩ := Option.map_eq_some_iff.mp ht
  have htwice : (s.suspendedHoldersByTaskId.erase task.taskId).erase task.taskId =
      s.suspendedHoldersByTaskId.erase task.taskId :=
    Dict.erase_of_get?_none (Dict.get?_erase_self _ _)
  simp only [onFailingProcessor, hreg, htask, htwice]

section Held

variable (hs : s.Held)

include hs

theorem Held.unique {q : Nat} (hp : s.taskOf p = some t) (hq : s.taskOf q = some t) : p = q := by
  rcases (hs.held p t hp).2 with hp' | hp' <;> rcases (hs.held q t hq).2 with hq' | hq'
  · exact Option.some.inj (hp'.symm.trans hq')
  · rw [hs.alone p t hp' hp] at hq'
    cases hq'
  · rw [hs.alone q t hq' hq] at hp'
    cases hp'
  · exact Option.some.inj (hp'.symm.trans hq')

theorem Held.setHolder {r : Holder} (hr : r.task = (s.holders p).task) : (s.setHolder p r).Held := by
  have htask : ∀ q, (s.setHolder p r).taskOf q = s.taskOf q := by
    intro q
    rw [taskOf_setHolder]
    split
    · next hq =>
      rw [hr, hq]
      rfl
    · rfl
  refine ⟨fun q t hq => hs.held q t (htask q ▸ hq), fun t q hq => ?_, fun q t hc hq => ?_, hs.current, hs.nodup,
    fun t ht => ?_, hs.once⟩
  · rw [htask]
    exact hs.suspended t q hq
  · rw [htask] at hq
    exact hs.alone q t hc hq
  · refine ⟨(hs.reported t ht).1, fun q => ?_⟩
    rw [htask]
    exact (hs.reported t ht).2 q

/-- A process loses its task; what was suspended for it is forgotten. -/
theorem Held.clear {r : Holder} (hr : r.task = none) (suspended : Dict TaskID Nat)
    (hsus : ∀ t q, suspended.get? t = some q ↔ s.suspendedHoldersByTaskId.get? t = some q ∧ q ≠ p) :
    Held { s.setHolder p r with suspendedHoldersByTaskId := suspended } := by
  have htask : ∀ q t, taskOf { s.setHolder p r with suspendedHoldersByTaskId := suspended } q = some t ↔
      s.taskOf q = some t ∧ q ≠ p := by
    intro q t
    have hq := taskOf_setHolder s p q r
    rw [hr] at hq
    by_cases hqp : q = p
    · rw [if_pos hqp] at hq
      simp [hqp, show taskOf { s.setHolder p r with suspendedHoldersByTaskId := suspended } p = none from
        hqp ▸ hq]
    · rw [if_neg hqp] at hq
      simp [hqp, show taskOf { s.setHolder p r with suspendedHoldersByTaskId := suspended } q = s.taskOf q from hq]
  refine ⟨fun q t hq => ?_, fun t q hq => ?_, fun q t hc hq => ?_, hs.current, hs.nodup, fun t ht => ?_, hs.once⟩
  · obtain ⟨hq, hne⟩ := (htask q t).mp hq
    obtain ⟨hm, hor⟩ := hs.held q t hq
    exact ⟨hm, hor.imp_right fun hq' => (hsus t q).mpr ⟨hq', hne⟩⟩
  · obtain ⟨hq, hne⟩ := (hsus t q).mp hq
    obtain ⟨ht, hc, hlt⟩ := hs.suspended t q hq
    exact ⟨(htask q t).mpr ⟨ht, hne⟩, hc, hlt⟩
  · have hnone := hs.alone q t hc ((htask q t).mp hq).1
    cases hq' : suspended.get? t with
    | none => rfl
    | some r' =>
      rw [((hsus t r').mp hq').1] at hnone
      cases hnone
  · refine ⟨(hs.reported t ht).1, fun q hq => ?_⟩
    exact (hs.reported t ht).2 q ((htask q t).mp hq).1

theorem Held.kill (hp : ∀ t, s.suspendedHoldersByTaskId.get? t ≠ some p) : (s.killProcessor p).Held := by
  have hclear := hs.clear (p := p) (r := { s.holders p with task := none }) rfl
    s.suspendedHoldersByTaskId fun t q => ⟨fun hq => ⟨hq, fun he => hp t (he ▸ hq)⟩, And.left⟩
  exact ⟨hclear.held, hclear.suspended, hclear.alone, hclear.current, hclear.nodup, hclear.reported, hclear.once⟩

theorem Held.start (hidle : ∀ p, s.currentHolder = some p → s.taskOf p = none) : s.startNewProcessor.Held := by
  have hnew : s.taskOf s.started = none := by
    cases ht : s.taskOf s.started with
    | none => rfl
    | some t =>
      rcases (hs.held _ t ht).2 with hc | hq
      · exact absurd (hs.current _ hc) (Nat.lt_irrefl _)
      · exact absurd (hs.suspended t _ hq).2.2 (Nat.lt_irrefl _)
  have htask : ∀ q, s.startNewProcessor.taskOf q = s.taskOf q := by
    intro q
    rw [taskOf_startNewProcessor]
    split
    · next hq =>
      rw [hq]
      exact hnew.symm
    · rfl
  refine ⟨fun q t hq => ?_, fun t q hq => ?_, fun q t hc hq => ?_, fun q hc => ?_, hs.nodup, fun t ht => ?_, hs.once⟩
  · rw [htask] at hq
    obtain ⟨hm, hor⟩ := hs.held q t hq
    refine ⟨hm, .inr (hor.resolve_left fun hc => ?_)⟩
    rw [hidle q hc] at hq
    cases hq
  · obtain ⟨ht, hc, hlt⟩ := hs.suspended t q hq
    exact ⟨(htask q).trans ht, fun he => Nat.ne_of_lt hlt (Option.some.inj he).symm, Nat.lt_succ_of_lt hlt⟩
  · cases hc
    rw [htask, hnew] at hq
    cases hq
  · cases hc
    exact Nat.lt_succ_self _
  · refine ⟨(hs.reported t ht).1, fun q => ?_⟩
    rw [htask]
    exact (hs.reported t ht).2 q

theorem Held.finish (hfree : ∀ p, s.taskOf p ≠ some t) (hrep : t ∉ s.reported) :
    Held { s with processingTaskIds := s.processingTaskIds.erase t } := by
  refine ⟨fun q u hq => ?_, hs.suspended, hs.alone, hs.current, hs.nodup.erase t, fun u hu => ?_, hs.once⟩
  · obtain ⟨hm, hor⟩ := hs.held q u hq
    refine ⟨(List.mem_erase_of_ne ?_).mpr hm, hor⟩
    rintro rfl
    exact hfree q hq
  · obtain ⟨hm, hfree'⟩ := hs.reported u hu
    refine ⟨(List.mem_erase_of_ne ?_).mpr hm, hfree'⟩
    rintro rfl
    exact hrep hu

theorem Held.suspend {r : Holder} (hr : r.task = (s.holders p).task) (hc : s.currentHolder = some p)
    (ht : s.taskOf p = some t) :
    Held (startNewProcessor { s.setHolder p r with
      suspendedHoldersByTaskId := s.suspendedHoldersByTaskId.set t p }) := by
  have hs' := hs.setHolder hr
  have htask : (s.setHolder p r).taskOf p = some t := by
    rw [taskOf_setHolder, if_pos rfl, hr]
    exact ht
  have hlt : p < s.started := hs.current p hc
  have hnew : ∀ q u, (startNewProcessor { s.setHolder p r with
      suspendedHoldersByTaskId := s.suspendedHoldersByTaskId.set t p }).taskOf q = some u →
        (s.setHolder p r).taskOf q = some u := by
    intro q u hq
    rw [taskOf_startNewProcessor] at hq
    split at hq
    · cases hq
    · exact hq
  have hkept : ∀ q u, q < s.started → (s.setHolder p r).taskOf q = some u →
      (startNewProcessor { s.setHolder p r with
        suspendedHoldersByTaskId := s.suspendedHoldersByTaskId.set t p }).taskOf q = some u := by
    intro q u hq hu
    exact (taskOf_startNewProcessor _ q).trans ((if_neg (Nat.ne_of_lt hq)).trans hu)
  refine ⟨fun q u hq => ?_, fun u q hq => ?_, fun q u hcq hq => ?_, fun q hcq => ?_, hs.nodup, fun u hu => ?_, hs.once⟩
  · have hq' := hnew q u hq
    obtain ⟨hm, hor⟩ := hs'.held q u hq'
    refine ⟨hm, .inr ?_⟩
    show (s.suspendedHoldersByTaskId.set t p).get? u = some q
    rw [Dict.get?_set]
    rcases hor with hcq | hsq
    · cases hc.symm.trans hcq
      cases htask.symm.trans hq'
      rw [if_pos rfl]
    · have hne : u ≠ t := by
        rintro rfl
        have hnone := hs.alone p u hc ht
        rw [show s.suspendedHoldersByTaskId.get? u = some q from hsq] at hnone
        cases hnone
      rw [if_neg hne]
      exact hsq
  · have hq' : (s.suspendedHoldersByTaskId.set t p).get? u = some q := hq
    rw [Dict.get?_set] at hq'
    have hold : (s.setHolder p r).taskOf q = some u ∧ q < s.started := by
      split at hq'
      · next hu =>
        cases hq'
        exact ⟨hu ▸ htask, hlt⟩
      · obtain ⟨hu, -, hlt'⟩ := hs'.suspended u q hq'
        exact ⟨hu, hlt'⟩
    exact ⟨hkept q u hold.2 hold.1, fun he => Nat.ne_of_lt hold.2 (Option.some.inj he).symm,
      Nat.lt_succ_of_lt hold.2⟩
  · cases hcq
    rw [taskOf_startNewProcessor] at hq
    split at hq
    · cases hq
    · next hne => exact absurd rfl hne
  · cases hcq
    exact Nat.lt_succ_self _
  · refine ⟨(hs.reported u hu).1, fun q hq => ?_⟩
    exact (hs'.reported u hu).2 q (hnew q u hq)

theorem Held.give {r : Holder} (hc : s.currentHolder = some p) (hr : r.task.map (·.taskId) = some t)
    (hnew : t ∉ s.processingTaskIds) :
    Held { s.setHolder p r with processingTaskIds := s.processingTaskIds ++ [t] } := by
  have htask : ∀ q, taskOf { s.setHolder p r with processingTaskIds := s.processingTaskIds ++ [t] } q =
      if q = p then some t else s.taskOf q := by
    intro q
    rw [← hr]
    exact taskOf_setHolder s p q r
  refine ⟨fun q u hq => ?_, fun u q hq => ?_, fun q u hcq hq => ?_, hs.current, ?_, fun u hu => ?_, hs.once⟩
  · rw [htask] at hq
    split at hq
    · next hqp =>
      cases hq
      exact ⟨List.mem_append_right _ List.mem_cons_self, .inl (hqp ▸ hc)⟩
    · obtain ⟨hm, hor⟩ := hs.held q u hq
      exact ⟨List.mem_append_left _ hm, hor⟩
  · obtain ⟨hu, hne, hlt⟩ := hs.suspended u q hq
    have hqp : q ≠ p := fun he => hne (he ▸ hc)
    exact ⟨by rw [htask, if_neg hqp, hu], hne, hlt⟩
  · have hqp : q = p := Option.some.inj (hcq.symm.trans hc)
    rw [htask, if_pos hqp] at hq
    cases hq
    cases hsus : s.suspendedHoldersByTaskId.get? t with
    | none => exact hsus
    | some x => exact absurd (hs.held x t (hs.suspended t x hsus).1).1 hnew
  · exact List.nodup_append.mpr ⟨hs.nodup, List.nodup_singleton t, fun a ha b hb he =>
      hnew (List.mem_singleton.mp hb ▸ he ▸ ha)⟩
  · obtain ⟨hm, hfree⟩ := hs.reported u hu
    refine ⟨List.mem_append_left _ hm, fun q hq => ?_⟩
    rw [htask] at hq
    split at hq
    · cases hq
      exact hnew hm
    · exact hfree q hq

/-- A suspended process takes the place of the current one. -/
theorem Held.resume {r : Holder} {c : Nat} (hsus : s.suspendedHoldersByTaskId.get? t = some p)
    (hr : r.task = (s.holders p).task) (hc : s.currentHolder = some c) (hidle : s.taskOf c = none) :
    Held { killProcessor { s.setHolder p r with
      suspendedHoldersByTaskId := s.suspendedHoldersByTaskId.erase t } c with currentHolder := some p } := by
  have hs' := hs.setHolder hr
  obtain ⟨htp, hpc, hlt⟩ := hs'.suspended t p hsus
  have hcp : p ≠ c := fun he => hpc (he ▸ hc)
  have htask : ∀ q, taskOf { killProcessor { s.setHolder p r with
      suspendedHoldersByTaskId := s.suspendedHoldersByTaskId.erase t } c with currentHolder := some p } q =
        (s.setHolder p r).taskOf q := by
    intro q
    refine (taskOf_killProcessor { s.setHolder p r with
      suspendedHoldersByTaskId := s.suspendedHoldersByTaskId.erase t } c q).trans ?_
    split
    · next hq =>
      rw [taskOf_setHolder, hq, if_neg (Ne.symm hcp), hidle]
    · rfl
  have hget : ∀ u q, (s.suspendedHoldersByTaskId.erase t).get? u = some q ↔
      u ≠ t ∧ s.suspendedHoldersByTaskId.get? u = some q := by
    intro u q
    rw [Dict.get?_erase]
    by_cases hu : u = t <;> simp [hu]
  refine ⟨fun q u hq => ?_, fun u q hq => ?_, fun q u hcq hq => ?_, fun q hcq => ?_, hs.nodup, fun u hu => ?_, hs.once⟩
  · rw [htask] at hq
    obtain ⟨hm, hor⟩ := hs'.held q u hq
    refine ⟨hm, ?_⟩
    by_cases hu : u = t
    · rw [hu] at hq
      exact .inl (congrArg some (hs'.unique htp hq))
    · refine .inr ((hget u q).mpr ⟨hu, hor.resolve_left fun hcq => ?_⟩)
      cases hc.symm.trans hcq
      rw [taskOf_setHolder, if_neg (Ne.symm hcp), hidle] at hq
      cases hq
  · obtain ⟨hu, hq'⟩ := (hget u q).mp hq
    obtain ⟨htq, hne, hlt'⟩ := hs'.suspended u q hq'
    refine ⟨(htask q).trans htq, fun he => hu ?_, hlt'⟩
    cases he
    exact Option.some.inj (htq.symm.trans htp)
  · cases hcq
    rw [htask, htp] at hq
    cases hq
    exact Dict.get?_erase_self _ _
  · cases hcq
    exact hlt
  · refine ⟨(hs.reported u hu).1, fun q => ?_⟩
    rw [htask]
    exact (hs'.reported u hu).2 q

end Held

/-- The id of a process, once it has announced itself. -/
def idOf (s : Agent) (process : Nat) : Option Nat := (s.holders process).processorId

/-- Processes have their own ids, all but the current one have announced themselves, only
announced ones work, and those that are in use are registered. -/
structure Identified (s : Agent) : Prop where
  own : ∀ p i, s.idOf p = some i → i = p ∧ p < s.started
  pending : ∀ p, p < s.started → p ∉ s.announced → s.currentHolder = some p ∧ s.idOf p = none
  working : ∀ p t, s.taskOf p = some t → s.idOf p = some p
  current : ∀ p, s.currentHolder = some p → s.idOf p = some p → s.holdersByProcessorId.get? p = some p
  suspended : ∀ t p, s.suspendedHoldersByTaskId.get? t = some p → s.holdersByProcessorId.get? p = some p
  entries : ∀ i p, s.holdersByProcessorId.get? i = some p → s.idOf p = some i

@[simp] theorem idOf_setHolder (s : Agent) (p q : Nat) (r : Holder) :
    (s.setHolder p r).idOf q = if q = p then r.processorId else s.idOf q := by
  simp only [idOf, setHolder, Function.update_apply]
  split <;> rfl

@[simp] theorem idOf_killProcessor (s : Agent) (p q : Nat) : (s.killProcessor p).idOf q = s.idOf q := by
  refine (idOf_setHolder s p q { s.holders p with task := none }).trans ?_
  split
  · next hq =>
    rw [hq]
    rfl
  · rfl

@[simp] theorem idOf_startNewProcessor (s : Agent) (q : Nat) :
    s.startNewProcessor.idOf q = if q = s.started then none else s.idOf q :=
  idOf_setHolder s s.started q ⟨none, none, false⟩

theorem holdersByProcessorId_killProcessor (s : Agent) (p : Nat) :
    (s.killProcessor p).holdersByProcessorId = match s.idOf p with
      | some i => s.holdersByProcessorId.erase i
      | none => s.holdersByProcessorId := rfl

section Identified

variable (hs : s.Identified)

include hs

theorem Identified.setHolder {r : Holder} (hr : r.processorId = s.idOf p)
    (ht : r.task = none ∨ s.idOf p = some p) : (s.setHolder p r).Identified := by
  have hid : ∀ q, (s.setHolder p r).idOf q = s.idOf q := by
    intro q
    rw [idOf_setHolder]
    split
    · next hq => rw [hr, hq]
    · rfl
  refine ⟨fun q i hq => hs.own q i (hid q ▸ hq), fun q hlt hq => ?_, fun q t hq => ?_, fun q hc hq => ?_, hs.suspended,
    fun i q hq => ?_⟩
  · rw [hid]
    exact hs.pending q hlt hq
  · rw [taskOf_setHolder] at hq
    rw [hid]
    split at hq
    · next hqp =>
      rcases ht with ht | ht
      · rw [ht] at hq
        cases hq
      · rw [hqp, ht]
    · exact hs.working q t hq
  · rw [hid] at hq
    exact hs.current q hc hq
  · rw [hid]
    exact hs.entries i q hq

theorem Identified.start (hc : ∀ p, s.currentHolder = some p → s.idOf p ≠ none) : s.startNewProcessor.Identified := by
  have hreg : ∀ i q, s.holdersByProcessorId.get? i = some q → q ≠ s.started := by
    intro i q hq he
    have hlt := (hs.own q i (hs.entries i q hq)).2
    omega
  refine ⟨fun q i hq => ?_, fun q hlt hq => ?_, fun q t hq => ?_, fun q hcq hq => ?_, hs.suspended, fun i q hq => ?_⟩
  · rw [idOf_startNewProcessor] at hq
    split at hq
    · cases hq
    · obtain ⟨hi, hlt⟩ := hs.own q i hq
      exact ⟨hi, Nat.lt_succ_of_lt hlt⟩
  · rw [idOf_startNewProcessor]
    by_cases hqs : q = s.started
    · rw [if_pos hqs, hqs]
      exact ⟨rfl, rfl⟩
    · have hlt' : q < s.started + 1 := hlt
      obtain ⟨hcq, hnone⟩ := hs.pending q (by omega) hq
      exact absurd hnone (hc q hcq)
  · rw [taskOf_startNewProcessor] at hq
    rw [idOf_startNewProcessor]
    split at hq
    · cases hq
    · next hne => rw [if_neg hne, hs.working q t hq]
  · cases hcq
    rw [idOf_startNewProcessor] at hq
    split at hq
    · cases hq
    · next hne => exact absurd rfl hne
  · rw [idOf_startNewProcessor, if_neg (hreg i q hq)]
    exact hs.entries i q hq

/-- The current process, which has announced itself, is replaced by a new one. -/
theorem Identified.restart (hc : s.currentHolder = some p) (hid : s.idOf p = some p)
    (hsus : ∀ t, s.suspendedHoldersByTaskId.get? t ≠ some p) : (s.killProcessor p).startNewProcessor.Identified := by
  have hlt := (hs.own p p hid).2
  have hget : ∀ i q, (s.killProcessor p).holdersByProcessorId.get? i = some q ↔
      s.holdersByProcessorId.get? i = some q ∧ i ≠ p := by
    intro i q
    rw [holdersByProcessorId_killProcessor, hid]
    dsimp only
    rw [Dict.get?_erase]
    by_cases hi : i = p <;> simp [hi]
  have hidq : ∀ q, q ≠ s.started → (s.killProcessor p).startNewProcessor.idOf q = s.idOf q := by
    intro q hq
    exact (idOf_startNewProcessor _ q).trans ((if_neg hq).trans (idOf_killProcessor s p q))
  refine ⟨fun q i hq => ?_, fun q hlt' hq => ?_, fun q t hq => ?_, fun q hcq hq => ?_, fun t q hq => ?_, fun i q hq => ?_⟩
  · rw [idOf_startNewProcessor] at hq
    split at hq
    · cases hq
    · rw [idOf_killProcessor] at hq
      obtain ⟨hi, hlt⟩ := hs.own q i hq
      exact ⟨hi, Nat.lt_succ_of_lt hlt⟩
  · by_cases hqs : q = s.started
    · rw [hqs]
      refine ⟨rfl, ?_⟩
      rw [idOf_startNewProcessor]
      exact if_pos rfl
    · have hlt'' : q < s.started + 1 := hlt'
      obtain ⟨hcq, hnone⟩ := hs.pending q (by omega) hq
      cases hc.symm.trans hcq
      cases hnone.symm.trans hid
  · rw [taskOf_startNewProcessor] at hq
    split at hq
    · cases hq
    · next hne =>
      rw [hidq q hne]
      rw [taskOf_killProcessor] at hq
      split at hq
      · cases hq
      · exact hs.working q t hq
  · cases hcq
    rw [idOf_startNewProcessor] at hq
    split at hq
    · cases hq
    · next hne => exact absurd rfl hne
  · have hq' := hs.suspended t q hq
    exact (hget q q).mpr ⟨hq', fun he => hsus t (he ▸ hq)⟩
  · obtain ⟨hq', -⟩ := (hget i q).mp hq
    have hi := hs.entries i q hq'
    have hlt' := (hs.own q i hi).2
    rw [hidq q (Nat.ne_of_lt hlt'), hi]

theorem Identified.kill (suspended : Dict TaskID Nat) (current : Option Nat) (hid : s.idOf p = some p)
    (hc : current ≠ some p) (hcur : current = s.currentHolder ∨ ∃ c, current = some c ∧
      s.holdersByProcessorId.get? c = some c ∧ s.currentHolder = some p)
    (hsus : ∀ t q, suspended.get? t = some q → s.suspendedHoldersByTaskId.get? t = some q ∧ q ≠ p) :
    Identified { s.killProcessor p with currentHolder := current, suspendedHoldersByTaskId := suspended } := by
  have hget : ∀ i q, (s.killProcessor p).holdersByProcessorId.get? i = some q ↔
      s.holdersByProcessorId.get? i = some q ∧ i ≠ p := by
    intro i q
    rw [holdersByProcessorId_killProcessor, hid]
    dsimp only
    rw [Dict.get?_erase]
    by_cases hi : i = p <;> simp [hi]
  have hidq := fun q => idOf_killProcessor s p q
  refine ⟨fun q i hq => hs.own q i ((hidq q).symm.trans hq), fun q hlt hq => ?_, fun q t hq => ?_, fun q hcq hq => ?_,
    fun t q hq => ?_, fun i q hq => ?_⟩
  · obtain ⟨hcq, hnone⟩ := hs.pending q hlt hq
    refine ⟨?_, (hidq q).trans hnone⟩
    rcases hcur with hcur | ⟨c, -, -, hp⟩
    · exact hcur.trans hcq
    · cases hp.symm.trans hcq
      cases hnone.symm.trans hid
  · have hq' : (s.killProcessor p).taskOf q = some t := hq
    rw [taskOf_killProcessor] at hq'
    split at hq'
    · cases hq'
    · exact (hidq q).trans (hs.working q t hq')
  · refine (hget q q).mpr ⟨?_, fun he => hc (he ▸ hcq)⟩
    rcases hcur with hcur | ⟨c, hcc, hreg, -⟩
    · exact hs.current q (hcur.symm.trans hcq) ((hidq q).symm.trans hq)
    · cases hcc.symm.trans hcq
      exact hreg
  · obtain ⟨hq', hne⟩ := hsus t q hq
    exact (hget q q).mpr ⟨hs.suspended t q hq', hne⟩
  · obtain ⟨hq', -⟩ := (hget i q).mp hq
    exact (hidq q).trans (hs.entries i q hq')

end Identified

theorem onProcessorInitialized_eq {i : Nat} (hc : s.currentHolder = some p) (hid : s.idOf p = none) :
    s.onProcessorInitialized i = (setHolder { s with holdersByProcessorId := s.holdersByProcessorId.set i p } p
      { s.holders p with processorId := some i }).release := by
  have hinit : ((s.holders p).processorId).isSome = false := by
    rw [show (s.holders p).processorId = none from hid]
    rfl
  unfold Agent.onProcessorInitialized
  split
  · next h =>
    rw [hc] at h
    cases h
  · next q h =>
    rw [hc] at h
    cases h
    rw [hinit, if_neg Bool.false_ne_true]

/-- The invariant of the processors. -/
structure Wf (s : Agent) : Prop where
  held : s.Held
  identified : s.Identified

/-- Any error. -/
def Any : AgentError → Prop := fun _ => True

section Wf

variable (hs : s.Wf)

include hs

/-- The invariant is about the processes and the tasks that are processed. -/
theorem Wf.reports (hholders : s'.holders = s.holders) (hcurrent : s'.currentHolder = s.currentHolder)
    (hsuspended : s'.suspendedHoldersByTaskId = s.suspendedHoldersByTaskId)
    (hregistered : s'.holdersByProcessorId = s.holdersByProcessorId)
    (hprocessing : s'.processingTaskIds = s.processingTaskIds) (hstarted : s'.started = s.started)
    (hannounced : s'.announced = s.announced)
    (hreported : ∀ t ∈ s'.reported, t ∈ s.processingTaskIds ∧ ∀ p, s.taskOf p ≠ some t)
    (honce : s'.reported.Nodup) : s'.Wf := by
  have htask : s'.taskOf = s.taskOf := by
    funext p
    rw [taskOf, taskOf, hholders]
  have hid : s'.idOf = s.idOf := by
    funext p
    rw [idOf, idOf, hholders]
  obtain ⟨⟨h1, h2, h3, h4, h5, h6, h7⟩, ⟨i1, i2, i3, i4, i5, i6⟩⟩ := hs
  refine ⟨⟨?_, ?_, ?_, ?_, ?_, ?_, honce⟩, ⟨?_, ?_, ?_, ?_, ?_, ?_⟩⟩ <;>
    simp only [htask, hid, hcurrent, hsuspended, hregistered, hprocessing, hstarted, hannounced] <;>
    assumption

theorem Wf.of_eq (hholders : s'.holders = s.holders) (hcurrent : s'.currentHolder = s.currentHolder)
    (hsuspended : s'.suspendedHoldersByTaskId = s.suspendedHoldersByTaskId)
    (hregistered : s'.holdersByProcessorId = s.holdersByProcessorId)
    (hprocessing : s'.processingTaskIds = s.processingTaskIds) (hstarted : s'.started = s.started)
    (hannounced : s'.announced = s.announced) (hreported : s'.reported = s.reported) : s'.Wf :=
  hs.reports hholders hcurrent hsuspended hregistered hprocessing hstarted hannounced
    (hreported ▸ hs.held.reported) (hreported ▸ hs.held.once)

theorem Wf.not_suspended (hc : s.currentHolder = some p) (t : TaskID) : s.suspendedHoldersByTaskId.get? t ≠ some p :=
  fun hp => (hs.held.suspended t p hp).2.1 hc

theorem Wf.restart (hc : s.currentHolder = some p) (hid : s.idOf p = some p) :
    (s.killProcessor p).startNewProcessor.Wf := by
  refine ⟨(hs.held.kill (hs.not_suspended hc)).start fun q hq => ?_, hs.identified.restart hc hid (hs.not_suspended hc)⟩
  cases hc.symm.trans hq
  rw [taskOf_killProcessor, if_pos rfl]

theorem Wf.drop (hsus : s.suspendedHoldersByTaskId.get? t = some p) :
    Wf (killProcessor { s with suspendedHoldersByTaskId := s.suspendedHoldersByTaskId.erase t } p) := by
  obtain ⟨htp, hpc, -⟩ := hs.held.suspended t p hsus
  have hget : ∀ u q, (s.suspendedHoldersByTaskId.erase t).get? u = some q ↔
      s.suspendedHoldersByTaskId.get? u = some q ∧ q ≠ p := by
    intro u q
    rw [Dict.get?_erase]
    split
    · next hu =>
      rw [hu, hsus]
      refine ⟨fun hq => (by cases hq), fun hq => absurd (Option.some.inj hq.1).symm hq.2⟩
    · next hu =>
      refine ⟨fun hq => ⟨hq, ?_⟩, And.left⟩
      rintro rfl
      have htq := (hs.held.suspended u q hq).1
      exact hu (Option.some.inj (htq.symm.trans htp))
  have hheld := hs.held.clear (p := p) (r := { s.holders p with task := none }) rfl _ hget
  have hid := hs.identified.kill (s.suspendedHoldersByTaskId.erase t) s.currentHolder
    (hs.identified.working p t htp) hpc (.inl rfl) fun u q hq => (hget u q).mp hq
  exact ⟨⟨hheld.held, hheld.suspended, hheld.alone, hheld.current, hheld.nodup, hheld.reported, hheld.once⟩,
    ⟨hid.own, hid.pending, hid.working, hid.current, hid.suspended, hid.entries⟩⟩

theorem Wf.finish (hfree : ∀ p, s.taskOf p ≠ some t) (hrep : t ∉ s.reported) :
    Wf { s with processingTaskIds := s.processingTaskIds.erase t } := by
  obtain ⟨own, pending, working, current, suspended, entries⟩ := hs.identified
  exact ⟨hs.held.finish hfree hrep, own, pending, working, current, suspended, entries⟩

theorem Wf.endTask (hc : s.currentHolder = some p) : (s.endTask p).Wf := by
  refine ⟨?_, hs.identified.setHolder rfl (.inl rfl)⟩
  have hclear := hs.held.clear (p := p) (r := { s.holders p with task := none }) rfl
    s.suspendedHoldersByTaskId fun t q => ⟨fun hq => ⟨hq, ?_⟩, And.left⟩
  · exact ⟨hclear.held, hclear.suspended, hclear.alone, hclear.current, hclear.nodup, hclear.reported, hclear.once⟩
  · rintro rfl
    exact hs.not_suspended hc t hq

theorem Wf.onSuspendTask (t : TaskID) : Ends Any (s.onSuspendTask t) Wf := by
  unfold Agent.onSuspendTask
  cases hc : s.currentHolder with
  | none => exact trivial
  | some p =>
    dsimp only
    split
    · next ht =>
      obtain ⟨q, hq, htp⟩ := currentTaskId_eq_some.mp ht
      cases hc.symm.trans hq
      have hid := hs.identified.working p t htp
      unfold Agent.suspend
      dsimp only
      split
      · refine ⟨hs.held.suspend rfl hc htp, ?_⟩
        have hset : (s.setHolder p { s.holders p with suspended := true }).Identified :=
          hs.identified.setHolder rfl (.inr hid)
        refine Identified.start ⟨hset.own, hset.pending, hset.working, hset.current, fun u q hq => ?_, hset.entries⟩
          fun q hq => ?_
        · rw [Dict.get?_set] at hq
          split at hq
          · cases hq
            exact hs.identified.current p hc hid
          · exact hs.identified.suspended u q hq
        · cases hc.symm.trans hq
          have hidp := idOf_setHolder s p p { s.holders p with suspended := true }
          rw [if_pos rfl] at hidp
          exact fun he => Option.some_ne_none p (hid.symm.trans (hidp.symm.trans he))
      · exact trivial
    · exact hs

/-- A failing processor is replaced or dropped. The task it had is still processed, and no
process has it. -/
theorem Wf.onFailingProcessor (i : Nat) :
    Ends Any (s.onFailingProcessor i) fun r => r.1.Wf ∧ r.1.heartbeat = s.heartbeat ∧
      r.1.dispatcher = s.dispatcher ∧ ∀ task ∈ r.2, task.taskId ∈ r.1.processingTaskIds ∧
        task.taskId ∉ r.1.reported ∧ ∀ p, r.1.taskOf p ≠ some task.taskId := by
  unfold Agent.onFailingProcessor
  split
  · exact trivial
  cases hreg : s.holdersByProcessorId.get? i with
  | none => exact ⟨hs, rfl, rfl, fun task ht => by cases ht⟩
  | some p =>
    have hid := hs.identified.entries i p hreg
    obtain rfl := (hs.identified.own p i hid).1
    dsimp only
    cases ht : (s.holders i).task with
    | none =>
      have htask : s.taskOf i = none := by rw [taskOf, ht]; rfl
      dsimp only
      split
      · next hc =>
        rw [restartCurrentProcessor, hc]
        exact ⟨hs.restart hc hid, rfl, rfl, fun task ht => by cases ht⟩
      · next hc =>
        have hsus : ∀ t, s.suspendedHoldersByTaskId.get? t ≠ some i := by
          intro t hi
          rw [(hs.held.suspended t i hi).1] at htask
          cases htask
        have hkill := hs.identified.kill s.suspendedHoldersByTaskId s.currentHolder hid hc (.inl rfl)
          fun t q hq => ⟨hq, fun he => hsus t (he ▸ hq)⟩
        refine ⟨⟨hs.held.kill hsus, ?_⟩, rfl, rfl, fun task ht => by cases ht⟩
        exact ⟨hkill.own, hkill.pending, hkill.working, hkill.current, hkill.suspended, hkill.entries⟩
    | some task =>
      have htask : s.taskOf i = some task.taskId := by rw [taskOf, ht]; rfl
      obtain ⟨hm, hor⟩ := hs.held.held i _ htask
      have hrep : task.taskId ∉ s.reported := fun hr => (hs.held.reported _ hr).2 i htask
      have hfree : ∀ p, p ≠ i → s.taskOf p ≠ some task.taskId := fun p hp hq => hp (hs.held.unique hq htask)
      dsimp only
      split
      · next hc =>
        have hc : s.currentHolder = some i := hc
        have hsus := Dict.erase_of_get?_none (hs.held.alone i _ hc htask)
        rw [hsus]
        have hstart : restartCurrentProcessor (s.endTask i) = .ok (s.killProcessor i).startNewProcessor := by
          rw [restartCurrentProcessor, show (s.endTask i).currentHolder = some i from hc,
            ← killProcessor_endTask]
        refine Ends.bind (P := (· = (s.killProcessor i).startNewProcessor)) (by rw [hstart]; rfl) ?_
        rintro _ rfl
        refine ⟨hs.restart hc hid, rfl, rfl, fun u hu => ?_⟩
        cases hu
        refine ⟨hm, hrep, fun p hp => ?_⟩
        rw [taskOf_startNewProcessor] at hp
        split at hp
        · cases hp
        · rw [taskOf_killProcessor] at hp
          split at hp
          · cases hp
          · next hne => exact hfree p hne hp
      · next hc =>
        have hsus := hor.resolve_left hc
        rw [killProcessor_endTask]
        refine ⟨hs.drop hsus, rfl, rfl, fun u hu => ?_⟩
        cases hu
        refine ⟨hm, hrep, fun p hp => ?_⟩
        rw [taskOf_killProcessor] at hp
        split at hp
        · cases hp
        · next hne => exact hfree p hne hp

/-- A result for a task that no process has. -/
theorem Wf.onResult (hfree : ∀ p, s.taskOf p ≠ some t) (hrep : t ∉ s.reported) (resultType : TaskResultType) :
    Ends Any (s.onResult t resultType) Wf := by
  have hfin := hs.finish hfree hrep
  unfold Agent.onResult
  dsimp only
  split
  · split
    · exact hfin.of_eq rfl rfl rfl rfl rfl rfl rfl rfl
    · exact trivial
  · split
    · exact hfin.of_eq rfl rfl rfl rfl rfl rfl rfl rfl
    · exact trivial

theorem Wf.release : Ends Any s.release Wf := by
  unfold Agent.release
  split
  · exact hs.of_eq rfl rfl rfl rfl rfl rfl rfl rfl
  · exact trivial

theorem Wf.onTaskResult (i : Nat) (t : TaskID) (resultType : TaskResultType) :
    Ends Any (s.onTaskResult i t resultType) Wf := by
  unfold Agent.onTaskResult
  cases hc : s.currentHolder with
  | none => exact trivial
  | some c =>
    dsimp only
    split
    · next ht =>
      obtain ⟨q, hq, htask⟩ := currentTaskId_eq_some.mp ht
      cases hc.symm.trans hq
      have hrep : t ∉ s.reported := fun hr => (hs.held.reported t hr).2 c htask
      split
      · refine Ends.bind ((hs.endTask hc).onResult (fun p hp => ?_) hrep resultType) fun s' hs' => hs'.release
        rw [Agent.endTask, taskOf_setHolder] at hp
        split at hp
        · cases hp
        · next hne => exact hne (hs.held.unique hp htask)
      · exact trivial
    · cases hsus : s.suspendedHoldersByTaskId.get? t with
      | none => exact hs
      | some p =>
        have htask := (hs.held.suspended t p hsus).1
        have hrep : t ∉ s.reported := fun hr => (hs.held.reported t hr).2 p htask
        dsimp only
        split
        · rw [killProcessor_endTask, ← hc]
          refine (hs.drop hsus).onResult (fun q hq => ?_) hrep resultType
          rw [taskOf_killProcessor] at hq
          split at hq
          · cases hq
          · next hne => exact hne (hs.held.unique hq htask)
        · exact trivial

theorem Wf.done : s.done.Wf := by
  have hsub : s.done.reported.Sublist s.reported := by
    rw [Agent.reported, Agent.reported]
    exact (List.Sublist.refl _).append (List.nil_sublist _)
  exact hs.reports rfl rfl rfl rfl rfl rfl rfl (fun t ht => hs.held.reported t (hsub.subset ht))
    (hs.held.once.sublist hsub)

theorem Wf.report {task : Task} (hprocessing : task.taskId ∈ s.processingTaskIds)
    (hrep : task.taskId ∉ s.reported) (hfree : ∀ p, s.taskOf p ≠ some task.taskId)
    (hreported : s'.reported.Perm (task.taskId :: s.reported)) :
    (∀ t ∈ s'.reported, t ∈ s.processingTaskIds ∧ ∀ p, s.taskOf p ≠ some t) ∧ s'.reported.Nodup := by
  refine ⟨fun t ht => ?_, hreported.nodup_iff.mpr (List.nodup_cons.mpr ⟨hrep, hs.held.once⟩)⟩
  rcases List.mem_cons.mp (hreported.mem_iff.mp ht) with rfl | ht
  · exact ⟨hprocessing, hfree⟩
  · exact hs.held.reported t ht

theorem Wf.stored {task : Task} (hreported : s.reported.Perm (task.taskId :: s'.reported)) :
    (∀ t ∈ s'.reported, t ∈ s.processingTaskIds ∧ ∀ p, s.taskOf p ≠ some t) ∧ s'.reported.Nodup ∧
      task.taskId ∉ s'.reported ∧ ∀ p, s.taskOf p ≠ some task.taskId := by
  obtain ⟨hrep, honce⟩ := List.nodup_cons.mp (hreported.nodup_iff.mp hs.held.once)
  exact ⟨fun t ht => hs.held.reported t (hreported.mem_iff.mpr (List.mem_cons_of_mem _ ht)), honce, hrep,
    (hs.held.reported _ (hreported.mem_iff.mpr List.mem_cons_self)).2⟩

theorem Wf.onResumeTask (hd : s.dispatcher = .get) (t : TaskID) (resumes : Bool) :
    Ends Any (s.onResumeTask t resumes) Wf := by
  unfold Agent.onResumeTask
  split
  · next hinit =>
    split
    · exact hs.done
    next hidle =>
    cases hsus : s.suspendedHoldersByTaskId.get? t with
    | none => exact hs.done
    | some p =>
      obtain ⟨htp, hpc, -⟩ := hs.held.suspended t p hsus
      have hidp := hs.identified.working p t htp
      have hreg := hs.identified.suspended t p hsus
      dsimp only [Agent.resume]
      split
      · cases resumes with
        | true =>
          cases hc : s.currentHolder with
          | none => exact trivial
          | some c =>
            have hidle' : s.taskOf c = none := by
              rw [currentTask, hc] at hidle
              rw [taskOf]
              simpa using hidle
            have hidc : s.idOf c = some c := by
              have hi := hinit.2
              rw [currentProcessorIsInitialized, hc] at hi
              obtain ⟨i, hi⟩ := Option.isSome_iff_exists.mp hi
              exact (hs.identified.own c i hi).1 ▸ hi
            have hne : p ≠ c := fun he => hpc (he ▸ hc)
            have hheld := hs.held.resume (r := { s.holders p with suspended := false }) hsus rfl hc hidle'
            have hset := hs.identified.setHolder (r := { s.holders p with suspended := false }) rfl (.inr hidp)
            have hidc' : (s.setHolder p { s.holders p with suspended := false }).idOf c = some c := by
              rw [idOf_setHolder, if_neg (Ne.symm hne), hidc]
            have hid := hset.kill (s.suspendedHoldersByTaskId.erase t) (some p) hidc'
              (fun he => hne (Option.some.inj he)) (.inr ⟨p, rfl, hreg, hc⟩) fun u q hq => by
                rw [Dict.get?_erase] at hq
                split at hq
                · cases hq
                · exact ⟨hq, fun he => (hs.held.suspended u q hq).2.1 (he ▸ hc)⟩
            have hwf : Wf _ := ⟨hheld, ⟨hid.own, hid.pending, hid.working, hid.current, hid.suspended, hid.entries⟩⟩
            exact hwf.done.of_eq rfl rfl rfl rfl rfl rfl rfl rfl
        | false =>
          have hfail := hs.onFailingProcessor p
          rw [← onFailingProcessor_erase hreg htp] at hfail
          refine Ends.bind (P := (· = (_, false))) rfl ?_
          rintro _ rfl
          rw [if_neg Bool.false_ne_true]
          dsimp only
          rw [show (s.holders p).processorId = some p from hidp]
          refine Ends.bind hfail ?_
          rintro ⟨s', task⟩ ⟨hs', -, hd', htask⟩
          cases task with
          | none => exact hs'.done.release
          | some task =>
            obtain ⟨hproc, hrep, hfree⟩ := htask task rfl
            have hget : s'.dispatcher = .get := hd'.trans hd
            have hperm : Agent.reported { s' with dispatcher := .storing task } |>.Perm (task.taskId :: s'.reported) := by
              rw [Agent.reported, Agent.reported, hget]
              simp
            obtain ⟨hreported, honce⟩ := hs'.report hproc hrep hfree hperm
            exact hs'.reports rfl rfl rfl rfl rfl rfl rfl hreported honce
      · exact trivial
  · exact trivial

theorem Wf.onProcessorInitialized {i : Nat} (hi : i < s.started) (hnew : i ∉ s.announced) :
    Ends Any (onProcessorInitialized { s with announced := i :: s.announced } i) Wf := by
  obtain ⟨hc, hid⟩ := hs.identified.pending i hi hnew
  have htask : s.taskOf i = none := by
    cases ht : s.taskOf i with
    | none => rfl
    | some t => cases hid.symm.trans (hs.identified.working i t ht)
  rw [onProcessorInitialized_eq (s := { s with announced := i :: s.announced }) hc hid]
  have hheld := hs.held.setHolder (p := i) (r := { s.holders i with processorId := some i }) rfl
  have hidq : ∀ q, q ≠ i → (s.setHolder i { s.holders i with processorId := some i }).idOf q = s.idOf q := by
    intro q hq
    rw [idOf_setHolder, if_neg hq]
  have hidi : (s.setHolder i { s.holders i with processorId := some i }).idOf i = some i := by
    rw [idOf_setHolder, if_pos rfl]
  have hget : ∀ q, s.holdersByProcessorId.get? q = some q → (s.holdersByProcessorId.set i i).get? q = some q := by
    intro q hq
    rw [Dict.get?_set]
    split
    · next hqi => rw [hqi]
    · exact hq
  have hident : Identified (setHolder { s with
      announced := i :: s.announced
      holdersByProcessorId := s.holdersByProcessorId.set i i } i
        { s.holders i with processorId := some i }) := by
    refine ⟨fun q j hq => ?_, fun q hlt hq => ?_, fun q t hq => ?_, fun q hcq hq => ?_, fun t q hq => ?_,
      fun j q hq => ?_⟩
    · by_cases hqi : q = i
      · subst hqi
        exact ⟨Option.some.inj (hq.symm.trans hidi), hi⟩
      · exact hs.identified.own q j ((hidq q hqi).symm.trans hq)
    · have hq' : q ∉ i :: s.announced := hq
      obtain ⟨hcq, hnone⟩ := hs.identified.pending q hlt fun hm => hq' (List.mem_cons_of_mem _ hm)
      exact absurd (Option.some.inj (hcq.symm.trans hc)) fun he => hq' (he ▸ List.mem_cons_self)
    · by_cases hqi : q = i
      · subst hqi
        exact hidi
      · have htq : s.taskOf q = some t := by
          have hset := taskOf_setHolder s i q { s.holders i with processorId := some i }
          rw [if_neg hqi] at hset
          exact hset.symm.trans hq
        exact (hidq q hqi).trans (hs.identified.working q t htq)
    · have hqi : q = i := Option.some.inj (hcq.symm.trans hc)
      subst hqi
      exact Dict.get?_set_self _ _ _
    · exact hget q (hs.identified.suspended t q hq)
    · have hq' : (s.holdersByProcessorId.set i i).get? j = some q := hq
      rw [Dict.get?_set] at hq'
      split at hq'
      · next hji =>
        cases hq'
        rw [hji]
        exact hidi
      · have hj := hs.identified.entries j q hq'
        by_cases hqi : q = i
        · subst hqi
          cases hid.symm.trans hj
        · exact (hidq q hqi).trans hj
  refine Wf.release ⟨⟨hheld.held, hheld.suspended, hheld.alone, hheld.current, hheld.nodup, hheld.reported,
    hheld.once⟩, hident⟩

theorem Wf.enqueueTask (task : Task) (isSuspended : Bool) : Ends Any (s.enqueueTask task isSuspended) Wf := by
  refine Ends.bind (P := fun _ => True) ?_ fun priority _ => ?_
  · cases getTaskPriority task with
    | ok priority => exact trivial
    | error e => exact trivial
  · exact hs.of_eq rfl rfl rfl rfl rfl rfl rfl rfl

theorem Wf.onTaskNew (task : Task) : Ends Any (s.onTaskNew task) Wf := by
  refine Ends.bind (hs.enqueueTask task false) fun s₁ hs₁ => ?_
  unfold suspendIfPriorityIsHigher
  split
  · exact hs₁
  · next current _ =>
    cases getTaskPriority task with
    | error e => exact trivial
    | ok newPriority =>
      cases getTaskPriority current with
      | error e => exact trivial
      | ok currentPriority =>
        refine Ends.bind (P := fun _ => True) trivial fun _ _ => ?_
        refine Ends.bind (P := fun _ => True) trivial fun _ _ => ?_
        split
        · exact hs₁
        · exact Ends.bind (hs₁.enqueueTask current true) fun s₂ hs₂ => hs₂.onSuspendTask current.taskId

theorem Wf.onCancelProcessor (hrep : t ∉ s.reported) :
    Ends Any (onCancelProcessor { s with processingTaskIds := s.processingTaskIds.erase t } t) fun s' =>
      s'.Wf ∧ ∀ p, s'.taskOf p ≠ some t := by
  have hend : ∀ s' : Agent, s'.Wf → s'.reported = s.reported → (∀ p, s'.taskOf p ≠ some t) →
      Wf { s' with processingTaskIds := s'.processingTaskIds.erase t } ∧ ∀ p, s'.taskOf p ≠ some t := by
    intro s' hs' hr hfree
    exact ⟨hs'.finish hfree (hr ▸ hrep), hfree⟩
  unfold Agent.onCancelProcessor
  split
  · exact trivial
  split
  · next hcur =>
    obtain ⟨p, hc, htp⟩ := currentTaskId_eq_some.mp hcur
    have hfree : ∀ q, (s.killProcessor p).startNewProcessor.taskOf q ≠ some t := by
      intro q hq
      rw [taskOf_startNewProcessor] at hq
      split at hq
      · cases hq
      · rw [taskOf_killProcessor] at hq
        split at hq
        · cases hq
        · next hne => exact hne (hs.held.unique hq htp)
    have hrestart := hend _ (hs.restart hc (hs.identified.working p t htp)) rfl hfree
    rw [restartCurrentProcessor]
    split
    · exact trivial
    · next q hq =>
      cases hc.symm.trans hq
      exact hrestart
  · next hcur =>
    split
    · next p hsus =>
      obtain ⟨htp, -, -⟩ := hs.held.suspended t p hsus
      have hfree : ∀ q, (killProcessor { s with
          suspendedHoldersByTaskId := s.suspendedHoldersByTaskId.erase t } p).taskOf q ≠ some t := by
        intro q hq
        rw [taskOf_killProcessor] at hq
        split at hq
        · cases hq
        · next hne => exact hne (hs.held.unique hq htp)
      exact hend _ (hs.drop hsus) rfl hfree
    · next hsus =>
      refine hend s hs rfl fun p hp => ?_
      rcases (hs.held.held p t hp).2 with hc | hq
      · exact hcur (currentTaskId_eq_some.mpr ⟨p, hc, hp⟩)
      · rw [hsus] at hq
        cases hq

theorem Wf.onCancelTask {cancel : TaskCancel} (hrep : cancel.force = true → cancel.taskId ∉ s.reported) :
    Ends Any (s.onCancelTask cancel) Wf := by
  unfold Agent.onCancelTask
  dsimp only
  split
  · exact hs.of_eq rfl rfl rfl rfl rfl rfl rfl rfl
  split
  · exact hs.of_eq rfl rfl rfl rfl rfl rfl rfl rfl
  next hforced =>
  split
  · next hmem =>
    have hforce : cancel.force = true := by
      cases hf : cancel.force with
      | true => rfl
      | false => exact absurd ⟨hmem, hf⟩ hforced
    refine Ends.bind (hs.onCancelProcessor (hrep hforce)) fun s' hs' => ?_
    exact hs'.1.of_eq rfl rfl rfl rfl rfl rfl rfl rfl
  · exact hs.of_eq rfl rfl rfl rfl rfl rfl rfl rfl

/-- A task that is taken from the queue is given to the current process, or its process is
resumed. -/
theorem Wf.processingTask (hd : s.dispatcher = .get)
    (hnamed : ∀ t task, s.queuedTaskIdToTask.get? t = some task → task.taskId = t) (resumes : Bool) :
    Ends Any (s.processingTask resumes) Wf := by
  unfold Agent.processingTask
  split
  · exact hs
  next t queue _ =>
  dsimp only
  split
  · exact trivial
  next task htask =>
  split
  · next hnew =>
    refine Ends.bind (P := Wf) ?_ fun s' hs' => hs'.done
    unfold Agent.onTask
    split
    · exact trivial
    next p hc =>
    split
    · exact trivial
    next i hid =>
    split
    · obtain rfl := (hs.identified.own p i hid).1
      have hheld := hs.held.give (r := { s.holders i with task := some task }) hc
        (congrArg some (hnamed t task htask)) hnew
      have hset := hs.identified.setHolder (p := i) (r := { s.holders i with task := some task }) rfl (.inr hid)
      exact ⟨⟨hheld.held, hheld.suspended, hheld.alone, hheld.current, hheld.nodup, hheld.reported, hheld.once⟩,
        ⟨hset.own, hset.pending, hset.working, hset.current, hset.suspended, hset.entries⟩⟩
    · exact trivial
  · have htaken : Wf { s with queuedTaskIds := queue, queuedTaskIdToTask := s.queuedTaskIdToTask.erase t } :=
      hs.of_eq rfl rfl rfl rfl rfl rfl rfl rfl
    exact htaken.onResumeTask hd t resumes

theorem Wf.onStored {task : Task} (hfree : ∀ p, s.taskOf p ≠ some task.taskId) (hrep : task.taskId ∉ s.reported) :
    Ends Any (s.onStored task) Wf := by
  have hsent : Wf (s.send (.objectCreated task.source)) := hs.of_eq rfl rfl rfl rfl rfl rfl rfl rfl
  exact hsent.onResult hfree hrep .failed

theorem Wf.step (hnamed : ∀ t task, s.queuedTaskIdToTask.get? t = some task → task.taskId = t) (e : AgentEvent)
    (he : ∀ cancel, e = .taskCancel cancel → cancel.force = true → cancel.taskId ∉ s.reported) :
    Ends Any (s.step e) Wf := by
  cases e with
  | storageConnected =>
    dsimp only [Agent.step]
    split
    · next hc =>
      exact ⟨hs.held.start fun p hp => (by rw [hc] at hp; cases hp),
        hs.identified.start fun p hp => (by rw [hc] at hp; cases hp)⟩
    · exact hs
  | task task => exact hs.onTaskNew task
  | taskCancel cancel => exact hs.onCancelTask (he cancel rfl)
  | processorInitialized i =>
    dsimp only [Agent.step]
    split
    · next hi => exact hs.onProcessorInitialized hi.1 hi.2
    · exact hs
  | taskResult i t resultType =>
    dsimp only [Agent.step]
    split
    · exact hs.onTaskResult i t resultType
    · exact hs
  | processorDied i =>
    dsimp only [Agent.step]
    split
    · next hbeat =>
      refine Ends.bind (hs.onFailingProcessor i) ?_
      rintro ⟨s', task⟩ ⟨hs', hbeat', -, htask⟩
      have hnone : s'.heartbeat = none := hbeat'.trans hbeat.1
      cases task with
      | none => exact hs'.of_eq rfl rfl rfl rfl rfl rfl rfl (by rw [Agent.reported, Agent.reported, hnone])
      | some task =>
        obtain ⟨hproc, hrep, hfree⟩ := htask task rfl
        have hperm : Agent.reported { s' with heartbeat := some task } |>.Perm (task.taskId :: s'.reported) := by
          rw [Agent.reported, Agent.reported, hnone]
          exact .refl _
        obtain ⟨hreported, honce⟩ := hs'.report hproc hrep hfree hperm
        exact hs'.reports rfl rfl rfl rfl rfl rfl rfl hreported honce
    · exact hs
  | heartbeatStored =>
    dsimp only [Agent.step]
    split
    · exact hs
    · next task hbeat =>
      have hperm : s.reported.Perm (task.taskId :: Agent.reported { s with heartbeat := none }) := by
        rw [Agent.reported, Agent.reported, hbeat]
        exact .refl _
      obtain ⟨hreported, honce, hrep, hfree⟩ := hs.stored hperm
      have hnone : Wf { s with heartbeat := none } := hs.reports rfl rfl rfl rfl rfl rfl rfl hreported honce
      exact hnone.onStored hfree hrep
  | lockAcquired =>
    dsimp only [Agent.step]
    split
    · next hd =>
      refine hs.of_eq rfl rfl rfl rfl rfl rfl rfl ?_
      rw [Agent.reported, Agent.reported, hd.1]
    · exact hs
  | taskTaken resumes =>
    dsimp only [Agent.step]
    split
    · next hd => exact hs.processingTask hd hnamed resumes
    · exact hs
  | dispatcherStored =>
    dsimp only [Agent.step]
    split
    · next task hd =>
      have hperm : s.reported.Perm (task.taskId :: s.done.reported) := by
        rw [Agent.reported, Agent.reported, hd]
        simp [Agent.done]
      obtain ⟨-, -, hrep, hfree⟩ := hs.stored hperm
      exact Ends.bind (hs.done.onStored hfree hrep) fun s' hs' => hs'.release
    · exact hs

end Wf

end Scaler.Worker.Agent
