import Scaler.Invariant.Locks

/-! What a client is told of a task. From the registration of a task to its removal the task controller answers once:
no event of the task answers a second time, and the task goes only when the client has its answer. -/

namespace Scaler

open Collections Coroutine

/-- The message tells a client how the task ended. -/
def Message.repliesTo (t : TaskID) : Message → Bool
  | .taskResult r => r.taskId = t
  | .taskCancelConfirm c => c.taskId = t
  | _ => false

theorem Message.repliesTo_iff {t : TaskID} {m : Message} : m.repliesTo t = true ↔ m.IsReplyTo t := by
  cases m <;> simp [Message.repliesTo, Message.IsReplyTo]

/-- How a task stands with its client: it is not registered, the client is owed an answer, or it has one. -/
inductive Account where
  | closed
  | due
  | settled
  deriving DecidableEq, Repr

/-- The newest observation is first. -/
def account (t : TaskID) : List Obs → Account
  | [] => .closed
  | .registered u _ _ :: tr => if u = t then .due else account t tr
  | .removed u _ _ :: tr => if u = t then .closed else account t tr
  | .sent (.client _) m _ :: tr => if m.repliesTo t ∧ account t tr = .due then .settled else account t tr
  | _ :: tr => account t tr

/-- Every observation fits in with the earlier ones. -/
def Throughout (P : Obs → List Obs → Prop) : List Obs → Prop
  | [] => True
  | o :: tr => P o tr ∧ Throughout P tr

/-- A client that is told how the task ended is owed an answer, or it hears that the task is not known. -/
def Obs.AnswersDue (t : TaskID) : Obs → List Obs → Prop
  | .sent (.client _) m _, tr =>
    m.repliesTo t = true → account t tr = .due ∨ account t tr = .closed ∧ m = .taskCancelConfirm ⟨t, .cancelNotFound⟩
  | _, _ => True

/-- The task goes when its client has the answer. -/
def Obs.GoesSettled (t : TaskID) : Obs → List Obs → Prop
  | .removed u _ _, tr => u = t → account t tr = .settled
  | _, _ => True

/-- The observation bears on the account. -/
def Obs.bears (t : TaskID) : Obs → Bool
  | .registered u _ _ | .removed u _ _ => u = t
  | .sent (.client _) m _ => m.repliesTo t
  | _ => false

/-- A transition of the task raised. -/
def Obs.faults (t : TaskID) : Obs → Bool
  | .faulted e => e.taskId = t
  | _ => false

section Account

variable {t : TaskID} {o : Obs} {tr : List Obs}

theorem Throughout.split {P : Obs → List Obs → Prop} {later earlier : List Obs} (h : Throughout P (later ++ o :: earlier)) :
    P o earlier := by
  induction later with
  | nil => exact h.1
  | cons o' later ih => exact ih h.2

theorem account_cons (ho : o.bears t = false) : account t (o :: tr) = account t tr := by
  cases o with
  | sent peer m holder =>
    cases peer with
    | client c =>
      have hm : m.repliesTo t = false := ho
      simp [account, hm]
    | worker w => rfl
  | registered u uid pending => exact if_neg (by simpa [Obs.bears] using ho)
  | removed u uid x => exact if_neg (by simpa [Obs.bears] using ho)
  | _ => rfl

theorem account_filter (t : TaskID) (tr : List Obs) : account t (tr.filter (Obs.bears t)) = account t tr := by
  induction tr with
  | nil => rfl
  | cons o tr ih =>
    cases ho : o.bears t with
    | false => rw [List.filter_cons_of_neg (by simp [ho]), ih, account_cons ho]
    | true =>
      rw [List.filter_cons_of_pos ho]
      cases o with
      | registered u uid pending => simp [account, ih]
      | removed u uid x => simp [account, ih]
      | sent peer m holder =>
        cases peer with
        | client c => simp [account, ih]
        | worker w => cases ho
      | _ => cases ho

theorem throughout_filter {P : Obs → List Obs → Prop} (hquiet : ∀ o tr, o.bears t = false → P o tr)
    (hfilter : ∀ o tr, P o (tr.filter (Obs.bears t)) ↔ P o tr) : Throughout P (tr.filter (Obs.bears t)) ↔ Throughout P tr := by
  induction tr with
  | nil => rfl
  | cons o tr ih =>
    cases ho : o.bears t with
    | false => rw [List.filter_cons_of_neg (by simp [ho]), ih, Throughout, and_iff_right (hquiet o tr ho)]
    | true => rw [List.filter_cons_of_pos ho, Throughout, Throughout, ih, hfilter]

theorem answersDue_filter : Throughout (Obs.AnswersDue t) (tr.filter (Obs.bears t)) ↔ Throughout (Obs.AnswersDue t) tr := by
  refine throughout_filter (fun o tr ho => ?_) fun o tr => ?_
  · cases o with
    | sent peer m holder =>
      cases peer with
      | client c =>
        intro hm
        rw [show m.repliesTo t = false from ho] at hm
        cases hm
      | worker w => trivial
    | _ => trivial
  · cases o with
    | sent peer m holder =>
      cases peer with
      | client c => rw [Obs.AnswersDue, Obs.AnswersDue, account_filter]
      | worker w => rfl
    | _ => rfl

theorem goesSettled_filter : Throughout (Obs.GoesSettled t) (tr.filter (Obs.bears t)) ↔ Throughout (Obs.GoesSettled t) tr := by
  refine throughout_filter (fun o tr ho => ?_) fun o tr => ?_
  · cases o with
    | removed u uid x =>
      rintro rfl
      simp [Obs.bears] at ho
    | _ => trivial
  · cases o with
    | removed u uid x => rw [Obs.GoesSettled, Obs.GoesSettled, account_filter]
    | _ => rfl

end Account

/-- What the phase of an event says about the account and the owner of its task, while no transition of it raised. -/
def Phase.Agrees (a : Account) (owner : Option ClientID) (faulted : Bool) : Phase → Prop
  | .start | .vacant | .placed | .queued | .told => a = .due ∧ (faulted = false → owner.isSome)
  | .ended (some _) => a = .due ∧ owner = none
  | .ended none => owner = none ∧ (faulted = false → a = .settled)
  | .spoiled => owner ≠ none → a = .due
  | .faulted => (owner ≠ none → a = .due) ∧ faulted = true
  | .reported (some _) => a = .due ∧ owner = none ∧ faulted = true
  | .reported none | .freed => owner = none ∧ faulted = true

/-- The event of the task is being applied. -/
def Tok.applies (t : TaskID) : Tok → Bool
  | .apply _ e _ _ => e.taskId = t
  | _ => false

def applying (t : TaskID) (T : Multiset Tok) : Multiset Tok := T.filter fun a => a.applies t = true

@[simp] theorem applying_add (t : TaskID) (T U : Multiset Tok) : applying t (T + U) = applying t T + applying t U :=
  Multiset.filter_add _ _ _

@[simp] theorem applying_zero (t : TaskID) : applying t 0 = 0 := rfl

theorem applying_eq_zero {t : TaskID} {T : Multiset Tok} (h : ∀ a ∈ T, a.applies t = false) : applying t T = 0 := by
  refine Multiset.filter_eq_nil.mpr fun a ha => ?_
  simp [h a ha]

@[simp] theorem applying_singleton (t : TaskID) (a : Tok) : applying t {a} = if a.applies t then {a} else 0 := by
  by_cases h : a.applies t = true <;> simp [applying, ← Multiset.cons_zero, h]

@[simp] theorem applying_cons (t : TaskID) (a : Tok) (T : Multiset Tok) :
    applying t (a ::ₘ T) = if a.applies t then a ::ₘ applying t T else applying t T := by
  by_cases h : a.applies t = true <;> simp [applying, h]

/-- What was observed of a task, whether it has no machine, who owns it, and whether a transition of it raised. -/
structure Standing where
  trace : List Obs
  absent : Bool
  owner : Option ClientID
  faulted : Bool

def Sched.standing (s : Sched) (t : TaskID) : Standing :=
  ⟨s.trace.filter (Obs.bears t), (s.getStateMachine t).isNone, s.clientToTaskIds.getKey? t, s.trace.any (Obs.faults t)⟩

/-- The account is open exactly while there is a machine, and the event that is applied knows how it stands. -/
structure Standing.Keeps (v : Standing) (t : TaskID) (A : Multiset Tok) : Prop where
  absent : v.absent = true ↔ account t v.trace = .closed
  applied : ∀ uid e source phase, .apply uid e source phase ∈ A → phase.Agrees (account t v.trace) v.owner v.faulted
  idle : A = 0 → account t v.trace ≠ .settled
  owned : A = 0 → account t v.trace = .due → v.faulted = false → v.owner.isSome
  answers : Throughout (Obs.AnswersDue t) v.trace
  goes : v.faulted = false → Throughout (Obs.GoesSettled t) v.trace

section Standing

variable {s s' : Sched} {t u : TaskID} {v : Standing} {c : ClientID} {m : Message}

theorem Sched.standing_note {o : Obs} (ho : o.bears t = false) (hf : o.faults t = false) : (s.note o).standing t = s.standing t := by
  have htrace : (s.note o).trace.filter (Obs.bears t) = s.trace.filter (Obs.bears t) := List.filter_cons_of_neg (by simp [ho])
  have hfaulted : (s.note o).trace.any (Obs.faults t) = s.trace.any (Obs.faults t) := by
    change (o :: s.trace).any (Obs.faults t) = s.trace.any (Obs.faults t)
    rw [List.any_cons, hf, Bool.false_or]
  rw [standing, htrace, hfaulted]
  rfl

theorem Sched.standing_faulted (s : Sched) (t : TaskID) (e : TaskEvent) :
    (s.note (.faulted e)).standing t = if t = e.taskId then { s.standing t with faulted := true } else s.standing t := by
  by_cases ht : t = e.taskId
  · have hfaulted : (s.note (.faulted e)).trace.any (Obs.faults t) = true := by
      change (.faulted e :: s.trace).any (Obs.faults t) = true
      rw [List.any_cons, show Obs.faults t (.faulted e) = true from decide_eq_true ht.symm, Bool.true_or]
    rw [if_pos ht, standing, hfaulted]
    rfl
  · rw [if_neg ht]
    exact standing_note rfl (decide_eq_false (Ne.symm ht))

theorem Sched.standing_answer (hm : m.repliesTo t = true) (holder : Option WorkerID) :
    (s.note (.sent (.client c) m holder)).standing t = { s.standing t with trace := .sent (.client c) m holder :: (s.standing t).trace } := by
  have htrace : (s.note (.sent (.client c) m holder)).trace.filter (Obs.bears t) =
      .sent (.client c) m holder :: s.trace.filter (Obs.bears t) := List.filter_cons_of_pos hm
  rw [standing, htrace]
  rfl

theorem Sched.standing_noteSent (hm : m.repliesTo t = true) : (s.noteSent (.client c) m).standing t =
    { s.standing t with trace := .sent (.client c) m none :: (s.standing t).trace } := by
  rw [← Sched.standing_answer hm]
  congr 1
  cases m with
  | task => cases hm
  | _ => rfl

theorem OneToManyDict.getKey?_removeValue {K V : Type} [DecidableEq K] [DecidableEq V] (d : OneToManyDict K V) (v w : V) :
    (d.removeValue v).2.getKey? w = if w = v then none else d.getKey? w := by
  unfold OneToManyDict.removeValue
  cases hv : d.valueToKey.get? v with
  | none =>
    by_cases hw : w = v
    · rw [if_pos hw, hw]
      exact hv
    · rw [if_neg hw]
  | some k =>
    have herase : (d.valueToKey.erase v).get? w = if w = v then none else d.getKey? w := Dict.get?_erase _ _ _
    cases hk : d.keyToValues.get? k with
    | none =>
      simp only [hk]
      exact herase
    | some vs =>
      simp only [hk]
      exact herase

theorem OneToManyDict.getKey?_add {K V : Type} [DecidableEq K] [DecidableEq V] {d d' : OneToManyDict K V} {k : K} {v : V}
    {x : Except Exn Unit} (h : d.add k v = (x, d')) {w : V} (hw : w ≠ v) : d'.getKey? w = d.getKey? w := by
  unfold OneToManyDict.add at h
  split at h
  · obtain ⟨-, rfl⟩ := Prod.mk.inj h
    rfl
  · obtain ⟨-, rfl⟩ := Prod.mk.inj h
    exact Dict.get?_set_ne _ hw _

theorem OneToManyDict.getKey?_add_isSome {K V : Type} [DecidableEq K] [DecidableEq V] {d d' : OneToManyDict K V} {k : K} {v : V}
    {x : Except Exn Unit} (h : d.add k v = (x, d')) : (d'.getKey? v).isSome := by
  unfold OneToManyDict.add at h
  split at h
  · next hother =>
    obtain ⟨-, rfl⟩ := Prod.mk.inj h
    obtain ⟨k', hk', -⟩ := (Option.any_eq_true _ _).mp hother
    exact Option.isSome_iff_exists.mpr ⟨k', hk'⟩
  · obtain ⟨-, rfl⟩ := Prod.mk.inj h
    exact Option.isSome_iff_exists.mpr ⟨k, Dict.get?_set_self _ _ _⟩

theorem Sched.getKey?_onTaskFinish (s : Sched) (t u : TaskID) :
    (s.onTaskFinish u).clientToTaskIds.getKey? t = if t = u then none else s.clientToTaskIds.getKey? t := by
  rw [Sched.onTaskFinish]
  cases hu : s.clientToTaskIds.hasValue u with
  | true => exact OneToManyDict.getKey?_removeValue ..
  | false =>
    have hnone : s.clientToTaskIds.getKey? u = none := Option.isSome_eq_false_iff.mp hu |> Option.isNone_iff_eq_none.mp
    by_cases ht : t = u
    · rw [if_pos ht, ht]
      exact hnone
    · rw [if_neg ht]
      rfl

theorem Sched.standing_onTaskFinish (s : Sched) (t u : TaskID) :
    (s.onTaskFinish u).standing t = if t = u then { s.standing t with owner := none } else s.standing t := by
  have hmachine : (s.onTaskFinish u).getStateMachine t = s.getStateMachine t :=
    congrArg (fun v : TaskView => v.taskIdToStateMachine.get? t) (s.taskView_onTaskFinish u)
  rw [standing, s.trace_onTaskFinish, hmachine, s.getKey?_onTaskFinish]
  by_cases ht : t = u
  · rw [if_pos ht, if_pos ht]
    rfl
  · rw [if_neg ht, if_neg ht]
    rfl

theorem Sched.standing_addStateMachine (s : Sched) (t u : TaskID) :
    (s.addStateMachine u).standing t =
      if t = u then { s.standing t with
        trace := .registered u s.nextUid (s.raised.filter fun e => e.taskId = u) :: (s.standing t).trace, absent := false }
      else s.standing t := by
  by_cases ht : t = u
  · subst ht
    rw [if_pos rfl]
    have hmachine : (s.addStateMachine t).getStateMachine t = some ⟨s.nextUid, .inactive⟩ := Dict.get?_set_self _ _ _
    rw [standing, hmachine, addStateMachine, List.filter_cons_of_pos (by simp [Obs.bears])]
    rfl
  · rw [if_neg ht]
    have hmachine : (s.addStateMachine u).getStateMachine t = s.getStateMachine t := Dict.get?_set_ne _ ht _
    rw [standing, hmachine, addStateMachine, List.filter_cons_of_neg (by simp [Obs.bears, Ne.symm ht])]
    rfl

theorem Sched.getStateMachine_commit (s : Sched) (t u : TaskID) (x : TaskState) :
    ((s.commit u x).getStateMachine t).isNone = (s.getStateMachine t).isNone := by
  unfold commit
  split
  · rfl
  · next m hm =>
    split
    · rfl
    · change ((s.taskIdToStateMachine.set u { m with state := x }).get? t).isNone = (s.taskIdToStateMachine.get? t).isNone
      rw [Dict.get?_set]
      by_cases ht : t = u
      · have hsome : s.taskIdToStateMachine.get? u = some m := hm
        rw [if_pos ht, ht, hsome]
        rfl
      · rw [if_neg ht]

theorem Sched.standing_commit (s : Sched) (t u : TaskID) (x : TaskState) : (s.commit u x).standing t = s.standing t := by
  rw [standing, s.trace_commit, s.getStateMachine_commit, s.clientToTaskIds_commit]
  rfl

/-- The machine of the task is there. -/
theorem Sched.standing_removeStateMachine (s : Sched) (t u : TaskID) {n : StateMachine} (hn : s.getStateMachine u = some n) :
    (s.removeStateMachine u).standing t =
      if t = u then { s.standing t with trace := .removed u n.uid n.state :: (s.standing t).trace, absent := true } else s.standing t := by
  rw [removeStateMachine, hn]
  by_cases ht : t = u
  · subst ht
    rw [if_pos rfl, standing]
    have hnone : Sched.getStateMachine { s with
        taskIdToStateMachine := s.taskIdToStateMachine.erase t, trace := .removed t n.uid n.state :: s.trace } t = none :=
      Dict.get?_erase_self _ _
    rw [hnone]
    dsimp only
    rw [List.filter_cons_of_pos (by simp [Obs.bears])]
    rfl
  · rw [if_neg ht, standing]
    have hsame : Sched.getStateMachine { s with
        taskIdToStateMachine := s.taskIdToStateMachine.erase u, trace := .removed u n.uid n.state :: s.trace } t = s.getStateMachine t :=
      Dict.get?_erase_ne _ ht
    rw [hsame]
    dsimp only
    rw [List.filter_cons_of_neg (by simp [Obs.bears, Ne.symm ht])]
    rfl

theorem Sched.exists_machine_commit {n : StateMachine} (hn : s.getStateMachine u = some n) (x : TaskState) :
    ∃ n', (s.commit u x).getStateMachine u = some n' := by
  have hnone := s.getStateMachine_commit u u x
  rwa [hn, Option.isNone_some, Option.isNone_eq_false_iff, Option.isSome_iff_exists] at hnone

theorem Sched.standing_settle (s : Sched) (t u : TaskID) {n : StateMachine} (hn : s.getStateMachine u = some n) (x : TaskState) :
    ∃ y : Nat × TaskState, (s.settle u x).standing t =
      if t = u ∧ x.isTerminal = true then { s.standing t with trace := .removed u y.1 y.2 :: (s.standing t).trace, absent := true }
      else s.standing t := by
  obtain ⟨n', hn'⟩ := s.exists_machine_commit hn x
  refine ⟨⟨n'.uid, n'.state⟩, ?_⟩
  unfold settle
  by_cases hx : x.isTerminal = true
  · rw [if_pos hx]
    change ((s.commit u x).removeStateMachine u).standing t = _
    rw [Sched.standing_removeStateMachine _ t u hn', Sched.standing_commit]
    simp only [hx, and_true]
  · rw [if_neg hx, if_neg fun h => hx h.2]
    exact s.standing_commit t u x

theorem Sched.standing_tearDown (s : Sched) (t u : TaskID) {n : StateMachine} (hn : s.getStateMachine u = some n) :
    ∃ y : Nat × TaskState, (s.tearDown u).standing t =
      if t = u then { s.standing t with trace := .removed u y.1 y.2 :: (s.standing t).trace, absent := true } else s.standing t := by
  obtain ⟨n', hn'⟩ := s.exists_machine_commit hn .failed
  refine ⟨⟨n'.uid, n'.state⟩, ?_⟩
  change ((s.commit u .failed).removeStateMachine u).standing t = _
  rw [Sched.standing_removeStateMachine _ t u hn', Sched.standing_commit]

end Standing

namespace Standing.Keeps

variable {v v' : Standing} {t : TaskID} {A : Multiset Tok} {uid : Nat} {e : TaskEvent} {source : TaskState} {phase phase' : Phase}

/-- The event at the task goes on, and nothing is said of the task. -/
theorem advance (h : v.Keeps t {.apply uid e source phase}) (hagrees : phase.Agrees (account t v.trace) v.owner v.faulted →
      phase'.Agrees (account t v.trace) v'.owner v'.faulted) (htrace : v'.trace = v.trace) (habsent : v'.absent = v.absent)
    (hfaulted : v'.faulted = false → v.faulted = false) : v'.Keeps t {.apply uid e source phase'} where
  absent := by rw [htrace, habsent, h.absent]
  applied := fun uid' e' source' phase'' hmem => by
    cases Multiset.mem_singleton.mp hmem
    rw [htrace]
    exact hagrees (h.applied uid e source phase (Multiset.mem_singleton_self _))
  idle := fun hzero => absurd hzero (Multiset.singleton_ne_zero _)
  owned := fun hzero => absurd hzero (Multiset.singleton_ne_zero _)
  answers := by
    rw [htrace]
    exact h.answers
  goes := by
    rw [htrace]
    exact fun hf => h.goes (hfaulted hf)

/-- The client is answered. -/
theorem answer (h : v.Keeps t {.apply uid e source phase}) {c : ClientID} {m : Message} {holder : Option WorkerID}
    (hagrees : phase.Agrees (account t v.trace) v.owner v.faulted →
      account t v.trace = .due ∧ v.owner = none ∧ phase'.Agrees .settled none v.faulted) (hm : m.repliesTo t = true) :
    Standing.Keeps { v with trace := .sent (.client c) m holder :: v.trace } t {.apply uid e source phase'} := by
  obtain ⟨hdue, hnone, hnew⟩ := hagrees (h.applied uid e source phase (Multiset.mem_singleton_self _))
  have hsettled : account t (.sent (.client c) m holder :: v.trace) = .settled := by
    rw [account, if_pos ⟨hm, hdue⟩]
  constructor
  · dsimp only
    rw [hsettled, h.absent, hdue]
    simp
  · intro uid' e' source' phase'' hmem
    cases Multiset.mem_singleton.mp hmem
    dsimp only
    rw [hsettled, hnone]
    exact hnew
  · exact fun hzero => absurd hzero (Multiset.singleton_ne_zero _)
  · exact fun hzero => absurd hzero (Multiset.singleton_ne_zero _)
  · exact ⟨fun _ => .inl hdue, h.answers⟩
  · exact fun hf => ⟨trivial, h.goes hf⟩

/-- An event of a registered task is taken up. -/
theorem start (h : v.Keeps t 0) (hpresent : v.absent = false) : v.Keeps t {.apply uid e source .start} := by
  have hclosed : account t v.trace ≠ .closed := by
    rw [ne_eq, ← h.absent, hpresent]
    simp
  have hdue : account t v.trace = .due := by
    cases haccount : account t v.trace with
    | due => rfl
    | closed => exact absurd haccount hclosed
    | settled => exact absurd haccount (h.idle rfl)
  constructor
  · exact h.absent
  · intro uid' e' source' phase' hmem
    cases Multiset.mem_singleton.mp hmem
    exact ⟨hdue, h.owned rfl hdue⟩
  · exact fun hzero => absurd hzero (Multiset.singleton_ne_zero _)
  · exact fun hzero => absurd hzero (Multiset.singleton_ne_zero _)
  · exact h.answers
  · exact h.goes

/-- The event at the task is over, and the task stays. -/
theorem leave (h : v.Keeps t {.apply uid e source phase})
    (hagrees : phase.Agrees (account t v.trace) v.owner v.faulted → Phase.start.Agrees (account t v.trace) v.owner v.faulted) :
    v.Keeps t 0 := by
  obtain ⟨hdue, howner⟩ := hagrees (h.applied uid e source phase (Multiset.mem_singleton_self _))
  refine ⟨h.absent, fun uid' e' source' phase' hmem => absurd hmem (Multiset.notMem_zero _), fun _ => ?_, fun _ _ => howner, h.answers, h.goes⟩
  rw [hdue]
  simp

/-- The task is removed. -/
theorem remove (h : v.Keeps t A) (y : Nat × TaskState) (hsettled : v.faulted = false → account t v.trace = .settled) :
    Standing.Keeps { v with trace := .removed t y.1 y.2 :: v.trace, absent := true } t 0 := by
  have hclosed : account t (.removed t y.1 y.2 :: v.trace) = .closed := if_pos rfl
  constructor
  · simp [hclosed]
  · exact fun uid' e' source' phase' hmem => absurd hmem (Multiset.notMem_zero _)
  · simp [hclosed]
  · simp [hclosed]
  · exact ⟨trivial, h.answers⟩
  · exact fun hf => ⟨fun _ => hsettled hf, h.goes hf⟩

/-- The task is registered. -/
theorem register (h : v.Keeps t 0) (uid : Nat) (pending : List TaskEvent) {owner : Option ClientID} (howner : owner.isSome) :
    Standing.Keeps { v with trace := .registered t uid pending :: v.trace, absent := false, owner := owner } t 0 := by
  have hdue : account t (.registered t uid pending :: v.trace) = .due := if_pos rfl
  constructor
  · simp [hdue]
  · exact fun uid' e' source' phase' hmem => absurd hmem (Multiset.notMem_zero _)
  · simp [hdue]
  · exact fun _ _ _ => howner
  · exact ⟨trivial, h.answers⟩
  · exact fun hf => ⟨trivial, h.goes hf⟩

end Standing.Keeps

section Steps

variable {i : Tid} {s s' : Sched} {t : TaskID} {u u' R : Multiset Tok} {uid : Nat} {e : TaskEvent} {source : TaskState} {phase : Phase}

theorem applying_alone (hl : Locked s.taskView (taskToks {.apply uid e source phase} + taskToks R)) : applying e.taskId R = 0 := by
  refine applying_eq_zero fun a ha => ?_
  cases a with
  | apply uid' e' source' phase' =>
    have hdistinct := Locked.distinct hl (mem_taskToks.mpr ⟨ha, rfl⟩)
    simpa [Tok.applies] using hdistinct
  | _ => rfl

/-- A step of the coroutine that applies an event. -/
theorem Standing.Keeps.at_event (hk : (s.standing t).Keeps t (applying t {.apply uid e source phase} + applying t R))
    (hl : Locked s.taskView (taskToks {.apply uid e source phase} + taskToks R)) {V : Multiset Tok}
    (hother : t ≠ e.taskId → s'.standing t = s.standing t ∧ applying t V = 0)
    (hhere : t = e.taskId → (s.standing t).Keeps t {.apply uid e source phase} → (s'.standing t).Keeps t (applying t V)) :
    (s'.standing t).Keeps t (applying t V + applying t R) := by
  by_cases ht : t = e.taskId
  · subst ht
    rw [applying_alone hl, add_zero] at hk ⊢
    refine hhere rfl ?_
    simpa [Tok.applies] using hk
  · obtain ⟨hsame, hnone⟩ := hother ht
    have hzero : applying t {.apply uid e source phase} = 0 := by simp [Tok.applies, Ne.symm ht]
    rw [hzero] at hk
    rw [hsame, hnone]
    exact hk

/-- The coroutine goes on with its event, and the task stands as before. -/
theorem Standing.Keeps.goes_on (hk : (s.standing t).Keeps t (applying t {.apply uid e source phase} + applying t R))
    (hl : Locked s.taskView (taskToks {.apply uid e source phase} + taskToks R)) {phase' : Phase} {V : Multiset Tok}
    (hstanding : s'.standing t = s.standing t) (hV : applying t V = 0)
    (hagrees : ∀ a o f, phase.Agrees a o f → phase'.Agrees a o f) :
    (s'.standing t).Keeps t (applying t (.apply uid e source phase' ::ₘ V) + applying t R) := by
  refine hk.at_event hl (fun ht => ⟨hstanding, ?_⟩) fun ht hhere => ?_
  · simp [Tok.applies, Ne.symm ht, hV]
  · have hmine : applying t (.apply uid e source phase' ::ₘ V) = {.apply uid e source phase'} := by simp [Tok.applies, ← ht, hV]
    rw [hmine, hstanding]
    exact hhere.advance (hagrees _ _ _) rfl rfl id

theorem TaskEvent.Places.pending {e : TaskEvent} (h : e.Places source phase) (a : Account) (o : Option ClientID) (f : Bool)
    (ha : phase.Agrees a o f) : Phase.start.Agrees a o f := by
  cases e with
  | cancelConfirmCanceled =>
    obtain ⟨-, rfl⟩ := h
    exact ha
  | cancelConfirmNotFound =>
    obtain ⟨-, rfl⟩ := h
    exact ha
  | workerDisconnected =>
    obtain ⟨-, rfl⟩ := h
    exact ha
  | _ => exact h.elim

theorem TaskEvent.Replies.pending {e : TaskEvent} (h : e.Replies source phase) (a : Account) (o : Option ClientID) (f : Bool)
    (ha : phase.Agrees a o f) : Phase.start.Agrees a o f := by
  cases e with
  | taskCancelRequested =>
    obtain ⟨-, rfl⟩ | ⟨-, rfl⟩ := h
    · exact ha
    · exact ha
  | taskResultReceived =>
    obtain rfl : phase = .vacant := h
    exact ha
  | cancelConfirmCanceled =>
    obtain ⟨-, rfl⟩ := h
    exact ha
  | cancelConfirmNotFound =>
    obtain ⟨-, rfl⟩ := h
    exact ha
  | workerDisconnected =>
    obtain ⟨-, rfl⟩ := h
    exact ha
  | _ => exact h.elim

theorem TaskEvent.Lands.pending {e : TaskEvent} {x : TaskState} (h : e.Lands source phase x) (hx : x.isTerminal = false) (a : Account)
    (o : Option ClientID) (f : Bool) (ha : phase.Agrees a o f) : Phase.start.Agrees a o f := by
  cases x with
  | inactive =>
    obtain rfl : phase = .queued := h
    exact ha
  | running =>
    obtain rfl | ⟨-, rfl, -⟩ := h
    · exact ha
    · exact ha
  | canceling =>
    obtain ⟨-, ⟨-, rfl⟩ | ⟨-, rfl⟩⟩ := h
    · exact ha
    · exact ha
  | balanceCanceling =>
    obtain ⟨-, -, rfl⟩ := h
    exact ha
  | _ => cases hx

theorem TaskEvent.Lands.ended {e : TaskEvent} {x : TaskState} (h : e.Lands source phase x) (hx : x.isTerminal = true) : phase = .ended none := by
  cases x with
  | inactive => cases hx
  | running => cases hx
  | canceling => cases hx
  | balanceCanceling => cases hx
  | _ => exact h

theorem Phase.Agrees.fault {a : Account} {o : Option ClientID} {f : Bool} (h : phase.Agrees a o f) : o ≠ none → a = .due := by
  intro ho
  cases phase with
  | ended due =>
    cases due with
    | none => exact absurd h.1 ho
    | some c => exact h.1
  | reported due =>
    cases due with
    | none => exact absurd h.1 ho
    | some c => exact h.1
  | spoiled => exact h ho
  | faulted => exact h.1 ho
  | freed => exact absurd h.1 ho
  | _ => exact h.1

theorem Message.repliesTo_unique {m : Message} {t' : TaskID} (hm : m.IsReplyTo t') (h : m.repliesTo t = true) : t = t' := by
  cases m with
  | taskResult r =>
    have hr : r.taskId = t := by simpa [Message.repliesTo] using h
    exact hr.symm.trans hm
  | taskCancelConfirm c =>
    have hc : c.taskId = t := by simpa [Message.repliesTo] using h
    exact hc.symm.trans hm
  | _ => cases h

/-- The owner is popped, to be answered. -/
theorem Standing.Keeps.pop (hk : (s.standing t).Keeps t (applying t {.apply uid e source phase} + applying t R))
    (hl : Locked s.taskView (taskToks {.apply uid e source phase} + taskToks R)) {phase' : Phase}
    (hagrees : ∀ a f, phase.Agrees a (s.clientToTaskIds.getKey? e.taskId) f → phase'.Agrees a none f) :
    ((s.onTaskFinish e.taskId).standing t).Keeps t (applying t {.apply uid e source phase'} + applying t R) := by
  refine hk.at_event hl (fun ht => ⟨?_, by simp [Tok.applies, Ne.symm ht]⟩) fun ht hhere => ?_
  · rw [s.standing_onTaskFinish, if_neg ht]
  · have hmine : applying t {.apply uid e source phase'} = {.apply uid e source phase'} := by simp [Tok.applies, ht]
    rw [hmine, s.standing_onTaskFinish, if_pos ht]
    refine hhere.advance ?_ rfl rfl id
    subst ht
    exact hagrees _ _

/-- A machine whose lock is free has no event applied to it. -/
theorem applying_of_ready {tok : Multiset Tok} (hl : Locked s.taskView (tok + taskToks R)) (hready : (s.locks uid).owner = none)
    (hm : s.getStateMachine t = some ⟨uid, source⟩) : applying t R = 0 := by
  refine applying_eq_zero fun a ha => ?_
  cases a with
  | apply uid' e' source' phase' =>
    by_contra hne
    have he : e'.taskId = t := by simpa [Tok.applies] using hne
    have hmem : .apply uid' e' source' phase' ∈ tok + taskToks R := Multiset.mem_add.mpr (.inr (mem_taskToks.mpr ⟨ha, rfl⟩))
    have hmachine := hl.machine hmem
    rw [he, show s.taskView.taskIdToStateMachine.get? t = some ⟨uid, source⟩ from hm] at hmachine
    cases hmachine
    have hnone : holders uid (tok + taskToks R) = 0 := by
      rw [hl.held, show (s.taskView.locks uid).owner = none from hready]
      rfl
    have hholds := holders_eq_zero hnone hmem
    simp [Tok.holds] at hholds
  | _ => rfl

theorem applying_of_absent {tok : Multiset Tok} (hl : Locked s.taskView (tok + taskToks R)) (hm : s.getStateMachine t = none) :
    applying t R = 0 := by
  refine applying_eq_zero fun a ha => ?_
  cases a with
  | apply uid' e' source' phase' =>
    by_contra hne
    have he : e'.taskId = t := by simpa [Tok.applies] using hne
    have hmachine := hl.machine (Multiset.mem_add.mpr (.inr (mem_taskToks.mpr ⟨ha, rfl⟩)))
    rw [he, show s.taskView.taskIdToStateMachine.get? t = none from hm] at hmachine
    cases hmachine
  | _ => rfl

/-- A task comes in. -/
theorem Standing.Keeps.enter {task : Task} (hk : (s.standing t).Keeps t (applying t {.fresh task} + applying t R))
    (hl : Locked s.taskView (taskToks {.fresh task} + taskToks R)) (hm : s.getStateMachine task.taskId = none) {x : Except Exn Unit}
    {owners : OneToManyDict ClientID TaskID} (ho : s.clientToTaskIds.add task.source task.taskId = (x, owners)) {V : Multiset Tok}
    (hs : s'.standing t = { (s.addStateMachine task.taskId).standing t with owner := owners.getKey? t }) (hV : applying t V = 0) :
    (s'.standing t).Keeps t (applying t V + applying t R) := by
  have hfresh : applying t {.fresh task} = 0 := by simp [Tok.applies]
  rw [hfresh, zero_add] at hk
  rw [hs, s.standing_addStateMachine, hV, zero_add]
  by_cases ht : t = task.taskId
  · subst ht
    rw [applying_of_absent hl hm] at hk ⊢
    rw [if_pos rfl]
    exact hk.register _ _ (OneToManyDict.getKey?_add_isSome ho)
  · rw [if_neg ht, OneToManyDict.getKey?_add ho ht]
    exact hk

theorem TaskStep.keeps (h : TaskStep i s u s' u') (hl : Locked s.taskView (taskToks u + taskToks R))
    (hk : (s.standing t).Keeps t (applying t (u + R))) : (s'.standing t).Keeps t (applying t (u' + R)) := by
  rw [applying_add] at hk ⊢
  have hquiet : s'.standing t = s.standing t → applying t u' = applying t u →
      (s'.standing t).Keeps t (applying t u' + applying t R) := by
    intro hsame htoks
    rw [hsame, htoks]
    exact hk
  cases h with
  | message => exact hquiet rfl (by simp [Tok.applies])
  | known => exact hquiet rfl (by simp [Tok.applies])
  | refuse h ho => exact hk.enter hl h ho (Sched.standing_note rfl rfl) (by simp [Tok.applies])
  | hold h ho => exact hk.enter hl h ho rfl rfl
  | assign h ho => exact hk.enter hl h ho rfl (by simp [Tok.applies])
  | acquire => exact hquiet rfl (by simp [Tok.applies])
  | acquireNone => exact hquiet rfl rfl
  | drainFail => exact hquiet (Sched.standing_note rfl rfl) (by simp [Tok.applies])
  | loseEvent => exact hquiet rfl (by simp [Tok.applies])
  | report => exact hquiet rfl (by simp [Tok.applies])
  | drop => exact hquiet rfl (by simp [Tok.applies])
  | enqueue => exact hquiet rfl (by simp [Tok.applies])
  | expire => exact hquiet rfl (by simp [Tok.applies])
  | takeStale => exact hquiet rfl (by simp [Tok.applies])
  | @take uid e source hready h =>
    have hfree : (s.locks uid).owner = none := by
      unfold Sched.lockReady at hready
      simpa using (Bool.and_eq_true _ _ |>.mp hready).1
    have hsame : (((s.takeLock uid i).dropEvent e).recordApplied e source).standing t = s.standing t :=
      Sched.standing_note (s := (s.takeLock uid i).dropEvent e) (o := .applied e source _ _ _) rfl rfl
    by_cases ht : t = e.taskId
    · have hm : s.getStateMachine t = some ⟨uid, source⟩ := ht ▸ h
      have hmine : applying t {.apply uid e source .start} = {.apply uid e source .start} := by simp [Tok.applies, ht]
      have hwait : applying t {.wait uid e} = 0 := by simp [Tok.applies]
      rw [applying_of_ready hl hfree hm, hwait, add_zero] at hk
      rw [hsame, hmine, applying_of_ready hl hfree hm, add_zero]
      exact hk.start (by rw [Sched.standing, hm]; rfl)
    · exact hquiet hsame (by simp [Tok.applies, Ne.symm ht])
  | decline =>
    refine hk.at_event hl (V := 0) (fun _ => ⟨rfl, rfl⟩) fun ht hhere => ?_
    exact hhere.leave id
  | dispatch => exact hk.goes_on hl (V := 0) (Sched.standing_note rfl rfl) rfl fun _ _ _ h => h
  | unqueue => exact hk.goes_on hl (V := 0) rfl rfl fun _ _ _ h => h
  | release => exact hk.goes_on hl (V := 0) rfl rfl fun _ _ _ h => h
  | releaseFail => exact hk.goes_on hl (V := {_}) (Sched.standing_note rfl rfl) (by simp [Tok.applies]) fun _ _ _ h => h
  | @owner uid u c m _ h =>
    refine hk.at_event hl (fun ht => ⟨?_, by simpa [Tok.applies] using Ne.symm ht⟩) fun ht hhere => ?_
    · exact congrArg (fun owner => { s.standing t with owner }) (OneToManyDict.getKey?_add h ht)
    · have hmine : applying t {.apply uid (.taskCancelRequested u c m) .running .start} = {.apply uid (.taskCancelRequested u c m) .running .start} := by
        simpa [Tok.applies] using ht.symm
      rw [hmine]
      exact hhere.advance (fun hagrees => ⟨hagrees.1, fun _ => ht ▸ OneToManyDict.getKey?_add_isSome h⟩) rfl rfl id
  | tell => exact hk.goes_on hl (V := 0) (Sched.standing_note rfl rfl) rfl fun _ _ _ h => h
  | place he => exact hk.goes_on hl (V := 0) (Sched.standing_note rfl rfl) rfl he.pending
  | placeFail he => exact hk.goes_on hl (V := {_}) (Sched.standing_note rfl rfl) (by simp [Tok.applies]) fun a o f h _ => (he.pending a o f h).1
  | suspend he => exact hk.goes_on hl (V := 0) rfl rfl he.pending
  | @finish _ e _ _ he =>
    refine hk.pop hl fun a f hagrees => ?_
    obtain ⟨hdue, howner⟩ := he.pending a _ f hagrees
    cases hc : s.clientToTaskIds.getKey? e.taskId with
    | none =>
      refine ⟨rfl, fun hf => ?_⟩
      rw [hc] at howner
      cases howner hf
    | some c => exact ⟨hdue, rfl⟩
  | @answer uid e source c m h =>
    refine hk.at_event hl (fun ht => ⟨Sched.standing_note ?_ rfl, by simp [Tok.applies, Ne.symm ht]⟩) fun ht hhere => ?_
    · by_contra hm
      exact ht (Message.repliesTo_unique h (eq_true_of_ne_false hm))
    · have hmine : applying t {.apply uid e source (.ended none)} = {.apply uid e source (.ended none)} := by simp [Tok.applies, ht]
      have hm : m.repliesTo t = true := Message.repliesTo_iff.mpr (ht ▸ h)
      rw [hmine, Sched.standing_noteSent hm]
      exact hhere.answer (fun hagrees => ⟨hagrees.1, hagrees.2, rfl, fun _ => rfl⟩) hm
  | spoil => exact hk.goes_on hl (V := {_}) (Sched.standing_note rfl rfl) (by simp [Tok.applies]) fun _ _ _ h _ => h.1
  | @settle uid e source phase x h =>
    have hm : s.getStateMachine e.taskId = some ⟨uid, source⟩ := Locked.get hl
    obtain ⟨y, hstanding⟩ := s.standing_settle t e.taskId hm x
    refine hk.at_event hl (V := 0) (fun ht => ⟨hstanding.trans (if_neg fun h => ht h.1), rfl⟩) fun ht hhere => ?_
    change ((s.settle e.taskId x).standing t).Keeps t 0
    rw [hstanding]
    by_cases hx : x.isTerminal = true
    · rw [if_pos ⟨ht, hx⟩, ← ht]
      obtain rfl := h.ended hx
      exact hhere.remove y (hhere.applied _ _ _ _ (Multiset.mem_singleton_self _)).2
    · rw [if_neg fun h => hx h.2]
      exact hhere.leave (h.pending (eq_false_of_ne_true hx) _ _ _)
  | @faulted uid e source phase =>
    refine hk.at_event hl (fun ht => ⟨?_, by simp [Tok.applies, Ne.symm ht]⟩) fun ht hhere => ?_
    · rw [Sched.standing_faulted, if_neg ht]
    · have hmine : applying t {.apply uid e source .faulted} = {.apply uid e source .faulted} := by simp [Tok.applies, ht]
      rw [hmine, Sched.standing_faulted, if_pos ht]
      exact hhere.advance (fun hagrees => ⟨hagrees.fault, rfl⟩) rfl rfl fun hf => by cases hf
  | @popOwner _ e _ =>
    refine hk.pop hl fun a f hagrees => ?_
    cases howner : s.clientToTaskIds.getKey? e.taskId with
    | none => exact ⟨rfl, hagrees.2⟩
    | some c =>
      rw [howner] at hagrees
      exact ⟨hagrees.1 (Option.some_ne_none c), rfl, hagrees.2⟩
  | @answerFault uid e source c m h =>
    refine hk.at_event hl (fun ht => ⟨Sched.standing_note ?_ rfl, by simp [Tok.applies, Ne.symm ht]⟩) fun ht hhere => ?_
    · by_contra hm
      exact ht (Message.repliesTo_unique h (eq_true_of_ne_false hm))
    · have hmine : applying t {.apply uid e source (.reported none)} = {.apply uid e source (.reported none)} := by simp [Tok.applies, ht]
      have hm : m.repliesTo t = true := Message.repliesTo_iff.mpr (ht ▸ h)
      rw [hmine, Sched.standing_noteSent hm]
      exact hhere.answer (fun hagrees => ⟨hagrees.1, hagrees.2.1, rfl, hagrees.2.2⟩) hm
  | spoilFault h =>
    refine hk.goes_on hl (V := {_}) ?_ (by simp [Tok.applies]) fun _ _ _ h => h.2
    rcases h with rfl | rfl
    · exact Sched.standing_note rfl rfl
    · exact Sched.standing_note rfl rfl
  | free => exact hk.goes_on hl (V := 0) rfl rfl fun _ _ _ h => h
  | @tearDown uid e source phase h =>
    have hm : s.getStateMachine e.taskId = some ⟨uid, source⟩ := Locked.get hl
    obtain ⟨y, hstanding⟩ := s.standing_tearDown t e.taskId hm
    refine hk.at_event hl (fun ht => ⟨hstanding.trans (if_neg ht), by simp [Tok.applies]⟩) fun ht hhere => ?_
    rw [hstanding, if_pos ht, ← ht]
    refine hhere.remove y fun hf => ?_
    have hagrees := hhere.applied _ _ _ _ (Multiset.mem_singleton_self _)
    rw [hf] at hagrees
    rcases h with rfl | ⟨rfl, -⟩
    · cases hagrees.2
    · cases hagrees.2
  | close => exact hquiet rfl (by simp [Tok.applies])

end Steps

end Scaler
