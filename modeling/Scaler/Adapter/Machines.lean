import Mathlib.Data.Finset.Card
import Mathlib.Logic.Relation
import Scaler.Adapter.Provisioners

/-! Which machines the provisioners know about. A machine is forgotten by the exits of a start or
stop that come between the report of its identifier and its entry in the list, or between its
removal from the list and its deletion. -/

namespace Scaler

open Collections

namespace Adapter

/-- Between two calls: every machine that was reported is listed or has ended, no machine is listed
twice, and `terminate` asks for the end of those that run. -/
structure Accounted (listed ended reported asked : List MachineID) (activeUnitCount : Nat) : Prop where
  kept : ∀ id ∈ reported, id ∈ listed ∨ id ∈ ended
  nodup : listed.Nodup
  count : activeUnitCount = listed.toFinset.card
  terminate : ∀ id ∈ reported, id ∉ ended → id ∈ asked

theorem Accounted.of_ledger {l : Ledger MachineID} (h : l.Ok) (hhand : l.inHand = []) :
    Accounted l.listed l.ended l.reported l.listed l.listed.length where
  kept := fun _ => h.kept_of_inHand_nil hhand
  nodup := h.nodup
  count := (List.toFinset_card_of_nodup h.nodup).symm
  terminate := by
    intro id hid hended
    obtain hlisted | hgone := h.kept_of_inHand_nil hhand hid
    · exact hlisted
    · exact absurd hgone hended

namespace ORB.WorkerProvisioner

def ledger (p : WorkerProvisioner) : Ledger MachineID := ⟨p.units, p.polled, p.returned, p.reported⟩

/-- A machine belongs to one request, and its identifier stands once in an answer. -/
def Lawful (p : WorkerProvisioner) : Event → Prop
  | .getRequestStatus (some request) =>
    request.machineIds.Nodup ∧ ∀ id ∈ request.machineIds, id ∈ p.reported → id ∈ p.polled
  | _ => True

/-- The full list of a request names all that were reported before it; a start that ends otherwise
has had no machine reported. -/
def Keeps (p : WorkerProvisioner) (event : Event) : Prop :=
  match p.call, event with
  | some (.getRequestStatus _ _ elapsed), .getRequestStatus none => timeoutSeconds ≤ elapsed → p.polled = []
  | some (.getRequestStatus _ count elapsed), .getRequestStatus (some request) =>
    if count ≤ request.machineIds.length then ∀ id ∈ p.polled, id ∈ request.machineIds
    else
      request.status.map Char.toLower ∈ terminalStatuses ∨ timeoutSeconds ≤ elapsed →
        p.polled = [] ∧ request.machineIds = []
  | some _, .raised => p.polled = []
  | some _, .cancelled => p.polled = []
  | _, _ => True

def LawfulStep (p q : WorkerProvisioner) : Prop := ∃ event, p.Lawful event ∧ p.step event = some q

def KeptStep (p q : WorkerProvisioner) : Prop := ∃ event, p.Lawful event ∧ p.Keeps event ∧ p.step event = some q

structure Wf (p : WorkerProvisioner) : Prop where
  ok : p.ledger.Ok
  polled : p.polled ≠ [] → ∃ requestId count elapsed,
    p.call = some (.sleep requestId count elapsed) ∨ p.call = some (.getRequestStatus requestId count elapsed)
  returning : ∀ count unitIds, p.call = some (.createReturnRequest count unitIds) → unitIds = p.units.take count

theorem Wf.leave {p : WorkerProvisioner} (h : p.ledger.Ok) (hpolled : p.polled = []) : p.leave.Wf where
  ok := by
    have hledger : p.leave.ledger = p.ledger := by
      simp [WorkerProvisioner.leave, ledger, hpolled]
    rw [hledger]
    exact h
  polled := fun hne => absurd rfl hne
  returning := nofun

theorem Wf.poll {p : WorkerProvisioner} (h : p.ledger.Ok) (requestId : String) (count elapsed : Nat)
    (hpolled : timeoutSeconds ≤ elapsed → p.polled = []) : (p.poll requestId count elapsed).Wf := by
  rw [WorkerProvisioner.poll]
  split
  · exact ⟨h, fun _ => ⟨requestId, count, elapsed, .inl rfl⟩, nofun⟩
  next hlate => exact .leave h (hpolled (Nat.le_of_not_lt hlate))

theorem Wf.polled_nil {p : WorkerProvisioner} (h : p.Wf)
    (hcall : ∀ requestId count elapsed, p.call ≠ some (.sleep requestId count elapsed) ∧
      p.call ≠ some (.getRequestStatus requestId count elapsed)) : p.polled = [] := by
  by_contra hne
  obtain ⟨requestId, count, elapsed, hsleep | hstatus⟩ := h.polled hne
  · exact (hcall requestId count elapsed).1 hsleep
  · exact (hcall requestId count elapsed).2 hstatus

theorem Wf.onRequestStatus {p : WorkerProvisioner} (h : p.Wf) {requestId : String} {count elapsed : Nat}
    (hcall : p.call = some (.getRequestStatus requestId count elapsed)) {request : Option RequestStatus}
    (hlawful : p.Lawful (.getRequestStatus request)) (hkeeps : p.Keeps (.getRequestStatus request)) :
    (p.onRequestStatus requestId count elapsed request).Wf := by
  cases request with
  | none =>
    simp only [Keeps, hcall] at hkeeps
    exact .poll h.ok requestId count elapsed hkeeps
  | some request =>
    obtain ⟨status, machineIds⟩ := request
    simp only [Keeps, hcall] at hkeeps
    have hnodup : machineIds.Nodup := hlawful.1
    have hreport := h.ok.report hlawful.2
    rw [WorkerProvisioner.onRequestStatus]
    by_cases hfull : count ≤ machineIds.length
    · rw [if_pos hfull] at hkeeps ⊢
      have hlisted := hreport.list hnodup fun id => by
          constructor
          · exact List.mem_append_right _
          · intro hid
            obtain hpolled | hnew := List.mem_append.mp hid
            · exact hkeeps id hpolled
            · exact hnew
      exact ⟨hlisted, fun hne => absurd rfl hne, nofun⟩
    · rw [if_neg hfull] at hkeeps ⊢
      by_cases hterminal : status.map Char.toLower ∈ terminalStatuses
      · rw [if_pos hterminal]
        obtain ⟨hpolled, hnone⟩ := hkeeps (.inl hterminal)
        exact .leave hreport (by simp [hpolled, hnone])
      · rw [if_neg hterminal]
        refine .poll hreport requestId count elapsed fun hlate => ?_
        obtain ⟨hpolled, hnone⟩ := hkeeps (.inr hlate)
        simp [hpolled, hnone]

theorem Wf.returned {p : WorkerProvisioner} (h : p.Wf) {count : Nat} {unitIds : List MachineID}
    (hcall : p.call = some (.createReturnRequest count unitIds)) :
    Wf { p with units := p.units.drop count, returned := p.returned ++ unitIds }.leave := by
  have hnil := h.polled_nil fun _ _ _ => by simp [hcall]
  have htaken : Ledger.Ok ⟨p.units.drop count, [], p.returned ++ unitIds, p.reported⟩ :=
    (h.ok.take count).finish fun id => by simp [ledger, hnil, h.returning count unitIds hcall]
  exact ⟨htaken, fun hne => absurd rfl hne, nofun⟩

theorem Wf.step {p q : WorkerProvisioner} (h : p.Wf) (hstep : KeptStep p q) : q.Wf := by
  obtain ⟨event, hlawful, hkeeps, hstep⟩ := hstep
  rw [WorkerProvisioner.step.eq_def] at hstep
  split at hstep
  case h_1 hcall =>
    obtain rfl := Option.some.inj hstep
    exact ⟨h.ok, fun hne => absurd (h.polled_nil fun _ _ _ => by simp [hcall]) hne, nofun⟩
  case h_2 count hcall =>
    have hnil := h.polled_nil fun _ _ _ => by simp [hcall]
    split at hstep
    · obtain rfl := Option.some.inj hstep
      exact h
    next hunits =>
      obtain rfl := Option.some.inj hstep
      refine ⟨h.ok, fun hne => absurd hnil hne, ?_⟩
      rintro count' unitIds ⟨⟩
      exact hunits.symm
  case h_3 hcall =>
    have hnil := h.polled_nil fun _ _ _ => by simp [hcall]
    split at hstep
    · obtain rfl := Option.some.inj hstep
      exact .leave h.ok hnil
    · obtain rfl := Option.some.inj hstep
      exact .leave h.ok hnil
    · obtain rfl := Option.some.inj hstep
      exact .poll h.ok _ _ _ fun _ => hnil
  case h_4 requestId count elapsed hcall =>
    obtain rfl := Option.some.inj hstep
    exact ⟨h.ok, fun _ => ⟨_, _, _, .inr rfl⟩, nofun⟩
  case h_5 hcall =>
    obtain rfl := Option.some.inj hstep
    exact h.onRequestStatus hcall hlawful hkeeps
  case h_6 hcall =>
    obtain rfl := Option.some.inj hstep
    exact h.returned hcall
  case h_11 => cases hstep
  all_goals
    next hcall =>
      simp only [Keeps, hcall] at hkeeps
      obtain rfl := Option.some.inj hstep
      exact .leave h.ok hkeeps

theorem wf_new : new.Wf := ⟨⟨nofun, List.nodup_nil, nofun, nofun⟩, fun hne => absurd rfl hne, nofun⟩

theorem Wf.run {p : WorkerProvisioner} (hrun : Relation.ReflTransGen KeptStep new p) : p.Wf := by
  induction hrun with
  | refl => exact wf_new
  | tail _ hstep ih => exact ih.step hstep

end ORB.WorkerProvisioner

namespace OCIRaw.WorkerProvisioner

/-- The instances that the call in progress alone knows of. -/
def inHand (p : WorkerProvisioner) : List MachineID :=
  match p.call with
  | some (.startUnits _ (.sleep instanceId _)) => [instanceId]
  | some (.startUnits _ (.get instanceId _)) => [instanceId]
  | some (.startUnits _ (.delete instanceId)) => [instanceId]
  | some (.stopUnits toStop) => toStop
  | _ => []

def ledger (p : WorkerProvisioner) : Ledger MachineID := ⟨p.instances, p.inHand, p.deleted, p.reported⟩

/-- A created instance has an identifier of its own. -/
def Lawful (p : WorkerProvisioner) : Event → Prop
  | .create instanceId => instanceId ∉ p.reported
  | .lateCreate instanceId => instanceId ∉ p.reported
  | _ => True

/-- No delete fails, a call that is left by an exception has no instance in hand, and no instance is
created for a call that was canceled. -/
def Keeps (p : WorkerProvisioner) : Event → Prop
  | .deleteFailed => False
  | .raised => p.inHand = []
  | .cancelled => p.inHand = []
  | .lateCreate _ => False
  | _ => True

def LawfulStep (p q : WorkerProvisioner) : Prop := ∃ event, p.Lawful event ∧ p.step event = some q

def KeptStep (p q : WorkerProvisioner) : Prop := ∃ event, p.Lawful event ∧ p.Keeps event ∧ p.step event = some q

@[simp] theorem abandon_instances (p : WorkerProvisioner) (call : Call) :
    (p.abandon call).instances = p.instances := by
  rw [abandon.eq_def]
  split <;> rfl

@[simp] theorem abandon_deleted (p : WorkerProvisioner) (call : Call) : (p.abandon call).deleted = p.deleted := by
  rw [abandon.eq_def]
  split <;> rfl

@[simp] theorem abandon_reported (p : WorkerProvisioner) (call : Call) : (p.abandon call).reported = p.reported := by
  rw [abandon.eq_def]
  split <;> rfl

theorem ok_leave {p : WorkerProvisioner} (h : Ledger.Ok ⟨p.instances, [], p.deleted, p.reported⟩) : p.leave.ledger.Ok := h

theorem ok_startNext {p : WorkerProvisioner} (h : Ledger.Ok ⟨p.instances, [], p.deleted, p.reported⟩) (more : Nat) :
    (p.startNext more).ledger.Ok := by
  cases more with
  | zero => exact h
  | succ more => exact h

theorem ok_poll {p : WorkerProvisioner} {instanceId : MachineID}
    (h : Ledger.Ok ⟨p.instances, [instanceId], p.deleted, p.reported⟩) (more attempts : Nat) :
    (p.poll more instanceId attempts).ledger.Ok := by
  cases attempts with
  | zero => exact h
  | succ attempts => exact h

theorem ok_stopNext {p : WorkerProvisioner} {toStop : List MachineID}
    (h : Ledger.Ok ⟨p.instances, toStop, p.deleted, p.reported⟩) : (p.stopNext toStop).ledger.Ok := by
  cases toStop with
  | nil => exact h
  | cons instanceId toStop => exact h

/-- What the call has in hand, read off the call. -/
theorem ok_inHand {p : WorkerProvisioner} (h : p.ledger.Ok) {ids : List MachineID} (hhand : p.inHand = ids) :
    Ledger.Ok ⟨p.instances, ids, p.deleted, p.reported⟩ := by
  rw [ledger, hhand] at h
  exact h

theorem ok_step {p q : WorkerProvisioner} (h : p.ledger.Ok) (hstep : KeptStep p q) : q.ledger.Ok := by
  obtain ⟨event, hlawful, hkeeps, hstep⟩ := hstep
  rw [step.eq_def] at hstep
  split at hstep
  case h_1 hcall =>
    obtain rfl := Option.some.inj hstep
    exact ok_startNext (ok_inHand h (by rw [inHand, hcall])) _
  case h_2 count hcall =>
    obtain rfl := Option.some.inj hstep
    have hhand : Ledger.Ok ⟨p.instances, [], p.deleted, p.reported⟩ := ok_inHand h (by rw [inHand, hcall])
    exact ok_stopNext (hhand.take count)
  case h_3 more instanceId hcall =>
    obtain rfl := Option.some.inj hstep
    refine ok_poll ((ok_inHand h (by rw [inHand, hcall])).report ?_) more maxPollAttempts
    intro id hid hreported
    obtain rfl := List.mem_singleton.mp hid
    exact absurd hreported hlawful
  case h_4 more hcall =>
    obtain rfl := Option.some.inj hstep
    exact ok_startNext (ok_inHand h (by rw [inHand, hcall])) more
  case h_5 hcall =>
    obtain rfl := Option.some.inj hstep
    exact ok_leave (ok_inHand h hkeeps)
  case h_6 hcall =>
    obtain rfl := Option.some.inj hstep
    exact ok_inHand h (by rw [inHand, hcall]; rfl)
  case h_7 more instanceId attempts lifecycleState hcall =>
    have hhand := ok_inHand h (by rw [inHand, hcall])
    split at hstep
    · obtain rfl := Option.some.inj hstep
      exact ok_startNext (hhand.list (List.nodup_singleton instanceId) fun _ => Iff.rfl) more
    · split at hstep
      · obtain rfl := Option.some.inj hstep
        exact hhand
      · obtain rfl := Option.some.inj hstep
        exact ok_poll hhand more attempts
  case h_8 hcall =>
    obtain rfl := Option.some.inj hstep
    exact ok_inHand h (by rw [inHand, hcall]; rfl)
  case h_9 hcall =>
    obtain rfl := Option.some.inj hstep
    exact ok_leave (ok_inHand h hkeeps)
  case h_10 more instanceId hcall =>
    obtain rfl := Option.some.inj hstep
    exact ok_startNext ((ok_inHand h (by rw [inHand, hcall])).finish fun id => by simp) more
  case h_11 => exact hkeeps.elim
  case h_12 instanceId toStop hcall =>
    obtain rfl := Option.some.inj hstep
    exact ok_stopNext ((ok_inHand h (by rw [inHand, hcall])).finish fun id => by simp)
  case h_13 => exact hkeeps.elim
  case h_14 call hcall =>
    obtain rfl := Option.some.inj hstep
    refine ok_leave ?_
    simp only [abandon_instances, abandon_deleted, abandon_reported]
    exact ok_inHand h hkeeps
  case h_15 => exact hkeeps.elim
  case h_16 instanceId =>
    split at hstep
    · obtain rfl := Option.some.inj hstep
      exact h.end_more [instanceId]
    · cases hstep
  case h_17 =>
    split at hstep
    · obtain rfl := Option.some.inj hstep
      exact h
    · cases hstep
  case h_18 =>
    split at hstep
    · obtain rfl := Option.some.inj hstep
      exact h
    · cases hstep
  case h_19 => cases hstep

theorem ok_run {p : WorkerProvisioner} (hrun : Relation.ReflTransGen KeptStep new p) : p.ledger.Ok := by
  induction hrun with
  | refl => exact ⟨nofun, List.nodup_nil, nofun, nofun⟩
  | tail _ hstep ih => exact ok_step ih hstep

end OCIRaw.WorkerProvisioner

/-- In every run whose steps keep the machines in hand, all of them are accounted for between calls. -/
theorem machines_accounted (orb : ORB.WorkerProvisioner) (oci : OCIRaw.WorkerProvisioner) :
    (Relation.ReflTransGen ORB.WorkerProvisioner.KeptStep .new orb → orb.call = none →
      Accounted orb.units orb.returned orb.reported orb.terminate orb.activeUnitCount) ∧
    (Relation.ReflTransGen OCIRaw.WorkerProvisioner.KeptStep .new oci → oci.call = none →
      Accounted oci.instances oci.deleted oci.reported oci.terminate oci.activeUnitCount) := by
  constructor
  · intro hrun hcall
    have hwf := ORB.WorkerProvisioner.Wf.run hrun
    exact .of_ledger hwf.ok (hwf.polled_nil fun _ _ _ => by simp [hcall])
  · intro hrun hcall
    have hhand : oci.inHand = [] := by rw [OCIRaw.WorkerProvisioner.inHand, hcall]
    exact .of_ledger (OCIRaw.WorkerProvisioner.ok_run hrun) hhand

theorem machines_accounted_one :
    Accounted ["i-1"] [] ["i-1"] ["i-1"] 1 ∧ Accounted [] ["ocid1"] ["ocid1"] [] 0 := by
  obtain ⟨horb, hoci⟩ := machines_accounted ⟨["i-1"], none, ["i-1"], [], []⟩ ⟨[], none, ["ocid1"], ["ocid1"], 0, []⟩
  constructor
  · refine horb ?_ rfl
    refine .head ⟨.startUnits 1, trivial, trivial, rfl⟩ (.head ⟨.createRequest (some "r"), trivial, trivial, rfl⟩
      (.head ⟨.slept, trivial, trivial, rfl⟩ (.single ⟨.getRequestStatus (some ⟨[], ["i-1"]⟩), ?_, ?_, rfl⟩)))
    · exact ⟨by decide, by decide⟩
    · exact fun id hid => nomatch hid
  · refine hoci ?_ rfl
    refine .head ⟨.startUnits 1, trivial, trivial, rfl⟩ (.head ⟨.create "ocid1", List.not_mem_nil, trivial, rfl⟩
      (.head ⟨.slept, trivial, trivial, rfl⟩ (.head ⟨.get "FAILED", trivial, trivial, rfl⟩
        (.single ⟨.delete, trivial, trivial, rfl⟩))))

/-- A request fails with one of two machines fulfilled; a start is canceled while it waits for its
instance. -/
theorem machine_forgotten :
    (∃ p : ORB.WorkerProvisioner, Relation.ReflTransGen ORB.WorkerProvisioner.LawfulStep .new p ∧ p.call = none ∧
      ¬Accounted p.units p.returned p.reported p.terminate p.activeUnitCount) ∧
    (∃ p : OCIRaw.WorkerProvisioner, Relation.ReflTransGen OCIRaw.WorkerProvisioner.LawfulStep .new p ∧
      p.call = none ∧ ¬Accounted p.instances p.deleted p.reported p.terminate p.activeUnitCount) := by
  constructor
  · refine ⟨⟨[], none, ["i-1"], [], []⟩, ?_, rfl, ?_⟩
    · refine .head ⟨.startUnits 2, trivial, rfl⟩ (.head ⟨.createRequest (some "r"), trivial, rfl⟩
        (.head ⟨.slept, trivial, rfl⟩ (.single ⟨.getRequestStatus (some ⟨"failed".toList, ["i-1"]⟩), ?_, ?_⟩)))
      · exact ⟨by decide, by decide⟩
      · rfl
    · intro haccounted
      have hkept := haccounted.kept "i-1" (by decide)
      revert hkept
      decide
  · refine ⟨⟨[], none, ["ocid1"], [], 0, []⟩, ?_, rfl, ?_⟩
    · refine .head ⟨.startUnits 1, trivial, rfl⟩ (.head ⟨.create "ocid1", List.not_mem_nil, rfl⟩
        (.single ⟨.cancelled, trivial, rfl⟩))
    · intro haccounted
      have hkept := haccounted.kept "ocid1" (by decide)
      revert hkept
      decide

end Adapter

end Scaler
