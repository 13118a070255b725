import Scaler.Client.BufferCalls
import Scaler.Collections.Outcome

/-! Identity deduplication. The entries of a cycle are keyed by addresses and guarded by
nothing, so an object gets what was serialized from itself as long as no new object is placed at
an address that a cycle still remembers. A call that raises part way does not end the cycle. -/

namespace Scaler

open Collections

namespace ObjectBuffer

variable {config : BufferConfig} {live : List PyObject} {obj : PyObject} {b b' : ObjectBuffer}

/-- What each cache holds for an object that is alive was serialized from that object, and so
was everything that was returned. -/
structure Genuine (live : List PyObject) (b : ObjectBuffer) : Prop where
  cycle : ∀ o ∈ live, ∀ c, b.cycleDedupCache.get? o.address = some c → (o, c.objectPayload) ∈ b.serialized
  persistent : ∀ k o c, b.dedupAlive.get? k = some o → b.dedupCache.get? k = some c →
    (o, c.objectPayload) ∈ b.serialized
  returned : ∀ oc ∈ b.returnedBefore ++ b.returned, (oc.1, oc.2.objectPayload) ∈ b.serialized

/-- The caches and what was returned are the same, and nothing serialized is forgotten. -/
structure SameCaches (b b' : ObjectBuffer) : Prop where
  cycle : b'.cycleDedupCache = b.cycleDedupCache
  alive : b'.dedupAlive = b.dedupAlive
  persistent : b'.dedupCache = b.dedupCache
  returned : b'.returned = b.returned
  returnedBefore : b'.returnedBefore = b.returnedBefore
  serialized : ∀ oc ∈ b.serialized, oc ∈ b'.serialized

theorem Genuine.of_same (hb : Genuine live b) (h : SameCaches b b') : Genuine live b' where
  cycle := by
    intro o ho c hc
    rw [h.cycle] at hc
    exact h.serialized _ (hb.cycle o ho c hc)
  persistent := by
    intro k o c ho hc
    rw [h.alive] at ho
    rw [h.persistent] at hc
    exact h.serialized _ (hb.persistent k o c ho hc)
  returned := by
    intro oc hoc
    rw [h.returned, h.returnedBefore] at hoc
    exact h.serialized _ (hb.returned oc hoc)

theorem sameCaches_noteCall (b : ObjectBuffer) : SameCaches b b.noteCall :=
  ⟨rfl, rfl, rfl, rfl, rfl, fun _ h => h⟩

theorem sameCaches_noteSerialized (b : ObjectBuffer) (obj : PyObject) (payload : Bytes) :
    SameCaches b (b.noteSerialized obj payload) :=
  ⟨rfl, rfl, rfl, rfl, rfl, fun _ h => List.mem_append_left _ h⟩

theorem sameCaches_runUploads (b : ObjectBuffer) (agent : AgentAnswer) :
    SameCaches b (b.runUploads agent) := ⟨rfl, rfl, rfl, rfl, rfl, fun _ h => h⟩

variable (config) in
theorem sameCaches_sendBuilt (b : ObjectBuffer) (payload : Bytes) (name : ObjectID → Bytes) :
    SameCaches b (b.sendBuilt config payload name) := by
  have hid : SameCaches b (b.objectIdForPayload config payload).2 := by
    unfold objectIdForPayload
    split
    · exact ⟨rfl, rfl, rfl, rfl, rfl, fun _ h => h⟩
    · exact ⟨rfl, rfl, rfl, rfl, rfl, fun _ h => h⟩
  unfold sendBuilt bufferSendSerializedObject
  split
  · exact hid
  · exact ⟨hid.cycle, hid.alive, hid.persistent, hid.returned, hid.returnedBefore, hid.serialized⟩

theorem Genuine.noteReturned (hb : Genuine live b) {cache : ObjectCache}
    (h : (obj, cache.objectPayload) ∈ b.serialized) : Genuine live (b.noteReturned obj cache) where
  cycle := hb.cycle
  persistent := hb.persistent
  returned := by
    intro oc hoc
    have hmem : oc ∈ b.returnedBefore ++ b.returned ∨ oc = (obj, cache) := by
      simpa [ObjectBuffer.noteReturned, or_assoc] using hoc
    rcases hmem with hmem | rfl
    · exact hb.returned oc hmem
    · exact h

theorem Genuine.dropStale (hb : Genuine live b) (obj : PyObject) : Genuine live (b.dropStale obj) where
  cycle := hb.cycle
  persistent := by
    intro k o c ho hc
    have hkept : b.dedupCache.get? k = some c := by
      by_cases hk : k = obj.address
      · subst hk
        rw [ObjectBuffer.dropStale, Dict.get?_erase_self] at hc
        cases hc
      · rwa [ObjectBuffer.dropStale, Dict.get?_erase_ne _ hk] at hc
    exact hb.persistent k o c ho hkept
  returned := hb.returned

/-- The address tells the objects that are alive apart. -/
theorem eq_of_address_eq (hlive : (live.map PyObject.address).Nodup) {o o' : PyObject} (ho : o ∈ live)
    (ho' : o' ∈ live) (h : o.address = o'.address) : o = o' :=
  List.inj_on_of_nodup_map hlive ho ho' h

theorem Genuine.rememberDedup (hb : Genuine live b) (hlive : (live.map PyObject.address).Nodup)
    (hobj : obj ∈ live) {cache : ObjectCache} (h : (obj, cache.objectPayload) ∈ b.serialized) :
    Genuine live (b.rememberDedup obj cache) := by
  have hcycle : ∀ o ∈ live, ∀ c,
      (b.cycleDedupCache.set obj.address cache).get? o.address = some c →
        (o, c.objectPayload) ∈ b.serialized := by
    intro o ho c hc
    by_cases hk : o.address = obj.address
    · have hsame := eq_of_address_eq hlive ho hobj hk
      subst hsame
      rw [Dict.get?_set_self] at hc
      cases hc
      exact h
    · rw [Dict.get?_set_ne _ hk] at hc
      exact hb.cycle o ho c hc
  unfold ObjectBuffer.rememberDedup
  split
  · refine ⟨hcycle, fun k o c ho hc => ?_, hb.returned⟩
    by_cases hk : k = obj.address
    · subst hk
      simp only [Dict.get?_set_self, Option.some.injEq] at ho hc
      subst ho hc
      exact h
    · simp only [Dict.get?_set_ne _ hk] at ho hc
      exact hb.persistent k o c ho hc
  · exact ⟨hcycle, hb.persistent, hb.returned⟩

theorem serialized_of_persistentDedup (hb : Genuine live b) {cached : ObjectCache}
    (h : b.persistentDedup obj = some cached) : (obj, cached.objectPayload) ∈ b.serialized := by
  unfold persistentDedup at h
  split at h
  · cases h
  · rename_i c hc
    split at h
    · rename_i hguard
      cases h
      exact hb.persistent _ _ _ hguard.2 hc
    · cases h

theorem serialized_of_cycleDedup (hb : Genuine live b) (hobj : obj ∈ live) {cached : ObjectCache}
    (h : b.cycleDedup obj = some cached) : (obj, cached.objectPayload) ∈ b.serialized := by
  unfold cycleDedup at h
  split at h
  · cases h
  · rename_i c hc
    split at h
    · cases h
      exact hb.cycle obj hobj _ hc
    · cases h

variable (config) in
theorem mem_serialized_sendBuilt (b : ObjectBuffer) (obj : PyObject) (payload : Bytes)
    (name : ObjectID → Bytes) :
    (obj, payload) ∈ ((b.noteSerialized obj payload).sendBuilt config payload name).serialized :=
  (sameCaches_sendBuilt config _ payload name).serialized _ (List.mem_append_right _ List.mem_cons_self)

theorem Genuine.sent (hlive : (live.map PyObject.address).Nodup) (hobj : obj ∈ live) (hb : Genuine live b)
    (h : Sent config obj b b') : Genuine live b' := by
  induction h with
  | persistent h => exact hb.noteReturned (serialized_of_persistentDedup hb h)
  | cycle h => exact hb.noteReturned (serialized_of_cycleDedup hb hobj h)
  | raised => exact hb.of_same (sameCaches_noteCall _)
  | @built b payload name =>
    have hbuilt := (hb.of_same (sameCaches_noteSerialized b obj payload)).of_same
      (sameCaches_sendBuilt config _ payload name)
    exact hbuilt.noteReturned (mem_serialized_sendBuilt config b obj payload name)
  | @remembered b payload name =>
    have hmem := mem_serialized_sendBuilt config b obj payload name
    have hbuilt := (hb.of_same (sameCaches_noteSerialized b obj payload)).of_same
      (sameCaches_sendBuilt config _ payload name)
    refine (hbuilt.rememberDedup hlive hobj hmem).noteReturned ?_
    unfold ObjectBuffer.rememberDedup
    split
    · exact hmem
    · exact hmem
  | stale _ ih => exact ih (hb.dropStale obj)

theorem Genuine.committed (hb : Genuine live b) : Genuine live b.committed :=
  ⟨fun _ _ _ hc => absurd hc (by simp [ObjectBuffer.committed]), hb.persistent, hb.returned⟩

theorem Genuine.cleared (config : BufferConfig) (hb : Genuine live b) : Genuine live (b.cleared config) where
  cycle := fun _ _ _ hc => absurd hc (by simp [ObjectBuffer.cleared])
  persistent := fun _ _ _ ho => absurd ho (by simp [ObjectBuffer.cleared])
  returned := by
    intro oc hoc
    have hmem : oc ∈ b.returnedBefore ++ b.returned := by simpa [ObjectBuffer.cleared] using hoc
    exact hb.returned oc hmem

theorem Genuine.kept (config : BufferConfig) (hlive : (live.map PyObject.address).Nodup) :
    KeptByBuffer config (· ∈ live) (Genuine live) where
  sent := fun _ _ _ hobj hb h => hb.sent hlive hobj h
  commit := by
    intro agent
    refine keeps_commitSendObjects agent (fun b hb _ => hb.committed) (fun b hb _ => ?_) fun b hb => ?_
    · exact (hb.of_same (sameCaches_runUploads b agent)).committed
    · exact hb.of_same (sameCaches_runUploads b agent)
  clear := by
    intro accepts b hb
    rw [endState_clear]
    exact hb.cleared config

end ObjectBuffer

namespace ClientSession

variable {config : BufferConfig} {s : ClientSession}

/-- No new object is placed at an address that the current cycle remembers. -/
def AddressForgotten (s : ClientSession) : SessionEvent → Prop
  | .allocate address _ => s.buffer.cycleDedupCache.get? address = none
  | .free _ => True
  | .call _ => True

structure Sound (s : ClientSession) : Prop where
  addresses : (s.live.map PyObject.address).Nodup
  genuine : s.buffer.Genuine s.live

theorem Sound.start (config : BufferConfig) : (start config).Sound where
  addresses := List.nodup_nil
  genuine := by
    refine ⟨fun o ho => absurd ho List.not_mem_nil, fun k o c ho => ?_, fun oc hoc => ?_⟩
    · cases ho
    · cases hoc

theorem Sound.allocate (hs : s.Sound) {address : Nat} {weakReferenceable : Bool}
    (h : s.buffer.cycleDedupCache.get? address = none) :
    (step config s (.allocate address weakReferenceable)).Sound := by
  simp only [step]
  split
  · exact hs
  · rename_i hfree
    refine ⟨List.nodup_cons.mpr ⟨hfree, hs.addresses⟩, ?_, hs.genuine.persistent, hs.genuine.returned⟩
    intro o ho c hc
    rcases List.mem_cons.mp ho with rfl | ho
    · cases h.symm.trans hc
    · exact hs.genuine.cycle o ho c hc

theorem Sound.free (hs : s.Sound) (obj : PyObject) : (step config s (.free obj)).Sound := by
  simp only [step]
  split
  · have hsub : (s.live.erase obj).Sublist s.live := List.erase_sublist
    refine ⟨hs.addresses.sublist (hsub.map _), ?_⟩
    unfold forget
    split
    · refine ⟨fun o ho => hs.genuine.cycle o (hsub.subset ho), fun k o c ho hc => ?_, hs.genuine.returned⟩
      have halive : s.buffer.dedupAlive.get? k = some o := by
        rw [Dict.get?_erase] at ho
        split at ho
        · cases ho
        · exact ho
      exact hs.genuine.persistent k o c halive hc
    · exact ⟨fun o ho => hs.genuine.cycle o (hsub.subset ho), hs.genuine.persistent, hs.genuine.returned⟩
  · exact hs

theorem Sound.call (hs : s.Sound) (c : ClientCall) : (step config s (.call c)).Sound := by
  simp only [step]
  split
  · rename_i hobjects
    exact ⟨hs.addresses, (ObjectBuffer.Genuine.kept config hs.addresses).call hobjects _ hs.genuine⟩
  · exact hs

theorem Sound.step (hs : s.Sound) {e : SessionEvent} (he : AddressForgotten s e) : (step config s e).Sound := by
  cases e with
  | allocate address weakReferenceable => exact hs.allocate he
  | free obj => exact hs.free obj
  | call c => exact hs.call c

/-- What is returned for an object was serialized from that object. -/
theorem returned_from_same_object (config : BufferConfig) (events : List SessionEvent)
    (h : Throughout (step config) AddressForgotten (start config) events) :
    ∀ oc ∈ (run config events).buffer.returnedBefore ++ (run config events).buffer.returned,
      (oc.1, oc.2.objectPayload) ∈ (run config events).buffer.serialized := by
  have hsound : (run config events).Sound := h.foldl (fun _ _ hs he => hs.step he) (.start config)
  exact hsound.genuine.returned

section Example

/-- The digests of three payloads of one byte, and longer texts for all others. -/
def digest (payload : Bytes) : Bytes :=
  if payload = [0] then [147, 184, 133, 173, 254, 13, 160, 137, 205, 246, 52, 144, 79, 213, 159, 113]
  else if payload = [1] then [85, 165, 64, 8, 173, 27, 165, 137, 170, 33, 13, 38, 41, 193, 223, 65]
  else if payload = [2] then [158, 104, 140, 88, 165, 72, 123, 142, 175, 105, 201, 225, 0, 90, 208, 191]
  else List.replicate 17 0 ++ payload

/-- The serializer writes the number of the object. -/
def numberConfig : BufferConfig where
  serialize _ obj := some [UInt8.ofNat obj.number]
  generateObjectId n := ⟨n + 1⟩
  serializerObjectId := ⟨0⟩
  serializerPayload := []
  md5 := digest
  reprObjectId _ := "ObjectID"
  functionName _ := none

def willingAgent : AgentAnswer := ⟨true, fun _ => .stored⟩

/-- A function is submitted with one list and then with another at the same address. -/
def submitTwoLists (first : List ClientArgument) : List SessionEvent :=
  [.allocate 16 true, .allocate 32 false,
    .call (.submitVerbose ⟨0, 16, true⟩ (.ok first) false willingAgent), .free ⟨1, 32, false⟩,
    .allocate 32 false,
    .call (.submitVerbose ⟨0, 16, true⟩ (.ok [.object ⟨2, 32, false⟩]) false willingAgent)]

theorem returned_from_same_object_two_lists :
    Throughout (step numberConfig) AddressForgotten (start numberConfig)
        (submitTwoLists [.object ⟨1, 32, false⟩]) ∧
      ∀ oc ∈ (run numberConfig (submitTwoLists [.object ⟨1, 32, false⟩])).buffer.returnedBefore ++
          (run numberConfig (submitTwoLists [.object ⟨1, 32, false⟩])).buffer.returned,
        (oc.1, oc.2.objectPayload) ∈
          (run numberConfig (submitTwoLists [.object ⟨1, 32, false⟩])).buffer.serialized := by
  have h : Throughout (step numberConfig) AddressForgotten (start numberConfig)
      (submitTwoLists [.object ⟨1, 32, false⟩]) := ⟨rfl, rfl, trivial, trivial, rfl, trivial, trivial⟩
  exact ⟨h, returned_from_same_object numberConfig _ h⟩

/-- The first submission names an unknown reference after the list and raises; the list is freed,
and the second list gets what was serialized from the first. -/
theorem freed_list_substituted :
    ¬∀ oc ∈ (run numberConfig (submitTwoLists [.object ⟨1, 32, false⟩, .reference ⟨99⟩])).buffer.returnedBefore ++
        (run numberConfig (submitTwoLists [.object ⟨1, 32, false⟩, .reference ⟨99⟩])).buffer.returned,
      (oc.1, oc.2.objectPayload) ∈
        (run numberConfig (submitTwoLists [.object ⟨1, 32, false⟩, .reference ⟨99⟩])).buffer.serialized := by
  decide +kernel

end Example

end ClientSession

end Scaler
