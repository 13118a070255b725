import Scaler.Client.ObjectBuffer

/-! What the calls of the client can do to the object buffer. Every call is a series of
`buffer_send` calls, commits and clears, so what these keep is kept by all of them. -/

namespace Scaler

open Collections

namespace ObjectBuffer

variable {config : BufferConfig} {obj : PyObject} {b b' : ObjectBuffer}

variable (config) in
/-- The `ObjectCache` that is built for a payload. -/
def builtCache (b : ObjectBuffer) (payload : Bytes) (name : ObjectID → Bytes) : ObjectCache :=
  ⟨(b.objectIdForPayload config payload).1, .object, name (b.objectIdForPayload config payload).1,
    payload⟩

variable (config) in
/-- The buffer that holds the new `ObjectCache`, if its id is new. -/
def sendBuilt (b : ObjectBuffer) (payload : Bytes) (name : ObjectID → Bytes) : ObjectBuffer :=
  (b.objectIdForPayload config payload).2.bufferSendSerializedObject (b.builtCache config payload name)

variable (config obj) in
/-- All that `buffer_send_function` and `buffer_send_object` can do for `obj`. -/
inductive Sent : ObjectBuffer → ObjectBuffer → Prop
  | persistent {b : ObjectBuffer} {cached : ObjectCache} (h : b.persistentDedup obj = some cached) :
      Sent b (b.noteReturned obj cached)
  | cycle {b : ObjectBuffer} {cached : ObjectCache} (h : b.cycleDedup obj = some cached) :
      Sent b (b.noteReturned obj cached)
  | raised {b : ObjectBuffer} : Sent b b.noteCall
  | built {b : ObjectBuffer} (payload : Bytes) (name : ObjectID → Bytes) :
      Sent b
        (((b.noteSerialized obj payload).sendBuilt config payload name).noteReturned obj
          ((b.noteSerialized obj payload).builtCache config payload name))
  | remembered {b : ObjectBuffer} (payload : Bytes) (name : ObjectID → Bytes) :
      Sent b
        ((((b.noteSerialized obj payload).sendBuilt config payload name).rememberDedup obj
          ((b.noteSerialized obj payload).builtCache config payload name)).noteReturned obj
            ((b.noteSerialized obj payload).builtCache config payload name))
  | stale {b b' : ObjectBuffer} (h : Sent (b.dropStale obj) b') : Sent b b'

variable (config) in
theorem run_construct (obj : PyObject) (name : ObjectID → Bytes) (b : ObjectBuffer) :
    (∃ e, (construct config obj name).run b = .error e b.noteCall) ∨
      ∃ payload, (construct config obj name).run b =
        .ok ((b.noteSerialized obj payload).builtCache config payload name)
          ((b.noteSerialized obj payload).objectIdForPayload config payload).2 := by
  cases h : config.serialize b.serializeCalls obj with
  | none =>
    left
    refine ⟨.serializerError, run_bind_of_error ?_⟩
    simp only [EStateM.run, serialize, h]
  | some payload =>
    right
    refine ⟨payload, run_bind_of_ok ?_⟩
    simp only [EStateM.run, serialize, h]

/-- The rest of a call after the caches were consulted in vain. -/
theorem sent_of_construct (name : ObjectID → Bytes) (dedup : Bool) (b : ObjectBuffer) :
    Sent config obj b
      (endState
        (construct config obj name >>= fun cache => do
          modify fun b => b.bufferSendSerializedObject cache
          if dedup then
            modify fun b => b.rememberDedup obj cache
          giveBack obj cache) b) := by
  obtain ⟨e, he⟩ | ⟨payload, he⟩ := run_construct config obj name b
  · rw [endState_of_error (run_bind_of_error he)]
    exact .raised
  · rw [endState_bind_of_ok he]
    cases dedup with
    | false => exact .built payload name
    | true => exact .remembered payload name

/-- A lookup finds the persistent entry, or it answers from the entries of this cycle and may
have dropped a persistent entry that is out of date. -/
theorem lookupDedup_cases (b : ObjectBuffer) (obj : PyObject) (ignorePersistent : Bool) :
    (∃ cached, b.persistentDedup obj = some cached ∧
      b.lookupDedup obj ignorePersistent = (some cached, b)) ∨
      b.lookupDedup obj ignorePersistent = (b.cycleDedup obj, b) ∨
      b.lookupDedup obj ignorePersistent = (b.cycleDedup obj, b.dropStale obj) := by
  cases ignorePersistent with
  | true => exact .inr (.inl rfl)
  | false =>
    cases hp : b.persistentDedup obj with
    | some cached => exact .inl ⟨cached, rfl, by simp [lookupDedup, hp]⟩
    | none => exact .inr (.inr (by simp [lookupDedup, hp]))

/-- The caches are consulted first. -/
theorem sent_of_lookup (ignorePersistent : Bool) {rest : BufferM ObjectCache}
    (hrest : ∀ b, Sent config obj b (endState rest b)) (b : ObjectBuffer) :
    Sent config obj b
      (endState
        (do
          match ← modifyGet fun b => b.lookupDedup obj ignorePersistent with
          | some cached => giveBack obj cached
          | none => rest) b) := by
  have hrun : (modifyGet fun b => b.lookupDedup obj ignorePersistent : BufferM _).run b =
      .ok (b.lookupDedup obj ignorePersistent).1 (b.lookupDedup obj ignorePersistent).2 := rfl
  rw [endState_bind_of_ok hrun]
  obtain ⟨cached, hp, he⟩ | he | he := lookupDedup_cases b obj ignorePersistent
  · rw [he]
    exact .persistent hp
  · rw [he]
    cases hc : b.cycleDedup obj with
    | some cached => exact .cycle hc
    | none => exact hrest b
  · rw [he]
    cases hc : b.cycleDedup obj with
    | some cached => exact .stale (.cycle hc)
    | none => exact .stale (hrest _)

variable (config) in
theorem sent_bufferSendFunction (fn : PyObject) (b : ObjectBuffer) :
    Sent config fn b (endState (bufferSendFunction config fn) b) :=
  sent_of_lookup false (fun b => sent_of_construct _ true b) b

variable (config) in
theorem sent_bufferSendObject (obj : PyObject) (name : Option String) (reserialize dedup : Bool)
    (b : ObjectBuffer) :
    Sent config obj b (endState (bufferSendObject config obj name reserialize dedup) b) := by
  cases dedup with
  | true => exact sent_of_lookup reserialize (fun b => sent_of_construct _ true b) b
  | false => exact sent_of_construct _ false b

/-- The buffer of a commit that returned: nothing is pending and the cycle has ended. -/
def committed (b : ObjectBuffer) : ObjectBuffer :=
  { b with pendingObjects := [], cycleDedupCache := .empty }

theorem run_commitSendObjects (agent : AgentAnswer) (b : ObjectBuffer) :
    (b.pendingObjects = [] ∧ (commitSendObjects agent).run b = .ok () b.committed) ∨
      ((∀ c ∈ b.pendingObjects, agent.upload c.objectId = .stored) ∧
        (commitSendObjects agent).run b = .ok () (b.runUploads agent).committed) ∨
      (∃ e, (commitSendObjects agent).run b = .error e b) ∨
      ∃ e, (commitSendObjects agent).run b = .error e (b.runUploads agent) := by
  simp only [EStateM.run, commitSendObjects]
  by_cases hempty : b.pendingObjects = []
  · left
    rw [if_pos hempty]
    refine ⟨hempty, ?_⟩
    rw [committed, hempty]
  rw [if_neg hempty]
  by_cases haccepts : agent.accepts = true
  · simp only [haccepts, Bool.not_true, Bool.false_eq_true, if_false]
    by_cases hall : b.pendingObjects.all (fun c => agent.upload c.objectId = .stored) = true
    · rw [if_pos hall]
      exact .inr (.inl ⟨by simpa using hall, rfl⟩)
    · rw [if_neg hall]
      exact .inr (.inr (.inr ⟨_, rfl⟩))
  · simp only [haccepts, Bool.not_false, if_true]
    exact .inr (.inr (.inl ⟨_, rfl⟩))

/-- A commit that keeps `I` while it runs keeps it. -/
theorem keeps_commitSendObjects {I : ObjectBuffer → Prop} (agent : AgentAnswer)
    (hnothing : ∀ b, I b → b.pendingObjects = [] → I b.committed)
    (hall : ∀ b, I b → (∀ c ∈ b.pendingObjects, agent.upload c.objectId = .stored) →
      I (b.runUploads agent).committed)
    (hup : ∀ b, I b → I (b.runUploads agent)) : Keeps I (commitSendObjects agent) := by
  intro b hb
  obtain ⟨hempty, he⟩ | ⟨hstored, he⟩ | ⟨e, he⟩ | ⟨e, he⟩ := run_commitSendObjects agent b
  · rw [endState_of_ok he]
    exact hnothing b hb hempty
  · rw [endState_of_ok he]
    exact hall b hb hstored
  · rw [endState_of_error he]
    exact hb
  · rw [endState_of_error he]
    exact hup b hb

variable (config) in
theorem endState_clear (accepts : Bool) (b : ObjectBuffer) :
    endState (clear config accepts) b = b.cleared config := by
  cases accepts with
  | true => rfl
  | false => rfl

end ObjectBuffer

open ObjectBuffer

/-- What `I` has to satisfy for the calls that pass objects of `P` only. -/
structure KeptByBuffer (config : BufferConfig) (P : PyObject → Prop) (I : ObjectBuffer → Prop) : Prop where
  sent : ∀ obj b b', P obj → I b → Sent config obj b b' → I b'
  commit : ∀ agent, Keeps I (commitSendObjects agent)
  clear : ∀ accepts, Keeps I (clear config accepts)

namespace KeptByBuffer

variable {config : BufferConfig} {P : PyObject → Prop} {I : ObjectBuffer → Prop}

theorem bufferSendFunction (h : KeptByBuffer config P I) {fn : PyObject} (hfn : P fn) :
    Keeps I (bufferSendFunction config fn) :=
  fun b hb => h.sent fn b _ hfn hb (sent_bufferSendFunction config fn b)

theorem bufferSendObject (h : KeptByBuffer config P I) {obj : PyObject} (hobj : P obj)
    (name : Option String) (reserialize dedup : Bool) :
    Keeps I (bufferSendObject config obj name reserialize dedup) :=
  fun b hb => h.sent obj b _ hobj hb (sent_bufferSendObject config obj name reserialize dedup b)

theorem argumentObjectId (h : KeptByBuffer config P I) (reserialize : Bool) {arg : ClientArgument}
    (harg : ∀ obj, arg = .object obj → P obj) : Keeps I (Client.argumentObjectId config reserialize arg) := by
  cases arg with
  | reference objectId =>
    intro b hb
    have hrun : (get : BufferM ObjectBuffer).run b = .ok b b := rfl
    rw [Client.argumentObjectId, endState_bind_of_ok hrun]
    cases b.isValidObjectId objectId with
    | true => exact hb
    | false => exact hb
  | object obj => exact (h.bufferSendObject (harg obj rfl) none reserialize true).bind fun c => .pure _

theorem mem_argumentObjects {args : List ClientArgument} {arg : ClientArgument} {obj : PyObject}
    (harg : arg ∈ args) (he : arg = .object obj) : obj ∈ ClientCall.argumentObjects args :=
  List.mem_filterMap.mpr ⟨arg, harg, by rw [he]⟩

theorem submitArguments (h : KeptByBuffer config P I) (reserialize : Bool) {args : List ClientArgument}
    (hargs : ∀ obj ∈ ClientCall.argumentObjects args, P obj) :
    Keeps I (Client.submitArguments config reserialize args) :=
  .mapM fun _ harg => h.argumentObjectId reserialize fun _ he => hargs _ (mem_argumentObjects harg he)

theorem submitVerbose (h : KeptByBuffer config P I) {fn : PyObject} (hfn : P fn)
    {allArgs : Except SubmitExn (List ClientArgument)}
    (hargs : ∀ args, allArgs = .ok args → ∀ obj ∈ ClientCall.argumentObjects args, P obj)
    (reserialize : Bool) (agent : AgentAnswer) :
    Keeps I (Client.submitVerbose config fn allArgs reserialize agent) := by
  refine (h.bufferSendFunction hfn).bind fun function => ?_
  cases allArgs with
  | error e => exact .throw e
  | ok args =>
    exact (h.submitArguments reserialize (hargs args rfl)).bind fun functionArgs =>
      (h.commit agent).bind fun _ => .pure _

theorem starmap (h : KeptByBuffer config P I) {fn : PyObject} (hfn : P fn)
    {iterable : List (List ClientArgument)}
    (hargs : ∀ obj ∈ iterable.flatMap ClientCall.argumentObjects, P obj)
    (reserialize : Bool) (agent : AgentAnswer) :
    Keeps I (Client.starmap config fn iterable reserialize agent) := by
  refine (h.bufferSendFunction hfn).bind fun function => .bind (.mapM fun args hmem => ?_) fun tasks => ?_
  · have hobjects : ∀ obj ∈ ClientCall.argumentObjects args, P obj := fun obj hobj =>
      hargs obj (List.mem_flatMap.mpr ⟨args, hmem, hobj⟩)
    exact (h.submitArguments reserialize hobjects).bind fun _ => .pure _
  · by_cases hempty : tasks = []
    · subst hempty
      exact .throw _
    · simp only [hempty, if_false]
      exact (h.commit agent).bind fun _ => .pure _

theorem splitNode (h : KeptByBuffer config P I) (reserialize : Bool) {node : String × GraphNode}
    (hnode : ∀ obj, node.2 = .object obj → P obj) : Keeps I (Client.splitNode config reserialize node) := by
  obtain ⟨name, node⟩ := node
  cases node with
  | call func args =>
    simp only [Client.splitNode]
    cases args.mapM id with
    | some names => exact .pure _
    | none => exact .throw _
  | reference objectId => exact .pure _
  | object obj => exact (h.bufferSendObject (hnode obj rfl) (some name) reserialize true).bind fun _ => .pure _

/-- The functions of the split graph are those of the graph. -/
theorem func_of_splitNode {reserialize : Bool} {node : String × GraphNode} {name : String} {c : CallNode}
    {b b' : ObjectBuffer}
    (h : (Client.splitNode config reserialize node).run b = .ok (name, .inl c) b') :
    ∃ args, node.2 = .call c.func args := by
  obtain ⟨nodeName, node⟩ := node
  cases node with
  | call func args =>
    simp only [Client.splitNode] at h
    cases hargs : args.mapM id with
    | some names =>
      rw [hargs] at h
      cases h
      exact ⟨args, rfl⟩
    | none =>
      rw [hargs] at h
      cases h
  | reference objectId => cases h
  | object obj =>
    obtain ⟨cache, t, -, hpure⟩ := run_bind_ok h
    cases hpure

theorem getGraph (h : KeptByBuffer config P I) {graph : List (String × GraphNode)}
    (hgraph : ∀ obj ∈ ClientCall.nodeObjects graph, P obj) (keys : List String) (reserialize : Bool)
    (agent : AgentAnswer) : Keeps I (Client.getGraph config graph keys reserialize agent) := by
  refine .bind_of_run (.mapM fun node hnode => h.splitNode reserialize fun obj hobj => ?_)
    fun nodes b b' hnodes => ?_
  · exact hgraph obj (List.mem_filterMap.mpr ⟨node, hnode, by rw [hobj]⟩)
  · cases Client.checkGraph nodes keys with
    | error e => exact .throw e
    | ok _ =>
      refine .bind (.mapM fun call hcall => ?_) fun functions => (h.commit agent).bind fun _ => .pure _
      obtain ⟨⟨name, node⟩, hmem, hcalls⟩ := List.mem_filterMap.mp hcall
      cases node with
      | inr objectId => cases hcalls
      | inl c =>
        cases hcalls
        obtain ⟨source, hsource, t, t', hsplit⟩ := run_mapM_ok hnodes _ hmem
        obtain ⟨args, hfunc⟩ := func_of_splitNode hsplit
        have hobj : P c.func := hgraph c.func (List.mem_filterMap.mpr ⟨source, hsource, by rw [hfunc]⟩)
        exact (h.bufferSendFunction hobj).bind fun _ => .pure _

/-- Every call of the client keeps what the buffer keeps. -/
theorem call (h : KeptByBuffer config P I) {c : ClientCall} (hc : ∀ obj ∈ c.objects, P obj) :
    Keeps I (c.run config) := by
  cases c with
  | bufferSendFunction fn =>
    exact (h.bufferSendFunction (hc fn List.mem_cons_self)).bind fun _ => .pure _
  | bufferSendObject obj name reserialize dedup =>
    exact (h.bufferSendObject (hc obj List.mem_cons_self) name reserialize dedup).bind fun _ => .pure _
  | commitSendObjects agent => exact h.commit agent
  | clear accepts => exact h.clear accepts
  | submitVerbose fn allArgs reserialize agent =>
    cases allArgs with
    | error e =>
      have hargs : ∀ args, Except.error e = .ok args → ∀ obj ∈ ClientCall.argumentObjects args, P obj := by
        intro args he
        cases he
      exact (h.submitVerbose (hc fn List.mem_cons_self) hargs reserialize agent).bind fun _ => .pure _
    | ok args =>
      refine (h.submitVerbose (hc fn List.mem_cons_self) ?_ reserialize agent).bind fun _ => .pure _
      intro args' he obj hobj
      cases he
      exact hc obj (List.mem_cons_of_mem _ hobj)
  | starmap fn iterable reserialize agent =>
    have hargs : ∀ obj ∈ iterable.flatMap ClientCall.argumentObjects, P obj := fun obj hobj =>
      hc obj (List.mem_cons_of_mem _ hobj)
    exact (h.starmap (hc fn List.mem_cons_self) hargs reserialize agent).bind fun _ => .pure _
  | get graph keys reserialize agent => exact (h.getGraph hc keys reserialize agent).bind fun _ => .pure _
  | sendObject obj name =>
    exact (h.bufferSendObject (hc obj List.mem_cons_self) name false false).bind fun _ => .pure _

end KeptByBuffer

end Scaler
