import Scaler.Client.Deduplication
import Scaler.Client.GraphGet

/-! What each pass of `Client.get` over the graph does: `cull_graph` keeps the nodes that are needed,
the split gives data an object id, the check leaves no cycle. -/

namespace Scaler

open Collections

namespace Client

open ObjectBuffer

section Cull

variable {order : NameOrder} {graph : Dict String GraphNode} {keys : List String}

theorem eq_map_some_of_mapM {args : List (Option String)} {names : List String} (h : args.mapM id = some names) :
    args = names.map some := by
  have hsame : List.Forall₂ Eq args (names.map some) := List.forall₂_map_right_iff.mpr (forall₂_of_mapM_some h)
  rwa [List.forall₂_eq_eq_eq] at hsame

theorem mem_dependencies {name arg : String} {names : List String} (h : dependencies order graph name = .ok names) :
    arg ∈ names ↔ HasArgument graph name arg := by
  unfold dependencies at h
  cases hnode : graph.get? name with
  | none =>
    rw [hnode] at h
    cases h
  | some node =>
    rw [hnode] at h
    cases node with
    | call func args =>
      dsimp only at h
      cases hargs : args.mapM id with
      | none =>
        rw [hargs] at h
        cases h
      | some given =>
        rw [hargs] at h
        obtain rfl := Except.ok.inj h
        obtain rfl := eq_map_some_of_mapM hargs
        rw [order.mem_iff]
        constructor
        · intro hmem
          exact ⟨func, _, hnode, List.mem_map_of_mem hmem⟩
        · rintro ⟨func', args', hnode', hmem⟩
          cases hnode.symm.trans hnode'
          obtain ⟨given', hgiven, heq⟩ := List.mem_map.mp hmem
          rwa [← Option.some.inj heq]
    | reference objectId =>
      obtain rfl := Except.ok.inj h
      refine ⟨fun hmem => absurd hmem List.not_mem_nil, ?_⟩
      rintro ⟨func, args, hnode', -⟩
      cases hnode.symm.trans hnode'
    | object obj =>
      obtain rfl := Except.ok.inj h
      refine ⟨fun hmem => absurd hmem List.not_mem_nil, ?_⟩
      rintro ⟨func, args, hnode', -⟩
      cases hnode.symm.trans hnode'

theorem mem_argumentNames {name arg : String} (h : HasArgument graph name arg) : arg ∈ argumentNames graph := by
  obtain ⟨func, args, hnode, hmem⟩ := h
  refine List.mem_flatMap.mpr ⟨(name, .call func args), (graph.mem_entries name _).mpr hnode, ?_⟩
  exact List.mem_filterMap.mpr ⟨some arg, hmem, rfl⟩

/-- What `cull_graph` keeps: the nodes that are needed, as they are in the graph. -/
structure Culled (graph : Dict String GraphNode) (keys : List String) (culled : List (String × GraphNode)) : Prop where
  nodup : (culled.map Prod.fst).Nodup
  mem_iff : ∀ name, name ∈ culled.map Prod.fst ↔ Needed graph keys name
  node : ∀ entry ∈ culled, graph.get? entry.1 = some entry.2

theorem search_start (keys : List String) : Search (dependencies order graph) keys keys (visitAll keys [] []).2 := by
  have hv := visits_visitAll keys [] []
  have hsub : (visitAll keys [] []).2 ⊆ keys := by
    intro y hy
    rcases hv.mem_visited y hy with hold | hnew
    · exact absurd hold List.not_mem_nil
    · exact hnew.1
  exact ⟨hv.done, hv.done, fun y hy => ⟨y, hsub hy, .refl⟩, fun y hy => .inl (hsub hy)⟩

/-- The nodes that the loop has visited are those that are needed. -/
theorem mem_visited_iff {visited : List String} (h : Search (dependencies order graph) keys [] visited) {name : String} :
    name ∈ visited ↔ Needed graph keys name := by
  constructor
  · intro hmem
    obtain ⟨key, hkey, hpath⟩ := h.sound name hmem
    refine ⟨key, hkey, Relation.ReflTransGen.mono ?_ key name hpath⟩
    rintro x y ⟨ys, hys, hmem⟩
    exact (mem_dependencies hys).mp hmem
  · rintro ⟨key, hkey, hpath⟩
    induction hpath with
    | refl => exact h.starts_subset hkey
    | tail _ harg ih =>
      obtain ⟨ys, hys, hsub⟩ := (h.closed _ ih).resolve_left List.not_mem_nil
      exact hsub ((mem_dependencies hys).mpr harg)

theorem culled_of_cullGraph {culled : List (String × GraphNode)} (h : cullGraph order graph keys = .ok culled) :
    Culled graph keys culled := by
  unfold cullGraph at h
  cases hvisited : worklist (dependencies order graph) (keys.length + (argumentNames graph).length) keys
      (visitAll keys [] []).2 with
  | error error =>
    rw [hvisited] at h
    cases h
  | ok visited =>
    rw [hvisited] at h
    have hwithin : ∀ x ys, dependencies order graph x = .ok ys → ys ⊆ argumentNames graph :=
      fun x ys hys y hy => mem_argumentNames ((mem_dependencies hys).mp hy)
    have hfuel : keys.length + unvisited (argumentNames graph) (visitAll keys [] []).2 ≤
        keys.length + (argumentNames graph).length :=
      Nat.add_le_add_left (List.length_filter_le _ _) _
    have hsearch := worklist_search hwithin (search_start keys) hfuel hvisited
    have hrounds : List.Forall₂ (fun key entry => key = entry.1 ∧ graph.get? entry.1 = some entry.2)
        (order.iterate visited) culled := by
      refine (forall₂_of_mapM_ok h).imp fun key entry hentry => ?_
      cases hnode : graph.get? key with
      | none =>
        rw [hnode] at hentry
        cases hentry
      | some node =>
        rw [hnode] at hentry
        obtain rfl := Except.ok.inj hentry
        exact ⟨rfl, hnode⟩
    have hnames : order.iterate visited = culled.map Prod.fst := by
      have hsame := List.forall₂_map_right_iff.mpr (hrounds.imp fun _ _ hentry => hentry.1)
      rwa [List.forall₂_eq_eq_eq] at hsame
    refine ⟨hnames ▸ order.nodup visited, fun name => ?_, fun entry hentry => ?_⟩
    · rw [← hnames, order.mem_iff, mem_visited_iff hsearch]
    · obtain ⟨key, -, hnode⟩ := exists_left_of_forall₂ hrounds entry hentry
      exact hnode.2

end Cull

section Split

variable {config : BufferConfig} {obj : PyObject} {b b' : ObjectBuffer} {cache : ObjectCache}

variable (config) in
theorem returned_sendBuilt (b : ObjectBuffer) (payload : Bytes) (name : ObjectID → Bytes) :
    (b.sendBuilt config payload name).returned = b.returned :=
  (sameCaches_sendBuilt config b payload name).returned

theorem returned_rememberDedup (b : ObjectBuffer) (obj : PyObject) (cache : ObjectCache) :
    (b.rememberDedup obj cache).returned = b.returned := by
  unfold rememberDedup
  split
  · rfl
  · rfl

theorem returned_of_construct {name : ObjectID → Bytes} (dedup : Bool)
    (h : (construct config obj name >>= fun cache => do
        modify fun b => b.bufferSendSerializedObject cache
        if dedup then
          modify fun b => b.rememberDedup obj cache
        giveBack obj cache).run b = .ok cache b') :
    b'.returned = b.returned ++ [(obj, cache)] := by
  obtain ⟨e, he⟩ | ⟨payload, he⟩ := run_construct config obj name b
  · rw [run_bind_of_error he] at h
    cases h
  · rw [run_bind_of_ok he] at h
    have hbuilt : ((b.noteSerialized obj payload).sendBuilt config payload name).returned = b.returned :=
      returned_sendBuilt config _ payload name
    cases dedup with
    | false =>
      cases h
      exact congrArg (· ++ _) hbuilt
    | true =>
      cases h
      exact congrArg (· ++ _) ((returned_rememberDedup _ obj _).trans hbuilt)

theorem returned_of_lookup {ignorePersistent : Bool} {rest : BufferM ObjectCache}
    (hrest : ∀ b, rest.run b = .ok cache b' → b'.returned = b.returned ++ [(obj, cache)])
    (h : (do
        match ← modifyGet fun b => b.lookupDedup obj ignorePersistent with
        | some cached => giveBack obj cached
        | none => rest : BufferM ObjectCache).run b = .ok cache b') :
    b'.returned = b.returned ++ [(obj, cache)] := by
  have hrun : (modifyGet fun b => b.lookupDedup obj ignorePersistent : BufferM _).run b =
      .ok (b.lookupDedup obj ignorePersistent).1 (b.lookupDedup obj ignorePersistent).2 := rfl
  rw [run_bind_of_ok hrun] at h
  obtain ⟨cached, hp, he⟩ | he | he := lookupDedup_cases b obj ignorePersistent
  · rw [he] at h
    cases h
    rfl
  · rw [he] at h
    cases hc : b.cycleDedup obj with
    | some cached =>
      rw [hc] at h
      cases h
      rfl
    | none =>
      rw [hc] at h
      exact hrest b h
  · rw [he] at h
    cases hc : b.cycleDedup obj with
    | some cached =>
      rw [hc] at h
      cases h
      rfl
    | none =>
      rw [hc] at h
      exact hrest (b.dropStale obj) h

theorem returned_of_bufferSendFunction (h : (bufferSendFunction config obj).run b = .ok cache b') :
    b'.returned = b.returned ++ [(obj, cache)] :=
  returned_of_lookup (fun _ hrest => returned_of_construct true hrest) h

theorem returned_of_bufferSendObject {name : Option String} {reserialize dedup : Bool}
    (h : (bufferSendObject config obj name reserialize dedup).run b = .ok cache b') :
    b'.returned = b.returned ++ [(obj, cache)] := by
  cases dedup with
  | true => exact returned_of_lookup (fun _ hrest => returned_of_construct true hrest) h
  | false => exact returned_of_construct false h

/-- What was returned is not forgotten. -/
def Extends (b b' : ObjectBuffer) : Prop := b.returned <+: b'.returned

theorem extends_of_returned (h : b'.returned = b.returned ++ [(obj, cache)]) : Extends b b' := ⟨_, h.symm⟩

/-- What was returned between two states. -/
def returnedSince (b b' : ObjectBuffer) : List (PyObject × ObjectCache) := b'.returned.drop b.returned.length

theorem mem_returnedSince {t t' : ObjectBuffer} (hbefore : Extends b t) (h : t'.returned = t.returned ++ [(obj, cache)])
    (hafter : Extends t' b') : (obj, cache) ∈ returnedSince b b' := by
  obtain ⟨before, hbefore⟩ := hbefore
  obtain ⟨after, hafter⟩ := hafter
  rw [returnedSince, ← hafter, h, ← hbefore, List.append_assoc, List.append_assoc, List.drop_left]
  simp

/-- What becomes of a node of the graph: a call stays, and data gets an object id. -/
inductive SplitsTo (returned : List (PyObject × ObjectCache)) : String × GraphNode → String × (CallNode ⊕ ObjectID) → Prop
  | call (name : String) (func : PyObject) (args : List String) :
      SplitsTo returned (name, .call func (args.map some)) (name, .inl ⟨func, args⟩)
  | reference (name : String) (objectId : ObjectID) :
      SplitsTo returned (name, .reference objectId) (name, .inr objectId)
  | object (name : String) {obj : PyObject} {cache : ObjectCache} (h : (obj, cache) ∈ returned) :
      SplitsTo returned (name, .object obj) (name, .inr cache.objectId)

theorem returnedSince_subset {t t' : ObjectBuffer} (hbefore : Extends b t) (hbetween : Extends t t') (hafter : Extends t' b') :
    returnedSince t t' ⊆ returnedSince b b' := by
  obtain ⟨before, hbefore⟩ := hbefore
  obtain ⟨between, hbetween⟩ := hbetween
  obtain ⟨after, hafter⟩ := hafter
  rw [returnedSince, returnedSince, ← hafter, ← hbetween, List.drop_left, ← hbefore, List.append_assoc, List.append_assoc,
    List.drop_left]
  exact fun oc hoc => List.mem_append_right _ (List.mem_append_left _ hoc)

theorem SplitsTo.mono {returned returned' : List (PyObject × ObjectCache)} (hsub : returned ⊆ returned')
    {entry : String × GraphNode} {node : String × (CallNode ⊕ ObjectID)} (h : SplitsTo returned entry node) :
    SplitsTo returned' entry node := by
  cases h with
  | call name func args => exact .call name func args
  | reference name objectId => exact .reference name objectId
  | object name h => exact .object name (hsub h)

theorem splitNode_cases {reserialize : Bool} {entry : String × GraphNode} {node : String × (CallNode ⊕ ObjectID)}
    (h : (splitNode config reserialize entry).run b = .ok node b') :
    (b' = b ∧ ∀ returned, SplitsTo returned entry node) ∨
      ∃ obj cache, b'.returned = b.returned ++ [(obj, cache)] ∧
        ∀ returned, (obj, cache) ∈ returned → SplitsTo returned entry node := by
  obtain ⟨name, source⟩ := entry
  cases source with
  | call func args =>
    left
    simp only [splitNode] at h
    cases hargs : args.mapM id with
    | none =>
      rw [hargs] at h
      cases h
    | some names =>
      rw [hargs] at h
      cases h
      rw [eq_map_some_of_mapM hargs]
      exact ⟨rfl, fun returned => .call name func names⟩
  | reference objectId =>
    cases h
    exact .inl ⟨rfl, fun returned => .reference name objectId⟩
  | object obj =>
    obtain ⟨cache, t, hsend, hpure⟩ := run_bind_ok h
    cases hpure
    exact .inr ⟨obj, cache, returned_of_bufferSendObject hsend, fun returned hmem => .object name hmem⟩

theorem extends_trans {t : ObjectBuffer} (h : Extends b t) (h' : Extends t b') : Extends b b' := List.IsPrefix.trans h h'

theorem split_of_run {reserialize : Bool} {culled : List (String × GraphNode)} {nodes : List (String × (CallNode ⊕ ObjectID))}
    (h : (culled.mapM (splitNode config reserialize)).run b = .ok nodes b') :
    Extends b b' ∧ List.Forall₂ (SplitsTo (returnedSince b b')) culled nodes := by
  have hround : ∀ entry t node t', (splitNode config reserialize entry).run t = .ok node t' → Extends t t' := by
    intro entry t node t' hrun
    obtain ⟨rfl, -⟩ | ⟨obj, cache, hreturned, -⟩ := splitNode_cases hrun
    · exact List.prefix_rfl
    · exact extends_of_returned hreturned
  obtain ⟨hextends, hrounds⟩ :=
    forall₂_of_run_mapM (R := Extends) (fun _ => List.prefix_rfl) (fun _ _ _ => extends_trans) hround h
  refine ⟨hextends, hrounds.imp ?_⟩
  rintro entry node ⟨t, t', hbefore, hrun, hafter⟩
  obtain ⟨-, hsplit⟩ | ⟨obj, cache, hreturned, hsplit⟩ := splitNode_cases hrun
  · exact hsplit _
  · exact hsplit _ (mem_returnedSince hbefore hreturned hafter)

/-- The object id is that of the function of the call. -/
def FunctionSent (returned : List (PyObject × ObjectCache)) (call : String × CallNode) (objectId : ObjectID) : Prop :=
  ∃ cache, (call.2.func, cache) ∈ returned ∧ cache.objectId = objectId

theorem functions_of_run {calls : List (String × CallNode)} {functions : List ObjectID}
    (h : (calls.mapM fun node => do return (← bufferSendFunction config node.2.func).objectId : BufferM _).run b =
      .ok functions b') :
    Extends b b' ∧ List.Forall₂ (FunctionSent (returnedSince b b')) calls functions := by
  have hround : ∀ (call : String × CallNode) t objectId t',
      (do return (← bufferSendFunction config call.2.func).objectId : BufferM _).run t = .ok objectId t' →
        ∃ cache, t'.returned = t.returned ++ [(call.2.func, cache)] ∧ cache.objectId = objectId := by
    intro call t objectId t' hrun
    obtain ⟨cache, u, hsend, hpure⟩ := run_bind_ok hrun
    cases hpure
    exact ⟨cache, returned_of_bufferSendFunction hsend, rfl⟩
  have hextends : ∀ (call : String × CallNode) t objectId t',
      (do return (← bufferSendFunction config call.2.func).objectId : BufferM _).run t = .ok objectId t' →
        Extends t t' := by
    intro call t objectId t' hrun
    obtain ⟨cache, hreturned, -⟩ := hround call t objectId t' hrun
    exact extends_of_returned hreturned
  obtain ⟨hall, hrounds⟩ :=
    forall₂_of_run_mapM (R := Extends) (fun _ => List.prefix_rfl) (fun _ _ _ => extends_trans) hextends h
  refine ⟨hall, hrounds.imp ?_⟩
  rintro call objectId ⟨t, t', hbefore, hrun, hafter⟩
  obtain ⟨cache, hreturned, hid⟩ := hround call t objectId t' hrun
  exact ⟨cache, mem_returnedSince hbefore hreturned hafter, hid⟩

theorem returned_of_commit {agent : AgentAnswer} (h : (commitSendObjects agent).run b = .ok () b') :
    b'.returned = b.returned := by
  obtain ⟨-, he⟩ | ⟨-, he⟩ | ⟨e, he⟩ | ⟨e, he⟩ := run_commitSendObjects agent b
  · cases he.symm.trans h
    rfl
  · cases he.symm.trans h
    rfl
  · cases he.symm.trans h
  · cases he.symm.trans h

end Split

section Passes

variable {order : NameOrder} {graph : Dict String GraphNode} {config : BufferConfig} {context : GraphContext}
  {keys : List String} {reserialize : Bool} {agent : AgentAnswer} {b b' : ObjectBuffer} {request : GraphRequest}

/-- The passes of a call that returned. -/
structure Passes (graph : Dict String GraphNode) (context : GraphContext) (keys : List String)
    (returned : List (PyObject × ObjectCache)) (request : GraphRequest) (culled : List (String × GraphNode))
    (nodes : List (String × (CallNode ⊕ ObjectID))) (functions : List ObjectID) : Prop where
  cull : Culled graph keys culled
  split : List.Forall₂ (SplitsTo returned) culled nodes
  check : checkGraph nodes keys = .ok ()
  send : List.Forall₂ (FunctionSent returned) (callGraph nodes) functions
  construct : constructGraph context culled nodes functions keys = some request

/-- The runs that a call that returned is made of. -/
theorem get_cases (h : (get order graph config context keys reserialize agent).run b = .ok request b') :
    ∃ culled nodes functions t u, cullGraph order graph keys = .ok culled ∧
      (culled.mapM (splitNode config reserialize)).run b = .ok nodes t ∧ checkGraph nodes keys = .ok () ∧
      ((callGraph nodes).mapM fun node => do
        return (← bufferSendFunction config node.2.func).objectId : BufferM _).run t = .ok functions u ∧
      constructGraph context culled nodes functions keys = some request ∧ (commitSendObjects agent).run u = .ok () b' := by
  unfold get at h
  cases hcull : cullGraph order graph keys with
  | error error =>
    rw [hcull] at h
    cases h
  | ok culled =>
    rw [hcull] at h
    obtain ⟨nodes, t, hnodes, h⟩ := run_bind_ok h
    cases hcheck : checkGraph nodes keys with
    | error error =>
      rw [hcheck] at h
      cases h
    | ok _ =>
      rw [hcheck] at h
      obtain ⟨functions, u, hfunctions, h⟩ := run_bind_ok h
      cases hconstruct : constructGraph context culled nodes functions keys with
      | none =>
        rw [hconstruct] at h
        cases h
      | some built =>
        rw [hconstruct] at h
        obtain ⟨_, v, hcommit, hpure⟩ := run_bind_ok h
        cases hpure
        exact ⟨culled, nodes, functions, t, u, rfl, hnodes, hcheck, hfunctions, hconstruct, hcommit⟩

theorem passes_of_run (h : (get order graph config context keys reserialize agent).run b = .ok request b') :
    ∃ culled nodes functions, Passes graph context keys (returnedSince b b') request culled nodes functions := by
  obtain ⟨culled, nodes, functions, t, u, hcull, hnodes, hcheck, hfunctions, hconstruct, hcommit⟩ := get_cases h
  obtain ⟨hsplit, hnodes⟩ := split_of_run hnodes
  obtain ⟨hsent, hfunctions⟩ := functions_of_run hfunctions
  have hcommitted : Extends u b' := by rw [Extends, returned_of_commit hcommit]
  have hleft := returnedSince_subset List.prefix_rfl hsplit (extends_trans hsent hcommitted)
  have hright := returnedSince_subset hsplit hsent hcommitted
  refine ⟨culled, nodes, functions, culled_of_cullGraph hcull, hnodes.imp fun _ _ hto => hto.mono hleft, hcheck, ?_, hconstruct⟩
  refine hfunctions.imp ?_
  rintro call objectId ⟨cache, hmem, hid⟩
  exact ⟨cache, hright hmem, hid⟩

end Passes

end Client

end Scaler
