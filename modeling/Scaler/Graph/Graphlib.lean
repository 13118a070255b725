import Mathlib.Logic.Function.Basic
import Mathlib.Logic.Relation
import Scaler.Graph.TopologicalSorter

/-! `graphlib.TopologicalSorter` of the standard library, which counts the predecessors that are left,
and the calls that it shares with the sorter of the repository. -/

namespace Scaler

/-- The calls of a sorter. A mapping is merged entry by entry. -/
inductive SorterCall (K : Type) where
  | add (node : K) (predecessors : List K)
  | mergeGraph (graph : List (K × List K))
  | prepare
  | getReady
  | done (nodes : List K)

/-- A run of calls that all return, with what they return. -/
def runCalls {σ K : Type} (call : σ → SorterCall K → Except Exn (List K) × σ) :
    List (SorterCall K) → σ → Option (List (List K) × σ)
  | [], s => some ([], s)
  | c :: calls, s =>
    match call s c with
    | (.error _, _) => none
    | (.ok result, s) => (runCalls call calls s).map fun (results, s) => (result :: results, s)

namespace TopologicalSorter

variable {K : Type} [DecidableEq K]

def call (s : TopologicalSorter K) : SorterCall K → Except Exn (List K) × TopologicalSorter K
  | .add node predecessors =>
    let (result, s) := s.mergeGraph [(node, predecessors)]
    (result.map fun _ => [], s)
  | .mergeGraph graph =>
    let (result, s) := s.mergeGraph graph
    (result.map fun _ => [], s)
  | .prepare =>
    let (result, s) := s.prepare
    (result.map fun _ => [], s)
  | .getReady => s.getReady
  | .done nodes =>
    let (result, s) := s.done nodes
    (result.map fun _ => [], s)

/-- The loop of `static_order`: as long as the sorter is active, what is ready is given out and done. -/
def orderLoop : Nat → TopologicalSorter K → Option (List K)
  | 0, _ => none
  | fuel + 1, s =>
    if s.isActive then
      match s.getReady with
      | (.error _, _) => none
      | (.ok nodeGroup, s) =>
        match s.done nodeGroup with
        | (.error _, _) => none
        | (.ok _, s) => (orderLoop fuel s).map (nodeGroup ++ ·)
    else some []

def staticOrder (fuel : Nat) (s : TopologicalSorter K) : Option (List K) :=
  match s.prepare with
  | (.error _, _) => none
  | (.ok _, s) => orderLoop fuel s

end TopologicalSorter

namespace Graphlib

/-- `_NODE_OUT`. -/
def nodeOut : Int := -1

/-- `_NODE_DONE`. -/
def nodeDone : Int := -2

/-- `_node2info` is its keys and the two fields of its values. -/
structure TopologicalSorter (K : Type) where
  nodes : List K
  npredecessors : K → Int
  successors : K → List K
  readyNodes : Option (List K)
  npassedout : Nat
  nfinished : Nat

namespace TopologicalSorter

variable {K : Type} [DecidableEq K]

def empty : TopologicalSorter K := ⟨[], fun _ => 0, fun _ => [], none, 0, 0⟩

variable (g : TopologicalSorter K)

/-- A predecessor of a node. -/
def Edge (node predecessor : K) : Prop := node ∈ g.successors predecessor

def HasCycle : Prop := ∃ node, Relation.TransGen g.Edge node node

def addSuccessor (node : K) (successors : K → List K) (predecessor : K) : K → List K :=
  Function.update successors predecessor (successors predecessor ++ [node])

def add (node : K) (predecessors : List K) : Except Exn (List K) × TopologicalSorter K :=
  if g.readyNodes.isSome then (.error .valueError, g)
  else
    (.ok [], { g with
      nodes := Scaler.TopologicalSorter.addKeys g.nodes (node, predecessors)
      npredecessors := Function.update g.npredecessors node (g.npredecessors node + predecessors.length)
      successors := predecessors.foldl (addSuccessor node) g.successors })

/-- The constructor's loop over a mapping. -/
def mergeGraph : List (K × List K) → TopologicalSorter K → Except Exn (List K) × TopologicalSorter K
  | [], g => if g.readyNodes.isSome then (.error .valueError, g) else (.ok [], g)
  | entry :: graph, g =>
    match g.add entry.1 entry.2 with
    | (.error e, g) => (.error e, g)
    | (.ok _, g) => mergeGraph graph g

open Classical in
noncomputable def prepare : Except Exn (List K) × TopologicalSorter K :=
  if g.readyNodes.isSome then (.error .valueError, g)
  else
    (if g.HasCycle then .error .cycleError else .ok [],
      { g with readyNodes := some (g.nodes.filter fun node => g.npredecessors node = 0) })

def getReady : Except Exn (List K) × TopologicalSorter K :=
  match g.readyNodes with
  | none => (.error .valueError, g)
  | some ready =>
    (.ok ready, { g with
      npredecessors := fun node => if node ∈ ready then nodeOut else g.npredecessors node
      readyNodes := some []
      npassedout := g.npassedout + ready.length })

def isActive : Bool := g.nfinished < g.npassedout || !(g.readyNodes.getD []).isEmpty

/-- One predecessor of a node is done. -/
def decrement (g : TopologicalSorter K) (successor : K) : TopologicalSorter K :=
  let left := g.npredecessors successor - 1
  { g with
    npredecessors := Function.update g.npredecessors successor left
    readyNodes := if left = 0 then g.readyNodes.map (· ++ [successor]) else g.readyNodes }

def doneNode (node : K) : Except Exn (TopologicalSorter K) :=
  if node ∉ g.nodes then .error .valueError
  else if g.npredecessors node ≠ nodeOut then .error .valueError
  else
    let g := { g with npredecessors := Function.update g.npredecessors node nodeDone }
    let g := (g.successors node).foldl decrement g
    .ok { g with nfinished := g.nfinished + 1 }

def doneNodes : List K → TopologicalSorter K → Except Exn (List K) × TopologicalSorter K
  | [], g => (.ok [], g)
  | node :: nodes, g =>
    match g.doneNode node with
    | .error e => (.error e, g)
    | .ok g => doneNodes nodes g

def done (nodes : List K) : Except Exn (List K) × TopologicalSorter K :=
  if g.readyNodes.isNone then (.error .valueError, g) else doneNodes nodes g

noncomputable def call : SorterCall K → Except Exn (List K) × TopologicalSorter K
  | .add node predecessors => g.add node predecessors
  | .mergeGraph graph => mergeGraph graph g
  | .prepare => g.prepare
  | .getReady => g.getReady
  | .done nodes => g.done nodes

end TopologicalSorter

end Graphlib

end Scaler
