import Mathlib.Data.List.Dedup
import Scaler.Utility.Containers

/-! `topological_sorter_graphblas.py`. The boolean matrix is the list of its true
entries (node, predecessor) and the masks are lists of keys; `keys` is in the
order in which the keys received their matrix index, which is the order of
`np.argwhere`. -/

namespace Scaler

structure TopologicalSorter (K : Type) where
  keys : List K
  matrix : List (K × K)
  doneKeys : List K
  visited : List K
  readyNodes : Option (List K)
  nDone : Nat
  nVisited : Nat
  deriving Repr

namespace TopologicalSorter

variable {K : Type} [DecidableEq K]

def empty : TopologicalSorter K := ⟨[], [], [], [], none, 0, 0⟩

def addKey (ks : List K) (k : K) : List K := if k ∈ ks then ks else ks ++ [k]

/-- Gives an index to the node and then to each of its predecessors. -/
def addKeys (ks : List K) (entry : K × List K) : List K :=
  entry.2.foldl addKey (addKey ks entry.1)

def mergeGraph (s : TopologicalSorter K) (graph : List (K × List K)) :
    Except Exn Unit × TopologicalSorter K :=
  if s.readyNodes.isSome then (.error .valueError, s)
  else
    (.ok (),
      { s with
        keys := graph.foldl addKeys s.keys
        matrix := s.matrix ++ graph.flatMap fun e => e.2.map fun p => (e.1, p) })

/-- The rows of the matrix that are empty once the columns of the finished nodes are masked. -/
def zeroDegree (s : TopologicalSorter K) (k : K) : Bool :=
  s.matrix.all fun e => e.1 ≠ k || e.2 ∈ s.doneKeys

/-- `_get_zero_degree_keys`: where the zero-degree mask differs from the visited mask. -/
def getZeroDegreeKeys (s : TopologicalSorter K) : List K :=
  s.keys.filter fun k => decide (k ∈ s.visited) != s.zeroDegree k

/-- One boolean product of `m` with the adjacency matrix. -/
def mulMatrix (s : TopologicalSorter K) (m : List (K × K)) : List (K × K) :=
  (m.flatMap fun e => (s.matrix.filter fun a => a.1 = e.2).map fun a => (e.1, a.2)).dedup

def hasCycleWithin (s : TopologicalSorter K) (m : List (K × K)) : Nat → Bool
  | 0 => false
  | n + 1 =>
    (s.mulMatrix m).any (fun e => e.1 = e.2) || s.hasCycleWithin (s.mulMatrix m) n

def hasCycle (s : TopologicalSorter K) : Bool :=
  s.hasCycleWithin (s.keys.map fun k => (k, k)) s.keys.length

/-- Marks the new zero-degree nodes as visited and hands them out as ready. -/
def release (s : TopologicalSorter K) : TopologicalSorter K :=
  let ready := s.getZeroDegreeKeys
  { s with
    visited := s.visited ++ ready
    readyNodes := some (s.readyNodes.getD [] ++ ready)
    nVisited := s.nVisited + ready.length }

def prepare (s : TopologicalSorter K) : Except Exn Unit × TopologicalSorter K :=
  if s.readyNodes.isSome then (.error .valueError, s)
  else
    let s' := release { s with doneKeys := [], visited := [] }
    (if s'.hasCycle then .error .cycleError else .ok (), s')

def getReady (s : TopologicalSorter K) : Except Exn (List K) × TopologicalSorter K :=
  match s.readyNodes with
  | none => (.error .valueError, s)
  | some ready => (.ok ready, { s with readyNodes := some [] })

def isActive (s : TopologicalSorter K) : Bool :=
  s.nDone < s.nVisited || !(s.readyNodes.getD []).isEmpty

/-- Masks the columns of `ks`, stopping at the first node that may not be done. -/
def maskDone (s : TopologicalSorter K) : List K → Except Exn Unit × TopologicalSorter K
  | [] => (.ok (), s)
  | k :: ks =>
    if k ∉ s.keys ∨ k ∉ s.visited ∨ k ∈ s.doneKeys then (.error .valueError, s)
    else maskDone { s with doneKeys := k :: s.doneKeys } ks

def done (s : TopologicalSorter K) (ks : List K) : Except Exn Unit × TopologicalSorter K :=
  if s.readyNodes.isNone then (.error .valueError, s)
  else
    match s.maskDone ks with
    | (.error e, s') => (.error e, s')
    | (.ok _, s') => (.ok (), release { s' with nDone := s'.nDone + ks.length })

end TopologicalSorter

end Scaler
