import Mathlib.Data.List.Basic
import Scaler.Collections.Dict

/-! The containers of `src/cpp/scaler/utility`: two-way dictionaries, the
indexed queue and the stable priority queue. Sets are lists without repetition. -/

namespace Scaler

open Collections

/-- What a Python function of the repository can raise. -/
inductive Exn where
  | keyError
  | valueError
  | assertionError
  | cycleError
  | sendError
  | storageError
  | clientShutdown
  deriving DecidableEq, Repr

/-- `for k in ks: d.pop(k)`: a missing key raises. -/
def popAll {K V : Type} [DecidableEq K] (d : Dict K V) : List K → Except Exn Unit × Dict K V
  | [] => (.ok (), d)
  | k :: ks => if d.contains k then popAll (d.erase k) ks else (.error .keyError, d)

/-- `one_to_many_dict.h`. -/
structure OneToManyDict (K V : Type) where
  keyToValues : Dict K (List V)
  valueToKey : Dict V K

namespace OneToManyDict

variable {K V : Type} [DecidableEq K] [DecidableEq V]

def empty : OneToManyDict K V := ⟨Dict.empty, Dict.empty⟩

def hasKey (d : OneToManyDict K V) (k : K) : Bool := d.keyToValues.contains k

def hasValue (d : OneToManyDict K V) (v : V) : Bool := d.valueToKey.contains v

def getKey? (d : OneToManyDict K V) (v : V) : Option K := d.valueToKey.get? v

def getValues (d : OneToManyDict K V) (k : K) : List V := (d.keyToValues.get? k).getD []

/-- A value that another key owns is refused. -/
def add (d : OneToManyDict K V) (k : K) (v : V) : Except Exn Unit × OneToManyDict K V :=
  if (d.valueToKey.get? v).any (· ≠ k) then (.error .valueError, d)
  else
    (.ok (), { keyToValues := d.keyToValues.set k ((d.getValues k).insert v)
               valueToKey := d.valueToKey.set v k })

def removeValue (d : OneToManyDict K V) (v : V) : Except Exn K × OneToManyDict K V :=
  match d.valueToKey.get? v with
  | none => (.error .valueError, d)
  | some k =>
    match d.keyToValues.get? k with
    | none => (.error .valueError, { d with valueToKey := d.valueToKey.erase v })
    | some vs =>
      (.ok k,
        { keyToValues :=
            if vs.erase v = [] then d.keyToValues.erase k else d.keyToValues.set k (vs.erase v)
          valueToKey := d.valueToKey.erase v })

def removeKey (d : OneToManyDict K V) (k : K) : Except Exn (List V) × OneToManyDict K V :=
  match d.keyToValues.get? k with
  | none => (.error .keyError, d)
  | some vs =>
    (.ok vs,
      { keyToValues := d.keyToValues.erase k
        valueToKey := vs.foldl Dict.erase d.valueToKey })

end OneToManyDict

/-- `KeyValueDictSet` of `many_to_many_dict.h`. -/
abbrev KeyValueDictSet (K V : Type) := Dict K (List V)

namespace KeyValueDictSet

variable {K V : Type} [DecidableEq K] [DecidableEq V]

def add (d : KeyValueDictSet K V) (k : K) (v : V) : KeyValueDictSet K V :=
  d.set k (((d.get? k).getD []).insert v)

/-- Whether the pair was there, and the dictionary without it; an empty value set is dropped. -/
def removeValue (d : KeyValueDictSet K V) (k : K) (v : V) : Bool × KeyValueDictSet K V :=
  match d.get? k with
  | none => (false, d)
  | some vs =>
    if v ∈ vs then (true, if vs.erase v = [] then d.erase k else d.set k (vs.erase v))
    else (false, d)

def removeKey (d : KeyValueDictSet K V) (k : K) : Except Exn (List V) × KeyValueDictSet K V :=
  match d.get? k with
  | none => (.error .keyError, d)
  | some vs => (.ok vs, d.erase k)

end KeyValueDictSet

/-- `many_to_many_dict.h`. -/
structure ManyToManyDict (L R : Type) where
  leftKeyToRightKey : KeyValueDictSet L R
  rightKeyToLeftKey : KeyValueDictSet R L

namespace ManyToManyDict

variable {L R : Type} [DecidableEq L] [DecidableEq R]

def empty : ManyToManyDict L R := ⟨Dict.empty, Dict.empty⟩

def add (d : ManyToManyDict L R) (l : L) (r : R) : ManyToManyDict L R :=
  { leftKeyToRightKey := KeyValueDictSet.add d.leftKeyToRightKey l r
    rightKeyToLeftKey := KeyValueDictSet.add d.rightKeyToLeftKey r l }

/-- `a && b` evaluates its second removal only when the first one succeeded. -/
def remove (d : ManyToManyDict L R) (l : L) (r : R) : Except Exn Unit × ManyToManyDict L R :=
  let (found, left) := KeyValueDictSet.removeValue d.leftKeyToRightKey l r
  if found then
    let (found', right) := KeyValueDictSet.removeValue d.rightKeyToLeftKey r l
    (if found' then .ok () else .error .keyError,
      { leftKeyToRightKey := left, rightKeyToLeftKey := right })
  else (.error .keyError, { d with leftKeyToRightKey := left })

/-- A missing key has no values, so that the loop over them does nothing. -/
def removeLeftKey (d : ManyToManyDict L R) (l : L) : Except Exn (List R) × ManyToManyDict L R :=
  let (res, left) := KeyValueDictSet.removeKey d.leftKeyToRightKey l
  (res,
    { leftKeyToRightKey := left
      rightKeyToLeftKey :=
        (res.toOption.getD []).foldl (fun right r => (KeyValueDictSet.removeValue right r l).2) d.rightKeyToLeftKey })

def removeRightKey (d : ManyToManyDict L R) (r : R) : Except Exn (List L) × ManyToManyDict L R :=
  let (res, right) := KeyValueDictSet.removeKey d.rightKeyToLeftKey r
  (res,
    { leftKeyToRightKey :=
        (res.toOption.getD []).foldl (fun left l => (KeyValueDictSet.removeValue left l r).2) d.leftKeyToRightKey
      rightKeyToLeftKey := right })

def hasLeftKey (d : ManyToManyDict L R) (l : L) : Bool := d.leftKeyToRightKey.contains l

def hasRightKey (d : ManyToManyDict L R) (r : R) : Bool := d.rightKeyToLeftKey.contains r

def getLeftItems (d : ManyToManyDict L R) (r : R) : List L := (d.rightKeyToLeftKey.get? r).getD []

def getRightItems (d : ManyToManyDict L R) (l : L) : List R := (d.leftKeyToRightKey.get? l).getD []

def hasKeyPair (d : ManyToManyDict L R) (l : L) (r : R) : Bool :=
  r ∈ d.getRightItems l && l ∈ d.getLeftItems r

end ManyToManyDict

/-- `indexed_queue.h`: the newest item is at the front of the list. -/
structure IndexedQueue (α : Type) where
  list : List α
  deriving Repr

namespace IndexedQueue

variable {α : Type} [DecidableEq α]

def empty : IndexedQueue α := ⟨[]⟩

def put (q : IndexedQueue α) (a : α) : Except Exn Unit × IndexedQueue α :=
  if a ∈ q.list then (.error .keyError, q) else (.ok (), ⟨a :: q.list⟩)

def remove (q : IndexedQueue α) (a : α) : Except Exn Unit × IndexedQueue α :=
  if a ∈ q.list then (.ok (), ⟨q.list.erase a⟩) else (.error .valueError, q)

/-- From the oldest item to the newest. -/
def toList (q : IndexedQueue α) : List α := q.list.reverse

def size (q : IndexedQueue α) : Nat := q.list.length

end IndexedQueue

/-- Priority and insertion number; the queue is ordered by both. -/
abbrev MapKey := Int × Nat

def MapKey.lt (a b : MapKey) : Bool := a.1 < b.1 || (a.1 == b.1 && a.2 < b.2)

/-- `stable_priority_queue.h`: `queue` is sorted by key, as a `std::map` is. -/
structure StablePriorityQueue (α : Type) where
  locator : Dict α MapKey
  queue : List (MapKey × α)
  itemCounter : Nat

namespace StablePriorityQueue

variable {α : Type} [DecidableEq α]

def empty : StablePriorityQueue α := ⟨Dict.empty, [], 0⟩

def insertSorted (k : MapKey) (a : α) : List (MapKey × α) → List (MapKey × α)
  | [] => [(k, a)]
  | e :: es => if MapKey.lt e.1 k then e :: insertSorted k a es else (k, a) :: e :: es

def put (q : StablePriorityQueue α) (priority : Int) (a : α) : StablePriorityQueue α :=
  { locator := q.locator.set a (priority, q.itemCounter)
    queue := insertSorted (priority, q.itemCounter) a q.queue
    itemCounter := q.itemCounter + 1 }

def get (q : StablePriorityQueue α) : Option ((Int × α) × StablePriorityQueue α) :=
  match q.queue with
  | [] => none
  | (k, a) :: es => some ((k.1, a), { q with queue := es, locator := q.locator.erase a })

def remove (q : StablePriorityQueue α) (a : α) : StablePriorityQueue α :=
  match q.locator.get? a with
  | none => q
  | some k =>
    { q with queue := q.queue.filter fun e => e.1 ≠ k, locator := q.locator.erase a }

def decreasePriority (q : StablePriorityQueue α) (a : α) : StablePriorityQueue α :=
  match q.locator.get? a with
  | none => q
  | some k =>
    { locator := q.locator.set a (k.1 - 1, q.itemCounter)
      queue := insertSorted (k.1 - 1, q.itemCounter) a (q.queue.filter fun e => e.1 ≠ k)
      itemCounter := q.itemCounter + 1 }

end StablePriorityQueue

end Scaler
