import Scaler.Utility.ManyToMany

/-! `object_usage/object_tracker.py`: objects that stay while blocks refer to them. A removal returns
the objects that the callback is called with, in their order. -/

namespace Scaler.ObjectUsage

open Collections

variable {Block Key Object : Type} [DecidableEq Block] [DecidableEq Key]

structure ObjectTracker (Block Key Object : Type) where
  currentBlocks : List Block
  objectKeyToBlock : ManyToManyDict Key Block
  objectKeyToObject : Dict Key Object

inductive Call (Block Key Object : Type) where
  | addObject (obj : Object)
  | addBlocksForOneObject (objectKey : Key) (blocks : List Block)
  | removeBlocksForOneObject (objectKey : Key) (blocks : List Block)
  | addOneBlockForObjects (objectKeys : List Key) (block : Block)
  | removeOneBlockForObjects (objectKeys : List Key) (block : Block)
  | removeBlocks (blocks : List Block)

namespace ObjectTracker

def empty : ObjectTracker Block Key Object := ⟨[], .empty, .empty⟩

variable (getObjectKey : Object → Key) (t : ObjectTracker Block Key Object)

def hasObject (key : Key) : Bool := t.objectKeyToObject.contains key

def addObject (obj : Object) : ObjectTracker Block Key Object :=
  { t with objectKeyToObject := t.objectKeyToObject.set (getObjectKey obj) obj }

def addBlocksForOneObject (objectKey : Key) (blocks : List Block) : Except Exn Unit × ObjectTracker Block Key Object :=
  if t.hasObject objectKey then
    (.ok (), { t with
      objectKeyToBlock := blocks.foldl (fun pairs block => pairs.add objectKey block) t.objectKeyToBlock
      currentBlocks := blocks ∪ t.currentBlocks })
  else (.error .keyError, t)

/-- A missing object ends the loop where it is met. -/
def addOneBlockForObjects (block : Block) :
    List Key → ObjectTracker Block Key Object → Except Exn Unit × ObjectTracker Block Key Object
  | [], t => (.ok (), { t with currentBlocks := t.currentBlocks.insert block })
  | objectKey :: objectKeys, t =>
    if t.hasObject objectKey then
      addOneBlockForObjects block objectKeys { t with objectKeyToBlock := t.objectKeyToBlock.add objectKey block }
    else (.error .keyError, t)

/-- `__remove_block_for_object`: the object if this was its last block. -/
def removeBlockForObject (objectKey : Key) (block : Block) : Option Object × ObjectTracker Block Key Object :=
  if block ∉ t.currentBlocks then (none, t)
  else if t.hasObject objectKey = false then (none, t)
  else if t.objectKeyToBlock.hasKeyPair objectKey block = false then (none, t)
  else
    let pairs := (t.objectKeyToBlock.remove objectKey block).2
    let t := { t with
      objectKeyToBlock := pairs
      currentBlocks := if pairs.hasRightKey block then t.currentBlocks else t.currentBlocks.erase block }
    if pairs.hasLeftKey objectKey then (none, t)
    else (t.objectKeyToObject.get? objectKey, { t with objectKeyToObject := t.objectKeyToObject.erase objectKey })

/-- The loop of the removals: the objects that are ready are collected. -/
def removeEach : List (Key × Block) → ObjectTracker Block Key Object → List Object × ObjectTracker Block Key Object
  | [], t => ([], t)
  | (objectKey, block) :: pairs, t =>
    let (obj, t) := t.removeBlockForObject objectKey block
    let (ready, t) := removeEach pairs t
    (obj.toList ++ ready, t)

def removeBlocksForOneObject (objectKey : Key) (blocks : List Block) : List Object × ObjectTracker Block Key Object :=
  removeEach (blocks.map fun block => (objectKey, block)) t

def removeOneBlockForObjects (objectKeys : List Key) (block : Block) : List Object × ObjectTracker Block Key Object :=
  removeEach (objectKeys.map fun objectKey => (objectKey, block)) t

def removeBlocks : List Block → ObjectTracker Block Key Object → List Object × ObjectTracker Block Key Object
  | [], t => ([], t)
  | block :: blocks, t =>
    if t.objectKeyToBlock.hasRightKey block then
      let (ready, t) := t.removeOneBlockForObjects (t.objectKeyToBlock.getLeftItems block) block
      let (rest, t) := removeBlocks blocks t
      (ready ++ rest, t)
    else removeBlocks blocks t

/-- The calls of the callback and the tracker after a call. -/
def step : Call Block Key Object → List Object × ObjectTracker Block Key Object
  | .addObject obj => ([], t.addObject getObjectKey obj)
  | .addBlocksForOneObject objectKey blocks => ([], (t.addBlocksForOneObject objectKey blocks).2)
  | .removeBlocksForOneObject objectKey blocks => t.removeBlocksForOneObject objectKey blocks
  | .addOneBlockForObjects objectKeys block => ([], (addOneBlockForObjects block objectKeys t).2)
  | .removeOneBlockForObjects objectKeys block => t.removeOneBlockForObjects objectKeys block
  | .removeBlocks blocks => removeBlocks blocks t

end ObjectTracker

end Scaler.ObjectUsage
