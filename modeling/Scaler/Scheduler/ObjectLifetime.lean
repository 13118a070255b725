import Scaler.Scheduler.ObjectTracker

/-! How long an `ObjectTracker` keeps its objects: from their addition to the removal of their last
block. Removals compose: what matters of one is the set of pairs that it names. -/

namespace Scaler.ObjectUsage

open Collections

variable {Block Key Object : Type}

/-- The pairs that a call relates. -/
def Call.Adds : Call Block Key Object → Key → Block → Prop
  | .addBlocksForOneObject objectKey blocks, key, block => key = objectKey ∧ block ∈ blocks
  | .addOneBlockForObjects objectKeys block, key, block' => key ∈ objectKeys ∧ block' = block
  | _, _, _ => False

/-- The pairs that a call is to remove. -/
def Call.Removes : Call Block Key Object → Key → Block → Prop
  | .removeBlocksForOneObject objectKey blocks, key, block => key = objectKey ∧ block ∈ blocks
  | .removeOneBlockForObjects objectKeys block, key, block' => key ∈ objectKeys ∧ block' = block
  | .removeBlocks blocks, _, block => block ∈ blocks
  | _, _, _ => False

namespace ObjectTracker

variable [DecidableEq Block] [DecidableEq Key]

section Removal

variable {getObjectKey : Object → Key} {t t' t'' : ObjectTracker Block Key Object} {P Q : Key → Block → Prop}
  {ready ready' : List Object}

/-- The block refers to the object. -/
def Refers (t : ObjectTracker Block Key Object) (key : Key) (block : Block) : Prop := t.objectKeyToBlock.Pair key block

/-- The object has blocks, and all of them are removed. -/
def LosesLastBlock (t : ObjectTracker Block Key Object) (P : Key → Block → Prop) (key : Key) : Prop :=
  (∃ block, t.Refers key block) ∧ ∀ block, t.Refers key block → P key block

structure Wf (getObjectKey : Object → Key) (t : ObjectTracker Block Key Object) : Prop where
  pairs : t.objectKeyToBlock.Wf
  present : ∀ key block, t.Refers key block → t.hasObject key = true
  blocks : ∀ block, block ∈ t.currentBlocks ↔ ∃ key, t.Refers key block
  nodup : t.currentBlocks.Nodup
  keyed : ∀ key obj, t.objectKeyToObject.get? key = some obj → getObjectKey obj = key

/-- What it is to remove the pairs of `P`: the objects that lose their last block are given up, each
of them once. -/
structure Removed (getObjectKey : Object → Key) (t : ObjectTracker Block Key Object) (P : Key → Block → Prop)
    (ready : List Object) (t' : ObjectTracker Block Key Object) : Prop where
  wf : t'.Wf getObjectKey
  refers : ∀ key block, t'.Refers key block ↔ t.Refers key block ∧ ¬ P key block
  lost : ∀ key, t.LosesLastBlock P key → t'.objectKeyToObject.get? key = none
  kept : ∀ key, ¬ t.LosesLastBlock P key → t'.objectKeyToObject.get? key = t.objectKeyToObject.get? key
  called : ∀ obj, obj ∈ ready ↔ t.LosesLastBlock P (getObjectKey obj) ∧ t.objectKeyToObject.get? (getObjectKey obj) = some obj
  once : (ready.map getObjectKey).Nodup
  unchanged : (∀ key block, P key block → ¬ t.Refers key block) → t' = t ∧ ready = []

omit [DecidableEq Block] in
theorem losesLastBlock_congr (h : ∀ key block, t.Refers key block → (P key block ↔ Q key block)) (key : Key) :
    t.LosesLastBlock P key ↔ t.LosesLastBlock Q key := by
  constructor
  · exact fun hP => ⟨hP.1, fun block hrefers => (h key block hrefers).mp (hP.2 block hrefers)⟩
  · exact fun hQ => ⟨hQ.1, fun block hrefers => (h key block hrefers).mpr (hQ.2 block hrefers)⟩

theorem Removed.congr (hP : Removed getObjectKey t P ready t')
    (h : ∀ key block, t.Refers key block → (P key block ↔ Q key block)) : Removed getObjectKey t Q ready t' where
  wf := hP.wf
  refers := fun key block => by
    rw [hP.refers]
    exact and_congr_right fun hrefers => not_congr (h key block hrefers)
  lost := fun key hlost => hP.lost key ((losesLastBlock_congr h key).mpr hlost)
  kept := fun key hkept => hP.kept key fun hlost => hkept ((losesLastBlock_congr h key).mp hlost)
  called := fun obj => by rw [hP.called, losesLastBlock_congr h]
  once := hP.once
  unchanged := fun hQ => hP.unchanged fun key block hPkb hrefers => hQ key block ((h key block hrefers).mp hPkb) hrefers

/-- Nothing is removed. -/
theorem Removed.refl (h : t.Wf getObjectKey) : Removed getObjectKey t (fun _ _ => False) [] t where
  wf := h
  refers := fun key block => by simp
  lost := fun key hlost => by
    obtain ⟨block, hrefers⟩ := hlost.1
    exact (hlost.2 block hrefers).elim
  kept := fun _ _ => rfl
  called := fun obj => by
    refine ⟨fun hmem => absurd hmem List.not_mem_nil, fun hready => ?_⟩
    obtain ⟨block, hrefers⟩ := hready.1.1
    exact (hready.1.2 block hrefers).elim
  once := List.nodup_nil
  unchanged := fun _ => ⟨rfl, rfl⟩

/-- An object that has a block after the first removal has not lost its last block in it. -/
theorem Removed.not_lost (hP : Removed getObjectKey t P ready t') {key : Key} (h : t'.LosesLastBlock Q key) :
    ¬ t.LosesLastBlock P key := by
  intro hlost
  obtain ⟨block, hrefers⟩ := h.1
  obtain ⟨hrefers, hnot⟩ := (hP.refers key block).mp hrefers
  exact hnot (hlost.2 block hrefers)

theorem Removed.losesLastBlock_or (hP : Removed getObjectKey t P ready t') (key : Key) :
    t.LosesLastBlock (fun key block => P key block ∨ Q key block) key ↔ t.LosesLastBlock P key ∨ t'.LosesLastBlock Q key := by
  constructor
  · intro h
    by_cases hlost : t.LosesLastBlock P key
    · exact .inl hlost
    · refine .inr ⟨?_, fun block hrefers => ?_⟩
      · by_contra hnone
        refine hlost ⟨h.1, fun block hrefers => ?_⟩
        by_contra hnot
        exact hnone ⟨block, (hP.refers key block).mpr ⟨hrefers, hnot⟩⟩
      · obtain ⟨hrefers, hnot⟩ := (hP.refers key block).mp hrefers
        exact (h.2 block hrefers).resolve_left hnot
  · rintro (h | h)
    · exact ⟨h.1, fun block hrefers => .inl (h.2 block hrefers)⟩
    · obtain ⟨block, hrefers⟩ := h.1
      refine ⟨⟨block, ((hP.refers key block).mp hrefers).1⟩, fun block hrefers => ?_⟩
      by_cases hPkb : P key block
      · exact .inl hPkb
      · exact .inr (h.2 block ((hP.refers key block).mpr ⟨hrefers, hPkb⟩))

theorem Removed.trans (hP : Removed getObjectKey t P ready t') (hQ : Removed getObjectKey t' Q ready' t'') :
    Removed getObjectKey t (fun key block => P key block ∨ Q key block) (ready ++ ready') t'' where
  wf := hQ.wf
  refers := fun key block => by
    rw [hQ.refers, hP.refers, not_or, and_assoc]
  lost := fun key hlost => by
    rcases (hP.losesLastBlock_or key).mp hlost with h | h
    · by_cases hagain : t'.LosesLastBlock Q key
      · exact hQ.lost key hagain
      · rw [hQ.kept key hagain]
        exact hP.lost key h
    · exact hQ.lost key h
  kept := fun key hkept => by
    rw [hP.losesLastBlock_or, not_or] at hkept
    rw [hQ.kept key hkept.2, hP.kept key hkept.1]
  called := fun obj => by
    rw [List.mem_append, hP.called, hQ.called, hP.losesLastBlock_or, or_and_right]
    refine or_congr_right (and_congr_right fun h => ?_)
    rw [hP.kept _ (hP.not_lost h)]
  once := by
    rw [List.map_append, List.nodup_append]
    refine ⟨hP.once, hQ.once, ?_⟩
    rintro key hkey _ hkey' rfl
    obtain ⟨obj, hobj, rfl⟩ := List.mem_map.mp hkey
    obtain ⟨obj', hobj', heq⟩ := List.mem_map.mp hkey'
    have hlost := ((hQ.called obj').mp hobj').1
    rw [heq] at hlost
    exact hP.not_lost hlost ((hP.called obj).mp hobj).1
  unchanged := fun hnone => by
    obtain ⟨rfl, rfl⟩ := hP.unchanged fun key block h => hnone key block (.inl h)
    obtain ⟨rfl, rfl⟩ := hQ.unchanged fun key block h => hnone key block (.inr h)
    exact ⟨rfl, rfl⟩

section RemovePair

variable {key : Key} {block : Block}

/-- A pair that is not there: nothing happens. -/
theorem removeBlockForObject_of_not_refers (h : t.Wf getObjectKey) (hnot : ¬ t.Refers key block) :
    t.removeBlockForObject key block = (none, t) := by
  have hpair : t.objectKeyToBlock.hasKeyPair key block = false :=
    Bool.eq_false_iff.mpr fun hpair => hnot ((ManyToManyDict.hasKeyPair_iff h.pairs).mp hpair)
  unfold removeBlockForObject
  rw [if_pos hpair, ite_self, ite_self]

/-- The tracker without one of its pairs. -/
def dropPair (t : ObjectTracker Block Key Object) (key : Key) (block : Block) : ObjectTracker Block Key Object :=
  let pairs := (t.objectKeyToBlock.remove key block).2
  { t with
    objectKeyToBlock := pairs
    currentBlocks := if pairs.hasRightKey block then t.currentBlocks else t.currentBlocks.erase block }

theorem removeBlockForObject_of_refers (h : t.Wf getObjectKey) (hrefers : t.Refers key block) :
    t.removeBlockForObject key block =
      if (t.dropPair key block).objectKeyToBlock.hasLeftKey key then (none, t.dropPair key block)
      else (t.objectKeyToObject.get? key,
        { t.dropPair key block with objectKeyToObject := t.objectKeyToObject.erase key }) := by
  have hblock : ¬ block ∉ t.currentBlocks := not_not.mpr ((h.blocks block).mpr ⟨key, hrefers⟩)
  have hobject : ¬ t.hasObject key = false := by
    rw [h.present key block hrefers]
    exact nofun
  have hpair : ¬ t.objectKeyToBlock.hasKeyPair key block = false := by
    rw [(ManyToManyDict.hasKeyPair_iff h.pairs).mpr hrefers]
    exact nofun
  unfold removeBlockForObject
  rw [if_neg hblock, if_neg hobject, if_neg hpair]
  rfl

theorem refers_dropPair (h : t.Wf getObjectKey) (hrefers : t.Refers key block) {key' : Key} {block' : Block} :
    (t.dropPair key block).Refers key' block' ↔ t.Refers key' block' ∧ ¬ (key' = key ∧ block' = block) :=
  ManyToManyDict.pair_remove h.pairs hrefers

theorem mem_currentBlocks_dropPair (h : t.Wf getObjectKey) (hrefers : t.Refers key block) (block' : Block) :
    block' ∈ (t.dropPair key block).currentBlocks ↔ ∃ key', (t.dropPair key block).Refers key' block' := by
  have hpairs := h.pairs.remove hrefers
  have hother : block' ≠ block → (block' ∈ t.currentBlocks ↔ ∃ key', (t.dropPair key block).Refers key' block') := by
    intro hne
    rw [h.blocks]
    refine exists_congr fun key' => ?_
    rw [refers_dropPair h hrefers]
    exact (and_iff_left fun heq => hne heq.2).symm
  change block' ∈ (if (t.objectKeyToBlock.remove key block).2.hasRightKey block then t.currentBlocks
    else t.currentBlocks.erase block) ↔ _
  by_cases hright : (t.objectKeyToBlock.remove key block).2.hasRightKey block = true
  · rw [if_pos hright]
    by_cases hblock : block' = block
    · subst hblock
      exact ⟨fun _ => (ManyToManyDict.hasRightKey_iff hpairs).mp hright, fun _ => (h.blocks block').mpr ⟨key, hrefers⟩⟩
    · exact hother hblock
  · rw [if_neg hright, h.nodup.mem_erase_iff]
    by_cases hblock : block' = block
    · subst hblock
      refine ⟨fun hmem => absurd rfl hmem.1, fun hex => ?_⟩
      exact absurd ((ManyToManyDict.hasRightKey_iff hpairs).mpr hex) hright
    · rw [and_iff_right hblock]
      exact hother hblock

theorem nodup_currentBlocks_dropPair (h : t.Wf getObjectKey) (key : Key) (block : Block) :
    (t.dropPair key block).currentBlocks.Nodup := by
  change (if (t.objectKeyToBlock.remove key block).2.hasRightKey block then t.currentBlocks
    else t.currentBlocks.erase block).Nodup
  split
  · exact h.nodup
  · exact h.nodup.erase block

theorem Wf.dropPair (h : t.Wf getObjectKey) (hrefers : t.Refers key block) : (t.dropPair key block).Wf getObjectKey where
  pairs := h.pairs.remove hrefers
  present := fun key' block' hrefers' => h.present key' block' ((refers_dropPair h hrefers).mp hrefers').1
  blocks := mem_currentBlocks_dropPair h hrefers
  nodup := nodup_currentBlocks_dropPair h key block
  keyed := h.keyed

/-- An object without a block is taken out. -/
theorem Wf.erase (h : t.Wf getObjectKey) (hnone : ∀ block, ¬ t.Refers key block) :
    Wf getObjectKey { t with objectKeyToObject := t.objectKeyToObject.erase key } where
  pairs := h.pairs
  present := fun key' block' hrefers => by
    have hkey : key' ≠ key := by
      rintro rfl
      exact hnone block' hrefers
    have hold := h.present key' block' hrefers
    rw [hasObject, Dict.contains] at hold ⊢
    rwa [Dict.get?_erase_ne _ hkey]
  blocks := h.blocks
  nodup := h.nodup
  keyed := fun key' obj hget => by
    rw [Dict.get?_erase] at hget
    split at hget
    · cases hget
    · exact h.keyed key' obj hget

omit [DecidableEq Block] in
theorem losesLastBlock_pair {key' : Key} :
    t.LosesLastBlock (fun k b => k = key ∧ b = block) key' ↔
      key' = key ∧ t.Refers key block ∧ ∀ block', t.Refers key block' → block' = block := by
  constructor
  · rintro ⟨⟨block', hrefers⟩, hall⟩
    obtain ⟨rfl, rfl⟩ := hall block' hrefers
    exact ⟨rfl, hrefers, fun block'' hrefers' => (hall block'' hrefers').2⟩
  · rintro ⟨rfl, hrefers, hall⟩
    exact ⟨⟨block, hrefers⟩, fun block' hrefers' => ⟨rfl, hall block' hrefers'⟩⟩

theorem removed_removeBlockForObject (h : t.Wf getObjectKey) (key : Key) (block : Block) :
    Removed getObjectKey t (fun k b => k = key ∧ b = block) (t.removeBlockForObject key block).1.toList
      (t.removeBlockForObject key block).2 := by
  by_cases hrefers : t.Refers key block
  · have hdrop := h.dropPair hrefers
    rw [removeBlockForObject_of_refers h hrefers]
    by_cases hleft : (t.dropPair key block).objectKeyToBlock.hasLeftKey key = true
    · -- another block refers to the object
      obtain ⟨block', hother⟩ := (ManyToManyDict.hasLeftKey_iff hdrop.pairs).mp hleft
      obtain ⟨hrefers', hne⟩ := (refers_dropPair h hrefers).mp hother
      have hkept : ∀ key', ¬ t.LosesLastBlock (fun k b => k = key ∧ b = block) key' := fun key' hlost =>
        hne ⟨rfl, (losesLastBlock_pair.mp hlost).2.2 block' hrefers'⟩
      rw [if_pos hleft]
      exact {
        wf := hdrop
        refers := fun _ _ => refers_dropPair h hrefers
        lost := fun key' hlost => absurd hlost (hkept key')
        kept := fun _ _ => rfl
        called := fun obj => ⟨fun hmem => absurd hmem List.not_mem_nil, fun hlost => absurd hlost.1 (hkept _)⟩
        once := List.nodup_nil
        unchanged := fun hnone => absurd hrefers (hnone key block ⟨rfl, rfl⟩) }
    · have hnone : ∀ block', ¬ (t.dropPair key block).Refers key block' := fun block' hrefers' =>
        hleft ((ManyToManyDict.hasLeftKey_iff hdrop.pairs).mpr ⟨block', hrefers'⟩)
      have hlost : ∀ key', t.LosesLastBlock (fun k b => k = key ∧ b = block) key' ↔ key' = key := fun key' => by
        rw [losesLastBlock_pair]
        refine and_iff_left ⟨hrefers, fun block' hrefers' => ?_⟩
        by_contra hne
        exact hnone block' ((refers_dropPair h hrefers).mpr ⟨hrefers', fun heq => hne heq.2⟩)
      obtain ⟨obj, hobj⟩ := Option.isSome_iff_exists.mp (h.present key block hrefers)
      rw [if_neg hleft, hobj]
      exact {
        wf := hdrop.erase hnone
        refers := fun _ _ => refers_dropPair h hrefers
        lost := fun key' hkey' => by
          rw [(hlost key').mp hkey']
          exact Dict.get?_erase_self _ _
        kept := fun key' hkey' => Dict.get?_erase_ne _ fun heq => hkey' ((hlost key').mpr heq)
        called := fun obj' => by
          rw [hlost]
          refine ⟨fun hmem => ?_, fun hget => ?_⟩
          · obtain rfl := List.mem_singleton.mp hmem
            have hkey := h.keyed key obj' hobj
            exact ⟨hkey, hkey.symm ▸ hobj⟩
          · rw [hget.1, hobj] at hget
            exact List.mem_singleton.mpr (Option.some.inj hget.2).symm
        once := List.nodup_singleton _
        unchanged := fun hnone => absurd hrefers (hnone key block ⟨rfl, rfl⟩) }
  · rw [removeBlockForObject_of_not_refers h hrefers]
    refine (Removed.refl h).congr fun key' block' hrefers' => ⟨False.elim, ?_⟩
    rintro ⟨rfl, rfl⟩
    exact hrefers hrefers'

end RemovePair

theorem removed_removeEach (h : t.Wf getObjectKey) (pairs : List (Key × Block)) :
    Removed getObjectKey t (fun key block => (key, block) ∈ pairs) (removeEach pairs t).1 (removeEach pairs t).2 := by
  induction pairs generalizing t with
  | nil => exact (Removed.refl h).congr fun _ _ _ => ⟨False.elim, fun hmem => absurd hmem List.not_mem_nil⟩
  | cons pair pairs ih =>
    obtain ⟨key, block⟩ := pair
    have hone := removed_removeBlockForObject h key block
    refine (hone.trans (ih hone.wf)).congr fun key' block' _ => ?_
    rw [List.mem_cons, Prod.mk.injEq]

theorem removed_removeOneBlockForObjects (h : t.Wf getObjectKey) (objectKeys : List Key) (block : Block) :
    Removed getObjectKey t (fun key block' => key ∈ objectKeys ∧ block' = block)
      (t.removeOneBlockForObjects objectKeys block).1 (t.removeOneBlockForObjects objectKeys block).2 := by
  refine (removed_removeEach h _).congr fun key block' _ => ?_
  simp [eq_comm]

theorem removed_removeBlocksForOneObject (h : t.Wf getObjectKey) (objectKey : Key) (blocks : List Block) :
    Removed getObjectKey t (fun key block => key = objectKey ∧ block ∈ blocks)
      (t.removeBlocksForOneObject objectKey blocks).1 (t.removeBlocksForOneObject objectKey blocks).2 := by
  refine (removed_removeEach h _).congr fun key block _ => ?_
  simp [eq_comm, and_comm]

theorem removed_removeBlocks (h : t.Wf getObjectKey) (blocks : List Block) :
    Removed getObjectKey t (fun _ block => block ∈ blocks) (removeBlocks blocks t).1 (removeBlocks blocks t).2 := by
  induction blocks generalizing t with
  | nil => exact (Removed.refl h).congr fun _ _ _ => ⟨False.elim, fun hmem => absurd hmem List.not_mem_nil⟩
  | cons block blocks ih =>
    rw [removeBlocks]
    by_cases hright : t.objectKeyToBlock.hasRightKey block = true
    · have hone := removed_removeOneBlockForObjects h (t.objectKeyToBlock.getLeftItems block) block
      rw [if_pos hright]
      refine (hone.trans (ih hone.wf)).congr fun key block' hrefers => ?_
      rw [List.mem_cons]
      refine or_congr_left (and_iff_right_of_imp ?_)
      rintro rfl
      exact (h.pairs.mirror key block').mpr hrefers
    · rw [if_neg hright]
      refine (ih h).congr fun key block' hrefers => ?_
      rw [List.mem_cons, or_iff_right_of_imp]
      rintro rfl
      exact absurd ((ManyToManyDict.hasRightKey_iff h.pairs).mpr ⟨key, hrefers⟩) hright

end Removal

section Addition

variable {getObjectKey : Object → Key} {t : ObjectTracker Block Key Object}

theorem Wf.empty : (empty : ObjectTracker Block Key Object).Wf getObjectKey where
  pairs := .empty
  present := fun _ _ hrefers => absurd hrefers List.not_mem_nil
  blocks := fun _ => ⟨fun hmem => absurd hmem List.not_mem_nil, fun ⟨_, hrefers⟩ => absurd hrefers List.not_mem_nil⟩
  nodup := List.nodup_nil
  keyed := nofun

theorem Wf.addObject (h : t.Wf getObjectKey) (obj : Object) : (t.addObject getObjectKey obj).Wf getObjectKey where
  pairs := h.pairs
  present := fun key block hrefers => by
    have hold := h.present key block hrefers
    rw [hasObject, Dict.contains] at hold ⊢
    rw [ObjectTracker.addObject, Dict.get?_set]
    split
    · rfl
    · exact hold
  blocks := h.blocks
  nodup := h.nodup
  keyed := fun key obj' hget => by
    rcases Dict.get?_set_cases hget with ⟨rfl, rfl⟩ | hold
    · rfl
    · exact h.keyed key obj' hold

/-- Pairs of present objects are added, and their blocks. -/
structure Added (t : ObjectTracker Block Key Object) (P : Key → Block → Prop) (t' : ObjectTracker Block Key Object) : Prop where
  pairs : t'.objectKeyToBlock.Wf
  refers : ∀ key block, t'.Refers key block ↔ t.Refers key block ∨ P key block
  objects : t'.objectKeyToObject = t.objectKeyToObject
  blocks : ∀ block, block ∈ t'.currentBlocks ↔ block ∈ t.currentBlocks ∨ ∃ key, P key block
  nodup : t'.currentBlocks.Nodup
  present : ∀ key block, P key block → t.hasObject key = true

theorem Added.wf {t' : ObjectTracker Block Key Object} {P : Key → Block → Prop} (hP : t.Added P t') (h : t.Wf getObjectKey) :
    t'.Wf getObjectKey where
  pairs := hP.pairs
  present := fun key block hrefers => by
    rw [hasObject, hP.objects]
    rcases (hP.refers key block).mp hrefers with hold | hnew
    · exact h.present key block hold
    · exact hP.present key block hnew
  blocks := fun block => by
    rw [hP.blocks, h.blocks, ← exists_or]
    exact exists_congr fun key => (hP.refers key block).symm
  nodup := hP.nodup
  keyed := fun key obj hget => by
    rw [hP.objects] at hget
    exact h.keyed key obj hget

theorem added_addBlocksForOneObject (h : t.Wf getObjectKey) {objectKey : Key} {blocks : List Block}
    (hobject : blocks ≠ [] → t.hasObject objectKey = true) :
    t.Added (fun key block => key = objectKey ∧ block ∈ blocks) (t.addBlocksForOneObject objectKey blocks).2 := by
  obtain ⟨hpairs, hrefers⟩ := ManyToManyDict.foldl_add (fun _ => objectKey) id blocks h.pairs
  have hpresent : ∀ key block, key = objectKey ∧ block ∈ blocks → t.hasObject key = true := by
    rintro key block ⟨rfl, hmem⟩
    exact hobject (List.ne_nil_of_mem hmem)
  rw [addBlocksForOneObject]
  split
  · refine ⟨hpairs, fun key block => (hrefers key block).trans (or_congr_right ?_), rfl, fun block => by simp [or_comm],
      h.nodup.union blocks, hpresent⟩
    constructor
    · rintro ⟨block', hmem, rfl, rfl⟩
      exact ⟨rfl, hmem⟩
    · rintro ⟨rfl, hmem⟩
      exact ⟨block, hmem, rfl, rfl⟩
  · next hnot =>
    obtain rfl : blocks = [] := by
      by_contra hne
      exact hnot (hobject hne)
    exact ⟨h.pairs, by simp, rfl, by simp, h.nodup, hpresent⟩

theorem addOneBlockForObjects_eq (block : Block) {objectKeys : List Key} (hobjects : ∀ key ∈ objectKeys, t.hasObject key = true) :
    (addOneBlockForObjects block objectKeys t).2 = { t with
      objectKeyToBlock := objectKeys.foldl (fun pairs objectKey => pairs.add objectKey block) t.objectKeyToBlock
      currentBlocks := t.currentBlocks.insert block } := by
  induction objectKeys generalizing t with
  | nil => rfl
  | cons objectKey objectKeys ih =>
    rw [addOneBlockForObjects, if_pos (hobjects objectKey List.mem_cons_self)]
    exact ih fun key hmem => hobjects key (List.mem_cons_of_mem _ hmem)

theorem added_addOneBlockForObjects (h : t.Wf getObjectKey) {objectKeys : List Key} (block : Block) (hne : objectKeys ≠ [])
    (hobjects : ∀ key ∈ objectKeys, t.hasObject key = true) :
    t.Added (fun key block' => key ∈ objectKeys ∧ block' = block) (addOneBlockForObjects block objectKeys t).2 := by
  obtain ⟨hpairs, hrefers⟩ := ManyToManyDict.foldl_add id (fun _ => block) objectKeys h.pairs
  obtain ⟨key, hkey⟩ := List.exists_mem_of_ne_nil objectKeys hne
  rw [addOneBlockForObjects_eq block hobjects]
  refine ⟨hpairs, fun key block' => (hrefers key block').trans (or_congr_right ?_), rfl, fun block' => ?_, h.nodup.insert,
    fun key _ hmem => hobjects key hmem.1⟩
  · constructor
    · rintro ⟨key', hmem, rfl, rfl⟩
      exact ⟨hmem, rfl⟩
    · rintro ⟨hmem, rfl⟩
      exact ⟨key, hmem, rfl, rfl⟩
  · rw [List.mem_insert_iff, or_comm, exists_and_right]
    exact or_congr_right (and_iff_right ⟨key, hkey⟩).symm

end Addition

variable {getObjectKey : Object → Key} {t t' : ObjectTracker Block Key Object} {calls : List (Call Block Key Object)}
  {called : List Object}

/-- Added blocks refer to present objects. -/
def Allowed (t : ObjectTracker Block Key Object) : Call Block Key Object → Prop
  | .addBlocksForOneObject objectKey blocks => blocks ≠ [] → t.hasObject objectKey = true
  | .addOneBlockForObjects objectKeys _ => objectKeys ≠ [] ∧ ∀ key ∈ objectKeys, t.hasObject key = true
  | _ => True

/-- What a call does to the objects, the blocks and the callback. -/
structure Obeys (getObjectKey : Object → Key) (t : ObjectTracker Block Key Object) (call : Call Block Key Object)
    (ready : List Object) (t' : ObjectTracker Block Key Object) : Prop where
  objects : ∀ key, t'.hasObject key = true ↔
    (∃ obj, call = .addObject obj ∧ getObjectKey obj = key) ∨ t.hasObject key = true ∧ ¬ t.LosesLastBlock call.Removes key
  refers : ∀ key block, t'.Refers key block ↔ (t.Refers key block ∧ ¬ call.Removes key block) ∨ call.Adds key block
  called : ∀ obj, obj ∈ ready ↔
    t.LosesLastBlock call.Removes (getObjectKey obj) ∧ t.objectKeyToObject.get? (getObjectKey obj) = some obj
  once : (ready.map getObjectKey).Nodup
  blockless : ∀ obj ∈ ready, ∀ block, ¬ t'.Refers (getObjectKey obj) block
  unchanged : (∀ obj, call ≠ .addObject obj) → (∀ key block, ¬ call.Adds key block) →
    (∀ key block, call.Removes key block → ¬ t.Refers key block) → t' = t ∧ ready = []

omit [DecidableEq Block] in
theorem not_losesLastBlock_of_not_removes {P : Key → Block → Prop} (h : ∀ key block, ¬ P key block) (key : Key) :
    ¬ t.LosesLastBlock P key := by
  rintro ⟨⟨block, hrefers⟩, hall⟩
  exact h key block (hall block hrefers)

theorem Removed.obeys {call : Call Block Key Object} {ready : List Object} (h : Removed getObjectKey t call.Removes ready t')
    (hnew : ∀ obj, call ≠ .addObject obj) (hadds : ∀ key block, ¬ call.Adds key block) :
    t'.Wf getObjectKey ∧ Obeys getObjectKey t call ready t' := by
  refine ⟨h.wf, ?_, fun key block => ?_, h.called, h.once, fun obj hobj block hrefers => ?_, fun _ _ => h.unchanged⟩
  · intro key
    rw [or_iff_right fun ⟨obj, hcall, _⟩ => hnew obj hcall]
    unfold hasObject Dict.contains
    by_cases hlost : t.LosesLastBlock call.Removes key
    · rw [h.lost key hlost]
      exact ⟨fun hsome => absurd hsome nofun, fun hkept => absurd hlost hkept.2⟩
    · rw [h.kept key hlost]
      exact (and_iff_left hlost).symm
  · rw [h.refers, or_iff_left (hadds key block)]
  · obtain ⟨hrefers, hnot⟩ := (h.refers _ block).mp hrefers
    exact hnot (((h.called obj).mp hobj).1.2 block hrefers)

theorem Added.obeys {call : Call Block Key Object} (h : t.Added call.Adds t') (hwf : t.Wf getObjectKey)
    (hnew : ∀ obj, call ≠ .addObject obj) (hremoves : ∀ key block, ¬ call.Removes key block)
    (hnone : (∀ key block, ¬ call.Adds key block) → t' = t) : t'.Wf getObjectKey ∧ Obeys getObjectKey t call [] t' := by
  refine ⟨h.wf hwf, ?_, fun key block => ?_, fun obj => ?_, List.nodup_nil, fun obj hobj => absurd hobj List.not_mem_nil,
    fun _ hadds _ => ⟨hnone hadds, rfl⟩⟩
  · intro key
    rw [or_iff_right fun ⟨obj, hcall, _⟩ => hnew obj hcall, hasObject, h.objects]
    exact (and_iff_left (not_losesLastBlock_of_not_removes hremoves key)).symm
  · rw [h.refers, and_iff_left (hremoves key block)]
  · exact ⟨fun hmem => absurd hmem List.not_mem_nil, fun hlost => absurd hlost.1 (not_losesLastBlock_of_not_removes hremoves _)⟩

omit [DecidableEq Block] in
theorem Obeys.addObject (t : ObjectTracker Block Key Object) (obj : Object) :
    Obeys getObjectKey t (.addObject obj) [] (t.addObject getObjectKey obj) where
  objects := fun key => by
    have hkept : ¬ t.LosesLastBlock (Call.addObject obj).Removes key := not_losesLastBlock_of_not_removes (fun _ _ => id) key
    rw [and_iff_left hkept, hasObject, Dict.contains, ObjectTracker.addObject, Dict.get?_set]
    split
    · next heq => exact ⟨fun _ => .inl ⟨obj, rfl, heq.symm⟩, fun _ => rfl⟩
    · next hne =>
      refine ⟨.inr, ?_⟩
      rintro (⟨obj', hcall, heq⟩ | hold)
      · cases hcall
        exact absurd heq.symm hne
      · exact hold
  refers := fun key block => by simp [Refers, ObjectTracker.addObject, Call.Removes, Call.Adds]
  called := fun obj' => ⟨fun hmem => absurd hmem List.not_mem_nil,
    fun hlost => absurd hlost.1 (not_losesLastBlock_of_not_removes (fun _ _ => id) _)⟩
  once := List.nodup_nil
  blockless := fun _ hmem => absurd hmem List.not_mem_nil
  unchanged := fun hnew => absurd rfl (hnew obj)

theorem obeys_step (h : t.Wf getObjectKey) {call : Call Block Key Object} (hallowed : t.Allowed call) :
    (t.step getObjectKey call).2.Wf getObjectKey ∧
      Obeys getObjectKey t call (t.step getObjectKey call).1 (t.step getObjectKey call).2 := by
  cases call with
  | addObject obj => exact ⟨h.addObject obj, .addObject t obj⟩
  | addBlocksForOneObject objectKey blocks =>
    refine (added_addBlocksForOneObject h hallowed).obeys h nofun (fun _ _ => id) fun hnone => ?_
    have hblocks : blocks = [] := List.eq_nil_iff_forall_not_mem.mpr fun block hmem => hnone objectKey block ⟨rfl, hmem⟩
    rw [step, addBlocksForOneObject, hblocks]
    split <;> rfl
  | removeBlocksForOneObject objectKey blocks =>
    exact (removed_removeBlocksForOneObject h objectKey blocks).obeys nofun fun _ _ => id
  | addOneBlockForObjects objectKeys block =>
    refine (added_addOneBlockForObjects h block hallowed.1 hallowed.2).obeys h nofun (fun _ _ => id) fun hnone => ?_
    obtain ⟨key, hkey⟩ := List.exists_mem_of_ne_nil objectKeys hallowed.1
    exact absurd ⟨hkey, rfl⟩ (hnone key block)
  | removeOneBlockForObjects objectKeys block =>
    exact (removed_removeOneBlockForObjects h objectKeys block).obeys nofun fun _ _ => id
  | removeBlocks blocks => exact (removed_removeBlocks h blocks).obeys nofun fun _ _ => id

/-- A sequence of allowed calls, the tracker after it and the calls of the callback. -/
inductive Run (getObjectKey : Object → Key) : List (Call Block Key Object) → ObjectTracker Block Key Object → List Object → Prop
  | start : Run getObjectKey [] empty []
  | call {calls t called c} : Run getObjectKey calls t called → t.Allowed c →
    Run getObjectKey (calls ++ [c]) (t.step getObjectKey c).2 (called ++ (t.step getObjectKey c).1)

theorem Run.wf (h : Run getObjectKey calls t called) : t.Wf getObjectKey := by
  induction h with
  | start => exact .empty
  | call _ hallowed ih => exact (obeys_step ih hallowed).1

/-- The object was added, and no later call has removed its last block. -/
def AddedAndKept (getObjectKey : Object → Key) (calls : List (Call Block Key Object)) (key : Key) : Prop :=
  ∃ before obj after, calls = before ++ Call.addObject obj :: after ∧ getObjectKey obj = key ∧
    ∀ between call rest u called, after = between ++ call :: rest →
      Run getObjectKey (before ++ Call.addObject obj :: between) u called → ¬ u.LosesLastBlock call.Removes key

theorem Run.unique {u : ObjectTracker Block Key Object} {called' : List Object} (h : Run getObjectKey calls t called)
    (h' : Run getObjectKey calls u called') : t = u ∧ called = called' := by
  induction h generalizing u called' with
  | start =>
    generalize hcalls : ([] : List (Call Block Key Object)) = calls at h'
    cases h' with
    | start => exact ⟨rfl, rfl⟩
    | call _ _ => exact absurd hcalls.symm (by simp)
  | @call calls t called call _ _ ih =>
    generalize hcalls : calls ++ [call] = calls' at h'
    cases h' with
    | start => exact absurd hcalls (by simp)
    | call hrun _ =>
      obtain ⟨rfl, hlast⟩ := List.append_inj' hcalls rfl
      cases hlast
      obtain ⟨rfl, rfl⟩ := ih hrun
      exact ⟨rfl, rfl⟩

theorem addedAndKept_append (h : Run getObjectKey calls t called) (call : Call Block Key Object) (key : Key) :
    AddedAndKept getObjectKey (calls ++ [call]) key ↔
      (∃ obj, call = .addObject obj ∧ getObjectKey obj = key) ∨
        AddedAndKept getObjectKey calls key ∧ ¬ t.LosesLastBlock call.Removes key := by
  constructor
  · rintro ⟨before, obj, after, hcalls, hkey, hkept⟩
    rcases List.eq_nil_or_concat after with rfl | ⟨after, last, rfl⟩
    · obtain ⟨-, hlast⟩ := List.append_inj' hcalls rfl
      cases hlast
      exact .inl ⟨obj, rfl, hkey⟩
    · rw [List.concat_eq_append, ← List.cons_append, ← List.append_assoc] at hcalls
      obtain ⟨rfl, hlast⟩ := List.append_inj' hcalls rfl
      cases hlast
      refine .inr ⟨⟨before, obj, after, rfl, hkey, fun between c rest u called hafter => ?_⟩, ?_⟩
      · exact hkept between c (rest ++ [call]) u called (by simp [hafter])
      · exact hkept after call [] t called (by simp) h
  · rintro (⟨obj, rfl, hkey⟩ | ⟨⟨before, obj, after, rfl, hkey, hkept⟩, hlast⟩)
    · exact ⟨calls, obj, [], rfl, hkey, fun between c rest _ _ hafter => absurd hafter (by simp)⟩
    · refine ⟨before, obj, after ++ [call], by simp, hkey, fun between c rest u called' hafter hrun => ?_⟩
      rcases List.eq_nil_or_concat rest with rfl | ⟨rest, last, rfl⟩
      · obtain ⟨rfl, hcall⟩ := List.append_inj' hafter rfl
        cases hcall
        obtain ⟨rfl, -⟩ := h.unique hrun
        exact hlast
      · rw [List.concat_eq_append, ← List.cons_append, ← List.append_assoc] at hafter
        obtain ⟨hafter, -⟩ := List.append_inj' hafter rfl
        exact hkept between c rest u called' hafter hrun

theorem Run.hasObject_iff (h : Run getObjectKey calls t called) (key : Key) :
    t.hasObject key = true ↔ AddedAndKept getObjectKey calls key := by
  induction h with
  | start =>
    refine ⟨fun hhas => absurd hhas nofun, ?_⟩
    rintro ⟨before, obj, after, hcalls, -⟩
    exact absurd hcalls (by simp)
  | call hrun hallowed ih => rw [(obeys_step hrun.wf hallowed).2.objects, addedAndKept_append hrun, ih]

/-- An object is present from its addition to the removal of its last block; a block is current while
it refers to an object; and every call gives the objects that lose their last block to the callback,
each of them once. -/
theorem lifetime_law (hrun : Run getObjectKey calls t called) :
    (∀ key, t.hasObject key = true ↔ AddedAndKept getObjectKey calls key) ∧
      (∀ block, block ∈ t.currentBlocks ↔ ∃ key, t.Refers key block) ∧
      ∀ call, t.Allowed call → Obeys getObjectKey t call (t.step getObjectKey call).1 (t.step getObjectKey call).2 :=
  ⟨hrun.hasObject_iff, hrun.wf.blocks, fun _ hallowed => (obeys_step hrun.wf hallowed).2⟩

theorem lifetime_law_two_blocks : ∃ (t : ObjectTracker Nat Nat Nat) (called : List Nat),
    Run id [.addObject 5, .addBlocksForOneObject 5 [1, 2], .removeBlocks [1]] t called ∧ t.hasObject 5 = true ∧
      5 ∈ (t.step id (.removeBlocks [3, 2])).1 := by
  have hadd : Run id [.addObject 5] _ _ := Run.start.call (c := (.addObject 5 : Call Nat Nat Nat)) trivial
  have hblocks := hadd.call (c := .addBlocksForOneObject 5 [1, 2]) fun _ => rfl
  have hremove := hblocks.call (c := .removeBlocks [1]) trivial
  obtain ⟨-, -, hlaw⟩ := lifetime_law hremove
  refine ⟨_, _, hremove, rfl, ((hlaw (.removeBlocks [3, 2]) trivial).called 5).mpr ⟨⟨⟨2, ?_⟩, fun block hrefers => ?_⟩, rfl⟩⟩
  · exact List.mem_singleton_self 2
  · obtain rfl := List.mem_singleton.mp hrefers
    exact List.mem_cons_of_mem _ List.mem_cons_self

end ObjectTracker

end Scaler.ObjectUsage
