import Mathlib.Data.List.Basic
import Mathlib.Data.List.Pairwise
import Mathlib.Data.List.Perm.Basic
import Mathlib.Data.List.TakeWhile
import Mathlib.Order.Basic

/-! Lists that are kept sorted by a key. Where an item goes among those of the same key is left to
the implementation. -/

namespace Collections

variable {α : Type} {key : α → Nat}

def SortedBy (key : α → Nat) (as : List α) : Prop := as.Pairwise fun a b => key a ≤ key b

/-- How a list is sorted, and how an item is added to a sorted one. -/
structure SortedKeyList (α : Type) (key : α → Nat) where
  ofList : List α → List α
  add : α → List α → List α
  perm_ofList : ∀ as, (ofList as).Perm as
  sorted_ofList : ∀ as, SortedBy key (ofList as)
  perm_add : ∀ a as, (add a as).Perm (a :: as)
  sorted_add : ∀ a as, SortedBy key as → SortedBy key (add a as)

/-- Behind the items of the same key. -/
def insertRight (key : α → Nat) (a : α) : List α → List α
  | [] => [a]
  | b :: bs => if key b ≤ key a then b :: insertRight key a bs else a :: b :: bs

theorem perm_insertRight (a : α) (as : List α) : (insertRight key a as).Perm (a :: as) := by
  induction as with
  | nil => exact .refl _
  | cons b bs ih =>
    rw [insertRight]
    split
    · exact (ih.cons b).trans (.swap a b bs)
    · exact .refl _

theorem sortedBy_insertRight (a : α) {as : List α} (h : SortedBy key as) : SortedBy key (insertRight key a as) := by
  induction as with
  | nil => exact List.pairwise_singleton _ _
  | cons b bs ih =>
    obtain ⟨hb, hbs⟩ := List.pairwise_cons.mp h
    rw [insertRight]
    split
    · next hle =>
      refine List.pairwise_cons.mpr ⟨fun c hc => ?_, ih hbs⟩
      obtain rfl | hc := List.mem_cons.mp ((perm_insertRight a bs).mem_iff.mp hc)
      · exact hle
      · exact hb c hc
    · next hlt =>
      have hab : key a ≤ key b := Nat.le_of_lt (Nat.lt_of_not_le hlt)
      refine List.pairwise_cons.mpr ⟨fun c hc => ?_, h⟩
      obtain rfl | hc := List.mem_cons.mp hc
      · exact hab
      · exact hab.trans (hb c hc)

/-- Stable: items of one key stay in the order in which they came. -/
def SortedKeyList.stable (key : α → Nat) : SortedKeyList α key where
  ofList as := as.foldl (fun sorted a => insertRight key a sorted) []
  add := insertRight key
  perm_ofList as := by
    have hall : ∀ sorted, (as.foldl (fun sorted a => insertRight key a sorted) sorted).Perm (as ++ sorted) := by
      induction as with
      | nil => exact fun sorted => .refl _
      | cons a as ih =>
        intro sorted
        refine (ih _).trans (((perm_insertRight a sorted).append_left as).trans ?_)
        exact List.perm_middle
    simpa using hall []
  sorted_ofList as := by
    have hall : ∀ sorted, SortedBy key sorted →
        SortedBy key (as.foldl (fun sorted a => insertRight key a sorted) sorted) := by
      induction as with
      | nil => exact fun sorted h => h
      | cons a as ih => exact fun sorted h => ih _ (sortedBy_insertRight a h)
    exact hall [] List.Pairwise.nil
  perm_add := perm_insertRight
  sorted_add a _ := sortedBy_insertRight a

/-- The items up to a bound come first. -/
theorem SortedBy.mem_takeWhile {as : List α} (h : SortedBy key as) {p : α → Bool}
    (hp : ∀ a b, key a ≤ key b → p b = true → p a = true) {a : α} :
    a ∈ as.takeWhile p ↔ a ∈ as ∧ p a = true := by
  refine ⟨fun ha => ⟨(List.takeWhile_sublist p).subset ha, List.mem_takeWhile_imp ha⟩, ?_⟩
  rintro ⟨ha, hpa⟩
  induction as with
  | nil => cases ha
  | cons b bs ih =>
    obtain ⟨hb, hbs⟩ := List.pairwise_cons.mp h
    obtain rfl | ha := List.mem_cons.mp ha
    · rw [List.takeWhile_cons_of_pos hpa]
      exact List.mem_cons_self
    · rw [List.takeWhile_cons_of_pos (hp b a (hb a ha) hpa)]
      exact List.mem_cons_of_mem _ (ih hbs ha)

theorem SortedBy.le_of_append_singleton {as : List α} {last : α} (h : SortedBy key (as ++ [last])) {a : α}
    (ha : a ∈ as) : key a ≤ key last :=
  (List.pairwise_append.mp h).2.2 a ha last List.mem_cons_self

end Collections
