import Mathlib.Data.List.Nodup
import Mathlib.Logic.Relation

/-! The search of a graph from some nodes on with a queue and a set of visited nodes. What follows a
node is looked up when the node leaves the queue, and the lookup may fail. -/

namespace Collections

variable {α ε : Type} [DecidableEq α]

/-- The nodes that are new join the visited ones and the queue. -/
def visitAll : List α → List α → List α → List α × List α
  | [], queue, visited => (queue, visited)
  | y :: ys, queue, visited =>
    if y ∈ visited then visitAll ys queue visited else visitAll ys (queue ++ [y]) (visited ++ [y])

/-- The loop, for at most `n` nodes of the queue. -/
def worklist (next : α → Except ε (List α)) : Nat → List α → List α → Except ε (List α)
  | 0, _, visited => .ok visited
  | _ + 1, [], visited => .ok visited
  | n + 1, x :: queue, visited =>
    match next x with
    | .error e => .error e
    | .ok ys =>
      let new := visitAll ys queue visited
      worklist next n new.1 new.2

/-- `y` follows `x`. -/
def Follows (next : α → Except ε (List α)) (x y : α) : Prop := ∃ ys, next x = .ok ys ∧ y ∈ ys

/-- Reachable from one of the nodes. -/
def ReachableFrom (next : α → Except ε (List α)) (starts : List α) (y : α) : Prop :=
  ∃ x ∈ starts, Relation.ReflTransGen (Follows next) x y

/-- What `visitAll` adds, to both lists alike. -/
structure Visits (ys queue visited : List α) (new : List α × List α) : Prop where
  queue_subset : queue ⊆ new.1
  visited_subset : visited ⊆ new.2
  done : ys ⊆ new.2
  mem_queue : ∀ y ∈ new.1, y ∈ queue ∨ (y ∈ ys ∧ y ∈ new.2)
  mem_visited : ∀ y ∈ new.2, y ∈ visited ∨ (y ∈ ys ∧ y ∈ new.1)
  nodup : visited.Nodup → new.2.Nodup

theorem visits_visitAll (ys queue visited : List α) : Visits ys queue visited (visitAll ys queue visited) := by
  induction ys generalizing queue visited with
  | nil =>
    exact ⟨List.Subset.refl _, List.Subset.refl _, List.nil_subset _, fun _ hy => .inl hy, fun _ hy => .inl hy, id⟩
  | cons y ys ih =>
    unfold visitAll
    split
    · next hold =>
      have h := ih queue visited
      refine ⟨h.queue_subset, h.visited_subset, ?_, ?_, ?_, h.nodup⟩
      · exact List.cons_subset.mpr ⟨h.visited_subset hold, h.done⟩
      · intro z hz
        exact (h.mem_queue z hz).imp_right fun hz => ⟨List.mem_cons_of_mem y hz.1, hz.2⟩
      · intro z hz
        exact (h.mem_visited z hz).imp_right fun hz => ⟨List.mem_cons_of_mem y hz.1, hz.2⟩
    · next hnew =>
      have h := ih (queue ++ [y]) (visited ++ [y])
      have hqueue : y ∈ (visitAll ys (queue ++ [y]) (visited ++ [y])).1 := h.queue_subset (by simp)
      have hvisited : y ∈ (visitAll ys (queue ++ [y]) (visited ++ [y])).2 := h.visited_subset (by simp)
      refine ⟨?_, ?_, ?_, ?_, ?_, ?_⟩
      · exact fun z hz => h.queue_subset (List.mem_append_left _ hz)
      · exact fun z hz => h.visited_subset (List.mem_append_left _ hz)
      · exact List.cons_subset.mpr ⟨hvisited, h.done⟩
      · intro z hz
        rcases h.mem_queue z hz with hold | hz
        · rcases List.mem_append.mp hold with hold | hy
          · exact .inl hold
          · obtain rfl := List.mem_singleton.mp hy
            exact .inr ⟨List.mem_cons_self, hvisited⟩
        · exact .inr ⟨List.mem_cons_of_mem y hz.1, hz.2⟩
      · intro z hz
        rcases h.mem_visited z hz with hold | hz
        · rcases List.mem_append.mp hold with hold | hy
          · exact .inl hold
          · obtain rfl := List.mem_singleton.mp hy
            exact .inr ⟨List.mem_cons_self, hqueue⟩
        · exact .inr ⟨List.mem_cons_of_mem y hz.1, hz.2⟩
      · intro hnodup
        refine h.nodup (List.nodup_append.mpr ⟨hnodup, List.nodup_singleton y, ?_⟩)
        rintro a ha b hb rfl
        exact hnew (List.mem_singleton.mp hb ▸ ha)

/-- The nodes of `nodes` that are not visited yet. -/
def unvisited (nodes visited : List α) : Nat := (nodes.filter (· ∉ visited)).length

theorem unvisited_append_lt {nodes visited : List α} {y : α} (hy : y ∈ nodes) (hnew : y ∉ visited) :
    unvisited nodes (visited ++ [y]) < unvisited nodes visited := by
  have hsplit : nodes.filter (· ∉ visited ++ [y]) = (nodes.filter (· ∉ visited)).filter (· ≠ y) := by
    rw [List.filter_filter]
    refine List.filter_congr fun z _ => ?_
    simp [and_comm]
  rw [unvisited, unvisited, hsplit]
  refine List.length_filter_lt_length_iff_exists.mpr ⟨y, ?_, by simp⟩
  simp [hy, hnew]

/-- A node that joins the queue is one less to be visited. -/
theorem length_visitAll {nodes ys : List α} (hys : ys ⊆ nodes) (queue visited : List α) :
    (visitAll ys queue visited).1.length + unvisited nodes (visitAll ys queue visited).2 ≤
      queue.length + unvisited nodes visited := by
  induction ys generalizing queue visited with
  | nil => exact Nat.le_refl _
  | cons y ys ih =>
    obtain ⟨hy, hys⟩ := List.cons_subset.mp hys
    unfold visitAll
    split
    · exact ih hys queue visited
    · next hnew =>
      have hlt := unvisited_append_lt hy hnew
      have hle := ih hys (queue ++ [y]) (visited ++ [y])
      rw [List.length_append, List.length_singleton] at hle
      omega

/-- Every visited node is reachable, and what follows it is visited unless it is still in the
queue. -/
structure Search (next : α → Except ε (List α)) (starts queue visited : List α) : Prop where
  starts_subset : starts ⊆ visited
  queue_subset : queue ⊆ visited
  sound : ∀ x ∈ visited, ReachableFrom next starts x
  closed : ∀ x ∈ visited, x ∈ queue ∨ ∃ ys, next x = .ok ys ∧ ys ⊆ visited

theorem Search.step {next : α → Except ε (List α)} {starts queue visited ys : List α} {x : α}
    (h : Search next starts (x :: queue) visited) (hnext : next x = .ok ys) :
    Search next starts (visitAll ys queue visited).1 (visitAll ys queue visited).2 := by
  have hv := visits_visitAll ys queue visited
  have hx : x ∈ visited := h.queue_subset List.mem_cons_self
  refine ⟨List.Subset.trans h.starts_subset hv.visited_subset, ?_, ?_, ?_⟩
  · intro y hy
    rcases hv.mem_queue y hy with hold | hnew
    · exact hv.visited_subset (h.queue_subset (List.mem_cons_of_mem x hold))
    · exact hnew.2
  · intro y hy
    rcases hv.mem_visited y hy with hold | ⟨hnew, -⟩
    · exact h.sound y hold
    · obtain ⟨start, hstart, hpath⟩ := h.sound x hx
      exact ⟨start, hstart, hpath.tail ⟨ys, hnext, hnew⟩⟩
  · intro y hy
    rcases hv.mem_visited y hy with hold | ⟨-, hqueued⟩
    · rcases h.closed y hold with hqueue | ⟨zs, hzs, hsub⟩
      · rcases List.mem_cons.mp hqueue with rfl | hqueue
        · exact .inr ⟨ys, hnext, hv.done⟩
        · exact .inl (hv.queue_subset hqueue)
      · exact .inr ⟨zs, hzs, List.Subset.trans hsub hv.visited_subset⟩
    · exact .inl hqueued

theorem worklist_search {next : α → Except ε (List α)} {nodes : List α}
    (hnodes : ∀ x ys, next x = .ok ys → ys ⊆ nodes) {starts : List α} {n : Nat} {queue visited found : List α}
    (h : Search next starts queue visited) (hfuel : queue.length + unvisited nodes visited ≤ n)
    (hrun : worklist next n queue visited = .ok found) : Search next starts [] found := by
  induction n generalizing queue visited with
  | zero =>
    obtain rfl : queue = [] := List.length_eq_zero_iff.mp (by omega)
    obtain rfl := Except.ok.inj hrun
    exact h
  | succ n ih =>
    cases queue with
    | nil =>
      obtain rfl := Except.ok.inj hrun
      exact h
    | cons x queue =>
      unfold worklist at hrun
      cases hnext : next x with
      | error e =>
        rw [hnext] at hrun
        cases hrun
      | ok ys =>
        rw [hnext] at hrun
        have hle := length_visitAll (hnodes x ys hnext) queue visited
        rw [List.length_cons] at hfuel
        exact ih (h.step hnext) (by omega) hrun

end Collections
