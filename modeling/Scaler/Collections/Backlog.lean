import Mathlib.Data.List.Basic

/-! A stream that is sent in chunks. Some chunks carry a mark, which is due when the stream has been
sent up to the end of the chunk. -/

namespace Collections

variable {γ α μ : Type} (payload : γ → List α) (mark : γ → Option μ) (P : μ → List α → Prop)

/-- Behind `sent`, every mark of the queue stands where `P` wants it. -/
def MarkedAt : List α → List γ → Prop
  | _, [] => True
  | sent, c :: queue => (∀ m, mark c = some m → P m (sent ++ payload c)) ∧ MarkedAt (sent ++ payload c) queue

variable {payload mark P} {sent : List α} {queue : List γ}

theorem markedAt_append {queue' : List γ} :
    MarkedAt payload mark P sent (queue ++ queue') ↔
      MarkedAt payload mark P sent queue ∧ MarkedAt payload mark P (sent ++ queue.flatMap payload) queue' := by
  induction queue generalizing sent with
  | nil => simp [MarkedAt]
  | cons c queue ih => simp only [List.cons_append, MarkedAt, ih, List.flatMap_cons, List.append_assoc, and_assoc]

theorem MarkedAt.mono {Q : μ → List α → Prop} (h : MarkedAt payload mark P sent queue) (hPQ : ∀ m xs, P m xs → Q m xs) :
    MarkedAt payload mark Q sent queue := by
  induction queue generalizing sent with
  | nil => trivial
  | cons c queue ih => exact ⟨fun m hm => hPQ m _ (h.1 m hm), ih h.2⟩

/-- A part of the first chunk is sent: the marks stay where they are. -/
theorem MarkedAt.advance {c c' : γ} {now : List α} (h : MarkedAt payload mark P sent (c :: queue))
    (hmark : mark c' = mark c) (hpayload : now ++ payload c' = payload c) :
    MarkedAt payload mark P (sent ++ now) (c' :: queue) := by
  unfold MarkedAt at h ⊢
  rwa [hmark, List.append_assoc, hpayload]

end Collections
