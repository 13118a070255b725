import Scaler.Coroutine.Basic

/-! A coroutine that nothing interleaves with: its awaits return at once, the environment answers yes, and
`call` says with what exception, if any, a call ends and what it does to the state. -/

namespace Coroutine

variable {σ ε ι π α β : Type} {call : π → σ → Option ε × σ}

namespace Coro

/-- The first exception and the state after the calls, one after the other. -/
def callAll (call : π → σ → Option ε × σ) : List π → σ → Option ε × σ
  | [], s => (none, s)
  | p :: ps, s =>
    let r := callAll call ps (call p s).2
    ((call p s).1 <|> r.1, r.2)

def alone (call : π → σ → Option ε × σ) : Coro σ ε ι π α → σ → Except ε α × σ
  | .ret a, s => (.ok a, s)
  | .raise e, s => (.error e, s)
  | .act f k, s => (k s).alone call (f s)
  | .self k, s => (k []).alone call s
  | .choose k, s => (k true).alone call s
  | .await _ _ k, s => k.alone call s
  | .call p k, s => (k (call p s).1).alone call (call p s).2
  | .gather ps k, s => (k (callAll call ps s).1).alone call (callAll call ps s).2

theorem alone_bind (c : Coro σ ε ι π α) (g : α → Coro σ ε ι π β) (s : σ) :
    (c >>= g).alone call s =
      match c.alone call s with
      | (.ok a, s') => (g a).alone call s'
      | (.error e, s') => (.error e, s') := by
  change (c.bind g).alone call s = _
  induction c generalizing s with
  | ret a => rfl
  | raise e => rfl
  | act f k ih => exact ih s (f s)
  | self k ih => exact ih [] s
  | choose k ih => exact ih true s
  | await l ready k ih => exact ih s
  | call p k ih => exact ih _ _
  | gather ps k ih => exact ih _ _

theorem alone_bind_ok {c : Coro σ ε ι π α} {g : α → Coro σ ε ι π β} {s s' : σ} {a : α} (h : c.alone call s = (.ok a, s')) :
    (c >>= g).alone call s = (g a).alone call s' := by
  rw [alone_bind, h]

theorem alone_bind_error {c : Coro σ ε ι π α} {g : α → Coro σ ε ι π β} {s s' : σ} {e : ε} (h : c.alone call s = (.error e, s')) :
    (c >>= g).alone call s = (.error e, s') := by
  rw [alone_bind, h]

theorem alone_sync (f : σ → Except ε α × σ) (s : σ) : (sync f : Coro σ ε ι π α).alone call s = f s := by
  rw [sync, alone]
  obtain ⟨x, s'⟩ := f s
  cases x <;> rfl

theorem alone_run_none {p : π} {s : σ} (h : (call p s).1 = none) : (run p : Coro σ ε ι π Unit).alone call s = (.ok (), (call p s).2) := by
  rw [run, alone, h]
  rfl

theorem alone_run_some {p : π} {s : σ} {e : ε} (h : (call p s).1 = some e) :
    (run p : Coro σ ε ι π Unit).alone call s = (.error e, (call p s).2) := by
  rw [run, alone, h]
  rfl

end Coro

end Coroutine
