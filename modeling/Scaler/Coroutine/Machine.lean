import Scaler.Coroutine.Basic

/-! The event loop that interleaves coroutines. A thread is one task of the
loop: its identifier is the path of child numbers up to its root, so the
descendants of a thread are the threads whose identifier has it as a suffix. -/

namespace Coroutine

abbrev Tid := List Nat

variable {σ ε ι π : Type}

/-- What a thread does next: run on, or wait for the children it gathers. -/
inductive Code (σ ε ι π : Type) where
  | run (c : Coro σ ε ι π Unit)
  | join (pending : List Tid) (err : Option ε) (k : Option ε → Coro σ ε ι π Unit)

/-- A thread runs `code` in the activation of `proc`; `callers` are the
suspended activations below it, innermost first. -/
structure Thread (σ ε ι π : Type) where
  id : Tid
  proc : π
  code : Code σ ε ι π
  callers : List (π × (Option ε → Coro σ ε ι π Unit))

/-- The procedures a thread is in the middle of. -/
def Thread.frames (t : Thread σ ε ι π) : List π := t.proc :: t.callers.map Prod.fst

/-- A program gives every procedure its body and says which procedures the
environment may start. -/
structure Program (σ ε ι π : Type) where
  body : π → Coro σ ε ι π Unit
  entry : π → Bool

structure Config (σ ε ι π : Type) where
  state : σ
  threads : List (Thread σ ε ι π)
  current : Option Tid
  next : Nat

/-- The environment starts a procedure, the loop resumes a suspended thread, or
the running thread executes one operation (with the answer to a `choose`). -/
inductive Move (π : Type) where
  | spawn (p : π)
  | resume (i : Tid)
  | exec (b : Bool)
  deriving Repr, DecidableEq

namespace Config

def update (c : Config σ ε ι π) (i : Tid) (f : Thread σ ε ι π → Thread σ ε ι π) :
    Config σ ε ι π :=
  { c with threads := c.threads.map fun t => if t.id = i then f t else t }

def thread? (c : Config σ ε ι π) (i : Tid) : Option (Thread σ ε ι π) :=
  c.threads.find? fun t => t.id = i

/-- No thread holds the processor. -/
def Suspended (c : Config σ ε ι π) : Prop := c.current = none

end Config

def Thread.setCode (t : Thread σ ε ι π) (code : Code σ ε ι π) : Thread σ ε ι π :=
  { t with code := code }

/-- A finished child leaves the threads and reports its outcome to its parent;
the first exception wakes the parent at once. -/
def notify (child : Tid) (e : Option ε) (t : Thread σ ε ι π) : Thread σ ε ι π :=
  match t.code with
  | .run _ => t
  | .join pending err k =>
    if child ∈ pending then t.setCode (.join (pending.erase child) (err <|> e) k) else t

def finish (c : Config σ ε ι π) (i : Tid) (e : Option ε) : Config σ ε ι π :=
  { c with
    threads := (c.threads.filter fun t => t.id ≠ i).map (notify i e)
    current := none }

/-- The current activation of `t` is over, with the exception `e` if it raised. -/
def returned (c : Config σ ε ι π) (t : Thread σ ε ι π) (e : Option ε) : Config σ ε ι π :=
  match t.callers with
  | [] => finish c t.id e
  | (p, k) :: rest =>
    c.update t.id fun t => { t with proc := p, code := .run (k e), callers := rest }

/-- The threads that `i` gathers for `ps`, numbered from `n` on. -/
def children (P : Program σ ε ι π) (n : Nat) (i : Tid) : List π → List (Thread σ ε ι π)
  | [] => []
  | p :: ps => ⟨n :: i, p, .run (P.body p), []⟩ :: children P (n + 1) i ps

/-- Waits for the children it starts. -/
def fork (P : Program σ ε ι π) (c : Config σ ε ι π) (i : Tid) (ps : List π)
    (k : Option ε → Coro σ ε ι π Unit) : Config σ ε ι π :=
  let kids := children P c.next i ps
  { state := c.state
    threads := (c.update i (·.setCode (.join (kids.map (·.id)) none k))).threads ++ kids
    current := none
    next := c.next + ps.length }

def execOp (P : Program σ ε ι π) (b : Bool) (c : Config σ ε ι π) (t : Thread σ ε ι π) :
    Coro σ ε ι π Unit → Config σ ε ι π
  | .ret _ => returned c t none
  | .raise e => returned c t (some e)
  | .act f k =>
    { c.update t.id (·.setCode (.run (k c.state))) with state := f c.state }
  | .self k => c.update t.id (·.setCode (.run (k t.id)))
  | .choose k => c.update t.id (·.setCode (.run (k b)))
  | .await _ _ _ => { c with current := none }
  | .call p k =>
    c.update t.id fun t =>
      { t with proc := p, code := .run (P.body p), callers := (t.proc, k) :: t.callers }
  | .gather ps k =>
    match ps with
    | [] => c.update t.id (·.setCode (.run (k none)))
    | p :: ps => fork P c t.id (p :: ps) k

/-- How a suspended thread goes on in state `s`, when it can. -/
def wake (s : σ) : Code σ ε ι π → Option (Coro σ ε ι π Unit)
  | .run (.await _ ready k) => if ready s then some k else none
  | .run c => some c
  | .join pending err k => if pending = [] ∨ err.isSome then some (k err) else none

def step (P : Program σ ε ι π) (c : Config σ ε ι π) : Move π → Option (Config σ ε ι π)
  | .spawn p =>
    if c.current = none ∧ P.entry p then
      some { c with
        threads := c.threads ++ [{ id := [c.next], proc := p, code := .run (P.body p), callers := [] }]
        next := c.next + 1 }
    else none
  | .resume i =>
    match c.current, c.thread? i with
    | none, some t =>
      (wake c.state t.code).map fun k =>
        { c.update i (·.setCode (.run k)) with current := some i }
    | _, _ => none
  | .exec b =>
    match c.current with
    | none => none
    | some i =>
      match c.thread? i with
      | some t =>
        match t.code with
        | .run k => some (execOp P b c t k)
        | .join _ _ _ => none
      | none => none

def runMoves (P : Program σ ε ι π) (c : Config σ ε ι π) : List (Move π) → Option (Config σ ε ι π)
  | [] => some c
  | m :: ms => (step P c m).bind fun c' => runMoves P c' ms

/-- The running thread goes on until it gives up the processor, for at most `n` operations,
with `b` as the answer to every `choose`. -/
def burst (P : Program σ ε ι π) (b : Bool) : Nat → Config σ ε ι π → Option (Config σ ε ι π)
  | 0, _ => none
  | n + 1, c => if c.current.isNone then some c else (step P c (.exec b)).bind (burst P b n)

/-- A schedule: after each move the thread it started runs until it gives up the processor. -/
def drive (P : Program σ ε ι π) (n : Nat) (c : Config σ ε ι π) :
    List (Move π) → Option (Config σ ε ι π)
  | [] => some c
  | m :: ms => ((step P c m).bind (burst P true n)).bind fun c => drive P n c ms

/-- The running thread is about to ask the environment. -/
def Config.asks (c : Config σ ε ι π) : Bool :=
  match c.current.bind c.thread? with
  | some ⟨_, _, .run (.choose _), _⟩ => true
  | _ => false

/-- As `burst`, with the answers `bs` to the `choose`s and `true` after the last of them. -/
def burstWith (P : Program σ ε ι π) : Nat → List Bool → Config σ ε ι π → Option (Config σ ε ι π)
  | 0, _, _ => none
  | n + 1, bs, c =>
    if c.current.isNone then some c
    else if c.asks then (step P c (.exec (bs.headD true))).bind (burstWith P n bs.tail)
    else (step P c (.exec true)).bind (burstWith P n bs)

/-- The thread goes on `n` times. -/
def wakes (i : Tid) (n : Nat) : List (Move π × List Bool) := List.replicate n (.resume i, [])

/-- The procedure is started as the thread `i`, which then goes on `n` times. -/
def turn (p : π) (i n : Nat) : List (Move π × List Bool) := (.spawn p, []) :: wakes [i] n

/-- A schedule in which every move comes with its answers, as long as no turn ends outside `ok`. -/
def driveIn (P : Program σ ε ι π) (ok : Config σ ε ι π → Prop) [DecidablePred ok] (n : Nat) (c : Config σ ε ι π) :
    List (Move π × List Bool) → Option (Config σ ε ι π)
  | [] => some c
  | (m, bs) :: ms =>
    ((step P c m).bind (burstWith P n bs)).bind fun c' => if ok c' then driveIn P ok n c' ms else none

/-- The state in which `c`, run from `s` by the thread `i`, ends, gives up the processor or
calls another procedure, with `b` as the answer to every `choose`. -/
def Coro.upTo {α : Type} (i : Tid) (b : Bool) : Coro σ ε ι π α → σ → σ
  | .ret _, s => s
  | .raise _, s => s
  | .act f k, s => (k s).upTo i b (f s)
  | .self k, s => (k i).upTo i b s
  | .choose k, s => (k b).upTo i b s
  | .await _ _ _, s => s
  | .call _ _, s => s
  | .gather _ _, s => s

theorem Config.thread?_id {c : Config σ ε ι π} {i : Tid} {t : Thread σ ε ι π}
    (h : c.thread? i = some t) : t.id = i := by
  unfold Config.thread? at h
  simpa using List.find?_some h

theorem Config.thread?_update {c : Config σ ε ι π} {i : Tid} {t : Thread σ ε ι π}
    (h : c.thread? i = some t) (code : Code σ ε ι π) :
    (c.update i (·.setCode code)).thread? i = some (t.setCode code) := by
  have hf : ((fun t : Thread σ ε ι π => decide (t.id = i)) ∘ fun t =>
      if t.id = i then t.setCode code else t) = fun t => decide (t.id = i) := by
    funext u
    by_cases hu : u.id = i
    · simp [hu, Thread.setCode]
    · simp [hu]
  have hid := Config.thread?_id h
  unfold Config.thread? Config.update at *
  rw [List.find?_map, hf, h, Option.map_some, if_pos hid]

theorem runMoves_exec {P : Program σ ε ι π} {c c' : Config σ ε ι π} {i : Tid}
    {t : Thread σ ε ι π} {k : Coro σ ε ι π Unit} {b : Bool} {n : Nat} (hc : c.current = some i)
    (ht : c.thread? i = some t) (hk : t.code = .run k)
    (h : runMoves P (execOp P b c t k) (List.replicate n (.exec b)) = some c') :
    runMoves P c (List.replicate (n + 1) (.exec b)) = some c' := by
  rw [List.replicate_succ, runMoves]
  simp only [step, hc, ht, hk, Option.bind_some]
  exact h

/-- The running thread gets to this state. -/
theorem runMoves_upTo {P : Program σ ε ι π} {c : Config σ ε ι π} {i : Tid} {t : Thread σ ε ι π}
    {k : Coro σ ε ι π Unit} (hc : c.current = some i) (ht : c.thread? i = some t)
    (hk : t.code = .run k) (b : Bool) :
    ∃ n c', runMoves P c (List.replicate n (.exec b)) = some c' ∧ c'.state = k.upTo i b c.state := by
  induction k generalizing c t with
  | act f k ih =>
    obtain ⟨n, c', hr, hs⟩ := ih c.state (t := t.setCode (.run (k c.state)))
      (c := { c.update i (·.setCode (.run (k c.state))) with state := f c.state }) hc
      (Config.thread?_update ht _) rfl
    refine ⟨n + 1, c', runMoves_exec hc ht hk ?_, hs⟩
    rwa [execOp, Config.thread?_id ht]
  | self k ih =>
    obtain ⟨n, c', hr, hs⟩ := ih i (c := c.update i (·.setCode (.run (k i)))) hc
      (Config.thread?_update ht _) rfl
    refine ⟨n + 1, c', runMoves_exec hc ht hk ?_, hs⟩
    rwa [execOp, Config.thread?_id ht]
  | choose k ih =>
    obtain ⟨n, c', hr, hs⟩ := ih b (c := c.update i (·.setCode (.run (k b)))) hc
      (Config.thread?_update ht _) rfl
    refine ⟨n + 1, c', runMoves_exec hc ht hk ?_, hs⟩
    rwa [execOp, Config.thread?_id ht]
  | _ => exact ⟨0, c, rfl, rfl⟩

def start (s : σ) : Config σ ε ι π := { state := s, threads := [], current := none, next := 0 }

/-- The configurations that some schedule reaches from the state `s`. -/
inductive Reachable (P : Program σ ε ι π) (s : σ) : Config σ ε ι π → Prop
  | start : Reachable P s (start s)
  | step {c c' : Config σ ε ι π} {m : Move π} :
    Reachable P s c → step P c m = some c' → Reachable P s c'

theorem Reachable.runMoves {P : Program σ ε ι π} {s : σ} {ms : List (Move π)}
    {c c' : Config σ ε ι π} (h : Reachable P s c) (hr : Coroutine.runMoves P c ms = some c') :
    Reachable P s c' := by
  induction ms generalizing c with
  | nil =>
    cases hr
    exact h
  | cons m ms ih =>
    obtain ⟨d, hd, hr⟩ := Option.bind_eq_some_iff.mp hr
    exact ih (h.step hd) hr

theorem Reachable.burst {P : Program σ ε ι π} {s : σ} {b : Bool} {n : Nat} {c c' : Config σ ε ι π}
    (h : Reachable P s c) (hb : Coroutine.burst P b n c = some c') : Reachable P s c' := by
  induction n generalizing c with
  | zero => cases hb
  | succ n ih =>
    unfold Coroutine.burst at hb
    split at hb
    · cases hb
      exact h
    · obtain ⟨d, hd, hb⟩ := Option.bind_eq_some_iff.mp hb
      exact ih (h.step hd) hb

theorem Reachable.drive {P : Program σ ε ι π} {s : σ} {n : Nat} {ms : List (Move π)}
    {c c' : Config σ ε ι π} (h : Reachable P s c) (hd : Coroutine.drive P n c ms = some c') :
    Reachable P s c' := by
  induction ms generalizing c with
  | nil =>
    cases hd
    exact h
  | cons m ms ih =>
    obtain ⟨d, hd', hd⟩ := Option.bind_eq_some_iff.mp hd
    obtain ⟨e, he, hd'⟩ := Option.bind_eq_some_iff.mp hd'
    exact ih ((h.step he).burst hd') hd

theorem Reachable.burstWith {P : Program σ ε ι π} {s : σ} {bs : List Bool} {n : Nat} {c c' : Config σ ε ι π}
    (h : Reachable P s c) (hb : Coroutine.burstWith P n bs c = some c') : Reachable P s c' := by
  induction n generalizing c bs with
  | zero => cases hb
  | succ n ih =>
    unfold Coroutine.burstWith at hb
    split at hb
    · cases hb
      exact h
    · split at hb
      · obtain ⟨d, hd, hb⟩ := Option.bind_eq_some_iff.mp hb
        exact ih (h.step hd) hb
      · obtain ⟨d, hd, hb⟩ := Option.bind_eq_some_iff.mp hb
        exact ih (h.step hd) hb

/-- The configurations that are reached by turns, each of which ends in `ok`: a turn is a move and what
the thread then does until it gives up the processor. -/
inductive ReachableIn (P : Program σ ε ι π) (ok : Config σ ε ι π → Prop) (s : σ) : Config σ ε ι π → Prop
  | start : ReachableIn P ok s (start s)
  | turn {c d c' : Config σ ε ι π} {m : Move π} {n : Nat} {bs : List Bool} :
    ReachableIn P ok s c → step P c m = some d → burstWith P n bs d = some c' → ok c' → ReachableIn P ok s c'

theorem ReachableIn.reachable {P : Program σ ε ι π} {ok : Config σ ε ι π → Prop} {s : σ} {c : Config σ ε ι π}
    (h : ReachableIn P ok s c) : Reachable P s c := by
  induction h with
  | start => exact .start
  | turn _ hm hb _ ih => exact (ih.step hm).burstWith hb

theorem ReachableIn.drive {P : Program σ ε ι π} {ok : Config σ ε ι π → Prop} [DecidablePred ok] {s : σ} {n : Nat}
    {ms : List (Move π × List Bool)} {c c' : Config σ ε ι π} (h : ReachableIn P ok s c)
    (hd : driveIn P ok n c ms = some c') : ReachableIn P ok s c' := by
  induction ms generalizing c with
  | nil =>
    cases hd
    exact h
  | cons m ms ih =>
    obtain ⟨e, he, hd⟩ := Option.bind_eq_some_iff.mp hd
    obtain ⟨d, hm, hb⟩ := Option.bind_eq_some_iff.mp he
    split at hd
    · next hok => exact ih (h.turn hm hb hok) hd
    · cases hd

end Coroutine
