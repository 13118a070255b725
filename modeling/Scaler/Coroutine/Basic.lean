import Mathlib.Data.Multiset.AddSub
import Mathlib.Data.Multiset.Bind

/-! Coroutines of a cooperative event loop, as resumption trees over a shared
state. Control changes hands only at `await` and `gather`; everything between two
suspensions is atomic. Procedures are called by name, so mutually recursive
coroutines need no termination argument. -/

namespace Coroutine

/-- A coroutine over the state `σ`, raising `ε`, with await labels `ι` and
procedure names `π`. The continuation of `act` receives the state before the
update; `choose` is resolved by the environment; a call reports the exception
that escaped from the callee, if any. -/
inductive Coro (σ ε ι π : Type) (α : Type) : Type where
  | ret (a : α)
  | raise (e : ε)
  | act (f : σ → σ) (k : σ → Coro σ ε ι π α)
  | self (k : List Nat → Coro σ ε ι π α)
  | choose (k : Bool → Coro σ ε ι π α)
  | await (l : ι) (ready : σ → Bool) (k : Coro σ ε ι π α)
  | call (p : π) (k : Option ε → Coro σ ε ι π α)
  | gather (ps : List π) (k : Option ε → Coro σ ε ι π α)

namespace Coro

variable {σ ε ι π α β : Type}

def bind (c : Coro σ ε ι π α) (g : α → Coro σ ε ι π β) : Coro σ ε ι π β :=
  match c with
  | ret a => g a
  | raise e => raise e
  | act f k => act f (fun s => (k s).bind g)
  | self k => self (fun i => (k i).bind g)
  | choose k => choose (fun b => (k b).bind g)
  | await l r k => await l r (k.bind g)
  | call p k => call p (fun e => (k e).bind g)
  | gather ps k => gather ps (fun e => (k e).bind g)

/-- Runs a coroutine and hands its outcome, value or exception, to the caller. -/
def attempt (c : Coro σ ε ι π α) : Coro σ ε ι π (Except ε α) :=
  match c with
  | ret a => ret (.ok a)
  | raise e => ret (.error e)
  | act f k => act f (fun s => (k s).attempt)
  | self k => self (fun i => (k i).attempt)
  | choose k => choose (fun b => (k b).attempt)
  | await l r k => await l r k.attempt
  | call p k => call p (fun e => (k e).attempt)
  | gather ps k => gather ps (fun e => (k e).attempt)

instance : Monad (Coro σ ε ι π) where
  pure := ret
  bind := bind

def ofExcept : Except ε α → Coro σ ε ι π α
  | .ok a => ret a
  | .error e => raise e

/-- `try c finally f`: the cleanup runs on both ways out. -/
def always (c : Coro σ ε ι π α) (f : Coro σ ε ι π Unit) : Coro σ ε ι π α :=
  bind c.attempt fun r => bind f fun _ => ofExcept r

def modify (f : σ → σ) : Coro σ ε ι π Unit := act f fun _ => ret ()

/-- Reads the state without changing it. -/
def reads (f : σ → α) : Coro σ ε ι π α := act id fun s => ret (f s)

/-- A synchronous function of the program: it updates the state, also when it raises. -/
def sync (f : σ → Except ε α × σ) : Coro σ ε ι π α :=
  act (fun s => (f s).2) fun s => ofExcept (f s).1

/-- An await that the event loop may resume at any time. -/
def pause (l : ι) : Coro σ ε ι π Unit := await l (fun _ => true) (ret ())

def run (p : π) : Coro σ ε ι π Unit :=
  call p fun
    | none => ret ()
    | some e => raise e

def gatherAll (ps : List π) : Coro σ ε ι π Unit :=
  gather ps fun
    | none => ret ()
    | some e => raise e

/-- `for a in as: await f a`. -/
def forEach (as : List α) (f : α → Coro σ ε ι π Unit) : Coro σ ε ι π Unit :=
  match as with
  | [] => ret ()
  | a :: as => bind (f a) fun _ => forEach as f

end Coro

end Coroutine
