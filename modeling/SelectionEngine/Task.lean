namespace SelectionEngine

/-- Work on a shared state in virtual time: it is done, or it acts on the state
in one step, or it sleeps before it goes on. -/
inductive Task (σ α : Type) where
  | done (result : α)
  /-- Puts `step s` in the place of the state `s` and goes on with `next s`. -/
  | act (step : σ → σ) (next : σ → Task σ α)
  | sleep (duration : Nat) (next : Task σ α)

namespace Task

variable {σ α β γ : Type}

def bind : Task σ α → (α → Task σ β) → Task σ β
  | done a, f => f a
  | act step next, f => act step fun s => (next s).bind f
  | sleep d next, f => sleep d (next.bind f)

instance : Monad (Task σ) where
  pure := done
  bind := bind

/-- A single atomic step that also gives a result. -/
def access (f : σ → α × σ) : Task σ α := act (fun s => (f s).2) fun s => done (f s).1

/-- Sleeps first. Not sleeping at all is no sleep of length zero. -/
def after (duration : Nat) (task : Task σ α) : Task σ α :=
  if duration = 0 then task else sleep duration task

/-- Runs a task beside one that still sleeps for `left`. -/
def besideSleeper (resume : Task σ β → Task σ γ) (wake : β → Task σ γ) : Nat → Task σ β → Task σ γ
  | left, done b => sleep left (wake b)
  | left, act step next => act step fun s => besideSleeper resume wake left (next s)
  | left, sleep d next =>
    if left < d then sleep left (resume (sleep (d - left) next))
    else if d < left then sleep d (besideSleeper resume wake (left - d) next)
    else sleep left (resume next)

/-- Runs two tasks at the same time. Each goes on until it sleeps, the first one
first, and the one that sleeps less wakes up next. -/
def both : Task σ α → Task σ β → Task σ (α × β)
  | done a, second => second.bind fun b => done (a, b)
  | act step next, second => act step fun s => (next s).both second
  | sleep d next, second => besideSleeper next.both (fun b => next.bind fun a => done (a, b)) d second

/-- Runs tasks at the same time, all of them started in order. -/
def all : List (Task σ α) → Task σ (List α)
  | [] => done []
  | task :: tasks => (task.both (all tasks)).bind fun (a, as) => done (a :: as)

/-- Runs tasks one after another. -/
def inTurn : List (Task σ α) → Task σ (List α)
  | [] => done []
  | task :: tasks => task.bind fun a => (inTurn tasks).bind fun as => done (a :: as)

/-- The result and the state at the end. -/
def run : Task σ α → σ → α × σ
  | done a, s => (a, s)
  | act step next, s => (next s).run (step s)
  | sleep _ next, s => next.run s

/-- Runs until the time is up. Whoever is to wake up later is never woken, and
what was done stays done. -/
def runWithin : Task σ α → Nat → σ → Option α × σ
  | done a, _, s => (some a, s)
  | act step next, left, s => (next s).runWithin left (step s)
  | sleep d next, left, s => if d ≤ left then next.runWithin (left - d) s else (none, s)

end Task

end SelectionEngine
