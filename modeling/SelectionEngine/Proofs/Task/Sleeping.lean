import SelectionEngine.Proofs.Task.Watching

namespace SelectionEngine.Task

variable {σ ε α β : Type}

/-- The task without its sleeps. -/
def withoutSleeps : Task σ α → Task σ α
  | done a => done a
  | act step next => act step fun s => (next s).withoutSleeps
  | sleep _ next => next.withoutSleeps

@[simp] theorem withoutSleeps_withoutSleeps (task : Task σ α) :
    task.withoutSleeps.withoutSleeps = task.withoutSleeps := by
  induction task with
  | done a => rfl
  | act step next ih => simp only [withoutSleeps, ih]
  | sleep d next ih => exact ih

theorem withoutSleeps_bind (task : Task σ α) (next : α → Task σ β) :
    (task.bind next).withoutSleeps = task.withoutSleeps.bind fun a => (next a).withoutSleeps := by
  induction task with
  | done a => rfl
  | act step rest ih => simp only [bind, withoutSleeps, ih]
  | sleep d rest ih => exact ih

theorem watched_withoutSleeps (note : σ → σ → ε) (task : Task σ α) :
    (task.watched note).withoutSleeps = task.withoutSleeps.watched note := by
  induction task with
  | done a => rfl
  | act step next ih => simp only [watched, withoutSleeps, ih]
  | sleep d next ih => exact ih

theorem run_withoutSleeps (task : Task σ α) (s : σ) : task.withoutSleeps.run s = task.run s := by
  induction task generalizing s with
  | done a => rfl
  | act step next ih => exact ih s (step s)
  | sleep d next ih => exact ih s

/-- The tasks take the same steps, each of them in its own time. -/
def sameSteps (σ : Type) : TaskRelation σ σ where
  Holds task other := task.withoutSleeps = other.withoutSleeps
  done _ := rfl
  bind {α β task other next otherNext} first rest := by
    have later : (fun a => (next a).withoutSleeps) = fun a => (otherNext a).withoutSleeps := funext rest
    rw [withoutSleeps_bind, withoutSleeps_bind, first, later]

/-- The task never sleeps. -/
def Sleepless : Task σ α → Prop
  | done _ => True
  | act _ next => ∀ s, (next s).Sleepless
  | sleep _ _ => False

namespace Sleepless

theorem bind {task : Task σ α} {next : α → Task σ β} (first : task.Sleepless) (rest : ∀ a, (next a).Sleepless) :
    (task.bind next).Sleepless := by
  induction task with
  | done a => exact rest a
  | act step later ih => exact fun s => ih s (first s)
  | sleep d later ih => exact first.elim

theorem watched {task : Task σ α} (sleepless : task.Sleepless) (note : σ → σ → ε) :
    (task.watched note).Sleepless := by
  induction task with
  | done a => trivial
  | act step next ih => exact fun s => ih s.1 (sleepless s.1)
  | sleep d next ih => exact sleepless.elim

theorem besideNotes {task : Task σ α} (sleepless : task.Sleepless) :
    (task.besideNotes : Task (σ × List ε) α).Sleepless := by
  induction task with
  | done a => trivial
  | act step next ih => exact fun s => ih s.1 (sleepless s.1)
  | sleep d next ih => exact sleepless.elim

theorem noting {task : Task σ α} (sleepless : task.Sleepless) (note : α → ε) : (task.noting note).Sleepless :=
  sleepless.besideNotes.bind fun _ _ => trivial

/-- Whoever never sleeps is done before anyone beside it starts. -/
theorem both_eq {first : Task σ α} (sleepless : first.Sleepless) (second : Task σ β) :
    first.both second = first.bind fun a => second.bind fun b => .done (a, b) := by
  induction first with
  | done a => rfl
  | act step next ih =>
    have later : (fun s => (next s).both second) =
        fun s => (next s).bind fun a => second.bind fun b => .done (a, b) := funext fun s => ih s (sleepless s)
    simp only [both, Task.bind, later]
  | sleep d next ih => exact sleepless.elim

theorem inTurn {tasks : List (Task σ α)} (sleepless : ∀ task ∈ tasks, task.Sleepless) :
    (Task.inTurn tasks).Sleepless := by
  induction tasks with
  | nil => trivial
  | cons task tasks ih =>
    obtain ⟨first, others⟩ := List.forall_mem_cons.mp sleepless
    exact first.bind fun a => (ih others).bind fun _ => trivial

theorem all_eq {tasks : List (Task σ α)} (sleepless : ∀ task ∈ tasks, task.Sleepless) :
    Task.all tasks = Task.inTurn tasks := by
  induction tasks with
  | nil => rfl
  | cons task tasks ih =>
    obtain ⟨first, others⟩ := List.forall_mem_cons.mp sleepless
    rw [Task.all, Task.inTurn, first.both_eq, bind_bind, ih others]
    simp only [bind_bind, done_bind]

theorem runWithin {task : Task σ α} (sleepless : task.Sleepless) (left : Nat) (s : σ) :
    task.runWithin left s = (some (task.run s).1, (task.run s).2) := by
  induction task generalizing s with
  | done a => rfl
  | act step next ih => exact ih s (sleepless s) (step s)
  | sleep d next ih => exact sleepless.elim

end Sleepless

end SelectionEngine.Task
