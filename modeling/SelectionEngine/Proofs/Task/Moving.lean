import SelectionEngine.Proofs.Task.Sequencing

namespace SelectionEngine.Task

variable {σ ε α β γ : Type} {R : σ → σ → Prop}

/-- Each step of the task is one that the relation admits. -/
inductive Moves (R : σ → σ → Prop) : Task σ α → Prop
  | done (a : α) : Moves R (done a)
  | act {step next} : (∀ s, R s (step s)) → (∀ s, Moves R (next s)) → Moves R (act step next)
  | sleep {next} (d : Nat) : Moves R next → Moves R (sleep d next)

namespace Moves

theorem bind {task : Task σ α} {next : α → Task σ β} (first : Moves R task) (rest : ∀ a, Moves R (next a)) :
    Moves R (task.bind next) := by
  induction first with
  | done a => exact rest a
  | act admitted _ ih => exact .act admitted ih
  | sleep d _ ih => exact .sleep d ih

theorem besideSleeper {resume : Task σ β → Task σ γ} {wake : β → Task σ γ}
    (resumed : ∀ {task}, Moves R task → Moves R (resume task)) (woken : ∀ b, Moves R (wake b)) {task : Task σ β}
    (two : Moves R task) (left : Nat) : Moves R (Task.besideSleeper resume wake left task) := by
  induction two generalizing left with
  | done b => exact .sleep left (woken b)
  | act admitted _ ih => exact .act admitted fun s => ih s left
  | sleep d later ih =>
    simp only [Task.besideSleeper]
    split
    · exact .sleep left (resumed (.sleep _ later))
    · split
      · exact .sleep d (ih _)
      · exact .sleep left (resumed later)

theorem both {first : Task σ α} {second : Task σ β} (one : Moves R first) (two : Moves R second) :
    Moves R (first.both second) := by
  induction one generalizing second with
  | done a => exact two.bind fun b => .done (a, b)
  | act admitted _ ih => exact .act admitted fun s => ih s two
  | sleep d later ih =>
    exact besideSleeper (fun two => ih two) (fun b => later.bind fun a => .done (a, b)) two d

theorem all {tasks : List (Task σ α)} (each : ∀ task ∈ tasks, Moves R task) : Moves R (Task.all tasks) := by
  induction tasks with
  | nil => exact .done []
  | cons task tasks ih =>
    obtain ⟨first, others⟩ := List.forall_mem_cons.mp each
    exact (first.both (ih others)).bind fun _ => .done _

/-- What the steps of a task keep holds in the end if it holds at first. -/
theorem run {task : Task σ α} (moves : Moves R task) {I : σ → Prop} (keeps : ∀ s s', R s s' → I s → I s') {s : σ}
    (holds : I s) : I (task.run s).2 := by
  induction moves generalizing s with
  | done a => exact holds
  | act admitted _ ih => exact ih s (keeps _ _ (admitted s) holds)
  | sleep d _ ih => exact ih holds

theorem runWithin {task : Task σ α} (moves : Moves R task) {I : σ → Prop} (keeps : ∀ s s', R s s' → I s → I s')
    (left : Nat) {s : σ} (holds : I s) : I (task.runWithin left s).2 := by
  induction moves generalizing left s with
  | done a => exact holds
  | act admitted _ ih => exact ih s left (keeps _ _ (admitted s) holds)
  | sleep d _ ih =>
    simp only [Task.runWithin]
    split
    · exact ih (left - d) holds
    · exact holds

theorem mono {S : σ → σ → Prop} (weaker : ∀ s s', R s s' → S s s') {task : Task σ α} (moves : Moves R task) :
    Moves S task := by
  induction moves with
  | done a => exact .done a
  | act admitted _ ih => exact .act (fun s => weaker _ _ (admitted s)) ih
  | sleep d _ ih => exact .sleep d ih

/-- The steps of a task as a relation to any other task. -/
def relation (R : σ → σ → Prop) : TaskRelation σ σ where
  Holds task _ := Moves R task
  done := .done
  bind := bind

end Moves

end SelectionEngine.Task
