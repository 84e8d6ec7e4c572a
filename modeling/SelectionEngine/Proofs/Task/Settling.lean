import SelectionEngine.Proofs.Task.Sequencing

namespace SelectionEngine.Task

variable {σ α β γ : Type}

/-- The task ends with the result, whatever happens to the state meanwhile. -/
def Settles : Task σ α → α → Prop
  | done a, b => a = b
  | act _ next, b => ∀ s, (next s).Settles b
  | sleep _ next, b => next.Settles b

namespace Settles

theorem run {task : Task σ α} {a : α} (settles : task.Settles a) (s : σ) : (task.run s).1 = a := by
  induction task generalizing s with
  | done b => exact settles
  | act step next ih => exact ih s (settles s) (step s)
  | sleep d next ih => exact ih settles s

theorem bind {task : Task σ α} {next : α → Task σ β} {a : α} {b : β} (first : task.Settles a)
    (rest : (next a).Settles b) : (task.bind next).Settles b := by
  induction task with
  | done c =>
    have same : c = a := first
    simpa only [done_bind, same] using rest
  | act step later ih => exact fun s => ih s (first s)
  | sleep d later ih => exact ih first

theorem besideSleeper {resume : Task σ β → Task σ γ} {wake : β → Task σ γ} (pair : β → γ)
    (resumed : ∀ task b, task.Settles b → (resume task).Settles (pair b))
    (woken : ∀ b, (wake b).Settles (pair b)) {left : Nat} {task : Task σ β} {b : β}
    (settles : task.Settles b) : (Task.besideSleeper resume wake left task).Settles (pair b) := by
  induction task generalizing left with
  | done c =>
    have same : c = b := settles
    exact same ▸ woken c
  | act step next ih => exact fun s => ih s (settles s)
  | sleep d next ih =>
    simp only [Task.besideSleeper]
    split
    · exact resumed (.sleep _ next) b settles
    · split
      · exact ih settles
      · exact resumed next b settles

theorem both {first : Task σ α} {second : Task σ β} {a : α} {b : β} (one : first.Settles a)
    (two : second.Settles b) : (first.both second).Settles (a, b) := by
  induction first generalizing second b with
  | done c =>
    have same : c = a := one
    subst same
    exact two.bind rfl
  | act step next ih => exact fun s => ih s (one s) two
  | sleep d next ih =>
    refine besideSleeper (fun b => (a, b)) (fun _ _ later => ih one later) (fun b => ?_) two
    exact bind one rfl

theorem all {tasks : List (Task σ α)} {as : List α} (settle : List.Forall₂ Settles tasks as) :
    (Task.all tasks).Settles as := by
  induction settle with
  | nil => rfl
  | cons one _ ih => exact (one.both ih).bind rfl

theorem inTurn {tasks : List (Task σ α)} {as : List α} (settle : List.Forall₂ Settles tasks as) :
    (Task.inTurn tasks).Settles as := by
  induction settle with
  | nil => rfl
  | cons one _ ih => exact one.bind (ih.bind rfl)

end Settles

end SelectionEngine.Task
