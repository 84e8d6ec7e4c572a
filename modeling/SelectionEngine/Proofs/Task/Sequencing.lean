import Mathlib.Data.List.Forall2
import SelectionEngine.Task

namespace SelectionEngine

variable {σ τ α β : Type}

namespace Task

@[simp] theorem done_bind (a : α) (next : α → Task σ β) : (done a).bind next = next a := rfl

theorem bind_done (task : Task σ α) : task.bind done = task := by
  induction task with
  | done a => rfl
  | act step next ih => simp only [Task.bind, ih]
  | sleep d next ih => simp only [Task.bind, ih]

theorem bind_bind {γ : Type} (task : Task σ α) (next : α → Task σ β) (last : β → Task σ γ) :
    (task.bind next).bind last = task.bind fun a => (next a).bind last := by
  induction task with
  | done a => rfl
  | act step rest ih => simp only [Task.bind, ih]
  | sleep d rest ih => simp only [Task.bind, ih]

theorem run_bind (task : Task σ α) (next : α → Task σ β) (s : σ) :
    (task.bind next).run s = (next (task.run s).1).run (task.run s).2 := by
  induction task generalizing s with
  | done a => rfl
  | act step rest ih => exact ih s (step s)
  | sleep d rest ih => exact ih s

theorem run_inTurn_append (front back : List (Task σ α)) (s : σ) :
    (inTurn (front ++ back)).run s =
      let first := (inTurn front).run s
      let second := (inTurn back).run first.2
      (first.1 ++ second.1, second.2) := by
  induction front generalizing s with
  | nil => rfl
  | cons task front ih =>
    simp only [List.cons_append, inTurn, run_bind, ih]
    rfl

theorem length_run_inTurn (tasks : List (Task σ α)) (s : σ) :
    ((inTurn tasks).run s).1.length = tasks.length := by
  induction tasks generalizing s with
  | nil => rfl
  | cons task tasks ih =>
    simp only [inTurn, run_bind, List.length_cons, ← ih (task.run s).2]
    rfl

/-- A task that ends within its time ends as it does without a limit. -/
theorem run_eq_of_runWithin {task : Task σ α} {left : Nat} {s s' : σ} {a : α}
    (ends : task.runWithin left s = (some a, s')) : task.run s = (a, s') := by
  induction task generalizing left s with
  | done b =>
    obtain ⟨rfl, rfl⟩ : b = a ∧ s = s' := by simpa [runWithin] using ends
    rfl
  | act step next ih => exact ih s ends
  | sleep d next ih =>
    by_cases inTime : d ≤ left
    · exact ih (by simpa only [runWithin, if_pos inTime] using ends)
    · simp [runWithin, inTime] at ends

end Task

/-- A relation between tasks on two kinds of states that sequencing respects. -/
structure TaskRelation (σ τ : Type) where
  Holds : {α : Type} → Task σ α → Task τ α → Prop
  done {α : Type} (a : α) : Holds (.done a) (.done a)
  bind {α β : Type} {task : Task σ α} {other : Task τ α} {next : α → Task σ β} {otherNext : α → Task τ β}
    (first : Holds task other) (rest : ∀ a, Holds (next a) (otherNext a)) :
    Holds (task.bind next) (other.bind otherNext)

theorem TaskRelation.inTurn (R : TaskRelation σ τ) {tasks : List (Task σ α)} {others : List (Task τ α)}
    (related : List.Forall₂ R.Holds tasks others) : R.Holds (.inTurn tasks) (.inTurn others) := by
  induction related with
  | nil => exact R.done []
  | cons first _ ih => exact R.bind first fun a => R.bind ih fun as => R.done (a :: as)

end SelectionEngine
