import SelectionEngine.Proofs.Task.Sequencing

namespace SelectionEngine.Task

variable {σ τ α β γ : Type} {view : τ → σ}

/-- The second task does on its states what the first one does on what is seen
of them, and meanwhile may take further steps of which nothing is seen. -/
inductive Refines (view : τ → σ) : Task σ α → Task τ α → Prop
  | done (a : α) : Refines view (done a) (done a)
  | act {step next fine further} :
      (∀ t, view (fine t) = step (view t)) → (∀ t, Refines view (next (view t)) (further t)) →
      Refines view (act step next) (act fine further)
  | aside {task fine further} :
      (∀ t, view (fine t) = view t) → (∀ t, Refines view task (further t)) → Refines view task (act fine further)
  | sleep {next further} (d : Nat) : Refines view next further → Refines view (sleep d next) (sleep d further)

namespace Refines

theorem bind {task : Task σ α} {fine : Task τ α} {next : α → Task σ β} {further : α → Task τ β}
    (first : Refines view task fine) (rest : ∀ a, Refines view (next a) (further a)) :
    Refines view (task.bind next) (fine.bind further) := by
  induction first with
  | done a => exact rest a
  | act seen _ ih => exact .act seen ih
  | aside unseen _ ih => exact .aside unseen ih
  | sleep d _ ih => exact .sleep d ih

theorem besideSleeper {resume : Task σ β → Task σ γ} {wake : β → Task σ γ} {resumeFine : Task τ β → Task τ γ}
    {wakeFine : β → Task τ γ}
    (resumed : ∀ {task fine}, Refines view task fine → Refines view (resume task) (resumeFine fine))
    (woken : ∀ b, Refines view (wake b) (wakeFine b)) {task : Task σ β} {fine : Task τ β}
    (two : Refines view task fine) (left : Nat) :
    Refines view (Task.besideSleeper resume wake left task)
      (Task.besideSleeper resumeFine wakeFine left fine) := by
  induction two generalizing left with
  | done b => exact .sleep left (woken b)
  | act seen _ ih => exact .act seen fun t => ih t left
  | aside unseen _ ih => exact .aside unseen fun t => ih t left
  | sleep d later ih =>
    simp only [Task.besideSleeper]
    split
    · exact .sleep left (resumed (.sleep _ later))
    · split
      · exact .sleep d (ih _)
      · exact .sleep left (resumed later)

theorem both {first : Task σ α} {second : Task σ β} {firstFine : Task τ α} {secondFine : Task τ β}
    (one : Refines view first firstFine) (two : Refines view second secondFine) :
    Refines view (first.both second) (firstFine.both secondFine) := by
  induction one generalizing second secondFine with
  | done a => exact two.bind fun b => .done (a, b)
  | act seen _ ih => exact .act seen fun t => ih t two
  | aside unseen _ ih => exact .aside unseen fun t => ih t two
  | sleep d later ih =>
    exact besideSleeper (fun two => ih two) (fun b => later.bind fun a => .done (a, b)) two d

theorem all {tasks : List (Task σ α)} {fine : List (Task τ α)}
    (related : List.Forall₂ (Refines view) tasks fine) : Refines view (Task.all tasks) (Task.all fine) := by
  induction related with
  | nil => exact .done []
  | cons first _ ih => exact (first.both ih).bind fun _ => .done _

/-- Refinement as a relation between tasks. -/
def relation (view : τ → σ) : TaskRelation σ τ where
  Holds := Refines view
  done := .done
  bind := bind

/-- What is seen of a run is the run of what is seen. -/
theorem run {task : Task σ α} {fine : Task τ α} (related : Refines view task fine) (t : τ) :
    (fine.run t).1 = (task.run (view t)).1 ∧ view (fine.run t).2 = (task.run (view t)).2 := by
  induction related generalizing t with
  | done a => exact ⟨rfl, rfl⟩
  | @act step next fine further seen _ ih => simpa only [Task.run, seen] using ih t (fine t)
  | @aside task fine further unseen _ ih => simpa only [Task.run, unseen] using ih t (fine t)
  | sleep d _ ih => exact ih t

theorem runWithin {task : Task σ α} {fine : Task τ α} (related : Refines view task fine) (left : Nat) (t : τ) :
    (fine.runWithin left t).1 = (task.runWithin left (view t)).1 ∧
      view (fine.runWithin left t).2 = (task.runWithin left (view t)).2 := by
  induction related generalizing left t with
  | done a => exact ⟨rfl, rfl⟩
  | @act step next fine further seen _ ih => simpa only [Task.runWithin, seen] using ih t left (fine t)
  | @aside task fine further unseen _ ih => simpa only [Task.runWithin, unseen] using ih t left (fine t)
  | sleep d _ ih =>
    simp only [Task.runWithin]
    split
    · exact ih (left - d) t
    · exact ⟨rfl, rfl⟩

end Refines

end SelectionEngine.Task
