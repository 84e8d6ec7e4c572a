import Mathlib.Data.Option.Basic
import SelectionEngine.Proofs.Task.Logging
import SelectionEngine.Proofs.Task.Sequencing

namespace SelectionEngine.Task

variable {σ τ α β γ α' β' γ' : Type} {view : τ → σ} {R : α → α' → Prop} {S : β → β' → Prop}

/-- Two tasks go side by side: they take the same steps, as far as states are
seen, and sleep alike. Their results may differ and are only related. -/
inductive Tracks (view : τ → σ) (R : α → α' → Prop) : Task σ α → Task τ α' → Prop
  | done {a : α} {a' : α'} : R a a' → Tracks view R (done a) (done a')
  | act {step next fine further} : (∀ t, view (fine t) = step (view t)) →
      (∀ t, Tracks view R (next (view t)) (further t)) → Tracks view R (act step next) (act fine further)
  | sleep {next further} (d : Nat) : Tracks view R next further → Tracks view R (sleep d next) (sleep d further)

namespace Tracks

theorem bind {task : Task σ α} {fine : Task τ α'} {next : α → Task σ β} {further : α' → Task τ β'}
    (first : Tracks view R task fine) (rest : ∀ a a', R a a' → Tracks view S (next a) (further a')) :
    Tracks view S (task.bind next) (fine.bind further) := by
  induction first with
  | done related => exact rest _ _ related
  | act seen _ ih => exact .act seen ih
  | sleep d _ ih => exact .sleep d ih

theorem besideSleeper {T : γ → γ' → Prop} {resume : Task σ β → Task σ γ} {wake : β → Task σ γ}
    {resumeFine : Task τ β' → Task τ γ'} {wakeFine : β' → Task τ γ'}
    (resumed : ∀ {task fine}, Tracks view S task fine → Tracks view T (resume task) (resumeFine fine))
    (woken : ∀ b b', S b b' → Tracks view T (wake b) (wakeFine b')) {task : Task σ β} {fine : Task τ β'}
    (two : Tracks view S task fine) (left : Nat) :
    Tracks view T (Task.besideSleeper resume wake left task)
      (Task.besideSleeper resumeFine wakeFine left fine) := by
  induction two generalizing left with
  | done related => exact .sleep left (woken _ _ related)
  | act seen _ ih => exact .act seen fun t => ih t left
  | sleep d later ih =>
    simp only [Task.besideSleeper]
    split
    · exact .sleep left (resumed (.sleep _ later))
    · split
      · exact .sleep d (ih _)
      · exact .sleep left (resumed later)

theorem both {first : Task σ α} {second : Task σ β} {firstFine : Task τ α'} {secondFine : Task τ β'}
    (one : Tracks view R first firstFine) (two : Tracks view S second secondFine) :
    Tracks view (fun pair pair' => R pair.1 pair'.1 ∧ S pair.2 pair'.2) (first.both second)
      (firstFine.both secondFine) := by
  induction one generalizing second secondFine with
  | done related => exact two.bind fun _ _ other => .done ⟨related, other⟩
  | act seen _ ih => exact .act seen fun t => ih t two
  | sleep d later ih =>
    exact besideSleeper (fun two => ih two)
      (fun _ _ other => later.bind fun _ _ related => .done ⟨related, other⟩) two d

theorem all {tasks : List (Task σ α)} {fine : List (Task τ α')}
    (related : List.Forall₂ (Tracks view R) tasks fine) :
    Tracks view (List.Forall₂ R) (Task.all tasks) (Task.all fine) := by
  induction related with
  | nil => exact .done .nil
  | cons first _ ih => exact (first.both ih).bind fun _ _ both => .done (.cons both.1 both.2)

theorem inTurn {tasks : List (Task σ α)} {fine : List (Task τ α')}
    (related : List.Forall₂ (Tracks view R) tasks fine) :
    Tracks view (List.Forall₂ R) (Task.inTurn tasks) (Task.inTurn fine) := by
  induction related with
  | nil => exact .done .nil
  | cons first _ ih => exact first.bind fun _ _ one => ih.bind fun _ _ others => .done (.cons one others)

/-- A task goes side by side with itself. -/
theorem refl (task : Task σ α) : Tracks id Eq task task := by
  induction task with
  | done a => exact .done rfl
  | act step next ih => exact .act (fun _ => rfl) ih
  | sleep d next ih => exact .sleep d ih

/-- Tasks side by side stay so when each keeps notes of its own,
which are seen one by one. -/
theorem noting {ε ε' : Type} {task : Task σ α} {fine : Task τ α'} (tracks : Tracks view R task fine) (read : ε' → ε)
    {note : α → ε} {noteFine : α' → ε'} (same : ∀ a a', R a a' → note a = read (noteFine a')) :
    Tracks (fun t : τ × List ε' => (view t.1, t.2.map read)) R (task.noting note) (fine.noting noteFine) := by
  have beside : Tracks (fun t : τ × List ε' => (view t.1, t.2.map read)) R task.besideNotes fine.besideNotes := by
    clear same
    induction tracks with
    | done related => exact .done related
    | act seen _ ih => exact .act (fun t => by rw [seen]) fun t => ih t.1
    | sleep d _ ih => exact .sleep d ih
  refine beside.bind fun a a' related => .act (fun t => ?_) fun _ => .done related
  simp only [same a a' related, List.map_append, List.map_cons, List.map_nil]

theorem run {task : Task σ α} {fine : Task τ α'} (tracks : Tracks view R task fine) (t : τ) :
    R (task.run (view t)).1 (fine.run t).1 ∧ (task.run (view t)).2 = view (fine.run t).2 := by
  induction tracks generalizing t with
  | done related => exact ⟨related, rfl⟩
  | @act step next fine further seen _ ih => simpa only [Task.run, seen] using ih t (fine t)
  | sleep d _ ih => exact ih t

/-- Tasks side by side are late together. -/
theorem runWithin {task : Task σ α} {fine : Task τ α'} (tracks : Tracks view R task fine) (left : Nat) (t : τ) :
    Option.Rel R (task.runWithin left (view t)).1 (fine.runWithin left t).1 ∧
      (task.runWithin left (view t)).2 = view (fine.runWithin left t).2 := by
  induction tracks generalizing left t with
  | done related => exact ⟨.some related, rfl⟩
  | @act step next fine further seen _ ih => simpa only [Task.runWithin, seen] using ih t left (fine t)
  | sleep d _ ih =>
    simp only [Task.runWithin]
    split
    · exact ih (left - d) t
    · exact ⟨.none, rfl⟩

end Tracks

end SelectionEngine.Task
