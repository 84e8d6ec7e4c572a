import SelectionEngine.Proofs.Task.Logging

namespace SelectionEngine.Task

variable {σ ε ι α β : Type}

/-- The task that with each of its steps notes down something about the
state before and after it. -/
def watched (note : σ → σ → ε) : Task σ α → Task (σ × List ε) α
  | done a => done a
  | act step next => act (fun s => (step s.1, s.2 ++ [note s.1 (step s.1)])) fun s => (next s.1).watched note
  | sleep d next => sleep d (next.watched note)

theorem watched_bind (note : σ → σ → ε) (task : Task σ α) (next : α → Task σ β) :
    (task.bind next).watched note = (task.watched note).bind fun a => (next a).watched note := by
  induction task with
  | done a => rfl
  | act step rest ih => simp only [Task.bind, watched, ih]
  | sleep d rest ih => simp only [Task.bind, watched, ih]

theorem refines_watched (note : σ → σ → ε) (task : Task σ α) : Refines Prod.fst task (task.watched note) := by
  induction task with
  | done a => exact .done a
  | act step next ih => exact .act (fun _ => rfl) fun s => ih s.1
  | sleep d next ih => exact .sleep d ih

/-- A state with those of the notes that a question finds something in. -/
def sifted (f : ε → Option ι) (s : σ × List ε) : σ × List ι := (s.1, s.2.filterMap f)

/-- Notes about steps are left where the question is about them. -/
theorem watched_refines_watched (note : σ → σ → ε) (other : σ → σ → ι) {f : ε → Option ι}
    (kept : ∀ s s', f (note s s') = some (other s s')) (task : Task σ α) :
    Refines (sifted f) (task.watched other) (task.watched note) := by
  induction task with
  | done a => exact .done a
  | act step next ih => exact .act (fun s => by simp [sifted, kept]) fun s => ih s.1
  | sleep d next ih => exact .sleep d ih

theorem besideNotes_refines_watched {note : σ → σ → ε} {f : ε → Option ι} (dropped : ∀ s s', f (note s s') = none)
    (task : Task σ α) : Refines (sifted f) task.besideNotes (task.watched note) := by
  induction task with
  | done a => exact .done a
  | act step next ih => exact .act (fun s => by simp [sifted, dropped]) fun s => ih s.1
  | sleep d next ih => exact .sleep d ih

/-- The step is the one that is noted down with it. -/
def NotesStep (note : σ → σ → ε) (s s' : σ × List ε) : Prop := s'.2 = s.2 ++ [note s.1 s'.1]

theorem moves_watched (note : σ → σ → ε) (task : Task σ α) : Moves (NotesStep note) (task.watched note) := by
  induction task with
  | done a => exact .done a
  | act step next ih => exact .act (fun _ => rfl) fun s => ih s.1
  | sleep d next ih => exact .sleep d ih

theorem Logs.act_watched {note : σ → σ → ε} {step : σ → σ} {next : σ → Task σ α} {s : σ} {now finish : Nat}
    {log : List (Nat × ε)} {a : α} (logs : Logs ((next s).watched note) now log a finish) :
    Logs ((Task.act step next).watched note) now ((now, note s (step s)) :: log) a finish :=
  @Logs.act _ _ _ (fun t => (step t.1, t.2 ++ [note t.1 (step t.1)])) (fun t => (next t.1).watched note) s []
    [note s (step s)] now log a finish rfl logs

/-- What is noted of the steps can be told from the notes of another kind
that are made of them. -/
theorem Logs.of_watched_comp {f : ε → ι} {note : σ → σ → ε} {task : Task σ α} {now finish : Nat}
    {log : List (Nat × ι)} {a : α} (logs : Logs (task.watched fun s s' => f (note s s')) now log a finish) :
    ∃ steps, Logs (task.watched note) now steps a finish ∧ log = steps.map fun step => (step.1, f step.2) := by
  induction task generalizing now log with
  | done b =>
    cases logs
    exact ⟨[], .done _ _, rfl⟩
  | act step next ih =>
    cases logs with
    | @act _ _ s notes written _ later _ _ adds logs =>
      obtain rfl : [f (note s (step s))] = written := List.append_cancel_left adds
      obtain ⟨steps, logged, rfl⟩ := ih s logs
      exact ⟨(now, note s (step s)) :: steps, logged.act_watched, rfl⟩
  | sleep d next ih =>
    cases logs with
    | sleep _ logs =>
      obtain ⟨steps, logs, same⟩ := ih logs
      exact ⟨steps, .sleep d logs, same⟩

theorem Logs.of_watched {note : σ → σ → ε} {task : Task σ α} {now finish : Nat} {log : List (Nat × ε)} {a : α}
    (logs : Logs (task.watched note) now log a finish) : ∀ entry ∈ log, ∃ s s', entry.2 = note s s' := by
  induction task generalizing now log with
  | done b =>
    cases logs
    exact nofun
  | act step next ih =>
    cases logs with
    | @act _ _ s notes written _ later _ _ adds logs =>
      obtain rfl : [note s (step s)] = written := List.append_cancel_left adds
      exact List.forall_mem_cons.mpr ⟨⟨s, step s, rfl⟩, ih s logs⟩
  | sleep d next ih =>
    cases logs with
    | sleep _ logs => exact ih logs

end SelectionEngine.Task
