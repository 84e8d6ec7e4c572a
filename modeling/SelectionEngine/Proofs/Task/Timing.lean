import SelectionEngine.Proofs.Task.Sequencing

namespace SelectionEngine.Task

variable {σ α : Type}

/-- The steps that a task takes on the state in a run that starts now, each with
the time of the step. -/
def steps : Task σ α → Nat → σ → List (Nat × (σ → σ))
  | done _, _, _ => []
  | act step next, now, s => (now, step) :: (next s).steps now (step s)
  | sleep d next, now, s => next.steps (now + d) s

/-- The times at which sleeps end in a run that starts now. -/
def wakeUps : Task σ α → Nat → σ → List Nat
  | done _, _, _ => []
  | act step next, now, s => (next s).wakeUps now (step s)
  | sleep d next, now, s => (now + d) :: next.wakeUps (now + d) s

/-- When a run that starts now is over. -/
def endTime : Task σ α → Nat → σ → Nat
  | done _, now, _ => now
  | act step next, now, s => (next s).endTime now (step s)
  | sleep d next, now, s => next.endTime (now + d) s

/-- The state after steps taken one after another, each of them as a whole. -/
def afterSteps (steps : List (Nat × (σ → σ))) (s : σ) : σ := steps.foldl (fun s step => step.2 s) s

theorem afterSteps_append (front back : List (Nat × (σ → σ))) (s : σ) :
    afterSteps (front ++ back) s = afterSteps back (afterSteps front s) :=
  List.foldl_append

theorem run_eq_afterSteps (task : Task σ α) (now : Nat) (s : σ) :
    (task.run s).2 = afterSteps (task.steps now s) s := by
  induction task generalizing now s with
  | done a => rfl
  | act step next ih => exact ih s now (step s)
  | sleep d next ih => exact ih (now + d) s

theorem le_endTime (task : Task σ α) (now : Nat) (s : σ) : now ≤ task.endTime now s := by
  induction task generalizing now s with
  | done a => exact Nat.le_refl now
  | act step next ih => exact ih s now (step s)
  | sleep d next ih => exact Nat.le_trans (Nat.le_add_right now d) (ih (now + d) s)

theorem endTime_mem (task : Task σ α) (now : Nat) (s : σ) :
    task.endTime now s = now ∨ task.endTime now s ∈ task.wakeUps now s := by
  induction task generalizing now s with
  | done a => exact .inl rfl
  | act step next ih => exact ih s now (step s)
  | sleep d next ih =>
    rcases ih (now + d) s with atOnce | later
    · exact .inr (List.mem_cons.mpr (.inl atOnce))
    · exact .inr (.tail _ later)

theorem time_of_mem_steps {task : Task σ α} {now : Nat} {s : σ} {step : Nat × (σ → σ)}
    (member : step ∈ task.steps now s) : now ≤ step.1 ∧ (step.1 = now ∨ step.1 ∈ task.wakeUps now s) := by
  induction task generalizing now s with
  | done a => cases member
  | act first next ih =>
    rcases List.mem_cons.mp member with rfl | later
    · exact ⟨Nat.le_refl _, .inl rfl⟩
    · exact ih s later
  | sleep d next ih =>
    obtain ⟨after, time⟩ := ih member
    refine ⟨Nat.le_trans (Nat.le_add_right now d) after, .inr ?_⟩
    rcases time with atOnce | later
    · exact List.mem_cons.mpr (.inl atOnce)
    · exact .tail _ later

theorem steps_inOrder (task : Task σ α) (now : Nat) (s : σ) :
    (task.steps now s).Pairwise fun one two => one.1 ≤ two.1 := by
  induction task generalizing now s with
  | done a => exact .nil
  | act first next ih =>
    exact List.pairwise_cons.mpr ⟨fun _ later => (time_of_mem_steps later).1, ih s now (first s)⟩
  | sleep d next ih => exact ih (now + d) s

theorem runWithin_of_endTime {task : Task σ α} {now left : Nat} {s : σ} (inTime : task.endTime now s ≤ now + left) :
    task.runWithin left s = (some (task.run s).1, (task.run s).2) := by
  induction task generalizing now left s with
  | done a => rfl
  | act step next ih => exact ih s inTime
  | sleep d next ih =>
    have awake : now + d ≤ next.endTime (now + d) s := le_endTime next (now + d) s
    have ended : next.endTime (now + d) s ≤ now + left := inTime
    have short : d ≤ left := by omega
    have later : next.endTime (now + d) s ≤ now + d + (left - d) := by omega
    rw [runWithin, if_pos short]
    exact ih later

/-- A run that is not over in time has no result. Its steps up to
then were taken. -/
theorem runWithin_of_lt_endTime {task : Task σ α} {now left : Nat} {s : σ}
    (late : now + left < task.endTime now s) :
    task.runWithin left s =
      (none, afterSteps ((task.steps now s).filter fun step => step.1 ≤ now + left) s) := by
  induction task generalizing now left s with
  | done a => exact absurd late (Nat.not_lt.mpr (Nat.le_add_right now left))
  | act step next ih =>
    rw [runWithin, ih s late, steps, List.filter_cons_of_pos (by simp)]
    rfl
  | sleep d next ih =>
    rw [runWithin, steps]
    split
    · next short =>
      have time : now + d + (left - d) = now + left := by omega
      have later : now + d + (left - d) < next.endTime (now + d) s := time ▸ late
      rw [ih later, time]
    · next long =>
      -- the run stops here, and the steps after this sleep come too late
      have none : (next.steps (now + d) s).filter (fun step => step.1 ≤ now + left) = [] := by
        refine List.filter_eq_nil_iff.mpr fun step member inTime => ?_
        have after : now + d ≤ step.1 := (time_of_mem_steps member).1
        have before : step.1 ≤ now + left := of_decide_eq_true inTime
        omega
      rw [none]
      rfl

/-- What is in order by time is what happens up to a time and
then what happens later. -/
theorem steps_split {steps : List (Nat × (σ → σ))} (inOrder : steps.Pairwise fun one two => one.1 ≤ two.1)
    (time : Nat) :
    steps.filter (fun step => step.1 ≤ time) ++ steps.filter (fun step => time < step.1) = steps := by
  induction steps with
  | nil => rfl
  | cons first rest ih =>
    obtain ⟨least, inOrder⟩ := List.pairwise_cons.mp inOrder
    by_cases early : first.1 ≤ time
    · rw [List.filter_cons_of_pos (by simpa using early), List.filter_cons_of_neg (by simpa using early),
        List.cons_append, ih inOrder]
    · have late : time < first.1 := Nat.lt_of_not_le early
      have none : rest.filter (fun step => step.1 ≤ time) = [] := by
        refine List.filter_eq_nil_iff.mpr fun step member inTime => ?_
        have after := least step member
        have before : step.1 ≤ time := of_decide_eq_true inTime
        omega
      have all : rest.filter (fun step => time < step.1) = rest :=
        List.filter_eq_self.mpr fun step member => decide_eq_true (Nat.lt_of_lt_of_le late (least step member))
      rw [List.filter_cons_of_neg (by simpa using early), List.filter_cons_of_pos (by simpa using late), none, all]
      rfl

end SelectionEngine.Task
