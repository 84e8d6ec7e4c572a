import SelectionEngine.Proofs.Execution.Mutations
import SelectionEngine.Proofs.Task.Timing

namespace SelectionEngine

namespace Task

variable {σ α : Type} {task : Task σ α} {s : σ} {time : Nat}

theorem steps_ne_of_no_wakeUp (later : 0 < time) (asleep : time ∉ task.wakeUps 0 s) :
    ∀ step ∈ task.steps 0 s, step.1 ≠ time := by
  intro step member same
  rcases (time_of_mem_steps member).2 with atOnce | woken
  · omega
  · exact asleep (same ▸ woken)

theorem endTime_ne_of_no_wakeUp (later : 0 < time) (asleep : time ∉ task.wakeUps 0 s) :
    task.endTime 0 s ≠ time := by
  intro same
  rcases task.endTime_mem 0 s with atOnce | woken
  · omega
  · exact asleep (same ▸ woken)

/-- Where no sleep ends at a time, each step of a run is before it or after it. -/
theorem steps_before_and_after (later : 0 < time) (asleep : time ∉ task.wakeUps 0 s) :
    ∃ before after, task.steps 0 s = before ++ after ∧ (∀ step ∈ before, step.1 < time) ∧
      (∀ step ∈ after, time < step.1) ∧
      (task.steps 0 s).filter (fun step => step.1 ≤ time) = before := by
  refine ⟨_, _, (steps_split (task.steps_inOrder 0 s) time).symm, fun step member => ?_, fun step member => ?_, rfl⟩
  · obtain ⟨taken, inTime⟩ := List.mem_filter.mp member
    have upTo : step.1 ≤ time := of_decide_eq_true inTime
    exact Nat.lt_of_le_of_ne upTo (steps_ne_of_no_wakeUp later asleep step taken)
  · exact of_decide_eq_true (List.mem_filter.mp member).2

end Task

namespace Schema

variable {σ : Type} {schema : Schema σ} {settings : ExecutionSettings} {request : Request} {root : Value}
  {state : σ}

/-- A request that is over before its deadline is answered as it is without one.
Any other one is answered with the one error that its deadline passed, and the
state is left as the steps before the deadline make it, all of which are taken
as a whole, and none of those after it. -/
theorem deadline_cuts {deadline : Duration} (positive : 0 < deadline.nanoseconds)
    (unlimited : settings.deadline = none) {task : Task σ (Completed Object)}
    (accepted : schema.prepare settings request root = .ok task)
    (asleep : deadline.nanoseconds ∉ task.wakeUps 0 state) :
    let whole := schema.execute settings request root state
    let cut := schema.execute { settings with deadline := some deadline } request root state
    (task.endTime 0 state < deadline.nanoseconds → cut = whole) ∧
      (deadline.nanoseconds ≤ task.endTime 0 state →
        cut.1.data = none ∧
        cut.1.errors = [Reportable.report (RequestError.deadlineExceeded deadline) none] ∧
        ∃ before after, task.steps 0 state = before ++ after ∧
          (∀ step ∈ before, step.1 < deadline.nanoseconds) ∧ (∀ step ∈ after, deadline.nanoseconds < step.1) ∧
          cut.2 = Task.afterSteps before state ∧ whole.2 = Task.afterSteps after cut.2) := by
  have unchanged : schema.prepare { settings with deadline := some deadline } request root = .ok task := accepted
  have whole : schema.execute settings request root state = (respond (task.run state).1, (task.run state).2) := by
    simp only [execute, accepted, unlimited]
  refine ⟨fun early => ?_, fun late => ?_⟩
  · have inTime : task.endTime 0 state ≤ 0 + deadline.nanoseconds := by omega
    rw [whole]
    simp only [execute, unchanged, Task.runWithin_of_endTime inTime]
  · have other := Task.endTime_ne_of_no_wakeUp positive asleep
    have tooLate : 0 + deadline.nanoseconds < task.endTime 0 state := by omega
    obtain ⟨before, after, taken, early, further, upTo⟩ := Task.steps_before_and_after positive asleep
    have cut : schema.execute { settings with deadline := some deadline } request root state =
        (.ofError (Reportable.report (RequestError.deadlineExceeded deadline) none),
          Task.afterSteps before state) := by
      have stopped := Task.runWithin_of_lt_endTime tooLate
      rw [Nat.zero_add, upTo] at stopped
      simp only [execute, unchanged, stopped]
    have ends : (task.run state).2 = Task.afterSteps after (Task.afterSteps before state) := by
      rw [Task.run_eq_afterSteps task 0 state, taken, Task.afterSteps_append]
    rw [whole, cut]
    exact ⟨rfl, rfl, before, after, taken, early, further, rfl, ends⟩

/-- A field that takes four units of time, and an object that takes one,
with fields of its own. -/
def diarySchema : Schema (List String) :=
  [.object { name := "Page", fields := [
      { name := "left", type := .builtIn .int, resolver := some ((scribe "left" (.value (.int 1))).delayed 4) },
      { name := "right", type := .builtIn .int
        resolver := some ((scribe "right" (.error ⟨"no", []⟩)).delayed 1) }] },
    .object { name := "Query", fields := [
      { name := "cover", type := .builtIn .int, resolver := some ((scribe "cover" (.value (.int 0))).delayed 4) },
      { name := "page", type := .named "Page"
        resolver := some ((scribe "page" (.value (.object []))).delayed 1) }] }
  ].foldl .insert .empty

def diaryRequest : Request where
  selectionSet := [.field { name := "cover" } [],
    .field { name := "page" } [.field { name := "left" } [], .field { name := "right" } []]]

/-- At time three two of the four words are written, and the error of
one field was noticed. -/
theorem deadline_cuts_diary :
    let whole := diarySchema.execute {} diaryRequest .null []
    let cut := diarySchema.execute { deadline := some ⟨3⟩ } diaryRequest .null []
    let met := diarySchema.execute { deadline := some ⟨6⟩ } diaryRequest .null []
    ∃ task, diarySchema.prepare {} diaryRequest .null = .ok task ∧ task.wakeUps 0 [] = [1, 2, 4, 5] ∧
      task.endTime 0 [] = 5 ∧ met = whole ∧ whole.2 = ["page", "right", "cover", "left"] ∧
      cut.1.data = none ∧ cut.1.errors = [Reportable.report (RequestError.deadlineExceeded ⟨3⟩) none] ∧
      cut.2 = ["page", "right"] ∧
      ∃ before after, task.steps 0 [] = before ++ after ∧ (∀ step ∈ before, step.1 < 3) ∧
        (∀ step ∈ after, 3 < step.1) ∧ cut.2 = Task.afterSteps before [] ∧
        whole.2 = Task.afterSteps after cut.2 := by
  refine ⟨_, rfl, rfl, rfl, ?_, rfl, ?_⟩
  · have inTime := @deadline_cuts _ diarySchema {} diaryRequest .null [] ⟨6⟩ (by decide) rfl _ rfl (by decide)
    exact inTime.1 (by decide)
  · have late := @deadline_cuts _ diarySchema {} diaryRequest .null [] ⟨3⟩ (by decide) rfl _ rfl (by decide)
    obtain ⟨data, errors, steps⟩ := late.2 (by decide)
    exact ⟨data, errors, rfl, steps⟩

end Schema

end SelectionEngine
