import SelectionEngine.Proofs.Execution.Acts
import SelectionEngine.Proofs.Execution.Positions
import SelectionEngine.Proofs.Task.Sleeping

namespace SelectionEngine

variable {ρ σ : Type}

/-- One task that never sleeps. -/
def Task.awake (σ : Type) : TaskRelation σ σ where
  Holds task other := task.Sleepless ∧ task = other
  done a := ⟨trivial, rfl⟩
  bind := by
    rintro _ _ task _ next otherNext ⟨first, rfl⟩ rest
    have later : next = otherNext := funext fun a => (rest a).2
    exact ⟨first.bind fun a => (rest a).1, later ▸ rfl⟩

theorem Task.awake_forall₂ {α : Type} {tasks others : List (Task σ α)}
    (related : List.Forall₂ (Task.awake σ).Holds tasks others) :
    (∀ task ∈ tasks, task.Sleepless) ∧ tasks = others := by
  induction related with
  | nil => exact ⟨nofun, rfl⟩
  | cons first _ ih => exact ⟨List.forall_mem_cons.mpr ⟨first.1, ih.1⟩, by rw [first.2, ih.2]⟩

theorem Run.gather_of_sleepless (run : Run ρ σ) {α : Type} {tasks : List (Task σ α)}
    (sleepless : ∀ task ∈ tasks, task.Sleepless) : run.gather tasks = .inTurn tasks := by
  unfold gather
  split
  · exact Task.Sleepless.all_eq sleepless
  · rfl

/-- Where no field takes time, it makes no difference whether fields are
worked on at the same time. -/
theorem Run.awake_related {run other : Run ρ σ} (schema : run.schema = other.schema)
    (variableValues : run.variableValues = other.variableValues)
    (dispatch : ∀ info, (Task.awake σ).Holds (run.dispatch info) (other.dispatch info)) :
    run.Related (Task.awake σ) other where
  schema := by rw [schema]
  variableValues := variableValues
  gather related := by
    obtain ⟨sleepless, rfl⟩ := Task.awake_forall₂ related
    rw [run.gather_of_sleepless sleepless, other.gather_of_sleepless sleepless]
    exact ⟨Task.Sleepless.inTurn sleepless, rfl⟩
  dispatch := dispatch

namespace Schema

/-- No resolver of the schema ever sleeps. -/
def Awake (schema : Schema σ) : Prop :=
  ∀ type field resolver, schema.resolver? type field = some resolver → ∀ info, (resolver info).Sleepless

namespace Awake

variable {schema : Schema σ} (awake : schema.Awake)

include awake

theorem dispatch (info : ResolveInfo) : (schema.dispatch info).Sleepless := by
  unfold Schema.dispatch
  split
  · next resolver found => exact (awake _ _ resolver found info).bind fun _ => trivial
  · trivial

theorem watched : schema.watched.Awake := by
  intro type field resolver found info
  rw [Schema.watched, resolver?_mapResolvers] at found
  obtain ⟨own, bound, rfl⟩ := Option.map_eq_some_iff.mp found
  exact (awake type field own bound info).watched (Act.mk info)

variable {settings other : ExecutionSettings} (sameDepth : settings.maxDepth = other.maxDepth) (request : Request)
  (root : Value) (state : σ)

include sameDepth

/-- Settings about time have no effect where no resolver sleeps. -/
theorem execute_eq :
    schema.execute settings request root state = schema.execute other request root state := by
  have related : (schema.runOf settings request).Related (Task.awake σ) (schema.runOf other request) :=
    Run.awake_related rfl rfl fun info => ⟨awake.dispatch info, rfl⟩
  rcases prepare_related related sameDepth root with
    ⟨report, refused, alsoRefused⟩ | ⟨task, _, accepted, alsoAccepted, sleepless, rfl⟩
  · simp only [execute, refused, alsoRefused]
  · have whenever (settings : ExecutionSettings) (accepted : schema.prepare settings request root = .ok task) :
        schema.execute settings request root state = (respond (task.run state).1, (task.run state).2) := by
      simp only [execute, accepted]
      cases settings.deadline with
      | none => rfl
      | some deadline => simp only [sleepless.runWithin]
    rw [whenever settings accepted, whenever other alsoAccepted]

theorem acts_eq : schema.acts settings request root state = schema.acts other request root state := by
  simp only [acts, awake.watched.execute_eq sameDepth]

omit sameDepth in
theorem resolutions_eq (settings other : ExecutionSettings) :
    schema.resolutions settings request root state = schema.resolutions other request root state := by
  have related : (schema.runOf settings request).noting.Related (Task.awake _)
      (schema.runOf other request).noting :=
    Run.awake_related rfl rfl fun info => ⟨(awake.dispatch info).noting _, rfl⟩
  unfold resolutions
  split
  · rfl
  · next type _ => simp only [(related.executeObject _ _ _ type type rfl root []).2]

omit sameDepth in
theorem position?_eq (settings other : ExecutionSettings) :
    schema.position? settings request root state = schema.position? other request root state := by
  funext path
  simp only [position?, awake.resolutions_eq request root state settings other]

end Awake

end Schema

end SelectionEngine
