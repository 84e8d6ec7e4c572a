import SelectionEngine.Proofs.Execution.Tracing
import SelectionEngine.Proofs.Task.Watching

namespace SelectionEngine

open SelectionEngine.Task (Logs Refines Moves sifted)

variable {ρ σ τ ε : Type}

/-- One step that a resolver takes on the state: the field that it was asked
for, and the state that it found and left. -/
structure Act (σ : Type) where
  info : ResolveInfo
  before : σ
  after : σ

/-- What happens to fields: a resolver takes a step, or the value
of a field is there. -/
inductive Event (σ : Type) where
  | acted (act : Act σ)
  | settled (resolution : Resolution)

namespace Event

def act? : Event σ → Option (Act σ)
  | acted act => some act
  | settled _ => none

def resolution? : Event σ → Option Resolution
  | acted _ => none
  | settled resolution => some resolution

end Event

namespace Run

/-- The run that also notes down what becomes of each field that
is asked for its value. -/
def noting (run : Run ρ σ) : Run ρ (σ × List Resolution) where
  schema := run.schema
  variableValues := run.variableValues
  parallel := run.parallel
  dispatch := fun info => (run.dispatch info).noting (Resolution.mk info)

/-- The run that also notes down each step on the state. -/
def watched (run : Run ρ σ) : Run ρ (σ × List (Act σ)) where
  schema := run.schema
  variableValues := run.variableValues
  parallel := run.parallel
  dispatch := fun info => (run.dispatch info).watched (Act.mk info)

/-- The run that notes down everything that happens to its fields. -/
def chronicle (run : Run ρ σ) : Run ρ (σ × List (Event σ)) where
  schema := run.schema
  variableValues := run.variableValues
  parallel := run.parallel
  dispatch := fun info =>
    ((run.dispatch info).watched fun before after => .acted ⟨info, before, after⟩).bind fun outcome =>
      .act (fun s => (s.1, s.2 ++ [.settled ⟨info, outcome⟩])) fun _ => .done outcome

theorem refines_gather {ρ' α : Type} (view : τ → σ) {run : Run ρ σ} {other : Run ρ' τ}
    (sameWay : run.parallel = other.parallel) {tasks : List (Task σ α)} {fine : List (Task τ α)}
    (related : List.Forall₂ (Refines.relation view).Holds tasks fine) :
    (Refines.relation view).Holds (run.gather tasks) (other.gather fine) := by
  simp only [gather, ← sameWay]
  split
  · exact Refines.all related
  · exact (Refines.relation view).inTurn related

theorem moves_gather {α : Type} {R : σ → σ → Prop} {run : Run ρ σ} {tasks others : List (Task σ α)}
    (each : List.Forall₂ (fun task _ => Moves R task) tasks others) : Moves R (run.gather tasks) := by
  unfold gather
  split
  · have all : ∀ task ∈ tasks, Moves R task := fun task member =>
      ((List.forall₂_and_left _ _).mp (each.imp fun _ _ moves => ⟨moves, trivial⟩)).1 task member
    exact Moves.all all
  · exact (Moves.relation R).inTurn each

/-- If fields are asked for their values by admitted steps, the run
takes only such steps. -/
theorem moves_related {R : σ → σ → Prop} {run : Run ρ σ} (each : ∀ info, Moves R (run.dispatch info)) :
    run.Related (Moves.relation R) run where
  schema := rfl
  variableValues := rfl
  gather := moves_gather
  dispatch := each

variable (run : Run ρ σ)

theorem refines_chronicle : run.Related (Refines.relation Prod.fst) run.chronicle where
  schema := rfl
  variableValues := rfl
  gather := refines_gather _ (by rfl)
  dispatch info := by
    have settles (outcome : Except ResolverError Value) :
        Refines (Prod.fst : σ × List (Event σ) → σ) (.done outcome)
          (.act (fun s => (s.1, s.2 ++ [.settled ⟨info, outcome⟩])) fun _ => .done outcome) :=
      .aside (fun _ => rfl) fun _ => .done outcome
    have whole := (Task.refines_watched (fun before after => Event.acted ⟨info, before, after⟩)
      (run.dispatch info)).bind settles
    rwa [Task.bind_done] at whole

/-- What becomes of fields is part of the chronicle. -/
theorem noting_refines_chronicle :
    run.noting.Related (Refines.relation (sifted Event.resolution?)) run.chronicle where
  schema := rfl
  variableValues := rfl
  gather := refines_gather _ (by rfl)
  dispatch info := by
    refine (Task.besideNotes_refines_watched (fun _ _ => rfl) (run.dispatch info)).bind fun outcome => ?_
    exact .act (fun s => by simp [sifted, Event.resolution?]) fun _ => .done outcome

/-- The steps on the state are part of the chronicle. -/
theorem watched_refines_chronicle :
    run.watched.Related (Refines.relation (sifted Event.act?)) run.chronicle where
  schema := rfl
  variableValues := rfl
  gather := refines_gather _ (by rfl)
  dispatch info := by
    have settles (outcome : Except ResolverError Value) : Refines (sifted Event.act?) (.done outcome)
        (.act (fun s : σ × List (Event σ) => (s.1, s.2 ++ [.settled ⟨info, outcome⟩])) fun _ => .done outcome) :=
      .aside (fun s => by simp [sifted, Event.act?]) fun _ => .done outcome
    have whole := (Task.watched_refines_watched (fun before after => Event.acted ⟨info, before, after⟩)
      (Act.mk info) (fun _ _ => rfl) (run.dispatch info)).bind settles
    rwa [Task.bind_done] at whole

theorem moves_chronicle : run.chronicle.Related (Moves.relation Task.Appends) run.chronicle :=
  moves_related fun info =>
    ((Task.moves_watched _ (run.dispatch info)).mono fun _ _ noted => ⟨_, noted⟩).bind fun outcome =>
      .act (fun _ => ⟨[.settled ⟨info, outcome⟩], rfl⟩) fun _ => .done outcome

variable {run}

/-- The chronicle of a field has the steps of its resolver, and what became of
the field at the end. -/
theorem logs_chronicle {info : ResolveInfo} {now finish : Nat} {log : List (Nat × Event σ)}
    {outcome : Except ResolverError Value} (logs : Logs (run.chronicle.dispatch info) now log outcome finish) :
    ∃ acts, Logs (run.watched.dispatch info) now acts outcome finish ∧
      log = acts.map (fun act => (act.1, .acted act.2)) ++ [(finish, .settled ⟨info, outcome⟩)] := by
  obtain ⟨result, before, middle, after, rfl, asked, last⟩ := Logs.of_bind logs
  obtain ⟨acts, watched, rfl⟩ := Logs.of_watched_comp (f := Event.acted) asked
  cases last with
  | @act _ _ s notes written _ _ _ _ adds ends =>
    cases ends
    obtain rfl : [Event.settled ⟨info, outcome⟩] = written := List.append_cancel_left adds
    exact ⟨acts, watched, rfl⟩

/-- The chronicle has one outcome for each field that was asked for its value. -/
theorem Timeline.resolutions_perm {together : Prop} {now : Nat} {log : List (Nat × Event σ)}
    {visits : List (Visit (Event σ))} (timeline : run.chronicle.Timeline together now log visits) :
    ((log.map Prod.snd).filterMap Event.resolution?).Perm (visits.map Visit.resolution) := by
  have each : ∀ visit ∈ visits, (visit.log.map Prod.snd).filterMap Event.resolution? = [visit.resolution] := by
    intro visit member
    obtain ⟨acts, _, same⟩ := logs_chronicle (timeline.genuine visit member)
    simp [same, Event.resolution?]
  have whole : ((visits.flatMap Visit.log).map Prod.snd).filterMap Event.resolution? =
      visits.map Visit.resolution := by
    clear timeline
    induction visits with
    | nil => rfl
    | cons visit visits ih =>
      obtain ⟨first, others⟩ := List.forall_mem_cons.mp each
      simp only [List.flatMap_cons, List.map_append, List.filterMap_append, first, ih others, List.map_cons,
        List.singleton_append]
  exact whole ▸ (timeline.noted.map Prod.snd).filterMap Event.resolution?

end Run

end SelectionEngine
