import SelectionEngine.Proofs.Task.Moving
import SelectionEngine.Proofs.Task.Refinement

namespace SelectionEngine.Task

variable {σ ε α β γ : Type}

/-- The task on a state beside which notes are kept. -/
def besideNotes : Task σ α → Task (σ × List ε) α
  | done a => done a
  | act step next => act (fun s => (step s.1, s.2)) fun s => (next s.1).besideNotes
  | sleep d next => sleep d next.besideNotes

/-- The task that in the end notes down something about its result. -/
def noting (note : α → ε) (task : Task σ α) : Task (σ × List ε) α :=
  task.besideNotes.bind fun a => act (fun s => (s.1, s.2 ++ [note a])) fun _ => done a

theorem refines_besideNotes (task : Task σ α) :
    Refines Prod.fst task (task.besideNotes : Task (σ × List ε) α) := by
  induction task with
  | done a => exact .done a
  | act step next ih => exact .act (fun _ => rfl) fun s => ih s.1
  | sleep d next ih => exact .sleep d ih

/-- Notes are kept and may be added to. -/
def Appends (s s' : σ × List ε) : Prop := ∃ written, s'.2 = s.2 ++ written

theorem moves_besideNotes (task : Task σ α) :
    Moves Appends (task.besideNotes : Task (σ × List ε) α) := by
  induction task with
  | done a => exact .done a
  | act step next ih => exact .act (fun _ => ⟨[], by simp⟩) fun s => ih s.1
  | sleep d next ih => exact .sleep d ih

/-- The task that starts at a time can end with the result at a later one, and
meanwhile write these notes, each at its time, whatever happens to the state
between its own steps. -/
inductive Logs : Task (σ × List ε) α → Nat → List (Nat × ε) → α → Nat → Prop
  | done (a : α) (now : Nat) : Logs (done a) now [] a now
  | act {step next s notes written now log a finish} :
      (step (s, notes)).2 = notes ++ written → Logs (next (s, notes)) now log a finish →
      Logs (act step next) now (written.map (now, ·) ++ log) a finish
  | sleep {next now log a finish} (d : Nat) : Logs next (now + d) log a finish →
      Logs (sleep d next) now log a finish

/-- A run of a task that only adds to its notes adds what it logs. -/
theorem Moves.logs {task : Task (σ × List ε) α} (moves : Moves Appends task) (now : Nat) (s : σ) (notes : List ε) :
    ∃ log finish, Logs task now log (task.run (s, notes)).1 finish ∧
      (task.run (s, notes)).2.2 = notes ++ log.map Prod.snd := by
  induction moves generalizing now s notes with
  | done a => exact ⟨[], now, .done a now, by simp [Task.run]⟩
  | @act step next adds _ ih =>
    obtain ⟨written, added⟩ := adds (s, notes)
    obtain ⟨log, finish, logs, ends⟩ := ih (s, notes) now (step (s, notes)).1 (step (s, notes)).2
    refine ⟨_, finish, .act added logs, ?_⟩
    simp only [Task.run, List.map_append, List.map_map, ← List.append_assoc]
    rw [ends, added]
    simp [Function.comp_def]
  | sleep d _ ih =>
    obtain ⟨log, finish, logs, ends⟩ := ih (now + d) s notes
    exact ⟨log, finish, .sleep d logs, ends⟩

namespace Logs

theorem le_finish {task : Task (σ × List ε) α} {now finish : Nat} {log : List (Nat × ε)} {a : α}
    (logs : Logs task now log a finish) : now ≤ finish := by
  induction logs with
  | done a now => exact Nat.le_refl now
  | act _ _ ih => exact ih
  | sleep d _ ih => exact Nat.le_trans (Nat.le_add_right _ d) ih

theorem le_of_mem {task : Task (σ × List ε) α} {now finish : Nat} {log : List (Nat × ε)} {a : α}
    (logs : Logs task now log a finish) : ∀ entry ∈ log, now ≤ entry.1 := by
  induction logs with
  | done a now => exact nofun
  | act _ _ ih =>
    intro entry member
    rcases List.mem_append.mp member with first | later
    · obtain ⟨_, _, rfl⟩ := List.mem_map.mp first
      exact Nat.le_refl _
    · exact ih entry later
  | sleep d _ ih => exact fun entry member => Nat.le_trans (Nat.le_add_right _ d) (ih entry member)

/-- Notes are written in the order of their times. -/
theorem inOrder {task : Task (σ × List ε) α} {now finish : Nat} {log : List (Nat × ε)} {a : α}
    (logs : Logs task now log a finish) : log.Pairwise fun one two => one.1 ≤ two.1 := by
  induction logs with
  | done a now => exact .nil
  | @act step next s notes written now log a finish _ later ih =>
    refine List.pairwise_append.mpr ⟨?_, ih, fun one first two rest => ?_⟩
    · exact List.pairwise_map.mpr (List.pairwise_of_forall fun _ _ => Nat.le_refl now)
    · obtain ⟨_, _, rfl⟩ := List.mem_map.mp first
      exact later.le_of_mem two rest
  | sleep d _ ih => exact ih

theorem of_bind {task : Task (σ × List ε) α} {next : α → Task (σ × List ε) β} {now finish : Nat}
    {log : List (Nat × ε)} {b : β} (logs : Logs (task.bind next) now log b finish) :
    ∃ a before middle after, log = before ++ after ∧ Logs task now before a middle ∧
      Logs (next a) middle after b finish := by
  induction task generalizing now log with
  | done a => exact ⟨a, [], now, log, rfl, .done a now, logs⟩
  | act step rest ih =>
    cases logs with
    | @act _ _ s notes written _ log _ _ adds logs =>
      obtain ⟨a, before, middle, after, rfl, first, second⟩ := ih (s, notes) logs
      exact ⟨a, written.map (now, ·) ++ before, middle, after, by simp, .act adds first, second⟩
  | sleep d rest ih =>
    cases logs with
    | sleep _ logs =>
      obtain ⟨a, before, middle, after, split, first, second⟩ := ih logs
      exact ⟨a, before, middle, after, split, .sleep d first, second⟩

/-- What follows at once only changes the result. -/
theorem of_bind_done {task : Task (σ × List ε) α} {f : α → β} {now finish : Nat} {log : List (Nat × ε)} {b : β}
    (logs : Logs (task.bind fun a => .done (f a)) now log b finish) :
    ∃ a, Logs task now log a finish ∧ b = f a := by
  obtain ⟨a, before, middle, after, rfl, first, last⟩ := of_bind logs
  cases last
  exact ⟨a, by simpa using first, rfl⟩

/-- The notes of a pair of tasks that start together are those of its
members, in some order. -/
def Pairs (first : Task (σ × List ε) α) (second : Task (σ × List ε) β) (now : Nat) (log : List (Nat × ε))
    (pair : α × β) : Prop :=
  ∃ one two ends endsOther, log.Perm (one ++ two) ∧ Logs first now one pair.1 ends ∧
    Logs second now two pair.2 endsOther

theorem of_besideSleeper {next : Task (σ × List ε) α} {pair : α × β}
    {resume : Task (σ × List ε) β → Task (σ × List ε) (α × β)} {wake : β → Task (σ × List ε) (α × β)}
    (resumed : ∀ task now log finish, Logs (resume task) now log pair finish → Pairs next task now log pair)
    (woken : ∀ b now log finish, Logs (wake b) now log pair finish → Pairs next (.done b) now log pair)
    {left : Nat} {second : Task (σ × List ε) β} {now finish : Nat} {log : List (Nat × ε)}
    (logs : Logs (Task.besideSleeper resume wake left second) now log pair finish) :
    Pairs (.sleep left next) second now log pair := by
  induction second generalizing left now log with
  | done b =>
    cases logs with
    | sleep _ logs =>
      obtain ⟨one, two, ends, endsOther, split, first, second⟩ := woken b _ _ _ logs
      cases second
      exact ⟨one, [], ends, now, split, .sleep left first, .done _ now⟩
  | act step rest ih =>
    cases logs with
    | @act _ _ s notes written _ log _ _ adds logs =>
      obtain ⟨one, two, ends, endsOther, split, first, second⟩ := ih (s, notes) logs
      exact ⟨one, written.map (now, ·) ++ two, ends, endsOther,
        (split.append_left _).trans (List.perm_append_comm_assoc ..), first, .act adds second⟩
  | sleep e rest ih =>
    simp only [Task.besideSleeper] at logs
    split at logs
    · next shorter =>
      cases logs with
      | sleep _ logs =>
        obtain ⟨one, two, ends, endsOther, split, first, second⟩ := resumed _ _ _ _ logs
        cases second with
        | sleep _ second =>
          have wakes : now + left + (e - left) = now + e := by omega
          exact ⟨one, two, ends, endsOther, split, .sleep left first, .sleep e (wakes ▸ second)⟩
    · split at logs
      · next longer =>
        cases logs with
        | sleep _ logs =>
          obtain ⟨one, two, ends, endsOther, split, first, second⟩ := ih logs
          cases first with
          | sleep _ first =>
            have wakes : now + e + (left - e) = now + left := by omega
            exact ⟨one, two, ends, endsOther, split, .sleep left (wakes ▸ first), .sleep e second⟩
      · next notShorter notLonger =>
        obtain rfl : left = e := by omega
        cases logs with
        | sleep _ logs =>
          obtain ⟨one, two, ends, endsOther, split, first, second⟩ := resumed _ _ _ _ logs
          exact ⟨one, two, ends, endsOther, split, .sleep left first, .sleep left second⟩

theorem of_both {first : Task (σ × List ε) α} {second : Task (σ × List ε) β} {now finish : Nat}
    {log : List (Nat × ε)} {pair : α × β} (logs : Logs (first.both second) now log pair finish) :
    Pairs first second now log pair := by
  induction first generalizing second now log finish with
  | done a =>
    obtain ⟨b, second, rfl⟩ := of_bind_done logs
    exact ⟨[], log, now, finish, .refl _, .done a now, second⟩
  | act step rest ih =>
    cases logs with
    | @act _ _ s notes written _ log _ _ adds logs =>
      obtain ⟨one, two, ends, endsOther, split, first, second⟩ := ih (s, notes) logs
      exact ⟨written.map (now, ·) ++ one, two, ends, endsOther, by simpa using split.append_left _,
        .act adds first, second⟩
  | sleep d rest ih =>
    refine of_besideSleeper (fun _ _ _ _ logs => ih logs) (fun b now log finish logs => ?_) logs
    obtain ⟨a, first, rfl⟩ := of_bind_done logs
    exact ⟨log, [], finish, now, by simp, first, .done b now⟩

/-- The notes of several tasks that start together are those of each
of them, in some order. -/
theorem of_all {tasks : List (Task (σ × List ε) α)} {now finish : Nat} {log : List (Nat × ε)} {as : List α}
    (logs : Logs (Task.all tasks) now log as finish) :
    ∃ parts : List (List (Nat × ε) × α), as = parts.map Prod.snd ∧ log.Perm (parts.flatMap Prod.fst) ∧
      List.Forall₂ (fun task part => ∃ ends, Logs task now part.1 part.2 ends) tasks parts := by
  induction tasks generalizing log as finish with
  | nil =>
    cases logs
    exact ⟨[], rfl, .refl _, .nil⟩
  | cons task tasks ih =>
    obtain ⟨⟨a, rest⟩, pair, rfl⟩ := of_bind_done logs
    obtain ⟨one, two, ends, _, split, first, second⟩ := of_both pair
    obtain ⟨parts, rfl, others, related⟩ := ih second
    refine ⟨(one, a) :: parts, rfl, ?_, .cons ⟨ends, first⟩ related⟩
    simpa using split.trans (others.append_left one)

/-- The notes of tasks one after another are those of each of
them, in this order. -/
theorem of_inTurn {tasks : List (Task (σ × List ε) α)} {now finish : Nat} {log : List (Nat × ε)} {as : List α}
    (logs : Logs (Task.inTurn tasks) now log as finish) :
    ∃ parts : List (List (Nat × ε) × α), as = parts.map Prod.snd ∧ log = parts.flatMap Prod.fst ∧
      List.Forall₂ (fun task part => ∃ starts ends, Logs task starts part.1 part.2 ends) tasks parts := by
  induction tasks generalizing log as now with
  | nil =>
    cases logs
    exact ⟨[], rfl, rfl, .nil⟩
  | cons task tasks ih =>
    obtain ⟨a, one, middle, after, rfl, first, rest⟩ := of_bind logs
    obtain ⟨as, second, rfl⟩ := of_bind_done rest
    obtain ⟨parts, rfl, rfl, related⟩ := ih second
    exact ⟨(one, a) :: parts, rfl, by simp, .cons ⟨now, middle, first⟩ related⟩

end Logs

end SelectionEngine.Task
