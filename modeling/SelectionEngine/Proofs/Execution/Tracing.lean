import Mathlib.Algebra.GroupWithZero.Nat
import SelectionEngine.Proofs.Execution.Relating
import SelectionEngine.Proofs.Execution.ResolutionPaths
import SelectionEngine.Proofs.Task.Logging

namespace SelectionEngine

open SelectionEngine.Task (Logs)

variable {ρ σ ε : Type}

/-- A field that was asked for its value: what became of it, when it was asked,
how long it took, and what was noted meanwhile. -/
structure Visit (ε : Type) where
  resolution : Resolution
  start : Nat
  took : Nat
  log : List (Nat × ε)

namespace Visit

def path (visit : Visit ε) : Path := visit.resolution.path

/-- How long the fields above a path took, together. -/
def spentAbove (visits : List (Visit ε)) (path : Path) : Nat :=
  ((visits.filter fun visit => visit.path <+: path ∧ visit.path ≠ path).map took).sum

theorem spentAbove_append (front back : List (Visit ε)) (path : Path) :
    spentAbove (front ++ back) path = spentAbove front path + spentAbove back path := by
  simp only [spentAbove, List.filter_append, List.map_append, List.sum_append]

theorem spentAbove_eq_zero {visits : List (Visit ε)} {path : Path}
    (none : ∀ visit ∈ visits, visit.path <+: path → visit.path = path) : spentAbove visits path = 0 := by
  have empty : (visits.filter fun visit => visit.path <+: path ∧ visit.path ≠ path) = [] :=
    List.filter_eq_nil_iff.mpr fun visit member above =>
      (of_decide_eq_true above).2 (none visit member (of_decide_eq_true above).1)
  simp only [spentAbove, empty, List.map_nil, List.sum_nil]

theorem spentAbove_cons {visit : Visit ε} {visits : List (Visit ε)} {path : Path} (above : visit.path <+: path)
    (other : visit.path ≠ path) : spentAbove (visit :: visits) path = visit.took + spentAbove visits path := by
  simp [spentAbove, above, other]

end Visit

/-- A value that is there is completed as one that must not be null. -/
theorem Executes.place_of_content {schema : Schema ρ} {variableValues : Object} {site : FieldSite} {inner : TypeRef}
    {value : Value} {path : Path} {account : Account}
    (executes : Executes schema variableValues (.content site (.nonNull inner) value) path account)
    (present : value ≠ .null) :
    Executes schema variableValues (.place site (.nonNull inner) value) path account := by
  cases executes with
  | null => exact absurd rfl present
  | wrapped _ executes => exact executes
  | rejected rejects => cases rejects

namespace Run

/-- The notes of work on a run that starts at a time are those of the visits to
its fields. `together` is whether all its parts are worked on at the same time. -/
structure Timeline (run : Run ρ (σ × List ε)) (together : Prop) (now : Nat) (log : List (Nat × ε))
    (visits : List (Visit ε)) : Prop where
  genuine : ∀ visit ∈ visits, Logs (run.dispatch visit.resolution.info) visit.start visit.log
    visit.resolution.outcome (visit.start + visit.took)
  noted : log.Perm (visits.flatMap Visit.log)
  inTurn : run.parallel = false → log = visits.flatMap Visit.log
  timely : together → ∀ visit ∈ visits, visit.start = now + Visit.spentAbove visits visit.path

namespace Timeline

variable {run : Run ρ (σ × List ε)} {together : Prop} {now : Nat}

theorem nil : run.Timeline together now [] [] := ⟨nofun, .refl _, fun _ => rfl, fun _ => nofun⟩

/-- When the work starts matters only where everything is worked
on at the same time. -/
theorem restart {before : Prop} {starts : Nat} {log : List (Nat × ε)} {visits : List (Visit ε)}
    (timeline : run.Timeline before starts log visits) (stronger : together → before)
    (atOnce : together → starts = now) : run.Timeline together now log visits where
  genuine := timeline.genuine
  noted := timeline.noted
  inTurn := timeline.inTurn
  timely all visit member := atOnce all ▸ timeline.timely (stronger all) visit member

theorem reorder {log other : List (Nat × ε)} {visits : List (Visit ε)}
    (timeline : run.Timeline together now log visits) (permuted : other.Perm log)
    (same : run.parallel = false → other = log) : run.Timeline together now other visits where
  genuine := timeline.genuine
  noted := permuted.trans timeline.noted
  inTurn serial := (same serial).trans (timeline.inTurn serial)
  timely := timeline.timely

theorem append {log logRest : List (Nat × ε)} {visits rest : List (Visit ε)}
    (first : run.Timeline together now log visits) (second : run.Timeline together now logRest rest)
    (apart : ∀ one ∈ visits, ∀ two ∈ rest, ¬ one.path <+: two.path ∧ ¬ two.path <+: one.path) :
    run.Timeline together now (log ++ logRest) (visits ++ rest) where
  genuine := List.forall_mem_append.mpr ⟨first.genuine, second.genuine⟩
  noted := by simpa only [List.flatMap_append] using first.noted.append second.noted
  inTurn serial := by rw [List.flatMap_append, ← first.inTurn serial, ← second.inTurn serial]
  timely all := by
    refine List.forall_mem_append.mpr ⟨fun visit member => ?_, fun visit member => ?_⟩
    · have none := Visit.spentAbove_eq_zero fun other inRest above =>
        absurd above (apart visit member other inRest).2
      rw [Visit.spentAbove_append, none, first.timely all visit member, Nat.add_zero]
    · have none := Visit.spentAbove_eq_zero fun other inFirst above =>
        absurd above (apart other inFirst visit member).1
      rw [Visit.spentAbove_append, none, second.timely all visit member, Nat.zero_add]

/-- A field takes its time, and then its value is worked on. -/
theorem cons {log : List (Nat × ε)} (visit : Visit ε) {visits : List (Visit ε)}
    (asked : Logs (run.dispatch visit.resolution.info) visit.start visit.log visit.resolution.outcome
      (visit.start + visit.took))
    (below : ∀ other ∈ visits, visit.path <+: other.path ∧ other.path ≠ visit.path)
    (rest : run.Timeline together (visit.start + visit.took) log visits) :
    run.Timeline together visit.start (visit.log ++ log) (visit :: visits) where
  genuine := List.forall_mem_cons.mpr ⟨asked, rest.genuine⟩
  noted := by simpa only [List.flatMap_cons] using rest.noted.append_left visit.log
  inTurn serial := by rw [List.flatMap_cons, ← rest.inTurn serial]
  timely all := by
    refine List.forall_mem_cons.mpr ⟨?_, fun other member => ?_⟩
    · have none : Visit.spentAbove (visit :: visits) visit.path = 0 := by
        refine Visit.spentAbove_eq_zero (List.forall_mem_cons.mpr ⟨fun _ => rfl, fun other member above => ?_⟩)
        exact (above.eq_of_length_le (below other member).1.length_le)
      rw [none, Nat.add_zero]
    · obtain ⟨above, other'⟩ := below other member
      rw [Visit.spentAbove_cons above other'.symm, rest.timely all other member, Nat.add_assoc]

end Timeline

/-- Work on a subject came to a result and wrote its notes by visits to the
fields below the subject, which are given in the order of the response. -/
structure Traced (run : Run ρ (σ × List ε)) (together : Prop) (subject : Subject ρ) (path : Path) (now : Nat)
    (log : List (Nat × ε)) (completed : Completed Value) (visits : List (Visit ε)) : Prop where
  executes : Executes run.schema run.variableValues subject path ⟨completed, visits.map Visit.resolution⟩
  timeline : run.Timeline together now log visits

/-- The notes and the results of several tasks are those of each of them. -/
def Parted {α : Type} (run : Run ρ (σ × List ε)) (together : Prop) (now : Nat)
    (tasks : List (Task (σ × List ε) α)) (log : List (Nat × ε)) (results : List α) : Prop :=
  ∃ parts : List (List (Nat × ε) × α), results = parts.map Prod.snd ∧ log.Perm (parts.flatMap Prod.fst) ∧
    (run.parallel = false → log = parts.flatMap Prod.fst) ∧
    List.Forall₂ (fun task part => ∃ starts ends, Logs task starts part.1 part.2 ends ∧ (together → starts = now))
      tasks parts

variable {run : Run ρ (σ × List ε)}

theorem parted_inTurn {α : Type} {tasks : List (Task (σ × List ε) α)} {now finish : Nat} {log : List (Nat × ε)}
    {results : List α} (logs : Logs (.inTurn tasks) now log results finish) :
    run.Parted False now tasks log results := by
  obtain ⟨parts, results, log, related⟩ := Logs.of_inTurn logs
  refine ⟨parts, results, log ▸ .refl _, fun _ => log, related.imp ?_⟩
  rintro task part ⟨starts, ends, logs⟩
  exact ⟨starts, ends, logs, False.elim⟩

theorem parted_gather {α : Type} {tasks : List (Task (σ × List ε) α)} {now finish : Nat} {log : List (Nat × ε)}
    {results : List α} (logs : Logs (run.gather tasks) now log results finish) :
    run.Parted (run.parallel = true) now tasks log results := by
  unfold gather at logs
  split at logs
  · next parallel =>
    obtain ⟨parts, results, log, related⟩ := Logs.of_all logs
    refine ⟨parts, results, log, fun serial => absurd parallel (by simp [serial]), related.imp ?_⟩
    rintro task part ⟨ends, logs⟩
    exact ⟨now, ends, logs, fun _ => rfl⟩
  · next serial =>
    obtain ⟨parts, results, log, inTurn, related⟩ : run.Parted False now tasks log results := parted_inTurn logs
    refine ⟨parts, results, log, inTurn, related.imp ?_⟩
    rintro task part ⟨starts, ends, logs, _⟩
    exact ⟨starts, ends, logs, fun parallel => absurd parallel serial⟩

/-- The visits to the parts of a subject, taken together, are
those to the subject. -/
theorem traced_parts {ι : Type} (subject : ι → Subject ρ) (place : ι → Path) (path : Path)
    (element : ι → PathElement) {inputs : List ι} {task : ι → Task (σ × List ε) (Completed Value)}
    {together : Prop} {now : Nat} {log : List (Nat × ε)} {results : List (Completed Value)}
    (parted : run.Parted together now (inputs.map task) log results) (parallel : together → run.parallel = true)
    (distinct : (inputs.map element).Nodup)
    (within : ∀ input account, Executes run.schema run.variableValues (subject input) (place input) account →
      ∀ resolution ∈ account.resolutions, path.join (element input) <+: resolution.path)
    (each : ∀ input ∈ inputs, ∀ now log c finish, Logs (task input) now log c finish →
      ∃ visits, run.Traced (run.parallel = true) (subject input) (place input) now log c visits) :
    ∃ (accounts : List Account) (visits : List (Visit ε)), accounts.map Account.completed = results ∧
      accounts.flatMap Account.resolutions = visits.map Visit.resolution ∧ accounts.length = inputs.length ∧
      (∀ (n : Nat) input account, inputs[n]? = some input → accounts[n]? = some account →
        Executes run.schema run.variableValues (subject input) (place input) account) ∧
      run.Timeline together now log visits := by
  obtain ⟨parts, rfl, permuted, inTurn, related⟩ := parted
  -- part by part; where the visits of a part lie keeps them apart
  -- from those of later parts
  suffices strong : ∃ (accounts : List Account) (visits : List (Visit ε)),
      accounts.map Account.completed = parts.map Prod.snd ∧
      accounts.flatMap Account.resolutions = visits.map Visit.resolution ∧ accounts.length = inputs.length ∧
      (∀ (n : Nat) input account, inputs[n]? = some input → accounts[n]? = some account →
        Executes run.schema run.variableValues (subject input) (place input) account) ∧
      run.Timeline together now (parts.flatMap Prod.fst) visits ∧
      ∀ visit ∈ visits, ∃ input ∈ inputs, path.join (element input) <+: visit.path by
    obtain ⟨accounts, visits, completed, resolutions, length, executes, timeline, _⟩ := strong
    exact ⟨accounts, visits, completed, resolutions, length, executes, timeline.reorder permuted inTurn⟩
  clear permuted inTurn
  rw [List.forall₂_map_left_iff] at related
  induction related with
  | nil => exact ⟨[], [], rfl, rfl, rfl, by simp, .nil, nofun⟩
  | @cons input part inputs parts first _ ih =>
    obtain ⟨starts, ends, logs, atOnce⟩ := first
    obtain ⟨absent, distinct⟩ := List.nodup_cons.mp distinct
    obtain ⟨own, traced⟩ := each input (.head _) _ _ _ _ logs
    obtain ⟨accounts, visits, completed, resolutions, length, executes, timeline, located⟩ :=
      ih distinct fun input member => each input (.tail _ member)
    have below : ∀ visit ∈ own, path.join (element input) <+: visit.path := fun visit member =>
      within input _ traced.executes visit.resolution (List.mem_map_of_mem member)
    have apart : ∀ one ∈ own, ∀ two ∈ visits, ¬ one.path <+: two.path ∧ ¬ two.path <+: one.path := by
      intro one inOwn two inRest
      obtain ⟨other, member, otherBelow⟩ := located two inRest
      have different : element input ≠ element other := fun same =>
        absent (List.mem_map.mpr ⟨other, member, same.symm⟩)
      exact ⟨fun above => different (Path.eq_of_join_prefix ((below one inOwn).trans above) otherBelow),
        fun above => different (Path.eq_of_join_prefix (below one inOwn) (otherBelow.trans above))⟩
    refine ⟨⟨part.2, own.map Visit.resolution⟩ :: accounts, own ++ visits, by simp [completed],
      by simp [resolutions], by simp [length], ?_, ?_, ?_⟩
    · rintro (_ | n) known account atInput atAccount
      · obtain rfl := Option.some.inj atInput
        obtain rfl := Option.some.inj atAccount
        exact traced.executes
      · exact executes n known account atInput atAccount
    · exact (traced.timeline.restart parallel atOnce).append timeline apart
    · refine List.forall_mem_append.mpr ⟨fun visit member => ⟨input, .head _, below visit member⟩,
        fun visit member => ?_⟩
      obtain ⟨other, listed, otherBelow⟩ := located visit member
      exact ⟨other, .tail _ listed, otherBelow⟩

section

variable {subject : Subject ρ} {path : Path} {now finish : Nat} {log : List (Nat × ε)} {c : Completed Value}
  {together : Prop}

/-- What is done at once is done without visits. -/
theorem traced_done {result : Completed Value}
    (logs : Logs (.done result : Task (σ × List ε) (Completed Value)) now log c finish)
    (executes : Executes run.schema run.variableValues subject path ⟨result, []⟩) :
    ∃ visits, run.Traced together subject path now log c visits := by
  cases logs
  exact ⟨[], executes, .nil⟩

variable {execute : ObjectExecution ρ (σ × List ε)} {selections : List Selection} {parentType field : String}

theorem traced_complete {type : TypeRef}
    (inner : ∀ value path now log c finish,
      Logs (run.completeInner execute parentType field type value path) now log c finish →
      ∃ visits, run.Traced together (.content ⟨parentType, field, selections⟩ type value) path now log c visits)
    {value : Value} (logs : Logs (run.complete execute parentType field type value path) now log c finish) :
    ∃ visits, run.Traced together (.place ⟨parentType, field, selections⟩ type value) path now log c visits := by
  by_cases nullable : type.isNonNull = false
  · rw [complete_of_nullable _ _ _ _ _ nullable] at logs
    obtain ⟨c, first, rfl⟩ := Logs.of_bind_done logs
    obtain ⟨visits, traced⟩ := inner _ _ _ _ _ _ first
    exact ⟨visits, .lenient nullable traced.executes, traced.timeline⟩
  · cases type with
    | nonNull type =>
      by_cases null : value = .null
      · subst null
        simp only [complete, completeInner_null, Task.done_bind] at logs
        exact traced_done logs (.strict .null)
      · rw [← completeInner_nonNull _ _ _ _ null] at logs
        obtain ⟨visits, traced⟩ := inner _ _ _ _ _ _ logs
        exact ⟨visits, traced.executes.place_of_content null, traced.timeline⟩
    | _ => simp [TypeRef.isNonNull] at nullable

variable (executions : ∀ type value path now log c finish, Logs (execute type value path) now log c finish →
    ∃ visits, run.Traced (run.parallel = true) (.object type selections value) path now log (c.map .object) visits)

include executions

theorem traced_completeNamed {name : String} {value : Value} (present : value ≠ .null)
    (logs : Logs (run.completeNamed execute name value path) now log c finish) :
    ∃ visits, run.Traced (run.parallel = true) (.content ⟨parentType, field, selections⟩ (.named name) value) path
      now log c visits := by
  simp only [completeNamed] at logs
  cases found : run.schema.concreteType? name value path with
  | error report =>
    simp only [found] at logs
    exact traced_done logs (.rejected (.noType present found))
  | ok type =>
    rcases type with _ | type
    · simp only [found] at logs
      exact traced_done logs (.scalar present found)
    · simp only [found] at logs
      by_cases object : ∃ entries, value = .object entries
      · obtain ⟨entries, rfl⟩ := object
        obtain ⟨c, first, rfl⟩ := Logs.of_bind_done logs
        obtain ⟨visits, traced⟩ := executions _ _ _ _ _ _ _ first
        exact ⟨visits, .named found traced.executes, traced.timeline⟩
      · have other : ∀ entries, value ≠ .object entries := fun entries same => object ⟨entries, same⟩
        rw [completeObject_of_ne_object _ _ _ other] at logs
        exact traced_done logs (.rejected (.notObject present other found))

omit executions in
theorem traced_completeList {inner : TypeRef} {completeItem : Value → Path → Task (σ × List ε) (Completed Value)}
    (items : ∀ item path now log c finish, Logs (completeItem item path) now log c finish →
      ∃ visits, run.Traced (run.parallel = true) (.place ⟨parentType, field, selections⟩ inner item) path
        now log c visits)
    {value : Value} (present : value ≠ .null)
    (logs : Logs (run.completeList parentType field completeItem value path) now log c finish) :
    ∃ visits, run.Traced (run.parallel = true) (.content ⟨parentType, field, selections⟩ (.list inner) value) path
      now log c visits := by
  by_cases list : ∃ values, value = .list values
  · obtain ⟨values, rfl⟩ := list
    obtain ⟨results, first, rfl⟩ := Logs.of_bind_done logs
    have distinct : (values.zipIdx.map fun entry => PathElement.index entry.2).Nodup := by
      have indices : (values.zipIdx.map fun entry => PathElement.index entry.2) =
          (List.range values.length).map .index := by
        rw [List.range_eq_range', ← List.zipIdx_map_snd 0 values, List.map_map]
        rfl
      exact indices ▸ PathElement.nodup_indices _
    obtain ⟨accounts, visits, completed, resolutions, length, executes, timeline⟩ :=
      traced_parts (fun entry => .place ⟨parentType, field, selections⟩ inner entry.1)
        (fun entry => path.join (.index entry.2)) path (fun entry => .index entry.2)
        (parted_gather first) id distinct
        (fun entry account executes resolution member =>
          (executes.paths.2 resolution member).elim fun _ below => Path.prefix_join.trans below)
        fun entry _ => items entry.1 _
    have whole : Executes run.schema run.variableValues
        (.content ⟨parentType, field, selections⟩ (.list inner) (.list values)) path (.ofItems accounts) :=
      .list (by simpa using length) fun n item account atItem =>
        executes n (item, n) account (by simp [List.getElem?_zipIdx, atItem])
    rw [Account.ofItems, completed, resolutions] at whole
    exact ⟨visits, whole, timeline⟩
  · have other : ∀ values, value ≠ .list values := fun values same => list ⟨values, same⟩
    rw [completeList_of_ne_list _ _ _ _ _ other] at logs
    exact traced_done logs (.rejected (.notList present other))

omit executions in
theorem traced_content {type : TypeRef} {value : Value}
    (logs : Logs (run.completeInner execute parentType field type value path) now log c finish)
    (present : value ≠ .null →
      ∃ visits, run.Traced together (.content ⟨parentType, field, selections⟩ type value) path now log c visits) :
    ∃ visits, run.Traced together (.content ⟨parentType, field, selections⟩ type value) path now log c visits := by
  by_cases null : value = .null
  · subst null
    rw [completeInner_null] at logs
    exact traced_done logs .null
  · exact present null

theorem traced_completeInner (type : TypeRef) (value : Value) (path : Path) (now : Nat) (log : List (Nat × ε))
    (c : Completed Value) (finish : Nat)
    (logs : Logs (run.completeInner execute parentType field type value path) now log c finish) :
    ∃ visits, run.Traced (run.parallel = true) (.content ⟨parentType, field, selections⟩ type value) path
      now log c visits := by
  induction type generalizing value path now log c finish with
  | builtIn scalar =>
    refine traced_content logs fun present => ?_
    rw [completeInner_builtIn _ _ _ _ present] at logs
    refine traced_done logs ?_
    unfold completeLeaf
    split
    · next found => exact .leaf present found
    · next missing => exact .rejected (.notLeaf present missing)
  | named name =>
    refine traced_content logs fun present => ?_
    rw [completeInner_named _ _ _ _ present] at logs
    exact traced_completeNamed executions present logs
  | list inner ih =>
    refine traced_content logs fun present => ?_
    rw [completeInner_list _ _ _ _ present] at logs
    exact traced_completeList (fun _ _ _ _ _ _ logs => traced_complete ih logs) present logs
  | nonNull inner ih =>
    refine traced_content logs fun present => ?_
    rw [completeInner_nonNull _ _ _ _ present] at logs
    obtain ⟨c, first, rfl⟩ := Logs.of_bind_done logs
    obtain ⟨visits, traced⟩ := ih _ _ _ _ _ _ first
    exact ⟨visits, .wrapped present (.strict traced.executes), traced.timeline⟩

theorem traced_executeGroup {type : ObjectType ρ} {parent : Value} {group : FieldGroup}
    (same : group.selections = selections)
    (declared : group.lead.call.name = typenameField ∨ (type.field? group.lead.call.name).isSome)
    (logs : Logs (run.executeGroup execute type parent path group) now log c finish) :
    ∃ visits, run.Traced (run.parallel = true) (.group type parent group) path now log c visits := by
  by_cases typename : group.lead.call.name = typenameField
  · simp only [executeGroup, if_pos typename] at logs
    exact traced_done logs (.typename typename)
  · obtain ⟨field, found⟩ := Option.isSome_iff_exists.mp (declared.resolve_left typename)
    simp only [executeGroup, if_neg typename, found] at logs
    split at logs
    · next failed => exact traced_done logs (.badArguments typename found failed)
    · next arguments coerced =>
      obtain ⟨outcome, before, middle, after, rfl, asked, rest⟩ := Logs.of_bind logs
      obtain ⟨took, rfl⟩ := Nat.exists_eq_add_of_le asked.le_finish
      let visit : Visit ε := ⟨⟨group.info type field parent path arguments, outcome⟩, now, took, before⟩
      cases outcome with
      | error error =>
        cases rest
        exact ⟨[visit], .unresolved typename found coerced, .cons visit asked (List.forall_mem_nil _) .nil⟩
      | ok value =>
        obtain ⟨visits, traced⟩ := traced_complete (traced_completeInner (same ▸ executions) _) rest
        have below : ∀ other ∈ visits, visit.path <+: other.path ∧ other.path ≠ visit.path := by
          intro other member
          obtain ⟨element, deeper⟩ :=
            traced.executes.paths.2 other.resolution (List.mem_map_of_mem member)
          refine ⟨Path.prefix_join.trans deeper, fun same => ?_⟩
          have shorter := deeper.length_le
          have level : other.resolution.path.length = (path.join (.key group.key)).length :=
            congrArg List.length same
          simp [level, Path.join] at shorter
        exact ⟨visit :: visits, .resolved typename found coerced traced.executes,
          .cons visit asked below traced.timeline⟩

end

/-- Whatever the tasks of a run do, what comes of them and what they note is
told by visits to fields. -/
theorem traced_executeObject (serial : Bool) (depth : Nat) (selections : List Selection)
    (enough : Selection.depthOfAll selections ≤ depth) (type : ObjectType ρ) (parent : Value) (path : Path)
    (now : Nat) (log : List (Nat × ε)) (c : Completed Object) (finish : Nat)
    (logs : Logs (run.executeObject serial depth selections type parent path) now log c finish) :
    ∃ visits, run.Traced (run.parallel = true ∧ serial = false) (.object type selections parent) path now log
      (c.map .object) visits := by
  -- on the depth, which is greater than that of the selections below a field
  induction depth generalizing serial selections type parent path now log c finish with
  | zero =>
    have none : run.schema.fieldGroups type selections = [] :=
      Schema.fieldGroups_eq_nil (Nat.le_zero.mp enough)
    have executes : Executes run.schema run.variableValues (.object type selections parent) path
        (.ofFields ((run.schema.fieldGroups type selections).map FieldGroup.key) []) :=
      .object (by simp [none]) (by simp)
    rw [none] at executes
    cases logs
    exact ⟨[], executes, .nil⟩
  | succ depth ih =>
    obtain ⟨results, first, rfl⟩ := Logs.of_bind_done logs
    have parted : run.Parted (run.parallel = true ∧ serial = false) now
        ((run.schema.fieldGroups type selections).map fun group =>
          run.executeGroup (run.executeObject false depth group.selections) type parent path group)
        log results := by
      cases serial with
      | true => simpa using parted_inTurn first
      | false => simpa using parted_gather first
    have distinct := PathElement.nodup_keys (run.schema.nodup_fieldGroups type selections)
    rw [List.map_map] at distinct
    obtain ⟨accounts, visits, completed, resolutions, length, executes, timeline⟩ :=
      traced_parts (fun group => .group type parent group) (fun _ => path) path
        (fun group => PathElement.key group.key) parted And.left
        distinct (fun group account executes => executes.paths.2)
        fun group member now log c finish logs => by
          have deeper := Schema.depth_of_mem_fieldGroups member
          have executions := ih false group.selections (by omega)
          simp only [and_true] at executions
          exact traced_executeGroup executions rfl (Schema.lead_of_mem_fieldGroups member) logs
    have whole : Executes run.schema run.variableValues (.object type selections parent) path
        (.ofFields ((run.schema.fieldGroups type selections).map FieldGroup.key) accounts) :=
      .object length executes
    rw [Account.ofFields, completed, resolutions] at whole
    refine ⟨visits, ?_, timeline⟩
    simp only [Completed.map, Option.map_map] at whole ⊢
    exact whole

end Run

end SelectionEngine
