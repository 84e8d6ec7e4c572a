import SelectionEngine.Proofs.Execution.Calls
import SelectionEngine.Proofs.Execution.Responses

namespace SelectionEngine

open SelectionEngine.Task (Logs)

variable {ρ σ : Type}

def PathElement.isKey : PathElement → Bool
  | index _ => false
  | key _ => true

namespace Path

/-- How many keys of objects a path has. Indices of lists do not count. -/
def keyCount (path : Path) : Nat := path.countP PathElement.isKey

@[simp] theorem keyCount_nil : keyCount [] = 0 := rfl

@[simp] theorem keyCount_join_key (path : Path) (name : String) :
    keyCount (path.join (.key name)) = path.keyCount + 1 := by
  simp [keyCount, join, PathElement.isKey]

@[simp] theorem keyCount_join_index (path : Path) (n : Nat) : keyCount (path.join (.index n)) = path.keyCount := by
  simp [keyCount, join, PathElement.isKey]

end Path

/-- Whether an error that has a place has it at most `limit` keys deep. -/
def Report.Within (limit : Nat) (report : Report) : Prop := ∀ path, report.path = some path → path.keyCount ≤ limit

/-- Whether what is selected on a subject at a path leads at most
`limit` keys deep. -/
def Subject.Within (limit : Nat) (path : Path) : Subject ρ → Prop
  | .object _ selections _ => path.keyCount + Selection.depthOfAll selections ≤ limit
  | .group _ _ fields => path.keyCount + 1 + Selection.depthOfAll fields.selections ≤ limit
  | .place site _ _ | .content site _ _ => path.keyCount + Selection.depthOfAll site.selections ≤ limit

structure Account.Within (limit : Nat) (account : Account) : Prop where
  errors : ∀ error ∈ account.completed.errors, error.Within limit
  resolutions : ∀ resolution ∈ account.resolutions, resolution.path.keyCount ≤ limit

section

variable {limit : Nat}

theorem Report.within_of_path {report : Report} {path : Path} (known : report.path = some path)
    (shallow : path.keyCount ≤ limit) : report.Within limit := by
  intro other found
  obtain rfl := Option.some.inj (known.symm.trans found)
  exact shallow

theorem Report.within_of_no_path {report : Report} (nowhere : report.path = none) : report.Within limit := by
  intro path found
  cases nowhere.symm.trans found

theorem Account.within_of_parts {whole : Account} {accounts : List Account}
    (errors : whole.completed.errors = accounts.flatMap fun account => account.completed.errors)
    (resolutions : whole.resolutions = accounts.flatMap Account.resolutions)
    (each : ∀ account ∈ accounts, account.Within limit) : whole.Within limit where
  errors error member := by
    obtain ⟨account, listed, inside⟩ := List.mem_flatMap.mp (errors ▸ member)
    exact (each account listed).errors error inside
  resolutions resolution member := by
    obtain ⟨account, listed, inside⟩ := List.mem_flatMap.mp (resolutions ▸ member)
    exact (each account listed).resolutions resolution inside

theorem Run.fieldFailure_within {type : TypeRef} {report : Report} (within : report.Within limit) :
    ∀ error ∈ (Run.fieldFailure type report).errors, error.Within limit := by
  unfold Run.fieldFailure
  split <;> exact List.forall_mem_singleton.mpr within

/-- Below a subject nothing is deeper than what is selected on it. Merged groups
select no deeper than the selections that they come from. -/
theorem Executes.within {schema : Schema ρ} {variableValues : Object} {subject : Subject ρ} {path : Path}
    {account : Account} (executes : Executes schema variableValues subject path account)
    (fits : subject.Within limit path) : account.Within limit := by
  induction executes with
  | @object type selections parent path accounts length _ ih =>
    refine Account.within_of_parts (List.flatMap_map ..) rfl fun account member => ?_
    obtain ⟨n, group, atGroup, atAccount⟩ := exists_beside length member
    have deeper := Schema.depth_of_mem_fieldGroups (List.mem_of_getElem? atGroup)
    refine ih n group account atGroup atAccount ?_
    simp only [Subject.Within] at fits ⊢
    omega
  | typename _ => exact ⟨nofun, nofun⟩
  | @badArguments type parent group path field error =>
    have shallow : (path.join (.key group.key)).keyCount ≤ limit := by
      simp only [Subject.Within, Path.keyCount_join_key] at fits ⊢
      omega
    exact ⟨Run.fieldFailure_within (Report.within_of_path rfl shallow), nofun⟩
  | @unresolved type parent group path field arguments error =>
    have shallow : (path.join (.key group.key)).keyCount ≤ limit := by
      simp only [Subject.Within, Path.keyCount_join_key] at fits ⊢
      omega
    exact ⟨Run.fieldFailure_within (Report.within_of_path rfl shallow), List.forall_mem_singleton.mpr shallow⟩
  | @resolved type parent group path field arguments value account _ _ _ _ ih =>
    have below := ih (by simpa only [Subject.Within, Path.keyCount_join_key] using fits)
    have shallow : (path.join (.key group.key)).keyCount ≤ limit := by
      simp only [Subject.Within, Path.keyCount_join_key] at fits ⊢
      omega
    exact ⟨below.errors, List.forall_mem_cons.mpr ⟨shallow, below.resolutions⟩⟩
  | @strict site inner value path account _ ih =>
    obtain ⟨errors, resolutions⟩ := ih fits
    refine ⟨?_, resolutions⟩
    by_cases null : account.completed.value? = some .null
    · rw [Completed.refuseNull_of_null _ null]
      refine List.forall_mem_append.mpr ⟨errors, List.forall_mem_singleton.mpr (Report.within_of_path rfl ?_)⟩
      exact Nat.le_trans (Nat.le_add_right _ _) fits
    · rw [Completed.refuseNull_of_ne_null _ null]
      exact errors
  | lenient _ _ ih => exact ⟨(ih fits).errors, (ih fits).resolutions⟩
  | null => exact ⟨nofun, nofun⟩
  | wrapped _ _ ih => exact ih fits
  | @list site inner path items accounts length _ ih =>
    refine Account.within_of_parts (List.flatMap_map ..) rfl fun account member => ?_
    obtain ⟨n, item, atItem, atAccount⟩ := exists_beside length member
    refine ih n item account atItem atAccount ?_
    simpa only [Subject.Within, Path.keyCount_join_index] using fits
  | scalar _ _ => exact ⟨nofun, nofun⟩
  | named _ _ ih => exact ih fits
  | leaf _ _ => exact ⟨nofun, nofun⟩
  | rejected rejects =>
    have shallow := Nat.le_trans (Nat.le_add_right _ _) fits
    exact ⟨List.forall_mem_singleton.mpr (Report.within_of_path rejects.path shallow), nofun⟩

end

namespace Task

variable {ε α : Type}

/-- A task beside which notes are kept notes nothing itself. -/
theorem Logs.of_besideNotes {task : Task σ α} {now finish : Nat} {log : List (Nat × ε)} {a : α}
    (logs : Logs task.besideNotes now log a finish) : log = [] := by
  induction task generalizing now log with
  | done b =>
    cases logs
    rfl
  | act step next ih =>
    cases logs with
    | @act _ _ s notes written _ later _ _ adds logs =>
      obtain rfl : [] = written := List.append_cancel_left ((List.append_nil notes).trans adds)
      rw [ih s logs]
      rfl
  | sleep d next ih =>
    cases logs with
    | sleep _ logs => exact ih logs

/-- What is noted until the time is up is the beginning of what is
noted without a limit. -/
theorem Moves.prefix_runWithin {task : Task (σ × List ε) α} (moves : Moves Appends task) (left : Nat)
    (s : σ × List ε) : (task.runWithin left s).2.2 <+: (task.run s).2.2 := by
  induction moves generalizing left s with
  | done a => exact List.prefix_refl _
  | act _ _ ih => exact ih s left _
  | @sleep next d later ih =>
    simp only [Task.runWithin, Task.run]
    split
    · exact ih (left - d) s
    · have keeps (t t' : σ × List ε) : Appends t t' → s.2 <+: t.2 → s.2 <+: t'.2 := by
        rintro ⟨written, added⟩ before
        exact added ▸ before.trans (List.prefix_append _ _)
      exact Moves.run later keeps (List.prefix_refl _)

end Task

namespace Schema

variable (schema : Schema σ) (settings : ExecutionSettings) (request : Request) (root : Value) (state : σ)

/-- The resolver of a field is told of that field. -/
theorem info_of_recorded {info : ResolveInfo} {now finish : Nat} {log : List (Nat × ResolveInfo)}
    {outcome : Except ResolverError Value} (logs : Logs (schema.recorded.dispatch info) now log outcome finish) :
    ∀ entry ∈ log, entry.2 = info := by
  simp only [dispatch] at logs
  split at logs
  · next resolver found =>
    rw [recorded, resolver?_mapResolvers] at found
    obtain ⟨own, _, rfl⟩ := Option.map_eq_some_iff.mp found
    obtain ⟨outcome, before, middle, after, rfl, asked, last⟩ := Logs.of_bind logs
    cases last
    cases asked with
    | @act _ _ s notes written _ later _ _ adds rest =>
      obtain rfl : [info] = written := List.append_cancel_left adds
      rw [Task.Logs.of_besideNotes rest]
      simp
  · cases logs
    exact List.forall_mem_nil _

/-- The calls of resolvers are among the fields that an account of the whole
request asks for their values. -/
theorem account_of_call {info : ResolveInfo} (called : info ∈ schema.calls settings request root state) :
    ∃ type account, Selection.depthOfAll request.selectionSet ≤ settings.maxDepth ∧
      Executes schema.recorded request.variableValues (.object type request.selectionSet root) [] account ∧
      ∃ resolution ∈ account.resolutions, resolution.info = info := by
  simp only [calls, execute] at called
  cases prepared : schema.recorded.prepare settings request root with
  | error report => simp [prepared] at called
  | ok task =>
    obtain ⟨type, _, shallow, _, rfl⟩ := prepare_eq_ok prepared
    have moves := (moves_runOf schema.moves_of_recorded settings request).executeObject
      (request.operation == .mutation) (Selection.depthOfAll request.selectionSet) request.selectionSet
      type type rfl root []
    obtain ⟨log, finish, logs, ends⟩ := Task.Moves.logs moves 0 state []
    obtain ⟨visits, traced⟩ := Run.traced_executeObject _ _ _ (Nat.le_refl _) type root [] 0 log _ finish logs
    have noted : info ∈ log.map Prod.snd := by
      rw [← List.nil_append (log.map Prod.snd), ← ends]
      rw [prepared] at called
      cases limit : settings.deadline with
      | none => simpa only [limit] using called
      | some deadline =>
        refine (Task.Moves.prefix_runWithin moves deadline.nanoseconds (state, [])).subset ?_
        simp only [limit] at called
        split at called
        · next within => rwa [within]
        · next within => rwa [within]
    obtain ⟨entry, written, rfl⟩ := List.mem_map.mp noted
    obtain ⟨visit, visited, inside⟩ := List.mem_flatMap.mp (traced.timeline.noted.subset written)
    exact ⟨type, _, shallow, traced.executes, visit.resolution, List.mem_map_of_mem visited,
      (schema.info_of_recorded (traced.timeline.genuine visit visited) entry inside).symm⟩

/-- A request that is refused fails at its root at most. -/
theorem within_of_prepare {report : Report} (refused : schema.prepare settings request root = .error report) :
    report.Within settings.maxDepth := by
  simp only [prepare] at refused
  split at refused
  · cases refused
    exact Report.within_of_no_path rfl
  · split at refused
    · cases refused
      exact Report.within_of_no_path rfl
    · next shallow =>
      split at refused
      · next failed =>
        cases refused
        rw [rootArgumentError?_eq] at failed
        obtain ⟨group, member, failed⟩ := List.exists_of_findSome?_eq_some failed
        obtain ⟨selected, _, failed⟩ := List.exists_of_findSome?_eq_some failed
        have deeper := depth_of_mem_fieldGroups member
        have one : Path.keyCount [.key group.key] = 1 := rfl
        exact Report.within_of_path (path_of_argumentError? failed) (by omega)
      · cases refused

/-- However fields are nested in fragments and merged, no resolver is
told of a field and no error is reported at a place that lies more
keys deep than the limit. -/
theorem depth_limit_bounds_execution :
    (∀ info ∈ schema.calls settings request root state, info.path.keyCount ≤ settings.maxDepth) ∧
    ∀ error ∈ (schema.execute settings request root state).1.errors, ∀ path, error.path = some path →
      path.keyCount ≤ settings.maxDepth := by
  refine ⟨fun info called => ?_, fun error member path known => ?_⟩
  · obtain ⟨type, account, shallow, executes, resolution, listed, rfl⟩ :=
      schema.account_of_call settings request root state called
    exact (executes.within (by simpa [Subject.Within] using shallow)).resolutions resolution listed
  · cases answered : (schema.execute settings request root state).1.data with
    | some data =>
      obtain ⟨type, account, found, executes, _, _, errors⟩ := account_of_data answered
      obtain ⟨task, accepted, _⟩ := execute_of_data answered
      obtain ⟨_, _, shallow, _⟩ := prepare_eq_ok accepted
      rw [errors] at member
      exact (executes.within (by simpa [Subject.Within] using shallow)).errors error member path known
    | none =>
      obtain ⟨report, only, refused | ⟨deadline, rfl⟩⟩ := report_of_no_data answered
      · obtain rfl := List.mem_singleton.mp (only ▸ member)
        exact schema.within_of_prepare settings request root refused path known
      · obtain rfl := List.mem_singleton.mp (only ▸ member)
        exact Report.within_of_no_path rfl path known

/-- People who all know each other, to any depth. -/
def circleTypes : List (TypeDef Unit) := [
  .object { name := "Person", fields := [
    { name := "knows", type := .list (.named "Person")
      resolver := some (.immediate fun info => .value (.list [info.parent, info.parent])) }] },
  .object { name := "Query", fields := [{ name := "first", type := .named "Person" }] }]

def circleSchema : Schema Unit := circleTypes.foldl .insert .empty

/-- Merged fields reach the limit with three keys on their paths, besides
the indices of lists. -/
example :
    let inner : Selection := .field { name := "knows" } []
    let request : Request := { selectionSet := [
      .field { name := "first" } [inner],
      .fragment none [.field { name := "first" } [.field { name := "knows" } [inner]]]] }
    let root : Value := .object [("first", .object [])]
    (circleSchema.calls { maxDepth := 3 } request root ()).map
      (fun info => (info.path.length, info.path.keyCount)) =
      [(2, 2), (4, 3), (4, 3)] := by decide +kernel

end Schema

end SelectionEngine
