import SelectionEngine.Proofs.Execution.Awake
import SelectionEngine.Proofs.Execution.Dispatches
import SelectionEngine.Proofs.Execution.Retiming

namespace SelectionEngine

open SelectionEngine.Task (Logs)

variable {σ ε α : Type}

/-- Where keys are distinct, what has the key of a member is what
comes of that member. -/
theorem filter_flatMap_of_nodup {β κ : Type} [DecidableEq κ] {key : α → κ} {tag : β → κ} {parts : α → List β}
    {as : List α} (own : ∀ a ∈ as, ∀ b ∈ parts a, tag b = key a) (distinct : (as.map key).Nodup) {a : α}
    (member : a ∈ as) : (as.flatMap parts).filter (fun b => tag b = key a) = parts a := by
  induction as with
  | nil => cases member
  | cons first rest ih =>
    obtain ⟨absent, others⟩ := List.nodup_cons.mp distinct
    obtain ⟨ownFirst, ownRest⟩ := List.forall_mem_cons.mp own
    rw [List.flatMap_cons, List.filter_append]
    rcases List.mem_cons.mp member with rfl | later
    · have all : (parts a).filter (fun b => tag b = key a) = parts a :=
        List.filter_eq_self.mpr fun b inside => decide_eq_true (ownFirst b inside)
      have none : (rest.flatMap parts).filter (fun b => tag b = key a) = [] := by
        refine List.filter_eq_nil_iff.mpr fun b inside same => absent ?_
        obtain ⟨other, listed, inside⟩ := List.mem_flatMap.mp inside
        exact List.mem_map.mpr ⟨other, listed, (ownRest other listed b inside).symm.trans (of_decide_eq_true same)⟩
      rw [all, none, List.append_nil]
    · have none : (parts first).filter (fun b => tag b = key a) = [] := by
        refine List.filter_eq_nil_iff.mpr fun b inside same => absent ?_
        exact List.mem_map.mpr ⟨a, later, (of_decide_eq_true same).symm.trans (ownFirst b inside)⟩
      rw [none, List.nil_append, ih ownRest others later]

theorem Task.Logs.of_after {note : σ → σ → ε} {duration : Nat} {task : Task σ α} {now finish : Nat}
    {log : List (Nat × ε)} {a : α} (logs : Logs ((task.after duration).watched note) now log a finish) :
    Logs (task.watched note) (now + duration) log a finish := by
  unfold Task.after at logs
  split at logs
  · next none => simpa only [none, Nat.add_zero] using logs
  · cases logs with
    | sleep _ logs => exact logs

theorem Task.Logs.of_access {note : σ → σ → ε} {f : σ → α × σ} {now finish : Nat} {log : List (Nat × ε)} {a : α}
    (logs : Logs ((Task.access f).watched note) now log a finish) :
    finish = now ∧ ∃ s, log = [(now, note s (f s).2)] ∧ a = (f s).1 := by
  cases logs with
  | @act _ _ s notes written _ _ _ _ adds logs =>
    obtain rfl : [note s (f s).2] = written := List.append_cancel_left adds
    cases logs
    exact ⟨rfl, s, rfl, rfl⟩

/-- The resolver sleeps for a time. Then it reads and writes the state in one
step, or ends without the state. -/
inductive Resolver.ActsAfter (duration : Nat) : Resolver σ → Prop
  | acting (f : ResolveInfo → σ → Outcome × σ) : ActsAfter duration ((acting f).delayed duration)
  | immediate (f : ResolveInfo → Outcome) : ActsAfter duration ((immediate f).delayed duration)

namespace Schema

/-- Every resolver sleeps for the time of its field before it acts. -/
def ActsAfter (schema : Schema σ) (delay : String → String → Nat) : Prop :=
  ∀ type field resolver, schema.resolver? type field = some resolver → resolver.ActsAfter (delay type field)

/-- How long the resolver of a field sleeps. A field without a
resolver takes no time. -/
def delayOf (schema : Schema σ) (delay : String → String → Nat) (info : ResolveInfo) : Nat :=
  if (schema.resolver? info.parentType info.field).isSome then delay info.parentType info.field else 0

/-- The delays of the fields at a path and above it, together. -/
def dueTime (schema : Schema σ) (delay : String → String → Nat) (resolutions : List Resolution) (path : Path) :
    Nat :=
  ((resolutions.filter fun resolution => resolution.path <+: path).map fun resolution =>
    schema.delayOf delay resolution.info).sum

variable {schema : Schema σ} {delay : String → String → Nat} {info : ResolveInfo} {now finish : Nat}
  {log : List (Nat × Act σ)} {outcome : Except ResolverError Value}

/-- A field whose resolver acts on the state takes its one step
when its time is over. -/
theorem logs_acting {f : ResolveInfo → σ → Outcome × σ} {duration : Nat}
    (bound : schema.resolver? info.parentType info.field = some ((Resolver.acting f).delayed duration))
    (logs : Logs ((schema.dispatch info).watched (Act.mk info)) now log outcome finish) :
    finish = now + duration ∧ ∃ s, log = [(finish, ⟨info, s, (f info s).2⟩)] ∧ outcome = (f info s).1.settle := by
  simp only [dispatch, bound, Task.watched_bind] at logs
  obtain ⟨result, asked, rfl⟩ := Logs.of_bind_done logs
  obtain ⟨rfl, s, rfl, rfl⟩ := asked.of_after.of_access
  exact ⟨rfl, s, rfl, rfl⟩

/-- Every field takes the time of its resolver and acts when that
is over, if at all. -/
theorem ActsAfter.logs (timed : schema.ActsAfter delay)
    (logs : Logs ((schema.dispatch info).watched (Act.mk info)) now log outcome finish) :
    finish = now + schema.delayOf delay info ∧ ∀ entry ∈ log, entry.1 = finish ∧ entry.2.info = info := by
  cases bound : schema.resolver? info.parentType info.field with
  | none =>
    simp only [dispatch, bound] at logs
    cases logs
    exact ⟨by simp [delayOf, bound], List.forall_mem_nil _⟩
  | some resolver =>
    have takes : schema.delayOf delay info = delay info.parentType info.field := by simp [delayOf, bound]
    cases timed _ _ resolver bound with
    | acting f =>
      obtain ⟨ends, s, rfl, _⟩ := logs_acting bound logs
      exact ⟨takes ▸ ends, List.forall_mem_singleton.mpr ⟨rfl, rfl⟩⟩
    | immediate f =>
      simp only [dispatch, bound, Task.watched_bind] at logs
      obtain ⟨result, asked, _⟩ := Logs.of_bind_done logs
      cases asked.of_after
      exact ⟨takes ▸ rfl, List.forall_mem_nil _⟩

theorem ActsAfter.awake (timed : schema.ActsAfter delay)
    (none : ∀ type field, (schema.resolver? type field).isSome → delay type field = 0) : schema.Awake := by
  intro type field resolver bound info
  have atOnce : delay type field = 0 := none type field (by simp [bound])
  cases timed type field resolver bound with
  | acting f =>
    rw [atOnce]
    exact fun _ => trivial
  | immediate f =>
    rw [atOnce]
    trivial

theorem dueTime_perm {resolutions others : List Resolution} (permuted : resolutions.Perm others) (path : Path) :
    schema.dueTime delay resolutions path = schema.dueTime delay others path :=
  ((permuted.filter _).map _).sum_nat

variable {visits : List (Visit (Act σ))}

/-- The time of a visit and the times of those above it are what
is due at its end. -/
theorem dueTime_visits (distinct : (visits.map Visit.path).Nodup)
    (took : ∀ visit ∈ visits, visit.took = schema.delayOf delay visit.resolution.info) {visit : Visit (Act σ)}
    (member : visit ∈ visits) :
    Visit.spentAbove visits visit.path + visit.took =
      schema.dueTime delay (visits.map Visit.resolution) visit.path := by
  have due : schema.dueTime delay (visits.map Visit.resolution) visit.path =
      ((visits.filter fun other => other.path <+: visit.path).map Visit.took).sum := by
    simp only [dueTime, List.filter_map, List.map_map]
    refine congrArg List.sum (List.map_congr_left fun other inside => ?_)
    exact (took other (List.mem_filter.mp inside).1).symm
  -- the visits on the way to a place are the one at the place and those above it
  have own : (visits.filter fun other => other.path <+: visit.path).filter
      (fun other => !decide (other.path ≠ visit.path)) = [visit] := by
    rw [← filter_eq_singleton_of_nodup distinct member, List.filter_filter]
    refine List.filter_congr fun other _ => ?_
    by_cases same : other.path = visit.path <;> simp [same]
  have above : (visits.filter fun other => other.path <+: visit.path).filter
      (fun other => decide (other.path ≠ visit.path)) =
        visits.filter fun other => other.path <+: visit.path ∧ other.path ≠ visit.path := by
    rw [List.filter_filter]
    refine List.filter_congr fun other _ => ?_
    rw [Bool.decide_and, Bool.and_comm]
  have split := List.filter_append_perm (fun other => decide (other.path ≠ visit.path))
    (visits.filter fun other => other.path <+: visit.path)
  rw [own, above] at split
  rw [due, ← (split.map Visit.took).sum_nat]
  simp [Visit.spentAbove]

variable {settings : ExecutionSettings} {request : Request} {root : Value} {state : σ}

/-- Where fields are worked on at the same time, each step is
taken when it is due. -/
theorem ActsAfter.acts_due (timed : schema.ActsAfter delay) (query : request.operation = .query)
    (together : settings.parallelFields = true) {data : Value}
    (answered : (schema.execute settings request root state).1.data = some data) :
    (schema.acts settings request root state).Pairwise fun one two =>
      schema.dueTime delay (schema.resolutions settings request root state) one.info.path ≤
        schema.dueTime delay (schema.resolutions settings request root state) two.info.path := by
  obtain ⟨type, completed, final, log, visits, _, _, acts, inOrder, resolutions, traced⟩ := acted_of_data answered
  have genuine := traced.timeline.genuine
  have distinct : (visits.map Visit.path).Nodup := by
    have paths := traced.executes.paths.1
    rwa [List.map_map] at paths
  have took : ∀ visit ∈ visits, visit.took = schema.delayOf delay visit.resolution.info := fun visit member =>
    Nat.add_left_cancel (timed.logs (genuine visit member)).1
  -- nothing waits for what is not above it, so the time of a step is the sum
  -- of the delays up to it
  have due : ∀ entry ∈ log, entry.1 =
      schema.dueTime delay (schema.resolutions settings request root state) entry.2.info.path := by
    intro entry listed
    obtain ⟨visit, member, logged⟩ := List.mem_flatMap.mp (traced.timeline.noted.subset listed)
    obtain ⟨time, own⟩ := (timed.logs (genuine visit member)).2 entry logged
    have start := traced.timeline.timely ⟨together, by rw [query]; rfl⟩ visit member
    rw [time, start, Nat.zero_add, own, dueTime_perm resolutions]
    exact dueTime_visits distinct took member
  rw [acts, List.pairwise_map]
  refine inOrder.imp_of_mem fun oneListed twoListed before => ?_
  rwa [due _ oneListed, due _ twoListed] at before

/-- The steps on the state are those of the fields that are asked for their
values, one for each field whose resolver acts on the state. -/
theorem ActsAfter.acts_once (timed : schema.ActsAfter delay) {data : Value}
    (answered : (schema.execute settings request root state).1.data = some data) :
    ((schema.resolutions settings request root state).map Resolution.path).Nodup ∧
      (∀ act ∈ schema.acts settings request root state,
        ∃ resolution ∈ schema.resolutions settings request root state, resolution.info = act.info) ∧
      ∀ resolution ∈ schema.resolutions settings request root state, ∀ f duration,
        schema.resolver? resolution.info.parentType resolution.info.field =
            some ((Resolver.acting f).delayed duration) →
          ∃ before, (schema.acts settings request root state).filter (fun act => act.info.path = resolution.path) =
            [⟨resolution.info, before, (f resolution.info before).2⟩] := by
  obtain ⟨type, completed, final, log, visits, _, _, acts, _, resolutions, traced⟩ := acted_of_data answered
  have genuine := traced.timeline.genuine
  have paths := traced.executes.paths.1
  have distinct : (visits.map Visit.path).Nodup := by
    rwa [List.map_map] at paths
  have own : ∀ visit ∈ visits, ∀ act ∈ visit.log.map Prod.snd, act.info = visit.resolution.info := by
    intro visit member act listed
    obtain ⟨entry, logged, rfl⟩ := List.mem_map.mp listed
    exact ((timed.logs (genuine visit member)).2 entry logged).2
  have whole : (log.map Prod.snd).Perm (visits.flatMap fun visit => visit.log.map Prod.snd) := by
    rw [← List.map_flatMap]
    exact traced.timeline.noted.map Prod.snd
  refine ⟨(resolutions.map Resolution.path).nodup_iff.mpr paths, fun act listed => ?_,
    fun resolution asked f duration bound => ?_⟩
  · rw [acts] at listed
    obtain ⟨visit, member, logged⟩ := List.mem_flatMap.mp (whole.subset listed)
    exact ⟨visit.resolution, resolutions.symm.subset (List.mem_map_of_mem member),
      (own visit member act logged).symm⟩
  · obtain ⟨visit, member, rfl⟩ := List.mem_map.mp (resolutions.subset asked)
    obtain ⟨_, before, logged, _⟩ := logs_acting bound (genuine visit member)
    have alone : (visits.flatMap fun visit => visit.log.map Prod.snd).filter
        (fun act => act.info.path = visit.resolution.path) = visit.log.map Prod.snd :=
      filter_flatMap_of_nodup
        (fun other inside act listed => congrArg ResolveInfo.path (own other inside act listed)) distinct member
    have asked := whole.filter fun act => decide (act.info.path = visit.resolution.path)
    rw [alone, logged] at asked
    rw [acts]
    exact ⟨before, List.perm_singleton.mp asked⟩

/-- In a query whose fields are worked on at the same time, of two resolvers the
one acts first for which the delays at its path and above it are less in sum. If
there are no delays, resolvers act in depth-first order of the response. -/
theorem effects_in_due_order (timed : schema.ActsAfter delay) (query : request.operation = .query)
    (together : settings.parallelFields = true) (unlimited : settings.deadline = none) (root : Value) (state : σ) :
    let resolutions := schema.resolutions settings request root state
    let acts := schema.acts settings request root state
    (acts.Pairwise fun one two => schema.dueTime delay resolutions one.info.path ≤
        schema.dueTime delay resolutions two.info.path) ∧
      ((∀ type field, (schema.resolver? type field).isSome → delay type field = 0) →
        acts.Pairwise fun one two =>
          DepthFirst schema (schema.position? settings request root state) one.info.path two.info.path) ∧
      ∀ data, (schema.execute settings request root state).1.data = some data →
        (resolutions.map Resolution.path).Nodup ∧
        (∀ act ∈ acts, ∃ resolution ∈ resolutions, resolution.info = act.info) ∧
        ∀ resolution ∈ resolutions, ∀ f duration,
          schema.resolver? resolution.info.parentType resolution.info.field =
              some ((Resolver.acting f).delayed duration) →
            ∃ before, acts.filter (fun act => act.info.path = resolution.path) =
              [⟨resolution.info, before, (f resolution.info before).2⟩] := by
  refine ⟨?_, fun none => ?_, fun data answered => timed.acts_once answered⟩
  · rcases schema.refused_or_data unlimited request root state with none | ⟨data, answered⟩
    · exact none ▸ .nil
    · exact timed.acts_due query together answered
-- where no resolver sleeps, the fields might as well be worked
-- on one after another
  · have awake := timed.awake none
    let sequential : ExecutionSettings := { settings with parallelFields := false }
    have sameDepth : settings.maxDepth = sequential.maxDepth := rfl
    have oneByOne : sequential.parallelFields = false := rfl
    rw [awake.acts_eq sameDepth, awake.position?_eq request root state settings sequential]
    exact schema.acts_depthFirst oneByOne unlimited request root state

/-- A list that takes some time, of objects with a quick and a slow field,
and a field beside it. -/
def journalTypes : List (TypeDef (List String)) := [
  .object { name := "Line", fields := [
    { name := "debit", type := .builtIn .int, resolver := some ((scribe "debit" (.error ⟨"no", []⟩)).delayed 5) },
    { name := "credit", type := .builtIn .int
      resolver := some ((scribe "credit" (.value (.int 1))).delayed 1) }] },
  .object { name := "Query", fields := [
    { name := "total", type := .builtIn .int, resolver := some ((scribe "total" (.value (.int 2))).delayed 4) },
    { name := "lines", type := .list (.named "Line")
      resolver := some ((scribe "lines" (.value (.list [.object [], .object []]))).delayed 1) },
    { name := "title", type := .builtIn .string
      resolver := some ((Resolver.immediate fun _ => .value (.string "June")).delayed 0) }] }]

def journalSchema : Schema (List String) := journalTypes.foldl .insert .empty

def journalDelay (_ field : String) : Nat :=
  if field = "debit" then 5 else if field = "total" then 4 else if field = "title" then 0 else 1

theorem actsAfter_journalSchema : journalSchema.ActsAfter journalDelay := by
  have each : ∀ entry ∈ journalSchema.resolvers, ∀ bound ∈ entry.2,
      bound.2.ActsAfter (journalDelay entry.1 bound.1) :=
    List.forall_mem_cons.mpr ⟨List.forall_mem_cons.mpr ⟨.acting _, List.forall_mem_cons.mpr ⟨.acting _, nofun⟩⟩,
      List.forall_mem_cons.mpr ⟨List.forall_mem_cons.mpr ⟨.acting _, List.forall_mem_cons.mpr ⟨.acting _,
        List.forall_mem_cons.mpr ⟨.immediate _, nofun⟩⟩⟩, nofun⟩⟩
  intro type field resolver found
  obtain ⟨own, ofType, ofField⟩ := mem_of_resolver? found
  exact each (type, own) ofType (field, resolver) ofField

def journalRequest : Request where
  selectionSet := [.field { name := "total" } [],
    .field { name := "lines" } [.field { name := "debit" } [], .field { name := "credit" } []],
    .field { name := "title" } []]

/-- The credits below the list are written before the field that is asked first,
and the debits after it. -/
theorem effects_in_due_order_journal :
    let resolutions := journalSchema.resolutions {} journalRequest .null []
    let acts := journalSchema.acts {} journalRequest .null []
    journalSchema.ActsAfter journalDelay ∧
      acts.map (fun act => (journalSchema.dueTime journalDelay resolutions act.info.path, act.after.getLast?)) =
        [(1, some "lines"), (2, some "credit"), (2, some "credit"), (4, some "total"), (6, some "debit"),
          (6, some "debit")] ∧
      (acts.Pairwise fun one two => journalSchema.dueTime journalDelay resolutions one.info.path ≤
          journalSchema.dueTime journalDelay resolutions two.info.path) := by
  refine ⟨actsAfter_journalSchema, rfl, ?_⟩
  exact (effects_in_due_order actsAfter_journalSchema rfl rfl rfl .null []).1

end Schema

end SelectionEngine
