import SelectionEngine.Proofs.Execution.Dispatches
import SelectionEngine.Proofs.Execution.ErrorOrder

namespace SelectionEngine

/-- Whether the extensions of a report have all entries of other
ones, with their values. -/
def Report.Keeps (report : Report) (extensions : Object) : Prop :=
  ∀ key value, Entries.get? key extensions = some value → Entries.get? key report.extensions = some value

/-- Whether a code among the extensions of an error, if there is
one, is a text. -/
def ResolverError.HasPlainCode (error : ResolverError) : Prop :=
  ∀ value, Entries.get? "code" error.extensions = some value → ∃ text, value = .string text

namespace ResolverError

variable (error : ResolverError) (path : Option Path)

theorem get?_code_report :
    Entries.get? "code" (Reportable.report error path).extensions = some (.string (Reportable.code error)) :=
  (Entries.get?_set ..).trans (if_pos rfl)

theorem get?_report {key : String} (other : key ≠ "code") :
    Entries.get? key (Reportable.report error path).extensions = Entries.get? key error.extensions :=
  (Entries.get?_set ..).trans (if_neg other.symm)

variable {error}

theorem code_of_text {text : String} (given : Entries.get? "code" error.extensions = some (.string text)) :
    Reportable.code error = text := by
  simp [Reportable.code, given, Value.asString?]

theorem code_of_no_text (none : ∀ text, Entries.get? "code" error.extensions ≠ some (.string text)) :
    Reportable.code error = "RESOLVER_ERROR" := by
  cases given : Entries.get? "code" error.extensions with
  | none => simp [Reportable.code, given]
  | some value =>
    cases value with
    | string text => exact absurd given (none text)
    | _ => simp [Reportable.code, given, Value.asString?]

/-- A report has the extensions of the error, unless there is a
code that is no text. -/
theorem keeps_report_iff : (Reportable.report error path).Keeps error.extensions ↔ error.HasPlainCode := by
  constructor
  · intro keeps value given
    have kept := keeps "code" value given
    rw [get?_code_report] at kept
    exact ⟨_, (Option.some.inj kept).symm⟩
  · intro plain key value given
    by_cases same : key = "code"
    · subst same
      obtain ⟨text, rfl⟩ := plain value given
      rw [get?_code_report, code_of_text given]
    · rw [get?_report error path same, given]

end ResolverError

variable {ρ : Type} {schema : Schema ρ} {variableValues : Object}

/-- Whatever becomes of the values around it, a field that failed is reported
with the error of its resolver. -/
theorem Executes.reported {subject : Subject ρ} {path : Path} {account : Account}
    (executes : Executes schema variableValues subject path account) :
    ∀ resolution ∈ account.resolutions, ∀ error, resolution.outcome = .error error →
      Reportable.report error (some resolution.path) ∈ account.completed.errors := by
  induction executes with
  | object length _ ih =>
    intro resolution member error failed
    obtain ⟨n, group, part, atGroup, atPart, inside, _⟩ := Account.exists_of_resolution length member
    rw [Account.errors_ofFields, ← List.flatMap_def]
    have reported := ih n group part atGroup atPart resolution inside error failed
    exact List.mem_flatMap.mpr ⟨part, List.mem_of_getElem? atPart, reported⟩
  | list length _ ih =>
    intro resolution member error failed
    obtain ⟨n, item, part, atItem, atPart, inside, _⟩ := Account.exists_of_resolution length member
    rw [Account.errors_ofItems, ← List.flatMap_def]
    have reported := ih n item part atItem atPart resolution inside error failed
    exact List.mem_flatMap.mpr ⟨part, List.mem_of_getElem? atPart, reported⟩
  | unresolved =>
    refine List.forall_mem_singleton.mpr fun error failed => ?_
    cases failed
    unfold Run.fieldFailure
    split <;> exact .head _
  | resolved _ _ _ _ ih =>
    exact List.forall_mem_cons.mpr ⟨nofun, ih⟩
  | strict _ ih =>
    intro resolution member error failed
    have listed := ih resolution member error failed
    unfold Completed.refuseNull
    split
    · exact List.mem_append_left _ listed
    · exact listed
  | lenient _ _ ih | wrapped _ _ ih | named _ _ ih => exact ih
  | typename | badArguments | null | scalar | leaf | rejected => exact nofun

theorem ErrorsInOrder.nodup_paths {position? : Path → Option Position} {errors : List Report}
    (inOrder : ErrorsInOrder schema position? errors) : (errors.map Report.path).Nodup := by
  refine List.pairwise_map.mpr (inOrder.apart.imp_of_mem fun {one two} inOne inTwo apart same => ?_)
  obtain ⟨path, known⟩ := inOrder.located one inOne
  exact (apart path path known (same ▸ known)).1 (List.prefix_refl _)

namespace Schema

variable {σ : Type} {schema : Schema σ} {settings : ExecutionSettings} {request : Request} {root : Value}
  {state : σ}

theorem report_of_failed {data : Value}
    (answered : (schema.execute settings request root state).1.data = some data) {resolution : Resolution}
    (asked : resolution ∈ schema.resolutions settings request root state) {error : ResolverError}
    (failed : resolution.outcome = .error error) :
    Reportable.report error (some resolution.path) ∈ (schema.execute settings request root state).1.errors := by
  obtain ⟨_, account, _, executes, log, _, errors⟩ := account_of_data answered
  rw [errors]
  exact executes.reported resolution (log.subset asked) error failed

/-- The error of a resolver is reported once, with its message and its extensions.
Only a code that is no text is replaced, as is one that is missing. -/
theorem resolver_error_reported {data : Value}
    (answered : (schema.execute settings request root state).1.data = some data) {resolution : Resolution}
    (asked : resolution ∈ schema.resolutions settings request root state) {error : ResolverError}
    (failed : resolution.outcome = .error error) :
    ∃ report, (schema.execute settings request root state).1.errors.filter
        (fun other => other.path = some resolution.path) = [report] ∧
      report.message = error.message ∧
      (∀ key, key ≠ "code" → Entries.get? key report.extensions = Entries.get? key error.extensions) ∧
      (∀ text, Entries.get? "code" error.extensions = some (.string text) →
        Entries.get? "code" report.extensions = some (.string text)) ∧
      ((∀ text, Entries.get? "code" error.extensions ≠ some (.string text)) →
        Entries.get? "code" report.extensions = some (.string "RESOLVER_ERROR")) ∧
      (report.Keeps error.extensions ↔ error.HasPlainCode) := by
  have reported := report_of_failed answered asked failed
  have code := error.get?_code_report (some resolution.path)
  refine ⟨Reportable.report error (some resolution.path), ?_, rfl, fun key => error.get?_report _,
    fun text given => ?_, fun none => ?_, ResolverError.keeps_report_iff _⟩
  · exact filter_eq_singleton_of_nodup (errors_in_order answered).nodup_paths reported
  · rw [code, ResolverError.code_of_text given]
  · rw [code, ResolverError.code_of_no_text none]

/-- An invoice whose resolvers fail at once and after a while, one of them
with a number for a code. -/
def invoiceTypes : List (TypeDef Unit) := [
  .object { name := "Line", fields := [
    { name := "price", type := .nonNull (.builtIn .int)
      resolver := some ((Resolver.immediate fun _ =>
        .error ⟨"no price",
          [("retry", .bool true), ("code", .string "STALE"), ("since", .list [.int 3])]⟩).delayed 2) },
    { name := "tax", type := .builtIn .int
      resolver := some (.immediate fun _ => .error ⟨"no tax", [("code", .int 7), ("unit", .null)]⟩) }] },
  .object { name := "Query", fields := [{ name := "lines", type := .list (.named "Line") }] }]

def invoiceSchema : Schema Unit := invoiceTypes.foldl .insert .empty

def invoiceRequest : Request where
  selectionSet := [.field { name := "lines" } [.field { name := "price" } [], .field { name := "tax" } []]]

def invoiceRoot : Value := .object [("lines", .list [.object []])]

theorem resolutions_invoiceSchema : ∃ lines tax price,
    invoiceSchema.resolutions {} invoiceRequest invoiceRoot () = [lines, tax, price] ∧
      tax.path = [.key "lines", .index 0, .key "tax"] ∧
      tax.outcome = .error ⟨"no tax", [("code", .int 7), ("unit", .null)]⟩ ∧
      price.path = [.key "lines", .index 0, .key "price"] ∧
      price.outcome =
        .error ⟨"no price", [("retry", .bool true), ("code", .string "STALE"), ("since", .list [.int 3])]⟩ :=
  ⟨_, _, _, rfl, rfl, rfl, rfl, rfl⟩

/-- The price fails after a while and takes its line with it, and it is reported
with all that its error has. -/
theorem resolver_error_reported_price : ∃ price ∈ invoiceSchema.resolutions {} invoiceRequest invoiceRoot (),
    ∃ error, price.outcome = .error error ∧
      (invoiceSchema.execute {} invoiceRequest invoiceRoot ()).1.data = some (.object [("lines", .list [.null])]) ∧
      ∃ report, (invoiceSchema.execute {} invoiceRequest invoiceRoot ()).1.errors.filter
          (fun other => other.path = some [.key "lines", .index 0, .key "price"]) = [report] ∧
        report.message = "no price" ∧ report.Keeps error.extensions := by
  obtain ⟨lines, tax, price, asked, _, _, place, outcome⟩ := resolutions_invoiceSchema
  have member : price ∈ invoiceSchema.resolutions {} invoiceRequest invoiceRoot () := by simp [asked]
  have answered : (invoiceSchema.execute {} invoiceRequest invoiceRoot ()).1.data =
      some (.object [("lines", .list [.null])]) := rfl
  obtain ⟨report, once, message, _, _, _, keeps⟩ := resolver_error_reported answered member outcome
  refine ⟨price, member, _, outcome, answered, report, place ▸ once, message, keeps.mpr fun value given => ?_⟩
  exact ⟨"STALE", (Option.some.inj given).symm⟩

/-- A code that is a number is not reported as it is given. -/
theorem numeric_code_replaced : ∃ tax ∈ invoiceSchema.resolutions {} invoiceRequest invoiceRoot (),
    ∃ error, tax.outcome = .error error ∧
      (invoiceSchema.execute {} invoiceRequest invoiceRoot ()).1.data = some (.object [("lines", .list [.null])]) ∧
      Entries.get? "code" error.extensions = some (.int 7) ∧
      ¬ ∃ report ∈ (invoiceSchema.execute {} invoiceRequest invoiceRoot ()).1.errors,
        report.path = some tax.path ∧ report.Keeps error.extensions := by
  obtain ⟨lines, tax, price, asked, place, outcome, _⟩ := resolutions_invoiceSchema
  refine ⟨tax, by simp [asked], _, outcome, rfl, rfl, ?_⟩
  rintro ⟨report, member, known, keeps⟩
  rw [place] at known
  have errors : (invoiceSchema.execute {} invoiceRequest invoiceRoot ()).1.errors =
      [⟨"no price", some [.key "lines", .index 0, .key "price"],
          [("retry", .bool true), ("code", .string "STALE"), ("since", .list [.int 3])]⟩,
        ⟨"no tax", some [.key "lines", .index 0, .key "tax"],
          [("code", .string "RESOLVER_ERROR"), ("unit", .null)]⟩] := rfl
  rw [errors] at member
  rcases List.mem_cons.mp member with rfl | later
  · simp at known
  · obtain rfl := List.mem_singleton.mp later
    exact absurd (keeps "code" (.int 7) rfl) (by decide)

end Schema

end SelectionEngine
