import SelectionEngine.Proofs.Execution.Fitting
import SelectionEngine.Proofs.Showcase.Inputs

namespace SelectionEngine.Showcase

/-- The errors that the resolvers give. -/
inductive Refusal : ResolverError → Prop
  | count (n : Int) :
      Refusal ⟨s!"cannot roll {n} dice, the number of dice must be between 0 and {maxDice}", []⟩
  | sides (n : Int) : Refusal ⟨s!"a die needs at least one side, got {n}", []⟩
  | missing (id : String) : Refusal (.ofReportable (NotFoundError.mk messages id))

/-- Dice show numbers from one to the number of their sides. -/
theorem roll_cases (draw : Nat → Nat) (count sides : Int) :
    (∃ error, roll draw count sides = .error error ∧ Refusal error) ∨
      ∃ values, roll draw count sides = .ok values ∧ values.length = count.toNat ∧
        ∀ value ∈ values, ∃ n, value = .int n ∧ 1 ≤ n ∧ n ≤ sides := by
  unfold roll
  split
  · exact .inl ⟨_, rfl, .count count⟩
  · split
    · exact .inl ⟨_, rfl, .sides sides⟩
    · next enough =>
      refine .inr ⟨_, rfl, by simp, fun value listed => ?_⟩
      obtain ⟨n, _, rfl⟩ := List.mem_map.mp listed
      have positive : 0 < sides := by omega
      have lower := Int.emod_nonneg (draw n) (Int.ne_of_gt positive)
      have upper := Int.emod_lt_of_pos (draw n) positive
      exact ⟨_, rfl, by omega, by omega⟩

/-- What a field publishes that is called like this. -/
def publication? (info : ResolveInfo) : Option (String × Object) :=
  if info.parentType = "Mutation" ∧ (info.field = "createArticle" ∨ info.field = "createPodcast") then
    some (info.field, (Resolver.inputFields info).toOption.getD [])
  else none

variable {draw : Draws} {type : ObjectType Store} {field : FieldDef Store}

theorem publication?_eq_none {info : ResolveInfo} (other : info.parentType ≠ "Mutation") :
    publication? info = none :=
  if_neg fun names => other names.1

variable (draw type field) in
/-- The field is called on an object of the type with arguments
of the declared types. -/
structure Called (info : ResolveInfo) : Prop where
  parentType : info.parentType = type.name
  fieldName : info.field = field.name
  arguments : ∃ given, FieldsCoerceTo (served draw) field.arguments given info.arguments

variable (draw type field) in
/-- The resolver of a field keeps the store in order. On an object of its type
it gives a value of the type of the field, or one of the known errors. -/
def Reliable : Prop :=
  ∀ resolver, (served draw).resolver? type.name field.name = some resolver → ∀ info, Called draw type field info →
    ∀ history store, Stocked history store →
      Stocked (history ++ (publication? info).toList) ((resolver info).run store).2 ∧
        ((served draw).FitsProperties type info.parent →
          (served draw).FitsOutcome Refusal field.type ((resolver info).run store).1.settle) ∧
        ∀ entry, publication? info = some entry →
          ((resolver info).run store).1 = .value (.object (Record.made (toString (history.length + 1)) entry.2 []))

theorem reliable_of_property (unbound : (served draw).resolver? type.name field.name = none) :
    Reliable draw type field := by
  intro resolver bound
  simp [unbound] at bound

/-- A field that is not one of a mutation publishes nothing. -/
theorem reliable_of_reading {resolver : Resolver Store} (query : type.name ≠ "Mutation")
    (bound : (served draw).resolver? type.name field.name = some resolver)
    (reads : ∀ info store, ((resolver info).run store).2 = store)
    (fits : ∀ info, Called draw type field info → (served draw).FitsProperties type info.parent →
      ∀ history store, Stocked history store →
        (served draw).FitsOutcome Refusal field.type ((resolver info).run store).1.settle) :
    Reliable draw type field := by
  intro own found info called history store stocked
  obtain rfl := Option.some.inj (bound.symm.trans found)
  have none := publication?_eq_none (called.parentType ▸ query)
  rw [none, Option.toList_none, List.append_nil, reads]
  exact ⟨stocked, fun parent => fits info called parent history store stocked, nofun⟩

theorem settle_ofExcept (outcome : Except ResolverError Value) : (Outcome.ofExcept outcome).settle = outcome := by
  cases outcome <;> rfl

theorem reliable_of_computing {f : ResolveInfo → Except ResolverError Value} (query : type.name ≠ "Mutation")
    (bound : (served draw).resolver? type.name field.name = some (computing f))
    (fits : ∀ info, Called draw type field info → (served draw).FitsProperties type info.parent →
      (served draw).FitsOutcome Refusal field.type (f info)) : Reliable draw type field := by
  refine reliable_of_reading query bound (fun _ _ => rfl) fun info called parent _ store _ => ?_
  rw [show ((computing f info).run store).1 = .ofExcept (f info) from rfl, settle_ofExcept]
  exact fits info called parent

section dice

theorem fits_string (text : String) : Fits (served draw) (optional .string) (.string text) := .leaf rfl

theorem fits_int {n : Int} (lower : -0x80000000 ≤ n) (upper : n < 0x80000000) :
    Fits (served draw) (optional .int) (.int n) := by
  have completed : BuiltIn.complete? .int (.int n) = some (.int n) := by
    simp only [BuiltIn.complete?, Value.asInt32?, if_pos (And.intro lower upper)]
    rfl
  exact .leaf completed

/-- What dice with sides of 32 bits show fits the type of a list of integers. -/
theorem fitsOutcome_roll (numbers : Nat → Nat) (count : Int) {sides : Int} (few : sides < 0x80000000) :
    (served draw).FitsOutcome Refusal (.list (optional .int)) ((roll numbers count sides).map .list) := by
  rcases roll_cases numbers count sides with ⟨error, rolled, refusal⟩ | ⟨values, rolled, _, each⟩ <;> rw [rolled]
  · exact refusal
  · refine Fits.list fun value listed => ?_
    obtain ⟨n, rfl, lower, upper⟩ := each value listed
    exact fits_int (by omega) (by omega)

/-- One die shows a number. -/
theorem fitsOutcome_rollOnce (numbers : Nat → Nat) {sides : Int} (few : sides < 0x80000000) :
    (served draw).FitsOutcome Refusal (required .int) ((roll numbers 1 sides).map (·.headD .null)) := by
  rcases roll_cases numbers 1 sides with ⟨error, rolled, refusal⟩ | ⟨values, rolled, length, each⟩ <;> rw [rolled]
  · exact refusal
  · obtain ⟨value, rfl⟩ := List.length_eq_one_iff.mp length
    obtain ⟨n, rfl, lower, upper⟩ := each value (.head _)
    exact .nonNull nofun (fits_int (by omega) (by omega))

/-- A die with a fitting property has sides of 32 bits. -/
theorem exists_parentSides {info : ResolveInfo}
    (parent : (served draw).FitsProperties ((bindings draw).bindObject randomDie) info.parent) :
    ∃ n, parentSides info = .ok n ∧ -0x80000000 ≤ n ∧ n < 0x80000000 := by
  have fits : Fits (served draw) (required .int) ((info.parent.property? "numSides").getD .null) :=
    parent _ (.head _) rfl
  obtain ⟨present, fits⟩ := fits.of_nonNull
  obtain ⟨n, same, lower, upper⟩ := fits.of_int present
  have bounds : -0x8000000000000000 ≤ n ∧ n < 0x8000000000000000 := by omega
  refine ⟨n, ?_, lower, upper⟩
  cases found : info.parent.property? "numSides" with
  | none => simp [found] at present
  | some value =>
    obtain rfl : value = .int n := by rwa [found] at same
    simp only [parentSides, found, Option.bind_some, Value.asInt64?, if_pos bounds]

theorem reliable_randomDie : ∀ field ∈ ((bindings draw).bindObject randomDie).fields,
    Reliable draw ((bindings draw).bindObject randomDie) field := by
  refine List.forall_mem_cons.mpr ⟨reliable_of_property rfl, List.forall_mem_cons.mpr ⟨?rollOnce,
    List.forall_mem_singleton.mpr ?roll⟩⟩
  case rollOnce =>
    refine reliable_of_computing (show randomDie.name ≠ _ by decide) rfl fun info _ parent => ?_
    obtain ⟨n, known, _, few⟩ := exists_parentSides parent
    rw [known]
    exact fitsOutcome_rollOnce (draw info.path) few
  case roll =>
    refine reliable_of_computing (show randomDie.name ≠ _ by decide) rfl fun info called parent => ?_
    obtain ⟨n, known, _, few⟩ := exists_parentSides parent
    obtain ⟨given, coerces⟩ := called.arguments
    obtain ⟨count, asked⟩ := exists_int coerces (.head _)
    rw [known, asked]
    exact fitsOutcome_roll (draw info.path) count few

end dice

section records

/-- A record fits an object type with an id and texts. -/
theorem fits_record (keys : List String) {name : String} {type : ObjectType Store} {record : Record}
    (isRecord : IsRecord record)
    (found : ∀ path, (served draw).concreteType? name (.object record) path = .ok (some type))
    (fields : (type.fields.map fun field => (field.name, field.type)) =
      ("id", required .id) :: keys.map fun key => (key, optional .string))
    (others : "id" ∉ keys) : Fits (served draw) (.named name) (.object record) := by
  obtain ⟨id, rest, rfl, texts⟩ := isRecord
  refine .object found fun field listed _ => ?_
  have property : (Value.object (("id", .string id) :: rest)).property? field.name =
      if "id" = field.name then some (.string id) else Entries.get? field.name rest := rfl
  have known : (field.name, field.type) ∈ type.fields.map fun field => (field.name, field.type) :=
    List.mem_map_of_mem listed
  rw [property]
  rcases List.mem_cons.mp (fields ▸ known) with own | text
  · obtain ⟨named, type⟩ := Prod.mk.inj own
    rw [if_pos named.symm, type]
    exact .nonNull nofun (.leaf rfl)
  · obtain ⟨key, member, same⟩ := List.mem_map.mp text
    obtain ⟨rfl, string⟩ := Prod.mk.inj same
    rw [if_neg (fun own : "id" = field.name => others (own ▸ member)), ← string]
    cases present : Entries.get? field.name rest with
    | none => exact .null rfl
    | some value =>
      rcases texts _ (Entries.mem_of_get? present) with null | ⟨text, string⟩
      · rw [show value = .null from null]
        exact .null rfl
      · rw [show value = .string text from string]
        exact fits_string text

theorem fits_message {record : Record} (isRecord : IsRecord record) :
    Fits (served draw) (.named "Message") (.object record) :=
  fits_record ["content", "author"] isRecord (fun _ => rfl) rfl (by decide)

theorem fits_article {record : Record} (isRecord : IsRecord record) :
    Fits (served draw) (.named "Article") (.object record) :=
  fits_record ["title", "bodyText"] isRecord (fun _ => rfl) rfl (by decide)

theorem fits_podcast {record : Record} (isRecord : IsRecord record) :
    Fits (served draw) (.named "Podcast") (.object record) :=
  fits_record ["title", "audio"] isRecord (fun _ => rfl) rfl (by decide)

/-- The object type of what a field publishes. -/
def typeOf (field : String) : String := if field = "createArticle" then "Article" else "Podcast"

/-- The interface resolves every published record to the type of
the field that made it. -/
theorem resolveConcrete_published {field : String} {record : Record} (publishes : Publishes field record) :
    (served draw).resolveConcrete contentInterface (.object record) = .ok (typeOf field) := by
  have implementors : (served draw).implementorsOf contentInterface.name = ["Article", "Podcast"] := rfl
  have article : (served draw).acceptedBy (.object record) "Article" = Entries.contains record "bodyText" := rfl
  have podcast : (served draw).acceptedBy (.object record) "Podcast" = Entries.contains record "audio" := rfl
  simp only [Schema.resolveConcrete, implementors]
  cases publishes with
  | article _ body => simp [contentInterface, article, body, typeOf]
  | podcast _ noBody audio => simp [contentInterface, article, podcast, noBody, audio, typeOf]

theorem fits_content {field : String} {record : Record} (publishes : Publishes field record) :
    Fits (served draw) (.named "Content") (.object record) := by
  have interface : (served draw).lookup? "Content" = some (.interface contentInterface) := rfl
  have resolved : (served draw).resolveConcrete contentInterface (.object record) = .ok (typeOf field) :=
    resolveConcrete_published publishes
  cases publishes with
  | article isRecord =>
    refine (fits_article isRecord).of_resolved rfl fun path => ?_
    simp only [Schema.concreteType?, interface, resolved]
    rfl
  | podcast isRecord =>
    refine (fits_podcast isRecord).of_resolved rfl fun path => ?_
    simp only [Schema.concreteType?, interface, resolved]
    rfl

end records

section queries

theorem fits_option {type : TypeRef} (nullable : type.isNonNull = false) {value? : Option Value}
    (fits : ∀ value, value? = some value → Fits (served draw) type value) :
    Fits (served draw) type (value?.getD .null) := by
  cases value? with
  | none => exact .null nullable
  | some value => exact fits value rfl

theorem reads_getRecord {collection : String} (info : ResolveInfo) (store : Store) :
    ((Resolver.getRecord collection info).run store).2 = store := by
  simp only [Resolver.getRecord, Resolver.acting, Task.access, Task.run]
  cases Resolver.recordId info <;> rfl

/-- The record of an id that can be read fits, if all records do. -/
theorem fitsOutcome_getRecord {name : String} {collection : String} {info : ResolveInfo}
    {store : Store} {id : String} (asked : Resolver.recordId info = .ok id)
    (fits : ∀ record, store.get? (store.handle collection) id = some record →
      Fits (served draw) (.named name) (.object record)) :
    (served draw).FitsOutcome Refusal (.named name) ((Resolver.getRecord collection info).run store).1.settle := by
  have run : ((Resolver.getRecord collection info).run store).1 =
      .value (((store.get? (store.handle collection) id).map Value.object).getD .null) := by
    simp only [Resolver.getRecord, Resolver.acting, Task.access, Task.run, asked]
  rw [run]
  refine fits_option rfl fun value found => ?_
  obtain ⟨record, present, rfl⟩ := Option.map_eq_some_iff.mp found
  exact fits record present

theorem fitsOutcome_listRecords {name : String} {collection : String} {info : ResolveInfo} {store : Store}
    (fits : ∀ record ∈ store.list (store.handle collection), Fits (served draw) (.named name) (.object record)) :
    (served draw).FitsOutcome Refusal (.list (.named name))
      ((Resolver.listRecords collection info).run store).1.settle :=
  Fits.list (List.forall_mem_map.mpr fits)

/-- An article is found exactly if it was created under the id. -/
theorem run_getArticle {info : ResolveInfo} {id : String} (asked : Resolver.recordId info = .ok id)
    {history : Publications} {store : Store} (stocked : Stocked history store) :
    let outcome := (((Resolver.getRecord content info).bind fun outcome => .done (articleOnly outcome)).run store).1
    (∃ record, ("createArticle", record) ∈ published history ∧ Entries.get? "id" record = some (.string id) ∧
        outcome = .value (.object record)) ∨
      (∀ record, ("createArticle", record) ∈ published history → Entries.get? "id" record ≠ some (.string id)) ∧
        outcome = .value .null := by
  have run : (((Resolver.getRecord content info).bind fun outcome => .done (articleOnly outcome)).run store).1 =
      articleOnly (.value (((store.get? (store.handle content) id).map Value.object).getD .null)) := by
    simp only [Resolver.getRecord, Resolver.acting, Task.access, Task.bind, Task.run, asked]
  intro outcome
  rw [show outcome = _ from run]
  cases found : store.get? (store.handle content) id with
  | none =>
    refine .inr ⟨fun record listed named => ?_, rfl⟩
    simp [stocked.get?_content.mpr ⟨_, listed, named⟩] at found
  | some record =>
    obtain ⟨field, listed, named⟩ := stocked.get?_content.mp found
    have body : Entries.contains record "bodyText" = decide (field = "createArticle") :=
      (stocked.publishes _ listed).contains_bodyText
    have kept : articleOnly (.value (.object record)) =
        .value (if Entries.contains record "bodyText" then .object record else .null) := rfl
    rw [Option.map_some, Option.getD_some, kept, body]
    by_cases article : field = "createArticle"
    · exact .inl ⟨record, article ▸ listed, named, by simp [article]⟩
    · refine .inr ⟨fun other created same => article ?_, by simp [article]⟩
      -- there is one record of the id, which would be an article and a podcast
      obtain rfl : record = other :=
        Option.some.inj (found.symm.trans (stocked.get?_content.mpr ⟨_, created, same⟩))
      have also : Entries.contains record "bodyText" = true := (stocked.publishes _ created).contains_bodyText
      exact of_decide_eq_true (body.symm.trans also)

theorem reliable_query : ∀ field ∈ ((bindings draw).bindObject query).fields,
    Reliable draw ((bindings draw).bindObject query) field := by
  have reading : query.name ≠ "Mutation" := by decide
  refine List.forall_mem_cons.mpr ⟨?hello, List.forall_mem_cons.mpr ⟨?quote, List.forall_mem_cons.mpr ⟨?random,
    List.forall_mem_cons.mpr ⟨?three, List.forall_mem_cons.mpr ⟨?dice, List.forall_mem_cons.mpr ⟨?die,
    List.forall_mem_cons.mpr ⟨?message, List.forall_mem_cons.mpr ⟨?messages, List.forall_mem_cons.mpr ⟨?article,
    List.forall_mem_singleton.mpr ?feed⟩⟩⟩⟩⟩⟩⟩⟩⟩
  case hello => exact reliable_of_computing reading rfl fun _ _ _ => fits_string _
  case quote => exact reliable_of_computing reading rfl fun _ _ _ => fits_string _
  case random => exact reliable_of_computing reading rfl fun _ _ _ => .nonNull nofun (.leaf rfl)
  case three =>
    exact reliable_of_computing reading rfl fun info _ _ => fitsOutcome_roll (draw info.path) 3 (by decide)
  case dice =>
    refine reliable_of_computing reading rfl fun info called _ => ?_
    obtain ⟨given, coerces⟩ := called.arguments
    obtain ⟨count, asked⟩ := exists_int coerces (.head _)
    obtain ⟨n, known, _, few⟩ := exists_sides coerces (.tail _ (.head _))
    rw [asked, known]
    exact fitsOutcome_roll (draw info.path) count few
  case die =>
    refine reliable_of_computing reading rfl fun info called _ => ?_
    obtain ⟨given, coerces⟩ := called.arguments
    obtain ⟨n, known, lower, upper⟩ := exists_sides coerces (.head _)
    rw [known]
    have found (path : Path) : (served draw).concreteType? "RandomDie" (.object [("numSides", .int n)]) path =
        .ok (some ((bindings draw).bindObject randomDie)) := rfl
    refine Fits.object found (List.forall_mem_cons.mpr ⟨fun _ => ?_, List.forall_mem_cons.mpr ⟨nofun,
      List.forall_mem_singleton.mpr nofun⟩⟩)
    exact .nonNull nofun (fits_int lower upper)
  case message =>
    refine reliable_of_reading reading rfl reads_getRecord fun info called _ history store stocked => ?_
    obtain ⟨given, coerces⟩ := called.arguments
    obtain ⟨id, _, asked⟩ := exists_id coerces (.head _)
    refine fitsOutcome_getRecord asked fun record found => fits_message (stocked.messages record ?_)
    exact Entries.mem_values_of_get? found
  case messages =>
    refine reliable_of_reading reading rfl (fun _ _ => rfl) fun info _ _ history store stocked => ?_
    exact fitsOutcome_listRecords fun record listed => fits_message (stocked.messages record listed)
  case article =>
    refine reliable_of_reading reading rfl (reads_getRecord · ·) fun info called _ history store stocked => ?_
    obtain ⟨given, coerces⟩ := called.arguments
    obtain ⟨id, _, asked⟩ := exists_id coerces (.head _)
    rcases run_getArticle asked stocked with ⟨record, listed, _, found⟩ | ⟨_, none⟩
    · rw [found]
      exact fits_article (stocked.publishes _ listed).isRecord
    · rw [none]
      exact .null rfl
  case feed =>
    refine reliable_of_reading reading rfl (fun _ _ => rfl) fun info _ _ history store stocked => ?_
    refine fitsOutcome_listRecords fun record listed => ?_
    rw [stocked.list_content] at listed
    obtain ⟨entry, member, rfl⟩ := List.mem_map.mp listed
    exact fits_content (stocked.publishes entry member)

end queries

section mutations

theorem run_createRecord {collection : String} {info : ResolveInfo} {entries : Object}
    (asked : Resolver.inputFields info = .ok entries) (store : Store) :
    (Resolver.createRecord collection info).run store =
      (.value (.object (store.create (store.handle collection) entries).1),
        (store.create (store.handle collection) entries).2) := by
  simp only [Resolver.createRecord, Resolver.acting, Task.access, Task.run, asked]

theorem run_updateRecord {collection id : String} {info : ResolveInfo} {entries : Object}
    (known : Resolver.recordId info = .ok id) (asked : Resolver.inputFields info = .ok entries) (store : Store) :
    (Resolver.updateRecord collection info).run store =
      ((match (store.update (store.handle collection) id entries).1 with
        | .ok record => .value (.object record)
        | .error error => .error (.ofReportable error)),
          (store.update (store.handle collection) id entries).2) := by
  have both : (do return (← Resolver.recordId info, ← Resolver.inputFields info) :
      Except ResolverError (String × Object)) = .ok (id, entries) := by
    rw [known, asked]
    rfl
  simp only [Resolver.updateRecord, Resolver.acting, Task.access, Task.run, both]
  rcases store.update (store.handle collection) id entries with ⟨_ | _, _⟩ <;> rfl

theorem publication?_eq_none_of_field {info : ResolveInfo} (name : String) (named : info.field = name)
    (other : name ≠ "createArticle" ∧ name ≠ "createPodcast") : publication? info = none := by
  subst named
  exact if_neg fun names => names.2.elim other.1 other.2

/-- A field that creates content publishes its input. -/
theorem reliable_of_publishing {name key : String} (mutation : type.name = "Mutation")
    (named : field.name = "createArticle" ∨ field.name = "createPodcast")
    (bound : (served draw).resolver? type.name field.name = some (Resolver.createRecord content))
    (argument : input "input" (.nonNull (.named name)) ∈ field.arguments)
    (registered : (served draw).lookup? name = some (.inputObject (publicationInput name key)))
    (publishes : ∀ given entries, FieldsCoerceTo (served draw) (publicationInput name key).fields given entries →
      ∀ id, Publishes field.name (Record.made id entries []))
    (fits : ∀ record, IsRecord record → Fits (served draw) field.type (.object record)) :
    Reliable draw type field := by
  intro resolver found info called history store stocked
  obtain rfl := Option.some.inj (bound.symm.trans found)
  obtain ⟨given, coerces⟩ := called.arguments
  obtain ⟨given, entries, asked, fields⟩ := exists_publication registered coerces argument
  have publication : publication? info = some (field.name, entries) := by
    rw [publication?, if_pos ⟨called.parentType.trans mutation, called.fieldName ▸ named⟩, asked, called.fieldName]
    rfl
  obtain ⟨record, kept⟩ := stocked.publish (publishes given entries fields)
  rw [run_createRecord asked, publication]
  refine ⟨kept, fun _ => fits _ ?_, ?_⟩
  · rw [record]
    exact (publishes given entries fields _).isRecord
  · rintro _ ⟨⟩
    rw [record]

theorem reliable_mutation : ∀ field ∈ ((bindings draw).bindObject mutation).fields,
    Reliable draw ((bindings draw).bindObject mutation) field := by
  refine List.forall_mem_cons.mpr ⟨?create, List.forall_mem_cons.mpr ⟨?update, List.forall_mem_cons.mpr ⟨?article,
    List.forall_mem_singleton.mpr ?podcast⟩⟩⟩
  case create =>
    intro resolver bound info called history store stocked
    obtain rfl : Resolver.createRecord messages = resolver := Option.some.inj bound
    obtain ⟨given, coerces⟩ := called.arguments
    obtain ⟨entries, asked, texts⟩ := exists_texts coerces (.head _)
    have none : publication? info = none :=
      publication?_eq_none_of_field "createMessage" called.fieldName (by decide)
    obtain ⟨record, kept⟩ := stocked.create_message texts
    rw [run_createRecord asked, none, Option.toList_none, List.append_nil]
    exact ⟨kept, fun _ => fits_message record, nofun⟩
  case update =>
    intro resolver bound info called history store stocked
    obtain rfl : Resolver.updateRecord messages = resolver := Option.some.inj bound
    obtain ⟨given, coerces⟩ := called.arguments
    obtain ⟨id, _, known⟩ := exists_id coerces (.head _)
    obtain ⟨entries, asked, texts⟩ := exists_texts coerces (.tail _ (.head _))
    have none : publication? info = none :=
      publication?_eq_none_of_field "updateMessage" called.fieldName (by decide)
    obtain ⟨updated, refused, kept⟩ := stocked.update_message texts id
    rw [run_updateRecord known asked, none, Option.toList_none, List.append_nil]
    refine ⟨kept, fun _ => ?_, nofun⟩
    cases outcome : (store.update (store.handle messages) id entries).1 with
    | ok record => exact fits_message (updated record outcome)
    | error error => exact refused error outcome ▸ .missing id
  case article =>
    exact reliable_of_publishing rfl (.inl rfl) rfl (.head _) rfl (fun _ _ => publishes_article)
      fun _ => fits_article
  case podcast =>
    exact reliable_of_publishing rfl (.inr rfl) rfl (.head _) rfl (fun _ _ => publishes_podcast)
      fun _ => fits_podcast

end mutations

end SelectionEngine.Showcase
