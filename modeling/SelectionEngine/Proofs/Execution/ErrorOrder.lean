import SelectionEngine.Proofs.Execution.NullBubbling

namespace SelectionEngine

theorem Account.errors_ofFields (keys : List String) (accounts : List Account) :
    (ofFields keys accounts).completed.errors = (accounts.map fun account => account.completed.errors).flatten := by
  rw [← List.flatMap_def]
  exact List.flatMap_map ..

theorem Account.errors_ofItems (accounts : List Account) :
    (ofItems accounts).completed.errors = (accounts.map fun account => account.completed.errors).flatten := by
  rw [← List.flatMap_def]
  exact List.flatMap_map ..

variable {ρ : Type}

section

variable (schema : Schema ρ) (position? : Path → Option Position)

/-- Of two steps from a path the first one comes first in the response: it has
the smaller index of a list, or its key is that of an earlier group of the
fields selected on the type of the object there. -/
inductive StepBefore (path : Path) : PathElement → PathElement → Prop
  | index {m n : Nat} : m < n → StepBefore path (.index m) (.index n)
  | key {position name value type before after} :
      position? path = some position → position.type.nullable = .named name → position.raw? = some value →
      schema.concreteType? name value path = .ok (some type) →
      [before, after].Sublist ((schema.fieldGroups type position.selections).map FieldGroup.key) →
      StepBefore path (.key before) (.key after)

/-- The places of two paths are apart from each other, and the response has that
of the first one first. -/
def PathBefore (one two : Path) : Prop :=
  ∃ path first second restOne restTwo, one = path ++ first :: restOne ∧ two = path ++ second :: restTwo ∧
    StepBefore schema position? path first second

/-- The errors have the places of different parts of a response, in the
order of the response. -/
structure ErrorsInOrder (errors : List Report) : Prop where
  located : ∀ error ∈ errors, ∃ path, error.path = some path
  apart : errors.Pairwise fun one two => ∀ path other, one.path = some path → two.path = some other →
    ¬ path <+: other ∧ ¬ other <+: path
  ordered : errors.Pairwise fun one two => ∀ path other, one.path = some path → two.path = some other →
    PathBefore schema position? path other

/-- The errors of a part at a path lie at it or below it, in the
order of the response. -/
structure ListedAt (path : Path) (errors : List Report) : Prop where
  below : ∀ error ∈ errors, ∃ origin, error.path = some origin ∧ path <+: origin
  ordered : errors.Pairwise fun one two => ∀ path other, one.path = some path → two.path = some other →
    PathBefore schema position? path other

/-- The place of an object has a value that is one of the type,
and its selections. -/
def ObjectPlaced (type : ObjectType ρ) (selections : List Selection) (path : Path) : Prop :=
  ∃ position name value, position? path = some position ∧ position.type.nullable = .named name ∧
    position.raw? = some value ∧ schema.concreteType? name value path = .ok (some type) ∧
    position.selections = selections

/-- Objects stand at places of their type, and other parts at the
places that are theirs. -/
def Subject.Located (resolutions : List Resolution) (path : Path) : Subject ρ → Prop
  | .object type selections _ => ObjectPlaced schema position? type selections path
  | subject => subject.Placed schema position? resolutions path

/-- The errors of a part are listed in order, and null is there without
errors or not at all. -/
def Subject.Listed (path : Path) (c : Completed Value) : Subject ρ → Prop
  | .object _ _ _ => ListedAt schema position? path c.errors ∧ c.value? ≠ some .null
  | .group _ _ fields => ListedAt schema position? (path.join (.key fields.key)) c.errors
  | .place _ type _ => ListedAt schema position? path c.errors ∧ (type.isNonNull = true → c.value? ≠ some .null)
  | .content _ _ _ => ListedAt schema position? path c.errors ∧ (c.value? = some .null → c.errors = [])

end

section

variable {schema : Schema ρ} {position? : Path → Option Position} {path : Path}

theorem StepBefore.ne {first second : PathElement} (before : StepBefore schema position? path first second) :
    first ≠ second := by
  cases before with
  | index less => simpa using Nat.ne_of_lt less
  | @key position _ _ type _ _ _ _ _ _ sublist =>
    have distinct := (schema.nodup_fieldGroups type position.selections).sublist sublist
    simpa using distinct

theorem PathBefore.apart {one two : Path} (before : PathBefore schema position? one two) :
    ¬ one <+: two ∧ ¬ two <+: one := by
  obtain ⟨path, first, second, restOne, restTwo, rfl, rfl, step⟩ := before
  simp only [List.prefix_append_right_inj, List.cons_prefix_cons, not_and]
  exact ⟨fun same => absurd same step.ne, fun same => absurd same.symm step.ne⟩

theorem ListedAt.errorsInOrder {errors : List Report} (listed : ListedAt schema position? path errors) :
    ErrorsInOrder schema position? errors where
  located error member := (listed.below error member).imp fun _ => And.left
  apart := listed.ordered.imp fun before path other one two => (before path other one two).apart
  ordered := listed.ordered

theorem listedAt_nil : ListedAt schema position? path [] := ⟨nofun, .nil⟩

theorem listedAt_singleton {report : Report} (known : report.path = some path) :
    ListedAt schema position? path [report] where
  below := by simp [known]
  ordered := List.pairwise_singleton _ _

theorem listedAt_fieldFailure {type : TypeRef} {report : Report} (known : report.path = some path) :
    ListedAt schema position? path (Run.fieldFailure type report).errors := by
  unfold Run.fieldFailure
  split <;> exact listedAt_singleton known

/-- If the steps to the parts come in order, so do the things
that lie in the parts. -/
theorem inOrder_parts {α : Type} (place? : α → Option Path) (R : α → α → Prop) {elements : List PathElement}
    {parts : List (List α)} (inOrder : elements.Pairwise (StepBefore schema position? path))
    (apart : ∀ one two place other, place? one = some place → place? two = some other →
      PathBefore schema position? place other → R one two)
    (each : List.Forall₂ (fun element part => part.Pairwise R ∧
      ∀ item ∈ part, ∃ origin, place? item = some origin ∧ path.join element <+: origin) elements parts) :
    parts.flatten.Pairwise R ∧
      ∀ item ∈ parts.flatten, ∃ element ∈ elements, ∃ origin, place? item = some origin ∧
        path.join element <+: origin := by
  induction each with
  | nil => exact ⟨.nil, nofun⟩
  | @cons element part elements parts first _ ih =>
    obtain ⟨before, inOrder⟩ := List.pairwise_cons.mp inOrder
    obtain ⟨ordered, located⟩ := ih inOrder
    simp only [List.flatten_cons, List.mem_append]
    refine ⟨List.pairwise_append.mpr ⟨first.1, ordered, fun one inFirst two inRest => ?_⟩, ?_⟩
    · obtain ⟨origin, known, restOne, rfl⟩ := first.2 one inFirst
      obtain ⟨later, member, other, known', restTwo, rfl⟩ := located two inRest
      exact apart one two _ _ known known'
        ⟨path, element, later, restOne, restTwo, by simp [Path.join], by simp [Path.join], before later member⟩
    · rintro item (inFirst | inRest)
      · obtain ⟨origin, known, below⟩ := first.2 item inFirst
        exact ⟨element, .head _, origin, known, below⟩
      · obtain ⟨later, member, rest⟩ := located item inRest
        exact ⟨later, .tail _ member, rest⟩

/-- If the steps to the parts come in order, the errors of the
parts do so together. -/
theorem listedAt_parts {elements : List PathElement} {parts : List (List Report)}
    (inOrder : elements.Pairwise (StepBefore schema position? path))
    (each : List.Forall₂ (fun element errors => ListedAt schema position? (path.join element) errors)
      elements parts) :
    ListedAt schema position? path parts.flatten := by
  obtain ⟨ordered, located⟩ := inOrder_parts Report.path (fun one two => ∀ path other,
      one.path = some path → two.path = some other → PathBefore schema position? path other) inOrder
    (fun one two place other onePlace twoPlace before place' other' onePlace' twoPlace' => by
      obtain rfl := Option.some.inj (onePlace.symm.trans onePlace')
      obtain rfl := Option.some.inj (twoPlace.symm.trans twoPlace')
      exact before)
    (each.imp fun element errors listed => ⟨listed.ordered, listed.below⟩)
  refine ⟨fun error member => ?_, ordered⟩
  obtain ⟨element, _, origin, known, below⟩ := located error member
  exact ⟨origin, known, Path.prefix_join.trans below⟩

theorem ObjectPlaced.inOrder {type : ObjectType ρ} {selections : List Selection}
    (placed : ObjectPlaced schema position? type selections path) :
    (((schema.fieldGroups type selections).map FieldGroup.key).map PathElement.key).Pairwise
      (StepBefore schema position? path) := by
  obtain ⟨position, name, value, atPath, named, raw, found, rfl⟩ := placed
  rw [List.pairwise_map]
  exact List.pairwise_iff_forall_sublist.mpr fun sublist => .key atPath named raw found sublist

theorem indices_inOrder (n : Nat) :
    ((List.range n).map PathElement.index).Pairwise (StepBefore schema position? path) := by
  rw [List.pairwise_map]
  exact List.pairwise_lt_range.imp fun less => .index less

end

section

variable {schema : Schema ρ} {variableValues : Object} {position? : Path → Option Position}
  {resolutions : List Resolution} (steps : ∀ path element, position? (path.join element) =
    (position? path).bind fun position => position.step? schema resolutions path element)

include steps

/-- Whatever resolvers give, the errors of a part are listed in order. -/
theorem Executes.listed {subject : Subject ρ} {path : Path} {account : Account}
    (executes : Executes schema variableValues subject path account)
    (recorded : ∀ resolution ∈ account.resolutions,
      Resolution.valueAt? resolutions resolution.path = resolution.outcome.toOption)
    (located : subject.Located schema position? resolutions path) :
    subject.Listed schema position? path account.completed := by
  induction executes with
  | @object type selections parent path accounts length _ ih =>
    have parts : List.Forall₂ (fun element errors => ListedAt schema position? (path.join element) errors)
        (((schema.fieldGroups type selections).map FieldGroup.key).map .key)
        (accounts.map fun account => account.completed.errors) := by
      rw [List.forall₂_map_left_iff, List.forall₂_map_left_iff, List.forall₂_map_right_iff]
      refine forall₂_of_getElem? length.symm fun n group account atGroup atAccount => ?_
      obtain ⟨position, name, value, atPath, named, raw, found, same⟩ := located
      refine ih n group account atGroup atAccount
        (fun resolution member => recorded resolution
          (List.mem_flatMap.mpr ⟨account, List.mem_of_getElem? atAccount, member⟩)) ?_
      have placed := placed_fields steps atPath named raw found
      rw [same] at placed
      exact placed group (List.mem_of_getElem? atGroup)
    refine ⟨?_, by simp [Account.ofFields, Completed.map]⟩
    rw [Account.errors_ofFields]
    exact listedAt_parts located.inOrder parts
  | typename _ => exact listedAt_nil
  | badArguments _ _ _ => exact listedAt_fieldFailure rfl
  | unresolved _ _ _ => exact listedAt_fieldFailure rfl
  | @resolved type parent group path field arguments value account notTypename declared _ _ ih =>
    have atPath := located notTypename field declared
    have known := recorded _ (.head _)
    exact (ih (fun resolution member => recorded resolution (.tail _ member))
      ⟨_, atPath, ⟨known, rfl, rfl⟩, rfl⟩).1
  | @strict site inner value path account _ ih =>
    obtain ⟨position, atPath, holds, strict⟩ := located
    obtain ⟨listed, alone⟩ := ih recorded
      ⟨position, atPath, ⟨holds.raw, holds.selections, holds.nullable⟩, fun _ => strict⟩
    refine ⟨?_, fun _ => Completed.refuseNull_value?_ne_null _ _⟩
    by_cases null : account.completed.value? = some .null
    · rw [Completed.refuseNull_of_null _ null, alone null]
      exact listedAt_singleton rfl
    · rw [Completed.refuseNull_of_ne_null _ null]
      exact listed
  | @lenient site type value path account nullable _ ih =>
    obtain ⟨position, atPath, holds, same⟩ := located
    have listed := (ih recorded ⟨position, atPath, holds, fun strict => same.trans strict⟩).1
    exact ⟨listed, fun strict => absurd strict (by simp [nullable])⟩
  | null => exact ⟨listedAt_nil, fun _ => rfl⟩
  | @wrapped site inner value path account _ _ ih =>
    obtain ⟨position, atPath, holds, strict⟩ := located
    obtain ⟨listed, notNull⟩ := ih recorded ⟨position, atPath, holds, strict rfl⟩
    exact ⟨listed, fun null => absurd null (notNull rfl)⟩
  | @list site inner path items accounts length _ ih =>
    obtain ⟨position, atPath, holds, _⟩ := located
    have parts : List.Forall₂ (fun element errors => ListedAt schema position? (path.join element) errors)
        ((List.range items.length).map .index) (accounts.map fun account => account.completed.errors) := by
      rw [List.forall₂_map_left_iff, List.forall₂_map_right_iff]
      refine forall₂_of_getElem? (by simp [length]) fun n index account atIndex atAccount => ?_
      obtain ⟨inRange, rfl⟩ : n < items.length ∧ n = index := by
        simpa [List.getElem?_eq_some_iff] using atIndex
      have atItem : items[n]? = some items[n] := List.getElem?_eq_getElem inRange
      exact (ih n items[n] account atItem atAccount
        (fun resolution member => recorded resolution
          (List.mem_flatMap.mpr ⟨account, List.mem_of_getElem? atAccount, member⟩))
        ⟨_, placed_item steps atPath holds.nullable holds.raw atItem, ⟨rfl, holds.selections, rfl⟩, rfl⟩).1
    refine ⟨?_, by simp [Account.ofItems, Completed.map]⟩
    rw [Account.errors_ofItems]
    exact listedAt_parts (indices_inOrder items.length) parts
  | scalar notNull _ => exact ⟨listedAt_nil, fun _ => rfl⟩
  | named found _ ih =>
    obtain ⟨position, atPath, holds, _⟩ := located
    obtain ⟨listed, notNull⟩ :=
      ih recorded ⟨position, _, _, atPath, holds.nullable, holds.raw, found, holds.selections⟩
    exact ⟨listed, fun null => absurd null notNull⟩
  | leaf _ _ => exact ⟨listedAt_nil, fun _ => rfl⟩
  | rejected rejects => exact ⟨listedAt_singleton rejects.path, by rintro ⟨⟩⟩

end

namespace Schema

variable {σ : Type} {schema : Schema σ} {settings : ExecutionSettings} {request : Request} {root : Value}
  {state : σ}

/-- An operation starts at the place of its root type. -/
theorem located_root {type : ObjectType σ} (found : schema.rootType? request.operation = some type) :
    (Subject.object type request.selectionSet root).Located schema (schema.position? settings request root state)
      (schema.resolutions settings request root state) [] := by
  have atRoot : schema.position? settings request root state [] =
      some ⟨.named (schema.rootTypeName request.operation), request.selectionSet, some root⟩ := rfl
  exact ⟨_, _, _, atRoot, rfl, rfl, concreteType?_of_rootType? root [] found, rfl⟩

/-- Each error of a response has a place, no two of them at one place or
one below the other, and they are listed in the order in which the
response has their places. -/
theorem errors_in_order {data : Value}
    (answered : (schema.execute settings request root state).1.data = some data) :
    ErrorsInOrder schema (schema.position? settings request root state)
      (schema.execute settings request root state).1.errors := by
  obtain ⟨type, account, found, executes, log, _, errors⟩ := account_of_data answered
  have distinct : ((schema.resolutions settings request root state).map Resolution.path).Nodup :=
    (log.map Resolution.path).nodup_iff.mpr executes.paths.1
  have atRoot : schema.position? settings request root state [] =
      some ⟨.named (schema.rootTypeName request.operation), request.selectionSet, some root⟩ := rfl
  have listed := executes.listed position?_join
    (fun resolution member => Resolution.valueAt?_path distinct (log.symm.subset member))
    ⟨_, _, _, atRoot, rfl, rfl, concreteType?_of_rootType? root [] found, rfl⟩
  rw [errors]
  exact listed.1.errorsInOrder

/-- A list of objects with fields that fail, one of them because it is null. -/
def failingTypes : List (TypeDef Unit) := [
  .object { name := "Item", fields := [
    { name := "size", type := .nonNull (.builtIn .int) },
    { name := "label", type := .builtIn .string
      resolver := some ((Resolver.immediate fun _ => .error ⟨"no label", []⟩).delayed 5) }] },
  .object { name := "Query", fields := [{ name := "items", type := .list (.named "Item") }] }]

def failingSchema : Schema Unit := failingTypes.foldl .insert .empty

def failingRequest : Request where
  selectionSet := [.field { name := "items" } [.field { name := "label" } [], .field { name := "size" } []]]

def failingRoot : Value := .object [("items", .list [.object [], .int 1, .object [("size", .int 3)]])]

/-- The label of the first item ends last and is listed first, and the item that
is null because of its size is not listed again. -/
theorem errors_in_order_items :
    (failingSchema.execute {} failingRequest failingRoot ()).1.data =
        some (.object [("items", .list [.null, .null, .object [("label", .null), ("size", .int 3)]])]) ∧
      (failingSchema.execute {} failingRequest failingRoot ()).1.errors.map Report.path = [
        some [.key "items", .index 0, .key "label"], some [.key "items", .index 0, .key "size"],
        some [.key "items", .index 1], some [.key "items", .index 2, .key "label"]] ∧
      ErrorsInOrder failingSchema (failingSchema.position? {} failingRequest failingRoot ())
        (failingSchema.execute {} failingRequest failingRoot ()).1.errors := by
  have answered : (failingSchema.execute {} failingRequest failingRoot ()).1.data =
      some (.object [("items", .list [.null, .null, .object [("label", .null), ("size", .int 3)]])]) := rfl
  exact ⟨answered, rfl, errors_in_order answered⟩

end Schema

end SelectionEngine
