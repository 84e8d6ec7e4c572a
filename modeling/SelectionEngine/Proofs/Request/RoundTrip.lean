import SelectionEngine.Proofs.Json.Decoding
import SelectionEngine.Request.Decoding

namespace SelectionEngine

open Json Json.Document

/-- The input values that there are, with represented values in
them and distinct keys. -/
inductive InputValue.Represented : InputValue → Prop
  | named (name : String) : Represented (.variable name)
  | value {v : Value} : v.Represented → Represented (.value v)
  | list {items : List InputValue} : (∀ item ∈ items, Represented item) → Represented (.list items)
  | object {entries : Entries String InputValue} : entries.Distinct → (∀ entry ∈ entries, Represented entry.2) →
      Represented (.object entries)

structure FieldCall.Represented (call : FieldCall) : Prop where
  distinct : call.arguments.Distinct
  each : ∀ argument ∈ call.arguments, argument.2.Represented

inductive Selection.Represented : Selection → Prop
  | field {call : FieldCall} {selections : List Selection} : call.Represented →
      (∀ selection ∈ selections, Represented selection) → Represented (.field call selections)
  | fragment {condition : Option String} {selections : List Selection} :
      (∀ selection ∈ selections, Represented selection) → Represented (.fragment condition selections)

/-- The requests that there are: the integers in them lie in range, and the keys
of their objects are distinct. -/
structure Request.Represented (request : Request) : Prop where
  selections : ∀ selection ∈ request.selectionSet, selection.Represented
  variableValues : (Value.object request.variableValues).Represented

namespace InputValue

theorem toItems_eq (items : List InputValue) : toItems items = items.map toValue := by
  induction items with
  | nil => rfl
  | cons item items ih => rw [toItems, ih, List.map_cons]

theorem toEntries_eq (entries : Entries String InputValue) :
    toEntries entries = entries.map fun entry => (entry.1, entry.2.toValue) := by
  induction entries with
  | nil => rfl
  | cons entry entries ih => rw [toEntries, ih, List.map_cons]

theorem represented_toEntries {entries : Entries String InputValue} (distinct : entries.Distinct)
    (each : ∀ entry ∈ entries, entry.2.toValue.Represented) : (Value.object (toEntries entries)).Represented :=
  toEntries_eq entries ▸ Value.represented_entries distinct each

theorem represented_toValue {input : InputValue} (represented : input.Represented) : input.toValue.Represented := by
  induction represented with
  | named name => exact Value.represented_single (.string name) _
  | value represented => exact Value.represented_single represented _
  | @list items _ ih =>
    rw [toValue, toItems_eq]
    exact Value.represented_single (Value.represented_map ih) _
  | object distinct _ ih => exact Value.represented_single (represented_toEntries distinct ih) _

/-- An input value is decoded from its JSON form. -/
theorem decodes_toValue {input : InputValue} (represented : input.Represented) :
    Decodes ofDocument? input.toValue input := by
  induction represented with
  | named name =>
    refine .tagged rfl (fun _ => rfl) fun room => ?_
    exact (if_pos (Nat.zero_le _)).symm
  | value represented => exact .tagged rfl (fun _ => rfl) ((decodes_toValue? represented).map InputValue.value)
  | @list items _ ih =>
    rw [toValue, toItems_eq]
    refine .tagged rfl (fun _ => rfl) (.list rfl fun room => ?_)
    have each := Decodes.items ofItems? rfl (fun _ _ => rfl) ih room
    rw [ofDocument?, each]
    split <;> rfl
  | @object entries distinct _ ih =>
    rw [toValue, toEntries_eq]
    refine .tagged rfl (fun _ => rfl) (.object rfl fun room => ?_)
    have each := Decodes.entries ofMembers? rfl (fun _ _ _ => rfl) ih room
    rw [ofDocument?, each]
    split
    · rw [Option.map_some, Entries.ofList_of_distinct distinct]
    · rfl

/-- Arguments are decoded from their JSON form. -/
theorem decodes_arguments {arguments : Entries String InputValue} (distinct : arguments.Distinct)
    (each : ∀ argument ∈ arguments, argument.2.Represented) :
    Decodes argumentsOf? (.object (toEntries arguments)) arguments := by
  rw [toEntries_eq]
  refine .object rfl fun room => ?_
  have decoded := Decodes.entries ofMembers? rfl (fun _ _ _ => rfl)
    (fun argument member => decodes_toValue (each argument member)) room
  rw [argumentsOf?, decoded]
  split
  · rw [Option.map_some, Entries.ofList_of_distinct distinct]
  · rfl

end InputValue

/-- The call of a field is decoded from its first three members. -/
theorem FieldCall.ofMembers?_encoded {call : FieldCall} (represented : call.Represented) (room : Nat) :
    FieldCall.ofMembers? (some (ofValueWithin room (.string call.name)))
      ((call.label.map Value.string).map (ofValueWithin room))
        ((if call.arguments.isEmpty then none else some (.object (InputValue.toEntries call.arguments))).map
          (ofValueWithin room)) =
      if Value.nestingOfEntries (entryUnless call.arguments.isEmpty "arguments"
        (.object (InputValue.toEntries call.arguments))) ≤ room then some call else none := by
  have arguments := withDefault_unlessEmpty (InputValue.decodes_arguments represented.distinct represented.each)
    "arguments" room
  rw [FieldCall.ofMembers?, withDefault_text, arguments]
  split <;> rfl

namespace Selection

/-- The JSON form of a field, below its tag. -/
def fieldBody (call : FieldCall) (selections : List Selection) : Object :=
  [("name", .string call.name)] ++ textEntry "alias" call.label ++
    entryUnless call.arguments.isEmpty "arguments" (.object (InputValue.toEntries call.arguments)) ++
    entryUnless selections.isEmpty "selectionSet" (.list (toValues selections))

/-- The JSON form of a fragment, below its tag. -/
def fragmentBody (condition : Option String) (selections : List Selection) : Object :=
  textEntry "typeCondition" condition ++ [("selectionSet", .list (toValues selections))]

theorem toValue_field (call : FieldCall) (selections : List Selection) :
    (field call selections).toValue = .object [("field", .object (fieldBody call selections))] := by
  rw [toValue, fieldBody]

theorem toValue_fragment (condition : Option String) (selections : List Selection) :
    (fragment condition selections).toValue =
      .object [("inlineFragment", .object (fragmentBody condition selections))] := by
  rw [toValue, fragmentBody]

theorem toValues_eq (selections : List Selection) : toValues selections = selections.map toValue := by
  induction selections with
  | nil => rfl
  | cons selection selections ih => rw [toValues, ih, List.map_cons]

theorem fieldBody_distinct (call : FieldCall) (selections : List Selection) :
    (fieldBody call selections).Distinct := by
  have keys : (fieldBody call selections).keys.Sublist fieldMembers := by
    simp only [fieldBody, Entries.keys, List.map_append]
    exact (((List.Sublist.refl ["name"]).append (Value.keys_textEntry "alias" _)).append
      (Value.keys_entryUnless _ "arguments" _)).append (Value.keys_entryUnless _ "selectionSet" _)
  exact keys.nodup (by decide)

theorem fragmentBody_distinct (condition : Option String) (selections : List Selection) :
    (fragmentBody condition selections).Distinct := by
  have keys : (fragmentBody condition selections).keys.Sublist fragmentMembers := by
    simp only [fragmentBody, Entries.keys, List.map_append]
    exact (Value.keys_textEntry "typeCondition" _).append (List.Sublist.refl ["selectionSet"])
  exact keys.nodup (by decide)

theorem get?_fieldBody (call : FieldCall) (selections : List Selection) :
    fieldMembers.map (Entries.get? · (fieldBody call selections)) =
      [some (.string call.name), call.label.map .string,
        if call.arguments.isEmpty then none else some (.object (InputValue.toEntries call.arguments)),
        if selections.isEmpty then none else some (.list (toValues selections))] := by
  simp [fieldBody, fieldMembers, Entries.get?, Entries.get?_append, Value.get?_textEntry, Value.get?_entryUnless]

theorem get?_fragmentBody (condition : Option String) (selections : List Selection) :
    fragmentMembers.map (Entries.get? · (fragmentBody condition selections)) =
      [condition.map .string, some (.list (toValues selections))] := by
  simp [fragmentBody, fragmentMembers, Entries.get?, Entries.get?_append, Value.get?_textEntry]

theorem represented_toValues {selections : List Selection}
    (each : ∀ selection ∈ selections, selection.toValue.Represented) :
    (Value.list (toValues selections)).Represented :=
  toValues_eq selections ▸ Value.represented_map each

theorem represented_toValue {selection : Selection} (represented : selection.Represented) :
    selection.toValue.Represented := by
  induction represented with
  | @field call selections represented _ ih =>
    have arguments := InputValue.represented_toEntries represented.distinct fun argument member =>
      InputValue.represented_toValue (represented.each argument member)
    rw [toValue_field]
    refine Value.represented_single (.object (fieldBody_distinct call selections) ?_) _
    simp only [fieldBody, List.forall_mem_append]
    exact ⟨⟨⟨List.forall_mem_singleton.mpr (.string call.name), Value.represented_textEntry _ _⟩,
      Value.represented_entryUnless arguments _ _⟩, Value.represented_entryUnless (represented_toValues ih) _ _⟩
  | @fragment condition selections _ ih =>
    rw [toValue_fragment]
    refine Value.represented_single (.object (fragmentBody_distinct condition selections) ?_) _
    exact List.forall_mem_append.mpr
      ⟨Value.represented_textEntry _ _, List.forall_mem_singleton.mpr (represented_toValues ih)⟩

theorem selectionsUnder?_eq (members : List (String × Document)) :
    selectionsUnder? members = withDefault [] listOf? (Entries.get? "selectionSet" members) := by
  induction members with
  | nil => rfl
  | cons member members ih =>
    obtain ⟨key, document⟩ := member
    rw [selectionsUnder?, Entries.get?]
    split
    · rfl
    · exact ih

/-- Selections are decoded from their JSON form if each of them is. -/
theorem decodes_toValues {selections : List Selection}
    (each : ∀ selection ∈ selections, Decodes ofDocument? selection.toValue selection) :
    Decodes listOf? (.list (toValues selections)) selections := by
  rw [toValues_eq]
  refine .list rfl fun room => ?_
  rw [listOf?]
  exact Decodes.items ofItems? rfl (fun _ _ => rfl) each room

theorem selectionsAt?_fieldBody {call : FieldCall} {selections : List Selection}
    (each : ∀ selection ∈ selections, Decodes ofDocument? selection.toValue selection) (room : Nat) :
    selectionsAt? 3 (.object (ofEntriesWithin room (fieldBody call selections))) =
      if Value.nestingOfEntries
        (entryUnless selections.isEmpty "selectionSet" (.list (toValues selections))) ≤ room then
        some selections else none := by
  have known := congrArg (·[3]?) (get?_fieldBody call selections)
  have known : Entries.get? "selectionSet" (fieldBody call selections) =
      if selections.isEmpty then none else some (.list (toValues selections)) := Option.some.inj known
  rw [selectionsAt?, selectionsUnder?_eq, get?_ofEntriesWithin, known]
  exact withDefault_unlessEmpty (decodes_toValues each) "selectionSet" room

theorem selectionsAt?_fragmentBody {condition : Option String} {selections : List Selection}
    (each : ∀ selection ∈ selections, Decodes ofDocument? selection.toValue selection) (room : Nat) :
    selectionsAt? 1 (.object (ofEntriesWithin room (fragmentBody condition selections))) =
      if (Value.list (toValues selections)).nesting ≤ room then some selections else none := by
  have known := congrArg (·[1]?) (get?_fragmentBody condition selections)
  have known : Entries.get? "selectionSet" (fragmentBody condition selections) =
      some (.list (toValues selections)) :=
    Option.some.inj known
  rw [selectionsAt?, selectionsUnder?_eq, get?_ofEntriesWithin, known]
  exact decodes_toValues each room

/-- A selection is decoded from its JSON form. -/
theorem decodes_toValue {selection : Selection} (represented : selection.Represented) :
    Decodes ofDocument? selection.toValue selection := by
  induction represented with
  | @field call selections represented _ ih =>
    rw [toValue_field]
    refine .tagged rfl (fun _ => rfl) (.object rfl fun room => ?_)
    have nesting : Value.nestingOfEntries (fieldBody call selections) =
        max (Value.nestingOfEntries (entryUnless call.arguments.isEmpty "arguments"
            (.object (InputValue.toEntries call.arguments))))
          (Value.nestingOfEntries
            (entryUnless selections.isEmpty "selectionSet" (.list (toValues selections)))) := by
      simp [fieldBody, Value.nestingOfEntries_append, Value.nestingOfEntries, Value.nesting]
    rw [ofDocument?, members?_ofEntriesWithin (fieldBody_distinct call selections), get?_fieldBody,
      selectionsAt?_fieldBody ih, nesting]
    simp only [List.map_cons, List.map_nil, Option.map_some, Option.bind_eq_bind, Option.bind_some, Option.pure_def,
      FieldCall.ofMembers?_encoded represented]
    exact bind_room _
  | @fragment condition selections _ ih =>
    rw [toValue_fragment]
    refine .tagged rfl (fun _ => rfl) (.object rfl fun room => ?_)
    have nesting : Value.nestingOfEntries (fragmentBody condition selections) =
        (Value.list (toValues selections)).nesting := by
      simp [fragmentBody, Value.nestingOfEntries_append, Value.nestingOfEntries]
    rw [ofDocument?, members?_ofEntriesWithin (fragmentBody_distinct condition selections), get?_fragmentBody,
      selectionsAt?_fragmentBody ih, nesting]
    simp only [List.map_cons, List.map_nil, Option.bind_eq_bind, Option.bind_some, Option.pure_def,
      withDefault_text]
    split <;> rfl

end Selection

namespace Request

/-- The JSON form of a request, as an object. -/
def body (request : Request) : Object :=
  [("operation", .string request.operation.name)] ++ textEntry "operationName" request.operationName ++
    [("selectionSet", .list (Selection.toValues request.selectionSet))] ++
    entryUnless request.variableValues.isEmpty "variables" (.object request.variableValues)

variable (request : Request)

theorem toValue_eq : request.toValue = .object request.body := rfl

theorem body_distinct : request.body.Distinct := by
  have keys : request.body.keys.Sublist ["operation", "operationName", "selectionSet", "variables"] := by
    simp only [body, Entries.keys, List.map_append]
    exact (((List.Sublist.refl ["operation"]).append (Value.keys_textEntry "operationName" _)).append
      (List.Sublist.refl ["selectionSet"])).append (Value.keys_entryUnless _ "variables" _)
  exact keys.nodup (by decide)

theorem get?_body : ["operation", "operationName", "selectionSet", "variables"].map (Entries.get? · request.body) =
    [some (.string request.operation.name), request.operationName.map .string,
      some (.list (Selection.toValues request.selectionSet)),
      if request.variableValues.isEmpty then none else some (.object request.variableValues)] := by
  simp [body, Entries.get?, Entries.get?_append, Value.get?_textEntry, Value.get?_entryUnless]

theorem nesting_body : Value.nestingOfEntries request.body =
    max (Value.list (Selection.toValues request.selectionSet)).nesting
      (Value.nestingOfEntries
        (entryUnless request.variableValues.isEmpty "variables" (.object request.variableValues))) := by
  simp [body, Value.nestingOfEntries_append, Value.nestingOfEntries, Value.nesting]

theorem ofDocument?_operation (kind : OperationKind) (room : Nat) :
    OperationKind.ofDocument? (ofValueWithin room (.string kind.name)) = some kind := by
  cases kind <;> rfl

/-- The values of variables, which may be null as a whole. -/
theorem decodes_variableValues {values : Object} (represented : (Value.object values).Represented) :
    Decodes (fun document => (nullable object? document).map (·.getD [])) (.object values) values :=
  ((decodes_object? represented).nullable nofun).map (·.getD [])

variable {request}

theorem represented_toValue (represented : request.Represented) : request.toValue.Represented := by
  have selections := Selection.represented_toValues fun selection member =>
    Selection.represented_toValue (represented.selections selection member)
  refine .object request.body_distinct ?_
  simp only [List.forall_mem_append]
  exact ⟨⟨⟨List.forall_mem_singleton.mpr (.string _), Value.represented_textEntry _ _⟩,
    List.forall_mem_singleton.mpr selections⟩, Value.represented_entryUnless represented.variableValues _ _⟩

/-- A request is decoded from its JSON form. -/
theorem decodes_toValue (represented : request.Represented) : Decodes ofDocument? request.toValue request := by
  rw [toValue_eq]
  refine .object rfl fun room => ?_
  have selections := Selection.decodes_toValues (fun selection member =>
    Selection.decodes_toValue (represented.selections selection member)) room
  have values := withDefault_unlessEmpty (decodes_variableValues represented.variableValues) "variables" room
  rw [ofDocument?, members?_ofEntriesWithin request.body_distinct, get?_body, nesting_body]
  simp only [List.map_cons, List.map_nil, Option.map_some, Option.bind_eq_bind, Option.bind_some, Option.pure_def,
    withDefault_some, ofDocument?_operation, withDefault_text, selections, values]
  exact bind_room _

/-- The text of a request is decoded exactly if its lists and objects nest no
deeper than they may in a text. -/
theorem ofDocument?_text (represented : request.Represented) :
    (Document.parse? request.toValue.toJson).bind ofDocument? =
      if request.toValue.nesting ≤ nestingLimit then some request else none := by
  rw [parse?_toJson (represented_toValue represented), Option.bind_some]
  exact decodes_toValue represented nestingLimit

/-- A request is decoded from its JSON form, and from the text of that unless it
nests too deep for a text. -/
theorem decoded_of_encoded (represented : request.Represented) :
    ofValue? request.toValue = some request ∧
      (Document.parse? request.toValue.toJson).bind ofDocument? =
        if request.toValue.nesting ≤ nestingLimit then some request else none :=
  ⟨(decodes_toValue represented).ofValue (represented_toValue represented), ofDocument?_text represented⟩

/-- A message for a channel, with all that a request may have. -/
def channelRequest : Request where
  operation := .mutation
  operationName := some "Post"
  selectionSet := [
    .field { name := "post", label := some "sent", arguments := [
        ("to", .list [.variable "channel", .value (.int 18446744073709551615)]),
        ("message", .object [("text", .variable "text"), ("tags", .value (.list [.null, .double (.zero true)]))])] }
      [.fragment (some "Message") [.field { name := "id" } []], .fragment none []]]
  variableValues := [("text", .string "say \"so\""), ("channel", .object [])]

theorem forall_mem_two {α : Type} {good : α → Prop} {first second : α} (atFirst : good first)
    (atSecond : good second) :
    ∀ a ∈ [first, second], good a :=
  List.forall_mem_cons.mpr ⟨atFirst, List.forall_mem_singleton.mpr atSecond⟩

theorem channelRequest_represented : channelRequest.Represented where
  selections := by
    have tags : (Value.list [.null, .double (.zero true)]).Represented :=
      .list (forall_mem_two .null (.double _))
    have channels : (InputValue.list [.variable "channel", .value (.int 18446744073709551615)]).Represented :=
      .list (forall_mem_two (.named _) (.value (.int (by decide) (by decide))))
    have message : (InputValue.object [("text", .variable "text"),
        ("tags", .value (.list [.null, .double (.zero true)]))]).Represented :=
      .object (by decide) (forall_mem_two (.named _) (.value tags))
    have id : (Selection.field { name := "id" } []).Represented := .field ⟨by decide, nofun⟩ nofun
    refine List.forall_mem_singleton.mpr (.field ⟨by decide, forall_mem_two channels message⟩ ?_)
    exact forall_mem_two (.fragment (List.forall_mem_singleton.mpr id)) (.fragment nofun)
  variableValues := .object (by decide) (forall_mem_two (.string _) (.object (by decide) nofun))

theorem channelRequest_decoded : ofValue? channelRequest.toValue = some channelRequest ∧
    (Document.parse? channelRequest.toValue.toJson).bind ofDocument? = some channelRequest := by
  obtain ⟨ofValue, ofText⟩ := decoded_of_encoded channelRequest_represented
  exact ⟨ofValue, ofText.trans (if_pos (by decide))⟩

/-- Fields in each other, so many levels of them. -/
def nestedFields : Nat → List Selection
  | 0 => []
  | depth + 1 => [.field { name := "a" } (nestedFields depth)]

theorem nestedFields_represented (depth : Nat) : ∀ selection ∈ nestedFields depth, selection.Represented := by
  induction depth with
  | zero => exact nofun
  | succ depth ih => exact List.forall_mem_singleton.mpr (.field ⟨by decide, nofun⟩ ih)

/-- A request of 43 levels of fields is not decoded from its text. -/
theorem nested_text_refused : ∃ request : Request, request.Represented ∧ request.selectionSet = nestedFields 43 ∧
    ofValue? request.toValue = some request ∧
    (Document.parse? request.toValue.toJson).bind ofDocument? ≠ some request := by
  have represented : ({ selectionSet := nestedFields 43 } : Request).Represented :=
    ⟨nestedFields_represented 43, .object (by decide) nofun⟩
  refine ⟨_, represented, rfl, (decodes_toValue represented).ofValue (represented_toValue represented), ?_⟩
  rw [ofDocument?_text represented, if_neg (by decide +kernel)]
  exact nofun

end Request

end SelectionEngine
