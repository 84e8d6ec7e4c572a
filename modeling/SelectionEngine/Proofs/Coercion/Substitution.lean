import SelectionEngine.Coercion
import SelectionEngine.Proofs.Entries

namespace SelectionEngine

variable {σ : Type}

/-- Whether some variables have the same values, or none. -/
def AgreeOn (names : List String) (variableValues otherValues : Object) : Prop :=
  ∀ name ∈ names, Entries.get? name variableValues = Entries.get? name otherValues

theorem AgreeOn.refl (names : List String) (variableValues : Object) :
    AgreeOn names variableValues variableValues :=
  fun _ _ => rfl

theorem agreeOn_append {front back : List String} {variableValues otherValues : Object} :
    AgreeOn (front ++ back) variableValues otherValues ↔
      AgreeOn front variableValues otherValues ∧ AgreeOn back variableValues otherValues :=
  List.forall_mem_append

/-- A variable that does not occur can have any value. -/
theorem agreeOn_set {names : List String} {name : String} (fresh : name ∉ names) (value : Value)
    (variableValues : Object) : AgreeOn names (Entries.set name value variableValues) variableValues := by
  intro other member
  rw [Entries.get?_set, if_neg]
  rintro rfl
  exact fresh member

namespace InputValue

mutual

/-- The names of the variables in an argument. -/
def variableNames : InputValue → List String
  | .variable name => [name]
  | .value _ => []
  | .list items => variableNamesOfItems items
  | .object entries => variableNamesOfEntries entries

def variableNamesOfItems : List InputValue → List String
  | [] => []
  | item :: items => item.variableNames ++ variableNamesOfItems items

def variableNamesOfEntries : List (String × InputValue) → List String
  | [] => []
  | (_, item) :: rest => item.variableNames ++ variableNamesOfEntries rest

end

theorem variableNamesOfItems_append (front back : List InputValue) :
    variableNamesOfItems (front ++ back) = variableNamesOfItems front ++ variableNamesOfItems back := by
  induction front with
  | nil => rfl
  | cons item front ih => simp only [List.cons_append, variableNamesOfItems, ih, List.append_assoc]

theorem variableNamesOfEntries_append (front back : List (String × InputValue)) :
    variableNamesOfEntries (front ++ back) = variableNamesOfEntries front ++ variableNamesOfEntries back := by
  induction front with
  | nil => rfl
  | cons entry front ih => simp only [List.cons_append, variableNamesOfEntries, ih, List.append_assoc]

theorem substituteItems_eq_map (variableValues : Object) (items : List InputValue) :
    substituteItems variableValues items = items.map fun item => (item.substitute? variableValues).getD .null := by
  induction items with
  | nil => rfl
  | cons item items ih => rw [substituteItems, ih, List.map_cons]

theorem substituteEntries_eq_filterMap (variableValues : Object) (entries : List (String × InputValue)) :
    substituteEntries variableValues entries =
      entries.filterMap fun entry => (entry.2.substitute? variableValues).map (entry.1, ·) := by
  induction entries with
  | nil => rfl
  | cons entry rest ih =>
    simp only [substituteEntries, List.filterMap_cons, ih]
    cases entry.2.substitute? variableValues <;> rfl

section

variable {variableValues otherValues : Object}

mutual

/-- Only the variables that occur count. -/
theorem substitute?_congr : (input : InputValue) → AgreeOn input.variableNames variableValues otherValues →
    input.substitute? variableValues = input.substitute? otherValues
  | .variable name, agree => by simpa [variableNames, AgreeOn, substitute?] using agree
  | .value _, _ => rfl
  | .list items, agree => by rw [substitute?, substitute?, substituteItems_congr items agree]
  | .object entries, agree => by rw [substitute?, substitute?, substituteEntries_congr entries agree]

theorem substituteItems_congr : (items : List InputValue) →
    AgreeOn (variableNamesOfItems items) variableValues otherValues →
    substituteItems variableValues items = substituteItems otherValues items
  | [], _ => rfl
  | item :: items, agree => by
    obtain ⟨first, others⟩ := agreeOn_append.mp agree
    rw [substituteItems, substituteItems, substitute?_congr item first, substituteItems_congr items others]

theorem substituteEntries_congr : (entries : List (String × InputValue)) →
    AgreeOn (variableNamesOfEntries entries) variableValues otherValues →
    substituteEntries variableValues entries = substituteEntries otherValues entries
  | [], _ => rfl
  | (key, item) :: rest, agree => by
    obtain ⟨first, others⟩ := agreeOn_append.mp agree
    simp only [substituteEntries, substitute?_congr item first, substituteEntries_congr rest others]

end

end

end InputValue

/-- A place inside of an argument: the argument as a whole, or a place in an
item or an entry of it. -/
inductive InputContext where
  | whole
  | item (front : List InputValue) (inside : InputContext) (back : List InputValue)
  | entry (front : Entries String InputValue) (key : String) (inside : InputContext)
      (back : Entries String InputValue)

namespace InputContext

/-- The argument that has something at the place. -/
def fill (input : InputValue) : InputContext → InputValue
  | whole => input
  | item front inside back => .list (front ++ inside.fill input :: back)
  | entry front key inside back => .object (front ++ (key, inside.fill input) :: back)

/-- The variables around a place. -/
def variableNames : InputContext → List String
  | whole => []
  | item front inside back =>
    InputValue.variableNamesOfItems front ++ (inside.variableNames ++ InputValue.variableNamesOfItems back)
  | entry front _ inside back =>
    InputValue.variableNamesOfEntries front ++ (inside.variableNames ++ InputValue.variableNamesOfEntries back)

theorem mem_variableNames_fill {context : InputContext} {input : InputValue} {name : String}
    (member : name ∈ context.variableNames) : name ∈ (context.fill input).variableNames := by
  induction context with
  | whole => cases member
  | item front inside back ih =>
    simp only [fill, InputValue.variableNames, InputValue.variableNamesOfItems_append,
      InputValue.variableNamesOfItems]
    simp only [variableNames, List.mem_append] at member ⊢
    exact member.imp_right (Or.imp_left ih)
  | entry front key inside back ih =>
    simp only [fill, InputValue.variableNames, InputValue.variableNamesOfEntries_append,
      InputValue.variableNamesOfEntries]
    simp only [variableNames, List.mem_append] at member ⊢
    exact member.imp_right (Or.imp_left ih)

/-- At any place something can stand for what has the same value, or none. -/
theorem substitute?_fill (context : InputContext) {input other : InputValue} {variableValues otherValues : Object}
    (same : input.substitute? variableValues = other.substitute? otherValues)
    (around : AgreeOn context.variableNames variableValues otherValues) :
    (context.fill input).substitute? variableValues = (context.fill other).substitute? otherValues := by
  induction context with
  | whole => exact same
  | item front inside back ih =>
    obtain ⟨before, rest⟩ := agreeOn_append.mp around
    obtain ⟨inner, after⟩ := agreeOn_append.mp rest
    have front := InputValue.substituteItems_congr front before
    have back := InputValue.substituteItems_congr back after
    rw [InputValue.substituteItems_eq_map, InputValue.substituteItems_eq_map] at front back
    simp only [fill, InputValue.substitute?, InputValue.substituteItems_eq_map, List.map_append,
      List.map_cons, front, ih inner, back]
  | entry front key inside back ih =>
    obtain ⟨before, rest⟩ := agreeOn_append.mp around
    obtain ⟨inner, after⟩ := agreeOn_append.mp rest
    have front := InputValue.substituteEntries_congr front before
    have back := InputValue.substituteEntries_congr back after
    rw [InputValue.substituteEntries_eq_filterMap, InputValue.substituteEntries_eq_filterMap] at front back
    simp only [fill, InputValue.substitute?, InputValue.substituteEntries_eq_filterMap, List.filterMap_append,
      List.filterMap_cons, front, ih inner, back]

end InputContext

namespace InputValue

theorem substitute?_variable_set (name : String) (value : Value) (variableValues : Object) :
    (InputValue.variable name).substitute? (Entries.set name value variableValues) =
      (InputValue.value value).substitute? variableValues := by
  rw [substitute?, substitute?, Entries.get?_set, if_pos rfl]

/-- A list can be given as a whole or item by item. -/
theorem substitute?_list (items : List Value) (variableValues : Object) :
    (list (items.map value)).substitute? variableValues = (value (.list items)).substitute? variableValues := by
  rw [substitute?, substitute?, substituteItems_eq_map, List.map_map]
  exact congrArg (some ∘ Value.list) (List.map_id items)

/-- An object can be given as a whole or entry by entry. -/
theorem substitute?_object {entries : Object} (distinct : entries.Distinct) (variableValues : Object) :
    (object (entries.map fun entry => (entry.1, value entry.2))).substitute? variableValues =
      (value (.object entries)).substitute? variableValues := by
  have each : substituteEntries variableValues (entries.map fun entry => (entry.1, value entry.2)) = entries := by
    rw [substituteEntries_eq_filterMap, List.filterMap_map]
    exact List.filterMap_some
  rw [substitute?, substitute?, each, Entries.ofList_of_distinct distinct]

/-- An argument with its variables replaced. What is left out for a variable
that is not set stays a variable. -/
def settle (variableValues : Object) (input : InputValue) : InputValue :=
  match input.substitute? variableValues with
  | some v => .value v
  | none => .variable ""

theorem substitute?_settle (variableValues : Object) (input : InputValue) :
    (input.settle variableValues).substitute? [] = input.substitute? variableValues := by
  rw [settle]
  cases input.substitute? variableValues <;> rfl

theorem settle_congr {input other : InputValue} {variableValues otherValues : Object}
    (same : input.substitute? variableValues = other.substitute? otherValues) :
    input.settle variableValues = other.settle otherValues := by
  rw [settle, settle, same]

/-- The arguments of a field with their variables replaced. -/
def settleEntries (variableValues : Object) (raw : Entries String InputValue) : Entries String InputValue :=
  raw.map fun entry => (entry.1, entry.2.settle variableValues)

theorem settleEntries_congr {raw : Entries String InputValue} {variableValues otherValues : Object}
    (agree : AgreeOn (variableNamesOfEntries raw) variableValues otherValues) :
    settleEntries variableValues raw = settleEntries otherValues raw := by
  induction raw with
  | nil => rfl
  | cons entry rest ih =>
    obtain ⟨first, others⟩ := agreeOn_append.mp agree
    have here := settle_congr (substitute?_congr entry.2 first)
    have later := ih others
    simp only [settleEntries] at later
    simp only [settleEntries, List.map_cons, here, later]

end InputValue

namespace Schema

/-- Without their variables, arguments are coerced to the same. -/
theorem coerceArguments_settle (schema : Schema σ) (arguments : List ArgumentDef) (raw : Entries String InputValue)
    (variableValues : Object) (label : String) :
    schema.coerceArguments arguments (InputValue.settleEntries variableValues raw) [] label =
      schema.coerceArguments arguments raw variableValues label := by
  have keys : Entries.keys (InputValue.settleEntries variableValues raw) = raw.keys := by
    simp [Entries.keys, InputValue.settleEntries]
  have given : givenArguments (InputValue.settleEntries variableValues raw) [] =
      givenArguments raw variableValues := by
    simp only [givenArguments, InputValue.settleEntries, List.filterMap_map, Function.comp_def,
      InputValue.substitute?_settle]
  simp only [coerceArguments, keys, given]

end Schema

end SelectionEngine
