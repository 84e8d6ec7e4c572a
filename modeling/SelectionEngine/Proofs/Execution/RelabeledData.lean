import SelectionEngine.Proofs.Execution.Relabeling

namespace SelectionEngine

variable (r : String → String) (selected : Path → Bool)

namespace Value

mutual

/-- A value at a path, in which the objects at selected paths have other keys.
An object at another path is left as it is, with all that is in it. -/
def relabel (path : Path) : Value → Value
  | object entries => if selected path then object (relabelEntries path entries) else object entries
  | list items => list (relabelItems path 0 items)
  | null => null
  | bool b => bool b
  | int n => int n
  | double d => double d
  | string s => string s

def relabelItems (path : Path) (n : Nat) : List Value → List Value
  | [] => []
  | item :: items => relabel (path.join (.index n)) item :: relabelItems path (n + 1) items

def relabelEntries (path : Path) : List (String × Value) → List (String × Value)
  | [] => []
  | (key, value) :: rest => (r key, relabel (path.join (.key key)) value) :: relabelEntries path rest

end

variable {r selected}

theorem relabelItems_eq (path : Path) (n : Nat) (items : List Value) :
    relabelItems r selected path n items =
      List.zipWith (fun element item => relabel r selected (path.join element) item)
        ((List.range' n items.length).map .index) items := by
  induction items generalizing n with
  | nil => rfl
  | cons item items ih =>
    rw [relabelItems, ih, List.length_cons, List.range'_succ, List.map_cons, List.zipWith_cons_cons]

theorem relabelEntries_zip (path : Path) (keys : List String) (values : List Value) :
    relabelEntries r selected path (keys.zip values) =
      (keys.map r).zip (List.zipWith (fun element value => relabel r selected (path.join element) value)
        (keys.map .key) values) := by
  induction keys generalizing values with
  | nil => rfl
  | cons key keys ih =>
    cases values with
    | nil => rfl
    | cons value values =>
      simp only [List.zip_cons_cons, relabelEntries, ih, List.map_cons, List.zipWith_cons_cons]

mutual

/-- Nothing changes where no object is made of selected fields. -/
theorem relabel_of_unselected : (value : Value) → (path : Path) → (∀ rest, selected (path ++ rest) = false) →
    value.relabel r selected path = value
  | object entries, path, nowhere => by
    have here : selected path = false := List.append_nil path ▸ nowhere []
    simp only [relabel, here, Bool.false_eq_true, if_false]
  | list items, path, nowhere => by
    simp only [relabel, relabelItems_of_unselected items path 0 nowhere]
  | null, _, _ | bool _, _, _ | int _, _, _ | double _, _, _ | string _, _, _ => rfl

theorem relabelItems_of_unselected : (items : List Value) → (path : Path) → (n : Nat) →
    (∀ rest, selected (path ++ rest) = false) → relabelItems r selected path n items = items
  | [], _, _, _ => rfl
  | item :: items, path, n, nowhere => by
    have below (rest : Path) : selected (path.join (.index n) ++ rest) = false := by
      rw [Path.join, List.append_assoc]
      exact nowhere _
    rw [relabelItems, relabel_of_unselected item _ below, relabelItems_of_unselected items path (n + 1) nowhere]

end

theorem relabel_eq_null {value : Value} {path : Path} : value.relabel r selected path = .null ↔ value = .null := by
  cases value with
  | object entries =>
    rw [relabel]
    split <;> simp
  | _ => simp [relabel]

end Value

theorem BuiltIn.Admits.relabel {scalar : BuiltIn} {value : Value} (admits : scalar.Admits value) (path : Path) :
    value.relabel r selected path = value := by
  cases admits <;> rfl

namespace Completed

/-- What work at a path came to, with other keys in its value and in
the paths of its errors. -/
def relabel (path : Path) (c : Completed Value) : Completed Value :=
  ⟨c.value?.map (Value.relabel r selected path), c.errors.map (Report.relabel r)⟩

variable {r selected} {path : Path}

theorem relabel_absorb (c : Completed Value) :
    c.absorb.relabel r selected path = (c.relabel r selected path).absorb := by
  rcases c with ⟨_ | value, errors⟩ <;> rfl

theorem relabel_refuseNull (error : Report) (c : Completed Value) :
    (c.refuseNull error).relabel r selected path = (c.relabel r selected path).refuseNull (error.relabel r) := by
  by_cases null : c.value? = some .null
  · have nullAfter : (c.relabel r selected path).value? = some .null := by simp only [relabel, null]; rfl
    rw [refuseNull_of_null _ null, refuseNull_of_null _ nullAfter]
    simp only [relabel, List.map_append, List.map_cons, List.map_nil, Option.map_none]
  · have presentAfter : (c.relabel r selected path).value? ≠ some .null := by
      intro same
      obtain ⟨value, present, isNull⟩ := Option.map_eq_some_iff.mp same
      exact null (Value.relabel_eq_null.mp isNull ▸ present)
    rw [refuseNull_of_ne_null _ null, refuseNull_of_ne_null _ presentAfter]

theorem relabel_fieldFailure (type : TypeRef) (error : Report) :
    (Run.fieldFailure type error).relabel r selected path = Run.fieldFailure type (error.relabel r) := by
  simp only [Run.fieldFailure]
  split <;> rfl

/-- Parts have other keys each at its own path. -/
theorem all_relabel (path : Path) {elements : List PathElement} {parts : List (Completed Value)}
    (length : parts.length = elements.length) :
    all (List.zipWith (fun element c => c.relabel r selected (path.join element)) elements parts) =
      ⟨(all parts).value?.map
          (List.zipWith (fun element value => value.relabel r selected (path.join element)) elements),
        (all parts).errors.map (Report.relabel r)⟩ := by
  induction elements generalizing parts with
  | nil =>
    obtain rfl := List.length_eq_zero_iff.mp length
    rfl
  | cons element elements ih =>
    obtain ⟨part, parts, rfl⟩ := List.exists_cons_of_length_eq_add_one length
    have rest := ih (Nat.succ.inj length)
    simp only [all, Completed.mk.injEq] at rest
    simp only [all, List.zipWith_cons_cons, List.mapM_cons, rest.1, List.flatMap_cons, rest.2, List.map_append,
      Completed.mk.injEq]
    refine ⟨?_, rfl⟩
    rcases part with ⟨_ | value, errors⟩
    · rfl
    · rcases parts.mapM value? with _ | values <;> rfl

end Completed

namespace Account

/-- The account of what happens to the parts at a path when
fields have other keys. -/
def relabel (path : Path) (account : Account) : Account where
  completed := account.completed.relabel r selected path
  resolutions := account.resolutions.map (Resolution.relabel r)

/-- The accounts of parts, each of them one step from a path. -/
def relabelParts (path : Path) (elements : List PathElement) (accounts : List Account) : List Account :=
  List.zipWith (fun element account => account.relabel r selected (path.join element)) elements accounts

variable {r selected} {path : Path} {elements : List PathElement} {accounts : List Account}

theorem length_relabelParts (length : accounts.length = elements.length) :
    (relabelParts r selected path elements accounts).length = accounts.length := by
  rw [relabelParts, List.length_zipWith, length, Nat.min_self]

theorem resolutions_relabelParts (length : accounts.length = elements.length) :
    (relabelParts r selected path elements accounts).flatMap resolutions =
      (accounts.flatMap resolutions).map (Resolution.relabel r) := by
  induction elements generalizing accounts with
  | nil =>
    obtain rfl := List.length_eq_zero_iff.mp length
    rfl
  | cons element elements ih =>
    obtain ⟨account, accounts, rfl⟩ := List.exists_cons_of_length_eq_add_one length
    simp only [relabelParts, List.zipWith_cons_cons, List.flatMap_cons, List.map_append] at ih ⊢
    rw [ih (Nat.succ.inj length)]
    rfl

theorem completed_relabelParts (length : accounts.length = elements.length) :
    Completed.all ((relabelParts r selected path elements accounts).map completed) =
      ⟨(Completed.all (accounts.map completed)).value?.map
          (List.zipWith (fun element value => value.relabel r selected (path.join element)) elements),
        (Completed.all (accounts.map completed)).errors.map (Report.relabel r)⟩ := by
  have sameLength : (accounts.map completed).length = elements.length := by rw [List.length_map, length]
  rw [← Completed.all_relabel path sameLength, relabelParts, List.map_zipWith, List.zipWith_map_right]
  rfl

theorem relabel_ofFields {keys : List String} (here : selected path = true)
    (length : accounts.length = keys.length) :
    (ofFields keys accounts).relabel r selected path =
      ofFields (keys.map r) (relabelParts r selected path (keys.map .key) accounts) := by
  have sameLength : accounts.length = (keys.map PathElement.key).length := by rw [List.length_map, length]
  simp only [relabel, ofFields, completed_relabelParts sameLength, resolutions_relabelParts sameLength,
    Completed.relabel, Completed.map, Option.map_map, Function.comp_def, Value.relabel, here, if_true,
    Value.relabelEntries_zip]

theorem relabel_ofItems (path : Path) (accounts : List Account) :
    (ofItems accounts).relabel r selected path =
      ofItems (relabelParts r selected path ((List.range accounts.length).map .index) accounts) := by
  have sameLength : accounts.length = ((List.range accounts.length).map PathElement.index).length := by simp
  simp only [relabel, ofItems, completed_relabelParts sameLength, resolutions_relabelParts sameLength,
    Completed.relabel, Completed.map, Option.map_map]
  congr 2
  cases present : (Completed.all (accounts.map completed)).value? with
  | none => rfl
  | some values =>
    have full : values.length = accounts.length := by rw [Completed.length_of_all present, List.length_map]
    simp only [Option.map_some, Function.comp_apply, Value.relabel, Value.relabelItems_eq, full,
      List.range_eq_range']

end Account

/-- The response with other keys in the objects of its data that are made of
selected fields, and in the paths of its errors. -/
def Response.relabel (response : Response) : Response :=
  { response with
    data := response.data.map (Value.relabel r selected [])
    errors := response.errors.map (Report.relabel r) }

end SelectionEngine
