import Mathlib.Data.List.Basic
import SelectionEngine.Execution.Run

namespace SelectionEngine

namespace Completed

variable {α β : Type}

@[simp] theorem errors_all (parts : List (Completed α)) : (all parts).errors = parts.flatMap errors := rfl

theorem refuseNull_of_null (error : Report) {c : Completed Value} (null : c.value? = some .null) :
    c.refuseNull error = ⟨none, c.errors ++ [error]⟩ := by
  simp only [refuseNull, null]

theorem refuseNull_of_ne_null (error : Report) {c : Completed Value} (present : c.value? ≠ some .null) :
    c.refuseNull error = c := by
  unfold refuseNull
  split
  · next null => exact absurd null present
  · rfl

/-- A part that may not be null never ends as null. -/
theorem refuseNull_value?_ne_null (error : Report) (c : Completed Value) :
    (c.refuseNull error).value? ≠ some .null := by
  by_cases null : c.value? = some .null
  · simp [refuseNull_of_null error null]
  · rwa [refuseNull_of_ne_null error null]

theorem all_value?_eq_none {parts : List (Completed α)} :
    (all parts).value? = none ↔ ∃ part ∈ parts, part.value? = none := by
  induction parts with
  | nil => simp [all]
  | cons part parts ih =>
    simp only [all, List.mapM_cons, List.mem_cons, exists_eq_or_imp] at ih ⊢
    rw [← ih]
    rcases part.value? with _ | a
    · simp
    · rcases parts.mapM value? with _ | as <;> simp

theorem length_of_all {parts : List (Completed α)} {values : List α}
    (present : (all parts).value? = some values) : values.length = parts.length := by
  induction parts generalizing values with
  | nil =>
    obtain rfl : [] = values := by simpa [all] using present
    rfl
  | cons part parts ih =>
    simp only [all, List.mapM_cons, Option.bind_eq_bind, Option.bind_eq_some_iff, Option.pure_def,
      Option.some.injEq] at present
    obtain ⟨a, _, as, rest, rfl⟩ := present
    simp only [List.length_cons, ih rest]

theorem getElem?_of_all {parts : List (Completed α)} {values : List α}
    (present : (all parts).value? = some values) (n : Nat) : values[n]? = parts[n]?.bind value? := by
  induction parts generalizing values n with
  | nil =>
    obtain rfl : [] = values := by simpa [all] using present
    rfl
  | cons part parts ih =>
    simp only [all, List.mapM_cons, Option.bind_eq_bind, Option.bind_eq_some_iff, Option.pure_def,
      Option.some.injEq] at present
    obtain ⟨a, first, as, rest, rfl⟩ := present
    cases n with
    | zero => simp [first]
    | succ n => exact ih rest n

theorem all_append (front back : List (Completed α)) :
    (all (front ++ back)).value? =
      (all front).value?.bind fun as => (all back).value?.map fun bs => as ++ bs := by
  induction front with
  | nil => simp [all]
  | cons part front ih =>
    simp only [all, List.cons_append, List.mapM_cons] at ih ⊢
    rw [ih]
    rcases part.value? with _ | a
    · rfl
    · rcases front.mapM value? with _ | as
      · rfl
      · rcases back.mapM value? with _ | bs <;> rfl

/-- Two lists of parts are put together under their keys as each of them is. -/
theorem all_append_zip {front : List String} {as : List (Completed α)} (length : as.length = front.length)
    (back : List String) (bs : List (Completed α)) :
    (all (as ++ bs)).map (fun values => (front ++ back).zip values) =
      let first := (all as).map fun values => front.zip values
      let second := (all bs).map fun values => back.zip values
      ⟨first.value?.bind fun entries => second.value?.map fun more => entries ++ more,
        first.errors ++ second.errors⟩ := by
  simp only [map, all_append, errors_all, List.flatMap_append]
  cases one : (all as).value? with
  | none => rfl
  | some values =>
    have sameLength : front.length = values.length := by rw [length_of_all one, length]
    cases (all bs).value? with
    | none => rfl
    | some more => simp only [Option.bind_some, Option.map_some, List.zip_append sameLength]

end Completed

/-- The values of a built-in scalar in a response, other than null. -/
inductive BuiltIn.Admits : BuiltIn → Value → Prop
  | int {n : Int} : -0x80000000 ≤ n → n < 0x80000000 → Admits .int (.int n)
  | float (d : Double) : Admits .float (.double d)
  | string (s : String) : Admits .string (.string s)
  | id (s : String) : Admits .id (.string s)
  | boolean (b : Bool) : Admits .boolean (.bool b)

theorem BuiltIn.admits_of_complete? {scalar : BuiltIn} {value result : Value}
    (completed : scalar.complete? value = some result) : scalar.Admits result := by
  unfold complete? at completed
  split at completed
  · cases completed
    exact .string _
  · cases completed
    exact .boolean _
  · obtain ⟨n, inRange, rfl⟩ := Option.map_eq_some_iff.mp completed
    unfold Value.asInt32? at inRange
    split at inRange
    · split at inRange
      · next bounds =>
        cases inRange
        exact .int bounds.1 bounds.2
      · cases inRange
    · cases inRange
  · obtain ⟨d, _, rfl⟩ := Option.map_eq_some_iff.mp completed
    exact .float d
  · cases completed
    exact .id _
  · cases completed
    exact .id _
  · cases completed

namespace Run

variable {ρ σ : Type} (run : Run ρ σ) (execute : ObjectExecution ρ σ) (parentType field : String)

/-- Only objects have fields. -/
theorem completeObject_of_ne_object (type : ObjectType ρ) {value : Value} (path : Path)
    (other : ∀ entries, value ≠ .object entries) :
    completeObject execute type value path = .done (.failed
      (Reportable.report (CompletionError.expectedObject type.name value) (some path))) := by
  cases value with
  | object entries => exact absurd rfl (other entries)
  | _ => rfl

theorem completeList_of_ne_list (completeItem : Value → Path → Task σ (Completed Value)) {value : Value}
    (path : Path) (other : ∀ items, value ≠ .list items) :
    run.completeList parentType field completeItem value path = .done (.failed
      (Reportable.report (CompletionError.expectedList parentType field value) (some path))) := by
  cases value with
  | list items => exact absurd rfl (other items)
  | _ => rfl

theorem completeInner_null (type : TypeRef) (path : Path) :
    run.completeInner execute parentType field type .null path = .done (.ok .null) := by
  cases type <;> rfl

variable {value : Value} (present : value ≠ .null) (path : Path)

include present

theorem completeInner_nonNull (inner : TypeRef) :
    run.completeInner execute parentType field (.nonNull inner) value path =
      run.complete execute parentType field (.nonNull inner) value path := by
  cases value with
  | null => exact absurd rfl present
  | _ => rfl

theorem completeInner_list (inner : TypeRef) :
    run.completeInner execute parentType field (.list inner) value path =
      run.completeList parentType field (run.complete execute parentType field inner) value path := by
  cases value with
  | null => exact absurd rfl present
  | _ => cases inner <;> rfl

theorem completeInner_named (name : String) :
    run.completeInner execute parentType field (.named name) value path =
      run.completeNamed execute name value path := by
  cases value with
  | null => exact absurd rfl present
  | _ => rfl

theorem completeInner_builtIn (scalar : BuiltIn) :
    run.completeInner execute parentType field (.builtIn scalar) value path =
      .done (completeLeaf scalar value path) := by
  cases value with
  | null => exact absurd rfl present
  | _ => rfl

omit present in
theorem complete_of_nullable {type : TypeRef} (nullable : type.isNonNull = false) :
    run.complete execute parentType field type value path =
      (run.completeInner execute parentType field type value path).bind fun c => .done c.absorb := by
  cases type with
  | nonNull inner => simp [TypeRef.isNonNull] at nullable
  | _ => rfl

section

variable {run execute parentType field} {other : Run ρ σ}
  (named : run.completeNamed execute = other.completeNamed execute) (parallel : run.parallel = other.parallel)

omit present

/-- Completing at a place follows from completing its content. -/
theorem complete_of_completeInner {type : TypeRef} (inner : run.completeInner execute parentType field type =
      other.completeInner execute parentType field type) :
    run.complete execute parentType field type = other.complete execute parentType field type := by
  funext value path
  cases type with
  | nonNull type =>
    by_cases null : value = .null
    · simp only [null, complete, completeInner_null]
    · rw [← completeInner_nonNull _ _ _ _ null, ← completeInner_nonNull _ _ _ _ null, inner]
  | _ => rw [complete_of_nullable _ _ _ _ _ rfl, complete_of_nullable _ _ _ _ _ rfl, inner]

theorem completeInner_of_present {type : TypeRef} (present : ∀ value path, value ≠ .null →
      run.completeInner execute parentType field type value path =
        other.completeInner execute parentType field type value path) :
    run.completeInner execute parentType field type = other.completeInner execute parentType field type := by
  funext value path
  by_cases null : value = .null
  · rw [null, completeInner_null, completeInner_null]
  · exact present value path null

include named parallel

theorem completeInner_congr (type : TypeRef) :
    run.completeInner execute parentType field type = other.completeInner execute parentType field type := by
  induction type with
  | builtIn scalar =>
    refine completeInner_of_present fun value path present => ?_
    rw [completeInner_builtIn _ _ _ _ present, completeInner_builtIn _ _ _ _ present]
  | named name =>
    refine completeInner_of_present fun value path present => ?_
    rw [completeInner_named _ _ _ _ present, completeInner_named _ _ _ _ present, named]
  | list inner ih =>
    refine completeInner_of_present fun value path present => ?_
    rw [completeInner_list _ _ _ _ present, completeInner_list _ _ _ _ present, complete_of_completeInner ih]
    simp only [completeList, gather, parallel]
  | nonNull inner ih =>
    refine completeInner_of_present fun value path present => ?_
    simp only [completeInner_nonNull _ _ _ _ present, complete, ih]

/-- Runs that complete values of named types alike, and treat items alike,
complete all values alike. -/
theorem complete_congr (type : TypeRef) :
    run.complete execute parentType field type = other.complete execute parentType field type :=
  complete_of_completeInner (completeInner_congr named parallel type)

end

end Run

end SelectionEngine
