import Mathlib.Data.List.Nodup
import SelectionEngine.Proofs.Entries
import SelectionEngine.Proofs.Text.Digits
import SelectionEngine.Store

namespace SelectionEngine

/-- What an object says besides its `id`. -/
def withoutId (object : Object) : Object := object.filter fun entry => entry.1 ≠ "id"

namespace Record

/-- The record that is created from an input under an id and then patched. -/
def made (id : String) (input : Object) (patches : List Object) : Record :=
  ("id", .string id) ::
    patches.foldl (fun entries patch => Entries.overwrite entries (withoutId patch))
      (Entries.ofList (withoutId input))

theorem patch_cons (id : String) (entries patch : Object) :
    Record.patch (("id", .string id) :: entries) patch =
      ("id", .string id) :: Entries.overwrite entries (withoutId patch) := by
  refine Entries.overwrite_cons fun entry member => ?_
  have other : entry.1 ≠ "id" := of_decide_eq_true (List.mem_filter.mp member).2
  exact other.symm

theorem patch_made (id : String) (input : Object) (patches : List Object) (patch : Object) :
    (made id input patches).patch patch = made id input (patches ++ [patch]) := by
  rw [made, patch_cons, made, List.foldl_append]
  rfl

/-- Entries keep their places when a record is patched. -/
theorem prefix_keys_made (id : String) (input : Object) (patches : List Object) (patch : Object) :
    (made id input patches).keys <+: (made id input (patches ++ [patch])).keys := by
  rw [← patch_made]
  exact Entries.prefix_keys_overwrite _ _

theorem made_of_distinct {input : Object} (distinct : Entries.Distinct input) (id : String) :
    made id input [] = ("id", .string id) :: withoutId input := by
  have fewer : Entries.Distinct (withoutId input) := distinct.sublist (List.filter_sublist.map Prod.fst)
  rw [made, List.foldl_nil, Entries.ofList_of_distinct fewer]

end Record

namespace Collection

/-- The collection of records that were created from the inputs one after
another, each of them patched by the patches of its id. -/
def made (inputs : List Object) (patches : String → List Object) : Collection where
  lastId := inputs.length
  records := inputs.mapIdx fun k input =>
    (toString (k + 1), Record.made (toString (k + 1)) input (patches (toString (k + 1))))

variable {inputs : List Object} {patches : String → List Object}

theorem keys_made :
    (made inputs patches).records.keys = (List.range inputs.length).map fun k => toString (k + 1) := by
  refine List.ext_getElem (by simp [made, Entries.keys]) fun k _ _ => ?_
  simp [made, Entries.keys]

theorem list_made : (made inputs patches).list = inputs.mapIdx fun k input =>
    Record.made (toString (k + 1)) input (patches (toString (k + 1))) := by
  refine List.ext_getElem (by simp [made, list, Entries.values]) fun k _ _ => ?_
  simp [made, list, Entries.values]

theorem distinct_made : (made inputs patches).records.Distinct := by
  rw [Entries.Distinct, keys_made]
  exact List.nodup_range.map fun one two same => Nat.succ.inj (Text.eq_of_toString_eq same)

/-- The ids of the records are the numbers up to that of the last one. -/
theorem get?_made {id : String} {record : Record} :
    (made inputs patches).get? id = some record ↔
      ∃ k input, inputs[k]? = some input ∧ id = toString (k + 1) ∧ record = Record.made id input (patches id) := by
  rw [Collection.get?, Entries.get?_eq_some_iff distinct_made, made, List.mem_mapIdx]
  constructor
  · rintro ⟨k, inRange, same⟩
    obtain ⟨rfl, rfl⟩ := Prod.mk.inj same
    exact ⟨k, inputs[k], List.getElem?_eq_getElem inRange, rfl, rfl⟩
  · rintro ⟨k, input, created, rfl, rfl⟩
    obtain ⟨inRange, rfl⟩ := List.getElem?_eq_some_iff.mp created
    exact ⟨k, inRange, rfl⟩

theorem get?_made_eq_none {id : String} (absent : ∀ k < inputs.length, id ≠ toString (k + 1)) :
    (made inputs patches).get? id = none := by
  refine Option.eq_none_iff_forall_ne_some.mpr fun record found => ?_
  obtain ⟨k, input, created, same, _⟩ := get?_made.mp found
  exact absent k (List.getElem?_eq_some_iff.mp created).1 same

theorem get?_next_eq_none : (made inputs patches).get? (toString (inputs.length + 1)) = none := by
  refine get?_made_eq_none fun k inRange same => ?_
  have number : inputs.length + 1 = k + 1 := Text.eq_of_toString_eq same
  omega

theorem create_made (unpatched : patches (toString (inputs.length + 1)) = []) (input : Object) :
    (made inputs patches).create input =
      (Record.made (toString (inputs.length + 1)) input [], made (inputs ++ [input]) patches) := by
  have record : Record.patch [("id", .string (toString (inputs.length + 1)))] input =
      Record.made (toString (inputs.length + 1)) input [] := Record.patch_cons _ [] input
  have length : (made inputs patches).lastId = inputs.length := rfl
  simp only [create, length, record, Entries.set_of_get?_eq_none get?_next_eq_none]
  simp only [made, List.mapIdx_concat, unpatched, List.length_append, List.length_singleton]

theorem update?_made {id : String} {old : Record} (found : (made inputs patches).get? id = some old)
    (patch : Object) :
    (made inputs patches).update? id patch =
      some (old.patch patch,
        made inputs fun other => if id = other then patches other ++ [patch] else patches other) := by
  have records : Entries.set id (old.patch patch) (made inputs patches).records =
      (made inputs fun other => if id = other then patches other ++ [patch] else patches other).records := by
    rw [Entries.set_eq_map distinct_made found]
    refine List.ext_getElem (by simp [made]) fun n _ inRange => ?_
    simp only [made, List.getElem_map, List.getElem_mapIdx]
    obtain ⟨k, input, created, rfl, rfl⟩ := get?_made.mp found
    -- different numbers have different ids, so only the record
    -- that was found changes
    by_cases same : toString (n + 1) = toString (k + 1)
    · obtain rfl : n = k := Nat.succ.inj (Text.eq_of_toString_eq same)
      obtain ⟨_, rfl⟩ := List.getElem?_eq_some_iff.mp created
      rw [if_pos rfl, if_pos rfl, Record.patch_made]
    · rw [if_neg same, if_neg (Ne.symm same)]
  simp only [update?, found, Option.map_some, records]
  rfl

end Collection

end SelectionEngine
