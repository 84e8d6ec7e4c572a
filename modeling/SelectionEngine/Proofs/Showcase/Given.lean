import SelectionEngine.Proofs.Coercion.Defaults
import SelectionEngine.Proofs.Showcase.Inputs
import SelectionEngine.Proofs.Showcase.Messages

namespace SelectionEngine

namespace Entries

variable {κ α : Type} [DecidableEq κ] {keys : List κ} {entries results : Entries κ α}

/-- The entries under some keys, in the order of the keys. -/
def pick (keys : List κ) (entries : Entries κ α) : Entries κ α :=
  keys.filterMap fun key => (get? key entries).map (key, ·)

theorem keys_pick_sublist (keys : List κ) (entries : Entries κ α) : (pick keys entries).keys.Sublist keys := by
  induction keys with
  | nil => exact .slnil
  | cons key keys ih =>
    rw [pick, List.filterMap_cons]
    cases get? key entries with
    | none => exact ih.cons _
    | some value => exact ih.cons_cons _

/-- Entries in the order of some keys that are found under them are picked. -/
theorem eq_pick (distinct : keys.Nodup) (sublist : results.keys.Sublist keys)
    (each : ∀ key ∈ keys, get? key results = get? key entries) : results = pick keys entries := by
  induction keys generalizing results with
  | nil => exact List.map_eq_nil_iff.mp (List.sublist_nil.mp sublist)
  | cons key keys ih =>
    obtain ⟨absent, fewer⟩ := List.nodup_cons.mp distinct
    obtain ⟨first, others⟩ := List.forall_mem_cons.mp each
    rw [pick, List.filterMap_cons, ← first]
    rcases List.sublist_cons_iff.mp sublist with skipped | ⟨later, present, sublist⟩
    · rw [get?_eq_none_of_keys fun member => absent (skipped.subset member)]
      exact ih fewer skipped others
    · obtain ⟨⟨own, value⟩, rest, rfl, rfl, rfl⟩ := List.map_eq_cons_iff.mp present
      have rest : rest = pick keys entries := ih fewer sublist fun other member => by
        have apart : own ≠ other := fun same => absent (same ▸ member)
        rw [← others other member, get?, if_neg apart]
      rw [get?, if_pos rfl, Option.map_some, rest]
      rfl

end Entries

namespace Showcase

def textKeys : List String := ["content", "author"]

/-- The texts that a call gives for a message, whether or not they are null. -/
def givenTexts (call : FieldCall) (variableValues : Object) : Object :=
  match Entries.get? "input" (Schema.givenArguments call.arguments variableValues) with
  | some (.object entries) => Entries.pick textKeys entries
  | _ => []

/-- The id that a call gives. A number stands for its digits. -/
def givenId? (call : FieldCall) (variableValues : Object) : Option String :=
  match Entries.get? "id" (Schema.givenArguments call.arguments variableValues) with
  | some (.string id) => some id
  | some (.int n) => some (toString n)
  | _ => none

theorem messageTexts_givenTexts (call : FieldCall) (variableValues : Object) :
    MessageTexts (givenTexts call variableValues) := by
  have sublist : (Entries.keys (givenTexts call variableValues)).Sublist textKeys := by
    unfold givenTexts
    split
    · exact Entries.keys_pick_sublist _ _
    · exact List.nil_sublist _
  refine ⟨List.Nodup.sublist sublist (by decide), fun entry member named => ?_⟩
  have key : "id" ∈ textKeys := named ▸ sublist.subset (List.mem_map_of_mem member)
  exact absurd key (by decide)

variable {draw : Draws} {definitions : List ArgumentDef} {call : FieldCall} {variableValues : Object}
  {coerceDefault : Value → TypeRef → String → Except ArgumentError Value}

/-- A text of a message is taken as it is given. -/
theorem eq_of_coerceEntry_text {key path : String} {entries : Object} {outcome : Option Value}
    (coerced : (served draw).coerceEntry (Schema.substituteDefault coerceDefault)
      (input key (optional .string)) path entries = .ok outcome) :
    outcome = Entries.get? key entries := by
  cases given : Entries.get? key entries with
  | none =>
    rw [Schema.coerceEntry_of_notGiven _ (.inl given)] at coerced
    cases coerced
    rfl
  | some value =>
    rw [Schema.coerceEntry_of_get? _ given (.inr rfl)] at coerced
    cases value with
    | null | string =>
      cases coerced
      rfl
    | _ => cases coerced

/-- Of an object the texts are taken. -/
theorem eq_of_coerceGiven_message {entries : Object} {path : String} {result : Value}
    (coerced : (served draw).coerceGiven (Schema.substituteDefault coerceDefault) (.object entries)
      (.named "MessageInput") path = .ok result) : result = .object (Entries.pick textKeys entries) := by
  have unfolded : (Schema.coerceFields (fun field path => (served draw).coerceEntry
      (Schema.substituteDefault coerceDefault) field path entries)
      (textKeys.map fun key => input key (optional .string)) path).map .object = .ok result := coerced
  obtain ⟨results, fields, rfl⟩ := map_eq_ok.mp unfolded
  obtain ⟨sublist, each⟩ := Schema.outcomes_of_coerceFields (by decide) fields
  refine congrArg Value.object (Entries.eq_pick (by decide) sublist fun key listed => ?_)
  exact eq_of_coerceEntry_text (each _ (List.mem_map_of_mem listed))

/-- An id is taken as it is given, or written out. -/
theorem exists_givenId {path : String} {outcome : Option Value}
    (coerced : (served draw).coerceEntry (Schema.substituteDefault coerceDefault) (input "id" (required .id)) path
      (Schema.givenArguments call.arguments variableValues) = .ok outcome) :
    ∃ id, givenId? call variableValues = some id ∧ outcome = some (.string id) := by
  cases given : Entries.get? "id" (Schema.givenArguments call.arguments variableValues) with
  | none =>
    rw [Schema.coerceEntry_of_notGiven _ (.inl given)] at coerced
    cases coerced
  | some value =>
    cases value with
    | null =>
      rw [Schema.coerceEntry_of_notGiven _ (.inr ⟨given, rfl⟩)] at coerced
      cases coerced
    | string | int =>
      rw [Schema.coerceEntry_of_get? _ given (.inl (by simp))] at coerced
      cases coerced
      exact ⟨_, by rw [givenId?, given], rfl⟩
    | _ =>
      rw [Schema.coerceEntry_of_get? _ given (.inl (by simp))] at coerced
      cases coerced

section

variable {info : ResolveInfo} {label : String} (distinct : (definitions.map ArgumentDef.name).Nodup)
  (coerced : (served draw).coerceArguments definitions call.arguments variableValues label = .ok info.arguments)

include distinct coerced

theorem coerceEntry_of_coerceArguments {definition : ArgumentDef} (member : definition ∈ definitions) :
    (served draw).coerceEntry (Schema.substituteDefault (served draw).coerceValue) definition
      (label ++ "." ++ definition.name) (Schema.givenArguments call.arguments variableValues) =
        .ok (Entries.get? definition.name info.arguments) := by
  unfold Schema.coerceArguments at coerced
  split at coerced
  · cases coerced
  · exact (Schema.outcomes_of_coerceFields distinct coerced).2 definition member

theorem recordId_of_given (member : input "id" (required .id) ∈ definitions) :
    ∃ id, givenId? call variableValues = some id ∧ Resolver.recordId info = .ok id := by
  have entry := coerceEntry_of_coerceArguments distinct coerced member
  obtain ⟨id, given, outcome⟩ := exists_givenId entry
  exact ⟨id, given, recordId_of_string outcome⟩

theorem inputFields_of_given (member : input "input" (.named "MessageInput") ∈ definitions) :
    Resolver.inputFields info = .ok (givenTexts call variableValues) := by
  have entry := coerceEntry_of_coerceArguments distinct coerced member
  have named : (input "input" (.named "MessageInput")).name = "input" := rfl
  rw [named] at entry
  rw [givenTexts]
  cases given : Entries.get? "input" (Schema.givenArguments call.arguments variableValues) with
  | none =>
    rw [Schema.coerceEntry_of_notGiven _ (.inl given)] at entry
    exact inputFields_of_null (by rw [← Except.ok.inj entry]; rfl)
  | some value =>
    rw [Schema.coerceEntry_of_get? _ given (.inr rfl)] at entry
    cases value with
    | null =>
      exact inputFields_of_null (by rw [← Except.ok.inj entry]; rfl)
    | object entries =>
      obtain ⟨result, coerced, known⟩ := map_eq_ok.mp entry
      obtain rfl := eq_of_coerceGiven_message coerced
      exact inputFields_of_object known.symm
    | _ => cases entry

end

end Showcase

end SelectionEngine
