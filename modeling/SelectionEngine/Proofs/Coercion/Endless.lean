import Mathlib.Data.Finset.Card
import Mathlib.Order.Monotone.Basic
import SelectionEngine.Proofs.Coercion.Defaults
import SelectionEngine.Proofs.Coercion.Equations
import SelectionEngine.Proofs.Coercion.SameInputs

namespace SelectionEngine

variable {σ α β γ : Type}

/-- Whether a coercion came to an end: to a value, or to an error that is not a
default calling for itself. -/
def Ends (outcome : Except ArgumentError α) : Prop := ∀ path, outcome ≠ .error (.endlessDefault path)

theorem ends_ok (a : α) : Ends (.ok a : Except ArgumentError α) := nofun

theorem Ends.of_error {error : ArgumentError} (ends : Ends (.error error : Except ArgumentError α)) :
    Ends (.error error : Except ArgumentError β) := fun path same =>
  ends path (congrArg Except.error (Except.error.inj same))

/-- A relation between outcomes that also holds where something
is of no input type. -/
structure OutcomeComparison extends OutcomeRelation where
  notInput {α : Type} {place other : String} (places : Places place other) (name : String) :
    Holds (.error (.notAnInputType place name) : Except ArgumentError α) (.error (.notAnInputType other name))

namespace OutcomeComparison

/-- The first coercion came to an end. -/
def ending : OutcomeComparison where
  Places _ _ := True
  Holds outcome _ := Ends outcome
  extend _ _ := trivial
  ok := ends_ok
  bind {α β outcome other next otherNext} first rest := by
    cases outcome with
    | error error => exact first.of_error
    | ok a => exact rest a
  missing _ := nofun
  invalid _ _ _ := nofun
  notInput _ _ := nofun

/-- Where the first coercion comes to an end, the other one does so too, and
with the same value if there is one. -/
def elsewhere : OutcomeComparison where
  Places _ _ := True
  Holds outcome other := Ends outcome → Ends other ∧ other.toOption = outcome.toOption
  extend _ _ := trivial
  ok a _ := ⟨ends_ok a, rfl⟩
  bind {α β outcome other next otherNext} first rest ends := by
    cases outcome with
    | error error =>
      obtain ⟨otherEnds, same⟩ := first ends.of_error
      cases other with
      | error error => exact ⟨otherEnds.of_error, rfl⟩
      | ok b => cases same
    | ok a =>
      obtain ⟨_, same⟩ := first (ends_ok a)
      cases other with
      | error error => cases same
      | ok b =>
        obtain rfl := Option.some.inj same
        exact rest _ ends
  missing _ _ := ⟨nofun, rfl⟩
  invalid _ _ _ _ := ⟨nofun, rfl⟩
  notInput _ _ _ := ⟨nofun, rfl⟩

/-- Where the first coercion comes to an end, the other one at the same
place comes to the same. -/
def unlessEndless : OutcomeComparison where
  Places := Eq
  Holds outcome other := Ends outcome → other = outcome
  extend := @OutcomeRelation.agrees.extend
  ok _ _ := rfl
  bind {α β outcome other next otherNext} first rest ends := by
    cases outcome with
    | error error => rw [first ends.of_error]; rfl
    | ok a => rw [first (ends_ok a)]; exact rest a ends
  missing places _ := by rw [places]
  invalid places _ _ _ := by rw [places]
  notInput places _ _ := by rw [places]

end OutcomeComparison

namespace Schema

variable {schema : Schema σ} (C : OutcomeComparison)

theorem coerceWhole_compared (type : TypeRef) (value : Value) {place other : String}
    (places : C.Places place other) :
    C.Holds (schema.coerceWhole type value place) (schema.coerceWhole type value other) := by
  cases type with
  | builtIn scalar =>
    simp only [coerceWhole]
    cases scalar.coerce? value with
    | some result => exact C.ok result
    | none => exact C.invalid places _ _
  | named name =>
    simp only [coerceWhole]
    rcases schema.lookup? name with _ | (_ | _ | _ | _)
    · exact C.notInput places name
    · exact C.ok value
    · exact C.notInput places name
    · exact C.notInput places name
    · exact C.invalid places _ _
  | list inner => exact C.invalid places _ _
  | nonNull inner => exact C.invalid places _ _

variable {substitute otherSubstitute : ArgumentDef → String → Except ArgumentError (Option Value)}

/-- Coercions of the same value compare if they treat absent fields alike. -/
theorem coerceGiven_compared
    (compare : SubstitutesRelated schema C.toOutcomeRelation substitute otherSubstitute) (type : TypeRef)
    (value : Value) {place other : String} (places : C.Places place other) :
    C.Holds (schema.coerceGiven substitute value type place)
      (schema.coerceGiven otherSubstitute value type other) := by
  exact coerceGiven_related_of_wholes C.toOutcomeRelation (fun _ => True)
    (fun _ value _ _ _ => coerceWhole_compared C _ value) (fun _ _ _ => id) (fun _ _ _ _ _ => trivial) compare type
    value trivial places

/-- More room for defaults inside of defaults makes a difference only
where there is too little. -/
theorem coerceWithin_compared
    (endless : ∀ place (other : Except ArgumentError Value), C.Holds (.error (.endlessDefault place)) other)
    {budget more : Nat} (enough : budget ≤ more) (value : Value) (type : TypeRef) {place other : String}
    (places : C.Places place other) :
    C.Holds (schema.coerceWithin budget value type place) (schema.coerceWithin more value type other) := by
  induction budget generalizing more value type place other with
  | zero => exact endless place _
  | succ budget ih =>
    obtain _ | more := more
    · cases enough
    · refine coerceGiven_compared C (substitutesRelated_of_fields C.toOutcomeRelation ?_) type value places
      exact fun _ _ _ field _ value _ place other places =>
        ih (Nat.le_of_succ_le_succ enough) value field.type places

section

variable {value : Value} {type : TypeRef} {path other : String} {budget more : Nat}

theorem coerceWithin_eq_of_le (ends : Ends (schema.coerceWithin budget value type path)) (enough : budget ≤ more) :
    schema.coerceWithin more value type path = schema.coerceWithin budget value type path :=
  coerceWithin_compared .unlessEndless (fun place _ ends => absurd rfl (ends place)) enough value type rfl ends

theorem coerceWithin_elsewhere (ends : Ends (schema.coerceWithin budget value type path)) (enough : budget ≤ more)
    (other : String) : Ends (schema.coerceWithin more value type other) ∧
      (schema.coerceWithin more value type other).toOption =
        (schema.coerceWithin budget value type path).toOption :=
  coerceWithin_compared .elsewhere (fun place _ ends => absurd rfl (ends place)) enough value type trivial ends

theorem coerceWithin_toOption_eq (ends : Ends (schema.coerceWithin budget value type path))
    (alsoEnds : Ends (schema.coerceWithin more value type other)) :
    (schema.coerceWithin more value type other).toOption =
      (schema.coerceWithin budget value type path).toOption := by
  have one := (coerceWithin_elsewhere ends (Nat.le_max_left budget more) path).2
  have two := (coerceWithin_elsewhere alsoEnds (Nat.le_max_right budget more) path).2
  exact two.symm.trans one

end

/-- Whether a budget is enough to coerce the default of a field. -/
def Settles (schema : Schema σ) (budget : Nat) (field : ArgumentDef) : Prop :=
  ∀ value, field.default = some value → ∀ path, Ends (schema.coerceWithin budget value field.type path)

theorem Settles.mono {budget more : Nat} {field : ArgumentDef} (settles : schema.Settles budget field)
    (enough : budget ≤ more) : schema.Settles more field := fun value given path =>
  (coerceWithin_elsewhere (settles value given path) enough path).1

theorem settles_of_ends {budget : Nat} {field : ArgumentDef} {value : Value} (given : field.default = some value)
    {path : String} (ends : Ends (schema.coerceWithin budget value field.type path)) :
    schema.Settles budget field := by
  intro default same other
  obtain rfl := Option.some.inj (same.symm.trans given)
  exact (coerceWithin_elsewhere ends (Nat.le_refl budget) other).1

/-- A smaller budget for the defaults inside is enough if it is enough for each
default that the larger one is enough for. -/
theorem ends_coerceWithin_of_settles {budget less : Nat}
    (enough : ∀ name input, schema.lookup? name = some (.inputObject input) → ∀ field ∈ input.fields,
      schema.Settles budget field → schema.Settles less field)
    {value : Value} {type : TypeRef} {path : String}
    (ends : Ends (schema.coerceWithin (budget + 1) value type path)) :
    Ends (schema.coerceWithin (less + 1) value type path) := by
  refine (coerceGiven_compared .elsewhere (substitutesRelated_of_fields _ ?_) type value trivial ends).1
  intro name input found field member default given place other _ ends
  have settles := enough name input found field member (settles_of_ends given ends)
  have alsoEnds := settles default given other
  exact ⟨alsoEnds, coerceWithin_toOption_eq ends alsoEnds⟩

/-- The fields of all input objects that have a default. -/
def defaultedFields (schema : Schema σ) : List ArgumentDef :=
  (Entries.values schema.types).flatMap TypeDef.defaulted

theorem mem_defaultedFields {name : String} {input : InputObjectType}
    (found : schema.lookup? name = some (.inputObject input)) {field : ArgumentDef} (member : field ∈ input.fields)
    (given : field.default.isSome) : field ∈ schema.defaultedFields :=
  List.mem_flatMap.mpr ⟨_, Entries.mem_values_of_get? found, List.mem_filter.mpr ⟨member, given⟩⟩

open Classical in
/-- The fields whose defaults need no more than a budget. -/
noncomputable def settledFields (schema : Schema σ) (budget : Nat) : Finset ArgumentDef :=
  schema.defaultedFields.toFinset.filter (schema.Settles budget)

theorem mem_settledFields {budget : Nat} {field : ArgumentDef} :
    field ∈ schema.settledFields budget ↔ field ∈ schema.defaultedFields ∧ schema.Settles budget field := by
  simp [settledFields]

theorem settledFields_mono {budget more : Nat} (enough : budget ≤ more) :
    schema.settledFields budget ⊆ schema.settledFields more := by
  intro field member
  obtain ⟨defaulted, settles⟩ := mem_settledFields.mp member
  exact mem_settledFields.mpr ⟨defaulted, settles.mono enough⟩

theorem settledFields_eq_of_card {budget more : Nat} (enough : budget ≤ more)
    (card : (schema.settledFields budget).card = (schema.settledFields more).card) :
    schema.settledFields budget = schema.settledFields more :=
  Finset.eq_of_subset_of_card_le (settledFields_mono enough) card.ge

/-- If no default needs one more step, then none needs two more. -/
theorem settledFields_step {budget : Nat} (same : schema.settledFields budget = schema.settledFields (budget + 1)) :
    schema.settledFields (budget + 1) = schema.settledFields (budget + 2) := by
  refine Finset.Subset.antisymm (settledFields_mono (Nat.le_succ _)) fun field member => ?_
  obtain ⟨defaulted, settles⟩ := mem_settledFields.mp member
  refine mem_settledFields.mpr ⟨defaulted, fun value given path => ?_⟩
  refine ends_coerceWithin_of_settles (fun name input found inside insideMember insideSettles => ?_)
    (settles value given path)
  cases default : inside.default with
  | none => exact fun value given => by simp [default] at given
  | some value =>
    have listed := mem_defaultedFields found insideMember (by simp [default])
    have settled : inside ∈ schema.settledFields (budget + 1) :=
      mem_settledFields.mpr ⟨listed, insideSettles⟩
    rw [← same] at settled
    exact (mem_settledFields.mp settled).2

/-- A budget of as many defaults as there are is enough for each default that
some budget is enough for: from a budget on at which no further default is
settled, none is settled at all. -/
theorem settles_defaultCount {field : ArgumentDef} (defaulted : field ∈ schema.defaultedFields) {budget : Nat}
    (settles : schema.Settles budget field) : schema.Settles schema.defaultCount field := by
  have bounded (budget : Nat) : (schema.settledFields budget).card ≤ schema.defaultCount := by
    have listed : schema.settledFields budget ⊆ schema.defaultedFields.toFinset := fun field member =>
      List.mem_toFinset.mpr (mem_settledFields.mp member).1
    rw [defaultCount_eq]
    exact (Finset.card_le_card listed).trans (List.toFinset_card_le _)
  have monotone : Monotone fun budget => (schema.settledFields budget).card := fun _ _ enough =>
    Finset.card_le_card (settledFields_mono enough)
  have stable := Nat.stabilises_of_monotone monotone bounded
    (fun budget card => congrArg Finset.card (settledFields_step (settledFields_eq_of_card (Nat.le_succ _) card)))
    (Nat.le_max_right budget schema.defaultCount)
  have same := settledFields_eq_of_card (Nat.le_max_right budget schema.defaultCount) stable.symm
  have settled : field ∈ schema.settledFields (max budget schema.defaultCount) :=
    mem_settledFields.mpr ⟨defaulted, settles.mono (Nat.le_max_left _ _)⟩
  rw [← same] at settled
  exact (mem_settledFields.mp settled).2

theorem settles_of_lookup? {name : String} {input : InputObjectType}
    (found : schema.lookup? name = some (.inputObject input)) {field : ArgumentDef} (member : field ∈ input.fields)
    {budget : Nat} (settles : schema.Settles budget field) : schema.Settles schema.defaultCount field := by
  cases default : field.default with
  | none => exact fun value given => by simp [default] at given
  | some value => exact settles_defaultCount (mem_defaultedFields found member (by simp [default])) settles

/-- The budget of a coercion hides nothing: whatever comes to an end with some
budget is what the coercion gives. -/
theorem coerceValue_eq_of_coerceWithin {budget : Nat} {value : Value} {type : TypeRef} {path : String}
    (ends : Ends (schema.coerceWithin budget value type path)) :
    schema.coerceValue value type path = schema.coerceWithin budget value type path := by
  have alsoEnds : Ends (schema.coerceValue value type path) := by
    cases budget with
    | zero => exact absurd rfl (ends path)
    | succ budget =>
      exact ends_coerceWithin_of_settles
        (fun _ _ found _ member settles => settles_of_lookup? found member settles) ends
  have one := coerceWithin_eq_of_le ends (Nat.le_max_left budget (schema.defaultCount + 1))
  have two := coerceWithin_eq_of_le alsoEnds (Nat.le_max_right budget (schema.defaultCount + 1))
  exact two.symm.trans one

section

variable (valid : schema.validate = .ok ())

include valid

/-- On a valid schema the default of every input field leaves room
for one default more. -/
theorem settles_of_validate {name : String} {input : InputObjectType}
    (found : schema.lookup? name = some (.inputObject input)) {field : ArgumentDef}
    (member : field ∈ input.fields) :
    schema.Settles schema.defaultCount field := by
  have fieldValid : schema.InputValid field := inputValid_of_lookup? valid found member
  have settles : schema.Settles (schema.defaultCount + 1) field := by
    intro value given path
    obtain ⟨result, coerced⟩ := coerceValue_default valid fieldValid given
    have ends := ends_ok result
    rwa [← coerced path] at ends
  exact settles_of_lookup? found member settles

/-- On a valid schema every coercion comes to an end, whatever
the value and the type. -/
theorem ends_coerceValue (value : Value) (type : TypeRef) (path : String) :
    Ends (schema.coerceValue value type path) := by
  have substitutes : SubstitutesRelated schema OutcomeComparison.ending.toOutcomeRelation
      (substituteDefault (schema.coerceWithin schema.defaultCount))
      (substituteDefault (schema.coerceWithin schema.defaultCount)) :=
    substitutesRelated_of_fields _ fun _ _ found _ member default given place _ _ =>
      settles_of_validate valid found member default given place
  have places : OutcomeComparison.ending.Places path path := trivial
  exact coerceGiven_compared .ending substitutes type value places

end

end Schema

end SelectionEngine
