import SelectionEngine.Proofs.Coercion.Conforming
import SelectionEngine.Proofs.Showcase.Served
import SelectionEngine.Proofs.Showcase.Stock

namespace SelectionEngine.Showcase

variable {draw : Draws} {info : ResolveInfo} {arguments : List ArgumentDef} {given : Object}

/-- An input type with a title and one more text, which is required. -/
def publicationInput (name key : String) : InputObjectType where
  name := name
  fields := [input "title" (optional .string), input key (required .string)]

/-- The id of a record is the text of the argument `id`. -/
theorem recordId_of_string {id : String} (known : Entries.get? "id" info.arguments = some (.string id)) :
    Resolver.recordId info = .ok id := by
  rw [Resolver.recordId, ResolveInfo.argument, known]
  rfl

/-- An input that is missing or null has no fields. -/
theorem inputFields_of_null (absent : (Entries.get? "input" info.arguments).getD .null = .null) :
    Resolver.inputFields info = .ok [] := by
  rw [Resolver.inputFields, ResolveInfo.argument, absent]
  rfl

theorem inputFields_of_object {entries : Object}
    (known : Entries.get? "input" info.arguments = some (.object entries)) :
    Resolver.inputFields info = .ok entries := by
  rw [Resolver.inputFields, ResolveInfo.argument, known]
  rfl

section

variable (coerces : FieldsCoerceTo (served draw) arguments given info.arguments)

include coerces

/-- A required integer can be read. -/
theorem exists_int {name : String} (member : input name (required .int) ∈ arguments) :
    ∃ n, info.argument Value.toInt64 name = .ok n := by
  obtain ⟨value, result, found, coerced⟩ := coerces.of_required member (.inl rfl)
  obtain ⟨present, coerced⟩ := coerced.of_nonNull
  rcases coerced.of_builtIn with null | @⟨n, lower, upper⟩
  · exact absurd null present
  · have known : Entries.get? name info.arguments = some (.int n) := found
    have bounds : -0x8000000000000000 ≤ n ∧ n < 0x8000000000000000 := by omega
    refine ⟨n, ?_⟩
    simp only [ResolveInfo.argument, known, Option.getD_some, Value.toInt64, Value.integerIn, if_pos bounds]

/-- A required id can be read. -/
theorem exists_id (member : input "id" (required .id) ∈ arguments) :
    ∃ id, Entries.get? "id" info.arguments = some (.string id) ∧ Resolver.recordId info = .ok id := by
  obtain ⟨value, result, found, coerced⟩ := coerces.of_required member (.inl rfl)
  obtain ⟨present, coerced⟩ := coerced.of_nonNull
  rcases coerced.of_builtIn with null | admits
  · exact absurd null present
  · obtain ⟨id, rfl⟩ : ∃ id, result = .string id := by
      cases admits
      exact ⟨_, rfl⟩
    exact ⟨id, found, recordId_of_string found⟩

/-- The number of sides is the default, or an integer of 32 bits. -/
theorem exists_sides (member : diceSides ∈ arguments) :
    ∃ n, sides info = .ok n ∧ -0x80000000 ≤ n ∧ n < 0x80000000 := by
  obtain ⟨value, result, found, coerced⟩ := coerces.of_required member (.inr rfl)
  have known : Entries.get? "numSides" info.arguments = some result := found
  rcases coerced.of_builtIn with rfl | @⟨n, lower, upper⟩
  · refine ⟨defaultSides, ?_, by decide, by decide⟩
    simp only [sides, ResolveInfo.argument, known, Option.getD_some, Value.optional]
    rfl
  · have bounds : -0x8000000000000000 ≤ n ∧ n < 0x8000000000000000 := by omega
    refine ⟨n, ?_, lower, upper⟩
    simp only [sides, ResolveInfo.argument, known, Option.getD_some, Value.optional, Value.toInt64, Value.integerIn,
      if_pos bounds]
    rfl

end

/-- Where all fields are strings, what they are coerced to are texts. -/
theorem texts_of_coerces {fields : List ArgumentDef} {entries : Object}
    (strings : ∀ field ∈ fields, field.type = optional .string ∨ field.type = required .string)
    (coerces : FieldsCoerceTo (served draw) fields given entries) : Texts entries := by
  intro entry member
  obtain ⟨field, listed, _, value, coerced⟩ := coerces.of_mem member
  have maybe : CoercesTo (served draw) (.builtIn .string) value entry.2 := by
    rcases strings field listed with same | same <;> rw [same] at coerced
    · exact coerced
    · exact coerced.of_nonNull.2
  rcases maybe.of_builtIn with null | admits
  · exact .inl null
  · cases admitted : entry.2 with
    | string text => exact .inr ⟨text, rfl⟩
    | _ => rw [admitted] at admits; cases admits

/-- The fields of the optional input of a message are texts. -/
theorem exists_texts (coerces : FieldsCoerceTo (served draw) arguments given info.arguments)
    (member : input "input" (.named "MessageInput") ∈ arguments) :
    ∃ entries, Resolver.inputFields info = .ok entries ∧ Texts entries := by
  cases found : Entries.get? "input" info.arguments with
  | none => exact ⟨[], inputFields_of_null (by rw [found]; rfl), nofun⟩
  | some result =>
    obtain ⟨value, coerced⟩ := coerces.of_get? member found
    rcases coerced.of_inputObject rfl with rfl | ⟨given, entries, rfl, fields⟩
    · exact ⟨[], inputFields_of_null (by rw [found]; rfl), nofun⟩
    · have strings : ∀ field ∈ ([input "content" (optional .string), input "author" (optional .string)]),
          field.type = optional .string ∨ field.type = required .string := by decide
      exact ⟨entries, inputFields_of_object found, texts_of_coerces strings fields⟩

/-- The required input of a publication has the declared fields. -/
theorem exists_publication {name key : String}
    (registered : (served draw).lookup? name = some (.inputObject (publicationInput name key)))
    (coerces : FieldsCoerceTo (served draw) arguments given info.arguments)
    (member : input "input" (.nonNull (.named name)) ∈ arguments) :
    ∃ given entries, Resolver.inputFields info = .ok entries ∧
      FieldsCoerceTo (served draw) (publicationInput name key).fields given entries := by
  obtain ⟨value, result, found, coerced⟩ := coerces.of_required member (.inl rfl)
  obtain ⟨present, coerced⟩ := coerced.of_nonNull
  rcases coerced.of_inputObject registered with null | ⟨given, entries, rfl, fields⟩
  · exact absurd null present
  · exact ⟨given, entries, inputFields_of_object found, fields⟩

section

variable {name key : String} {entries : Object}
  (coerces : FieldsCoerceTo (served draw) (publicationInput name key).fields given entries)

include coerces

theorem texts_of_publication : Texts entries :=
  texts_of_coerces (List.forall_mem_cons.mpr ⟨.inl rfl, List.forall_mem_singleton.mpr (.inr rfl)⟩) coerces

theorem contains_of_publication : Entries.contains entries key = true := by
  obtain ⟨_, _, found, _⟩ := coerces.of_required (.tail _ (.head _)) (.inl rfl)
  exact Option.isSome_iff_exists.mpr ⟨_, found⟩

theorem not_contains_of_publication {other : String} (noTitle : other ≠ "title") (apart : other ≠ key) :
    Entries.contains entries other = false := by
  cases found : Entries.get? other entries with
  | none => simp [Entries.contains, found]
  | some value =>
    obtain ⟨field, listed, named, _⟩ := coerces.of_mem (Entries.mem_of_get? found)
    have names : field.name ∈ (publicationInput name key).fields.map ArgumentDef.name := List.mem_map_of_mem listed
    rw [named] at names
    simp [publicationInput, input, noTitle, apart] at names

end

theorem publishes_article {entries : Object}
    (coerces : FieldsCoerceTo (served draw) (publicationInput "ArticleInput" "bodyText").fields given entries)
    (id : String) : Publishes "createArticle" (Record.made id entries []) := by
  refine .article (isRecord_made id (texts_of_publication coerces)) ?_
  rw [Record.contains_made coerces.distinct id (by decide), contains_of_publication coerces]

theorem publishes_podcast {entries : Object}
    (coerces : FieldsCoerceTo (served draw) (publicationInput "PodcastInput" "audio").fields given entries)
    (id : String) : Publishes "createPodcast" (Record.made id entries []) := by
  refine .podcast (isRecord_made id (texts_of_publication coerces)) ?_ ?_
  · rw [Record.contains_made coerces.distinct id (by decide),
      not_contains_of_publication coerces (by decide) (by decide)]
  · rw [Record.contains_made coerces.distinct id (by decide), contains_of_publication coerces]

end SelectionEngine.Showcase
