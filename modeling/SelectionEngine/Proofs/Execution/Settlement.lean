import SelectionEngine.Proofs.Execution.Positions

namespace SelectionEngine

section

variable {position? : Path → Option Position} {path place : Path} {element : PathElement}
  {errors more : List Report} {error : Report}

theorem Blamed.mono (blamed : Blamed position? errors place) (kept : errors ⊆ more) :
    Blamed position? more place := by
  obtain ⟨error, member, rest⟩ := blamed
  exact ⟨error, kept member, rest⟩

variable (position? path error) in
/-- The error lies at the path or below it, and no place in
between could take it up. -/
def Reaches : Prop :=
  ∃ origin, error.path = some origin ∧ path <+: origin ∧ StrictBetween position? path origin

variable (position? path error) in
/-- The error reaches the path from below or belongs to a place there. -/
def ArisesBelow : Prop :=
  Reaches position? path error ∨
    ∃ origin place, error.path = some origin ∧ path <+: place ∧ NearestNullable position? place origin

theorem ArisesBelow.origin (arises : ArisesBelow position? path error) :
    ∃ origin, error.path = some origin ∧ path <+: origin := by
  rcases arises with ⟨origin, known, above, _⟩ | ⟨origin, place, known, above, nearest⟩
  · exact ⟨origin, known, above⟩
  · exact ⟨origin, known, above.trans nearest.above⟩

theorem reaches_here (known : error.path = some path) : Reaches position? path error :=
  ⟨path, known, List.prefix_refl _, fun _ lower other upper =>
    absurd (upper.eq_of_length_le lower.length_le) other⟩

theorem Reaches.up (reaches : Reaches position? (path.join element) error)
    (strict : MustNotBeNull position? (path.join element)) : Reaches position? path error := by
  obtain ⟨origin, known, above, between⟩ := reaches
  refine ⟨origin, known, Path.prefix_join.trans above, fun place lower other upper => ?_⟩
  by_cases same : place = path.join element
  · exact same ▸ strict
  · refine between place ?_ same upper
    have longer : path.length < place.length :=
      Nat.lt_of_le_of_ne lower.length_le fun same => other (lower.eq_of_length same).symm
    exact List.prefix_of_prefix_length_le above upper (by simpa [Path.join] using Nat.succ_le_of_lt longer)

variable (position? path errors) in
/-- A part without a value: each of its errors arises below it, and
one of them reaches it. -/
structure Failing : Prop where
  arise : ∀ error ∈ errors, ArisesBelow position? path error
  cause : ∃ error ∈ errors, Reaches position? path error

end

section

variable {ρ : Type} {schema : Schema ρ} {position? : Path → Option Position} {path : Path}
  {element : PathElement} {errors more : List Report} {value : Value}

variable (schema position? errors path) in
/-- A null at the path is a genuine one, the mark of an error, or no
concern of the schema. -/
def Justified : Prop :=
  GenuineNull position? errors path ∨ Blamed position? errors path ∨ InsideScalar position? schema path

theorem Justified.mono (justified : Justified schema position? path errors) (kept : errors ⊆ more)
    (apart : ∀ error ∈ more, ∀ origin, error.path = some origin → path <+: origin → error ∈ errors) :
    Justified schema position? path more := by
  rcases justified with ⟨null, none⟩ | blamed | inside
  · refine .inl ⟨null, fun error member origin known below => ?_⟩
    exact none error (apart error member origin known below) origin known below
  · exact .inr (.inl (blamed.mono kept))
  · exact .inr (.inr inside)

variable (schema position? path errors value) in
/-- The value of a part accounts for its errors, and its errors and the found
values for its nulls. -/
structure Settled : Prop where
  marked : ∀ error ∈ errors, ∃ origin place, error.path = some origin ∧
    NearestNullable position? (path ++ place) origin ∧
    ∃ above, above <+: place ∧ value.at? above = some .null ∧ Blamed position? errors (path ++ above)
  nulls : ∀ place, value.at? place = some .null → Justified schema position? (path ++ place) errors

variable (schema position? path) in
/-- A part at a place of its own. It has no value only if the
place must not be null. -/
structure SettledAt (c : Completed Value) : Prop where
  present : ∀ value, c.value? = some value → Settled schema position? path c.errors value
  missing : c.value? = none → MustNotBeNull position? path ∧ Failing position? path c.errors

variable (schema position? path) in
/-- A part whose failures and nulls are left to the place that it belongs to. -/
structure SettledInside (c : Completed Value) : Prop where
  present : ∀ value, c.value? = some value → value ≠ .null ∧ Settled schema position? path c.errors value
  missing : c.value? = none → Failing position? path c.errors

/-- Where there are no errors and no nulls there is nothing to account for. -/
theorem settled_of_no_null (none : ∀ place, value.at? place ≠ some .null) :
    Settled schema position? path [] value where
  marked := by simp
  nulls place null := absurd null (none place)

theorem at?_null {place : Path} (found : Value.at? .null place = some value) : place = [] ∧ value = .null := by
  cases place with
  | nil => exact ⟨rfl, (Option.some.inj found).symm⟩
  | cons => cases found

/-- A failure settles at a place that may be null. -/
theorem Failing.settled (failing : Failing position? path errors) (nullable : MayBeNull position? path) :
    Settled schema position? path errors .null := by
  obtain ⟨cause, member, origin, known, above, strict⟩ := failing.cause
  have blamed : Blamed position? errors (path ++ []) :=
    ⟨cause, member, origin, known, by simpa using ⟨above, nullable, strict⟩⟩
  refine ⟨fun error member => ?_, fun place null => ?_⟩
  · rcases failing.arise error member with
      ⟨origin, known, above, strict⟩ | ⟨origin, place, known, ⟨rest, rfl⟩, nearest⟩
    · exact ⟨origin, [], known, by simpa using ⟨above, nullable, strict⟩, [], List.nil_prefix, rfl, blamed⟩
    · exact ⟨origin, rest, known, nearest, [], List.nil_prefix, rfl, blamed⟩
  · obtain ⟨rfl, _⟩ := at?_null null
    exact .inr (.inl blamed)

theorem SettledAt.below {c : Completed Value} (settled : SettledAt schema position? path c) {error : Report}
    (member : error ∈ c.errors) : ∃ origin, error.path = some origin ∧ path <+: origin := by
  cases completed : c.value? with
  | none => exact ((settled.missing completed).2.arise error member).origin
  | some value =>
    obtain ⟨origin, place, known, nearest, _⟩ := (settled.present value completed).marked error member
    exact ⟨origin, known, (List.prefix_append _ _).trans nearest.above⟩

theorem SettledAt.arise {c : Completed Value} (settled : SettledAt schema position? (path.join element) c)
    {error : Report} (member : error ∈ c.errors) : ArisesBelow position? path error := by
  cases completed : c.value? with
  | none =>
    obtain ⟨strict, failing⟩ := settled.missing completed
    rcases failing.arise error member with reaches | ⟨origin, place, known, above, nearest⟩
    · exact .inl (reaches.up strict)
    · exact .inr ⟨origin, place, known, Path.prefix_join.trans above, nearest⟩
  | some value =>
    obtain ⟨origin, place, known, nearest, _⟩ := (settled.present value completed).marked error member
    exact .inr ⟨origin, _, known, Path.prefix_join.trans (List.prefix_append _ _), nearest⟩

end

/-- What the values are put together to has them as its parts, each
at a step of its own. -/
structure Assembles (elements : List PathElement) (build : List Value → Value) : Prop where
  ne_null (values : List Value) : build values ≠ .null
  child {values : List Value} (length : values.length = elements.length) (element : PathElement)
    (part : Value) :
    (build values).child? element = some part ↔
      ∃ n : Nat, elements[n]? = some element ∧ values[n]? = some part

theorem assembles_object {keys : List String} (distinct : keys.Nodup) :
    Assembles (keys.map .key) fun values => .object (keys.zip values) where
  ne_null _ := by simp
  child {values} length element part := by
    rw [List.length_map] at length
    cases element with
    | index n => simp [Value.child?]
    | key name =>
      have distinct : Entries.Distinct (keys.zip values) := by
        rwa [Entries.Distinct, Entries.keys, List.map_fst_zip (Nat.le_of_eq length.symm)]
      simp only [Value.child?, Entries.get?_eq_some_iff distinct, List.mem_iff_getElem?,
        List.getElem?_zip_eq_some]
      simp

theorem assembles_list (n : Nat) : Assembles ((List.range n).map .index) .list where
  ne_null _ := by simp
  child {values} length element part := by
    rw [List.length_map, List.length_range] at length
    cases element with
    | key name => simp [Value.child?]
    | index m =>
      constructor
      · intro found
        have inRange : m < n := length ▸ (List.getElem?_eq_some_iff.mp found).1
        exact ⟨m, by simp [inRange], found⟩
      · rintro ⟨k, atIndex, found⟩
        obtain ⟨_, rfl⟩ : k < n ∧ k = m := by simpa [List.getElem?_eq_some_iff] using atIndex
        exact found

section

variable {ρ : Type} {schema : Schema ρ} {position? : Path → Option Position} {path : Path}
  {elements : List PathElement} {parts : List (Completed Value)}

variable (schema position? path elements parts) in
/-- The parts stand one step below a path, each at a step of its own. -/
structure PartsSettled : Prop where
  distinct : elements.Nodup
  length : parts.length = elements.length
  each {n : Nat} {element : PathElement} {c : Completed Value} : elements[n]? = some element →
    parts[n]? = some c → SettledAt schema position? (path.join element) c

namespace PartsSettled

variable (settled : PartsSettled schema position? path elements parts)

include settled

theorem at_part {c : Completed Value} (member : c ∈ parts) :
    ∃ (n : Nat) (element : PathElement), elements[n]? = some element ∧ parts[n]? = some c := by
  obtain ⟨n, inParts, rfl⟩ := List.mem_iff_getElem.mp member
  have inElements : n < elements.length := settled.length ▸ inParts
  exact ⟨n, elements[n], List.getElem?_eq_getElem inElements, List.getElem?_eq_getElem inParts⟩

theorem at_error {error : Report} (member : error ∈ parts.flatMap Completed.errors) :
    ∃ (n : Nat) (element : PathElement) (c : Completed Value), elements[n]? = some element ∧
      parts[n]? = some c ∧ error ∈ c.errors := by
  obtain ⟨c, inParts, inErrors⟩ := List.mem_flatMap.mp member
  obtain ⟨n, element, atElement, atPart⟩ := settled.at_part inParts
  exact ⟨n, element, c, atElement, atPart, inErrors⟩

/-- If a part is missing, its failure goes up. -/
theorem failing (missing : (Completed.all parts).value? = none) :
    Failing position? path (parts.flatMap Completed.errors) := by
  constructor
  · intro error member
    obtain ⟨n, element, c, atElement, atPart, inErrors⟩ := settled.at_error member
    exact (settled.each atElement atPart).arise inErrors
  · obtain ⟨c, inParts, absent⟩ := Completed.all_value?_eq_none.mp missing
    obtain ⟨n, element, atElement, atPart⟩ := settled.at_part inParts
    obtain ⟨strict, failing⟩ := (settled.each atElement atPart).missing absent
    obtain ⟨cause, member, reaches⟩ := failing.cause
    exact ⟨cause, List.mem_flatMap.mpr ⟨c, inParts, member⟩, reaches.up strict⟩

/-- An error that lies at a step or below it belongs to the part there. -/
theorem mem_errors {n : Nat} {element : PathElement} {c : Completed Value}
    (atElement : elements[n]? = some element) (atPart : parts[n]? = some c) {error : Report}
    (member : error ∈ parts.flatMap Completed.errors) {origin : Path} (known : error.path = some origin)
    (below : path.join element <+: origin) : error ∈ c.errors := by
  obtain ⟨m, other, d, atOther, atPart', inErrors⟩ := settled.at_error member
  obtain ⟨origin', known', below'⟩ := (settled.each atOther atPart').below inErrors
  obtain rfl : origin' = origin := Option.some.inj (known'.symm.trans known)
  obtain rfl := Path.eq_of_join_prefix below below'
  obtain rfl : n = m := (List.getElem?_inj (List.getElem?_eq_some_iff.mp atElement).1 settled.distinct).mp
    (atElement.trans atOther.symm)
  obtain rfl : c = d := Option.some.inj (atPart.symm.trans atPart')
  exact inErrors

omit settled in
theorem errors_subset {n : Nat} {c : Completed Value} (atPart : parts[n]? = some c) :
    c.errors ⊆ parts.flatMap Completed.errors :=
  fun _ member => List.mem_flatMap.mpr ⟨c, List.mem_of_getElem? atPart, member⟩

section

variable {build : List Value → Value} (assembles : Assembles elements build) {values : List Value}
  (all : (Completed.all parts).value? = some values)

include assembles all

theorem marked {error : Report} (member : error ∈ parts.flatMap Completed.errors) :
    ∃ origin place, error.path = some origin ∧ NearestNullable position? (path ++ place) origin ∧
      ∃ above, above <+: place ∧ (build values).at? above = some .null ∧
        Blamed position? (parts.flatMap Completed.errors) (path ++ above) := by
  have length : values.length = elements.length := (Completed.length_of_all all).trans settled.length
  obtain ⟨n, element, c, atElement, atPart, inErrors⟩ := settled.at_error member
  have inRange : n < values.length := length ▸ (List.getElem?_eq_some_iff.mp atElement).1
  have atValue : values[n]? = some values[n] := List.getElem?_eq_getElem inRange
  have child := (assembles.child length element values[n]).mpr ⟨n, atElement, atValue⟩
  have present : c.value? = some values[n] := by
    rw [Completed.getElem?_of_all all, atPart] at atValue
    exact atValue
  obtain ⟨origin, place, known, nearest, above, upper, null, blamed⟩ :=
    ((settled.each atElement atPart).present _ present).marked error inErrors
  refine ⟨origin, element :: place, known, by simpa [Path.join] using nearest, element :: above,
    List.cons_prefix_cons.mpr ⟨rfl, upper⟩, ?_, by simpa [Path.join] using blamed.mono (errors_subset atPart)⟩
  simpa only [Value.at?, child, Option.bind_some] using null

theorem nulls {place : Path} (null : (build values).at? place = some .null) :
    Justified schema position? (path ++ place) (parts.flatMap Completed.errors) := by
  have length : values.length = elements.length := (Completed.length_of_all all).trans settled.length
  cases place with
  | nil => exact absurd (Option.some.inj null) (assembles.ne_null values)
  | cons element rest =>
    obtain ⟨part, child, null⟩ := Option.bind_eq_some_iff.mp null
    obtain ⟨n, atElement, atValue⟩ := (assembles.child length element part).mp child
    rw [Completed.getElem?_of_all all] at atValue
    obtain ⟨c, atPart, present⟩ := Option.bind_eq_some_iff.mp atValue
    have justified := ((settled.each atElement atPart).present part present).nulls rest null
    have same : path.join element ++ rest = path ++ element :: rest := by simp [Path.join]
    rw [same] at justified
    refine justified.mono (errors_subset atPart) fun error member origin known below => ?_
    exact settled.mem_errors atElement atPart member known (.trans ⟨rest, same⟩ below)

end

/-- What consists of settled parts is settled, its own failure and null aside. -/
theorem inside {build : List Value → Value} (assembles : Assembles elements build) :
    SettledInside schema position? path ((Completed.all parts).map build) := by
  constructor
  · intro value completed
    obtain ⟨values, all, rfl⟩ := Option.map_eq_some_iff.mp completed
    exact ⟨assembles.ne_null values, fun _ member => settled.marked assembles all member,
      fun _ null => settled.nulls assembles all null⟩
  · intro completed
    exact settled.failing (Option.map_eq_none_iff.mp completed)

end PartsSettled

end

end SelectionEngine
