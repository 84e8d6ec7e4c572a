import SelectionEngine.Proofs.Schema.AcceptedText

namespace SelectionEngine

variable {σ : Type}

/-- Whether a value belongs to an object type: its predicate says so, or it has
none and the value has its name. -/
inductive ObjectType.Owns (object : ObjectType σ) (value : Value) : Prop
  | predicate {predicate} : object.isTypeOf = some predicate → predicate value = true → Owns object value
  | typename {entries} : object.isTypeOf = none → value = .object entries →
      Entries.get? typenameField entries = some (.string object.name) → Owns object value

theorem ObjectType.accepts_iff {object : ObjectType σ} {value : Value} :
    object.accepts value = true ↔ object.Owns value := by
  unfold accepts
  constructor
  · intro accepted
    split at accepted
    · next predicate known => exact .predicate known accepted
    · next unknown =>
      obtain ⟨given, found, text⟩ := Option.bind_eq_some_iff.mp (of_decide_eq_true accepted)
      obtain ⟨entries, same, found⟩ := Option.bind_eq_some_iff.mp found
      cases value with
      | object others =>
        cases same
        cases given with
        | string s =>
          cases text
          exact .typename unknown rfl found
        | _ => cases text
      | _ => cases same
  · rintro (⟨known, claimed⟩ | ⟨unknown, rfl, found⟩)
    · rw [known]
      exact claimed
    · simp [unknown, Value.property?, Value.asObject?, found, Value.asString?]

/-- Whether an interface itself gives a value the type of some name. -/
def InterfaceType.Names (interface : InterfaceType σ) (value : Value) (name : String) : Prop :=
  ∃ resolve, interface.resolveType = some resolve ∧ resolve value = some name

/-- Whether an object type declares an interface and a value belongs to it. -/
def ObjectType.Claims (object : ObjectType σ) (interface : String) (value : Value) : Prop :=
  interface ∈ object.interfaces ∧ object.Owns value

/-- Whether an object type is the earliest one with a property. -/
def Earliest (types : List (TypeDef σ)) (P : ObjectType σ → Prop) (object : ObjectType σ) : Prop :=
  ∃ earlier later, types = earlier ++ .object object :: later ∧ P object ∧
    ∀ other, .object other ∈ earlier → ¬ P other

section

variable {types : List (TypeDef σ)} {P : ObjectType σ → Prop} {object : ObjectType σ}

theorem Earliest.append (earliest : Earliest types P object) (more : List (TypeDef σ)) :
    Earliest (types ++ more) P object := by
  obtain ⟨earlier, later, rfl, holds, others⟩ := earliest
  exact ⟨earlier, later ++ more, by simp, holds, others⟩

theorem Earliest.mem (earliest : Earliest types P object) : .object object ∈ types := by
  obtain ⟨earlier, later, rfl, _⟩ := earliest
  exact List.mem_append_right _ (.head _)

theorem Earliest.holds (earliest : Earliest types P object) : P object := by
  obtain ⟨_, _, _, holds, _⟩ := earliest
  exact holds

/-- The earliest object type with a property stands in front of any other that
comes after one with it. -/
theorem Earliest.mem_front {first second : ObjectType σ} {front back : List (TypeDef σ)}
    (earliest : Earliest (front ++ .object second :: back) P object) (member : .object first ∈ front)
    (holds : P first) : .object object ∈ front := by
  obtain ⟨earlier, later, same, _, others⟩ := earliest
  rcases List.append_eq_append_iff.mp same with ⟨between, rfl, _⟩ | ⟨between, rfl, rest⟩
  · exact absurd holds (others first (List.mem_append_left _ member))
  · cases between with
    | nil =>
      rw [List.append_nil] at member
      exact absurd holds (others first member)
    | cons next between =>
      obtain ⟨rfl, _⟩ := List.cons.inj rest
      exact List.mem_append_right _ (.head _)

end

/-- Whether a type is an object type that declares an interface
and accepts a value. -/
def TypeDef.claims (interface : String) (value : Value) : TypeDef σ → Bool
  | object type => interface ∈ type.interfaces && type.accepts value
  | scalar _ | .interface _ | inputObject _ => false

theorem TypeDef.claims_object {interface : String} {value : Value} {object : ObjectType σ} :
    (TypeDef.object object).claims interface value = true ↔ object.Claims interface value := by
  rw [claims, Bool.and_eq_true, decide_eq_true_iff, ObjectType.accepts_iff]
  rfl

theorem TypeDef.exists_of_claims {interface : String} {value : Value} {type : TypeDef σ}
    (claims : type.claims interface value = true) :
    ∃ object, type = .object object ∧ object.Claims interface value := by
  cases type with
  | object object => exact ⟨object, rfl, claims_object.mp claims⟩
  | _ => cases claims

/-- The first type that claims a value is the earliest object type that does. -/
theorem find?_claims_eq_some {types : List (TypeDef σ)} {interface : String} {value : Value} {type : TypeDef σ} :
    types.find? (TypeDef.claims interface value) = some type ↔
      ∃ object, type = .object object ∧ Earliest types (ObjectType.Claims · interface value) object := by
  rw [List.find?_eq_some_iff_append]
  constructor
  · rintro ⟨first, earlier, later, rfl, others⟩
    obtain ⟨object, rfl, claims⟩ := TypeDef.exists_of_claims first
    refine ⟨object, rfl, earlier, later, rfl, claims, fun other member alsoClaims => ?_⟩
    have refused := others _ member
    rw [TypeDef.claims_object.mpr alsoClaims] at refused
    cases refused
  · rintro ⟨object, rfl, earlier, later, rfl, claims, others⟩
    refine ⟨TypeDef.claims_object.mpr claims, earlier, later, rfl, fun other member => ?_⟩
    cases known : other.claims interface value with
    | false => rfl
    | true =>
      obtain ⟨object, rfl, alsoClaims⟩ := TypeDef.exists_of_claims known
      exact absurd alsoClaims (others object member)

theorem exists_earliest {types : List (TypeDef σ)} {interface : String} {value : Value}
    (claimed : ∃ object, .object object ∈ types ∧ object.Claims interface value) :
    ∃ object, Earliest types (ObjectType.Claims · interface value) object := by
  obtain ⟨object, member, claims⟩ := claimed
  have found := List.find?_isSome.mpr ⟨_, member, TypeDef.claims_object.mpr claims⟩
  obtain ⟨type, first⟩ := Option.isSome_iff_exists.mp found
  obtain ⟨object, _, earliest⟩ := find?_claims_eq_some.mp first
  exact ⟨object, earliest⟩

theorem find?_claims_eq_none {types : List (TypeDef σ)} {interface : String} {value : Value} :
    types.find? (TypeDef.claims interface value) = none ↔
      ∀ object, .object object ∈ types → ¬ object.Claims interface value := by
  rw [List.find?_eq_none]
  constructor
  · intro none object member claims
    exact none _ member (TypeDef.claims_object.mpr claims)
  · intro none type member known
    obtain ⟨object, rfl, claims⟩ := TypeDef.exists_of_claims known
    exact none object member claims

namespace Schema

variable {schema : Schema σ} {types : List (TypeDef σ)}

/-- Types that were registered one after another are found under their names. -/
theorem lookup?_of_registerAll (registers : empty.registerAll types = .ok schema) {type : TypeDef σ}
    (member : type ∈ types) : schema.lookup? type.name = some type := by
  have own := ownTypes_of_registerAll registers
  exact (Registered.empty.registerAll registers).lookup?_of_ownTypes (own ▸ member)

theorem implementorsOf_of_registerAll (registers : empty.registerAll types = .ok schema) (interface : String) :
    schema.implementorsOf interface = types.flatMap (TypeDef.listedUnder interface) := by
  rw [eq_insertAll_of_registerAll registers, implementorsOf_insertAll]
  rfl

theorem mem_implementorsOf_of_registerAll (registers : empty.registerAll types = .ok schema)
    {interface name : String} : name ∈ schema.implementorsOf interface ↔
      ∃ object, .object object ∈ types ∧ interface ∈ object.interfaces ∧ object.name = name := by
  rw [implementorsOf_of_registerAll registers, List.mem_flatMap]
  constructor
  · rintro ⟨type, member, listed⟩
    cases type with
    | object object =>
      obtain ⟨times, rfl⟩ := List.mem_replicate.mp listed
      exact ⟨object, member, List.count_pos_iff.mp (Nat.pos_of_ne_zero times), rfl⟩
    | _ => cases listed
  · rintro ⟨object, member, declared, rfl⟩
    refine ⟨_, member, List.mem_replicate.mpr ⟨?_, rfl⟩⟩
    exact Nat.ne_of_gt (List.count_pos_iff.mpr declared)

theorem find?_listedUnder {type : TypeDef σ} (found : schema.lookup? type.name = some type) (interface : String)
    (value : Value) : (type.listedUnder interface).find? (schema.acceptedBy value) =
      if type.claims interface value then some type.name else none := by
  cases type with
  | object object =>
    have accepted : schema.acceptedBy value (TypeDef.object object).name = object.accepts value := by
      simp only [acceptedBy, found]
    by_cases declared : interface ∈ object.interfaces
    · have times : object.interfaces.count interface ≠ 0 := Nat.ne_of_gt (List.count_pos_iff.mpr declared)
      simp only [TypeDef.listedUnder, TypeDef.claims, List.find?_replicate, if_neg times, declared, decide_true,
        Bool.true_and, ← accepted]
      rfl
    · simp [TypeDef.listedUnder, TypeDef.claims, declared, List.count_eq_zero_of_not_mem]
  | _ => rfl

/-- The implementor that is asked first and accepts a value is the one that
was registered first. -/
theorem find?_implementorsOf (registers : empty.registerAll types = .ok schema) (interface : String)
    (value : Value) :
    (schema.implementorsOf interface).find? (schema.acceptedBy value) =
      (types.find? (TypeDef.claims interface value)).map TypeDef.name := by
  have found : ∀ type ∈ types, schema.lookup? type.name = some type := fun _ => lookup?_of_registerAll registers
  rw [implementorsOf_of_registerAll registers]
  clear registers
  induction types with
  | nil => rfl
  | cons type types ih =>
    obtain ⟨first, others⟩ := List.forall_mem_cons.mp found
    rw [List.flatMap_cons, List.find?_append, find?_listedUnder first, ih others, List.find?_cons]
    cases type.claims interface value <;> rfl

variable {interface : InterfaceType σ} {value : Value}

/-- The interface's own choice of an implementor counts. -/
theorem resolveConcrete_of_names {name : String} (named : interface.Names value name)
    (listed : name ∈ schema.implementorsOf interface.name) : schema.resolveConcrete interface value = .ok name := by
  obtain ⟨resolve, known, chosen⟩ := named
  have kept : (some name).filter (· ∈ schema.implementorsOf interface.name) = some name := by
    rw [Option.filter_some, if_pos (by simpa using listed)]
  simp only [resolveConcrete, known, Option.bind_some, chosen, kept]
  rfl

theorem resolveConcrete_of_not_names
    (unnamed : ∀ name, interface.Names value name → name ∉ schema.implementorsOf interface.name) :
    schema.resolveConcrete interface value =
      match (schema.implementorsOf interface.name).find? (schema.acceptedBy value) with
      | some name => .ok name
      | none => .error ⟨interface.name⟩ := by
  have dropped : (interface.resolveType.bind fun resolve => resolve value).filter
      (· ∈ schema.implementorsOf interface.name) = none := by
    refine Option.filter_eq_none_iff.mpr fun name chosen => ?_
    obtain ⟨resolve, known, chosen⟩ := Option.bind_eq_some_iff.mp chosen
    simpa using unnamed name ⟨resolve, known, chosen⟩
  simp only [resolveConcrete, dropped]
  rfl

section

variable (registers : empty.registerAll types = .ok schema)

include registers

/-- Without a choice of the interface the answer is the name of the first type
that claims the value. -/
theorem resolveConcrete_eq (unnamed : ∀ object, .object object ∈ types → interface.name ∈ object.interfaces →
    ¬ interface.Names value object.name) : schema.resolveConcrete interface value =
      match types.find? (TypeDef.claims interface.name value) with
      | some type => .ok type.name
      | none => .error ⟨interface.name⟩ := by
  rw [resolveConcrete_of_not_names, find?_implementorsOf registers]
  · cases types.find? (TypeDef.claims interface.name value) <;> rfl
  · intro name named listed
    obtain ⟨object, member, declared, rfl⟩ := (mem_implementorsOf_of_registerAll registers).mp listed
    exact unnamed object member declared named

theorem resolveConcrete_eq_ok_iff (unnamed : ∀ object, .object object ∈ types → interface.name ∈ object.interfaces →
    ¬ interface.Names value object.name) (answer : String) : schema.resolveConcrete interface value = .ok answer ↔
      ∃ object, Earliest types (ObjectType.Claims · interface.name value) object ∧ object.name = answer := by
  rw [resolveConcrete_eq registers unnamed]
  constructor
  · intro resolved
    cases first : types.find? (TypeDef.claims interface.name value) with
    | none => simp [first] at resolved
    | some type =>
      obtain ⟨object, rfl, earliest⟩ := find?_claims_eq_some.mp first
      rw [first] at resolved
      exact ⟨object, earliest, Except.ok.inj resolved⟩
  · rintro ⟨object, earliest, rfl⟩
    rw [find?_claims_eq_some.mpr ⟨object, rfl, earliest⟩]
    rfl

theorem resolveConcrete_eq_error_iff : schema.resolveConcrete interface value = .error ⟨interface.name⟩ ↔
    ∀ object, .object object ∈ types → interface.name ∈ object.interfaces →
      ¬ interface.Names value object.name ∧ ¬ object.Owns value := by
  constructor
  · intro failed
    have unnamed : ∀ object, .object object ∈ types → interface.name ∈ object.interfaces →
        ¬ interface.Names value object.name := by
      intro object member declared named
      have listed := (mem_implementorsOf_of_registerAll registers).mpr ⟨object, member, declared, rfl⟩
      rw [resolveConcrete_of_names named listed] at failed
      cases failed
    rw [resolveConcrete_eq registers unnamed] at failed
    have none : types.find? (TypeDef.claims interface.name value) = none := by
      cases first : types.find? (TypeDef.claims interface.name value) with
      | none => rfl
      | some type => simp [first] at failed
    intro object member declared
    exact ⟨unnamed object member declared, fun owns => find?_claims_eq_none.mp none object member ⟨declared, owns⟩⟩
  · intro nothing
    have none : types.find? (TypeDef.claims interface.name value) = none :=
      find?_claims_eq_none.mpr fun object member claims => (nothing object member claims.1).2 claims.2
    rw [resolveConcrete_eq registers fun object member declared => (nothing object member declared).1, none]

end

/-- What is registered later comes after what is there. -/
theorem registerAll_append {more : List (TypeDef σ)} {extended : Schema σ}
    (registers : empty.registerAll types = .ok schema) (goesOn : schema.registerAll more = .ok extended) :
    empty.registerAll (types ++ more) = .ok extended := by
  rw [registerAll] at registers goesOn ⊢
  rw [List.foldlM_append, registers]
  exact goesOn

/-- The type of a value of an interface depends on the registered types alone:
it is the choice of the interface, if that is an object type that declares it,
and else the earliest one that claims the value. Where the interface makes no
choice, later types change no answer, and of two types that claim a value the
one that was registered first is taken. -/
theorem resolution_follows_registration {types : List (TypeDef σ)} {schema : Schema σ}
    (registers : empty.registerAll types = .ok schema) (interface : InterfaceType σ) (value : Value) :
    (∀ object, .object object ∈ types → interface.name ∈ object.interfaces → interface.Names value object.name →
      schema.resolveConcrete interface value = .ok object.name) ∧
    ((∀ object, .object object ∈ types → interface.name ∈ object.interfaces → ¬ interface.Names value object.name) →
      ∀ answer, schema.resolveConcrete interface value = .ok answer ↔
        ∃ object, Earliest types (ObjectType.Claims · interface.name value) object ∧ object.name = answer) ∧
    (schema.resolveConcrete interface value = .error ⟨interface.name⟩ ↔
      ∀ object, .object object ∈ types → interface.name ∈ object.interfaces →
        ¬ interface.Names value object.name ∧ ¬ object.Owns value) ∧
    (interface.resolveType = none →
      (∀ more extended answer, schema.registerAll more = .ok extended →
        schema.resolveConcrete interface value = .ok answer →
        extended.resolveConcrete interface value = .ok answer) ∧
      ∀ first second front back, types = front ++ .object second :: back → .object first ∈ front →
        first.Claims interface.name value → second.Claims interface.name value →
        schema.resolveConcrete interface value ≠ .ok second.name ∧
        ((∀ object, .object object ∈ types → object.Claims interface.name value → object = first ∨
          object = second) →
          schema.resolveConcrete interface value = .ok first.name)) := by
  refine ⟨fun object member declared named => ?_, fun unnamed => resolveConcrete_eq_ok_iff registers unnamed,
    resolveConcrete_eq_error_iff registers, fun free => ?_⟩
  · exact resolveConcrete_of_names named
      ((mem_implementorsOf_of_registerAll registers).mpr ⟨object, member, declared, rfl⟩)
  have unnamed (name : String) : ¬ interface.Names value name := by
    rintro ⟨resolve, known, _⟩
    rw [free] at known
    cases known
  have resolves (answer : String) : schema.resolveConcrete interface value = .ok answer ↔
      ∃ object, Earliest types (ObjectType.Claims · interface.name value) object ∧ object.name = answer :=
    resolveConcrete_eq_ok_iff registers (fun object _ _ => unnamed object.name) answer
  refine ⟨fun more extended answer goesOn resolved => ?_, ?_⟩
  · obtain ⟨object, earliest, same⟩ := (resolves answer).mp resolved
    have all := registerAll_append registers goesOn
    exact (resolveConcrete_eq_ok_iff all (fun object _ _ => unnamed object.name) answer).mpr
      ⟨object, earliest.append more, same⟩
  · rintro first second front back rfl member claims alsoClaims
    have own := ownTypes_of_registerAll registers
    have distinct := own ▸ (Registered.empty.registerAll registers).ownTypes_nodup
    have other (object : ObjectType σ)
        (earliest : Earliest (front ++ .object second :: back) (ObjectType.Claims · interface.name value) object) :
        object.name ≠ second.name := by
      have inFront := earliest.mem_front member claims
      rw [List.map_append, List.nodup_append] at distinct
      exact distinct.2.2 _ (List.mem_map_of_mem inFront) _ (.head _)
    refine ⟨fun resolved => ?_, fun only => ?_⟩
    · obtain ⟨object, earliest, same⟩ := (resolves _).mp resolved
      exact other object earliest same
    · obtain ⟨object, earliest⟩ := exists_earliest ⟨first, List.mem_append_left _ member, claims⟩
      rcases only object earliest.mem earliest.holds with rfl | rfl
      · exact (resolves _).mpr ⟨object, earliest, rfl⟩
      · exact absurd rfl (other object earliest)

def reading : InterfaceType Unit := { name := "Reading" }

def novel : ObjectType Unit :=
  { name := "Novel", interfaces := ["Reading"], isTypeOf := some fun value => (value.property? "plot").isSome }

def atlas : ObjectType Unit :=
  { name := "Atlas", interfaces := ["Reading"], isTypeOf := some fun value => (value.property? "maps").isSome }

def comic : ObjectType Unit :=
  { name := "Comic", interfaces := ["Reading"], isTypeOf := some fun _ => true }

def shelfOf (objects : List (ObjectType Unit)) : Schema Unit :=
  (TypeDef.interface reading :: objects.map .object).foldl .insert .empty

/-- A value that both a novel and an atlas could have. -/
def novelWithMaps : Value := .object [("plot", .string "a journey"), ("maps", .int 2)]

theorem resolution_follows_registration_shelf :
    empty.registerAll [.interface reading, .object novel, .object atlas] = .ok (shelfOf [novel, atlas]) ∧
      empty.registerAll [.interface reading, .object atlas, .object novel] = .ok (shelfOf [atlas, novel]) ∧
      (shelfOf [novel, atlas]).resolveConcrete reading novelWithMaps = .ok "Novel" ∧
      (shelfOf [atlas, novel]).resolveConcrete reading novelWithMaps = .ok "Atlas" ∧
      (shelfOf [novel, atlas, comic]).resolveConcrete reading novelWithMaps = .ok "Novel" := by
  have novelFirst : empty.registerAll [.interface reading, .object novel, .object atlas] =
      .ok (shelfOf [novel, atlas]) := rfl
  have atlasFirst : empty.registerAll [.interface reading, .object atlas, .object novel] =
      .ok (shelfOf [atlas, novel]) := rfl
  have isNovel : novel.Claims "Reading" novelWithMaps := ⟨.head _, .predicate rfl rfl⟩
  have isAtlas : atlas.Claims "Reading" novelWithMaps := ⟨.head _, .predicate rfl rfl⟩
  obtain ⟨_, _, _, rest⟩ := resolution_follows_registration novelFirst reading novelWithMaps
  obtain ⟨stays, earlier⟩ := rest rfl
  obtain ⟨_, _, _, others⟩ := resolution_follows_registration atlasFirst reading novelWithMaps
  have novelWins := (earlier novel atlas [.interface reading, .object novel] [] rfl (by simp) isNovel isAtlas).2
    (by simp +contextual)
  have atlasWins := ((others rfl).2 atlas novel [.interface reading, .object atlas] [] rfl
    (by simp) isAtlas isNovel).2 (by simp +contextual)
  exact ⟨novelFirst, atlasFirst, novelWins, atlasWins, stays [.object comic] _ _ rfl novelWins⟩

end Schema

end SelectionEngine
