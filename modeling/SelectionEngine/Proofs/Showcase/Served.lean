import SelectionEngine.Proofs.Execution.Replay
import SelectionEngine.Proofs.Schema.Registration
import SelectionEngine.Showcase

namespace SelectionEngine

/-- A resolver that does not sleep takes its step at once. -/
theorem Resolver.actsAfter_acting {σ : Type} (f : ResolveInfo → σ → Outcome × σ) : (acting f).ActsAfter 0 :=
  @ActsAfter.acting σ 0 f

theorem Resolver.actsAfter_immediate {σ : Type} (f : ResolveInfo → Outcome) :
    (immediate f : Resolver σ).ActsAfter 0 :=
  @ActsAfter.immediate σ 0 f

/-- Nothing happens to the state after the step of a resolver
whose outcome is changed. -/
theorem Resolver.acting_bind {σ : Type} (f : ResolveInfo → σ → Outcome × σ) (change : Outcome → Outcome) :
    (fun info => (acting f info).bind fun outcome => .done (change outcome)) =
      acting fun info s => (change (f info s).1, (f info s).2) := rfl

namespace Showcase

/-- The object types with their resolvers. -/
def objects (draw : Draws) : List (ObjectType Store) := declarations.objects.map (bindings draw).bindObject

def contentInterface : InterfaceType Store := { name := "Content", fields := contentFields }

/-- All types, in the order of their registration. -/
def types (draw : Draws) : List (TypeDef Store) :=
  .interface contentInterface :: (declarations.inputs.map .inputObject ++ (objects draw).map .object)

/-- The schema that the declarations and their resolvers make. -/
def served (draw : Draws) : Schema Store where
  types := Schema.empty.types ++ (types draw).map fun type => (type.name, type)
  implementors := [("Content", ["Article", "Podcast"])]
  resolvers := [("Query", queries draw), ("RandomDie", dieFields draw), ("Mutation", mutations), ("Message", []),
    ("Article", []), ("Podcast", [])]

variable (draw : Draws)

theorem registerAll_served :
    Schema.registerAll .empty ((bindings draw).bind declarations).types = .ok (served draw) :=
  rfl

theorem validate_served : (served draw).validate = .ok () := rfl

/-- The schema is built without an error, whatever is drawn. -/
theorem schema_eq_served : schema draw = .ok (served draw) := by
  have roots : ((bindings draw).bind declarations).roots = [] := rfl
  simp only [schema, Schema.ofDeclarations, registerAll_served, roots, List.foldl_nil]
  exact congrArg (· >>= fun _ => Except.ok (served draw)) (validate_served draw)

theorem registered_served : (served draw).Registered :=
  Schema.Registered.empty.registerAll (registerAll_served draw)

theorem actsAfter_served : (served draw).ActsAfter fun _ _ => 0 := by
  have each : ∀ entry ∈ (served draw).resolvers, ∀ bound ∈ entry.2, bound.2.ActsAfter 0 := by
    simp only [served, queries, dieFields, mutations, List.forall_mem_cons, computing, Resolver.createRecord,
      Resolver.getRecord, Resolver.updateRecord, Resolver.listRecords, Resolver.acting_bind,
      Resolver.actsAfter_acting, Resolver.actsAfter_immediate, List.not_mem_nil, false_implies, implies_true,
      and_self]
  intro type field resolver found
  obtain ⟨own, ofType, ofField⟩ := Schema.mem_of_resolver? found
  exact each (type, own) ofType (field, resolver) ofField

theorem awake_served : (served draw).Awake := (actsAfter_served draw).awake fun _ _ _ => rfl

variable {draw}

theorem mem_objects_of_lookup? {name : String} {type : ObjectType Store}
    (found : (served draw).lookup? name = some (.object type)) : type ∈ objects draw := by
  have member : TypeDef.object type ∈ (served draw).types.values := Entries.mem_values_of_get? found
  simpa [Entries.values, served, types, Schema.empty, Function.comp_def] using member

end Showcase

end SelectionEngine
