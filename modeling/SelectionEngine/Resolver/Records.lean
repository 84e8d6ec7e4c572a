import SelectionEngine.Resolver.Argument
import SelectionEngine.Store

namespace SelectionEngine.Resolver

/-- The fields of a new or changed record, from the argument `input`. -/
def inputFields (info : ResolveInfo) : Except ResolverError Object :=
  (info.argument (Value.optional Value.toObject) "input").map (·.getD [])

/-- The id of a record, from the argument `id`. -/
def recordId (info : ResolveInfo) : Except ResolverError String := info.argument Value.toText "id"

/-- Creates a record from the argument `input`. -/
def createRecord (collection : String) : Resolver Store := acting fun info store =>
  match inputFields info with
  | .ok fields =>
    let (record, store) := store.create (store.handle collection) fields
    (.value (.object record), store)
  | .error e => (.error e, store)

/-- The record with the id of the argument `id`, or null. -/
def getRecord (collection : String) : Resolver Store := acting fun info store =>
  match recordId info with
  | .ok id => (.value (((store.get? (store.handle collection) id).map Value.object).getD .null), store)
  | .error e => (.error e, store)

/-- Patches the record with the id of the argument `id` by the
argument `input`. -/
def updateRecord (collection : String) : Resolver Store := acting fun info store =>
  match (do return (← recordId info, ← inputFields info) : Except ResolverError (String × Object)) with
  | .ok (id, fields) => match store.update (store.handle collection) id fields with
    | (.ok record, store) => (.value (.object record), store)
    | (.error e, store) => (.error (.ofReportable e), store)
  | .error e => (.error e, store)

/-- All records of a collection. -/
def listRecords (collection : String) : Resolver Store := acting fun _ store =>
  (.value (.list ((store.list (store.handle collection)).map .object)), store)

end SelectionEngine.Resolver
