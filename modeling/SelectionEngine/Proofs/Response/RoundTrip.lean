import SelectionEngine.Proofs.Json.Decoding
import SelectionEngine.Proofs.Path
import SelectionEngine.Response

namespace SelectionEngine

open Json Json.Document

namespace PathElement

theorem represented_toValue {element : PathElement} (represented : element.Represented) :
    element.toValue.Represented := by
  cases element with
  | index n =>
    have small : n < UInt64.size := represented
    exact .int (by omega) (Int.ofNat_lt.mpr small)
  | key name => exact .string name

theorem decodes_toValue {element : PathElement} (represented : element.Represented) :
    Decodes ofDocument? element.toValue element := by
  intro room
  cases element with
  | index n =>
    have small : n < UInt64.size := represented
    have bounds : 0 ≤ (n : Int) ∧ (n : Int) < UInt64.size := ⟨Int.natCast_nonneg n, Int.ofNat_lt.mpr small⟩
    have read : ofDocument? (ofValueWithin room (index n).toValue) =
        if 0 ≤ (n : Int) ∧ (n : Int) < UInt64.size then some (index n) else none := rfl
    rw [read, if_pos bounds]
    exact (if_pos (Nat.zero_le _)).symm
  | key name => exact (if_pos (Nat.zero_le _)).symm

end PathElement

namespace Path

theorem represented_toValue {path : Path} (represented : path.Represented) : path.toValue.Represented :=
  Value.represented_map fun element member => PathElement.represented_toValue (represented element member)

/-- A path is decoded from its JSON form, each of its steps as what it is. -/
theorem decodes_toValue {path : Path} (represented : path.Represented) : Decodes ofDocument? path.toValue path := by
  refine .list rfl fun room => ?_
  exact Decodes.items (List.mapM PathElement.ofDocument?) rfl (fun d ds => by simp [List.mapM_cons])
    (fun element member => PathElement.decodes_toValue (represented element member)) room

end Path

namespace Report

/-- The reports that there are. -/
structure Represented (report : Report) : Prop where
  path : ∀ path, report.path = some path → path.Represented
  extensions : (Value.object report.extensions).Represented

/-- The JSON form of a report, as an object. -/
def body (report : Report) : Object :=
  [("message", .string report.message)] ++
    entryUnless report.path.isNone "path" ((report.path.map Path.toValue).getD .null) ++
    entryUnless report.extensions.isEmpty "extensions" (.object report.extensions)

variable (report : Report)

theorem toValue_eq : report.toValue = .object report.body := by
  obtain ⟨message, path, extensions⟩ := report
  cases path <;> rfl

theorem body_distinct : report.body.Distinct := by
  have keys : report.body.keys.Sublist ["message", "path", "extensions"] := by
    simp only [body, Entries.keys, List.map_append]
    exact ((List.Sublist.refl ["message"]).append (Value.keys_entryUnless _ "path" _)).append
      (Value.keys_entryUnless _ "extensions" _)
  exact keys.nodup (by decide)

theorem get?_body : ["message", "path", "extensions"].map (Entries.get? · report.body) =
    [some (.string report.message),
      if report.path.isNone then none else some ((report.path.map Path.toValue).getD .null),
      if report.extensions.isEmpty then none else some (.object report.extensions)] := by
  simp [body, Entries.get?, Entries.get?_append, Value.get?_entryUnless]

theorem nesting_body : Value.nestingOfEntries report.body =
    max (Value.nestingOfEntries (entryUnless report.path.isNone "path" ((report.path.map Path.toValue).getD .null)))
      (Value.nestingOfEntries
        (entryUnless report.extensions.isEmpty "extensions" (.object report.extensions))) := by
  simp [body, Value.nestingOfEntries_append, Value.nestingOfEntries, Value.nesting]

variable {report}

theorem represented_toValue (represented : report.Represented) : report.toValue.Represented := by
  have path : ((report.path.map Path.toValue).getD .null).Represented := by
    cases given : report.path with
    | none => exact .null
    | some path => exact Path.represented_toValue (represented.path path given)
  rw [toValue_eq]
  refine .object report.body_distinct ?_
  simp only [body, List.forall_mem_append]
  exact ⟨⟨List.forall_mem_singleton.mpr (.string _), Value.represented_entryUnless path _ _⟩,
    Value.represented_entryUnless represented.extensions _ _⟩

/-- The place of a report, which is missing where it is left out and
not where it is empty. -/
theorem withDefault_path (represented : report.Represented) (room : Nat) :
    withDefault none (nullable Path.ofDocument?)
        ((if report.path.isNone then none else some ((report.path.map Path.toValue).getD .null)).map
          (ofValueWithin room)) =
      if Value.nestingOfEntries
          (entryUnless report.path.isNone "path" ((report.path.map Path.toValue).getD .null)) ≤ room then
        some report.path else none := by
  refine withDefault_unless (fun present => ?_)
    (fun absent => (Option.isNone_iff_eq_none.mp absent).symm) "path" room
  cases given : report.path with
  | none => simp [given] at present
  | some path => exact (Path.decodes_toValue (represented.path path given)).nullable nofun

/-- A report is decoded from its JSON form. -/
theorem decodes_toValue (represented : report.Represented) : Decodes ofDocument? report.toValue report := by
  rw [toValue_eq]
  refine .object rfl fun room => ?_
  have message : string? (ofValueWithin room (.string report.message)) = some report.message := rfl
  have path := withDefault_path represented room
  have extensions := withDefault_unlessEmpty (decodes_object? represented.extensions) "extensions" room
  rw [ofDocument?, members?_ofEntriesWithin report.body_distinct, get?_body, nesting_body]
  simp only [List.map_cons, List.map_nil, Option.map_some, Option.bind_eq_bind, Option.bind_some, Option.pure_def,
    withDefault_some, message, path, extensions]
  exact bind_room _

end Report

namespace Response

/-- The responses that there are. -/
structure Represented (response : Response) : Prop where
  data : ∀ value, response.data = some value → value.Represented
  errors : ∀ report ∈ response.errors, report.Represented
  extensions : (Value.object response.extensions).Represented

/-- The response without data that is null. -/
def withoutNull (response : Response) : Response := { response with data := response.data.filter (· ≠ .null) }

/-- The JSON form of a response, as an object. -/
def body (response : Response) : Object :=
  [("data", response.data.getD .null)] ++
    entryUnless response.errors.isEmpty "errors" (.list (response.errors.map Report.toValue)) ++
    entryUnless response.extensions.isEmpty "extensions" (.object response.extensions)

variable (response : Response)

theorem toValue_eq : response.toValue = .object response.body := rfl

theorem body_distinct : response.body.Distinct := by
  have keys : response.body.keys.Sublist ["data", "errors", "extensions"] := by
    simp only [body, Entries.keys, List.map_append]
    exact ((List.Sublist.refl ["data"]).append (Value.keys_entryUnless _ "errors" _)).append
      (Value.keys_entryUnless _ "extensions" _)
  exact keys.nodup (by decide)

theorem get?_body : ["data", "errors", "extensions"].map (Entries.get? · response.body) =
    [some (response.data.getD .null),
      if response.errors.isEmpty then none else some (.list (response.errors.map Report.toValue)),
      if response.extensions.isEmpty then none else some (.object response.extensions)] := by
  simp [body, Entries.get?, Entries.get?_append, Value.get?_entryUnless]

theorem nesting_body : Value.nestingOfEntries response.body = max (response.data.getD .null).nesting
    (max (Value.nestingOfEntries (entryUnless response.errors.isEmpty "errors"
        (.list (response.errors.map Report.toValue))))
      (Value.nestingOfEntries
        (entryUnless response.extensions.isEmpty "extensions" (.object response.extensions)))) := by
  simp [body, Value.nestingOfEntries_append, Value.nestingOfEntries]

variable {response}

/-- Data is missing or null, or it stays as it is. -/
theorem data_withoutNull (response : Response) :
    (response.data.getD .null = .null ∧ response.withoutNull.data = none) ∨
      ∃ value, value ≠ .null ∧ response.data = some value ∧ response.withoutNull.data = some value := by
  rw [withoutNull]
  cases given : response.data with
  | none => exact .inl ⟨rfl, rfl⟩
  | some value =>
    by_cases null : value = .null
    · exact .inl ⟨null, by simp [null]⟩
    · exact .inr ⟨value, null, rfl, by simp [null]⟩

theorem withoutNull_eq_self_iff : response.withoutNull = response ↔ response.data ≠ some .null := by
  constructor
  · intro same null
    obtain ⟨_, gone⟩ | ⟨value, present, given, _⟩ := response.data_withoutNull
    · rw [same, null] at gone
      cases gone
    · exact present (Option.some.inj (given.symm.trans null))
  · intro present
    have kept : response.withoutNull.data = response.data := by
      cases given : response.data with
      | none => simp [withoutNull, given]
      | some value =>
        have other : value ≠ .null := fun null => present (given.trans (congrArg some null))
        simp [withoutNull, given, other]
    exact congrArg (fun data => { response with data }) kept

/-- Missing data is written as null. -/
theorem toValue_withoutNull : response.withoutNull.toValue = response.toValue := by
  have data : response.withoutNull.data.getD .null = response.data.getD .null := by
    obtain ⟨null, gone⟩ | ⟨value, _, given, kept⟩ := response.data_withoutNull
    · rw [null, gone, Option.getD_none]
    · rw [given, kept]
  rw [toValue_eq, toValue_eq, body, data]
  rfl

theorem represented_toValue (represented : response.Represented) : response.toValue.Represented := by
  have data : (response.data.getD .null).Represented := by
    cases given : response.data with
    | none => exact .null
    | some value => exact represented.data value given
  have errors := Value.represented_map fun report member =>
    Report.represented_toValue (represented.errors report member)
  rw [toValue_eq]
  refine .object response.body_distinct ?_
  simp only [body, List.forall_mem_append]
  exact ⟨⟨List.forall_mem_singleton.mpr data, Value.represented_entryUnless errors _ _⟩,
    Value.represented_entryUnless represented.extensions _ _⟩

theorem decodes_data (represented : response.Represented) :
    Decodes (nullable toValue?) (response.data.getD .null) response.withoutNull.data := by
  obtain ⟨null, gone⟩ | ⟨value, present, given, kept⟩ := response.data_withoutNull
  · rw [null, gone]
    exact fun _ => (if_pos (Nat.zero_le _)).symm
  · rw [given, kept, Option.getD_some]
    exact (decodes_toValue? (represented.data value given)).nullable present

theorem decodes_errors (represented : response.Represented) :
    Decodes Report.listOf? (.list (response.errors.map Report.toValue)) response.errors := by
  refine .list rfl fun room => ?_
  exact Decodes.items (List.mapM Report.ofDocument?) rfl (fun d ds => by simp [List.mapM_cons])
    (fun report member => Report.decodes_toValue (represented.errors report member)) room

/-- A response is decoded from its JSON form, except that data
that is null is missing. -/
theorem decodes_toValue (represented : response.Represented) :
    Decodes ofDocument? response.toValue response.withoutNull := by
  rw [toValue_eq]
  refine .object rfl fun room => ?_
  have data := decodes_data represented room
  have errors := withDefault_unlessEmpty (decodes_errors represented) "errors" room
  have extensions := withDefault_unlessEmpty (decodes_object? represented.extensions) "extensions" room
  rw [ofDocument?, members?_ofEntriesWithin response.body_distinct, get?_body, nesting_body]
  simp only [List.map_cons, List.map_nil, Option.map_some, Option.bind_eq_bind, Option.bind_some, Option.pure_def,
    withDefault_some, data, errors, extensions]
  exact bind_room_both _

/-- The text of a response is decoded exactly if its lists and objects nest no
deeper than they may in a text. -/
theorem ofDocument?_text (represented : response.Represented) :
    (Document.parse? response.toValue.toJson).bind ofDocument? =
      if response.toValue.nesting ≤ nestingLimit then some response.withoutNull else none := by
  rw [parse?_toJson (represented_toValue represented), Option.bind_some]
  exact decodes_toValue represented nestingLimit

/-- A response is read back from its JSON form, and from the text of that unless
it nests too deep for a text. Only data that is null comes back as missing data,
which is written in the same way. -/
theorem responses_read_back (represented : response.Represented) :
    ofDocument? (Document.ofValue response.toValue) = some response.withoutNull ∧
      (Document.parse? response.toValue.toJson).bind ofDocument? =
        (if response.toValue.nesting ≤ nestingLimit then some response.withoutNull else none) ∧
      response.withoutNull.toValue = response.toValue ∧
      (response.withoutNull = response ↔ response.data ≠ some .null) :=
  ⟨(decodes_toValue represented).ofValue (represented_toValue represented), ofDocument?_text represented,
    toValue_withoutNull, withoutNull_eq_self_iff⟩

def goneReport : Report where
  message := "gone"
  path := some [.key "feed", .index 1, .key "7", .key ""]
  extensions := [("code", .string "GONE"), ("at", .list [])]

/-- A response whose reports have a place, the root as their place and no place,
with a key that looks like an index. -/
def feedResponse : Response where
  data := some (.object [("feed", .list [.null, .object [("title", .null), ("score", .double (.zero true))]])])
  errors := [goneReport, { message := "say \"so\"", path := some [] }, {}]
  extensions := [("took", .int 18446744073709551615), ("by", .object [])]

theorem feedResponse_represented : feedResponse.Represented where
  data := by
    intro value given
    obtain rfl := Option.some.inj given
    have item : (Value.object [("title", .null), ("score", .double (.zero true))]).Represented :=
      .object (by decide) (by simp [Value.Represented.null, Value.Represented.double])
    exact Value.represented_single (.list (by simp [Value.Represented.null, item])) "feed"
  errors := by
    have steps : Path.Represented [.key "feed", .index 1, .key "7", .key ""] := by
      simp [Path.Represented, PathElement.Represented, UInt64.size]
    have extensions : (Value.object [("code", .string "GONE"), ("at", .list [])]).Represented :=
      .object (by decide) (by simp [Value.Represented.string, Value.Represented.list])
    have empty : (Value.object []).Represented := .object (by decide) (List.forall_mem_nil _)
    have placed : goneReport.Represented := ⟨fun _ given => Option.some.inj given ▸ steps, extensions⟩
    have atRoot : Report.Represented { message := "say \"so\"", path := some [] } :=
      ⟨fun _ given => Option.some.inj given ▸ List.forall_mem_nil _, empty⟩
    have nowhere : Report.Represented {} := ⟨by simp, empty⟩
    exact List.forall_mem_cons.mpr
      ⟨placed, List.forall_mem_cons.mpr ⟨atRoot, List.forall_mem_singleton.mpr nowhere⟩⟩
  extensions := by
    have took : (Value.int 18446744073709551615).Represented := .int (by decide) (by decide)
    exact .object (by decide) (List.forall_mem_cons.mpr
      ⟨took, List.forall_mem_singleton.mpr (.object (by decide) (List.forall_mem_nil _))⟩)

theorem responses_read_back_feed : feedResponse.Represented ∧
    ofDocument? (Document.ofValue feedResponse.toValue) = some feedResponse ∧
    (Document.parse? feedResponse.toValue.toJson).bind ofDocument? = some feedResponse ∧
    ofDocument? (Document.ofValue { feedResponse with data := some .null }.toValue) =
      some { feedResponse with data := none } := by
  have represented := feedResponse_represented
  have withNull : { feedResponse with data := some .null }.Represented :=
    ⟨fun _ given => Option.some.inj given ▸ .null, represented.errors, represented.extensions⟩
  obtain ⟨ofValue, ofText, _, kept⟩ := responses_read_back represented
  have same : feedResponse.withoutNull = feedResponse := kept.mpr (by simp [feedResponse])
  rw [same] at ofValue ofText
  exact ⟨represented, ofValue, ofText.trans (if_pos (by decide)), (responses_read_back withNull).1⟩

/-- What fields in each other give, so many levels of them. -/
def nestedData : Nat → Value
  | 0 => .null
  | depth + 1 => .object [("a", nestedData depth)]

theorem nestedData_represented (depth : Nat) : (nestedData depth).Represented := by
  induction depth with
  | zero => exact .null
  | succ depth ih => exact Value.represented_single ih "a"

/-- The answer to fields that nest 127 levels deep. -/
def deepResponse : Response := { data := some (nestedData 127) }

/-- That answer is not decoded from its text. -/
theorem deep_data_refused : deepResponse.Represented ∧ deepResponse.withoutNull = deepResponse ∧
    ofDocument? (Document.ofValue deepResponse.toValue) = some deepResponse ∧
    (Document.parse? deepResponse.toValue.toJson).bind ofDocument? = none := by
  have represented : deepResponse.Represented :=
    ⟨fun _ given => Option.some.inj given ▸ nestedData_represented 127, List.forall_mem_nil _,
      .object (by decide) (List.forall_mem_nil _)⟩
  have same : deepResponse.withoutNull = deepResponse := withoutNull_eq_self_iff.mpr fun null => by cases null
  have read := (decodes_toValue represented).ofValue (represented_toValue represented)
  rw [same] at read
  refine ⟨represented, same, read, ?_⟩
  rw [ofDocument?_text represented, if_neg (by decide +kernel)]

end Response

end SelectionEngine
