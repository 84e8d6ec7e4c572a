import SelectionEngine.Schema.Basic

namespace SelectionEngine

variable {σ : Type}

/-- Whether two argument definitions say the same, up to the order of
keys in their defaults. -/
def ArgumentDef.same (a b : ArgumentDef) : Bool :=
  a.name == b.name && a.type == b.type && match a.default, b.default with
    | none, none => true
    | some v, some w => v.same w
    | _, _ => false

/-- Whether two lists agree item by item. -/
def sameAll {α : Type} (same : α → α → Bool) : List α → List α → Bool
  | [], [] => true
  | a :: as, b :: bs => same a b && sameAll same as bs
  | _, _ => false

/-- Whether two fields say the same, apart from their resolvers. -/
def FieldDef.same (a b : FieldDef σ) : Bool :=
  a.name == b.name && a.type == b.type && sameAll ArgumentDef.same a.arguments b.arguments

namespace TypeDef

/-- Whether two types say the same, apart from the behaviour bound to them. -/
def same : TypeDef σ → TypeDef σ → Bool
  | scalar a, scalar b => a == b
  | object a, object b =>
    a.name == b.name && a.interfaces == b.interfaces && sameAll FieldDef.same a.fields b.fields
  | interface a, interface b => a.name == b.name && sameAll FieldDef.same a.fields b.fields
  | inputObject a, inputObject b => a.name == b.name && sameAll ArgumentDef.same a.fields b.fields
  | _, _ => false

/-- Whether there is no behaviour bound to the type. -/
def isUnbound : TypeDef σ → Bool
  | scalar _ | inputObject _ => true
  | object type => type.isTypeOf.isNone && type.fields.all fun field => field.resolver.isNone
  | interface type => type.resolveType.isNone && type.fields.all fun field => field.resolver.isNone

end TypeDef

end SelectionEngine
