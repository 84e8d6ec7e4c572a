import SelectionEngine.Proofs.Definitions.Cutting
import SelectionEngine.Proofs.Schema.AcceptedText

namespace SelectionEngine

open Definitions

variable {σ : Type}

namespace Definitions

/-- The kinds of definitions. -/
inductive Definition.Kind where
  | scalar
  | interface
  | inputObject
  | object
  | roots
  | directive
  | foreign
deriving DecidableEq

def Definition.kind : Definition → Kind
  | scalar _ => .scalar
  | interface _ _ => .interface
  | inputObject _ _ => .inputObject
  | object _ _ _ => .object
  | roots _ => .roots
  | directive => .directive
  | foreign _ => .foreign

/-- The kinds of definitions that a schema keeps in their order. -/
def Definition.Kind.kept : List Kind := [.scalar, .interface, .inputObject, .object, .roots]

/-- Whether items are others in another order, in which the definitions of each
kind that is kept have the order that they had. -/
structure Rearranged {α : Type} (definition : α → Definition) (items others : List α) : Prop where
  perm : items.Perm others
  kept : ∀ kind ∈ Definition.Kind.kept,
    items.filter (fun item => (definition item).kind = kind) =
      others.filter fun item => (definition item).kind = kind

theorem Rearranged.map {α : Type} {definition : α → Definition} {items others : List α}
    (rearranged : Rearranged definition items others) :
    Rearranged id (items.map definition) (others.map definition) := by
  refine ⟨rearranged.perm.map definition, fun kind kept => ?_⟩
  rw [List.filter_map, List.filter_map]
  exact congrArg (List.map definition) (rearranged.kept kind kept)

/-- Definitions of which no two are of one kind may come in any order whatever. -/
theorem Rearranged.of_nodup {α : Type} {definition : α → Definition} {items others : List α}
    (perm : items.Perm others)
    (distinct : (items.map fun item => (definition item).kind).Nodup) : Rearranged definition items others := by
  refine ⟨perm, fun kind _ => ?_⟩
  have few : (items.filter fun item => (definition item).kind = kind).length ≤ 1 := by
    have once := List.nodup_iff_count_le_one.mp distinct kind
    rw [List.count, List.countP_map, List.countP_eq_length_filter] at once
    exact once
  have same := perm.filter fun item => (definition item).kind = kind
  cases shape : items.filter fun item => (definition item).kind = kind with
  | nil => exact (List.nil_perm.mp (shape ▸ same)).symm
  | cons item rest =>
    rw [shape, List.length_cons] at few
    obtain rfl := List.length_eq_zero_iff.mp (Nat.le_zero.mp (Nat.le_of_succ_le_succ few))
    exact List.singleton_perm.mp (shape ▸ same)

end Definitions

namespace Declarations

/-- What a definition declares by itself. -/
def ofDefinition (definition : Definition) : Declarations σ :=
  match add {} definition with
  | .ok declarations => declarations
  | .error _ => {}

/-- A definition adds what it declares by itself. -/
theorem add_eq (declarations : Declarations σ) (definition : Definition) :
    declarations.add definition = (add {} definition).map declarations.append := by
  have extended {α : Type} {outcome : Except DefinitionFault α} {total own : α → Declarations σ}
      (appends : ∀ a, total a = declarations.append (own a)) :
      (do return total (← outcome)) = (do return own (← outcome)).map declarations.append := by
    cases outcome with
    | error fault => rfl
    | ok a => exact congrArg Except.ok (appends a)
  cases definition with
  | scalar name => simp [add, append, Except.map]
  | interface name clauses =>
    refine extended fun _ => ?_
    simp [append]
  | inputObject name clauses =>
    refine extended fun _ => ?_
    simp [append]
  | object name interfaces clauses =>
    refine extended fun _ => ?_
    simp [append]
  | roots clauses =>
    refine extended fun _ => ?_
    simp [append]
  | directive => simp [add, append, Except.map]
  | foreign text => rfl

theorem foldlM_add_eq_ok {definitions : List Definition} {declarations total : Declarations σ} :
    definitions.foldlM add declarations = .ok total ↔
      (∀ definition ∈ definitions, add {} definition = .ok (ofDefinition definition : Declarations σ)) ∧
        total = (definitions.map ofDefinition).foldl append declarations := by
  induction definitions generalizing declarations with
  | nil => simp [pure, Except.pure, eq_comm]
  | cons definition definitions ih =>
    rw [foldlM_cons_eq_ok, List.forall_mem_cons, List.map_cons, List.foldl_cons]
    constructor
    · rintro ⟨next, added, rest⟩
      rw [add_eq, map_eq_ok] at added
      obtain ⟨declared, known, rfl⟩ := added
      have own : ofDefinition definition = declared := by rw [ofDefinition, known]
      rw [own]
      exact ⟨⟨known, (ih.mp rest).1⟩, (ih.mp rest).2⟩
    · rintro ⟨⟨known, each⟩, same⟩
      exact ⟨_, by rw [add_eq, known]; rfl, ih.mpr ⟨each, same⟩⟩

/-- A definition declares nothing of another kind. -/
theorem parts_ofDefinition (definition : Definition) :
    (definition.kind ≠ .scalar → (ofDefinition definition : Declarations σ).scalars = []) ∧
    (definition.kind ≠ .interface → (ofDefinition definition : Declarations σ).interfaces = []) ∧
    (definition.kind ≠ .inputObject → (ofDefinition definition : Declarations σ).inputs = []) ∧
    (definition.kind ≠ .object → (ofDefinition definition : Declarations σ).objects = []) ∧
    (definition.kind ≠ .roots → (ofDefinition definition : Declarations σ).roots = []) := by
  cases definition with
  | scalar name => simp [ofDefinition, add, Definition.kind]
  | interface name clauses =>
    cases known : clauses.mapM (FieldClause.declare (σ := σ)) <;>
      simp [ofDefinition, add, known, Definition.kind, bind, Except.bind, pure, Except.pure]
  | inputObject name clauses =>
    cases known : clauses.mapM ArgumentClause.declare <;>
      simp [ofDefinition, add, known, Definition.kind, bind, Except.bind, pure, Except.pure]
  | object name interfaces clauses =>
    cases known : clauses.mapM (FieldClause.declare (σ := σ)) <;>
      simp [ofDefinition, add, known, Definition.kind, bind, Except.bind, pure, Except.pure]
  | roots clauses =>
    cases known : clauses.mapM RootClause.declare <;>
      simp [ofDefinition, add, known, Definition.kind, bind, Except.bind, pure, Except.pure]
  | directive => simp [ofDefinition, add]
  | foreign text => simp [ofDefinition, add]

/-- What is declared of a kind is what the definitions of that kind
declare, in their order. -/
theorem part_foldl {α : Type} {part : Declarations σ → List α} {kind : Definition.Kind}
    (appends : ∀ first second, part (append first second) = part first ++ part second)
    (elsewhere : ∀ definition, definition.kind ≠ kind → part (ofDefinition definition) = [])
    (definitions : List Definition) (declarations : Declarations σ) :
    part ((definitions.map ofDefinition).foldl append declarations) =
      part declarations ++ (definitions.filter (·.kind = kind)).flatMap (part ∘ ofDefinition) := by
  induction definitions generalizing declarations with
  | nil => simp
  | cons definition definitions ih =>
    rw [List.map_cons, List.foldl_cons, ih, appends, List.append_assoc]
    by_cases same : definition.kind = kind
    · simp [same]
    · simp [same, elsewhere definition same]

theorem eq_of_parts {first second : Declarations σ} (scalars : first.scalars = second.scalars)
    (interfaces : first.interfaces = second.interfaces) (inputs : first.inputs = second.inputs)
    (objects : first.objects = second.objects) (roots : first.roots = second.roots) : first = second := by
  cases first
  cases second
  simp only at scalars interfaces inputs objects roots
  rw [scalars, interfaces, inputs, objects, roots]

/-- Definitions in another order declare the same, if those of one
kind keep their order. -/
theorem ofDefinitions_rearranged {definitions others : List Definition}
    (rearranged : Rearranged id definitions others)
    {declarations : Declarations σ} (known : ofDefinitions definitions = .ok declarations) :
    ofDefinitions others = .ok declarations := by
  obtain ⟨each, rfl⟩ := foldlM_add_eq_ok.mp known
  refine foldlM_add_eq_ok.mpr ⟨fun definition member => each definition (rearranged.perm.mem_iff.mpr member), ?_⟩
  have same {α : Type} (part : Declarations σ → List α) {kind : Definition.Kind}
      (kept : kind ∈ Definition.Kind.kept)
      (elsewhere : ∀ definition, definition.kind ≠ kind → part (ofDefinition definition) = [])
      (appends : ∀ first second, part (append first second) = part first ++ part second) :
      part ((definitions.map ofDefinition).foldl append {}) = part ((others.map ofDefinition).foldl append {}) := by
    have listed := rearranged.kept kind kept
    simp only [id_eq] at listed
    rw [part_foldl appends elsewhere, part_foldl appends elsewhere, listed]
  exact eq_of_parts (same scalars (by decide) (fun d => (parts_ofDefinition d).1) fun _ _ => rfl)
    (same interfaces (by decide) (fun d => (parts_ofDefinition d).2.1) fun _ _ => rfl)
    (same inputs (by decide) (fun d => (parts_ofDefinition d).2.2.1) fun _ _ => rfl)
    (same objects (by decide) (fun d => (parts_ofDefinition d).2.2.2.1) fun _ _ => rfl)
    (same roots (by decide) (fun d => (parts_ofDefinition d).2.2.2.2) fun _ _ => rfl)

end Declarations

namespace Schema

/-- Definitions in another order define the same schema, if those of one
kind keep their order. -/
theorem ofDefinitions_rearranged {definitions others : List Definition}
    (rearranged : Rearranged id definitions others)
    {bindings : Bindings σ} {schema : Schema σ} (accepted : ofDefinitions definitions bindings = .ok schema) :
    ofDefinitions others bindings = .ok schema := by
  unfold ofDefinitions at accepted
  split at accepted
  · cases accepted
  · next declarations known =>
    rw [ofDefinitions, Declarations.ofDefinitions_rearranged rearranged known]
    exact accepted

/-- The definitions of a text may come in any order. A text that defines a
schema can be cut into the texts of its definitions. On a line each and in any
order that keeps the order of those of one kind, they define the same schema,
and so does every other text with these definitions in such an order. -/
theorem definitions_in_any_order {text : String} {bindings : Bindings σ} {schema : Schema σ}
    (accepted : ofText text bindings = .ok schema) :
    ∃ pieces, Cut text pieces ∧ ∀ {others : List (String × Definition)}, Rearranged (·.2) pieces others →
      ofText (lines others) bindings = .ok schema ∧
      ∀ {other : String}, Definition.ofText? other = some (others.map (·.2)) →
        ofText other bindings = .ok schema := by
  obtain ⟨definitions, declarations, _, read, known, _⟩ := declarations_of_ofText accepted
  obtain ⟨pieces, cut, present, again⟩ := exists_cut read (Declarations.own_of_foldlM known)
  refine ⟨pieces, cut, fun {others} rearranged => ?_⟩
  rw [ofText, cut.read] at accepted
  have same {other : String} (readOther : Definition.ofText? other = some (others.map (·.2))) :
      ofText other bindings = .ok schema := by
    rw [ofText, readOther]
    exact ofDefinitions_rearranged rearranged.map accepted
  have nonempty : others ≠ [] := by
    rintro rfl
    exact present rearranged.perm.eq_nil
  exact ⟨same (again nonempty fun piece member => rearranged.perm.mem_iff.mpr member), same⟩

/-- Everything in it is defined before it is used. -/
def siteText : String :=
  "scalar Url interface Node \x7b id: ID! \x7d input By \x7b url: Url! \x7d # most of it\n" ++
    "\"all\" type Site implements Node \x7b id: ID!, home: Url, find(by: By): Site \x7d " ++
    "schema \x7b query: Site \x7d"

/-- Everything may also be used before it is defined. -/
theorem definitions_in_any_order_site : ∃ (schema : Schema Unit) (pieces : List (String × Definition)),
    ofText siteText {} = .ok schema ∧ Cut siteText pieces ∧
      pieces.map (·.2.kind) = [.scalar, .interface, .inputObject, .object, .roots] ∧
      ofText (lines pieces.reverse) {} = .ok schema := by
  have read : (ofText siteText {} : Except SchemaError (Schema Unit)).toOption.isSome = true := by decide +kernel
  have kinds : (Definition.ofText? siteText).map (·.map Definition.kind) =
      some [.scalar, .interface, .inputObject, .object, .roots] := by decide +kernel
  cases accepted : (ofText siteText {} : Except SchemaError (Schema Unit)) with
  | error error =>
    rw [accepted] at read
    cases read
  | ok schema =>
    obtain ⟨pieces, cut, any⟩ := definitions_in_any_order accepted
    rw [cut.read] at kinds
    have known : pieces.map (·.2.kind) = [.scalar, .interface, .inputObject, .object, .roots] := by
      simpa [Function.comp_def] using kinds
    have rearranged : Rearranged (·.2) pieces pieces.reverse :=
      .of_nodup (List.reverse_perm pieces).symm (by rw [known]; decide)
    exact ⟨schema, pieces, rfl, cut, known, (any rearranged).1⟩

end Schema

end SelectionEngine
