import SelectionEngine.Proofs.Execution.Acts
import SelectionEngine.Proofs.Execution.ErrorOrder
import SelectionEngine.Proofs.Task.Sleeping

namespace SelectionEngine

open SelectionEngine.Task (Logs)

variable {ρ σ : Type}

/-- A place comes before those below it, and places apart from each other are in
the order of the response. -/
def DepthFirst (schema : Schema ρ) (position? : Path → Option Position) (one two : Path) : Prop :=
  one <+: two ∨ PathBefore schema position? one two

/-- Where the fields lie that are asked for their values below a subject. -/
theorem Executes.prefix_of_mem {schema : Schema ρ} {variableValues : Object} {subject : Subject ρ} {path : Path}
    {account : Account} (executes : Executes schema variableValues subject path account) :
    ∀ resolution ∈ account.resolutions, path <+: resolution.path := by
  intro resolution member
  have owned := executes.paths.2 resolution member
  cases subject with
  | group type parent fields => exact Path.prefix_join.trans owned
  | _ => exact owned.elim fun _ below => Path.prefix_join.trans below

section

variable {schema : Schema ρ} {variableValues : Object} {position? : Path → Option Position}
  {resolutions : List Resolution} (steps : ∀ path element, position? (path.join element) =
    (position? path).bind fun position => position.step? schema resolutions path element)

include steps

/-- The fields below a subject are asked for their values in depth-first order,
as far as an account lists them. -/
theorem Executes.depthFirst {subject : Subject ρ} {path : Path} {account : Account}
    (executes : Executes schema variableValues subject path account)
    (recorded : ∀ resolution ∈ account.resolutions,
      Resolution.valueAt? resolutions resolution.path = resolution.outcome.toOption)
    (located : subject.Located schema position? resolutions path) :
    account.resolutions.Pairwise fun one two => DepthFirst schema position? one.path two.path := by
  have apart (one two : Resolution) (place other : Path) (onePlace : some one.path = some place)
      (twoPlace : some two.path = some other) (before : PathBefore schema position? place other) :
      DepthFirst schema position? one.path two.path := by
    obtain rfl := Option.some.inj onePlace
    obtain rfl := Option.some.inj twoPlace
    exact .inr before
  -- by the rules of execution: a field comes before all below it, and parts
  -- come in the order of the response
  induction executes with
  | @object type selections parent path accounts length each ih =>
    have parts : List.Forall₂ (fun element part => part.Pairwise (fun one two : Resolution =>
          DepthFirst schema position? one.path two.path) ∧ ∀ resolution ∈ part, ∃ origin,
            some resolution.path = some origin ∧ path.join element <+: origin)
        (((schema.fieldGroups type selections).map FieldGroup.key).map .key)
        (accounts.map Account.resolutions) := by
      rw [List.forall₂_map_left_iff, List.forall₂_map_left_iff, List.forall₂_map_right_iff]
      refine forall₂_of_getElem? length.symm fun n group account atGroup atAccount => ⟨?_, ?_⟩
      · obtain ⟨position, name, value, atPath, named, raw, found, same⟩ := located
        refine ih n group account atGroup atAccount
          (fun resolution member => recorded resolution
            (List.mem_flatMap.mpr ⟨account, List.mem_of_getElem? atAccount, member⟩)) ?_
        have placed := placed_fields steps atPath named raw found
        rw [same] at placed
        exact placed group (List.mem_of_getElem? atGroup)
      · exact fun resolution member =>
          ⟨_, rfl, (each n group account atGroup atAccount).paths.2 resolution member⟩
    have ordered := (inOrder_parts _ _ located.inOrder apart parts).1
    rwa [← List.flatMap_def] at ordered
  | typename | badArguments | null | scalar | leaf | rejected => exact .nil
  | unresolved => exact List.pairwise_singleton _ _
  | @resolved type parent group path field arguments value account notTypename declared _ executes ih =>
    have atPath := located notTypename field declared
    have known := recorded _ (.head _)
    refine List.pairwise_cons.mpr ⟨fun resolution member => .inl (executes.prefix_of_mem resolution member), ?_⟩
    exact ih (fun resolution member => recorded resolution (.tail _ member)) ⟨_, atPath, ⟨known, rfl, rfl⟩, rfl⟩
  | strict _ ih =>
    obtain ⟨position, atPath, holds, strict⟩ := located
    exact ih recorded ⟨position, atPath, ⟨holds.raw, holds.selections, holds.nullable⟩, fun _ => strict⟩
  | lenient _ _ ih =>
    obtain ⟨position, atPath, holds, same⟩ := located
    exact ih recorded ⟨position, atPath, holds, fun strict => same.trans strict⟩
  | wrapped _ _ ih =>
    obtain ⟨position, atPath, holds, strict⟩ := located
    exact ih recorded ⟨position, atPath, holds, strict rfl⟩
  | @list site inner path items accounts length each ih =>
    obtain ⟨position, atPath, holds, _⟩ := located
    have parts : List.Forall₂ (fun element part => part.Pairwise (fun one two : Resolution =>
          DepthFirst schema position? one.path two.path) ∧ ∀ resolution ∈ part, ∃ origin,
            some resolution.path = some origin ∧ path.join element <+: origin)
        ((List.range items.length).map .index) (accounts.map Account.resolutions) := by
      rw [List.forall₂_map_left_iff, List.forall₂_map_right_iff]
      refine forall₂_of_getElem? (by simp [length]) fun n index account atIndex atAccount => ?_
      obtain ⟨inRange, rfl⟩ : n < items.length ∧ n = index := by
        simpa [List.getElem?_eq_some_iff] using atIndex
      have atItem : items[n]? = some items[n] := List.getElem?_eq_getElem inRange
      have executes := each n items[n] account atItem atAccount
      refine ⟨ih n items[n] account atItem atAccount
        (fun resolution member => recorded resolution
          (List.mem_flatMap.mpr ⟨account, List.mem_of_getElem? atAccount, member⟩))
        ⟨_, placed_item steps atPath holds.nullable holds.raw atItem, ⟨rfl, holds.selections, rfl⟩, rfl⟩, ?_⟩
      exact fun resolution member => ⟨_, rfl, executes.prefix_of_mem resolution member⟩
    have ordered := (inOrder_parts _ _ (indices_inOrder items.length) apart parts).1
    rwa [← List.flatMap_def] at ordered
  | named found _ ih =>
    obtain ⟨position, atPath, holds, _⟩ := located
    exact ih recorded ⟨position, _, _, atPath, holds.nullable, holds.raw, found, holds.selections⟩

end

end SelectionEngine
