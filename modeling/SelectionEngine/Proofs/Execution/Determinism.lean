import SelectionEngine.Proofs.Execution.ResolutionPaths

namespace SelectionEngine

/-- Whether fields that were asked for their values at the same
places got the same. -/
def AgreeOnOutcomes (resolutions others : List Resolution) : Prop :=
  ∀ one ∈ resolutions, ∀ other ∈ others, one.path = other.path → one.outcome = other.outcome

theorem AgreeOnOutcomes.mono {resolutions others part otherPart : List Resolution}
    (agree : AgreeOnOutcomes resolutions others) (inside : ∀ resolution ∈ part, resolution ∈ resolutions)
    (otherInside : ∀ resolution ∈ otherPart, resolution ∈ others) : AgreeOnOutcomes part otherPart :=
  fun one member other otherMember => agree one (inside one member) other (otherInside other otherMember)

variable {ρ : Type} {schema : Schema ρ} {variableValues : Object}

/-- Accounts of the same parts are the same if those of each part are. -/
theorem Account.eq_of_parts {accounts others : List Account} (length : accounts.length = others.length)
    (agree : AgreeOnOutcomes (accounts.flatMap resolutions) (others.flatMap resolutions))
    (each : ∀ (n : Nat) account other, accounts[n]? = some account → others[n]? = some other →
      AgreeOnOutcomes account.resolutions other.resolutions → account = other) : accounts = others := by
  have same : List.Forall₂ (fun account other => account = other) accounts others := by
    refine forall₂_of_getElem? length fun n account other atAccount atOther =>
      each n account other atAccount atOther ?_
    exact agree.mono
      (fun resolution member => List.mem_flatMap.mpr ⟨account, List.mem_of_getElem? atAccount, member⟩)
      (fun resolution member => List.mem_flatMap.mpr ⟨other, List.mem_of_getElem? atOther, member⟩)
  rwa [List.forall₂_eq_eq_eq] at same

variable (variableValues) in
/-- There is no other way to complete what is rejected. -/
theorem Rejects.only {site : FieldSite} {type : TypeRef} {value : Value} {path : Path} {report : Report}
    {account : Account} (rejects : Rejects schema site type value path report)
    (executes : Executes schema variableValues (.content site type value) path account) :
    account = ⟨.failed report, []⟩ := by
  cases rejects with
  | notList present other =>
    cases executes with
    | null => exact absurd rfl present
    | list _ _ => exact absurd rfl (other _)
    | rejected again =>
      cases again
      rfl
  | notObject present other found =>
    cases executes with
    | null => exact absurd rfl present
    | scalar _ known => cases found.symm.trans known
    | named _ _ => exact absurd rfl (other _)
    | rejected again =>
      cases again with
      | notObject _ _ known =>
        cases found.symm.trans known
        rfl
      | noType _ failed => cases found.symm.trans failed
  | noType present failed =>
    cases executes with
    | null => exact absurd rfl present
    | scalar _ known => cases failed.symm.trans known
    | named known _ => cases failed.symm.trans known
    | rejected again =>
      cases again with
      | notObject _ _ known => cases failed.symm.trans known
      | noType _ known =>
        cases failed.symm.trans known
        rfl
  | notLeaf present missing =>
    cases executes with
    | null => exact absurd rfl present
    | leaf _ completed => cases completed.symm.trans missing
    | rejected again =>
      cases again
      rfl

/-- What becomes of a part is determined by what the fields below it got. -/
theorem Executes.unique {subject : Subject ρ} {path : Path} {account other : Account}
    (one : Executes schema variableValues subject path account)
    (two : Executes schema variableValues subject path other)
    (agree : AgreeOnOutcomes account.resolutions other.resolutions) : account = other := by
  induction one generalizing other with
  | @object type selections parent path accounts length _ ih =>
    cases two with
    | @object _ _ _ _ others otherLength each =>
      have same : accounts = others := by
        refine Account.eq_of_parts (length.trans otherLength.symm) agree fun n account other atAccount atOther => ?_
        have inRange : n < (schema.fieldGroups type selections).length :=
          length ▸ (List.getElem?_eq_some_iff.mp atAccount).1
        have atGroup := List.getElem?_eq_getElem inRange
        exact ih n _ account atGroup atAccount (each n _ other atGroup atOther)
      rw [same]
  | typename named =>
    cases two with
    | typename _ => rfl
    | badArguments other _ _ | unresolved other _ _ | resolved other _ _ _ => exact absurd named other
  | badArguments notTypename declared failed =>
    cases two with
    | typename named => exact absurd named notTypename
    | badArguments _ declared' failed' =>
      obtain rfl := Option.some.inj (declared.symm.trans declared')
      cases failed.symm.trans failed'
      rfl
    | unresolved _ declared' coerced | resolved _ declared' coerced _ =>
      obtain rfl := Option.some.inj (declared.symm.trans declared')
      cases failed.symm.trans coerced
  | unresolved notTypename declared coerced =>
    cases two with
    | typename named => exact absurd named notTypename
    | badArguments _ declared' failed =>
      obtain rfl := Option.some.inj (declared.symm.trans declared')
      cases coerced.symm.trans failed
    | unresolved _ declared' coerced' =>
      obtain rfl := Option.some.inj (declared.symm.trans declared')
      cases coerced.symm.trans coerced'
      cases agree _ (.head _) _ (.head _) rfl
      rfl
    | resolved _ declared' coerced' _ => cases agree _ (.head _) _ (.head _) rfl
  | resolved notTypename declared coerced _ ih =>
    cases two with
    | typename named => exact absurd named notTypename
    | badArguments _ declared' failed =>
      obtain rfl := Option.some.inj (declared.symm.trans declared')
      cases coerced.symm.trans failed
    | unresolved _ declared' coerced' => cases agree _ (.head _) _ (.head _) rfl
    | resolved _ declared' coerced' executes =>
      obtain rfl := Option.some.inj (declared.symm.trans declared')
      cases coerced.symm.trans coerced'
      cases agree _ (.head _) _ (.head _) rfl
      rw [ih executes (agree.mono (fun _ => .tail _) fun _ => .tail _)]
  | strict _ ih =>
    cases two with
    | strict executes => rw [ih executes agree]
    | lenient nullable _ => cases nullable
  | lenient nullable _ ih =>
    cases two with
    | strict executes => cases nullable
    | lenient _ executes => rw [ih executes agree]
  | null =>
    cases two with
    | null => rfl
    | wrapped present _ | scalar present _ | leaf present _ => exact absurd rfl present
    | rejected rejects => exact rejects.only variableValues .null
  | wrapped present _ ih =>
    cases two with
    | null => exact absurd rfl present
    | wrapped _ executes => exact ih executes agree
    | rejected rejects => cases rejects
  | @list site inner path items accounts length executes ih =>
    cases two with
    | @list _ _ _ _ others otherLength each =>
      have same : accounts = others := by
        refine Account.eq_of_parts (length.trans otherLength.symm) agree fun n account other atAccount atOther => ?_
        have inRange : n < items.length := length ▸ (List.getElem?_eq_some_iff.mp atAccount).1
        have atItem := List.getElem?_eq_getElem inRange
        exact ih n _ account atItem atAccount (each n _ other atItem atOther)
      rw [same]
    | rejected rejects => exact rejects.only variableValues (.list length executes)
  | scalar present found =>
    cases two with
    | null => exact absurd rfl present
    | scalar _ _ => rfl
    | named known _ => cases found.symm.trans known
    | rejected rejects => exact rejects.only variableValues (.scalar present found)
  | named found executes ih =>
    cases two with
    | scalar _ known => cases found.symm.trans known
    | named known executes =>
      obtain rfl := Option.some.inj (Except.ok.inj (found.symm.trans known))
      exact ih executes agree
    | rejected rejects => exact rejects.only variableValues (.named found executes)
  | leaf present completed =>
    cases two with
    | null => exact absurd rfl present
    | leaf _ known =>
      obtain rfl := Option.some.inj (completed.symm.trans known)
      rfl
    | rejected rejects => exact rejects.only variableValues (.leaf present completed)
  | rejected rejects => exact (rejects.only variableValues two).symm

end SelectionEngine
