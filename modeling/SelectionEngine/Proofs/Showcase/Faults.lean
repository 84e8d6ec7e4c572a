import SelectionEngine.Proofs.Showcase.Resolving

namespace SelectionEngine

theorem append_ne_append {front start : String}
    (apart : ¬ front.toList <+: start.toList ∧ ¬ start.toList <+: front.toList) (back rest : String) :
    front ++ back ≠ start ++ rest := by
  intro same
  have lists : front.toList ++ back.toList = start.toList ++ rest.toList := by
    rw [← String.toList_append, same, String.toList_append]
  have whole : start.toList <+: front.toList ++ back.toList := lists.symm ▸ List.prefix_append _ _
  exact (List.prefix_or_prefix_of_prefix (List.prefix_append _ _) whole).elim apart.1 apart.2

/-- The codes of errors that are no fault of a request. -/
def faultCodes : List String :=
  ["NON_NULL_VIOLATION", "INVALID_LEAF_VALUE", "EXPECTED_LIST", "EXPECTED_OBJECT", "TYPE_RESOLUTION_FAILED",
    "INVALID_OUTPUT_TYPE", "RESOLVER_PANIC"]

/-- The error says that a resolver gave what it must not give, or that it could
not use its arguments. -/
def Report.IsFault (report : Report) : Prop :=
  (∃ code ∈ faultCodes, report.code? = some code) ∨ ∃ rest, report.message = "invalid argument '" ++ rest

theorem Report.not_isFault {ε : Type} [Reportable ε] {error : ε} (path : Option Path)
    (code : Reportable.code error ∉ faultCodes)
    (message : ∃ front back, Reportable.message error = front ++ back ∧
      ¬ front.toList <+: "invalid argument '".toList ∧ ¬ "invalid argument '".toList <+: front.toList) :
    ¬ (Reportable.report error path).IsFault := by
  rintro (⟨own, listed, same⟩ | ⟨rest, same⟩)
  · rw [Report.code?_report] at same
    exact code (Option.some.inj same ▸ listed)
  · obtain ⟨front, back, text, apart⟩ := message
    exact append_ne_append apart back rest (text.symm.trans same)

theorem ArgumentError.not_isFault (error : ArgumentError) (path : Option Path) :
    ¬ (Reportable.report error path).IsFault := by
  refine Report.not_isFault path ?_ ?_
  · cases error <;> simp only [Reportable.code] <;> decide
  · cases error
    all_goals
      simp only [Reportable.message, String.append_assoc]
      exact ⟨_, _, rfl, by decide⟩

theorem RequestError.not_isFault (error : RequestError) (path : Option Path) :
    ¬ (Reportable.report error path).IsFault := by
  refine Report.not_isFault path ?_ ?_
  · cases error <;> simp only [Reportable.code] <;> decide
  · cases error
    all_goals
      simp only [Reportable.message, String.append_assoc]
      exact ⟨_, _, rfl, by decide⟩

namespace Showcase

theorem Refusal.not_isFault {error : ResolverError} (refusal : Refusal error) (path : Option Path) :
    ¬ (Reportable.report error path).IsFault := by
  refine Report.not_isFault path ?_ ?_
  · cases refusal with
    | count | sides => exact show "RESOLVER_ERROR" ∉ faultCodes by decide
    | missing => exact show "NOT_FOUND" ∉ faultCodes by decide
  · cases refusal
    all_goals
      simp only [Reportable.message, ResolverError.ofReportable, String.append_assoc]
      exact ⟨_, _, rfl, by decide⟩

end Showcase

end SelectionEngine
