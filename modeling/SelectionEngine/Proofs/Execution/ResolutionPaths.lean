import Mathlib.Data.List.Forall2
import SelectionEngine.Proofs.Entries
import SelectionEngine.Proofs.Execution.Account

namespace SelectionEngine

theorem forall₂_of_getElem? {α β : Type} {R : α → β → Prop} {as : List α} {bs : List β}
    (length : as.length = bs.length) (each : ∀ (n : Nat) a b, as[n]? = some a → bs[n]? = some b → R a b) :
    List.Forall₂ R as bs :=
  List.forall₂_of_length_eq_of_get length fun n inFirst inSecond =>
    each n _ _ (List.getElem?_eq_getElem inFirst) (List.getElem?_eq_getElem inSecond)

theorem exists_beside {α β : Type} {as : List α} {bs : List β} (length : bs.length = as.length) {b : β}
    (member : b ∈ bs) : ∃ (n : Nat) (a : α), as[n]? = some a ∧ bs[n]? = some b := by
  obtain ⟨n, inRange, rfl⟩ := List.mem_iff_getElem.mp member
  have beside : n < as.length := length ▸ inRange
  exact ⟨n, as[n], List.getElem?_eq_getElem beside, List.getElem?_eq_getElem inRange⟩

theorem PathElement.nodup_keys {keys : List String} (distinct : keys.Nodup) : (keys.map key).Nodup :=
  distinct.map fun _ _ => PathElement.key.inj

theorem PathElement.nodup_indices (n : Nat) : ((List.range n).map index).Nodup :=
  List.nodup_range.map fun _ _ => PathElement.index.inj

theorem Path.prefix_join {path : Path} {element : PathElement} : path <+: path.join element :=
  List.prefix_append _ _

/-- Only one step leads from a path towards a place below it. -/
theorem Path.eq_of_join_prefix {path place : Path} {element other : PathElement}
    (one : path.join element <+: place) (two : path.join other <+: place) : element = other := by
  have sameLength : (path.join element).length = (path.join other).length := by simp [join]
  have same : path.join element = path.join other :=
    (List.prefix_of_prefix_length_le one two (Nat.le_of_eq sameLength)).eq_of_length sameLength
  simpa [join] using same

/-- The place of the field that was asked for its value. -/
def Resolution.path (resolution : Resolution) : Path := resolution.info.path

/-- The value that the field at a path was resolved to, unless
its resolver failed. -/
def Resolution.valueAt? (resolutions : List Resolution) (path : Path) : Option Value :=
  (resolutions.find? fun resolution => resolution.path = path).bind fun resolution =>
    resolution.outcome.toOption

theorem Resolution.valueAt?_path {resolutions : List Resolution} {resolution : Resolution}
    (distinct : (resolutions.map path).Nodup) (member : resolution ∈ resolutions) :
    valueAt? resolutions resolution.path = resolution.outcome.toOption := by
  rw [valueAt?, find?_eq_some_of_nodup distinct member, Option.bind_some]

namespace Account

variable {path : Path} {elements : List PathElement} {accounts : List Account}

/-- The fields that were asked for their values are different ones, and all of
them lie below the path. -/
def Below (path : Path) (account : Account) : Prop :=
  (account.resolutions.map Resolution.path).Nodup ∧ ∀ resolution ∈ account.resolutions, path <+: resolution.path

theorem below_parts (distinct : elements.Nodup)
    (parts : List.Forall₂ (fun element account => Below (path.join element) account) elements accounts) :
    ((accounts.flatMap resolutions).map Resolution.path).Nodup ∧
      ∀ resolution ∈ accounts.flatMap resolutions, ∃ element ∈ elements,
        path.join element <+: resolution.path := by
  induction parts with
  | nil => simp
  | @cons element account elements accounts first _ ih =>
    obtain ⟨absent, distinct⟩ := List.nodup_cons.mp distinct
    obtain ⟨nodupRest, below⟩ := ih distinct
    simp only [List.flatMap_cons, List.map_append, List.mem_append]
    refine ⟨List.nodup_append.mpr ⟨first.1, nodupRest, ?_⟩, ?_⟩
    · rintro _ inFirst _ inRest rfl
      obtain ⟨one, oneMember, onePath⟩ := List.mem_map.mp inFirst
      obtain ⟨two, twoMember, twoPath⟩ := List.mem_map.mp inRest
      obtain ⟨other, otherMember, otherBelow⟩ := below two twoMember
      obtain rfl : element = other :=
        Path.eq_of_join_prefix (onePath ▸ first.2 one oneMember) (twoPath ▸ otherBelow)
      exact absent otherMember
    · rintro resolution (member | member)
      · exact ⟨element, .head _, first.2 resolution member⟩
      · obtain ⟨other, otherMember, otherBelow⟩ := below resolution member
        exact ⟨other, .tail _ otherMember, otherBelow⟩

theorem within_parts (distinct : elements.Nodup)
    (parts : List.Forall₂ (fun element account => Below (path.join element) account) elements accounts) :
    ((accounts.flatMap resolutions).map Resolution.path).Nodup ∧
      ∀ resolution ∈ accounts.flatMap resolutions, ∃ element, path.join element <+: resolution.path := by
  obtain ⟨nodup, below⟩ := below_parts distinct parts
  exact ⟨nodup, fun resolution member => (below resolution member).imp fun _ => And.right⟩

end Account

/-- Where the fields lie that are asked for their values below a part. -/
def Subject.Owns {ρ : Type} : Subject ρ → Path → Path → Prop
  | .group _ _ fields, path, below => path.join (.key fields.key) <+: below
  | _, path, below => ∃ element, path.join element <+: below

namespace Executes

variable {ρ : Type} {schema : Schema ρ} {variableValues : Object}

/-- No field is asked for its value twice, and those that are asked below a
part lie below its path. -/
theorem paths {subject : Subject ρ} {path : Path} {account : Account}
    (executes : Executes schema variableValues subject path account) :
    (account.resolutions.map Resolution.path).Nodup ∧
      ∀ resolution ∈ account.resolutions, subject.Owns path resolution.path := by
  induction executes with
  | @object type selections parent path accounts length _ ih =>
    have parts : List.Forall₂ (fun element account => Account.Below (path.join element) account)
        (((schema.fieldGroups type selections).map FieldGroup.key).map .key) accounts := by
      rw [List.forall₂_map_left_iff, List.forall₂_map_left_iff]
      exact forall₂_of_getElem? length.symm ih
    exact Account.within_parts (PathElement.nodup_keys (schema.nodup_fieldGroups type selections)) parts
  | @list site inner path items accounts length _ ih =>
    have parts : List.Forall₂ (fun element account => Account.Below (path.join element) account)
        ((List.range items.length).map .index) accounts := by
      rw [List.forall₂_map_left_iff]
      refine forall₂_of_getElem? (by simp [length]) fun n index account atIndex atAccount => ?_
      obtain ⟨inRange, rfl⟩ := List.getElem?_eq_some_iff.mp atIndex
      have inItems : n < items.length := by simpa using inRange
      have paths := ih n items[n] account (List.getElem?_eq_getElem inItems) atAccount
      rw [List.getElem_range]
      exact ⟨paths.1, fun resolution member =>
        (paths.2 resolution member).elim fun _ below => Path.prefix_join.trans below⟩
    exact Account.within_parts (PathElement.nodup_indices items.length) parts
  | typename | badArguments | null | scalar | leaf | rejected => simp
  | unresolved => simp [Subject.Owns, Resolution.path, FieldGroup.info]
  | @resolved type parent group path field arguments value account _ _ _ _ ih =>
    have below (resolution : Resolution) (member : resolution ∈ account.resolutions) :
        path.join (.key group.key) <+: resolution.path ∧ resolution.path ≠ path.join (.key group.key) := by
      obtain ⟨element, below⟩ := ih.2 resolution member
      refine ⟨Path.prefix_join.trans below, fun same => ?_⟩
      have shorter := below.length_le
      simp [same, Path.join] at shorter
    refine ⟨List.nodup_cons.mpr ⟨fun member => ?_, ih.1⟩, ?_⟩
    · obtain ⟨resolution, inside, same⟩ := List.mem_map.mp member
      exact (below resolution inside).2 same
    · rintro resolution (_ | ⟨_, member⟩)
      · exact List.prefix_refl _
      · exact (below resolution member).1
  | strict _ ih | lenient _ _ ih | wrapped _ _ ih | named _ _ ih => exact ih

/-- The fields of an account are found at their paths among those that were
asked for their values. -/
theorem recorded {subject : Subject ρ} {path : Path} {account : Account}
    (executes : Executes schema variableValues subject path account) {resolutions : List Resolution}
    (log : resolutions.Perm account.resolutions) : ∀ resolution ∈ account.resolutions,
      Resolution.valueAt? resolutions resolution.path = resolution.outcome.toOption := by
  intro resolution member
  have distinct : (resolutions.map Resolution.path).Nodup :=
    (log.map Resolution.path).nodup_iff.mpr executes.paths.1
  exact Resolution.valueAt?_path distinct (log.symm.subset member)

end Executes

end SelectionEngine
