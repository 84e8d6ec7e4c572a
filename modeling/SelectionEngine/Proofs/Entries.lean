import Mathlib.Data.List.Nodup
import Mathlib.Data.Option.Basic
import SelectionEngine.Entries

namespace SelectionEngine

/-- Where keys are distinct, a member is found by its key. -/
theorem find?_eq_some_of_nodup {α κ : Type} [DecidableEq κ] {key : α → κ} {as : List α} {a : α}
    (distinct : (as.map key).Nodup) (member : a ∈ as) : as.find? (fun other => key other = key a) = some a := by
  cases found : as.find? (fun other => key other = key a) with
  | none => simpa using List.find?_eq_none.mp found a member
  | some other =>
    have same : key other = key a := by simpa using List.find?_some found
    rw [List.inj_on_of_nodup_map distinct (List.mem_of_find?_eq_some found) member same]

namespace Entries

variable {κ α β : Type} [DecidableEq κ]

theorem get?_map (f : α → β) (entries : Entries κ α) (key : κ) :
    get? key (entries.map fun entry => (entry.1, f entry.2)) = (get? key entries).map f := by
  induction entries with
  | nil => rfl
  | cons entry rest ih =>
    simp only [List.map_cons, get?]
    split
    · rfl
    · exact ih

theorem get?_set (key other : κ) (value : α) (entries : Entries κ α) :
    get? other (set key value entries) = if key = other then some value else get? other entries := by
  induction entries with
  | nil => rfl
  | cons entry rest ih =>
    simp only [set]
    by_cases first : entry.1 = key
    · rw [if_pos first]
      simp only [get?, first]
      split <;> rfl
    · rw [if_neg first]
      simp only [get?, ih]
      by_cases here : entry.1 = other
      · rw [if_pos here, if_pos here, if_neg fun same => first (here.trans same.symm)]
      · rw [if_neg here, if_neg here]

theorem set_set (key : κ) (first second : α) (entries : Entries κ α) :
    set key second (set key first entries) = set key second entries := by
  induction entries with
  | nil => exact if_pos rfl
  | cons entry rest ih =>
    by_cases here : entry.1 = key
    · simp [set, here]
    · simp only [set, if_neg here, ih]

/-- The order in which two keys are set does not matter if one of
them is there already. -/
theorem set_comm {one two : κ} (apart : one ≠ two) {entries : Entries κ α} (present : entries.contains one)
    (a b : α) : set one a (set two b entries) = set two b (set one a entries) := by
  induction entries with
  | nil => cases present
  | cons entry rest ih =>
    by_cases first : entry.1 = one
    · have other : entry.1 ≠ two := first ▸ apart
      simp only [set, if_pos first, if_neg other, if_neg apart]
    · by_cases second : entry.1 = two
      · simp only [set, if_pos second, if_neg first, if_neg (Ne.symm apart)]
      · have later : contains rest one := by simpa only [contains, get?, if_neg first] using present
        simp only [set, if_neg first, if_neg second, ih later]

theorem map_set (f : α → β) (key : κ) (value : α) (entries : Entries κ α) :
    (set key value entries).map (fun entry => (entry.1, f entry.2)) =
      set key (f value) (entries.map fun entry => (entry.1, f entry.2)) := by
  induction entries with
  | nil => rfl
  | cons entry rest ih =>
    simp only [set, List.map_cons]
    split
    · rfl
    · rw [List.map_cons, ih]

theorem mem_of_get? {key : κ} {value : α} {entries : Entries κ α} (found : get? key entries = some value) :
    (key, value) ∈ entries := by
  induction entries with
  | nil => cases found
  | cons entry rest ih =>
    obtain ⟨first, held⟩ := entry
    by_cases here : first = key
    · obtain rfl : held = value := by simpa [get?, here] using found
      exact here ▸ .head _
    · exact .tail _ (ih (by simpa only [get?, if_neg here] using found))

theorem mem_values_of_get? {key : κ} {value : α} {entries : Entries κ α} (found : get? key entries = some value) :
    value ∈ entries.values :=
  List.mem_map.mpr ⟨_, mem_of_get? found, rfl⟩

theorem get?_eq_none_of_contains {key : κ} {entries : Entries κ α} (absent : ¬ entries.contains key) :
    get? key entries = none := by
  simpa [contains] using absent

theorem get?_eq_none_of_keys {key : κ} {entries : Entries κ α} (absent : key ∉ entries.keys) :
    get? key entries = none := by
  cases found : get? key entries with
  | none => rfl
  | some value => exact absurd (List.mem_map.mpr ⟨_, mem_of_get? found, rfl⟩) absent

theorem get?_append (key : κ) (first second : Entries κ α) :
    get? key (first ++ second) = (get? key first).or (get? key second) := by
  induction first with
  | nil => rfl
  | cons entry first ih =>
    rw [List.cons_append, get?, get?, ih]
    split <;> rfl

/-- A new key goes to the end. -/
theorem set_of_get?_eq_none {key : κ} {value : α} {entries : Entries κ α} (absent : get? key entries = none) :
    set key value entries = entries ++ [(key, value)] := by
  induction entries with
  | nil => rfl
  | cons entry rest ih =>
    simp only [get?] at absent
    split at absent
    · cases absent
    · next other => simp only [set, if_neg other, ih absent, List.cons_append]

/-- Where keys are distinct, an entry is found under its key. -/
theorem get?_eq_some_iff {key : κ} {value : α} {entries : Entries κ α} (distinct : entries.Distinct) :
    get? key entries = some value ↔ (key, value) ∈ entries := by
  refine ⟨mem_of_get?, fun member => ?_⟩
  induction entries with
  | nil => cases member
  | cons entry rest ih =>
    obtain ⟨first, held⟩ := entry
    obtain ⟨absent, distinct⟩ := List.nodup_cons.mp distinct
    rcases List.mem_cons.mp member with same | later
    · obtain ⟨rfl, rfl⟩ := Prod.mk.inj same
      exact if_pos rfl
    · have other : first ≠ key := by
        rintro rfl
        exact absent (List.mem_map.mpr ⟨_, later, rfl⟩)
      rw [get?, if_neg other]
      exact ih distinct later

/-- Where keys are distinct, what is found does not depend on the
order of the entries. -/
theorem get?_of_perm {entries others : Entries κ α} (distinct : entries.Distinct)
    (perm : entries.Perm others) (key : κ) :
    get? key entries = get? key others := by
  have otherDistinct : others.Distinct := (perm.map Prod.fst).nodup_iff.mp distinct
  ext value
  rw [get?_eq_some_iff distinct, get?_eq_some_iff otherDistinct, perm.mem_iff]

theorem mem_of_mem_set {key : κ} {value : α} {entries : Entries κ α} {entry : κ × α}
    (member : entry ∈ set key value entries) : entry = (key, value) ∨ entry ∈ entries := by
  induction entries with
  | nil => exact .inl (List.mem_singleton.mp member)
  | cons first rest ih =>
    rw [set] at member
    split at member
    · exact (List.mem_cons.mp member).imp_right (.tail _)
    · rcases List.mem_cons.mp member with rfl | later
      · exact .inr (.head _)
      · exact (ih later).imp_right (.tail _)

theorem distinct_set {entries : Entries κ α} (distinct : entries.Distinct) (key : κ) (value : α) :
    (set key value entries).Distinct := by
  induction entries with
  | nil => exact List.nodup_cons.mpr ⟨List.not_mem_nil, List.nodup_nil⟩
  | cons first rest ih =>
    obtain ⟨absent, others⟩ := List.nodup_cons.mp distinct
    rw [set]
    split
    · next same => exact List.nodup_cons.mpr ⟨same ▸ absent, others⟩
    · next other =>
      refine List.nodup_cons.mpr ⟨fun member => ?_, ih others⟩
      obtain ⟨entry, member, same⟩ := List.mem_map.mp member
      rcases mem_of_mem_set member with rfl | earlier
      · exact other same.symm
      · exact absent (List.mem_map.mpr ⟨entry, earlier, same⟩)

/-- Where keys are distinct, setting a present one changes its
entry and no other. -/
theorem set_eq_map {key : κ} {value old : α} {entries : Entries κ α} (distinct : entries.Distinct)
    (found : get? key entries = some old) :
    set key value entries = entries.map fun entry => if entry.1 = key then (key, value) else entry := by
  induction entries with
  | nil => cases found
  | cons first rest ih =>
    obtain ⟨absent, others⟩ := List.nodup_cons.mp distinct
    rw [set, List.map_cons]
    by_cases here : first.1 = key
    · have kept : rest.map (fun entry => if entry.1 = key then (key, value) else entry) = rest := by
        refine (List.map_congr_left fun entry member => if_neg fun same => absent ?_).trans (List.map_id rest)
        exact List.mem_map.mpr ⟨entry, member, same.trans here.symm⟩
      rw [if_pos here, if_pos here, kept]
    · have later : get? key rest = some old := by simpa only [get?, if_neg here] using found
      rw [if_neg here, if_neg here, ih others later]

/-- New keys come after all others. -/
theorem prefix_keys_set (key : κ) (value : α) (entries : Entries κ α) :
    entries.keys <+: (set key value entries).keys := by
  induction entries with
  | nil => exact List.nil_prefix
  | cons first rest ih =>
    rw [set]
    split
    · next same => exact same ▸ List.prefix_refl _
    · exact List.prefix_cons_inj first.1 |>.mpr ih

theorem prefix_keys_overwrite (entries patch : Entries κ α) : entries.keys <+: (overwrite entries patch).keys := by
  induction patch generalizing entries with
  | nil => exact List.prefix_refl _
  | cons entry patch ih => exact (prefix_keys_set entry.1 entry.2 entries).trans (ih (set entry.1 entry.2 entries))

/-- An entry that is not overwritten can be set aside. -/
theorem overwrite_cons {first : κ × α} {entries patch : Entries κ α} (apart : ∀ entry ∈ patch, first.1 ≠ entry.1) :
    overwrite (first :: entries) patch = first :: overwrite entries patch := by
  induction patch generalizing entries with
  | nil => rfl
  | cons entry patch ih =>
    obtain ⟨other, apart⟩ := List.forall_mem_cons.mp apart
    have kept : set entry.1 entry.2 (first :: entries) = first :: set entry.1 entry.2 entries := by
      rw [set, if_neg other]
    rw [overwrite, List.foldl_cons, kept]
    exact ih apart

theorem distinct_overwrite {entries : Entries κ α} (distinct : entries.Distinct) (patch : Entries κ α) :
    (overwrite entries patch).Distinct := by
  induction patch generalizing entries with
  | nil => exact distinct
  | cons entry patch ih => exact ih (distinct_set distinct entry.1 entry.2)

theorem mem_of_mem_overwrite {entries patch : Entries κ α} {entry : κ × α}
    (member : entry ∈ overwrite entries patch) : entry ∈ entries ∨ entry ∈ patch := by
  induction patch generalizing entries with
  | nil => exact .inl member
  | cons first patch ih =>
    rcases ih member with earlier | later
    · rcases mem_of_mem_set earlier with rfl | earlier
      · exact .inr (.head _)
      · exact .inl earlier
    · exact .inr (.tail _ later)

theorem overwrite_append {entries patch : Entries κ α} (distinct : Distinct (entries ++ patch)) :
    overwrite entries patch = entries ++ patch := by
  induction patch generalizing entries with
  | nil => rw [List.append_nil]; rfl
  | cons entry patch ih =>
    have shape : entries ++ entry :: patch = (entries ++ [entry]) ++ patch := by simp
    have fresh : get? entry.1 entries = none := by
      refine get?_eq_none_of_keys fun member => ?_
      have keys : (entries ++ entry :: patch).keys = entries.keys ++ entry.1 :: Entries.keys patch := by
        simp [Entries.keys]
      rw [Distinct, keys] at distinct
      exact (List.nodup_append.mp distinct).2.2 _ member _ (.head _) rfl
    rw [overwrite, List.foldl_cons, set_of_get?_eq_none fresh, shape]
    exact ih (shape ▸ distinct)

theorem ofList_of_distinct {entries : Entries κ α} (distinct : entries.Distinct) :
    ofList entries = entries :=
  overwrite_append distinct

theorem contains_iff_mem_keys {entries : Entries κ α} {key : κ} :
    entries.contains key = true ↔ key ∈ entries.keys := by
  induction entries with
  | nil => simp [contains, get?, keys]
  | cons entry entries ih =>
    rw [contains] at ih ⊢
    rw [get?, keys, List.map_cons, List.mem_cons]
    split
    · next same => simp [same]
    · next other => rw [ih, keys, or_iff_right (Ne.symm other)]

theorem contains_set (key other : κ) (value : α) (entries : Entries κ α) :
    contains (set key value entries) other = (decide (key = other) || contains entries other) := by
  rw [contains, get?_set]
  split
  · next same => simp [same]
  · next apart => simp [apart, contains]

/-- A key that is there and is not overwritten can be set before or after. -/
theorem set_overwrite {key : κ} {entries patch : Entries κ α} (present : entries.contains key)
    (absent : key ∉ patch.keys) (value : α) :
    set key value (overwrite entries patch) = overwrite (set key value entries) patch := by
  induction patch generalizing entries with
  | nil => rfl
  | cons entry patch ih =>
    obtain ⟨apart, absent⟩ : key ≠ entry.1 ∧ key ∉ Entries.keys patch := by
      simpa [keys] using absent
    have still : contains (set entry.1 entry.2 entries) key := by simp [contains_set, present]
    have swapped := set_comm apart present value entry.2
    rw [overwrite, List.foldl_cons, overwrite, List.foldl_cons, ← swapped]
    exact ih still absent

theorem overwrite_set {patch : Entries κ α} (distinct : patch.Distinct) (key : κ) (value : α)
    (entries : Entries κ α) :
    overwrite entries (set key value patch) = set key value (overwrite entries patch) := by
  induction patch generalizing entries with
  | nil => rfl
  | cons entry patch ih =>
    obtain ⟨absent, others⟩ := List.nodup_cons.mp distinct
    rw [set]
    split
    · next same =>
      have present : contains (set entry.1 entry.2 entries) key := by simp [contains_set, same]
      have again : set key value (set entry.1 entry.2 entries) = set key value entries :=
        same ▸ set_set entry.1 entry.2 value entries
      calc overwrite (set key value entries) patch
          = overwrite (set key value (set entry.1 entry.2 entries)) patch := by rw [again]
        _ = set key value (overwrite (set entry.1 entry.2 entries) patch) :=
          (set_overwrite present (same ▸ absent) value).symm
    · exact ih others (set entry.1 entry.2 entries)

/-- Two patches one after the other are one patch, the first
overwritten by the second. -/
theorem overwrite_overwrite {patch : Entries κ α} (distinct : patch.Distinct) (entries later : Entries κ α) :
    overwrite (overwrite entries patch) later = overwrite entries (overwrite patch later) := by
  induction later generalizing patch with
  | nil => rfl
  | cons entry later ih =>
    calc overwrite (set entry.1 entry.2 (overwrite entries patch)) later
        = overwrite (overwrite entries (set entry.1 entry.2 patch)) later := by rw [overwrite_set distinct]
      _ = overwrite entries (overwrite (set entry.1 entry.2 patch) later) :=
        ih (distinct_set distinct entry.1 entry.2)

/-- Overwriting gives present keys their new values at their places, and
new keys go to the end. -/
theorem overwrite_eq {patch later : Entries κ α} (distinct : patch.Distinct) (laterDistinct : later.Distinct) :
    overwrite patch later = (patch.map fun entry => (entry.1, (get? entry.1 later).getD entry.2)) ++
      later.filter fun entry => !contains patch entry.1 := by
  induction later generalizing patch with
  | nil => simp [overwrite, get?]
  | cons entry later ih =>
    obtain ⟨key, value⟩ := entry
    obtain ⟨fresh, others⟩ : key ∉ Entries.keys later ∧ Entries.Distinct later := List.nodup_cons.mp laterDistinct
    have gone : get? key later = none := get?_eq_none_of_keys fresh
    have step := ih (distinct_set distinct key value) others
    have rest : later.filter (fun entry => !contains (set key value patch) entry.1) =
        later.filter (fun entry => !contains patch entry.1) := by
      refine List.filter_congr fun entry member => ?_
      have apart : key ≠ entry.1 := by
        rintro rfl
        exact fresh (List.mem_map_of_mem member)
      simp [contains_set, apart]
    rw [rest] at step
    refine step.trans ?_
    cases found : get? key patch with
    | none =>
      have absent : contains patch key = false := by simp [contains, found]
      have kept : patch.map (fun entry => (entry.1, (get? entry.1 later).getD entry.2)) =
          patch.map fun entry => (entry.1, (get? entry.1 ((key, value) :: later)).getD entry.2) := by
        refine List.map_congr_left fun entry member => ?_
        have apart : key ≠ entry.1 := by
          rintro rfl
          have known := (get?_eq_some_iff distinct).mpr member
          rw [found] at known
          cases known
        rw [get?, if_neg apart]
      rw [set_of_get?_eq_none found, List.map_append, kept, List.filter_cons_of_pos (by simp [absent])]
      simp [gone]
    | some old =>
      have present : contains patch key = true := by simp [contains, found]
      rw [set_eq_map distinct found, List.map_map, List.filter_cons_of_neg (by simp [present])]
      refine congrArg (· ++ _) (List.map_congr_left fun entry member => ?_)
      dsimp only [Function.comp_apply]
      rw [get?]
      by_cases here : entry.1 = key
      · rw [if_pos here, if_pos here.symm, gone]
        simp [here]
      · rw [if_neg here, if_neg (Ne.symm here)]

theorem overwrite_self {entries : Entries κ α} (distinct : entries.Distinct) :
    overwrite entries entries = entries := by
  have known {entry : κ × α} (member : entry ∈ entries) : get? entry.1 entries = some entry.2 :=
    (get?_eq_some_iff distinct).mpr member
  have kept : entries.map (fun entry => (entry.1, (get? entry.1 entries).getD entry.2)) = entries := by
    refine (List.map_congr_left fun entry member => ?_).trans (List.map_id entries)
    rw [known member]
    rfl
  have none : entries.filter (fun entry => !contains entries entry.1) = [] :=
    List.filter_eq_nil_iff.mpr fun entry member => by simp [contains, known member]
  rw [overwrite_eq distinct distinct, kept, none, List.append_nil]

/-- What is set among some of the keys. -/
theorem filter_set (keep : κ → Bool) (key : κ) (value : α) (entries : Entries κ α) :
    (set key value entries).filter (fun entry => keep entry.1) =
      if keep key then set key value (entries.filter fun entry => keep entry.1)
      else entries.filter fun entry => keep entry.1 := by
  induction entries with
  | nil => cases kept : keep key <;> simp [set, kept]
  | cons entry rest ih =>
    rw [set]
    by_cases here : entry.1 = key
    · cases kept : keep key <;> simp [here, kept, set]
    · rw [if_neg here, List.filter_cons, ih, List.filter_cons]
      cases kept : keep key <;> cases keep entry.1 <;> simp [set, here]

theorem filter_overwrite (keep : κ → Bool) (entries patch : Entries κ α) :
    (overwrite entries patch).filter (fun entry => keep entry.1) =
      overwrite (entries.filter fun entry => keep entry.1) (patch.filter fun entry => keep entry.1) := by
  induction patch generalizing entries with
  | nil => rfl
  | cons entry patch ih =>
    have step := ih (set entry.1 entry.2 entries)
    rw [filter_set] at step
    rw [overwrite, List.foldl_cons, List.filter_cons]
    refine step.trans ?_
    split <;> rfl

/-- Entries under the same keys are found together. -/
theorem rel_get? {R : α → β → Prop} {entries : Entries κ α} {others : Entries κ β} {key : κ}
    (contains : entries.contains key = others.contains key)
    (values : ∀ a b, get? key entries = some a → get? key others = some b → R a b) :
    Option.Rel R (get? key entries) (get? key others) := by
  rw [Entries.contains, Entries.contains] at contains
  cases found : get? key entries with
  | none =>
    cases present : get? key others with
    | none => exact .none
    | some b => simp [found, present] at contains
  | some a =>
    cases present : get? key others with
    | none => simp [found, present] at contains
    | some b => exact .some (values a b found present)

section

variable (f : α → Option β) {entries : Entries κ α}

omit [DecidableEq κ] in
theorem keys_filterMap_sublist (entries : Entries κ α) :
    (keys (entries.filterMap fun entry => (f entry.2).map (entry.1, ·))).Sublist entries.keys := by
  induction entries with
  | nil => exact .slnil
  | cons entry entries ih =>
    rw [List.filterMap_cons]
    cases f entry.2 with
    | none => exact ih.cons _
    | some b => exact ih.cons_cons _

theorem get?_filterMap (distinct : entries.Distinct) (key : κ) :
    get? key (entries.filterMap fun entry => (f entry.2).map (entry.1, ·)) = (get? key entries).bind f := by
  induction entries with
  | nil => rfl
  | cons entry entries ih =>
    obtain ⟨own, a⟩ := entry
    obtain ⟨fresh, others⟩ : own ∉ Entries.keys entries ∧ Entries.Distinct entries := List.nodup_cons.mp distinct
    rw [get?, List.filterMap_cons]
    by_cases same : own = key
    · subst same
      rw [if_pos rfl, Option.bind_some]
      cases value : f a with
      | none => exact get?_eq_none_of_keys fun member => fresh ((keys_filterMap_sublist f entries).subset member)
      | some b => exact if_pos rfl
    · rw [if_neg same]
      cases value : f a with
      | none => exact ih others
      | some b => exact (if_neg same).trans (ih others)

end

end Entries

end SelectionEngine
