import Mathlib.Data.List.Forall2

namespace SelectionEngine

variable {ε α β : Type}

theorem bind_eq_ok {first : Except ε α} {next : α → Except ε β} {b : β} :
    first >>= next = .ok b ↔ ∃ a, first = .ok a ∧ next a = .ok b := by
  cases first <;> simp [bind, Except.bind]

theorem bind_eq_error {first : Except ε α} {next : α → Except ε β} {error : ε} :
    first >>= next = .error error ↔ first = .error error ∨ ∃ a, first = .ok a ∧ next a = .error error := by
  cases first <;> simp [bind, Except.bind]

theorem map_eq_error {f : α → β} {first : Except ε α} {error : ε} :
    first.map f = .error error ↔ first = .error error := by
  cases first <;> simp [Except.map]

theorem map_eq_ok {f : α → β} {first : Except ε α} {b : β} :
    first.map f = .ok b ↔ ∃ a, first = .ok a ∧ f a = b := by
  cases first <;> simp [Except.map]

theorem map_map {γ : Type} (f : α → β) (g : β → γ) (first : Except ε α) :
    (first.map f).map g = first.map (g ∘ f) := by
  cases first <;> rfl

theorem exists_of_toOption {f : α → β} {outcome : Except ε α} {b : β} (known : outcome.toOption.map f = some b) :
    ∃ a, outcome = .ok a ∧ f a = b := by
  cases outcome with
  | error error => cases known
  | ok a => exact ⟨a, rfl, Option.some.inj known⟩

/-- Two checks pass if each of them does. -/
theorem check_bind_eq_ok {first : Except ε Unit} {next : Unit → Except ε α} {a : α} :
    first >>= next = .ok a ↔ first = .ok () ∧ next () = .ok a :=
  bind_eq_ok.trans ⟨fun ⟨_, passed, rest⟩ => ⟨passed, rest⟩, fun ⟨passed, rest⟩ => ⟨(), passed, rest⟩⟩

/-- A check of several things passes if it passes for each of them. -/
theorem forM_eq_ok {check : α → Except ε Unit} {items : List α} :
    items.forM check = .ok () ↔ ∀ item ∈ items, check item = .ok () := by
  induction items with
  | nil => simp [List.forM, pure, Except.pure]
  | cons item items ih => rw [List.forM, check_bind_eq_ok, List.forall_mem_cons, ih]

theorem foldlM_cons_eq_ok {f : β → α → Except ε β} {item : α} {items : List α} {start result : β} :
    (item :: items).foldlM f start = .ok result ↔
      ∃ next, f start item = .ok next ∧ items.foldlM f next = .ok result := by
  rw [List.foldlM_cons, bind_eq_ok]

theorem mapM_eq_ok_map {γ : Type} {f : β → Except ε γ} {g : α → β} {h : α → γ} {items : List α}
    (each : ∀ item ∈ items, f (g item) = .ok (h item)) : (items.map g).mapM f = .ok (items.map h) := by
  induction items with
  | nil => rfl
  | cons item items ih =>
    obtain ⟨first, others⟩ := List.forall_mem_cons.mp each
    rw [List.map_cons, List.mapM_cons, first, ih others]
    rfl

/-- Lists of which the items come to the same pairwise come to the same. -/
theorem mapM_eq_of_forall₂ {γ : Type} {f : α → Except ε β} {g : γ → Except ε β} {items : List α} {others : List γ}
    (each : List.Forall₂ (fun item other => f item = g other) items others) : items.mapM f = others.mapM g := by
  induction each with
  | nil => rfl
  | cons first _ ih => rw [List.mapM_cons, List.mapM_cons, first, ih]

theorem mapM_congr {f g : α → Except ε β} {items : List α} (each : ∀ item ∈ items, f item = g item) :
    items.mapM f = items.mapM g :=
  mapM_eq_of_forall₂ (List.forall₂_same.mpr each)

theorem map_of_mapM {γ : Type} {f : α → Except ε β} {g : β → γ} {h : α → γ} {items : List α} {results : List β}
    (each : ∀ item result, f item = .ok result → g result = h item) (known : items.mapM f = .ok results) :
    results.map g = items.map h := by
  induction items generalizing results with
  | nil =>
    cases known
    rfl
  | cons item items ih =>
    rw [List.mapM_cons] at known
    obtain ⟨first, knownFirst, rest⟩ := bind_eq_ok.mp known
    obtain ⟨others, knownOthers, same⟩ := bind_eq_ok.mp rest
    cases same
    rw [List.map_cons, List.map_cons, each item first knownFirst, ih knownOthers]

theorem exists_of_mapM {f : α → Except ε β} {items : List α} {results : List β}
    (known : items.mapM f = .ok results) : ∀ result ∈ results, ∃ item ∈ items, f item = .ok result := by
  induction items generalizing results with
  | nil =>
    cases known
    exact nofun
  | cons item items ih =>
    rw [List.mapM_cons] at known
    obtain ⟨first, knownFirst, rest⟩ := bind_eq_ok.mp known
    obtain ⟨others, knownOthers, same⟩ := bind_eq_ok.mp rest
    cases same
    intro result member
    rcases List.mem_cons.mp member with rfl | later
    · exact ⟨item, .head _, knownFirst⟩
    · obtain ⟨item, listed, knownItem⟩ := ih knownOthers result later
      exact ⟨item, .tail _ listed, knownItem⟩

theorem ok_of_mapM {f : α → Except ε β} {items : List α} {results : List β} (known : items.mapM f = .ok results) :
    ∀ item ∈ items, ∃ result, f item = .ok result := by
  induction items generalizing results with
  | nil => exact nofun
  | cons item items ih =>
    rw [List.mapM_cons] at known
    obtain ⟨first, knownFirst, rest⟩ := bind_eq_ok.mp known
    obtain ⟨others, knownOthers, _⟩ := bind_eq_ok.mp rest
    exact List.forall_mem_cons.mpr ⟨⟨first, knownFirst⟩, ih knownOthers⟩

/-- Items are tried in turn, and the first one that fails makes them all fail. -/
theorem first_error_of_mapM {f : α → Except ε β} {items : List α} {error : ε}
    (failed : items.mapM f = .error error) : ∃ (n : Nat) (item : α), items[n]? = some item ∧ f item = .error error ∧
      ∀ m < n, ∀ other, items[m]? = some other → ∃ result, f other = .ok result := by
  induction items with
  | nil => cases failed
  | cons item items ih =>
    rw [List.mapM_cons] at failed
    rcases bind_eq_error.mp failed with here | ⟨result, first, rest⟩
    · exact ⟨0, item, rfl, here, nofun⟩
    · obtain ⟨n, found, atIndex, fails, before⟩ := ih ((bind_eq_error.mp rest).resolve_right nofun)
      refine ⟨n + 1, found, atIndex, fails, ?_⟩
      rintro (_ | m) earlier other atOther
      · obtain rfl := Option.some.inj atOther
        exact ⟨result, first⟩
      · exact before m (Nat.lt_of_succ_lt_succ earlier) other atOther

/-- Items that all succeed succeed together. -/
theorem exists_mapM_eq_ok {f : α → Except ε β} {items : List α}
    (each : ∀ item ∈ items, ∃ result, f item = .ok result) : ∃ results, items.mapM f = .ok results := by
  cases outcome : items.mapM f with
  | ok results => exact ⟨results, rfl⟩
  | error error =>
    obtain ⟨n, item, atIndex, fails, _⟩ := first_error_of_mapM outcome
    obtain ⟨result, passes⟩ := each item (List.mem_of_getElem? atIndex)
    cases fails.symm.trans passes

end SelectionEngine
