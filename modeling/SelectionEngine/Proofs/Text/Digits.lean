import Mathlib.Data.List.TakeDrop
import SelectionEngine.Text.Digits

namespace SelectionEngine

theorem span_append {α : Type} {kind : α → Bool} {part rest : List α} (all : ∀ a ∈ part, kind a = true)
    (stops : ∀ a ∈ rest.head?, kind a = false) : (part ++ rest).span kind = (part, rest) := by
  rw [List.span_eq_takeWhile_dropWhile, List.takeWhile_append_of_pos all, List.dropWhile_append_of_pos all]
  cases rest with
  | nil => simp
  | cons a rest => simp [stops a rfl]

theorem span_eq {α : Type} {kind : α → Bool} {list part rest : List α} (split : list.span kind = (part, rest)) :
    list = part ++ rest ∧ (∀ a ∈ part, kind a = true) ∧ ∀ a ∈ rest.head?, kind a = false := by
  rw [List.span_eq_takeWhile_dropWhile] at split
  obtain ⟨rfl, rfl⟩ := Prod.mk.inj split
  refine ⟨List.takeWhile_append_dropWhile.symm, List.all_eq_true.mp List.all_takeWhile, fun a head => ?_⟩
  have stops := List.head?_dropWhile_not kind list
  rw [Option.mem_def.mp head] at stops
  simpa using stops

namespace Text

theorem spanDigits_append {digits rest : List Char} (all : ∀ c ∈ digits, c.isDigit = true)
    (stops : ∀ c ∈ rest.head?, c.isDigit = false) : spanDigits (digits ++ rest) = (digits, rest) :=
  span_append all stops

theorem digit?_ten {c : Char} (digit : c.isDigit = true) : digit? 10 c = some (c.toNat - '0'.toNat) := by
  have bounds : '0' ≤ c ∧ c ≤ '9' := by simpa [Char.isDigit, Char.le_def] using digit
  have small : c.toNat - '0'.toNat < 10 := by
    have upper : c.toNat ≤ '9'.toNat := Char.le_def.mp bounds.2
    have nine : '9'.toNat = 57 := rfl
    have zero : '0'.toNat = 48 := rfl
    omega
  simp only [digit?, if_pos bounds]
  exact Option.filter_eq_some_iff.mpr ⟨rfl, decide_eq_true small⟩

theorem natural?_ten {digits : List Char} (present : digits ≠ []) (all : ∀ c ∈ digits, c.isDigit = true) :
    natural? 10 digits = some (Nat.ofDigitChars 10 digits 0) := by
  rw [natural?, if_neg (by simpa using present)]
  generalize 0 = value
  clear present
  induction digits generalizing value with
  | nil => rfl
  | cons c digits ih =>
    obtain ⟨first, others⟩ := List.forall_mem_cons.mp all
    rw [List.foldlM_cons, digit?_ten first, Nat.ofDigitChars_cons]
    exact ih others _

theorem digit?_of_natural? {base value : Nat} {digits : List Char} (read : natural? base digits = some value) :
    ∀ c ∈ digits, (digit? base c).isSome = true := by
  have reads (digits : List Char) (start : Nat)
      (read : digits.foldlM (fun value c => (digit? base c).map (base * value + ·)) start = some value) :
      ∀ c ∈ digits, (digit? base c).isSome = true := by
    induction digits generalizing start with
    | nil => exact List.forall_mem_nil _
    | cons c digits ih =>
      rw [List.foldlM_cons] at read
      obtain ⟨next, known, others⟩ := Option.bind_eq_some_iff.mp read
      obtain ⟨digit, isDigit, _⟩ := Option.map_eq_some_iff.mp known
      exact List.forall_mem_cons.mpr ⟨Option.isSome_of_eq_some isDigit, ih next others⟩
  rw [natural?] at read
  split at read
  · cases read
  · exact reads digits 0 read

theorem isDigit_of_digit?_ten {c : Char} (digit : (digit? 10 c).isSome = true) : c.isDigit = true := by
  obtain ⟨value, known⟩ := Option.isSome_iff_exists.mp digit
  obtain ⟨known, small⟩ := Option.filter_eq_some_iff.mp known
  by_cases bounds : '0' ≤ c ∧ c ≤ '9'
  · simpa [Char.isDigit, Char.le_def] using bounds
  · -- a letter stands for ten or more
    rw [if_neg bounds] at known
    have below := of_decide_eq_true small
    split at known
    · have value := Option.some.inj known
      omega
    · split at known
      · have value := Option.some.inj known
        omega
      · cases known

theorem natural?_ten_eq_some_iff {digits : List Char} {n : Nat} : natural? 10 digits = some n ↔
    digits ≠ [] ∧ (∀ c ∈ digits, c.isDigit = true) ∧ Nat.ofDigitChars 10 digits 0 = n := by
  constructor
  · intro read
    have present : digits ≠ [] := by
      rintro rfl
      cases read
    have all (c : Char) (member : c ∈ digits) := isDigit_of_digit?_ten (digit?_of_natural? read c member)
    rw [natural?_ten present all] at read
    exact ⟨present, all, Option.some.inj read⟩
  · rintro ⟨present, all, rfl⟩
    exact natural?_ten present all

theorem isDigit_toDigits {n : Nat} {c : Char} (member : c ∈ Nat.toDigits 10 n) : c.isDigit = true :=
  Nat.isDigit_of_mem_toDigits (by decide) (by decide) member

theorem natural?_toDigits (n : Nat) : natural? 10 (Nat.toDigits 10 n) = some n := by
  rw [natural?_ten Nat.toDigits_ne_nil fun _ => isDigit_toDigits, Nat.ofDigitChars_toDigits (by decide) (by decide)]

theorem eq_of_toString_eq {m n : Nat} (same : toString m = toString n) : m = n := by
  have digits : Nat.toDigits 10 m = Nat.toDigits 10 n := by
    simpa only [Nat.toString_eq_ofList_toDigits, String.ofList_inj] using same
  have read := natural?_toDigits n
  rw [← digits, natural?_toDigits] at read
  exact Option.some.inj read

/-- The digits of a number start with a zero only if that is all of them. -/
theorem head?_toDigits {n : Nat} (positive : 0 < n) : (Nat.toDigits 10 n).head? ≠ some '0' := by
  induction n using Nat.strongRecOn with
  | ind n ih =>
    by_cases small : n < 10
    · rw [Nat.toDigits_of_lt_base small]
      have nonzero : ∀ digit < 10, 0 < digit → Nat.digitChar digit ≠ '0' := by decide
      simpa using nonzero n small positive
    · have shorter := ih (n / 10) (by omega) (by omega)
      rw [Nat.toDigits_of_base_le (by decide) (by omega)]
      cases digits : Nat.toDigits 10 (n / 10) with
      | nil => exact absurd digits Nat.toDigits_ne_nil
      | cons first others => simpa [digits] using shorter

/-- Whether a text spells a number: decimal digits, which may start with zeros,
after an optional `+`. -/
def Spells (text : List Char) (n : Nat) : Prop :=
  ∃ digits, (text = digits ∨ text = '+' :: digits) ∧ digits ≠ [] ∧ (∀ c ∈ digits, c.isDigit = true) ∧
    Nat.ofDigitChars 10 digits 0 = n

theorem spells_toDigits (n : Nat) : Spells (Nat.toDigits 10 n) n :=
  ⟨_, .inl rfl, Nat.toDigits_ne_nil, fun _ => isDigit_toDigits, Nat.ofDigitChars_toDigits (by decide) (by decide)⟩

theorem word64?_eq_some_iff {text : List Char} {n : Nat} :
    word64? text = some n ↔ Spells text n ∧ n < UInt64.size := by
  unfold word64?
  rw [Option.filter_eq_some_iff, decide_eq_true_iff, natural?_ten_eq_some_iff]
  refine and_congr_left fun _ => ⟨fun read => ?_, ?_⟩
  · split at read
    · next digits => exact ⟨digits, .inr rfl, read⟩
    · exact ⟨text, .inl rfl, read⟩
  · rintro ⟨digits, rfl | rfl, spelled⟩
    · split
      · next rest => cases spelled.2.1 '+' (.head _)
      · exact spelled
    · exact spelled

theorem word64?_eq_none_iff {text : List Char} : word64? text = none ↔ ∀ n < UInt64.size, ¬ Spells text n := by
  simp only [Option.eq_none_iff_forall_ne_some, ne_eq, word64?_eq_some_iff, not_and']

end Text

end SelectionEngine
