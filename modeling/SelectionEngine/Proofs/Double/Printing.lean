import Mathlib.Data.List.TakeWhile
import SelectionEngine.Proofs.Definitions.Numeral
import SelectionEngine.Proofs.Double.Reading

namespace SelectionEngine.Double

open Definitions

theorem shiftLeft_mul_pow_five (n k : Nat) : (n * Nat.pow 5 k) <<< k = n * Nat.pow 10 k := by
  have split : Nat.pow 10 k = Nat.pow 5 k * 2 ^ k := Nat.mul_pow 5 2 k
  rw [Nat.shiftLeft_eq, split, Nat.mul_assoc]

/-- The places after the point are named, so that their power of
ten is never computed. -/
theorem readsBack_iff {d : Double} {multiple places : Nat} (known : places = 1074) :
    d.readsBack multiple = true ↔ nearest? d.negative multiple (Nat.pow 10 places) = some d := by
  rw [readsBack, ← known]
  exact beq_iff_eq

theorem readsBack_scaled (d : Double) : d.readsBack d.scaled = true := by
  obtain ⟨places, known⟩ : ∃ places, places = 1074 := ⟨_, rfl⟩
  refine (readsBack_iff known).mpr (d.nearest?_magnitude (pow_ten_pos places) ?_)
  rw [scaled, ← known]
  exact shiftLeft_mul_pow_five _ places

/-- The shortest digits are read back, also where none of few digits are. -/
theorem readsBack_shortest (d : Double) : d.readsBack d.shortest = true := by
  rw [shortest]
  cases found : (List.range 17).findSome? fun i => d.withDigits? (i + 1) with
  | none => exact d.readsBack_scaled
  | some multiple =>
    obtain ⟨count, _, taken⟩ := List.exists_of_findSome?_eq_some found
    exact List.find?_some taken

theorem shortest_pos {d : Double} (nonzero : d.mantissa ≠ 0) : 0 < d.shortest := by
  refine Nat.pos_of_ne_zero fun zero => nonzero ?_
  obtain ⟨places, known⟩ : ∃ places, places = 1074 := ⟨_, rfl⟩
  have rounded := (readsBack_iff known).mp d.readsBack_shortest
  rw [zero] at rounded
  refine mantissa_eq_zero_of_nearest? ?_ rounded
  rw [Nat.zero_shiftLeft]
  exact pow_ten_pos places

theorem dropTrailingZeros_append (digits : List Char) :
    ∃ zeros, digits = dropTrailingZeros digits ++ List.replicate zeros '0' := by
  refine ⟨(digits.reverse.takeWhile (· == '0')).length, ?_⟩
  have zeros : digits.reverse.takeWhile (· == '0') =
      List.replicate (digits.reverse.takeWhile (· == '0')).length '0' :=
    List.eq_replicate_of_mem fun c member => eq_of_beq (List.mem_takeWhile_imp (p := (· == '0')) member)
  rw [dropTrailingZeros, ← List.reverse_replicate, ← zeros, ← List.reverse_append, List.takeWhile_append_dropWhile,
    List.reverse_reverse]

/-- Whether a numeral shows the digits of a number whose point stands at a place
counted from their start. -/
structure Shown (negative : Bool) (digits : List Char) (point : Int) (numeral : Numeral) : Prop where
  sign : numeral.negative = negative
  float : numeral.fraction = [] → numeral.exponent ≠ none
  value : ∃ zeros : Nat, numeral.decimal =
    ⟨negative, Nat.ofDigitChars 10 digits 0 * Nat.pow 10 zeros, point - digits.length - zeros⟩

/-- Digits may be shown with zeros around them. -/
theorem shown_of_padded {negative : Bool} {digits : List Char} {point : Int} {numeral : Numeral}
    (leading zeros : Nat) (sign : numeral.negative = negative)
    (float : numeral.fraction = [] → numeral.exponent ≠ none)
    (padded : numeral.whole ++ numeral.fraction =
      List.replicate leading '0' ++ (digits ++ List.replicate zeros '0'))
    (place : numeral.exponent.getD 0 - numeral.fraction.length = point - digits.length - zeros) :
    Shown negative digits point numeral := by
  have value := Text.natural?_ten (List.append_ne_nil_of_left_ne_nil numeral.present numeral.fraction)
    (List.forall_mem_append.mpr ⟨numeral.wholeDigits, numeral.fractionDigits⟩)
  have zero : Nat.ofDigitChars 10 (List.replicate leading '0') 0 = 0 := by
    rw [Nat.ofDigitChars_replicate_zero, Nat.mul_zero]
  rw [padded, Nat.ofDigitChars_append, zero, Nat.ofDigitChars_append, Nat.ofDigitChars_replicate_zero,
    Nat.mul_comm] at value
  refine ⟨sign, float, zeros, ?_⟩
  rw [Numeral.decimal, Decimal.ofDigits, padded, value, place, sign]
  rfl

variable {negative : Bool} {digits : List Char} {point : Int}

theorem replicate_zero_isDigit (count : Nat) : ∀ c ∈ List.replicate count '0', c.isDigit = true := by
  intro c member
  rw [List.eq_of_mem_replicate member]
  rfl

theorem exists_numeral_exponent {first : Char} {others : List Char}
    (all : ∀ c ∈ first :: others, c.isDigit = true) :
    ∃ numeral, Shown negative (first :: others) point numeral ∧
      numeral.unsigned = (first :: if others = [] then [] else '.' :: others) ++
        'e' :: (if point - 1 < 0 then '-' else '+') :: Nat.toDigits 10 (point - 1).natAbs := by
  obtain ⟨firstDigit, otherDigits⟩ := List.forall_mem_cons.mp all
  have wholeDigits : ∀ c ∈ [first], c.isDigit = true := List.forall_mem_singleton.mpr firstDigit
  refine ⟨⟨negative, [first], others, some (point - 1), List.cons_ne_nil _ _, wholeDigits, otherDigits,
      fun _ => rfl⟩,
    shown_of_padded 0 0 rfl (fun _ => Option.some_ne_none _) ?_ ?_, rfl⟩
  · simp
  · simp only [Option.getD_some, List.length_cons]
    omega

variable (all : ∀ c ∈ digits, c.isDigit = true)

include all

theorem exists_numeral_whole (present : digits ≠ []) (canonical : digits.head? ≠ some '0')
    (few : (digits.length : Int) ≤ point) :
    ∃ numeral, Shown negative digits point numeral ∧
      numeral.unsigned = digits ++ List.replicate (point - digits.length).toNat '0' ++ ['.', '0'] := by
  have nonempty : digits ++ List.replicate (point - digits.length).toNat '0' ≠ [] :=
    List.append_ne_nil_of_left_ne_nil present _
  have wholeDigits : ∀ c ∈ digits ++ List.replicate (point - digits.length).toNat '0', c.isDigit = true :=
    List.forall_mem_append.mpr ⟨all, replicate_zero_isDigit _⟩
  have head : (digits ++ List.replicate (point - digits.length).toNat '0').head? ≠ some '0' := by
    cases digits with
    | nil => exact absurd rfl present
    | cons first rest => exact canonical
  refine ⟨⟨negative, _, ['0'], none, nonempty, wholeDigits, replicate_zero_isDigit 1, fun zero => absurd zero head⟩,
    shown_of_padded 0 ((point - digits.length).toNat + 1) rfl
      (fun none => absurd none (List.cons_ne_nil _ _)) ?_ ?_, rfl⟩
  · simp [List.replicate_succ']
  · simp only [Option.getD_none, List.length_singleton]
    omega

theorem exists_numeral_point (canonical : digits.head? ≠ some '0') (positive : 0 < point)
    (many : point < digits.length) :
    ∃ numeral, Shown negative digits point numeral ∧
      numeral.unsigned = digits.take point.toNat ++ '.' :: digits.drop point.toNat := by
  have nonempty : digits.take point.toNat ≠ [] := by
    rw [Ne, List.take_eq_nil_iff]
    rintro (zero | rfl)
    · omega
    · simp at many
      omega
  have rest : digits.drop point.toNat ≠ [] := by
    rw [Ne, List.drop_eq_nil_iff]
    omega
  have wholeDigits : ∀ c ∈ digits.take point.toNat, c.isDigit = true :=
    fun c member => all c (List.mem_of_mem_take member)
  have fractionDigits : ∀ c ∈ digits.drop point.toNat, c.isDigit = true :=
    fun c member => all c (List.mem_of_mem_drop member)
  have head : (digits.take point.toNat).head? ≠ some '0' := by
    rwa [List.head?_take, if_neg (by omega)]
  refine ⟨⟨negative, _, _, none, nonempty, wholeDigits, fractionDigits, fun zero => absurd zero head⟩,
    shown_of_padded 0 0 rfl (fun none => absurd none rest) ?_ ?_, ?_⟩
  · simp
  · simp only [Option.getD_none, List.length_drop]
    omega
  · simp [Numeral.unsigned, Numeral.fractionText, Numeral.exponentText, rest]

theorem exists_numeral_fraction (present : digits ≠ []) (negligible : point ≤ 0) :
    ∃ numeral, Shown negative digits point numeral ∧
      numeral.unsigned = '0' :: '.' :: List.replicate (-point).toNat '0' ++ digits := by
  have fractionDigits : ∀ c ∈ List.replicate (-point).toNat '0' ++ digits, c.isDigit = true :=
    List.forall_mem_append.mpr ⟨replicate_zero_isDigit _, all⟩
  have nonempty : List.replicate (-point).toNat '0' ++ digits ≠ [] := List.append_ne_nil_of_right_ne_nil _ present
  refine ⟨⟨negative, ['0'], _, none, nofun, replicate_zero_isDigit 1, fractionDigits, fun _ => rfl⟩,
    shown_of_padded ((-point).toNat + 1) 0 rfl (fun none => absurd none nonempty) ?_ ?_, ?_⟩
  · simp [List.replicate_succ]
  · simp only [Option.getD_none, List.length_append, List.length_replicate]
    omega
  · simp [Numeral.unsigned, Numeral.fractionText, Numeral.exponentText, present]

/-- Every layout of digits is a numeral that shows them. -/
theorem exists_numeral_layout (present : digits ≠ []) (canonical : digits.head? ≠ some '0') :
    ∃ numeral, Shown negative digits point numeral ∧ numeral.unsigned = layout digits point := by
  simp only [layout]
  split
  · split
    · next few => exact exists_numeral_whole all present canonical few
    · next positional many => exact exists_numeral_point all canonical positional.1 (Int.not_le.mp many)
  · split
    · next small => exact exists_numeral_fraction all present small.2
    · obtain ⟨first, others, rfl⟩ := List.exists_cons_of_ne_nil present
      obtain ⟨numeral, shown, text⟩ := exists_numeral_exponent all
      refine ⟨numeral, shown, text.trans ?_⟩
      cases others <;> rfl

omit all

/-- The digits of a number other than zero are shown by its text. -/
theorem exists_numeral_digits {d : Double} (nonzero : d.mantissa ≠ 0) :
    ∃ numeral, Shown d.negative d.digits.1 d.digits.2 numeral ∧
      numeral.unsigned = layout d.digits.1 d.digits.2 := by
  obtain ⟨zeros, split⟩ := dropTrailingZeros_append (Nat.toDigits 10 d.shortest)
  have head := Text.head?_toDigits (shortest_pos nonzero)
  have all (c : Char) (member : c ∈ Nat.toDigits 10 d.shortest) := Text.isDigit_toDigits member
  have present : dropTrailingZeros (Nat.toDigits 10 d.shortest) ≠ [] := by
    intro none
    rw [none, List.nil_append] at split
    cases zeros with
    | zero => exact Nat.toDigits_ne_nil split
    | succ zeros => exact head (by rw [split]; rfl)
  rw [split] at head all
  refine exists_numeral_layout (fun c member => all c (List.mem_append_left _ member)) present ?_
  obtain ⟨first, others, shape⟩ := List.exists_cons_of_ne_nil present
  have same : first ≠ '0' := by simpa [shape] using head
  simpa [digits, shape] using same

theorem decimal_standsFor {negative : Bool} {coefficient dropped zeros places : Nat} :
    Decimal.StandsFor ⟨negative, coefficient * Nat.pow 10 zeros, (dropped : Int) - places - zeros⟩
      (coefficient * Nat.pow 10 dropped) (Nat.pow 10 places) := by
  have add (j k : Nat) : Nat.pow 10 j * Nat.pow 10 k = Nat.pow 10 (j + k) := (Nat.pow_add 10 j k).symm
  have exponents : zeros + ((dropped : Int) - places - zeros).toNat + places =
      dropped + (-((dropped : Int) - places - zeros)).toNat := by
    omega
  rw [Decimal.StandsFor, Nat.mul_assoc, Nat.mul_assoc, Nat.mul_assoc, ← Nat.mul_assoc (Nat.pow 10 zeros)]
  rw [add, add, add, exponents]

theorem eq_zero_of_mantissa {d : Double} (zero : d.mantissa = 0) : d = Double.zero d.negative := by
  obtain ⟨negative, mantissa, scale, canonical⟩ := d
  subst zero
  obtain rfl : scale = 0 := canonical.2.1.resolve_left (by decide)
  rfl

theorem shortest_eq (d : Double) : ∃ dropped : Nat,
    d.shortest = Nat.ofDigitChars 10 d.digits.1 0 * Nat.pow 10 dropped ∧
      d.digits.2 - d.digits.1.length = (dropped : Int) - 1074 := by
  obtain ⟨dropped, split⟩ := dropTrailingZeros_append (Nat.toDigits 10 d.shortest)
  have value : Nat.ofDigitChars 10 (Nat.toDigits 10 d.shortest) 0 = d.shortest :=
    Nat.ofDigitChars_toDigits (by decide) (by decide)
  have length := congrArg List.length split
  rw [List.length_append, List.length_replicate] at length
  refine ⟨dropped, ?_, ?_⟩
  · rw [split, Nat.ofDigitChars_append, Nat.ofDigitChars_replicate_zero, Nat.mul_comm] at value
    exact value.symm
  · simp only [digits]
    omega

theorem toDouble?_zero {numeral : Numeral} (whole : numeral.whole = ['0']) (fraction : numeral.fraction = ['0']) :
    numeral.decimal.toDouble? = some (zero numeral.negative) := by
  have coefficient : numeral.decimal.coefficient = 0 := by
    rw [Numeral.decimal, whole, fraction]
    rfl
  rw [Decimal.toDouble?, if_pos coefficient]
  rfl

theorem Shown.standsFor {d : Double} {numeral : Numeral} {places : Nat} (known : places = 1074)
    (shown : Shown d.negative d.digits.1 d.digits.2 numeral) :
    numeral.decimal.StandsFor d.shortest (Nat.pow 10 places) := by
  obtain ⟨zeros, value⟩ := shown.value
  obtain ⟨dropped, multiple, place⟩ := d.shortest_eq
  have place : d.digits.2 - d.digits.1.length = (dropped : Int) - places := by omega
  rw [value, multiple, place]
  exact decimal_standsFor

theorem text_eq {d : Double} (nonzero : d.mantissa ≠ 0) :
    d.text = (if d.negative = true then ['-'] else []) ++ layout d.digits.1 d.digits.2 := by
  rw [text, if_neg nonzero]
  -- the digits are taken as they are, so that none are ever computed
  generalize d.digits = shown
  obtain ⟨digits, point⟩ := shown
  split
  · exact List.singleton_append.symm
  · exact (List.nil_append _).symm

/-- The text of a number is a numeral with a point or an exponent, and it
is read as the number. -/
theorem exists_numeral_text (d : Double) : ∃ numeral : Numeral, numeral.text = d.text ∧
    (numeral.fraction = [] → numeral.exponent ≠ none) ∧ numeral.decimal.toDouble? = some d := by
  by_cases zero : d.mantissa = 0
  · refine ⟨⟨d.negative, ['0'], ['0'], none, List.cons_ne_nil _ _, replicate_zero_isDigit 1,
        replicate_zero_isDigit 1, fun _ => rfl⟩,
      ?_, fun none => absurd none (List.cons_ne_nil _ _), ?_⟩
    · rw [text, if_pos zero]
      cases negative : d.negative <;> rfl
    · rw [toDouble?_zero rfl rfl]
      exact congrArg some (eq_zero_of_mantissa zero).symm
  · obtain ⟨numeral, shown, shape⟩ := exists_numeral_digits zero
    have sign : numeral.decimal.negative = d.negative := shown.sign
    obtain ⟨places, known⟩ : ∃ places, places = 1074 := ⟨_, rfl⟩
    have rounded := (readsBack_iff known).mp d.readsBack_shortest
    refine ⟨numeral, ?_, shown.float,
      Decimal.toDouble?_of_standsFor zero sign (pow_ten_pos places) (shown.standsFor known) rounded⟩
    rw [Numeral.text, shape, Numeral.sign, shown.sign, text_eq zero]

/-- The text of a number is read as the number. -/
theorem toDouble?_text (d : Double) : (Decimal.read? d.text).bind Decimal.toDouble? = some d := by
  obtain ⟨numeral, shape, _, value⟩ := d.exists_numeral_text
  rw [← shape, numeral.decimal_read?]
  exact value

end SelectionEngine.Double
