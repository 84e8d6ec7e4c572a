import SelectionEngine.Json.Parser
import SelectionEngine.Proofs.Definitions.Tokens

namespace SelectionEngine.Json

open Definitions (Escapes Numeral Stops escapes_escape shortEscapes)

theorem head?_escape_control {c : Char} (control : c.toNat < 0x20) : (escape c).head? = some '\\' := by
  have all : ∀ n < 0x20, (escape (Char.ofNat n)).head? = some '\\' := by decide
  simpa using all _ control

theorem shortEscape?_of_mem : ∀ pair ∈ shortEscapes, pair.1 ≠ 'u' ∧ shortEscape? pair.1 = some pair.2 := by decide

/-- An escaped character of a string is read as it was. -/
theorem readString_escape (c : Char) (fuel : Nat) (rest : List Char) :
    readString (fuel + 1) (escape c ++ rest) = (readString fuel rest).map (prepend c) := by
  obtain ⟨text, shape⟩ : ∃ text, escape c = text := ⟨_, rfl⟩
  have written : Escapes c text := shape ▸ escapes_escape c
  rw [shape]
  cases written with
  | short listed =>
    obtain ⟨other, known⟩ := shortEscape?_of_mem _ listed
    rw [List.cons_append, List.singleton_append, readString]
    · cases readString fuel rest <;> simp [known]
    · exact other
  | unit control =>
    obtain ⟨high, low⟩ := Text.not_isSurrogate c
    rw [Definitions.hex4_eq _ control]
    cases read : readString fuel rest <;>
      simp [readString, readUnit, Definitions.natural?_hex4 _ control, high, low, read]
  | plain quote backslash _ =>
    have visible : ¬ c.toNat < 0x20 := by
      intro control
      have escaped := head?_escape_control control
      rw [shape] at escaped
      exact backslash (Option.some.inj escaped)
    rw [List.singleton_append, readString, if_neg visible]
    · cases readString fuel rest <;> rfl
    · exact quote
    all_goals
      intros
      contradiction

theorem readString_quoted {text : List Char} {fuel : Nat} (enough : text.length < fuel) (rest : List Char) :
    readString fuel (text.flatMap escape ++ '"' :: rest) = some (some text, rest) := by
  induction text generalizing fuel with
  | nil =>
    obtain ⟨fuel, rfl⟩ : ∃ less, fuel = less + 1 := Nat.exists_eq_add_one_of_ne_zero (Nat.ne_zero_of_lt enough)
    rfl
  | cons c text ih =>
    obtain ⟨fuel, rfl⟩ : ∃ less, fuel = less + 1 := Nat.exists_eq_add_one_of_ne_zero (Nat.ne_zero_of_lt enough)
    rw [List.flatMap_cons, List.append_assoc, readString_escape, ih (Nat.lt_of_succ_lt_succ enough)]
    rfl

theorem length_le_escaped (text : List Char) : text.length ≤ (text.flatMap escape).length := by
  induction text with
  | nil => exact Nat.le_refl 0
  | cons c text ih =>
    obtain ⟨first, rest, shape, _⟩ := (escapes_escape c).head_ne_quote
    simp only [List.flatMap_cons, List.length_append, List.length_cons, shape]
    omega

/-- The value that a numeral is read as. -/
def numeralValue? (numeral : Numeral) : Option Value :=
  if numeral.fraction = [] ∧ numeral.exponent = none then integerValue? numeral.negative numeral.whole
  else numeral.decimal.toDouble?.map .double

theorem readExponent_signed (exponent : Int) {rest : List Char} (ends : ∀ c ∈ rest.head?, c.isDigit = false) :
    readExponent ((if exponent < 0 then '-' else '+') :: Nat.toDigits 10 exponent.natAbs ++ rest) =
      some (exponent, rest) := by
  have digits := Text.spanDigits_append (fun _ => Text.isDigit_toDigits (n := exponent.natAbs)) ends
  by_cases negative : exponent < 0
  · have magnitude : -(exponent.natAbs : Int) = exponent := by omega
    generalize exponent.natAbs = absolute at digits magnitude ⊢
    simp [readExponent, negative, digits, Text.natural?_toDigits, magnitude]
  · have magnitude : (exponent.natAbs : Int) = exponent := by omega
    generalize exponent.natAbs = absolute at digits magnitude ⊢
    simp [readExponent, negative, digits, Text.natural?_toDigits, magnitude]

theorem numeralValue?_of_float {numeral : Numeral} (float : numeral.fraction = [] → numeral.exponent ≠ none) :
    numeralValue? numeral = numeral.decimal.toDouble?.map .double :=
  if_neg fun none => float none.1 none.2

theorem exponentText_eq (numeral : Numeral) : (numeral.exponent = none ∧ numeral.exponentText = []) ∨
    ∃ exponent, numeral.exponent = some exponent ∧ numeral.exponentText =
      'e' :: (if exponent < 0 then '-' else '+') :: Nat.toDigits 10 exponent.natAbs := by
  rw [Numeral.exponentText]
  cases numeral.exponent with
  | none => exact .inl ⟨rfl, rfl⟩
  | some exponent => exact .inr ⟨exponent, rfl, rfl⟩

/-- What stops a number is none of the marks that go on with one. -/
theorem eq_nil_or_of_stops {rest : List Char} (stops : Stops rest) :
    rest = [] ∨ ∃ c more, rest = c :: more ∧ c ≠ '.' ∧ c ≠ 'e' ∧ c ≠ 'E' := by
  cases rest with
  | nil => exact .inl rfl
  | cons c more =>
    obtain ⟨part, point, _⟩ := stops c rfl
    refine .inr ⟨c, more, rfl, point, ?_, ?_⟩ <;> rintro rfl <;> cases part

/-- A printed number is read whole, whatever stops it. -/
theorem readNumber_unsigned (numeral : Numeral) {rest : List Char} (stops : Stops rest) :
    readNumber numeral.negative (numeral.unsigned ++ rest) = some (ofOption? (numeralValue? numeral), rest) := by
  have ends : ∀ c ∈ rest.head?, c.isDigit = false := fun c next =>
    Definitions.not_isDigit_of_not_isNamePart (stops c next).1
  have parts : numeral.unsigned ++ rest =
      numeral.whole ++ (numeral.fractionText ++ (numeral.exponentText ++ rest)) := by
    simp only [Numeral.unsigned, List.append_assoc]
  have whole := numeral.spanDigits_whole ends
  have fraction := numeral.spanDigits_fraction ends
  have accepted : ¬(numeral.whole.isEmpty = true ∨ numeral.whole.head? = some '0' ∧ 1 < numeral.whole.length) := by
    rintro (empty | ⟨zero, long⟩)
    · exact numeral.present (List.isEmpty_iff.mp empty)
    · have := numeral.canonical zero
      omega
  rw [parts]
  simp only [readNumber, whole]
  rw [if_neg accepted]
  -- with and without a fraction, what follows is an exponent or
  -- what stops the number
  obtain bare | point : (numeral.fraction = [] ∧ numeral.fractionText = []) ∨
      (numeral.fraction ≠ [] ∧ numeral.fractionText = '.' :: numeral.fraction) := by
    by_cases bare : numeral.fraction = []
    · exact .inl ⟨bare, if_pos bare⟩
    · exact .inr ⟨bare, if_neg bare⟩
  · obtain ⟨none, noText⟩ | ⟨exponent, known, text⟩ := exponentText_eq numeral
    · obtain rfl | ⟨c, more, rfl, noPoint, small, large⟩ := eq_nil_or_of_stops stops
      · simp [numeralValue?, bare, none, noText]
      · simp [numeralValue?, bare, none, noText, noPoint, small, large]
    · have read := readExponent_signed exponent ends
      rw [List.cons_append] at read
      simp [numeralValue?, bare, known, text, read, Numeral.decimal]
  · obtain ⟨none, noText⟩ | ⟨exponent, known, text⟩ := exponentText_eq numeral
    · rw [noText, List.nil_append] at fraction
      obtain rfl | ⟨c, more, rfl, _, small, large⟩ := eq_nil_or_of_stops stops
      · rw [List.append_nil] at fraction
        simp [numeralValue?, point, none, noText, fraction, Numeral.decimal]
      · simp [numeralValue?, point, none, noText, fraction, small, large, Numeral.decimal]
    · have read := readExponent_signed exponent ends
      rw [text] at fraction
      simp only [List.cons_append] at read fraction
      simp [numeralValue?, point, known, text, fraction, read, Numeral.decimal]

/-- A number is printed with a sign or a digit at its start. -/
theorem exists_text (numeral : Numeral) : ∃ c rest, numeral.text = c :: rest ∧ (c = '-' ∨ c.isDigit = true) := by
  obtain ⟨first, rest, shape, digit⟩ := numeral.exists_unsigned
  rw [Numeral.text, Numeral.sign, shape]
  split
  · exact ⟨_, _, rfl, .inl rfl⟩
  · exact ⟨_, _, rfl, .inr digit⟩

theorem readDocument_numeral (numeral : Numeral) {rest : List Char} (stops : Stops rest) (fuel room : Nat) :
    readDocument (fuel + 1) room (numeral.text ++ rest) = some (ofOption? (numeralValue? numeral), rest) := by
  have read := readNumber_unsigned numeral stops
  rw [Numeral.text, Numeral.sign]
  cases negative : numeral.negative with
  | true =>
    rw [negative] at read
    simp [readDocument, read]
  | false =>
    rw [negative] at read
    obtain ⟨first, others, shape, digit⟩ := numeral.exists_unsigned
    rw [shape, List.cons_append] at read
    rw [if_neg Bool.false_ne_true, List.nil_append, shape, List.cons_append, readDocument, read]
    all_goals
      intro _ same
      obtain rfl := (List.cons.inj same).1
      cases digit

/-- An integer of the range is read as it is printed. -/
theorem numeralValue?_ofInt {n : Int} (lower : -0x8000000000000000 ≤ n) (upper : n < UInt64.size) :
    numeralValue? (Numeral.ofInt n) = some (.int n) := by
  have magnitude : (if decide (n < 0) = true then -(n.natAbs : Int) else n.natAbs) = n := by
    simp only [decide_eq_true_eq]
    split <;> omega
  have inRange : ¬((decide (n < 0) = true ∧ n.natAbs = 0) ∨ n < -0x8000000000000000 ∨ (UInt64.size : Int) ≤ n) := by
    simp only [decide_eq_true_eq]
    omega
  rw [numeralValue?, if_pos ⟨rfl, rfl⟩]
  simp only [integerValue?, Numeral.ofInt, Text.natural?_toDigits, Option.getD_some, magnitude]
  rw [if_neg inRange]

end SelectionEngine.Json
