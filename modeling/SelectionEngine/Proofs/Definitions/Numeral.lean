import SelectionEngine.Definitions.Token
import SelectionEngine.Double.Decimal
import SelectionEngine.Proofs.Text.Digits

namespace SelectionEngine.Definitions

/-- A number as it is printed: digits without leading zeros, a point and an
exponent with its sign. -/
structure Numeral where
  negative : Bool
  whole : List Char
  fraction : List Char
  exponent : Option Int
  present : whole ≠ []
  wholeDigits : ∀ c ∈ whole, c.isDigit = true
  fractionDigits : ∀ c ∈ fraction, c.isDigit = true
  canonical : whole.head? = some '0' → whole.length = 1

/-- Whether a token that does not end by itself ends before this text. -/
def Stops (rest : List Char) : Prop := ∀ c ∈ rest.head?, isNamePart c = false ∧ c ≠ '.' ∧ c ≠ '"'

theorem not_isDigit_of_not_isNamePart {c : Char} (other : isNamePart c = false) : c.isDigit = false := by
  simp only [isNamePart, Char.isAlphanum, Bool.or_eq_false_iff] at other
  exact other.1.2

theorem not_isNameStart_of_not_isNamePart {c : Char} (other : isNamePart c = false) : isNameStart c = false := by
  simp only [isNamePart, isNameStart, Char.isAlphanum, Bool.or_eq_false_iff] at other ⊢
  exact ⟨other.1.1, other.2⟩

namespace Numeral

variable (numeral : Numeral)

def sign : List Char := if numeral.negative then ['-'] else []

def fractionText : List Char := if numeral.fraction = [] then [] else '.' :: numeral.fraction

def exponentText : List Char := match numeral.exponent with
  | none => []
  | some exponent => 'e' :: (if exponent < 0 then '-' else '+') :: Nat.toDigits 10 exponent.natAbs

def unsigned : List Char := numeral.whole ++ (numeral.fractionText ++ numeral.exponentText)

def text : List Char := numeral.sign ++ numeral.unsigned

/-- What the numeral stands for. -/
def decimal : Decimal :=
  .ofDigits numeral.negative numeral.whole numeral.fraction (numeral.exponent.getD 0)

/-- The numeral as a token: a float if it has a point or an exponent. -/
def token : Token :=
  if numeral.fraction = [] ∧ numeral.exponent = none then .int numeral.text else .float numeral.text

theorem text_token : numeral.token.text = numeral.text := by
  rw [token]
  split <;> rfl

theorem exists_unsigned : ∃ first rest, numeral.unsigned = first :: rest ∧ first.isDigit = true := by
  cases whole : numeral.whole with
  | nil => exact absurd whole numeral.present
  | cons first rest =>
    refine ⟨first, _, by rw [unsigned, whole]; rfl, numeral.wholeDigits first ?_⟩
    rw [whole]
    exact .head _

theorem exponentText_stops {rest : List Char} (stops : ∀ c ∈ rest.head?, c.isDigit = false) :
    ∀ c ∈ (numeral.exponentText ++ rest).head?, c.isDigit = false := by
  rw [exponentText]
  cases numeral.exponent with
  | none => exact stops
  | some exponent =>
    rintro _ ⟨⟩
    rfl

theorem fractionText_stops {rest : List Char} (stops : ∀ c ∈ rest.head?, c.isDigit = false) :
    ∀ c ∈ (numeral.fractionText ++ (numeral.exponentText ++ rest)).head?, c.isDigit = false := by
  rw [fractionText]
  split
  · exact numeral.exponentText_stops stops
  · rintro _ ⟨⟩
    rfl

theorem spanDigits_whole {rest : List Char} (stops : ∀ c ∈ rest.head?, c.isDigit = false) :
    Text.spanDigits (numeral.whole ++ (numeral.fractionText ++ (numeral.exponentText ++ rest))) =
      (numeral.whole, numeral.fractionText ++ (numeral.exponentText ++ rest)) :=
  Text.spanDigits_append numeral.wholeDigits (numeral.fractionText_stops stops)

theorem spanDigits_fraction {rest : List Char} (stops : ∀ c ∈ rest.head?, c.isDigit = false) :
    Text.spanDigits (numeral.fraction ++ (numeral.exponentText ++ rest)) =
      (numeral.fraction, numeral.exponentText ++ rest) :=
  Text.spanDigits_append numeral.fractionDigits (numeral.exponentText_stops stops)

theorem integer?_signed (n : Int) :
    Text.integer? ((if n < 0 then '-' else '+') :: Nat.toDigits 10 n.natAbs) = some n := by
  by_cases negative : n < 0
  · have magnitude : -(n.natAbs : Int) = n := by omega
    rw [if_pos negative, Text.integer?, Text.natural?_toDigits]
    exact congrArg some magnitude
  · have magnitude : (n.natAbs : Int) = n := by omega
    rw [if_neg negative, Text.integer?, Text.natural?_toDigits]
    exact congrArg some magnitude

theorem exponentText_ne_point (rest : List Char) : numeral.exponentText ≠ '.' :: rest := by
  rw [exponentText]
  cases numeral.exponent <;> exact nofun

theorem decimal_readExponent? :
    Decimal.readExponent? numeral.exponentText = some (numeral.exponent.getD 0) := by
  rw [exponentText]
  cases numeral.exponent with
  | none => rfl
  | some exponent =>
    rw [Decimal.readExponent?, if_pos (.inl rfl)]
    exact integer?_signed exponent

theorem decimal_readUnsigned? :
    Decimal.readUnsigned? numeral.negative numeral.unsigned = some numeral.decimal := by
  have ends : ∀ c ∈ ([] : List Char).head?, c.isDigit = false := nofun
  have whole := numeral.spanDigits_whole ends
  have fraction := numeral.spanDigits_fraction ends
  simp only [List.append_nil] at whole fraction
  have present := numeral.present
  simp only [Decimal.readUnsigned?, unsigned, whole]
  by_cases none : numeral.fraction = []
  · have noFraction : numeral.fractionText = [] := if_pos none
    rw [noFraction, List.nil_append]
    split
    · next rest point =>
      exact absurd point (numeral.exponentText_ne_point rest)
    · simp [present, decimal_readExponent?, decimal, none]
  · have point : numeral.fractionText = '.' :: numeral.fraction := if_neg none
    simp [point, fraction, present, decimal_readExponent?, decimal]

/-- A printed number is read as what it stands for. -/
theorem decimal_read? : Decimal.read? numeral.text = some numeral.decimal := by
  have read := numeral.decimal_readUnsigned?
  rw [text, sign]
  cases negative : numeral.negative with
  | true => rwa [if_pos rfl, List.singleton_append, Decimal.read?, ← negative]
  | false =>
    rw [if_neg Bool.false_ne_true, List.nil_append]
    obtain ⟨first, rest, shape, digit⟩ := numeral.exists_unsigned
    rw [shape, negative] at read
    rw [shape, Decimal.read?]
    · exact read
    · rintro _ ⟨⟩
      cases digit
    · rintro _ ⟨⟩
      cases digit

theorem readExponent?_append {rest : List Char} (stops : Stops rest) :
    Token.readExponent? (numeral.exponentText ++ rest) = some (numeral.exponentText, rest) := by
  have ends : ∀ c ∈ rest.head?, c.isDigit = false := fun c next => not_isDigit_of_not_isNamePart (stops c next).1
  rw [exponentText]
  cases numeral.exponent with
  | none =>
    cases rest with
    | nil => rfl
    | cons c rest =>
      have other : ¬(c = 'e' ∨ c = 'E') := by
        have part := (stops c rfl).1
        rintro (rfl | rfl) <;> cases part
      rw [List.nil_append, Token.readExponent?, if_neg other]
  | some exponent =>
    have digits : ∀ c ∈ Nat.toDigits 10 exponent.natAbs, c.isDigit = true := fun _ => Text.isDigit_toDigits
    have split := Text.spanDigits_append digits ends
    have present : Nat.toDigits 10 exponent.natAbs ≠ [] := Nat.toDigits_ne_nil
    by_cases negative : exponent < 0
    · simp [Token.readExponent?, negative, Token.spanSign, split, present]
    · simp [Token.readExponent?, negative, Token.spanSign, split, present]

theorem readFraction?_append {rest : List Char} (stops : Stops rest) :
    Token.readFraction? (numeral.fractionText ++ (numeral.exponentText ++ rest)) =
      some (numeral.fractionText, numeral.exponentText ++ rest) := by
  have ends : ∀ c ∈ rest.head?, c.isDigit = false := fun c next => not_isDigit_of_not_isNamePart (stops c next).1
  rw [fractionText]
  by_cases none : numeral.fraction = []
  · rw [if_pos none, List.nil_append, Token.readFraction?]
    intro others shape
    rcases List.append_eq_cons_iff.mp shape with ⟨_, point⟩ | ⟨_, point, _⟩
    · exact (stops '.' (by rw [point]; rfl)).2.1 rfl
    · exact numeral.exponentText_ne_point _ point
  · rw [if_neg none]
    simp [Token.readFraction?, numeral.spanDigits_fraction ends, none]

theorem readWhole?_append {rest : List Char} (stops : Stops rest) :
    Token.readWhole? (numeral.whole ++ (numeral.fractionText ++ (numeral.exponentText ++ rest))) =
      some (numeral.whole, numeral.fractionText ++ (numeral.exponentText ++ rest)) := by
  have ends : ∀ c ∈ rest.head?, c.isDigit = false := fun c next => not_isDigit_of_not_isNamePart (stops c next).1
  have accepted : ¬(numeral.whole.isEmpty = true ∨ numeral.whole.head? = some '0' ∧ 1 < numeral.whole.length) := by
    rintro (empty | ⟨zero, long⟩)
    · exact numeral.present (List.isEmpty_iff.mp empty)
    · have := numeral.canonical zero
      omega
  simp only [Token.readWhole?, numeral.spanDigits_whole ends]
  rw [if_neg accepted]

theorem endsNumber_of_stops {rest : List Char} (stops : Stops rest) : Token.endsNumber rest = true := by
  cases rest with
  | nil => rfl
  | cons c rest =>
    obtain ⟨part, point, _⟩ := stops c rfl
    simp [Token.endsNumber, not_isNameStart_of_not_isNamePart part, point]

/-- A printed number is read as one token, whatever stops it. -/
theorem readNumber?_append {rest : List Char} (stops : Stops rest) :
    Token.readNumber? (numeral.text ++ rest) = some (numeral.token, rest) := by
  have empty : numeral.fractionText = [] ↔ numeral.fraction = [] := by
    rw [fractionText]
    split <;> simp [*]
  have bare : numeral.exponentText = [] ↔ numeral.exponent = none := by
    rw [exponentText]
    cases numeral.exponent <;> simp
  have parts : numeral.unsigned ++ rest =
      numeral.whole ++ (numeral.fractionText ++ (numeral.exponentText ++ rest)) := by
    simp only [unsigned, List.append_assoc]
  have whole := numeral.readWhole?_append stops
  have fraction := numeral.readFraction?_append stops
  have exponent := numeral.readExponent?_append stops
  have ends := endsNumber_of_stops stops
  rw [token, text, List.append_assoc, parts, sign]
  cases numeral.negative with
  | true => simp [Token.readNumber?, unsigned, whole, fraction, exponent, ends, empty, bare]
  | false =>
    rw [if_neg Bool.false_ne_true, List.nil_append, List.nil_append, Token.readNumber?]
    · simp [unsigned, whole, fraction, exponent, ends, empty, bare]
    · intro others minus
      obtain ⟨first, _, shape, digit⟩ := numeral.exists_unsigned
      rw [← parts, shape] at minus
      cases minus
      cases digit

/-- An integer as it is printed. -/
def ofInt (n : Int) : Numeral where
  negative := n < 0
  whole := Nat.toDigits 10 n.natAbs
  fraction := []
  exponent := none
  present := Nat.toDigits_ne_nil
  wholeDigits _ := Text.isDigit_toDigits
  fractionDigits := nofun
  canonical zero := by
    by_cases none : n.natAbs = 0
    · rw [none]
      rfl
    · exact absurd zero (Text.head?_toDigits (Nat.pos_of_ne_zero none))

theorem unsigned_ofInt (n : Int) : (ofInt n).unsigned = Nat.toDigits 10 n.natAbs := by
  simp [unsigned, fractionText, exponentText, ofInt]

theorem text_ofInt (n : Int) : (ofInt n).text = (toString n).toList := by
  have digits (m : Nat) : (toString m).toList = Nat.toDigits 10 m := by
    rw [Nat.toString_eq_ofList_toDigits, String.toList_ofList]
  rw [text, sign, unsigned_ofInt]
  cases n with
  | ofNat m =>
    have plus : ¬ (ofInt (.ofNat m)).negative = true := by simp [ofInt]
    rw [if_neg plus]
    exact (digits m).symm
  | negSucc m =>
    have minus : (ofInt (.negSucc m)).negative = true := by simp [ofInt, Int.negSucc_lt_zero]
    have printed : (toString (Int.negSucc m)).toList = '-' :: (toString (m + 1)).toList := String.toList_append
    rw [if_pos minus, printed, digits]
    rfl

theorem token_ofInt (n : Int) : (ofInt n).token = .int (toString n).toList := by
  rw [token, if_pos ⟨rfl, rfl⟩, text_ofInt]

theorem integer?_text (n : Int) : Text.integer? (toString n).toList = some n := by
  rw [← text_ofInt, text, sign]
  by_cases negative : n < 0
  · have magnitude : -(n.natAbs : Int) = n := by omega
    have minus : (ofInt n).negative = true := decide_eq_true negative
    rw [if_pos minus, unsigned_ofInt, List.singleton_append, Text.integer?, Text.natural?_toDigits]
    exact congrArg some magnitude
  · have magnitude : (n.natAbs : Int) = n := by omega
    have plus : ¬ (ofInt n).negative = true := by simpa [ofInt] using negative
    obtain ⟨first, rest, shape, digit⟩ := (ofInt n).exists_unsigned
    rw [if_neg plus, List.nil_append]
    rw [unsigned_ofInt] at shape ⊢
    have value := Text.natural?_toDigits n.natAbs
    rw [shape] at value ⊢
    rw [Text.integer?, value]
    · exact congrArg some magnitude
    · rintro _ ⟨⟩
      cases digit
    · rintro _ ⟨⟩
      cases digit

/-- An integer of 64 bits is read as it is printed. -/
theorem int64?_text {n : Int} (lower : -0x8000000000000000 ≤ n) (upper : n < 0x8000000000000000) :
    Text.int64? (toString n).toList = some n := by
  rw [Text.int64?, integer?_text, Option.filter_some, if_pos (decide_eq_true ⟨lower, upper⟩)]

end Numeral

end SelectionEngine.Definitions
