namespace SelectionEngine.Text

/-- The value of a digit of the given base, letters of either case
standing for ten and above. -/
def digit? (base : Nat) (c : Char) : Option Nat :=
  let value :=
    if '0' ≤ c ∧ c ≤ '9' then some (c.toNat - '0'.toNat)
    else if 'a' ≤ c ∧ c ≤ 'z' then some (c.toNat - 'a'.toNat + 10)
    else if 'A' ≤ c ∧ c ≤ 'Z' then some (c.toNat - 'A'.toNat + 10)
    else none
  value.filter (· < base)

/-- Reads a nonempty run of digits of the given base. -/
def natural? (base : Nat) (digits : List Char) : Option Nat :=
  if digits.isEmpty then none
  else digits.foldlM (fun value c => (digit? base c).map (base * value + ·)) 0

/-- Splits off the decimal digits at the start of the text. -/
def spanDigits (text : List Char) : List Char × List Char := text.span Char.isDigit

/-- Reads an optional sign followed by decimal digits. -/
def integer? : List Char → Option Int
  | '-' :: digits => (natural? 10 digits).map fun n => -(n : Int)
  | '+' :: digits => (natural? 10 digits).map Int.ofNat
  | digits => (natural? 10 digits).map Int.ofNat

/-- Reads an integer of the signed 32-bit range. -/
def int32? (text : List Char) : Option Int :=
  (integer? text).filter fun n => -0x80000000 ≤ n ∧ n < 0x80000000

/-- Reads an integer of the signed 64-bit range. -/
def int64? (text : List Char) : Option Int :=
  (integer? text).filter fun n => -0x8000000000000000 ≤ n ∧ n < 0x8000000000000000

/-- Reads decimal digits, with an optional `+`, of a number below `2 ^ 64`. -/
def word64? (text : List Char) : Option Nat :=
  let digits := match text with
    | '+' :: rest => rest
    | other => other
  (natural? 10 digits).filter (· < UInt64.size)

end SelectionEngine.Text
