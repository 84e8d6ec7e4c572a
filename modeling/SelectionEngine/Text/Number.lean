import SelectionEngine.Text.Digits

namespace SelectionEngine.Text

/-- Whether a text is an exponent of a number, which may be missing. -/
def isExponent : List Char → Bool
  | [] => true
  | c :: rest => (c == 'e' || c == 'E') && (integer? rest).isSome

/-- Whether a text is a number without a sign, with digits on one side
of the point at least. -/
def isUnsignedNumber (text : List Char) : Bool :=
  let (whole, rest) := spanDigits text
  let (fraction, rest) := match rest with
    | '.' :: rest => spanDigits rest
    | _ => ([], rest)
  !(whole.isEmpty && fraction.isEmpty) && isExponent rest

/-- The numbers that have no digits, in lower case. -/
def numberNames : List String := ["inf", "infinity", "nan"]

/-- Whether a text is a number, which may be infinite or undefined. -/
def isNumber (text : List Char) : Bool :=
  let unsigned := match text with
    | '+' :: rest | '-' :: rest => rest
    | other => other
  isUnsignedNumber unsigned || numberNames.contains (String.ofList (unsigned.map Char.toLower))

end SelectionEngine.Text
