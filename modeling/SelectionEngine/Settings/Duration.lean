import SelectionEngine.Text.Digits

namespace SelectionEngine

/-- A length of time in whole nanoseconds. -/
structure Duration where
  nanoseconds : Nat
deriving DecidableEq

namespace Duration

def ofMilliseconds (n : Nat) : Duration := ⟨n * 1000000⟩

/-- A number of units of `10 ^ places` nanoseconds with its fraction,
without zeros at the end. -/
def decimalText (nanoseconds places : Nat) : String :=
  let whole := nanoseconds / Nat.pow 10 places
  let part := nanoseconds % Nat.pow 10 places
  if part = 0 then toString whole
  else
    let digits := Nat.toDigits 10 part
    let padded := List.replicate (places - digits.length) '0' ++ digits
    let fraction := (padded.reverse.dropWhile (· == '0')).reverse
    toString whole ++ "." ++ String.ofList fraction

/-- The duration as one number of the largest unit, up to
seconds, that it reaches. -/
def text (d : Duration) : String :=
  let n := d.nanoseconds
  if 1000000000 ≤ n then decimalText n 9 ++ "s"
  else if 1000000 ≤ n then decimalText n 6 ++ "ms"
  else if 1000 ≤ n then decimalText n 3 ++ "µs"
  else decimalText n 0 ++ "ns"

end Duration

end SelectionEngine
