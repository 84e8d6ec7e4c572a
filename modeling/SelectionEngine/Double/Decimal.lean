import SelectionEngine.Double.Basic
import SelectionEngine.Text.Digits

namespace SelectionEngine

/-- A decimal numeral: `coefficient * 10 ^ exponent`, with a sign. -/
structure Decimal where
  negative : Bool
  coefficient : Nat
  exponent : Int
deriving DecidableEq

namespace Decimal

/-- The numeral with these digits before and after its point. -/
def ofDigits (negative : Bool) (whole fraction : List Char) (exponent : Int) : Decimal where
  negative := negative
  coefficient := (Text.natural? 10 (whole ++ fraction)).getD 0
  exponent := exponent - fraction.length

/-- The nearest number, or `none` if that lies beyond the largest finite one. -/
def toDouble? (d : Decimal) : Option Double :=
  if d.coefficient = 0 then some (Double.zero d.negative)
  else if 0 ≤ d.exponent then
    -- beyond `10 ^ 400` there is no need to write the number out
    if 400 < d.exponent then none
    else Double.nearest? d.negative (d.coefficient * Nat.pow 10 d.exponent.toNat) 1
  else
    let places := d.exponent.natAbs
    if Nat.log2 d.coefficient + 401 < places then some (Double.zero d.negative)
    else Double.nearest? d.negative d.coefficient (Nat.pow 10 places)

/-- Reads an exponent: a sign, if any, and digits. -/
def readExponent? : List Char → Option Int
  | [] => some 0
  | c :: rest => if c = 'e' ∨ c = 'E' then Text.integer? rest else none

def readUnsigned? (negative : Bool) (text : List Char) : Option Decimal :=
  let (whole, rest) := Text.spanDigits text
  let (fraction, rest) := match rest with
    | '.' :: rest => Text.spanDigits rest
    | rest => ([], rest)
  if whole.isEmpty ∧ fraction.isEmpty then none
  else (readExponent? rest).map (ofDigits negative whole fraction)

/-- Reads a numeral: a sign, digits with a point anywhere among
them, and an exponent. -/
def read? : List Char → Option Decimal
  | '-' :: rest => readUnsigned? true rest
  | '+' :: rest => readUnsigned? false rest
  | text => readUnsigned? false text

end Decimal

namespace Double

/-- The magnitude as a multiple of `10 ^ (-1074)`: every finite number is one. -/
def scaled (d : Double) : Nat := (d.mantissa <<< d.scale) * Nat.pow 5 1074

/-- Whether a multiple of `10 ^ (-1074)` is read as the magnitude of `d`. -/
def readsBack (d : Double) (multiple : Nat) : Bool :=
  nearest? d.negative multiple (Nat.pow 10 1074) == some d

/-- The multiple with `count` significant digits that is nearest to `d`
among those that are read as `d`. Of two equally near ones the one with an
even last digit is taken. -/
def withDigits? (d : Double) (count : Nat) : Option Nat :=
  let n := d.scaled
  let step := Nat.pow 10 ((Nat.toDigits 10 n).length - count)
  let below := n / step * step
  let above := below + step
  let rest := n % step
  let first := if 2 * rest < step ∨ (2 * rest = step ∧ n / step % 2 = 0) then [below, above] else [above, below]
  first.find? d.readsBack

/-- The multiple of `10 ^ (-1074)` with the fewest significant
digits that is read as `d`. -/
def shortest (d : Double) : Nat :=
  ((List.range 17).findSome? fun i => d.withDigits? (i + 1)).getD d.scaled

/-- Drops the zeros at the end. -/
def dropTrailingZeros (digits : List Char) : List Char :=
  (digits.reverse.dropWhile (· == '0')).reverse

/-- The shortest digits that are read as `d`, and the place of the point
counted from their start. -/
def digits (d : Double) : List Char × Int :=
  let all := Nat.toDigits 10 d.shortest
  (dropTrailingZeros all, (all.length : Int) - 1074)

/-- Digits with a point, positional from `10 ^ (-5)` up to `10 ^ 16` and with
an exponent elsewhere. -/
def layout (digits : List Char) (point : Int) : List Char :=
  let count : Int := digits.length
  if 0 < point ∧ point ≤ 16 then
    if count ≤ point then digits ++ List.replicate (point - count).toNat '0' ++ ['.', '0']
    else digits.take point.toNat ++ '.' :: digits.drop point.toNat
  else if -5 < point ∧ point ≤ 0 then
    '0' :: '.' :: List.replicate (-point).toNat '0' ++ digits
  else
    let mantissa := match digits with
      | first :: second :: rest => first :: '.' :: second :: rest
      | other => other
    let exponent := point - 1
    let sign := if exponent < 0 then '-' else '+'
    mantissa ++ 'e' :: sign :: Nat.toDigits 10 exponent.natAbs

/-- The decimal text of a number: the fewest digits that read back, always with
a point or an exponent. -/
def text (d : Double) : List Char :=
  let magnitude := if d.mantissa = 0 then ['0', '.', '0'] else
    let (digits, point) := d.digits
    layout digits point
  if d.negative then '-' :: magnitude else magnitude

end Double

end SelectionEngine
