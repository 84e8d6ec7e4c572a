namespace SelectionEngine

/-- A finite binary64 number: `mantissa * 2 ^ scale` units of
`2 ^ (-1074)`, with a sign. -/
structure Double where
  negative : Bool
  mantissa : Nat
  scale : Nat
  canonical : mantissa < 1 <<< 53 ∧ (1 <<< 52 ≤ mantissa ∨ scale = 0) ∧ scale ≤ 2045
deriving DecidableEq

namespace Double

def zero (negative : Bool) : Double := ⟨negative, 0, 0, by omega⟩

instance : Inhabited Double := ⟨zero false⟩

def ofParts? (negative : Bool) (mantissa scale : Nat) : Option Double :=
  if h : mantissa < 1 <<< 53 ∧ (1 <<< 52 ≤ mantissa ∨ scale = 0) ∧ scale ≤ 2045 then
    some ⟨negative, mantissa, scale, h⟩
  else none

/-- The integer nearest to a quotient, a half going to the even neighbour. -/
def halfEven (num den : Nat) : Nat :=
  let q := num / den
  let r := num % den
  if 2 * r < den then q else if den < 2 * r then q + 1 else q + q % 2

/-- The number nearest to `num / den`, or `none` if that lies beyond
the largest finite one. -/
def nearest? (negative : Bool) (num den : Nat) : Option Double :=
  let units := num <<< 1074
  let scale := Nat.log2 (units / den) - 52
  let mantissa := halfEven units (den <<< scale)
  if mantissa < 1 <<< 53 then ofParts? negative mantissa scale
  else ofParts? negative (1 <<< 52) (scale + 1)

def ofInt? (n : Int) : Option Double := nearest? (n < 0) n.natAbs 1

/-- Equality as numbers: the two zeros are one number. -/
def sameNumber (a b : Double) : Bool := a == b || (a.mantissa == 0 && b.mantissa == 0)

end Double

end SelectionEngine
