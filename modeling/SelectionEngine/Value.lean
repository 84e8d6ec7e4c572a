import SelectionEngine.Double.Decimal
import SelectionEngine.Entries
import SelectionEngine.Text.Blank

namespace SelectionEngine

/-- A JSON value. Objects keep the order of their keys, and an integer
is never equal to a double. Integers that are read lie between
`-2 ^ 63` and `2 ^ 64 - 1`. -/
inductive Value where
  | null
  | bool (b : Bool)
  | int (n : Int)
  | double (d : Double)
  | string (s : String)
  | list (items : List Value)
  | object (entries : List (String × Value))
deriving Inhabited

/-- The entries of a JSON object. -/
abbrev Object := Entries String Value

namespace Value

mutual

/-- Decides whether two values are identical, the order of keys included. -/
def decEq : (v w : Value) → Decidable (v = w)
  | null, null => isTrue rfl
  | bool a, bool b => decidable_of_iff (a = b) (by simp)
  | int a, int b => decidable_of_iff (a = b) (by simp)
  | double a, double b => decidable_of_iff (a = b) (by simp)
  | string a, string b => decidable_of_iff (a = b) (by simp)
  | list a, list b => match decEqItems a b with
    | isTrue h => isTrue (by rw [h])
    | isFalse h => isFalse (by simpa using h)
  | object a, object b => match decEqEntries a b with
    | isTrue h => isTrue (by rw [h])
    | isFalse h => isFalse (by simpa using h)
  | null, bool _ | null, int _ | null, double _ | null, string _ | null, list _ | null, object _
  | bool _, null | bool _, int _ | bool _, double _ | bool _, string _ | bool _, list _ | bool _, object _
  | int _, null | int _, bool _ | int _, double _ | int _, string _ | int _, list _ | int _, object _
  | double _, null | double _, bool _ | double _, int _ | double _, string _ | double _, list _
  | double _, object _
  | string _, null | string _, bool _ | string _, int _ | string _, double _ | string _, list _
  | string _, object _
  | list _, null | list _, bool _ | list _, int _ | list _, double _ | list _, string _ | list _, object _
  | object _, null | object _, bool _ | object _, int _ | object _, double _ | object _, string _
  | object _, list _ => isFalse nofun

def decEqItems : (vs ws : List Value) → Decidable (vs = ws)
  | [], [] => isTrue rfl
  | [], _ :: _ => isFalse nofun
  | _ :: _, [] => isFalse nofun
  | v :: vs, w :: ws => match decEq v w, decEqItems vs ws with
    | isTrue h, isTrue h' => isTrue (by rw [h, h'])
    | isFalse h, _ => isFalse (by simp [h])
    | _, isFalse h => isFalse (by simp [h])

def decEqEntries : (es fs : List (String × Value)) → Decidable (es = fs)
  | [], [] => isTrue rfl
  | [], _ :: _ => isFalse nofun
  | _ :: _, [] => isFalse nofun
  | (k, v) :: es, (l, w) :: fs =>
    if hk : k = l then
      match decEq v w, decEqEntries es fs with
      | isTrue h, isTrue h' => isTrue (by rw [hk, h, h'])
      | isFalse h, _ => isFalse (by simp [h])
      | _, isFalse h => isFalse (by simp [h])
    else isFalse (by simp [hk])

end

instance : DecidableEq Value := decEq

mutual

/-- Equality up to the order of the keys of objects and the sign of zero. -/
def same : Value → Value → Bool
  | null, null => true
  | bool a, bool b => a == b
  | int a, int b => a == b
  | double a, double b => a.sameNumber b
  | string a, string b => a == b
  | list a, list b => sameItems a b
  | object a, object b => a.length == b.length && sameEntries a b
  | _, _ => false

def sameItems : List Value → List Value → Bool
  | [], [] => true
  | v :: vs, w :: ws => same v w && sameItems vs ws
  | _, _ => false

/-- Whether every entry of the first list has an equal one in the second. -/
def sameEntries : List (String × Value) → List (String × Value) → Bool
  | [], _ => true
  | (k, v) :: es, fs => (match Entries.get? k fs with
    | some w => same v w
    | none => false) && sameEntries es fs

end

def isNull : Value → Bool
  | null => true
  | _ => false

def asString? : Value → Option String
  | string s => some s
  | _ => none

def asObject? : Value → Option Object
  | object entries => some entries
  | _ => none

/-- An integer of the signed 64-bit range. -/
def asInt64? : Value → Option Int
  | int n => if -0x8000000000000000 ≤ n ∧ n < 0x8000000000000000 then some n else none
  | _ => none

/-- An integer of the signed 32-bit range. -/
def asInt32? : Value → Option Int
  | int n => if -0x80000000 ≤ n ∧ n < 0x80000000 then some n else none
  | _ => none

/-- A number as a double, integers being rounded to the nearest one. -/
def asDouble? : Value → Option Double
  | int n => Double.ofInt? n
  | double d => some d
  | _ => none

/-- The value of one property, if the value is an object that has it. -/
def property? (v : Value) (key : String) : Option Value := v.asObject?.bind fun o => Entries.get? key o

/-- The name of the JSON type, for messages. -/
def typeName : Value → String
  | null => "null"
  | bool _ => "boolean"
  | int _ | double _ => "number"
  | string _ => "string"
  | list _ => "array"
  | object _ => "object"

/-- What the value is worth as an `Int` input: an integer of 32
bits, or the text of one. -/
def intInput? : Value → Option Int
  | int n => asInt32? (int n)
  | string s => Text.int32? (Text.trim s.toList)
  | _ => none

/-- What the value is worth as a `Float` input: a finite number,
or the text of one. -/
def floatInput? : Value → Option Double
  | int n => asDouble? (int n)
  | double d => some d
  | string s => (Decimal.read? (Text.trim s.toList)).bind Decimal.toDouble?
  | _ => none

end Value

end SelectionEngine
