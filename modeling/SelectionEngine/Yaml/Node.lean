namespace SelectionEngine.Yaml

/-- A text that stands for a value, written with or without quotes. -/
inductive Scalar where
  | plain (text : String)
  | quoted (text : String)
deriving DecidableEq

def Scalar.text : Scalar → String
  | plain text | quoted text => text

/-- A node of a YAML document. -/
inductive Node where
  | scalar (scalar : Scalar)
  | sequence (items : List Node)
  | mapping (entries : List (Node × Node))
deriving Inhabited

namespace Node

/-- The node that stands where nothing is written. -/
def absent : Node := scalar (.plain "~")

def isNull : Node → Bool
  | scalar (.plain text) => text = "~" || text = "null"
  | _ => false

def text? : Node → Option String
  | scalar s => some s.text
  | _ => none

def bool? : Node → Option Bool
  | scalar (.plain "true") => some true
  | scalar (.plain "false") => some false
  | _ => none

end Node

end SelectionEngine.Yaml
