import SelectionEngine.Yaml.Node

namespace SelectionEngine.Yaml

/-- What a text is made of. Blocks are told by indentation, so nothing is
written where one starts or ends. -/
inductive Token where
  | documentStart
  | documentEnd
  | blockSequence
  | blockMapping
  | blockEnd
  | item
  | key
  | value
  | openSequence
  | closeSequence
  | openMapping
  | closeMapping
  | comma
  | scalar (scalar : Scalar)
deriving DecidableEq

end SelectionEngine.Yaml
