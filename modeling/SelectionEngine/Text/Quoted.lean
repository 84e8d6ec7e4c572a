import SelectionEngine.Text.Visible

namespace SelectionEngine.Text

/-- A character of a quoted text. One that would not show is
written as its code point. -/
def quotedChar (c : Char) : List Char :=
  if c = '\x00' then ['\\', '0']
  else if c = '\t' then ['\\', 't']
  else if c = '\n' then ['\\', 'n']
  else if c = '\r' then ['\\', 'r']
  else if c = '"' then ['\\', '"']
  else if c = '\\' then ['\\', '\\']
  else if isVisible c then [c]
  else '\\' :: 'u' :: '\x7b' :: Nat.toDigits 16 c.toNat ++ ['\x7d']

/-- The text between quotes, on one line and with every character to be seen. -/
def quoted (text : List Char) : List Char := '"' :: text.flatMap quotedChar ++ ['"']

end SelectionEngine.Text
