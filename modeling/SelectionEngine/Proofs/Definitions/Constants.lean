import SelectionEngine.Proofs.Definitions.Cutting
import SelectionEngine.Proofs.Definitions.Refused
import SelectionEngine.Proofs.Definitions.Yields
import SelectionEngine.Proofs.Schema.Declarations

namespace SelectionEngine

namespace Definitions

/-- What stands between the quotes at the two ends of a literal,
if they are there. -/
def inside? (quotes literal : List Char) : Option (List Char) :=
  (quotes.isPrefixOf? literal).bind quotes.isSuffixOf?

/-- The quotes of a block. -/
def tripled : List Char := ['"', '"', '"']

/-- The text that the literal of a string stands for, told by the literal alone:
with tripled quotes it is a block. -/
def unquote (literal : List Char) : List Char :=
  match inside? tripled literal with
  | some block => Text.trim (unescapeBlock block)
  | none => unescape ((inside? ['"'] literal).getD literal)

theorem inside?_eq_some {quotes literal body : List Char} :
    inside? quotes literal = some body ↔ literal = quotes ++ (body ++ quotes) := by
  simp [inside?, Option.bind_eq_some_iff, eq_comm]

variable {text rest body : List Char}

/-- A string stands between quotes that are not the start of tripled ones. -/
theorem Token.read?_eq_string (read : read? text = some (.string body, rest)) :
    text = '"' :: (body ++ '"' :: rest) ∧ ∀ more, body ++ '"' :: rest ≠ '"' :: '"' :: more := by
  unfold read? at read
  split at read
  · cases read
  · obtain ⟨_, _, same⟩ := Option.map_eq_some_iff.mp read
    cases same
  · next noBlock =>
    obtain ⟨⟨part, more⟩, readPart, same⟩ := Option.bind_eq_some_iff.mp read
    dsimp only at same
    split at same
    · cases same
      obtain ⟨rfl, _⟩ := readString?_again readPart
      exact ⟨rfl, fun more => noBlock more⟩
    · cases same
  · split at read
    · cases read
    split at read
    · cases read
    · obtain ⟨digits, same | same⟩ := exists_digits_of_readNumber? read <;> cases same
  · cases read

theorem inside?_string (read : Token.read? text = some (.string body, rest)) :
    inside? tripled (Token.string body).text = none := by
  obtain ⟨_, single⟩ := Token.read?_eq_string read
  refine Option.eq_none_iff_forall_ne_some.mpr fun block found => ?_
  have front : body ++ ['"'] = '"' :: '"' :: (block ++ tripled) := (List.cons.inj (inside?_eq_some.mp found)).2
  refine single (block ++ tripled ++ rest) ?_
  rw [List.append_cons, front]
  rfl

theorem unquote_string (read : Token.read? text = some (.string body, rest)) :
    unquote (Token.string body).text = unescape body := by
  have single : inside? ['"'] (Token.string body).text = some body := inside?_eq_some.mpr rfl
  rw [unquote, inside?_string read, single]
  rfl

theorem unquote_block (body : List Char) : unquote (Token.block body).text = Text.trim (unescapeBlock body) := by
  have block : inside? tripled (Token.block body).text = some body := inside?_eq_some.mpr rfl
  rw [unquote, block]

/-- A string of any kind is read as what its literal stands for: the literal
tells blocks as the lexer does. -/
theorem constant_unquote {token : Token} (read : Token.read? text = some (token, rest))
    (string : Reader.isDescription token = true) (gap : List Char) (more : List Lexeme) :
    constant (⟨gap, token⟩ :: more) = some (.string (String.ofList (unquote token.text)), more) := by
  rw [constant, literalWithin_eq]
  cases token with
  | string body =>
    rw [unquote_string read]
    rfl
  | block body =>
    rw [unquote_block]
    rfl
  | _ => cases string

end Definitions

open Definitions

namespace Value

/-- The text of a value as a constant. -/
def constantText (value : Value) : List Char := Lexeme.textOfAll (Layout.constant [] value)

theorem constantText_string (text : String) : (string text).constantText = Json.quoteString text := by
  simp [constantText, Layout.constant, Lexeme.textOfAll, Lexeme.text, Token.text, Json.quoteString, Json.quote]

variable {value : Value}

theorem ofText?_constantText (written : value.Written) :
    Lexeme.ofText? value.constantText = some (Layout.constant [] value) := by
  have spaced := Layout.wellSpaced_constant written [] Layout.separates_nil
  have alone : Stops [] := nofun
  rw [← Lexeme.ofText?_textOfAll spaced alone rfl, List.append_nil, constantText]

/-- The text of a value has no blocks in it. -/
theorem ne_block_of_mem_constant (written : value.Written) :
    ∀ lexeme ∈ Layout.constant [] value, ∀ body, lexeme.token ≠ .block body := by
  have spaced := Layout.wellSpaced_constant written [] Layout.separates_nil
  exact fun lexeme member => (spaced.written lexeme member).ne_block

/-- All of the text of a value is read as one constant, unless
parts of it lie too deep. -/
theorem constant_layout (value : Value) : constant (Layout.constant [] value) =
    if value.height ≤ nestingLimit then some (value.literal, []) else none := by
  rw [constant, ← List.append_nil (Layout.constant [] value)]
  split
  · next fits => exact literalWithin_layout _ value fits [] []
  · next deep => exact literalWithin_deep _ value (Nat.lt_of_not_le deep) [] []

/-- The text of a value is read as one constant to its end, and as that very
value, unless parts of it lie deeper than is read. A string is quoted as in JSON
and unquoted again, and neither the lexer nor the literal takes it for a block. -/
theorem constant_text_reads_back :
    (∀ value : Value, value.Written → ∃ lexemes literal, Lexeme.ofText? value.constantText = some lexemes ∧
      (∀ lexeme ∈ lexemes, ∀ body, lexeme.token ≠ .block body) ∧
      constant lexemes = (if value.height ≤ nestingLimit then some (literal, []) else none) ∧
      literal.toValue = .ok value) ∧
    ∀ text : String, (Value.string text).constantText = Json.quoteString text ∧
      unquote (Json.quoteString text) = text.toList ∧ inside? tripled (Json.quoteString text) = none ∧
      ∀ rest, Stops rest → ∃ body, Token.read? (Json.quoteString text ++ rest) = some (.string body, rest) := by
  refine ⟨fun value written => ?_, fun text => ?_⟩
  · exact ⟨_, value.literal, ofText?_constantText written, ne_block_of_mem_constant written, constant_layout value,
      toValue_literal written⟩
  · have literal : Json.quoteString text = (Token.string (text.toList.flatMap Json.escape)).text := rfl
    have read (rest : List Char) (stops : Stops rest) := Token.read?_text (.string text.toList) (.inr stops)
    have alone := read [] nofun
    refine ⟨constantText_string text, ?_, ?_, fun rest stops => ⟨_, literal ▸ read rest stops⟩⟩
    · rw [literal, unquote_string alone, unescape_escape]
    · rw [literal, inside?_string alone]

/-- A value with everything that a constant can have, and with quotes at
the ends of its strings. -/
def parcel : Value := .object [
  ("null", .list [.null, .bool true, .int (-0x8000000000000000), .string "", .list []]),
  ("label", .object [("text", .string "\"\"\"\\u0041\n\x07é😀\"\"\""), ("_2", .object [])])]

theorem constant_text_reads_back_parcel : parcel.Written ∧ parcel.height ≤ nestingLimit ∧ ∃ lexemes literal,
    Lexeme.ofText? parcel.constantText = some lexemes ∧
      (∀ lexeme ∈ lexemes, ∀ body, lexeme.token ≠ .block body) ∧
      constant lexemes = some (literal, []) ∧ literal.toValue = .ok parcel := by
  have written : parcel.Written := by decide +kernel
  have fits : parcel.height ≤ nestingLimit := by decide +kernel
  obtain ⟨lexemes, literal, lexed, noBlocks, read, known⟩ := constant_text_reads_back.1 parcel written
  rw [if_pos fits] at read
  exact ⟨written, fits, lexemes, literal, lexed, noBlocks, read, known⟩

example : String.ofList parcel.constantText =
    "\x7bnull: [null, true, -9223372036854775808, \"\", []], " ++
      "label: \x7btext: \"\\\"\\\"\\\"\\\\u0041\\n\\u0007é😀\\\"\\\"\\\"\", _2: \x7b\x7d\x7d\x7d" := by
  decide +kernel

end Value

end SelectionEngine
