import SelectionEngine.Proofs.Definitions.Readers
import SelectionEngine.Schema.Source

namespace SelectionEngine

namespace Text

theorem character?_surrogate {unit : Nat} (surrogate : isHighSurrogate unit = true ∨ isLowSurrogate unit = true) :
    character? unit = none := by
  simp only [isHighSurrogate, isLowSurrogate, Bool.and_eq_true, decide_eq_true_eq] at surrogate
  refine dif_neg fun valid => ?_
  unfold Nat.isValidChar at valid
  omega

end Text

namespace Definitions

open Reader

/-- A code unit as an escape has it: four hexadecimal digits,
each of either case. -/
structure CodeUnit where
  digits : List Char
  value : Nat
  four : digits.length = 4
  reads : Text.natural? 16 digits = some value

namespace CodeUnit

variable (code : CodeUnit)

theorem exists_digits : ∃ a b c d, code.digits = [a, b, c, d] := by
  obtain ⟨digits, _, four, _⟩ := code
  match digits, four with
  | [a, b, c, d], _ => exact ⟨a, b, c, d, rfl⟩

theorem ne_of_mem {c other : Char} (member : c ∈ code.digits) (none : Text.digit? 16 other = none) : c ≠ other := by
  rintro rfl
  have digit := Text.digit?_of_natural? code.reads c member
  rw [none] at digit
  cases digit

theorem plain : ∀ c ∈ code.digits, c ≠ '"' ∧ c ≠ '\\' ∧ isLineEnd c = false := by
  intro c member
  refine ⟨code.ne_of_mem member (by decide), code.ne_of_mem member (by decide), ?_⟩
  have newline : c ≠ '\n' := code.ne_of_mem member (by decide)
  have carriage : c ≠ '\r' := code.ne_of_mem member (by decide)
  simp [isLineEnd, newline, carriage]

end CodeUnit

/-- A character of a string as a literal spells it. -/
inductive Spelled where
  /-- The character itself, if it neither ends the literal nor
  starts an escape. -/
  | raw (c : Char) : c ≠ '"' → c ≠ '\\' → Spelled
  | short (letter c : Char) : (letter, c) ∈ ('/', '/') :: shortEscapes → Spelled
  | unit (code : CodeUnit) (c : Char) : code.value = c.toNat → Spelled
  /-- A character beyond the basic plane by the two halves of its
  surrogate pair. -/
  | pair (high low : CodeUnit) (c : Char) : Text.isHighSurrogate high.value = true →
      Text.isLowSurrogate low.value = true → Text.pairCodePoint high.value low.value = c.toNat → Spelled

namespace Spelled

def character : Spelled → Char
  | raw c _ _ | short _ c _ | unit _ c _ | pair _ _ c _ _ _ => c

def written : Spelled → List Char
  | raw c _ _ => [c]
  | short letter _ _ => ['\\', letter]
  | unit code _ _ => '\\' :: 'u' :: code.digits
  | pair high low _ _ _ _ => '\\' :: 'u' :: high.digits ++ '\\' :: 'u' :: low.digits

def isPair : Spelled → Bool
  | pair .. => true
  | raw .. | short .. | unit .. => false

/-- Whether the character is the end of a line as it is. -/
def endsLine : Spelled → Bool
  | raw c _ _ => isLineEnd c
  | short .. | unit .. | pair .. => false

/-- What is read for the character: the two escapes of a surrogate pair
are left as they are. -/
def heard (spelled : Spelled) : List Char := if spelled.isPair then spelled.written else [spelled.character]

variable (spelled : Spelled) (spelling : List Spelled)

theorem exists_written : ∃ first rest, spelled.written = first :: rest ∧ first ≠ '"' ∧
    isLineEnd first = spelled.endsLine := by
  cases spelled with
  | raw c quote _ => exact ⟨c, [], rfl, quote, rfl⟩
  | short | unit | pair => exact ⟨'\\', _, rfl, by decide, rfl⟩

theorem short_known : ∀ pair ∈ ('/', '/') :: shortEscapes, pair.1 ≠ 'u' ∧ isLineEnd pair.1 = false ∧
    ['"', '\\', '/', 'b', 'f', 'n', 'r', 't'].contains pair.1 = true := by decide

theorem unescape_slash (rest : List Char) : unescape ('\\' :: '/' :: rest) = '/' :: unescape rest := by
  simp [unescape]

theorem readBody?_unit (code : CodeUnit) (rest : List Char) :
    Token.readBody? ('\\' :: 'u' :: code.digits ++ rest) =
      (Token.readBody? rest).map fun read => ('\\' :: 'u' :: code.digits ++ read.1, read.2) := by
  rw [List.cons_append, List.cons_append, Token.readBody?_escaped rfl, Token.readBody?_plain code.plain,
    Option.map_map]
  rfl

theorem readBody?_written (inLine : spelled.endsLine = false) (rest : List Char) :
    Token.readBody? (spelled.written ++ rest) =
      (Token.readBody? rest).map fun read => (spelled.written ++ read.1, read.2) := by
  cases spelled with
  | raw c quote backslash =>
    exact Token.readBody?_plain (List.forall_mem_singleton.mpr ⟨quote, backslash, inLine⟩) rest
  | short letter c listed => exact Token.readBody?_escaped (short_known _ listed).2.1 rest
  | unit code => exact readBody?_unit code rest
  | pair high low =>
    rw [written, List.append_assoc, readBody?_unit high, readBody?_unit low, Option.map_map]
    simp [Function.comp_def]

theorem wellEscaped_written (rest : List Char) :
    Token.wellEscaped (spelled.written ++ rest) = Token.wellEscaped rest := by
  cases spelled with
  | raw c _ backslash =>
    rw [written, List.singleton_append, Token.wellEscaped]
    all_goals
      intros
      contradiction
  | short letter c listed =>
    obtain ⟨notUnit, _, known⟩ := short_known _ listed
    rw [written, List.cons_append, List.cons_append, List.nil_append, Token.wellEscaped, known, Bool.true_and]
    all_goals
      intros
      contradiction
  | unit code c same =>
    obtain ⟨high, low⟩ := Text.not_isSurrogate c
    obtain ⟨first, second, third, fourth, shape⟩ := code.exists_digits
    have brace : first ≠ '\x7b' := code.ne_of_mem (by simp [shape]) (by decide)
    have reads := code.reads
    rw [shape] at reads
    simp only [written, shape, List.cons_append, List.nil_append]
    rw [Token.wellEscaped.eq_def]
    simp [reads, same, high, low]
  | pair high low c isHigh isLow =>
    obtain ⟨first, second, third, fourth, shape⟩ := high.exists_digits
    obtain ⟨fifth, sixth, seventh, eighth, otherShape⟩ := low.exists_digits
    have brace : first ≠ '\x7b' := high.ne_of_mem (by simp [shape]) (by decide)
    have reads := high.reads
    have otherReads := low.reads
    rw [shape] at reads
    rw [otherShape] at otherReads
    simp only [written, shape, otherShape, List.cons_append, List.nil_append]
    rw [Token.wellEscaped.eq_def]
    simp [reads, otherReads, isHigh, isLow]

theorem unescape_unit_of_none (code : CodeUnit) (none : Text.character? code.value = none) (rest : List Char) :
    unescape ('\\' :: 'u' :: code.digits ++ rest) = '\\' :: 'u' :: code.digits ++ unescape rest := by
  obtain ⟨first, second, third, fourth, shape⟩ := code.exists_digits
  have reads := code.reads
  rw [shape] at reads
  simp [shape, unescape, reads, none]

theorem unescape_written (rest : List Char) :
    unescape (spelled.written ++ rest) = spelled.heard ++ unescape rest := by
  cases spelled with
  | raw c _ backslash =>
    rw [written, List.singleton_append, unescape]
    · rfl
    all_goals
      intros
      contradiction
  | short letter c listed =>
    rcases List.mem_cons.mp listed with same | listed
    · cases same
      exact unescape_slash rest
    · exact unescape_short _ listed rest
  | unit code c same =>
    obtain ⟨first, second, third, fourth, shape⟩ := code.exists_digits
    have reads := code.reads
    rw [shape] at reads
    simp [written, heard, isPair, character, shape, unescape, reads, same, Text.character?_toNat]
  | pair high low c isHigh isLow =>
    have noFirst := unescape_unit_of_none high (Text.character?_surrogate (.inl isHigh))
    have noSecond := unescape_unit_of_none low (Text.character?_surrogate (.inr isLow))
    rw [written, List.append_assoc, noFirst, noSecond]
    simp [heard, isPair, written]

theorem heard_of_not_isPair (single : spelled.isPair = false) : spelled.heard = [spelled.character] :=
  if_neg (by simp [single])

theorem length_heard_of_isPair (paired : spelled.isPair = true) : spelled.heard.length = 12 := by
  cases spelled with
  | pair high low => simp [heard, written, isPair, high.four, low.four]
  | _ => cases paired

/-- What stands between the quotes of a literal. -/
def body : List Char := spelling.flatMap written

/-- The text that a literal spells. -/
def text : List Char := spelling.map character

/-- The text that is read for a literal. -/
def heardText : List Char := spelling.flatMap heard

theorem unescape_body : unescape (body spelling) = heardText spelling := by
  induction spelling with
  | nil => rfl
  | cons spelled spelling ih =>
    rw [body, List.flatMap_cons, unescape_written]
    exact congrArg (spelled.heard ++ ·) ih

theorem wellEscaped_body : Token.wellEscaped (body spelling) = true := by
  induction spelling with
  | nil => rfl
  | cons spelled spelling ih => exact (spelled.wellEscaped_written _).trans ih

theorem length_text_le : (text spelling).length ≤ (heardText spelling).length := by
  induction spelling with
  | nil => exact Nat.le_refl 0
  | cons spelled spelling ih =>
    have one : 1 ≤ spelled.heard.length := by
      cases known : spelled.isPair with
      | false => simp [spelled.heard_of_not_isPair known]
      | true => simp [spelled.length_heard_of_isPair known]
    simp only [text, heardText, List.map_cons, List.flatMap_cons, List.length_cons, List.length_append] at ih ⊢
    omega

/-- A text is read as it is spelled if and only if none of its characters is
spelled as a surrogate pair. -/
theorem heardText_eq_text_iff :
    heardText spelling = text spelling ↔ ∀ spelled ∈ spelling, spelled.isPair = false := by
  induction spelling with
  | nil => exact iff_of_true rfl (List.forall_mem_nil _)
  | cons spelled spelling ih =>
    rw [List.forall_mem_cons, ← ih]
    cases known : spelled.isPair with
    | false => simp [heardText, text, spelled.heard_of_not_isPair known]
    | true =>
      refine iff_of_false (fun same => ?_) fun parts => nomatch parts.1
      have longer := length_text_le spelling
      have lengths := congrArg List.length same
      simp only [heardText, text, List.flatMap_cons, List.map_cons, List.length_append, List.length_cons,
        spelled.length_heard_of_isPair known] at lengths longer
      omega

theorem readBody?_body (rest : List Char) : Token.readBody? (body spelling ++ '"' :: rest) =
    if ∀ spelled ∈ spelling, spelled.endsLine = false then some (body spelling, rest) else none := by
  induction spelling with
  | nil => rfl
  | cons spelled spelling ih =>
    rw [body, List.flatMap_cons, List.append_assoc]
    change Token.readBody? (spelled.written ++ (body spelling ++ '"' :: rest)) = _
    cases inLine : spelled.endsLine with
    | false =>
      rw [spelled.readBody?_written inLine, ih]
      simp only [List.forall_mem_cons, inLine, true_and]
      split <;> rfl
    | true =>
      obtain ⟨c, quote, backslash, line, rfl⟩ :
          ∃ c quote backslash, isLineEnd c = true ∧ spelled = raw c quote backslash := by
        cases spelled with
        | raw c quote backslash => exact ⟨c, quote, backslash, inLine, rfl⟩
        | _ => cases inLine
      rw [if_neg (fun all => by simp [endsLine, line] at all), written, List.singleton_append,
        Token.readBody?, if_pos line]
      · exact quote
      · rintro _ _ rfl
        exact absurd rfl backslash

theorem readString?_body (rest : List Char) : Token.readString? (body spelling ++ '"' :: rest) =
    if ∀ spelled ∈ spelling.tail, spelled.endsLine = false then some (body spelling, rest) else none := by
  cases spelling with
  | nil => rfl
  | cons spelled spelling =>
    have others := readBody?_body spelling rest
    have shape : body (spelled :: spelling) ++ '"' :: rest = spelled.written ++ (body spelling ++ '"' :: rest) := by
      simp [body]
    have whole : body (spelled :: spelling) = spelled.written ++ body spelling := rfl
    obtain ⟨first, more, writes, quote, line⟩ := spelled.exists_written
    rw [shape, List.tail_cons, whole]
    cases inLine : spelled.endsLine with
    | false =>
      have read := spelled.readBody?_written inLine (body spelling ++ '"' :: rest)
      rw [others, writes, List.cons_append] at read
      rw [writes, List.cons_append, Token.readString?, if_neg (by simp [line, inLine]), read]
      split <;> rfl
    | true =>
      cases spelled with
      | raw c =>
        rw [written, List.singleton_append, Token.readString?, if_pos (show isLineEnd c = true from inLine), others]
        split <;> rfl
      | _ => cases inLine

/-- A literal is read as one token if lines end in it at most at its start, and
if it is not taken for the start of a block. -/
theorem read?_body (rest : List Char) :
    Token.read? ('"' :: body spelling ++ '"' :: rest) = some (.string (body spelling), rest) ↔
      (∀ spelled ∈ spelling.tail, spelled.endsLine = false) ∧ (spelling = [] → rest.head? ≠ some '"') := by
  have read (noBlock : ∀ others, body spelling ++ '"' :: rest ≠ '"' :: '"' :: others) :
      Token.read? ('"' :: body spelling ++ '"' :: rest) =
        if ∀ spelled ∈ spelling.tail, spelled.endsLine = false then some (.string (body spelling), rest)
        else none := by
    rw [List.cons_append, Token.read?, readString?_body]
    · split <;> simp [wellEscaped_body]
    · exact noBlock
  cases spelling with
  | nil =>
    by_cases block : rest.head? = some '"'
    · obtain ⟨others, rfl⟩ := List.head?_eq_some_iff.mp block
      refine iff_of_false (fun known => ?_) fun parts => parts.2 rfl rfl
      obtain ⟨_, _, same⟩ := Option.map_eq_some_iff.mp known
      cases same
    · rw [read fun others same => block (by rw [(List.cons.inj same).2]; rfl)]
      exact iff_of_true rfl ⟨List.forall_mem_nil _, fun _ => block⟩
  | cons spelled spelling =>
    obtain ⟨first, more, writes, quote, _⟩ := spelled.exists_written
    rw [read fun others same => by simp [body, writes, quote] at same, ite_eq_left_iff]
    simp

/-- A string is read as a constant, whatever follows. -/
theorem constant_string (gap body : List Char) (rest : List Lexeme) :
    constant (⟨gap, .string body⟩ :: rest) = some (.string (String.ofList (unescape body)), rest) := by
  rw [constant, literalWithin_eq]
  rfl

/-- A literal is read as one token, and as the default value of an argument or
an input field it is read as the text that it spells. Only the surrogate pairs
in it are left as they are written. -/
theorem default_of_spelling :
    (∀ rest, Token.read? ('"' :: body spelling ++ '"' :: rest) = some (.string (body spelling), rest) ↔
      (∀ spelled ∈ spelling.tail, spelled.endsLine = false) ∧ (spelling = [] → rest.head? ≠ some '"')) ∧
    (∀ {lexemes typed rest after : List Lexeme} {name : String} {type : TypeRef} {equals gap : List Char},
      Reader.name (skipDescription lexemes) = some (name, typed) →
      afterMark ':' typeRef typed = some (type, ⟨equals, .mark '='⟩ :: ⟨gap, .string (body spelling)⟩ :: rest) →
      skipDirectives constant rest = some ((), after) →
      ∃ clause, argumentClause lexemes = some (clause, after) ∧
        clause.declare = .ok ⟨name, type, some (.string (String.ofList (heardText spelling)))⟩) ∧
    (heardText spelling = text spelling ↔ ∀ spelled ∈ spelling, spelled.isPair = false) := by
  refine ⟨read?_body spelling, fun {_ _ rest _ name type equals gap} named typed directives => ?_,
    heardText_eq_text_iff spelling⟩
  have given : afterMark '=' constant (⟨equals, .mark '='⟩ :: ⟨gap, .string (body spelling)⟩ :: rest) =
      some (.string (String.ofList (heardText spelling)), rest) := by
    simp [afterMark, constant_string, unescape_body]
  refine ⟨⟨name, type, some (.string (String.ofList (heardText spelling)))⟩, ?_, rfl⟩
  simp [argumentClause, named, typed, whenNext, isMark, given, directives]

/-- The letter A by its code unit, a slash with and without a backslash,
and the end of a line. -/
def mixture : List Spelled := [
  .unit ⟨['0', '0', '4', '1'], 0x41, rfl, by decide⟩ 'A' rfl, .short '/' '/' (by decide),
  .raw '/' (by decide) (by decide), .short 'n' '\n' (by decide)]

theorem default_of_spelling_mixture : ∃ clause,
    argumentClause [⟨[], .name "sign"⟩, ⟨[], .mark ':'⟩, ⟨[' '], .name "String"⟩, ⟨[' '], .mark '='⟩,
      ⟨[' '], .string (body mixture)⟩] = some (clause, []) ∧
    clause.declare = .ok ⟨"sign", .builtIn .string, some (.string "A//\n")⟩ :=
  (default_of_spelling mixture).2.1 rfl rfl rfl

/-- A face by the two halves of its surrogate pair. -/
def face : List Spelled := [
  .pair ⟨['d', '8', '3', 'd'], 0xD83D, rfl, by decide⟩ ⟨['D', 'E', '0', '0'], 0xDE00, rfl, by decide⟩
    '😀' (by decide) (by decide) (by decide)]

/-- A document in which a literal is the default value of an argument. -/
def document (spelling : List Spelled) : String :=
  String.ofList ("type Query \x7b f(x: String = ".toList ++ '"' :: body spelling ++ "\"): Int \x7d".toList)

/-- The default value that the document gives the argument. -/
def documentDefault? (spelling : List Spelled) : Option Value := do
  let schema ← (Schema.ofText (document spelling) {} : Except SchemaError (Schema Unit)).toOption
  let field ← (← schema.lookup? "Query").field? "f"
  (← field.arguments.head?).default

/-- A surrogate pair is read as the two escapes that it is written with. -/
theorem surrogate_pair_left : text face = "😀".toList ∧
    documentDefault? face = some (.string "\\ud83d\\uDE00") ∧ documentDefault? face ≠ some (.string "😀") := by
  have read : documentDefault? face = some (.string "\\ud83d\\uDE00") := by decide +kernel
  exact ⟨by decide, read, by rw [read]; decide⟩

end Spelled

end Definitions

end SelectionEngine
