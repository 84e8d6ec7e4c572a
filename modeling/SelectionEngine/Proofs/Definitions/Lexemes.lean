import SelectionEngine.Definitions.Lexeme
import SelectionEngine.Proofs.Definitions.Tokens

namespace SelectionEngine.Definitions

/-- The tokens that are printed. -/
inductive Token.Written : Token → Prop
  | mark {c : Char} : c ∈ marks → Written (.mark c)
  | name {text : String} : IsName text → Written (.name text)
  | number (numeral : Numeral) : Written numeral.token
  | string (text : List Char) : Written (.string (text.flatMap Json.escape))

namespace Token

theorem ne_of_isNamePart {c other : Char} (part : isNamePart c = true) (outside : isNamePart other = false) :
    c ≠ other := by
  rintro rfl
  rw [part] at outside
  cases outside

theorem not_mem_marks {c : Char} (part : isNamePart c = true) : c ∉ marks := by
  intro member
  have outside : marks.all (! isNamePart ·) = true := rfl
  have other : (! isNamePart c) = true := List.all_eq_true.mp outside c member
  rw [part] at other
  cases other

theorem isNamePart_of_isNameStart {c : Char} (start : isNameStart c = true) : isNamePart c = true := by
  simp only [isNameStart, isNamePart, Char.isAlphanum, Bool.or_eq_true] at start ⊢
  exact start.imp_left .inl

theorem isNamePart_of_isDigit {c : Char} (digit : c.isDigit = true) : isNamePart c = true := by
  simp [isNamePart, Char.isAlphanum, digit]

theorem not_isNameStart_of_isDigit {c : Char} (digit : c.isDigit = true) : isNameStart c = false := by
  have bounds : '0' ≤ c ∧ c ≤ '9' := by simpa [Char.isDigit, Char.le_def] using digit
  have upper : c.toNat ≤ 57 := Char.le_def.mp bounds.2
  have least (letter : Char) (le : letter.val ≤ c.val) : letter.toNat ≤ 57 :=
    Nat.le_trans (UInt32.le_iff_toNat_le.mp le) upper
  refine Bool.eq_false_iff.mpr fun start => ?_
  unfold isNameStart Char.isAlpha Char.isUpper Char.isLower at start
  simp only [Bool.or_eq_true, Bool.and_eq_true, decide_eq_true_eq, beq_iff_eq] at start
  rcases start with (⟨letter, _⟩ | ⟨letter, _⟩) | rfl
  · exact absurd (least _ letter) (by decide)
  · exact absurd (least _ letter) (by decide)
  · cases digit

theorem read?_mark {c : Char} (listed : c ∈ marks) (rest : List Char) :
    read? (c :: rest) = some (.mark c, rest) := by
  have outside : marks.all (fun other => other ≠ '.' ∧ other ≠ '"') = true := rfl
  obtain ⟨point, quote⟩ := of_decide_eq_true (List.all_eq_true.mp outside c listed)
  rw [read?, if_pos listed]
  · exact fun _ same _ => point same
  · exact fun _ same _ => quote same
  · exact quote

/-- A letter or an underscore starts a name. -/
theorem read?_nameStart {c : Char} (start : isNameStart c = true) {text part rest : List Char}
    (split : text.span isNamePart = (part, rest)) :
    read? (c :: text) = some (.name (String.ofList (c :: part)), rest) := by
  have part' := isNamePart_of_isNameStart start
  rw [read?, if_neg (not_mem_marks part'), if_pos start]
  · simp only [split]
  · rintro _ rfl
    cases part'
  · rintro _ rfl
    cases part'
  · rintro rfl
    cases part'

/-- A digit or a minus starts a number. -/
theorem read?_numberStart {c : Char} (start : c = '-' ∨ c.isDigit = true) (text : List Char) :
    read? (c :: text) = readNumber? (c :: text) := by
  have unlisted : c ∉ marks := by
    rcases start with rfl | digit
    · decide
    · exact not_mem_marks (isNamePart_of_isDigit digit)
  have noName : ¬ isNameStart c = true := by
    rcases start with rfl | digit
    · decide
    · simp [not_isNameStart_of_isDigit digit]
  rw [read?, if_neg unlisted, if_neg noName]
  · rintro _ rfl
    rcases start with point | digit
    · cases point
    · cases digit
  · rintro _ rfl
    rcases start with quote | digit
    · cases quote
    · cases digit
  · rintro rfl
    rcases start with quote | digit
    · cases quote
    · cases digit

theorem read?_name {text : String} (named : IsName text) {rest : List Char} (stops : Stops rest) :
    read? (text.toList ++ rest) = some (.name text, rest) := by
  obtain ⟨c, part, shape, start, parts⟩ := named
  have split := span_append (List.all_eq_true.mp parts) fun other next => (stops other next).1
  rw [shape, List.cons_append, read?_nameStart start split, ← shape, String.ofList_toList]

theorem read?_number (numeral : Numeral) {rest : List Char} (stops : Stops rest) :
    read? (numeral.text ++ rest) = some (numeral.token, rest) := by
  obtain ⟨c, others, shape, start⟩ : ∃ c others, numeral.text = c :: others ∧ (c = '-' ∨ c.isDigit = true) := by
    obtain ⟨first, others, shape, digit⟩ := numeral.exists_unsigned
    rw [Numeral.text, Numeral.sign, shape]
    split
    · exact ⟨_, _, rfl, .inl rfl⟩
    · exact ⟨_, _, rfl, .inr digit⟩
  have read := numeral.readNumber?_append stops
  rw [shape, List.cons_append] at read ⊢
  rw [read?_numberStart start, read]

theorem read?_string (text : List Char) {rest : List Char} (stops : Stops rest) :
    read? ('"' :: (text.flatMap Json.escape ++ '"' :: rest)) = some (.string (text.flatMap Json.escape), rest) := by
  rw [read?, readString?_escape]
  · simp [wellEscaped_escape]
  · -- the quotes of an empty string are not the start of tripled ones
    intro others tripled
    cases text with
    | nil => exact (stops '"' (by rw [(List.cons.inj tripled).2]; rfl)).2.2 rfl
    | cons c text =>
      obtain ⟨first, _, shape, quote, _⟩ := (escapes_escape c).head_ne_quote
      rw [List.flatMap_cons, shape] at tripled
      exact quote (List.cons.inj tripled).1

/-- Whether a token ends by itself. -/
def endsItself : Token → Bool
  | mark _ => true
  | _ => false

theorem endsItself_number (numeral : Numeral) : ¬ numeral.token.endsItself = true := by
  rw [Numeral.token]
  split <;> exact Bool.false_ne_true

/-- A printed token is read from its text, if it ends by itself
or something stops it. -/
theorem read?_text {token : Token} (written : token.Written) {rest : List Char}
    (stops : token.endsItself = true ∨ Stops rest) : read? (token.text ++ rest) = some (token, rest) := by
  cases written with
  | mark listed => exact read?_mark listed rest
  | name named => exact read?_name named (stops.resolve_left nofun)
  | number numeral =>
    rw [numeral.text_token]
    exact read?_number numeral (stops.resolve_left (endsItself_number numeral))
  | string text =>
    have read := read?_string text (stops.resolve_left nofun)
    rwa [List.append_cons, ← List.cons_append, ← List.cons_append] at read

/-- No printed token is a block, whatever its text is. -/
theorem Written.ne_block {token : Token} (written : token.Written) (body : List Char) : token ≠ .block body := by
  cases written with
  | number numeral =>
    rw [Numeral.token]
    split <;> simp
  | _ => simp

/-- A printed token starts with something that is neither a
separator nor a comment. -/
theorem Written.head {token : Token} (written : token.Written) :
    ∃ c rest, token.text = c :: rest ∧ isSeparator c = false ∧ c ≠ '#' := by
  have solid {c : Char} (part : isNamePart c = true) : isSeparator c = false ∧ c ≠ '#' := by
    refine ⟨Bool.eq_false_iff.mpr fun separator => ?_, ne_of_isNamePart part rfl⟩
    simp only [isSeparator, Bool.or_eq_true, beq_iff_eq] at separator
    rcases separator with ((((rfl | rfl) | rfl) | rfl) | rfl) | rfl <;> cases part
  cases written with
  | @mark c listed =>
    have known : marks.all (fun c => isSeparator c = false ∧ c ≠ '#') = true := rfl
    exact ⟨c, [], rfl, of_decide_eq_true (List.all_eq_true.mp known c listed)⟩
  | name named =>
    obtain ⟨c, rest, shape, start, _⟩ := named
    exact ⟨c, rest, shape, solid (isNamePart_of_isNameStart start)⟩
  | number numeral =>
    obtain ⟨first, others, shape, digit⟩ := numeral.exists_unsigned
    rw [numeral.text_token, Numeral.text, Numeral.sign, shape]
    split
    · exact ⟨_, _, rfl, rfl, by decide⟩
    · exact ⟨first, others, rfl, solid (isNamePart_of_isDigit digit)⟩
  | string text => exact ⟨_, _, rfl, rfl, by decide⟩

end Token

/-- Whether lexemes may stand after any token: they start after a
gap or with a mark. -/
def Opens (lexemes : List Lexeme) : Prop := ∀ next ∈ lexemes.head?, next.gap ≠ [] ∨ next.token.endsItself = true

/-- Lexemes whose tokens are printed ones, with separators in all gaps and one
in each gap that has to have one. -/
inductive WellSpaced : List Lexeme → Prop
  | nil : WellSpaced []
  | cons {lexeme : Lexeme} {rest : List Lexeme} : (∀ c ∈ lexeme.gap, isSeparator c = true) → lexeme.token.Written →
      (lexeme.token.endsItself = true ∨ Opens rest) →
      WellSpaced rest → WellSpaced (lexeme :: rest)

theorem spanGap_append {gap rest : List Char} (separators : ∀ c ∈ gap, isSeparator c = true)
    (solid : ∀ c ∈ rest.head?, isSeparator c = false ∧ c ≠ '#') : spanGap false (gap ++ rest) = (gap, rest) := by
  induction gap with
  | nil =>
    cases rest with
    | nil => rfl
    | cons c rest =>
      obtain ⟨separator, hash⟩ := solid c rfl
      simp [spanGap, separator, hash]
  | cons c gap ih =>
    obtain ⟨separator, others⟩ := List.forall_mem_cons.mp separators
    have hash : (c == '#') = false := by
      refine Bool.eq_false_iff.mpr fun same => ?_
      rw [eq_of_beq same] at separator
      cases separator
    simp [spanGap, separator, hash, ih others]

namespace Lexeme

theorem stops_of_separator {c : Char} (separator : isSeparator c = true) (rest : List Char) :
    Stops (c :: rest) := by
  rintro _ ⟨⟩
  simp only [isSeparator, Bool.or_eq_true, beq_iff_eq] at separator
  rcases separator with ((((rfl | rfl) | rfl) | rfl) | rfl) | rfl <;> decide

theorem stops_of_mark {c : Char} (listed : c ∈ marks) (rest : List Char) : Stops (c :: rest) := by
  rintro _ ⟨⟩
  have known : marks.all (fun c => isNamePart c = false ∧ c ≠ '.' ∧ c ≠ '"') = true := rfl
  exact of_decide_eq_true (List.all_eq_true.mp known c listed)

section

variable {lexemes : List Lexeme} {following : List Char} (spaced : WellSpaced lexemes) (stops : Stops following)

include spaced stops

/-- What follows a token whose end is not marked stops it. -/
theorem stops_textOfAll (opens : Opens lexemes) : Stops (textOfAll lexemes ++ following) := by
  cases spaced with
  | nil => exact stops
  | @cons lexeme rest separators written _ _ =>
    obtain ⟨gap, token⟩ := lexeme
    cases gap with
    | cons c gap => exact stops_of_separator (separators c (.head _)) _
    | nil =>
      have marked : token.endsItself = true := (opens _ rfl).resolve_left fun nonempty => nonempty rfl
      cases written with
      | mark listed => exact stops_of_mark listed _
      | name _ => cases marked
      | number numeral => exact absurd marked (Token.endsItself_number numeral)
      | string _ => cases marked

theorem readAll_textOfAll (blank : (spanGap false following).2 = []) {fuel : Nat} (enough : lexemes.length < fuel) :
    readAll fuel (textOfAll lexemes ++ following) = some lexemes := by
  induction spaced generalizing fuel with
  | nil =>
    obtain ⟨fuel, rfl⟩ := Nat.exists_eq_add_of_lt enough
    simp [textOfAll, readAll, blank]
  | @cons lexeme rest separators written ends spaced ih =>
    obtain ⟨fuel, rfl⟩ : ∃ less, fuel = less + 1 := Nat.exists_eq_add_one_of_ne_zero (by omega)
    have others := ih (Nat.lt_of_succ_lt_succ enough)
    obtain ⟨c, text, shape, solid⟩ := written.head
    have gap : spanGap false (lexeme.gap ++ (lexeme.token.text ++ (textOfAll rest ++ following))) =
        (lexeme.gap, lexeme.token.text ++ (textOfAll rest ++ following)) :=
      spanGap_append separators (by rw [shape]; rintro _ ⟨⟩; exact solid)
    have token := Token.read?_text written (ends.imp_right (stops_textOfAll spaced stops))
    have whole : textOfAll (lexeme :: rest) ++ following =
        lexeme.gap ++ (lexeme.token.text ++ (textOfAll rest ++ following)) := by
      simp [textOfAll, Lexeme.text]
    have more : ¬ (lexeme.token.text ++ (textOfAll rest ++ following)).isEmpty = true := by simp [shape]
    rw [whole, readAll]
    simp only [gap, if_neg more, token, bind, Option.bind, others, pure]

end

theorem length_le_textOfAll {lexemes : List Lexeme} (spaced : WellSpaced lexemes) :
    lexemes.length ≤ (textOfAll lexemes).length := by
  induction spaced with
  | nil => exact Nat.le_refl 0
  | cons _ written _ _ ih =>
    obtain ⟨c, text, shape, _⟩ := written.head
    simp only [textOfAll, List.flatMap_cons, Lexeme.text, List.length_append, shape, List.length_cons] at ih ⊢
    omega

/-- Lexemes are read as they are written, up to a gap at the end of the text. -/
theorem ofText?_textOfAll {lexemes : List Lexeme} (spaced : WellSpaced lexemes) {following : List Char}
    (stops : Stops following) (blank : (spanGap false following).2 = []) :
    ofText? (textOfAll lexemes ++ following) = some lexemes := by
  refine readAll_textOfAll spaced stops blank ?_
  have enough := length_le_textOfAll spaced
  rw [List.length_append]
  omega

end Lexeme

theorem opens_gap {gap : List Char} (nonempty : gap ≠ []) (token : Token) (rest : List Lexeme) :
    Opens (⟨gap, token⟩ :: rest) := by
  rintro _ ⟨⟩
  exact .inl nonempty

theorem opens_mark (gap : List Char) (c : Char) (rest : List Lexeme) : Opens (⟨gap, .mark c⟩ :: rest) := by
  rintro _ ⟨⟩
  exact .inr rfl

namespace WellSpaced

variable {lexemes others : List Lexeme}

/-- Lexemes may be followed by ones that may stand after any token. -/
theorem append (first : WellSpaced lexemes) (second : WellSpaced others) (opens : Opens others) :
    WellSpaced (lexemes ++ others) := by
  induction first with
  | nil => exact second
  | @cons lexeme rest separators written next _ ih =>
    refine .cons separators written (next.imp_right fun next => ?_) ih
    cases rest with
    | nil => exact opens
    | cons _ _ => exact next

theorem mark {gap : List Char} {c : Char} (separators : ∀ c ∈ gap, isSeparator c = true) (listed : c ∈ marks)
    (spaced : WellSpaced lexemes) : WellSpaced (⟨gap, .mark c⟩ :: lexemes) :=
  .cons separators (.mark listed) (.inl rfl) spaced

theorem name {gap : List Char} {text : String} (separators : ∀ c ∈ gap, isSeparator c = true) (named : IsName text)
    (spaced : WellSpaced lexemes) (opens : Opens lexemes) : WellSpaced (⟨gap, .name text⟩ :: lexemes) :=
  .cons separators (.name named) (.inr opens) spaced

theorem written (spaced : WellSpaced lexemes) : ∀ lexeme ∈ lexemes, lexeme.token.Written := by
  induction spaced with
  | nil => exact List.forall_mem_nil _
  | cons _ written _ _ ih => exact List.forall_mem_cons.mpr ⟨written, ih⟩

end WellSpaced

end SelectionEngine.Definitions
