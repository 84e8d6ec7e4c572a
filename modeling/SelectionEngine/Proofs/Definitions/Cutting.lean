import SelectionEngine.Proofs.Definitions.Lexemes
import SelectionEngine.Proofs.Definitions.Locality

namespace SelectionEngine

namespace Definitions

/-- Whether a text goes on as another one does, or with something
that stops every token. -/
def Continues (rest other : List Char) : Prop :=
  ∀ c ∈ other.head?, c ∈ rest.head? ∨ isNamePart c = false ∧ c ≠ '.' ∧ c ≠ '"'

variable {text rest other : List Char}

theorem Continues.append (continues : Continues rest other) (front : List Char) :
    Continues (front ++ rest) (front ++ other) := by
  cases front with
  | nil => exact continues
  | cons c front => exact fun _ head => .inl head

theorem Continues.refl (rest : List Char) : Continues rest rest := fun _ => .inl

theorem Continues.of_front (continues : Continues rest other) (more : List Char) :
    Continues (rest ++ more) other := by
  refine fun c head => (continues c head).imp_left fun same => ?_
  rw [List.head?_append, Option.mem_def.mp same]
  rfl

/-- The end of a line stops every token. -/
theorem Continues.of_line (continues : Continues (rest ++ '\n' :: text) other) : Continues rest other := by
  cases rest with
  | nil =>
    intro c head
    rcases continues c head with same | stop
    · obtain rfl : '\n' = c := Option.some.inj same
      exact .inr (by decide)
    · exact .inr stop
  | cons _ _ => exact continues

theorem Continues.stops {ends : Char → Prop} (continues : Continues rest other) (before : ∀ c ∈ rest.head?, ends c)
    (stop : ∀ c, isNamePart c = false → c ≠ '.' → c ≠ '"' → ends c) : ∀ c ∈ other.head?, ends c := by
  intro c head
  rcases continues c head with same | ⟨part, point, quote⟩
  · exact before c same
  · exact stop c part point quote

theorem Continues.span {kind : Char → Bool} {part : List Char} (continues : Continues rest other)
    (split : text.span kind = (part, rest)) (stop : ∀ c, isNamePart c = false → kind c = false) :
    text = part ++ rest ∧ (part ++ other).span kind = (part, other) := by
  obtain ⟨shape, all, before⟩ := span_eq split
  exact ⟨shape, span_append all (continues.stops before fun c part _ _ => stop c part)⟩

namespace Token

theorem readWhole?_again {digits : List Char} (read : readWhole? text = some (digits, rest)) :
    text = digits ++ rest ∧ (∃ c ∈ digits.head?, c.isDigit = true) ∧
      ∀ {other}, Continues rest other → readWhole? (digits ++ other) = some (digits, other) := by
  unfold readWhole? at read
  obtain ⟨part, after, split⟩ : ∃ part after, Text.spanDigits text = (part, after) := ⟨_, _, rfl⟩
  simp only [split] at read
  split at read
  · cases read
  · next accepted =>
    cases read
    obtain ⟨shape, all, _⟩ := span_eq split
    refine ⟨shape, ?_, fun continues => ?_⟩
    · cases digits with
      | nil => exact absurd (.inl rfl) accepted
      | cons c digits => exact ⟨c, rfl, all c (.head _)⟩
    · have again : Text.spanDigits (digits ++ _) = _ :=
        (continues.span split fun _ => not_isDigit_of_not_isNamePart).2
      simp only [readWhole?, again, if_neg accepted]

theorem readFraction?_again {fraction : List Char} (read : readFraction? text = some (fraction, rest)) :
    text = fraction ++ rest ∧
      ∀ {other}, Continues rest other → readFraction? (fraction ++ other) = some (fraction, other) := by
  unfold readFraction? at read
  split at read
  · next after =>
    obtain ⟨digits, last, split⟩ : ∃ digits last, Text.spanDigits after = (digits, last) := ⟨_, _, rfl⟩
    simp only [split] at read
    split at read
    · cases read
    · next present =>
      cases read
      obtain ⟨shape, _⟩ := span_eq split
      refine ⟨congrArg ('.' :: ·) shape, fun continues => ?_⟩
      have again : Text.spanDigits (digits ++ _) = _ :=
        (continues.span split fun _ => not_isDigit_of_not_isNamePart).2
      simp only [List.cons_append, readFraction?, again, if_neg present]
  · next noPoint =>
    cases read
    refine ⟨rfl, fun {other} continues => ?_⟩
    have point : ∀ c ∈ other.head?, c ≠ '.' := by
      refine continues.stops (fun c head => ?_) fun _ _ point _ => point
      rintro rfl
      obtain ⟨others, shape⟩ := List.head?_eq_some_iff.mp head
      exact noPoint others shape
    rw [List.nil_append, readFraction?]
    rintro others rfl
    exact point '.' rfl rfl

theorem spanSign_again {sign : List Char} (split : spanSign text = (sign, rest))
    (unsigned : ∀ c ∈ other.head?, c.isDigit = true) :
    text = sign ++ rest ∧ spanSign (sign ++ other) = (sign, other) := by
  unfold spanSign at split
  split at split
  iterate 2
    cases split
    exact ⟨rfl, rfl⟩
  · cases split
    refine ⟨rfl, ?_⟩
    rw [List.nil_append, spanSign]
    all_goals
      rintro others rfl
      cases unsigned _ rfl

theorem readExponent?_of_ne (other : ∀ c ∈ text.head?, ¬(c = 'e' ∨ c = 'E')) :
    readExponent? text = some ([], text) := by
  cases text with
  | nil => rfl
  | cons c text => exact if_neg (other c rfl)

theorem readExponent?_again {exponent : List Char} (read : readExponent? text = some (exponent, rest)) :
    text = exponent ++ rest ∧
      ∀ {other}, Continues rest other → readExponent? (exponent ++ other) = some (exponent, other) := by
  have stop (c : Char) (part : isNamePart c = false) : ¬(c = 'e' ∨ c = 'E') := by
    rintro (rfl | rfl) <;> cases part
  unfold readExponent? at read
  split at read
  · cases read
    exact ⟨rfl, fun continues => readExponent?_of_ne (continues.stops nofun fun c part _ _ => stop c part)⟩
  · next c after =>
    split at read
    · next letter =>
      obtain ⟨sign, unsigned, splitSign⟩ : ∃ sign unsigned, spanSign after = (sign, unsigned) := ⟨_, _, rfl⟩
      obtain ⟨digits, last, split⟩ : ∃ digits last, Text.spanDigits unsigned = (digits, last) := ⟨_, _, rfl⟩
      simp only [splitSign, split] at read
      split at read
      · cases read
      · next present =>
        cases read
        obtain ⟨shape, all, _⟩ := span_eq split
        have digitHead (other : List Char) : ∀ c ∈ (digits ++ other).head?, c.isDigit = true := by
          cases digits with
          | nil => exact absurd rfl present
          | cons digit digits =>
            rintro _ ⟨⟩
            exact all digit (.head _)
        obtain ⟨signed, _⟩ := spanSign_again splitSign (digitHead [])
        refine ⟨by simp [signed, shape], fun {other} continues => ?_⟩
        have again : Text.spanDigits (digits ++ other) = _ :=
          (continues.span split fun _ => not_isDigit_of_not_isNamePart).2
        have sign := (spanSign_again splitSign (digitHead other)).2
        simp [readExponent?, letter, sign, again, present]
    · next noLetter =>
      cases read
      refine ⟨rfl, fun continues => readExponent?_of_ne (continues.stops ?_ fun c part _ _ => stop c part)⟩
      rintro _ ⟨⟩
      exact noLetter

theorem endsNumber_iff : endsNumber text = true ↔ ∀ c ∈ text.head?, isNameStart c = false ∧ c ≠ '.' := by
  cases text <;> simp [endsNumber]

/-- Reads a number after its sign. -/
def readUnsigned? (sign text : List Char) : Option (Token × List Char) := do
  let (whole, rest) ← readWhole? text
  let (fraction, rest) ← readFraction? rest
  let (exponent, rest) ← readExponent? rest
  if !endsNumber rest then none
  let digits := sign ++ whole ++ fraction ++ exponent
  return (if fraction.isEmpty ∧ exponent.isEmpty then int digits else float digits, rest)

theorem readNumber?_minus (text : List Char) : readNumber? ('-' :: text) = readUnsigned? ['-'] text := rfl

theorem readNumber?_of_ne (unsigned : text.head? ≠ some '-') : readNumber? text = readUnsigned? [] text := by
  rw [readNumber?]
  · rfl
  · rintro rest rfl
    exact unsigned rfl

theorem readUnsigned?_again {sign : List Char} {token : Token}
    (read : readUnsigned? sign text = some (token, rest)) :
    ∃ written, text = written ++ rest ∧ (∃ c ∈ written.head?, c.isDigit = true) ∧
      ∀ {other}, Continues rest other → readUnsigned? sign (written ++ other) = some (token, other) := by
  obtain ⟨⟨whole, afterWhole⟩, readWhole, read⟩ := Option.bind_eq_some_iff.mp read
  obtain ⟨⟨fraction, afterFraction⟩, readFraction, read⟩ := Option.bind_eq_some_iff.mp read
  obtain ⟨⟨exponent, last⟩, readExponent, read⟩ := Option.bind_eq_some_iff.mp read
  dsimp only at read
  split at read
  · cases read
  · next ends =>
    cases read
    obtain ⟨rfl, digit, againWhole⟩ := readWhole?_again readWhole
    obtain ⟨rfl, againFraction⟩ := readFraction?_again readFraction
    obtain ⟨rfl, againExponent⟩ := readExponent?_again readExponent
    have before : ∀ c ∈ rest.head?, isNameStart c = false ∧ c ≠ '.' := endsNumber_iff.mp (by simpa using ends)
    refine ⟨whole ++ (fraction ++ exponent), by simp, ?_, fun {other} continues => ?_⟩
    · obtain ⟨c, head, isDigit⟩ := digit
      exact ⟨c, by rw [List.head?_append, head]; rfl, isDigit⟩
    · have endsOther : endsNumber other = true := endsNumber_iff.mpr (continues.stops before fun c part point _ =>
        ⟨not_isNameStart_of_not_isNamePart part, point⟩)
      have wholeAgain := againWhole ((continues.append exponent).append fraction)
      have fractionAgain := againFraction (continues.append exponent)
      simp [readUnsigned?, wholeAgain, fractionAgain, againExponent continues, endsOther]

theorem readNumber?_again {token : Token} (read : readNumber? text = some (token, rest)) :
    ∃ written, text = written ++ rest ∧ (∃ c ∈ written.head?, c = '-' ∨ c.isDigit = true) ∧
      ∀ {other}, Continues rest other → readNumber? (written ++ other) = some (token, other) := by
  by_cases minus : text.head? = some '-'
  · obtain ⟨unsigned, rfl⟩ := List.head?_eq_some_iff.mp minus
    rw [readNumber?_minus] at read
    obtain ⟨written, rfl, _, again⟩ := readUnsigned?_again read
    exact ⟨'-' :: written, rfl, ⟨'-', rfl, .inl rfl⟩, fun continues => again continues⟩
  · rw [readNumber?_of_ne minus] at read
    obtain ⟨written, rfl, ⟨c, head, digit⟩, again⟩ := readUnsigned?_again read
    refine ⟨written, rfl, ⟨c, head, .inr digit⟩, fun {other} continues => ?_⟩
    have unsigned : (written ++ other).head? ≠ some '-' := by
      rw [List.head?_append, head]
      rintro ⟨⟩
      cases digit
    rw [readNumber?_of_ne unsigned]
    exact again continues

theorem readBody?_again {body : List Char} (read : readBody? text = some (body, rest)) :
    text = body ++ '"' :: rest ∧ ∀ other, readBody? (body ++ '"' :: other) = some (body, other) := by
  induction text using readBody?.induct generalizing body with
  | case1 => cases read
  | case2 =>
    cases read
    exact ⟨rfl, fun _ => rfl⟩
  | case3 c text line =>
    rw [readBody?, if_pos line] at read
    cases read
  | case4 c text line ih =>
    rw [readBody?, if_neg line] at read
    obtain ⟨⟨part, last⟩, readPart, same⟩ := Option.map_eq_some_iff.mp read
    cases same
    obtain ⟨rfl, again⟩ := ih readPart
    refine ⟨rfl, fun other => ?_⟩
    rw [List.cons_append, List.cons_append, readBody?, if_neg line, again]
    rfl
  | case5 c text quote backslash line =>
    rw [readBody?, if_pos line] at read
    · cases read
    · exact quote
    · exact backslash
  | case6 c text quote backslash line ih =>
    rw [readBody?, if_neg line] at read
    · obtain ⟨⟨part, last⟩, readPart, same⟩ := Option.map_eq_some_iff.mp read
      cases same
      obtain ⟨rfl, again⟩ := ih readPart
      have plain : c ≠ '\\' := by
        rintro rfl
        cases part <;> exact backslash _ _ rfl rfl
      refine ⟨rfl, fun other => ?_⟩
      rw [List.cons_append, readBody?, if_neg line, again]
      · rfl
      · exact quote
      · exact fun _ _ same _ => plain same
    · exact quote
    · exact backslash

theorem readString?_again {body : List Char} (read : readString? text = some (body, rest)) :
    text = body ++ '"' :: rest ∧ ∀ other, readString? (body ++ '"' :: other) = some (body, other) := by
  cases text with
  | nil => cases read
  | cons c text =>
    rw [readString?] at read
    split at read
    · next line =>
      obtain ⟨⟨part, last⟩, readPart, same⟩ := Option.map_eq_some_iff.mp read
      cases same
      obtain ⟨rfl, again⟩ := readBody?_again readPart
      refine ⟨rfl, fun other => ?_⟩
      rw [List.cons_append, readString?, if_pos line, again]
      rfl
    · next line =>
      obtain ⟨shape, again⟩ := readBody?_again read
      refine ⟨shape, fun other => ?_⟩
      cases body with
      | nil => exact again other
      | cons first body =>
        obtain rfl := (List.cons.inj shape).1
        rw [List.cons_append, readString?, if_neg line]
        exact again other

/-- What up to three characters of a text with tripled quotes are does not
depend on what follows the quotes. -/
theorem exists_of_tripled {body start more : List Char} (short : start.length ≤ 3)
    (shape : body ++ '"' :: '"' :: '"' :: other = start ++ more) :
    ∃ more, body ++ '"' :: '"' :: '"' :: rest = start ++ more := by
  have closed (rest : List Char) : body ++ '"' :: '"' :: '"' :: rest = (body ++ ['"', '"', '"']) ++ rest := by simp
  have front : start <+: body ++ ['"', '"', '"'] := by
    refine List.prefix_of_prefix_length_le ⟨more, (shape.symm.trans (closed other))⟩ (List.prefix_append _ other) ?_
    rw [List.length_append]
    exact Nat.le_add_left_of_le short
  obtain ⟨middle, ends⟩ := front
  exact ⟨middle ++ rest, by rw [closed, ← ends, List.append_assoc]⟩

theorem readBlock?_again {body : List Char} (read : readBlock? text = some (body, rest)) :
    text = body ++ '"' :: '"' :: '"' :: rest ∧
      ∀ other, readBlock? (body ++ '"' :: '"' :: '"' :: other) = some (body, other) := by
  induction text using readBlock?.induct generalizing body with
  | case1 => cases read
  | case2 text ih =>
    rw [readBlock?] at read
    obtain ⟨⟨part, last⟩, readPart, same⟩ := Option.map_eq_some_iff.mp read
    cases same
    obtain ⟨rfl, again⟩ := ih readPart
    refine ⟨rfl, fun other => ?_⟩
    simp only [List.cons_append, readBlock?, again, Option.map_some]
  | case3 text =>
    cases read
    exact ⟨rfl, fun _ => rfl⟩
  | case4 c text escaped tripled ih =>
    rw [readBlock?] at read
    · obtain ⟨⟨part, last⟩, readPart, same⟩ := Option.map_eq_some_iff.mp read
      cases same
      obtain ⟨rfl, again⟩ := ih readPart
      refine ⟨rfl, fun other => ?_⟩
      rw [List.cons_append, readBlock?, again]
      · rfl
      -- Quotes at its start, escaped or not, lie within the body and its own
      -- quotes, so they stood there before.
      · intro more same shape
        obtain ⟨before, shape⟩ := @exists_of_tripled rest _ _ ['"', '"', '"'] more (by decide) shape
        exact escaped before same shape
      · intro more same shape
        obtain ⟨before, shape⟩ := @exists_of_tripled rest _ _ ['"', '"'] more (by decide) shape
        exact tripled before same shape
    · exact escaped
    · exact tripled

theorem not_tripled {body : List Char} (continues : Continues rest other)
    (before : ∀ more, body ++ '"' :: rest = '"' :: '"' :: more → False) :
    ∀ more, body ++ '"' :: other = '"' :: '"' :: more → False := by
  intro more shape
  rcases body with _ | ⟨c, _ | ⟨d, body⟩⟩
  · have same : other = '"' :: more := (List.cons.inj shape).2
    rcases continues '"' (by rw [same]; rfl) with head | ⟨_, _, quote⟩
    · obtain ⟨after, rfl⟩ := List.head?_eq_some_iff.mp head
      exact before after rfl
    · exact quote rfl
  · obtain rfl := (List.cons.inj shape).1
    exact before rest rfl
  · obtain ⟨first, others⟩ := List.cons.inj shape
    obtain ⟨second, _⟩ := List.cons.inj others
    exact before (body ++ '"' :: rest) (by rw [first, second]; rfl)

/-- A token is read again where something else follows it that stops it or
starts as what followed it. -/
theorem read?_again {token : Token} (read : read? text = some (token, rest)) :
    ∃ first more, text = first :: more ++ rest ∧
      ∀ {other}, Continues rest other → read? (first :: more ++ other) = some (token, other) := by
  unfold read? at read
  split at read
  · cases read
    exact ⟨'.', ['.', '.'], rfl, fun _ => rfl⟩
  · obtain ⟨⟨body, last⟩, readBody, same⟩ := Option.map_eq_some_iff.mp read
    cases same
    obtain ⟨rfl, again⟩ := readBlock?_again readBody
    refine ⟨'"', '"' :: '"' :: (body ++ ['"', '"', '"']), by simp, fun {other} _ => ?_⟩
    simp [read?, again]
  · next text tripled =>
    obtain ⟨⟨body, last⟩, readBody, known⟩ := Option.bind_eq_some_iff.mp read
    dsimp only at known
    split at known
    · next escaped =>
      cases known
      obtain ⟨rfl, again⟩ := readString?_again readBody
      refine ⟨'"', body ++ ['"'], by simp, fun {other} continues => ?_⟩
      have shape : '"' :: (body ++ ['"']) ++ other = '"' :: (body ++ '"' :: other) := by simp
      rw [shape, read?]
      · simp [again, escaped]
      · exact not_tripled continues tripled
    · cases known
  · next c text noSpread noBlock noQuote =>
    split at read
    · next listed =>
      cases read
      exact ⟨c, [], rfl, fun {other} _ => read?_mark listed other⟩
    · next unlisted =>
      split at read
      · next start =>
        obtain ⟨part, last, split⟩ : ∃ part last, text.span isNamePart = (part, last) := ⟨_, _, rfl⟩
        simp only [split] at read
        cases read
        obtain ⟨rfl, all, _⟩ := span_eq split
        refine ⟨c, part, rfl, fun {other} continues => ?_⟩
        exact read?_nameStart start (continues.span split fun _ part => part).2
      · obtain ⟨written, shape, ⟨first, head, start⟩, again⟩ := readNumber?_again read
        obtain ⟨more, rfl⟩ := List.head?_eq_some_iff.mp head
        refine ⟨first, more, shape, fun {other} continues => ?_⟩
        rw [List.cons_append, read?_numberStart start]
        exact again continues
  · cases read

end Token

/-- After a gap the rest is split as it would be alone, in a comment or not. -/
theorem exists_afterGap {inComment : Bool} {gap : List Char} (split : spanGap inComment text = (gap, rest)) :
    text = gap ++ rest ∧ ∃ after, (∀ c ∈ rest.head?, after = false ∧ ¬(c = '#' ∨ isSeparator c = true)) ∧
      ∀ other, spanGap inComment (gap ++ other) = (gap ++ (spanGap after other).1, (spanGap after other).2) := by
  induction text generalizing inComment gap with
  | nil =>
    cases split
    exact ⟨rfl, inComment, nofun, fun _ => rfl⟩
  | cons first text ih =>
    unfold spanGap at split
    split at split
    · next comment =>
      obtain ⟨part, others, splitPart⟩ : ∃ part others, spanGap (!isLineEnd first) text = (part, others) :=
        ⟨_, _, rfl⟩
      simp only [splitPart] at split
      cases split
      obtain ⟨rfl, after, solid, again⟩ := ih splitPart
      exact ⟨rfl, after, solid, fun other => by simp [spanGap, comment, again]⟩
    · next noComment =>
      split at split
      · next separator =>
        obtain ⟨part, others, splitPart⟩ : ∃ part others, spanGap (first == '#') text = (part, others) :=
          ⟨_, _, rfl⟩
        simp only [splitPart] at split
        cases split
        obtain ⟨rfl, after, solid, again⟩ := ih splitPart
        exact ⟨rfl, after, solid, fun other => by simp [spanGap, noComment, separator, again]⟩
      · next solid =>
        cases split
        refine ⟨rfl, inComment, ?_, fun _ => rfl⟩
        rintro _ ⟨⟩
        exact ⟨Bool.eq_false_iff.mpr noComment, solid⟩

/-- A gap is split off again where something else follows the
first character after it. -/
theorem spanGap_again {gap : List Char} {c : Char} (split : spanGap false text = (gap, c :: rest)) :
    text = gap ++ c :: rest ∧ ∀ other, spanGap false (gap ++ c :: other) = (gap, c :: other) := by
  obtain ⟨shape, after, solid, again⟩ := exists_afterGap split
  obtain ⟨rfl, noGap⟩ := solid c rfl
  exact ⟨shape, fun other => by simp [again, spanGap, noGap]⟩

/-- A text that is all gap is part of the gap of what starts on the next line. -/
theorem spanGap_line (split : (spanGap false text).2 = []) (other : List Char) :
    spanGap false (text ++ '\n' :: other) = (text ++ '\n' :: (spanGap false other).1, (spanGap false other).2) := by
  have gap : spanGap false text = ((spanGap false text).1, []) := Prod.ext rfl split
  obtain ⟨shape, after, _, again⟩ := exists_afterGap gap
  rw [List.append_nil] at shape
  rw [← shape] at again
  rw [again]
  cases after <;> rfl

/-- The lexemes of a text, one after another. -/
inductive Lexes : List Char → List Lexeme → Prop
  | blank {text : List Char} : (spanGap false text).2 = [] → Lexes text []
  | cons {gap more rest : List Char} {c : Char} {token : Token} {lexemes : List Lexeme} :
      (∀ other, spanGap false (gap ++ c :: other) = (gap, c :: other)) →
      (∀ {other}, Continues rest other → Token.read? (c :: more ++ other) = some (token, other)) →
      Lexes rest lexemes → Lexes (gap ++ (c :: more ++ rest)) (⟨gap, token⟩ :: lexemes)

theorem lexes_of_readAll {fuel : Nat} {lexemes : List Lexeme} (read : Lexeme.readAll fuel text = some lexemes) :
    Lexes text lexemes := by
  induction fuel generalizing text lexemes with
  | zero => cases read
  | succ fuel ih =>
    obtain ⟨gap, solid, split⟩ : ∃ gap solid, spanGap false text = (gap, solid) := ⟨_, _, rfl⟩
    simp only [Lexeme.readAll, split] at read
    split at read
    · next none =>
      cases read
      exact .blank (by rw [split]; exact List.isEmpty_iff.mp none)
    · obtain ⟨⟨token, rest⟩, readToken, read⟩ := Option.bind_eq_some_iff.mp read
      obtain ⟨others, readOthers, same⟩ := Option.bind_eq_some_iff.mp read
      cases same
      obtain ⟨first, more, rfl, again⟩ := Token.read?_again readToken
      obtain ⟨rfl, gapAgain⟩ := spanGap_again split
      exact .cons gapAgain again (ih readOthers)

namespace Lexes

variable {lexemes others : List Lexeme}

theorem readAll (lexes : Lexes text lexemes) {fuel : Nat} (enough : text.length < fuel) :
    Lexeme.readAll fuel text = some lexemes := by
  induction lexes generalizing fuel with
  | blank none =>
    obtain ⟨fuel, rfl⟩ := Nat.exists_eq_add_of_lt enough
    simp [Lexeme.readAll, none]
  | @cons gap more rest c token lexemes split reads lexes ih =>
    obtain ⟨fuel, rfl⟩ : ∃ less, fuel = less + 1 := Nat.exists_eq_add_one_of_ne_zero (Nat.ne_zero_of_lt enough)
    simp only [List.length_append, List.length_cons] at enough
    have readOthers := ih (show rest.length < fuel by omega)
    have readToken := reads (.refl rest)
    rw [List.cons_append] at readToken ⊢
    simp [Lexeme.readAll, split, readToken, readOthers]

theorem iff_ofText? : Lexes text lexemes ↔ Lexeme.ofText? text = some lexemes :=
  ⟨fun lexes => lexes.readAll (Nat.lt_succ_self _), lexes_of_readAll⟩

/-- A text can be cut between any two of its lexemes. -/
theorem cut {front back : List Lexeme} (lexes : Lexes text (front ++ back)) :
    ∃ first second, text = first ++ second ∧ Lexes first front ∧ Lexes second back := by
  induction front generalizing text with
  | nil => exact ⟨[], text, rfl, .blank rfl, lexes⟩
  | cons lexeme front ih =>
    cases lexes with
    | cons split reads lexes =>
      obtain ⟨first, second, rfl, lexesFirst, lexesSecond⟩ := ih lexes
      have lexed := Lexes.cons split (fun continues => reads (continues.of_front second)) lexesFirst
      exact ⟨_, second, by simp, lexed, lexesSecond⟩

/-- Texts can be written on a line each. -/
theorem line {first second : List Char} {front back : List Lexeme} (lexesFirst : Lexes first front)
    (lexesSecond : Lexes second back) : ∃ gap, Lexes (first ++ '\n' :: second) (front ++ regap gap back) := by
  induction lexesFirst with
  | @blank first none =>
    -- Nothing but a gap: it is part of the first gap of the second text.
    have split := spanGap_line none
    cases lexesSecond with
    | blank last =>
      refine ⟨[], .blank ?_⟩
      rw [split]
      exact last
    | @cons gap more rest c token lexemes splitSecond reads lexes =>
      refine ⟨first ++ '\n' :: gap, ?_⟩
      have lexed : Lexes ((first ++ '\n' :: gap) ++ (c :: more ++ rest)) _ := .cons (fun other => by
        have again := split (gap ++ c :: other)
        rw [splitSecond] at again
        simpa using again) reads lexes
      simpa [regap] using lexed
  | @cons gap more rest c token lexemes split reads _ ih =>
    obtain ⟨gap', lexes⟩ := ih
    refine ⟨gap', ?_⟩
    have lexed := Lexes.cons split (fun continues => reads continues.of_line) lexes
    simpa using lexed

end Lexes

/-- Whether a text is that of a definition. -/
def IsPiece (text : List Char) (read : Definition) : Prop := ∃ part, Lexes text part ∧ Defines read part

/-- A text of definitions can be cut into one for each of them. -/
theorem Document.exists_pieces {lexemes : List Lexeme} {definitions : List Definition}
    (document : Document lexemes definitions) (present : definitions ≠ []) (lexes : Lexes text lexemes) :
    ∃ pieces : List (List Char × Definition), text = (pieces.map (·.1)).flatten ∧ pieces.map (·.2) = definitions ∧
      ∀ piece ∈ pieces, IsPiece piece.1 piece.2 := by
  induction document generalizing text with
  | nil => exact absurd rfl present
  | @cons part rest read others defines document ih =>
    cases others with
    | nil =>
      cases document
      rw [List.append_nil] at lexes
      exact ⟨[(text, read)], by simp, rfl, List.forall_mem_singleton.mpr ⟨part, lexes, defines⟩⟩
    | cons second others =>
      obtain ⟨first, text, rfl, lexesFirst, lexesRest⟩ := lexes.cut
      obtain ⟨pieces, rfl, same, each⟩ := ih (List.cons_ne_nil _ _) lexesRest
      exact ⟨(first, read) :: pieces, rfl, congrArg (read :: ·) same,
        List.forall_mem_cons.mpr ⟨⟨part, lexesFirst, defines⟩, each⟩⟩

/-- The texts of definitions on a line each are a text of these definitions. -/
theorem exists_document {pieces : List (List Char × Definition)}
    (each : ∀ piece ∈ pieces, IsPiece piece.1 piece.2) :
    ∃ lexemes, Lexes (pieces.flatMap fun piece => piece.1 ++ ['\n']) lexemes ∧
      Document lexemes (pieces.map (·.2)) := by
  induction pieces with
  | nil => exact ⟨[], .blank rfl, .nil⟩
  | cons piece pieces ih =>
    obtain ⟨⟨part, lexesPart, defines⟩, others⟩ := List.forall_mem_cons.mp each
    obtain ⟨lexemes, lexes, document⟩ := ih others
    obtain ⟨gap, lexes⟩ := lexesPart.line lexes
    refine ⟨part ++ regap gap lexemes, ?_, .cons defines (document.regap gap)⟩
    rwa [List.flatMap_cons, List.append_assoc]

theorem Document.ofText? {text : String} {lexemes : List Lexeme} {definitions : List Definition}
    (document : Document lexemes definitions) (present : definitions ≠ []) (lexes : Lexes text.toList lexemes) :
    Definition.ofText? text = some definitions := by
  rw [Definition.ofText?, Lexes.iff_ofText?.mp lexes]
  exact document.definitions? present

theorem IsPiece.ofText? {text : String} {read : Definition} (piece : IsPiece text.toList read) :
    Definition.ofText? text = some [read] := by
  obtain ⟨part, lexes, defines⟩ := piece
  have document := Document.cons defines .nil
  rw [List.append_nil] at document
  exact document.ofText? (List.cons_ne_nil _ _) lexes

/-- A text that is cut into the texts of its definitions. -/
structure Cut (text : String) (pieces : List (String × Definition)) : Prop where
  whole : text = String.join (pieces.map (·.1))
  each : ∀ piece ∈ pieces, Definition.ofText? piece.1 = some [piece.2]
  read : Definition.ofText? text = some (pieces.map (·.2))

/-- The texts of definitions on a line each. -/
def lines (pieces : List (String × Definition)) : String := String.join (pieces.map fun piece => piece.1 ++ "\n")

/-- A text of definitions that schemas are made of can be cut into theirs, and
any of these make up a text again. -/
theorem exists_cut {text : String} {definitions : List Definition}
    (read : Definition.ofText? text = some definitions)
    (own : ∀ definition ∈ definitions, ∀ text, definition ≠ .foreign text) :
    ∃ pieces, Cut text pieces ∧ pieces ≠ [] ∧ ∀ {others}, others ≠ [] → (∀ piece ∈ others, piece ∈ pieces) →
      Definition.ofText? (lines others) = some (others.map (·.2)) := by
  obtain ⟨lexemes, readLexemes, readDefinitions⟩ := Option.bind_eq_some_iff.mp read
  obtain ⟨document, present⟩ := Document.of_definitions? readDefinitions own
  obtain ⟨parts, shape, same, each⟩ := document.exists_pieces present (Lexes.iff_ofText?.mpr readLexemes)
  have pieces : ∀ piece ∈ parts.map fun part => (String.ofList part.1, part.2), IsPiece piece.1.toList piece.2 :=
    List.forall_mem_map.mpr fun part member => by simpa using each part member
  refine ⟨_, ⟨?_, fun piece member => (pieces piece member).ofText?, ?_⟩, ?_, fun {others} nonempty members => ?_⟩
  · rw [← String.toList_inj, String.toList_join, shape]
    simp [List.flatMap_def, Function.comp_def]
  · rw [read, ← same, List.map_map]
    rfl
  · rintro none
    rw [← same, List.map_eq_nil_iff.mp none] at present
    exact present rfl
  · have others_pieces : ∀ piece ∈ others.map fun piece => (piece.1.toList, piece.2), IsPiece piece.1 piece.2 :=
      List.forall_mem_map.mpr fun piece member => pieces piece (members piece member)
    obtain ⟨lexemes, lexes, document⟩ := exists_document others_pieces
    rw [List.map_map] at document
    refine document.ofText? (by simpa using nonempty) ?_
    rw [lines, String.toList_join]
    simpa [List.flatMap_map] using lexes

end Definitions

end SelectionEngine
