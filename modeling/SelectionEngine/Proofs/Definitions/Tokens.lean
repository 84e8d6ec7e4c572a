import SelectionEngine.Definitions.Literal
import SelectionEngine.Json.Printer
import SelectionEngine.Proofs.Double.Printing

namespace SelectionEngine

namespace Text

theorem character?_toNat (c : Char) : character? c.toNat = some c := by
  rw [character?, dif_pos (show c.toNat.isValidChar from c.valid)]
  rfl

theorem not_isSurrogate (c : Char) : isHighSurrogate c.toNat = false ∧ isLowSurrogate c.toNat = false := by
  have valid : c.toNat.isValidChar := c.valid
  simp only [isHighSurrogate, isLowSurrogate, Bool.and_eq_false_iff, decide_eq_false_iff_not]
  unfold Nat.isValidChar at valid
  omega

end Text

namespace Definitions

open Json

theorem isName_iff {name : String} : IsName name ↔
    (match name.toList with
      | [] => false
      | c :: rest => isNameStart c && rest.all isNamePart) = true := by
  rw [IsName]
  cases name.toList <;> simp

instance (name : String) : Decidable (IsName name) := decidable_of_iff _ isName_iff.symm

theorem hex4_isPlain : ∀ n < 0x20, ∀ c ∈ hex4 n, c ≠ '"' ∧ c ≠ '\\' ∧ isLineEnd c = false := by
  have all : ∀ n < 0x20, (hex4 n).all (fun c => c ≠ '"' ∧ c ≠ '\\' ∧ isLineEnd c = false) = true := by decide
  intro n small c member
  exact of_decide_eq_true (List.all_eq_true.mp (all n small) c member)

theorem hex4_eq : ∀ n < 0x20, hex4 n = ['0', '0', Nat.digitChar (n / 16), Nat.digitChar (n % 16)] := by decide

theorem natural?_hex4 : ∀ n < 0x20,
    Text.natural? 16 ['0', '0', Nat.digitChar (n / 16), Nat.digitChar (n % 16)] = some n := by decide

/-- The escapes of one letter and the characters they stand for. -/
def shortEscapes : List (Char × Char) :=
  [('"', '"'), ('\\', '\\'), ('n', '\n'), ('r', '\r'), ('t', '\t'), ('b', '\x08'), ('f', '\x0c')]

/-- The ways in which a character is written in a string. -/
inductive Escapes (c : Char) : List Char → Prop
  | short {letter : Char} : (letter, c) ∈ shortEscapes → Escapes c ['\\', letter]
  | unit : c.toNat < 0x20 → Escapes c ('\\' :: 'u' :: hex4 c.toNat)
  | plain : c ≠ '"' → c ≠ '\\' → isLineEnd c = false → Escapes c [c]

theorem escapes_escape (c : Char) : Escapes c (escape c) := by
  rw [escape]
  split
  · next same => exact .short (by simp [shortEscapes, same])
  split
  · next same => exact .short (by simp [shortEscapes, same])
  split
  · next same => exact .short (by simp [shortEscapes, same])
  split
  · next same => exact .short (by simp [shortEscapes, same])
  split
  · next same => exact .short (by simp [shortEscapes, same])
  split
  · next same => exact .short (by simp [shortEscapes, same])
  split
  · next same => exact .short (by simp [shortEscapes, same])
  split
  · next control => exact .unit control
  · next quote backslash newline carriage _ _ _ _ =>
    exact .plain quote backslash (by simp [isLineEnd, newline, carriage])

/-- The short escapes are those that the language has. -/
theorem shortEscapes_known : ∀ pair ∈ shortEscapes, pair.1 ≠ 'u' ∧ isLineEnd pair.1 = false ∧
    ['"', '\\', '/', 'b', 'f', 'n', 'r', 't'].contains pair.1 = true := by decide

theorem unescape_short : ∀ pair ∈ shortEscapes, ∀ rest,
    unescape ('\\' :: pair.1 :: rest) = pair.2 :: unescape rest := by
  simp [shortEscapes, unescape]

theorem Escapes.head_ne_quote {c : Char} {text : List Char} (written : Escapes c text) :
    ∃ first rest, text = first :: rest ∧ first ≠ '"' ∧ isLineEnd first = false := by
  cases written with
  | short listed => exact ⟨_, _, rfl, by decide, rfl⟩
  | unit control => exact ⟨_, _, rfl, by decide, rfl⟩
  | plain quote _ line => exact ⟨_, _, rfl, quote, line⟩

namespace Token

theorem readBody?_plain {part : List Char} (plain : ∀ c ∈ part, c ≠ '"' ∧ c ≠ '\\' ∧ isLineEnd c = false)
    (rest : List Char) : readBody? (part ++ rest) = (readBody? rest).map fun read => (part ++ read.1, read.2) := by
  induction part with
  | nil => simp
  | cons c part ih =>
    obtain ⟨⟨quote, backslash, line⟩, others⟩ := List.forall_mem_cons.mp plain
    rw [List.cons_append, readBody?, if_neg (by simp [line]), ih others, Option.map_map]
    · rfl
    · exact quote
    · rintro _ _ rfl
      exact absurd rfl backslash

theorem readBody?_escaped {c : Char} (line : isLineEnd c = false) (rest : List Char) :
    readBody? ('\\' :: c :: rest) = (readBody? rest).map fun read => ('\\' :: c :: read.1, read.2) := by
  rw [readBody?, if_neg (by simp [line])]

theorem readBody?_append {c : Char} {text : List Char} (written : Escapes c text) (rest : List Char) :
    readBody? (text ++ rest) = (readBody? rest).map fun read => (text ++ read.1, read.2) := by
  cases written with
  | short listed => exact readBody?_escaped (shortEscapes_known _ listed).2.1 rest
  | unit control =>
    rw [List.cons_append, List.cons_append, readBody?_escaped rfl, readBody?_plain (hex4_isPlain _ control),
      Option.map_map]
    rfl
  | plain quote backslash line =>
    exact readBody?_plain (List.forall_mem_singleton.mpr ⟨quote, backslash, line⟩) rest

theorem readBody?_escape (text rest : List Char) :
    readBody? (text.flatMap escape ++ '"' :: rest) = some (text.flatMap escape, rest) := by
  induction text with
  | nil => rfl
  | cons c text ih =>
    rw [List.flatMap_cons, List.append_assoc, readBody?_append (escapes_escape c), ih]
    rfl

theorem wellEscaped_append {c : Char} {text : List Char} (written : Escapes c text) (rest : List Char) :
    wellEscaped (text ++ rest) = wellEscaped rest := by
  cases written with
  | short listed =>
    obtain ⟨notUnit, _, known⟩ := shortEscapes_known _ listed
    rw [List.cons_append, List.cons_append, List.nil_append, wellEscaped, known, Bool.true_and]
    all_goals
      intros
      contradiction
  | unit control =>
    obtain ⟨high, low⟩ := Text.not_isSurrogate c
    rw [hex4_eq _ control]
    simp only [List.cons_append, List.nil_append]
    rw [wellEscaped.eq_def]
    simp [natural?_hex4 _ control, high, low]
  | plain _ backslash _ =>
    rw [List.singleton_append, wellEscaped]
    all_goals
      intros
      contradiction

theorem wellEscaped_escape (text : List Char) : wellEscaped (text.flatMap escape) = true := by
  induction text with
  | nil => rfl
  | cons c text ih => rw [List.flatMap_cons, wellEscaped_append (escapes_escape c), ih]

theorem readString?_escape (text rest : List Char) :
    readString? (text.flatMap escape ++ '"' :: rest) = some (text.flatMap escape, rest) := by
  have body := readBody?_escape text rest
  obtain ⟨first, others, shape, line⟩ : ∃ first others,
      text.flatMap escape ++ '"' :: rest = first :: others ∧ isLineEnd first = false := by
    cases text with
    | nil => exact ⟨_, _, rfl, rfl⟩
    | cons c text =>
      obtain ⟨first, others, shape, _, line⟩ := (escapes_escape c).head_ne_quote
      exact ⟨first, _, by rw [List.flatMap_cons, shape]; rfl, line⟩
  rw [shape] at body ⊢
  rw [readString?, if_neg (by simp [line]), body]

end Token

theorem unescape_append {c : Char} {text : List Char} (written : Escapes c text) (rest : List Char) :
    unescape (text ++ rest) = c :: unescape rest := by
  cases written with
  | short listed => exact unescape_short _ listed rest
  | unit control =>
    rw [hex4_eq _ control]
    simp [unescape, natural?_hex4 _ control, Text.character?_toNat]
  | plain _ backslash _ =>
    rw [List.singleton_append, unescape]
    all_goals
      intros
      contradiction

/-- A string stands for the text that it was written for. -/
theorem unescape_escape (text : List Char) : unescape (text.flatMap escape) = text := by
  induction text with
  | nil => rfl
  | cons c text ih => rw [List.flatMap_cons, unescape_append (escapes_escape c), ih]

end Definitions

end SelectionEngine
