import SelectionEngine.Path
import SelectionEngine.Proofs.Text.Digits

namespace SelectionEngine

namespace Path

theorem segments_append {segment : List Char} (whole : '/' ∉ segment) (rest : List Char) :
    segments (segment ++ '/' :: rest) = segment :: segments rest := by
  induction segment with
  | nil => exact if_pos rfl
  | cons c segment ih =>
    obtain ⟨other, whole⟩ : '/' ≠ c ∧ '/' ∉ segment := by simpa using whole
    rw [List.cons_append, segments, if_neg (Ne.symm other), ih whole]

theorem segments_of_not_mem {segment : List Char} (whole : '/' ∉ segment) : segments segment = [segment] := by
  induction segment with
  | nil => rfl
  | cons c segment ih =>
    obtain ⟨other, whole⟩ : '/' ≠ c ∧ '/' ∉ segment := by simpa using whole
    rw [segments, if_neg (Ne.symm other), ih whole]

/-- What stands between slashes is found again. -/
theorem segments_intercalate {parts : List (List Char)} (present : parts ≠ [])
    (whole : ∀ part ∈ parts, '/' ∉ part) : segments (['/'].intercalate parts) = parts := by
  induction parts with
  | nil => exact absurd rfl present
  | cons part parts ih =>
    obtain ⟨first, others⟩ := List.forall_mem_cons.mp whole
    by_cases last : parts = []
    · rw [last, List.intercalate_singleton, segments_of_not_mem first]
    · rw [List.intercalate_cons_of_ne_nil last, List.append_assoc, List.singleton_append, segments_append first,
        ih last others]

theorem not_mem_of_mem_segments {text segment : List Char} (member : segment ∈ segments text) : '/' ∉ segment := by
  induction text generalizing segment with
  | nil =>
    obtain rfl := List.mem_singleton.mp member
    exact List.not_mem_nil
  | cons c rest ih =>
    rw [segments] at member
    split at member
    · rcases List.mem_cons.mp member with rfl | later
      · exact List.not_mem_nil
      · exact ih later
    · next other =>
      split at member
      · obtain rfl := List.mem_singleton.mp member
        simpa using Ne.symm other
      · next first others shape =>
        rcases List.mem_cons.mp member with rfl | later
        · have whole : '/' ∉ first := ih (shape ▸ .head _)
          simpa [whole] using Ne.symm other
        · exact ih (shape ▸ .tail _ later)

end Path

namespace PathElement

/-- The steps that there are: indices have 64 bits. -/
def Represented : PathElement → Prop
  | index n => n < UInt64.size
  | key _ => True

/-- A step that is found in a text as a segment of its own, and
is read from it. -/
structure Legible (element : PathElement) : Prop where
  present : element.text.toList ≠ []
  whole : '/' ∉ element.text.toList
  read : ofSegment element.text.toList = element

theorem ofSegment_of_spells {segment : List Char} {n : Nat} (spells : Text.Spells segment n)
    (small : n < UInt64.size) :
    ofSegment segment = index n := by
  rw [ofSegment, Text.word64?_eq_some_iff.mpr ⟨spells, small⟩]

theorem ofSegment_of_not_spells {segment : List Char} (other : ∀ n < UInt64.size, ¬ Text.Spells segment n) :
    ofSegment segment = key (String.ofList segment) := by
  rw [ofSegment, Text.word64?_eq_none_iff.mpr other]

theorem legible_index {n : Nat} (small : n < UInt64.size) : (index n).Legible := by
  have digits : (index n).text.toList = Nat.toDigits 10 n := by
    rw [text, Nat.toString_eq_ofList_toDigits, String.toList_ofList]
  refine ⟨?_, ?_, ?_⟩ <;> rw [digits]
  · exact Nat.toDigits_ne_nil
  · intro slash
    cases Text.isDigit_toDigits slash
  · exact ofSegment_of_spells (Text.spells_toDigits n) small

/-- A key is read from its text unless it is empty, has a slash in
it or spells an index. -/
theorem legible_key {name : String} : (key name).Legible ↔
    name ≠ "" ∧ '/' ∉ name.toList ∧ ∀ n < UInt64.size, ¬ Text.Spells name.toList n := by
  constructor
  · intro legible
    refine ⟨?_, legible.whole, fun n small spells => ?_⟩
    · rintro rfl
      exact legible.present rfl
    · have read := legible.read
      rw [show (key name).text = name from rfl, ofSegment_of_spells spells small] at read
      cases read
  · rintro ⟨present, whole, other⟩
    refine ⟨fun empty => present (String.toList_eq_nil_iff.mp empty), whole, ?_⟩
    rw [show (key name).text = name from rfl, ofSegment_of_not_spells other, String.ofList_toList]

/-- Whatever a segment is read as is read again from its own text. -/
theorem legible_ofSegment {segment : List Char} (present : segment ≠ []) (whole : '/' ∉ segment) :
    (ofSegment segment).Legible := by
  by_cases spelled : ∃ n < UInt64.size, Text.Spells segment n
  · obtain ⟨n, small, spells⟩ := spelled
    rw [ofSegment_of_spells spells small]
    exact legible_index small
  · have other : ∀ n < UInt64.size, ¬ Text.Spells segment n := fun n small spells => spelled ⟨n, small, spells⟩
    have text : (key (String.ofList segment)).text.toList = segment := String.toList_ofList
    rw [ofSegment_of_not_spells other]
    exact ⟨by rwa [text], by rwa [text], by rw [text, ofSegment_of_not_spells other]⟩

end PathElement

namespace Path

/-- The paths that there are. -/
def Represented (path : Path) : Prop := ∀ element ∈ path, element.Represented

theorem toList_text (path : Path) :
    path.text.toList = ['/'].intercalate (path.map fun element => element.text.toList) := by
  rw [text, String.toList_intercalate, List.map_map]
  rfl

theorem legible_of_mem_ofText {text : String} {element : PathElement} (member : element ∈ ofText text) :
    element.Legible := by
  obtain ⟨segment, kept, rfl⟩ := List.mem_map.mp member
  obtain ⟨found, present⟩ := List.mem_filter.mp kept
  exact PathElement.legible_ofSegment (by simpa using present) (not_mem_of_mem_segments found)

theorem ofText_text_of_legible {path : Path} (legible : ∀ element ∈ path, element.Legible) :
    ofText path.text = path := by
  by_cases empty : path = []
  · rw [empty]
    rfl
  · have parts : segments path.text.toList = path.map fun element => element.text.toList := by
      rw [toList_text]
      exact segments_intercalate (by simpa using empty) (List.forall_mem_map.mpr fun element member =>
        (legible element member).whole)
    have present : (path.map fun element => element.text.toList).filter (! ·.isEmpty) =
        path.map fun element => element.text.toList :=
      List.filter_eq_self.mpr (List.forall_mem_map.mpr fun element member => by
        simpa using (legible element member).present)
    rw [ofText, parts, present, List.map_map]
    exact (List.map_congr_left fun element member => (legible element member).read).trans (List.map_id path)

theorem ofText_text_iff {path : Path} : ofText path.text = path ↔ ∀ element ∈ path, element.Legible := by
  refine ⟨fun same element member => ?_, ofText_text_of_legible⟩
  have found : element ∈ ofText path.text := by rwa [same]
  exact legible_of_mem_ofText found

/-- A path is read back from its text exactly if no key in it is empty, has a
slash in it or spells a number of 64 bits. Whatever path a text is read as is
read back from its own text. -/
theorem paths_read_back :
    (∀ path : Path, path.Represented → (ofText path.text = path ↔ ∀ name, .key name ∈ path →
      name ≠ "" ∧ '/' ∉ name.toList ∧ ∀ n < UInt64.size, ¬ Text.Spells name.toList n)) ∧
    ∀ text, ofText (ofText text).text = ofText text := by
  refine ⟨fun path represented => ?_, fun text => ofText_text_of_legible fun _ => legible_of_mem_ofText⟩
  rw [ofText_text_iff]
  constructor
  · intro legible name member
    exact PathElement.legible_key.mp (legible _ member)
  · intro keys element member
    cases element with
    | index n => exact PathElement.legible_index (represented _ member)
    | key name => exact PathElement.legible_key.mpr (keys name member)

/-- A path with the largest index, and with keys that are almost numbers. -/
def rollPath : Path :=
  [.key "getDie", .index 18446744073709551615, .key "18446744073709551616", .key "+", .key "-0", .key "é"]

theorem paths_read_back_roll : rollPath.Represented ∧ ofText rollPath.text = rollPath ∧
    ofText (text [.key "getDie", .key "007"]) ≠ [.key "getDie", .key "007"] ∧
    ofText "/00//+7/18446744073709551616/" = [.index 0, .index 7, .key "18446744073709551616"] ∧
    ofText (text [.index 0, .index 7, .key "18446744073709551616"]) =
      [.index 0, .index 7, .key "18446744073709551616"] := by
  obtain ⟨reads, again⟩ := paths_read_back
  have represented : rollPath.Represented := by
    simp [rollPath, Represented, PathElement.Represented]
  have keys : ∀ name, .key name ∈ rollPath →
      name ≠ "" ∧ '/' ∉ name.toList ∧ ∀ n < UInt64.size, ¬ Text.Spells name.toList n := by
    intro name member
    rw [← Text.word64?_eq_none_iff]
    simp only [rollPath, List.mem_cons, PathElement.key.injEq, reduceCtorEq, false_or, List.not_mem_nil,
      or_false] at member
    rcases member with rfl | rfl | rfl | rfl | rfl <;> decide
  have zeros : Path.Represented [.key "getDie", .key "007"] := by
    simp [Represented, PathElement.Represented]
  have read : ofText "/00//+7/18446744073709551616/" = [.index 0, .index 7, .key "18446744073709551616"] := by
    decide +kernel
  refine ⟨represented, (reads rollPath represented).mpr keys, fun same => ?_, read,
    read ▸ again "/00//+7/18446744073709551616/"⟩
  exact ((reads _ zeros).mp same "007" (.tail _ (.head _))).2.2 7 (by decide)
    (Text.word64?_eq_some_iff.mp (by decide)).1

end Path

end SelectionEngine
