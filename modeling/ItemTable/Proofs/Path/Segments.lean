import ItemTable.Proofs.Condition.Form
import ItemTable.Proofs.Text.Splitting
import Mathlib.Data.List.Basic
import Mathlib.Data.List.TakeWhile

/-!
# Segments of paths

Between its dots, the text of a path has segments.  A segment is recognised as a
name with indexes if it is a text without brackets and behind it texts in brackets
that denote indexes; the name may be empty only if no bracket follows.  Every
other segment is a name as it stands.
-/

namespace ItemTable.Path

/-! ## Texts of indexes -/

variable {index digits text : List Char} {position : Nat}

/-- The texts that denote an index: digits below the bound, perhaps behind a plus sign. -/
theorem readIndex?_eq_some_iff :
    readIndex? index = some position ↔
      ∃ digits, (index = digits ∨ index = '+' :: digits) ∧ digits ≠ [] ∧
        (∀ char ∈ digits, char.isDigit) ∧ Nat.ofDigitChars 10 digits 0 = position ∧
        position < indexBound := by
  have read (digits : List Char) :
      (if digits.isEmpty || !digits.all Char.isDigit then none
        else if Nat.ofDigitChars 10 digits 0 < indexBound
          then some (Nat.ofDigitChars 10 digits 0) else none) = some position ↔
        digits ≠ [] ∧ (∀ char ∈ digits, char.isDigit) ∧
          Nat.ofDigitChars 10 digits 0 = position ∧ position < indexBound := by
    simp only [Option.ite_none_left_eq_some, Option.ite_none_right_eq_some, Option.some.injEq,
      Bool.or_eq_true, List.isEmpty_iff, Bool.not_eq_true', not_or, Bool.not_eq_false,
      List.all_eq_true, and_assoc]
    refine and_congr_right fun _ => and_congr_right fun _ => ?_
    constructor
    · rintro ⟨small, rfl⟩
      exact ⟨rfl, small⟩
    · rintro ⟨rfl, small⟩
      exact ⟨small, rfl⟩
  unfold readIndex?
  dsimp only
  rw [read]
  split
  · rename_i digits
    constructor
    · exact fun denotes => ⟨digits, .inr rfl, denotes⟩
    · rintro ⟨others, rfl | equal, nonempty, chars, denotes⟩
      · exact absurd (chars '+' List.mem_cons_self) (by decide)
      · cases equal
        exact ⟨nonempty, chars, denotes⟩
  · rename_i unsigned
    constructor
    · exact fun denotes => ⟨index, .inl rfl, denotes⟩
    · rintro ⟨others, rfl | rfl, denotes⟩
      · exact denotes
      · exact absurd rfl (unsigned others)

theorem readIndex?_lt (read : readIndex? index = some position) : position < indexBound := by
  rcases readIndex?_eq_some_iff.mp read with ⟨-, -, -, -, -, small⟩
  exact small

/-- Digits denote an index if it is below the bound. -/
theorem readIndex?_digits
    (nonempty : digits ≠ [])
    (chars : ∀ char ∈ digits, char.isDigit)
    (small : Nat.ofDigitChars 10 digits 0 < indexBound) :
    readIndex? digits = some (Nat.ofDigitChars 10 digits 0) :=
  readIndex?_eq_some_iff.mpr ⟨digits, .inl rfl, nonempty, chars, rfl, small⟩

theorem readIndex?_digits_eq_none
    (chars : ∀ char ∈ digits, char.isDigit)
    (large : ¬Nat.ofDigitChars 10 digits 0 < indexBound) :
    readIndex? digits = none := by
  refine Option.eq_none_iff_forall_ne_some.mpr fun position read => ?_
  rcases readIndex?_eq_some_iff.mp read with ⟨unsigned, rfl | rfl, -, -, rfl, small⟩
  · exact large small
  · exact absurd (chars '+' List.mem_cons_self) (by decide)

/-- An index is read back from its digits. -/
theorem readIndex?_toDigits (small : position < indexBound) :
    readIndex? (Nat.toDigits 10 position) = some position := by
  have chars : ∀ char ∈ Nat.toDigits 10 position, char.isDigit := fun char member =>
    Nat.isDigit_of_mem_toDigits (by decide) (by decide) member
  have denotes : Nat.ofDigitChars 10 (Nat.toDigits 10 position) 0 = position :=
    Nat.ofDigitChars_ten_toDigits
  exact readIndex?_eq_some_iff.mpr
    ⟨_, .inl rfl, Nat.toDigits_ne_nil, chars, denotes, small⟩

/-- The text of an index has digits and plus signs only. -/
theorem notMem_of_readIndex?
    {char : Char}
    (isRead : (readIndex? index).isSome)
    (strange : ¬char.isDigit ∧ char ≠ '+') :
    char ∉ index := by
  rcases Option.isSome_iff_exists.mp isRead with ⟨position, read⟩
  rcases readIndex?_eq_some_iff.mp read with ⟨digits, written, -, chars, -, -⟩
  have absent : char ∉ digits := fun member => strange.1 (chars char member)
  rcases written with rfl | rfl
  · exact absent
  · exact List.not_mem_cons_of_ne_of_not_mem strange.2 absent

/-! ## Brackets -/

/-- A text in brackets. -/
def bracketed (index : List Char) : List Char :=
  '[' :: (index ++ [']'])

variable {indexes : List (List Char)} {fuel : Nat}

theorem bracketed_append (index text : List Char) :
    bracketed index ++ text = '[' :: (index ++ ']' :: text) := by
  simp [bracketed]

theorem readIndexes?_bracketed_append
    (unclosed : ']' ∉ index) :
    readIndexes? (fuel + 1) (bracketed index ++ text) =
      (readIndex? index).bind fun position =>
        (readIndexes? fuel text).bind fun positions => some (position :: positions) := by
  have taken : (index ++ ']' :: text).takeWhile (· != ']') = index := by
    rw [Text.takeWhile_append_of_notMem unclosed]
    exact List.append_nil index
  have dropped : (index ++ ']' :: text).dropWhile (· != ']') = ']' :: text := by
    rw [Text.dropWhile_append_of_notMem unclosed]
    rfl
  rw [bracketed_append, readIndexes?]
  simp only [taken, dropped]
  rfl

/-- Texts in brackets are read as the indexes that they denote. -/
theorem readIndexes?_flatMap_bracketed
    (isRead : ∀ index ∈ indexes, (readIndex? index).isSome)
    (enough : (indexes.flatMap bracketed).length ≤ fuel) :
    readIndexes? fuel (indexes.flatMap bracketed) = some (indexes.filterMap readIndex?) := by
  induction indexes generalizing fuel with
  | nil => cases fuel <;> rfl
  | cons index indexes ih =>
      rcases List.forall_mem_cons.mp isRead with ⟨here, others⟩
      rcases Option.isSome_iff_exists.mp here with ⟨position, read⟩
      have unclosed : ']' ∉ index := notMem_of_readIndex? here (by decide)
      cases fuel with
      | zero => exact absurd enough (by simp [bracketed])
      | succ fuel =>
          have remaining : (indexes.flatMap bracketed).length ≤ fuel := by
            simp only [List.flatMap_cons, List.length_append, bracketed, List.length_cons] at enough
            omega
          rw [List.flatMap_cons, readIndexes?_bracketed_append unclosed, read,
            ih others remaining, List.filterMap_cons_some read]
          rfl

/-- Brackets around a text that denotes no index are not read. -/
theorem readIndexes?_flatMap_eq_none
    (unclosed : ∀ index ∈ indexes, ']' ∉ index)
    (unread : ∃ index ∈ indexes, readIndex? index = none) :
    readIndexes? fuel (indexes.flatMap bracketed) = none := by
  induction indexes generalizing fuel with
  | nil =>
      rcases unread with ⟨index, member, -⟩
      exact absurd member List.not_mem_nil
  | cons index indexes ih =>
      rcases List.forall_mem_cons.mp unclosed with ⟨here, others⟩
      cases fuel with
      | zero => rfl
      | succ fuel =>
          rw [List.flatMap_cons, readIndexes?_bracketed_append here]
          cases read : readIndex? index with
          | none => rfl
          | some position =>
              have later : ∃ index ∈ indexes, readIndex? index = none := by
                rcases unread with ⟨failing, member, fails⟩
                rcases List.mem_cons.mp member with rfl | member
                · exact absurd (read.symm.trans fails) (by simp)
                · exact ⟨failing, member, fails⟩
              rw [ih others later]
              rfl

/-- What is read as indexes is texts in brackets that denote them. -/
theorem exists_of_readIndexes?
    {positions : List Nat}
    (read : readIndexes? fuel text = some positions) :
    ∃ indexes : List (List Char), text = indexes.flatMap bracketed ∧
      (∀ index ∈ indexes, (readIndex? index).isSome) ∧
      positions = indexes.filterMap readIndex? := by
  fun_induction readIndexes? fuel text generalizing positions with
  | case1 =>
      cases read
      exact ⟨[], rfl, fun _ absent => absurd absent List.not_mem_nil, rfl⟩
  | case2 => cases read
  | case3 => cases read
  | case4 fuel rest closing behind found ih =>
      rcases Option.bind_eq_some_iff.mp read with ⟨first, firstRead, others⟩
      rcases Option.bind_eq_some_iff.mp others with ⟨remaining, restRead, collected⟩
      rcases ih restRead with ⟨indexes, rfl, isRead, rfl⟩
      cases collected
      -- The reader stopped at a bracket, so it has split the text there.
      have isClosing : closing = ']' := by
        have stopped := List.head?_dropWhile_not (· != ']') rest
        rw [found] at stopped
        simpa using stopped
      have whole : rest.takeWhile (· != ']') ++ rest.dropWhile (· != ']') = rest :=
        List.takeWhile_append_dropWhile
      rw [found, isClosing] at whole
      refine ⟨rest.takeWhile (· != ']') :: indexes, ?_, ?_, ?_⟩
      · rw [List.flatMap_cons, bracketed_append]
        exact congrArg _ whole.symm
      · exact List.forall_mem_cons.mpr ⟨Option.isSome_of_eq_some firstRead, isRead⟩
      · rw [List.filterMap_cons_some firstRead]
  | case5 => cases read

/-! ## Segments -/

/-- A segment: a name with list indexes behind it. -/
structure Segment where
  name : String
  positions : List Nat

/-- A segment as it is written: a name with texts in brackets behind it. -/
structure SegmentText where
  name : List Char
  indexes : List (List Char)

namespace Segment

def elements (segment : Segment) : List PathElement :=
  .attribute segment.name :: segment.positions.map .index

/-- The segment written with decimal indexes. -/
def written (segment : Segment) : SegmentText where
  name := segment.name.toList
  indexes := segment.positions.map (Nat.toDigits 10)

end Segment

namespace SegmentText

def chars (segment : SegmentText) : List Char :=
  segment.name ++ segment.indexes.flatMap bracketed

/-- The segment that a written one denotes. -/
def read (segment : SegmentText) : Segment where
  name := String.ofList segment.name
  positions := segment.indexes.filterMap readIndex?

/-- Whether a written segment is read as a name with indexes. -/
structure Recognised (segment : SegmentText) : Prop where
  unbracketed : '[' ∉ segment.name
  named : segment.name = [] → segment.indexes = []
  indexes : ∀ index ∈ segment.indexes, (readIndex? index).isSome

variable {segment : SegmentText}

/-- What is neither in the name nor in an index nor a bracket is not in the text. -/
theorem notMem_chars
    {char : Char}
    (strange : char ≠ '[' ∧ char ≠ ']')
    (name : char ∉ segment.name)
    (indexes : ∀ index ∈ segment.indexes, char ∉ index) :
    char ∉ segment.chars := by
  intro member
  rcases List.mem_append.mp member with inName | inBrackets
  · exact name inName
  · rcases List.mem_flatMap.mp inBrackets with ⟨index, isIndex, inBracket⟩
    have inIndex : char ∈ index := by simpa [bracketed, strange] using inBracket
    exact indexes index isIndex inIndex

theorem takeWhile_chars (unbracketed : '[' ∉ segment.name) :
    segment.chars.takeWhile (· != '[') = segment.name := by
  rw [chars, Text.takeWhile_append_of_notMem unbracketed]
  cases segment.indexes <;> exact List.append_nil _

theorem dropWhile_chars (unbracketed : '[' ∉ segment.name) :
    segment.chars.dropWhile (· != '[') = segment.indexes.flatMap bracketed := by
  rw [chars, Text.dropWhile_append_of_notMem unbracketed]
  cases segment.indexes <;> rfl

/-- A recognised segment is read as the name and the indexes that it shows. -/
theorem Recognised.parseSegment (recognised : segment.Recognised) :
    Path.parseSegment segment.chars = segment.read.elements := by
  unfold Path.parseSegment
  simp only [takeWhile_chars recognised.unbracketed, dropWhile_chars recognised.unbracketed,
    readIndexes?_flatMap_bracketed recognised.indexes (Nat.le_refl _)]
  refine if_neg fun nameless => ?_
  rw [Bool.and_eq_true, List.isEmpty_iff] at nameless
  rcases nameless with ⟨noName, bracketed⟩
  rw [recognised.named noName] at bracketed
  cases bracketed

/-- A segment with a text in brackets that denotes no index is a name as it stands. -/
theorem parseSegment_of_unread
    (unbracketed : '[' ∉ segment.name)
    (unclosed : ∀ index ∈ segment.indexes, ']' ∉ index)
    (unread : ∃ index ∈ segment.indexes, readIndex? index = none) :
    Path.parseSegment segment.chars = [.attribute (String.ofList segment.chars)] := by
  unfold Path.parseSegment
  simp only [dropWhile_chars unbracketed, readIndexes?_flatMap_eq_none unclosed unread]

/-- Every text is a recognised segment or a name as it stands. -/
theorem recognised_or_name (text : List Char) :
    (∃ segment : SegmentText, segment.Recognised ∧ segment.chars = text) ∨
      Path.parseSegment text = [.attribute (String.ofList text)] := by
  cases read : readIndexes? (text.dropWhile (· != '[')).length (text.dropWhile (· != '[')) with
  | none =>
      refine .inr ?_
      unfold Path.parseSegment
      simp only [read]
  | some positions =>
      rcases exists_of_readIndexes? read with ⟨indexes, brackets, isRead, rfl⟩
      by_cases nameless :
          (text.takeWhile (· != '[')).isEmpty && !(text.dropWhile (· != '[')).isEmpty
      · refine .inr ?_
        unfold Path.parseSegment
        simp only [read, if_pos nameless]
      · refine .inl ⟨⟨text.takeWhile (· != '['), indexes⟩, ⟨?_, ?_, isRead⟩, ?_⟩
        · intro member
          exact absurd (List.mem_takeWhile_imp member) (by decide)
        · intro (noName : text.takeWhile (· != '[') = [])
          rw [noName, brackets] at nameless
          cases indexes with
          | nil => rfl
          | cons index indexes => exact absurd rfl nameless
        · show text.takeWhile (· != '[') ++ indexes.flatMap bracketed = text
          rw [← brackets]
          exact List.takeWhile_append_dropWhile

end SegmentText

namespace Segment

variable {segment : Segment}

/-- A segment that is written without an ambiguity is recognised. -/
theorem recognised_written
    (unbracketed : '[' ∉ segment.name.toList)
    (named : segment.name = "" → segment.positions = [])
    (small : ∀ position ∈ segment.positions, position < indexBound) :
    segment.written.Recognised where
  unbracketed := unbracketed
  named := by
    intro (noName : segment.name.toList = [])
    show segment.positions.map (Nat.toDigits 10) = []
    rw [named (String.toList_inj.mp noName)]
    rfl
  indexes := by
    intro index member
    rcases List.mem_map.mp member with ⟨position, isPosition, rfl⟩
    exact Option.isSome_of_eq_some (readIndex?_toDigits (small position isPosition))

theorem dot_notMem_chars_written (plain : '.' ∉ segment.name.toList) :
    '.' ∉ segment.written.chars := by
  refine SegmentText.notMem_chars (by decide) plain fun index isIndex inIndex => ?_
  rcases List.mem_map.mp isIndex with ⟨position, -, rfl⟩
  exact absurd (Nat.isDigit_of_mem_toDigits (by decide) (by decide) inIndex) (by decide)

/-- What is written is read back. -/
theorem read_written (small : ∀ position ∈ segment.positions, position < indexBound) :
    segment.written.read = segment := by
  have positions : (segment.positions.map (Nat.toDigits 10)).filterMap readIndex? =
      segment.positions := by
    rw [List.filterMap_map]
    calc
      _ = segment.positions.filterMap some :=
        List.filterMap_congr fun position member => readIndex?_toDigits (small position member)
      _ = segment.positions := List.filterMap_some
  show Segment.mk (String.ofList segment.name.toList) _ = segment
  rw [String.ofList_toList]
  exact congrArg (Segment.mk segment.name) positions

end Segment

/-! ## Paths -/

theorem flatMap_displayElement (segment : Segment) :
    segment.elements.flatMap displayElement = '.' :: segment.written.chars := by
  have brackets :
      (segment.positions.map PathElement.index).flatMap displayElement =
        (segment.positions.map (Nat.toDigits 10)).flatMap bracketed := by
    rw [List.flatMap_map, List.flatMap_map]
    rfl
  show '.' :: (segment.name.toList ++
    (segment.positions.map PathElement.index).flatMap displayElement) = _
  rw [brackets]
  rfl

/-- A path is displayed segment by segment, with dots between the segments. -/
theorem display_segments (segments : List Segment) :
    display ⟨segments.flatMap Segment.elements⟩ =
      String.ofList (Text.join '.' (segments.map fun segment => segment.written.chars)) := by
  cases segments with
  | nil => rfl
  | cons first segments =>
      have behind : (segments.flatMap Segment.elements).flatMap displayElement =
          (segments.map fun segment => segment.written.chars).flatMap ('.' :: ·) := by
        rw [List.flatMap_assoc, List.flatMap_map]
        exact List.flatMap_congr fun segment _ => flatMap_displayElement segment
      have front : first.name.toList ++
          (first.positions.map PathElement.index).flatMap displayElement = first.written.chars :=
        (List.cons.inj (flatMap_displayElement first)).2
      rw [List.map_cons, Text.join_cons, ← behind, ← front, List.append_assoc,
        ← List.flatMap_append]
      rfl

/-- Segments with dots between them are read one by one. -/
theorem parse_join
    {pieces : List (List Char)}
    (nonempty : pieces ≠ [])
    (unbroken : ∀ piece ∈ pieces, '.' ∉ piece) :
    parse (String.ofList (Text.join '.' pieces)) = ⟨pieces.flatMap parseSegment⟩ := by
  rw [parse, String.toList_ofList, Text.split_join nonempty unbroken]

/-- The elements of a path are indexes, then segments. -/
theorem exists_segments (elements : List PathElement) :
    ∃ (positions : List Nat) (segments : List Segment),
      elements = positions.map .index ++ segments.flatMap Segment.elements := by
  induction elements with
  | nil => exact ⟨[], [], rfl⟩
  | cons element elements ih =>
      rcases ih with ⟨positions, segments, rfl⟩
      cases element with
      | «attribute» name => exact ⟨[], ⟨name, positions⟩ :: segments, rfl⟩
      | index position => exact ⟨position :: positions, segments, rfl⟩

/-- A path that begins with an attribute has segments only. -/
theorem exists_segments_of_isRooted
    {path : Path}
    (rooted : path.isRooted) :
    ∃ segments : List Segment, segments ≠ [] ∧ path = ⟨segments.flatMap Segment.elements⟩ := by
  rcases path with ⟨elements⟩
  rcases exists_segments elements with ⟨positions, segments, rfl⟩
  cases positions with
  | cons position positions => cases rooted
  | nil =>
      cases segments with
      | nil => cases rooted
      | cons segment segments => exact ⟨segment :: segments, List.cons_ne_nil _ _, rfl⟩

/-- A segment begins with an attribute and goes on with list indexes. -/
theorem exists_parseSegment (text : List Char) :
    ∃ segment : Segment, parseSegment text = segment.elements ∧
      ∀ position ∈ segment.positions, position < indexBound := by
  rcases SegmentText.recognised_or_name text with ⟨segment, recognised, rfl⟩ | asName
  · refine ⟨segment.read, recognised.parseSegment, fun position member => ?_⟩
    rcases List.mem_filterMap.mp member with ⟨index, -, read⟩
    exact readIndex?_lt read
  · exact ⟨⟨String.ofList text, []⟩, asName, fun _ absent => absurd absent List.not_mem_nil⟩

/-- The path that a text names begins with an attribute. -/
theorem isRooted_parse (text : String) : (parse text).isRooted := by
  rw [parse]
  cases pieces : Text.split '.' text.toList with
  | nil => exact absurd pieces (Text.split_ne_nil _ _)
  | cons piece others =>
      rcases exists_parseSegment piece with ⟨segment, parsed, -⟩
      rw [List.flatMap_cons, parsed]
      rfl

/-- The path that a text names has list indexes only. -/
theorem isBounded_parse (text : String) : (parse text).isBounded := by
  rw [isBounded, parse, List.all_flatMap, List.all_eq_true]
  intro piece _
  rcases exists_parseSegment piece with ⟨segment, parsed, small⟩
  rw [parsed, Segment.elements, List.all_cons, List.all_map, Bool.true_and, List.all_eq_true]
  intro position member
  exact decide_eq_true (small position member)

end ItemTable.Path
