import ItemTable.Proofs.Path.Segments
import Mathlib.Data.List.Induction

/-!
# Paths and their display

The path that a text names is displayed as a text that names the same path.  The
display is the text itself exactly if the indexes that the text is read with stand
in canonical decimal: without a plus sign and without a superfluous zero in front.
In the other direction, the display of a path names the path if each of its segments
is told apart from a plain name.
-/

namespace ItemTable.Path

/-! ## Canonical decimals -/

/-- Whether an index is written without a plus sign and without a superfluous zero. -/
structure IsCanonical (index : List Char) : Prop where
  unsigned : index.head? ≠ some '+'
  unpadded : index.head? = some '0' → index = ['0']

variable {index digits : List Char} {position : Nat}

theorem digitChar_of_isDigit
    {char : Char}
    (isDigit : char.isDigit) :
    (char.toNat - '0'.toNat).digitChar = char := by
  rcases Char.isDigit_iff_toNat.mp isDigit with ⟨atLeast, atMost⟩
  simp only [Char.reduceToNat] at atLeast atMost ⊢
  apply Char.toNat_inj.mp
  rw [Nat.toNat_digitChar_of_lt_ten (by omega)]
  omega

theorem isCanonical_toDigits (position : Nat) : IsCanonical (Nat.toDigits 10 position) where
  unsigned := by
    intro signed
    have isDigit : '+'.isDigit :=
      Nat.isDigit_of_mem_toDigits (by decide) (by decide) (List.mem_of_mem_head? signed)
    cases isDigit
  unpadded := by
    induction position using Nat.strongRecOn with
    | ind position ih =>
        intro padded
        by_cases oneDigit : position < 10
        · rw [Nat.toDigits_of_lt_base oneDigit] at padded ⊢
          exact congrArg (fun digit => [digit]) (Option.some.inj padded)
        · have atLeast : 10 ≤ position := Nat.not_lt.mp oneDigit
          have fewer : position / 10 < position := Nat.div_lt_self (by omega) (by decide)
          rw [Nat.toDigits_of_base_le (by decide) atLeast,
            List.head?_append_of_ne_nil _ Nat.toDigits_ne_nil] at padded
          have zero : position / 10 = 0 := by
            rw [← Nat.ofDigitChars_ten_toDigits (n := position / 10), ih _ fewer padded]
            rfl
          omega

/-- Digits without a superfluous zero are the decimal of what they denote. -/
theorem toDigits_ofDigitChars
    (nonempty : digits ≠ [])
    (chars : ∀ char ∈ digits, char.isDigit)
    (unpadded : digits.head? = some '0' → digits = ['0']) :
    Nat.toDigits 10 (Nat.ofDigitChars 10 digits 0) = digits := by
  -- The last digit is the remainder by ten, so the digits are taken off from the end.
  induction digits using List.reverseRecOn with
  | nil => exact absurd rfl nonempty
  | append_singleton front last ih =>
      rcases List.forall_mem_append.mp chars with ⟨frontChars, lastChar⟩
      have isDigit := lastChar last (List.mem_singleton_self last)
      have small : last.toNat - '0'.toNat < 10 := by
        have bounds := Char.isDigit_iff_toNat.mp isDigit
        simp only [Char.reduceToNat] at bounds ⊢
        omega
      rw [Nat.ofDigitChars_append, Nat.ofDigitChars_cons, Nat.ofDigitChars_nil]
      cases front with
      | nil =>
          rw [Nat.ofDigitChars_nil, Nat.mul_zero, Nat.zero_add, Nat.toDigits_of_lt_base small,
            digitChar_of_isDigit isDigit]
          rfl
      | cons first front =>
          have noZero : (first :: front).head? ≠ some '0' := by
            intro padded
            have single := unpadded padded
            simp at single
          have same := ih (List.cons_ne_nil _ _) frontChars fun padded => absurd padded noZero
          -- Zero is denoted by the digit zero alone, which the front is not.
          have positive : 0 < Nat.ofDigitChars 10 (first :: front) 0 := by
            refine Nat.pos_of_ne_zero fun zero => noZero ?_
            rw [← same, zero]
            rfl
          rw [← Nat.toDigits_append_toDigits (by decide) positive small, same,
            Nat.toDigits_of_lt_base small, digitChar_of_isDigit isDigit]

/-- An index is written again as it stands if and only if it is canonical. -/
theorem toDigits_eq_iff (read : readIndex? index = some position) :
    Nat.toDigits 10 position = index ↔ IsCanonical index := by
  constructor
  · rintro rfl
    exact isCanonical_toDigits position
  · intro canonical
    rcases readIndex?_eq_some_iff.mp read with ⟨digits, rfl | rfl, nonempty, chars, rfl, -⟩
    · exact toDigits_ofDigitChars nonempty chars canonical.unpadded
    · exact absurd rfl canonical.unsigned

/-! ## Segments written again -/

namespace SegmentText

variable {segment : SegmentText}

theorem name_read_written : segment.read.written.name = segment.name :=
  String.toList_ofList

theorem positions_read_lt : ∀ position ∈ segment.read.positions, position < indexBound := by
  intro position member
  rcases List.mem_filterMap.mp member with ⟨index, -, read⟩
  exact readIndex?_lt read

/-- A recognised segment is recognised when it is written again. -/
theorem Recognised.read_written (recognised : segment.Recognised) :
    segment.read.written.Recognised := by
  refine Segment.recognised_written ?_ ?_ positions_read_lt
  · show '[' ∉ segment.read.written.name
    rw [name_read_written]
    exact recognised.unbracketed
  · intro noName
    have none : segment.name = [] := by
      rw [← name_read_written]
      exact congrArg String.toList noName
    show segment.indexes.filterMap readIndex? = []
    rw [recognised.named none]
    rfl

theorem flatMap_bracketed_eq_iff
    {indexes : List (List Char)}
    (isRead : ∀ index ∈ indexes, (readIndex? index).isSome) :
    ((indexes.filterMap readIndex?).map (Nat.toDigits 10)).flatMap bracketed =
        indexes.flatMap bracketed ↔
      ∀ index ∈ indexes, IsCanonical index := by
  induction indexes with
  | nil => exact iff_of_true rfl fun _ absent => absurd absent List.not_mem_nil
  | cons index indexes ih =>
      rcases List.forall_mem_cons.mp isRead with ⟨here, others⟩
      rcases Option.isSome_iff_exists.mp here with ⟨position, read⟩
      have unclosed : ']' ∉ index := notMem_of_readIndex? here (by decide)
      have unclosedDigits : ']' ∉ Nat.toDigits 10 position := fun member =>
        absurd (Nat.isDigit_of_mem_toDigits (by decide) (by decide) member) (by decide)
      rw [List.filterMap_cons_some read, List.map_cons, List.flatMap_cons, List.flatMap_cons,
        bracketed_append, bracketed_append, List.cons_inj_right,
        Text.append_cons_eq_append_cons_iff unclosedDigits unclosed, toDigits_eq_iff read,
        ih others, List.forall_mem_cons]

/-- A recognised segment is written again as it stands if its indexes are canonical. -/
theorem Recognised.chars_read_written_eq_iff (recognised : segment.Recognised) :
    segment.read.written.chars = segment.chars ↔
      ∀ index ∈ segment.indexes, IsCanonical index := by
  rw [chars, chars, name_read_written, List.append_cancel_left_eq]
  exact flatMap_bracketed_eq_iff recognised.indexes

end SegmentText

/-- A segment that is read and displayed. -/
def rewritten (piece : List Char) : List Char :=
  (display ⟨parseSegment piece⟩).toList

section

variable {piece : List Char}

theorem rewritten_eq
    {segment : Segment}
    (parsed : parseSegment piece = segment.elements) :
    rewritten piece = segment.written.chars := by
  have single : segment.elements = [segment].flatMap Segment.elements :=
    (List.append_nil _).symm
  rw [rewritten, parsed, single, display_segments, String.toList_ofList]
  rfl

theorem rewritten_of_name
    (asName : parseSegment piece = [.attribute (String.ofList piece)]) :
    rewritten piece = piece := by
  rw [@rewritten_eq piece ⟨String.ofList piece, []⟩ asName]
  show (String.ofList piece).toList ++ [] = piece
  rw [List.append_nil, String.toList_ofList]

/-- A segment that is written again is read as before. -/
theorem parseSegment_rewritten (piece : List Char) :
    parseSegment (rewritten piece) = parseSegment piece := by
  rcases SegmentText.recognised_or_name piece with ⟨segment, recognised, rfl⟩ | asName
  · rw [rewritten_eq recognised.parseSegment, recognised.read_written.parseSegment,
      Segment.read_written SegmentText.positions_read_lt, recognised.parseSegment]
  · rw [rewritten_of_name asName]

theorem notMem_rewritten (unbroken : '.' ∉ piece) : '.' ∉ rewritten piece := by
  rcases SegmentText.recognised_or_name piece with ⟨segment, recognised, rfl⟩ | asName
  · rw [rewritten_eq recognised.parseSegment]
    have name : '.' ∉ segment.name := fun member => unbroken (List.mem_append_left _ member)
    refine segment.read.dot_notMem_chars_written ?_
    rwa [SegmentText.read, String.toList_ofList]
  · rw [rewritten_of_name asName]
    exact unbroken

/-- A segment changes when it is written again unless its indexes are canonical. -/
theorem rewritten_eq_iff :
    rewritten piece = piece ↔
      ∀ segment : SegmentText, segment.Recognised → segment.chars = piece →
        ∀ index ∈ segment.indexes, IsCanonical index := by
  constructor
  · rintro unchanged segment recognised rfl
    rw [rewritten_eq recognised.parseSegment] at unchanged
    exact recognised.chars_read_written_eq_iff.mp unchanged
  · intro canonical
    rcases SegmentText.recognised_or_name piece with ⟨segment, recognised, rfl⟩ | asName
    · rw [rewritten_eq recognised.parseSegment]
      exact recognised.chars_read_written_eq_iff.mpr (canonical segment recognised rfl)
    · exact rewritten_of_name asName

end

/-! ## Texts written again -/

theorem display_parse (text : String) :
    display (parse text) =
      String.ofList (Text.join '.' ((Text.split '.' text.toList).map rewritten)) := by
  choose segment parsed small using exists_parseSegment
  have segments : (Text.split '.' text.toList).flatMap parseSegment =
      ((Text.split '.' text.toList).map segment).flatMap Segment.elements := by
    rw [List.flatMap_map]
    exact List.flatMap_congr fun piece _ => parsed piece
  rw [parse, segments, display_segments, List.map_map]
  congr 2
  exact List.map_congr_left fun piece _ => (rewritten_eq (parsed piece)).symm

/-- The display of a path that was read names the same path. -/
theorem parse_display_parse (text : String) : parse (display (parse text)) = parse text := by
  have nonempty : (Text.split '.' text.toList).map rewritten ≠ [] := fun none =>
    Text.split_ne_nil _ _ (List.map_eq_nil_iff.mp none)
  have unbroken : ∀ piece ∈ (Text.split '.' text.toList).map rewritten, '.' ∉ piece := by
    intro changed member
    rcases List.mem_map.mp member with ⟨piece, source, rfl⟩
    exact notMem_rewritten (Text.notMem_of_mem_split source)
  rw [display_parse, parse_join nonempty unbroken, List.flatMap_map, parse]
  exact congrArg Path.mk (List.flatMap_congr fun piece _ => parseSegment_rewritten piece)

/-- The display is the text that was read if and only if its indexes are canonical. -/
theorem display_parse_eq_iff (text : String) :
    display (parse text) = text ↔
      ∀ segment : SegmentText, segment.Recognised →
        segment.chars ∈ Text.split '.' text.toList →
          ∀ index ∈ segment.indexes, IsCanonical index := by
  have pieces : display (parse text) = text ↔
      ∀ piece ∈ Text.split '.' text.toList, rewritten piece = piece := by
    rw [display_parse, ← String.toList_inj, String.toList_ofList]
    exact Text.join_map_split_eq_iff fun _ => notMem_rewritten
  rw [pieces]
  constructor
  · intro unchanged segment recognised member
    exact rewritten_eq_iff.mp (unchanged _ member) segment recognised rfl
  · rintro canonical piece member
    refine rewritten_eq_iff.mpr ?_
    rintro segment recognised rfl
    exact canonical segment recognised member

/-! ## Paths read back -/

/-- A path whose display says where each of its elements begins. -/
structure IsUnambiguous (path : Path) : Prop where
  rooted : path.isRooted
  plain : ∀ name ∈ path.names, '.' ∉ name.toList ∧ '[' ∉ name.toList
  bounded : path.isBounded
  named : ∀ position, ¬[.attribute "", .index position] <:+: path.elements

/-- The display of an unambiguous path names the path. -/
theorem parse_display_of_isUnambiguous
    {path : Path}
    (unambiguous : path.IsUnambiguous) :
    parse (display path) = path := by
  rcases exists_segments_of_isRooted unambiguous.rooted with ⟨segments, nonempty, rfl⟩
  have plain : ∀ segment ∈ segments, '.' ∉ segment.name.toList ∧ '[' ∉ segment.name.toList := by
    intro segment member
    have isElement : .attribute segment.name ∈ segments.flatMap Segment.elements :=
      List.mem_flatMap.mpr ⟨segment, member, List.mem_cons_self⟩
    exact unambiguous.plain _ (List.mem_filterMap.mpr ⟨_, isElement, rfl⟩)
  have small : ∀ segment ∈ segments, ∀ position ∈ segment.positions, position < indexBound := by
    intro segment member position isPosition
    have bounded := List.all_eq_true.mp unambiguous.bounded (.index position)
      (List.mem_flatMap.mpr ⟨segment, member,
        List.mem_cons_of_mem _ (List.mem_map_of_mem isPosition)⟩)
    exact of_decide_eq_true bounded
  have named : ∀ segment ∈ segments, segment.name = "" → segment.positions = [] := by
    rintro ⟨name, positions⟩ member (rfl : name = "")
    cases positions with
    | nil => rfl
    | cons position positions =>
        have front : [.attribute "", .index position] <+:
            (Segment.mk "" (position :: positions)).elements :=
          ⟨positions.map .index, rfl⟩
        have inside : (Segment.mk "" (position :: positions)).elements <:+:
            segments.flatMap Segment.elements :=
          List.infix_of_mem_flatten (List.mem_map_of_mem member)
        exact absurd (front.isInfix.trans inside) (unambiguous.named position)
  have written : segments.map (fun segment => segment.written.chars) ≠ [] := fun none =>
    nonempty (List.map_eq_nil_iff.mp none)
  have unbroken : ∀ piece ∈ segments.map (fun segment => segment.written.chars), '.' ∉ piece := by
    intro piece source
    rcases List.mem_map.mp source with ⟨segment, member, rfl⟩
    exact segment.dot_notMem_chars_written (plain segment member).1
  have readBack : ∀ segment ∈ segments,
      parseSegment segment.written.chars = segment.elements := by
    intro segment member
    have recognised : segment.written.Recognised :=
      Segment.recognised_written (plain segment member).2 (named segment member)
        (small segment member)
    rw [recognised.parseSegment, Segment.read_written (small segment member)]
  rw [display_segments, parse_join written unbroken, List.flatMap_map]
  exact congrArg Path.mk (List.flatMap_congr readBack)

/-- Reading a text gives a path that begins with an attribute; displaying it and reading
again gives the same path, and the display is the text exactly if the indexes that were
recognised in it are canonical.  An unambiguous path is read back from its display. -/
theorem reading_and_display_agree :
    (∀ text : String,
      (∃ name elements, (parse text).elements = .attribute name :: elements) ∧
      parse (display (parse text)) = parse text ∧
      (display (parse text) = text ↔
        ∀ segment : SegmentText, segment.Recognised →
          segment.chars ∈ Text.split '.' text.toList →
            ∀ index ∈ segment.indexes, IsCanonical index)) ∧
    ∀ path : Path, path.IsUnambiguous → parse (display path) = path := by
  refine ⟨fun text => ⟨?_, parse_display_parse text, display_parse_eq_iff text⟩,
    fun _ => parse_display_of_isUnambiguous⟩
  rcases exists_segments_of_isRooted (isRooted_parse text) with ⟨segments, nonempty, parsed⟩
  cases segments with
  | nil => exact absurd rfl nonempty
  | cons segment segments => exact ⟨_, _, congrArg Path.elements parsed⟩

/-- Odd names and the largest index are read back, and a padded index is displayed
without its zeros. -/
theorem reading_and_display_agree_crooked :
    (IsUnambiguous ⟨[.attribute "", .attribute "a]b", .index 0, .index (indexBound - 1)]⟩ ∧
      parse (display ⟨[.attribute "", .attribute "a]b", .index 0, .index (indexBound - 1)]⟩) =
        ⟨[.attribute "", .attribute "a]b", .index 0, .index (indexBound - 1)]⟩) ∧
    parse (display (parse "[0].tags[+07][x]..a[007]")) = parse "[0].tags[+07][x]..a[007]" ∧
    display (parse "[0].tags[+07][x]..a[007]") ≠ "[0].tags[+07][x]..a[007]" := by
  have unambiguous :
      IsUnambiguous ⟨[.attribute "", .attribute "a]b", .index 0, .index (indexBound - 1)]⟩ := by
    refine ⟨rfl, ?_, rfl, fun position => ?_⟩
    · simp [names]
    · simp [List.infix_cons_iff, List.cons_prefix_cons]
  rcases reading_and_display_agree with ⟨ofText, ofPath⟩
  rcases ofText "[0].tags[+07][x]..a[007]" with ⟨-, again, unchanged⟩
  have recognised : SegmentText.Recognised ⟨['a'], [['0', '0', '7']]⟩ :=
    ⟨by decide, fun noName => absurd noName (by decide), by decide⟩
  refine ⟨⟨unambiguous, ofPath _ unambiguous⟩, again, fun equal => ?_⟩
  have canonical := unchanged.mp equal _ recognised (by decide) _ List.mem_cons_self
  exact absurd (canonical.unpadded rfl) (by decide)

end ItemTable.Path
