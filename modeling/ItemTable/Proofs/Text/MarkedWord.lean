import ItemTable.Text.Blank

/-!
# Marked words

Expressions spell a placeholder as a mark and a word: one or more ASCII letters,
digits and underscores.
-/

namespace ItemTable.Text

/-- Whether a text is a mark with a word behind it. -/
def isMarkedWord (mark : Char) (text : String) : Bool :=
  match text.toList with
  | [] => false
  | first :: word => first == mark && !word.isEmpty && word.all isWordChar

/-- A text without its first character. -/
def unmarked (text : String) : String :=
  String.ofList text.toList.tail

/-- A marked word is the mark and a word of word characters. -/
theorem isMarkedWord_iff
    {mark : Char}
    {text : String} :
    isMarkedWord mark text ↔
      ∃ word, text.toList = mark :: word ∧ word ≠ [] ∧ ∀ char ∈ word, isWordChar char := by
  rw [isMarkedWord]
  split
  next none => simp [none]
  next first word some =>
    simp only [some, Bool.and_eq_true, beq_iff_eq, Bool.not_eq_true', List.isEmpty_eq_false_iff,
      List.all_eq_true, List.cons.injEq]
    constructor
    · rintro ⟨⟨rfl, nonempty⟩, chars⟩
      exact ⟨word, ⟨rfl, rfl⟩, nonempty, chars⟩
    · rintro ⟨_, ⟨rfl, rfl⟩, nonempty, chars⟩
      exact ⟨⟨rfl, nonempty⟩, chars⟩

/-- The mark and the word make up the text. -/
theorem mark_append_unmarked
    {mark : Char}
    {text : String}
    (marked : isMarkedWord mark text) :
    String.singleton mark ++ unmarked text = text := by
  rcases isMarkedWord_iff.1 marked with ⟨word, equal, _, _⟩
  apply String.toList_inj.1
  simp [unmarked, equal]

end ItemTable.Text
