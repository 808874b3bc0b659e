import ItemTable.Json.Draft

/-!
# Written documents are read back

A document without numbers is read back from its written form, whatever follows it.
-/

namespace ItemTable.Json

/-! ## Quoted texts -/

/-- The code of a control is read back from its hexadecimal digits. -/
theorem readUnit_hexadecimal
    {code : Nat}
    (control : code < 0x20)
    (rest : List Char) :
    Draft.readUnit (hexadecimal code ++ rest) = some (code, rest) := by
  have each :
      ∀ code < 0x20,
        (hexadecimal code).map Draft.hexValue? =
          [some 0, some 0, some (code / 16), some (code % 16)] := by
    decide
  have values := each code control
  simp only [hexadecimal, List.map_cons, List.map_nil, List.cons.injEq, and_true] at values
  rcases values with ⟨first, second, third, fourth⟩
  have whole : code / 16 * 16 + code % 16 = code := by omega
  simp [hexadecimal, Draft.readUnit, first, second, third, fourth, whole]

/-- A letter behind a backslash is read as the character that it stands for. -/
theorem readText_letter
    {letter char : Char}
    (stands : Draft.unescape? letter = some char)
    (fuel : Nat)
    (rest : List Char) :
    Draft.readText (fuel + 1) ('\\' :: letter :: rest) =
      (Draft.readText fuel rest).map fun (content, rest) =>
        (content.map (char :: ·), rest) := by
  have other : letter ≠ 'u' := by
    rintro rfl
    cases stands
  rw [Draft.readText]
  · rw [stands, Option.bind_some]
  · exact other

/-- A character is read back from its escaped form. -/
theorem readText_escape
    (fuel : Nat)
    (char : Char)
    (rest : List Char) :
    Draft.readText (fuel + 1) (escape char ++ rest) =
      (Draft.readText fuel rest).map fun (content, rest) =>
        (content.map (char :: ·), rest) := by
  unfold escape
  split
  case h_8 quotation backslash _ _ _ _ _ =>
    split
    next control =>
      have scalar : char.toNat < 0xD800 := by omega
      simp only [List.cons_append]
      rw [Draft.readText, readUnit_hexadecimal control]
      simp [scalar]
    next plain =>
      rw [List.singleton_append, Draft.readText]
      · rw [if_neg plain]
      · exact quotation
      · intro _ escaped
        exact absurd escaped backslash
      · intro _ _ escaped
        exact absurd escaped backslash
  all_goals exact readText_letter rfl fuel rest

/-- A text is read back from its escaped form up to the closing quote. -/
theorem readText_quoted
    {fuel : Nat}
    {text : List Char}
    (enough : text.length < fuel)
    (rest : List Char) :
    Draft.readText fuel (text.flatMap escape ++ '"' :: rest) = some (some text, rest) := by
  induction text generalizing fuel with
  | nil =>
      obtain ⟨fuel, rfl⟩ := Nat.exists_eq_succ_of_ne_zero (Nat.ne_zero_of_lt enough)
      rfl
  | cons char text ih =>
      obtain ⟨fuel, rfl⟩ := Nat.exists_eq_succ_of_ne_zero (Nat.ne_zero_of_lt enough)
      rw [List.flatMap_cons, List.append_assoc, readText_escape,
        ih (Nat.lt_of_succ_lt_succ enough)]
      rfl

theorem length_le_flatMap_escape (text : List Char) :
    text.length ≤ (text.flatMap escape).length := by
  have visible : ∀ char, 1 ≤ (escape char).length := by
    intro char
    unfold escape
    split <;> first | split | skip
    all_goals simp
  induction text with
  | nil => exact Nat.le_refl 0
  | cons char text ih =>
      have here := visible char
      rw [List.flatMap_cons, List.length_append, List.length_cons]
      omega

/-- What stands behind an opening quote is long enough for its own reading. -/
theorem readText_behind_quote
    (text : String)
    (rest : List Char) :
    Draft.readText ((text.toList.flatMap escape ++ '"' :: rest).length + 1)
        (text.toList.flatMap escape ++ '"' :: rest) =
      some (some text.toList, rest) := by
  apply readText_quoted
  have escaped := length_le_flatMap_escape text.toList
  rw [List.length_append]
  omega

/-! ## Documents -/

/-- There is no number in the document. -/
inductive Numberless : Json → Prop where
  | null : Numberless .null
  | bool (value : Bool) : Numberless (.bool value)
  | string (text : String) : Numberless (.string text)
  | array
      {items : List Json}
      (each : ∀ item ∈ items, Numberless item) :
      Numberless (.array items)
  | object
      {members : List (String × Json)}
      (each : ∀ member ∈ members, Numberless member.2) :
      Numberless (.object members)

/-! ## Written forms as lists of characters -/

theorem toList_quote (text : String) :
    (quote text).toList = '"' :: (text.toList.flatMap escape ++ ['"']) := by
  simp [quote]

theorem toList_renderItems
    (item next : Json)
    (items : List Json) :
    (renderItems (item :: next :: items)).toList =
      item.render.toList ++ ',' :: (renderItems (next :: items)).toList := by
  simp [renderItems]

theorem toList_renderMember
    (name : String)
    (value : Json) :
    (renderMembers [(name, value)]).toList =
      (quote name).toList ++ ':' :: value.render.toList := by
  simp [renderMembers]

theorem toList_renderMembers
    (name : String)
    (value : Json)
    (next : String × Json)
    (members : List (String × Json)) :
    (renderMembers ((name, value) :: next :: members)).toList =
      (quote name).toList ++ ':' ::
        (value.render.toList ++ ',' :: (renderMembers (next :: members)).toList) := by
  simp [renderMembers]

theorem toList_render_array (items : List Json) :
    (array items).render.toList = '[' :: ((renderItems items).toList ++ [']']) := by
  simp [render]

theorem toList_render_object (members : List (String × Json)) :
    (object members).render.toList =
      '\x7b' :: ((renderMembers members).toList ++ ['\x7d']) := by
  simp [render]

/-! ## Reading written documents -/

/-- What is no blank is not skipped. -/
theorem skipBlanks_cons
    (first : Char)
    (visible : (first == ' ' || first == '\n' || first == '\t' || first == '\r') = false)
    (rest : List Char) :
    Draft.skipBlanks (first :: rest) = first :: rest := by
  rw [Draft.skipBlanks, List.dropWhile_cons, visible]
  rfl

/-- A written document begins with no blank, and with no end of an array. -/
theorem head_render
    {document : Json}
    (numberless : Numberless document) :
    ∃ first others,
      document.render.toList = first :: others ∧
        (∀ rest, Draft.skipBlanks (first :: rest) = first :: rest) ∧ first ≠ ']' := by
  cases numberless with
  | null => exact ⟨'n', _, rfl, fun _ => rfl, by decide⟩
  | bool value =>
      cases value
      · exact ⟨'f', _, rfl, fun _ => rfl, by decide⟩
      · exact ⟨'t', _, rfl, fun _ => rfl, by decide⟩
  | string text =>
      exact ⟨'"', _, toList_quote text, fun _ => rfl, by decide⟩
  | array each =>
      exact ⟨'[', _, toList_render_array _, fun _ => rfl, by decide⟩
  | object each =>
      exact ⟨'\x7b', _, toList_render_object _, fun _ => rfl, by decide⟩

/-- Written items begin as the first of them does. -/
theorem head_renderItems
    {item : Json}
    (numberless : Numberless item)
    (items : List Json)
    (rest : List Char) :
    ∃ first others,
      (renderItems (item :: items)).toList ++ rest = first :: others ∧
        Draft.skipBlanks (first :: others) = first :: others ∧ first ≠ ']' := by
  rcases head_render numberless with ⟨first, others, begins, visible, filled⟩
  cases items with
  | nil =>
      rw [renderItems, begins, List.cons_append]
      exact ⟨first, _, rfl, visible _, filled⟩
  | cons next items =>
      rw [toList_renderItems, begins, List.cons_append, List.cons_append]
      exact ⟨first, _, rfl, visible _, filled⟩

/-- Written members begin with the quote of the first name. -/
theorem head_renderMembers
    (member : String × Json)
    (members : List (String × Json))
    (rest : List Char) :
    ∃ others, (renderMembers (member :: members)).toList ++ rest = '"' :: others := by
  rcases member with ⟨name, value⟩
  cases members with
  | nil =>
      rw [toList_renderMember, toList_quote]
      exact ⟨_, rfl⟩
  | cons next members =>
      rw [toList_renderMembers, toList_quote]
      exact ⟨_, rfl⟩

/-- The text is read back as the draft of the document, whatever follows. -/
def ReadsBack (document : Json) : Prop :=
  ∀ fuel rest,
    2 * document.render.toList.length ≤ fuel →
      Draft.readValue fuel (document.render.toList ++ rest) =
        (Draft.ofJson document, some rest)

/-- Items that are read back are read back up to the end of their array. -/
theorem readItems_render
    {item : Json}
    {items : List Json}
    (each : ∀ other ∈ item :: items, ReadsBack other)
    (fuel : Nat)
    (enough : 2 * (renderItems (item :: items)).toList.length < fuel)
    (rest : List Char) :
    Draft.readItems fuel ((renderItems (item :: items)).toList ++ ']' :: rest) =
      (Draft.ofItems (item :: items), some rest) := by
  induction items generalizing item fuel with
  | nil =>
      have here := each item List.mem_cons_self
      obtain ⟨fuel, rfl⟩ := Nat.exists_eq_succ_of_ne_zero (Nat.ne_zero_of_lt enough)
      rw [renderItems] at enough ⊢
      rw [Draft.readItems, here fuel _ (by omega)]
      rfl
  | cons next items ih =>
      have here := each item List.mem_cons_self
      obtain ⟨fuel, rfl⟩ := Nat.exists_eq_succ_of_ne_zero (Nat.ne_zero_of_lt enough)
      rw [toList_renderItems, List.length_append, List.length_cons] at enough
      have others :=
        ih (fun other member => each other (List.mem_cons_of_mem _ member)) fuel (by omega)
      rw [toList_renderItems, List.append_assoc, Draft.readItems, here fuel _ (by omega)]
      simp only [List.cons_append, skipBlanks_cons ',' rfl, others]
      rfl

section OneMember

variable
  {value : Json}
  {fuel : Nat}

/-- The last member of an object is read back up to the end of the object. -/
theorem readMembers_last
    (here : ReadsBack value)
    (enough : 2 * value.render.toList.length ≤ fuel)
    (name : String)
    (rest : List Char) :
    Draft.readMembers (fuel + 1)
        ((quote name).toList ++ ':' :: (value.render.toList ++ '\x7d' :: rest)) =
      ([(some name, Draft.ofJson value)], some rest) := by
  simp only [toList_quote, List.append_assoc, List.cons_append, List.nil_append]
  rw [Draft.readMembers]
  simp only [skipBlanks_cons '"' rfl, readText_behind_quote, skipBlanks_cons ':' rfl,
    here fuel _ enough, skipBlanks_cons '\x7d' rfl, Option.map_some, String.ofList_toList]

/-- A member is read back in front of the others. -/
theorem readMembers_next
    {text : List Char}
    {members : List (Option String × Draft)}
    {left : Option (List Char)}
    (here : ReadsBack value)
    (enough : 2 * value.render.toList.length ≤ fuel)
    (name : String)
    (others : Draft.readMembers fuel text = (members, left)) :
    Draft.readMembers (fuel + 1)
        ((quote name).toList ++ ':' :: (value.render.toList ++ ',' :: text)) =
      ((some name, Draft.ofJson value) :: members, left) := by
  simp only [toList_quote, List.append_assoc, List.cons_append, List.nil_append]
  rw [Draft.readMembers]
  simp only [skipBlanks_cons '"' rfl, readText_behind_quote, skipBlanks_cons ':' rfl,
    here fuel _ enough, skipBlanks_cons ',' rfl, others, Option.map_some, String.ofList_toList]

end OneMember

/-- Members whose values are read back are read back up to the end of their object. -/
theorem readMembers_render
    {member : String × Json}
    {members : List (String × Json)}
    (each : ∀ other ∈ member :: members, ReadsBack other.2)
    (fuel : Nat)
    (enough : 2 * (renderMembers (member :: members)).toList.length < fuel)
    (rest : List Char) :
    Draft.readMembers fuel ((renderMembers (member :: members)).toList ++ '\x7d' :: rest) =
      (Draft.ofMembers (member :: members), some rest) := by
  induction members generalizing member fuel with
  | nil =>
      rcases member with ⟨name, value⟩
      have here : ReadsBack value := each (name, value) List.mem_cons_self
      obtain ⟨fuel, rfl⟩ := Nat.exists_eq_succ_of_ne_zero (Nat.ne_zero_of_lt enough)
      rw [toList_renderMember, List.length_append, List.length_cons] at enough
      rw [toList_renderMember, List.append_assoc, List.cons_append]
      exact readMembers_last here (by omega) name rest
  | cons next members ih =>
      rcases member with ⟨name, value⟩
      have here : ReadsBack value := each (name, value) List.mem_cons_self
      obtain ⟨fuel, rfl⟩ := Nat.exists_eq_succ_of_ne_zero (Nat.ne_zero_of_lt enough)
      rw [toList_renderMembers] at enough
      simp only [List.length_append, List.length_cons] at enough
      have others :=
        ih (fun other member => each other (List.mem_cons_of_mem _ member)) fuel (by omega)
      rw [toList_renderMembers, List.append_assoc, List.cons_append, List.append_assoc]
      exact readMembers_next here (by omega) name others

/-- Behind an opening bracket that is not closed at once stand items. -/
theorem readValue_array
    {first : Char}
    {others : List Char}
    (visible : Draft.skipBlanks (first :: others) = first :: others)
    (filled : first ≠ ']')
    (fuel : Nat) :
    Draft.readValue (fuel + 1) ('[' :: first :: others) =
      let (items, rest) := Draft.readItems fuel (first :: others)
      (.array items rest.isSome, rest) := by
  rw [Draft.readValue]
  simp only [skipBlanks_cons '[' rfl, visible]
  split
  next closed => exact absurd (List.cons.inj closed).1 filled
  next => rfl

/-- Behind an opening brace that is followed by a quote stand members. -/
theorem readValue_object
    (others : List Char)
    (fuel : Nat) :
    Draft.readValue (fuel + 1) ('\x7b' :: '"' :: others) =
      let (members, rest) := Draft.readMembers fuel ('"' :: others)
      (.object members rest.isSome, rest) := by
  rw [Draft.readValue]
  simp only [skipBlanks_cons '\x7b' rfl, skipBlanks_cons '"' rfl]
  rfl

/-- A document is not written as nothing, so that reading it begins. -/
theorem readsBack_of_succ
    {document : Json}
    (numberless : Numberless document)
    (read :
      ∀ fuel rest,
        2 * document.render.toList.length ≤ fuel + 1 →
          Draft.readValue (fuel + 1) (document.render.toList ++ rest) =
            (Draft.ofJson document, some rest)) :
    ReadsBack document := by
  intro fuel rest enough
  rcases head_render numberless with ⟨first, others, begins, -⟩
  cases fuel with
  | zero =>
      rw [begins, List.length_cons] at enough
      omega
  | succ fuel => exact read fuel rest enough

/-- A document without numbers is read back from its written form. -/
theorem Numberless.readsBack
    {document : Json}
    (numberless : Numberless document) :
    ReadsBack document := by
  induction numberless with
  | null => exact readsBack_of_succ .null fun _ _ _ => rfl
  | bool value =>
      apply readsBack_of_succ (Numberless.bool value)
      intro fuel rest _
      cases value <;> rfl
  | string text =>
      apply readsBack_of_succ (Numberless.string text)
      intro fuel rest _
      simp only [render, toList_quote, List.append_assoc, List.cons_append, List.nil_append]
      rw [Draft.readValue]
      simp only [skipBlanks_cons '"' rfl, readText_behind_quote, Option.map_some,
        String.ofList_toList]
      rfl
  | @array items each ih =>
      apply readsBack_of_succ (Numberless.array each)
      intro fuel rest enough
      rw [toList_render_array] at enough ⊢
      simp only [List.length_append, List.length_cons, List.length_nil] at enough
      cases items with
      | nil => rfl
      | cons item items =>
          have read := readItems_render ih fuel (by omega) rest
          rcases head_renderItems (each item List.mem_cons_self) items (']' :: rest) with
            ⟨first, others, starts, visible, filled⟩
          rw [starts] at read
          simp only [List.cons_append, List.append_assoc, List.nil_append, starts]
          rw [readValue_array visible filled, read]
          rfl
  | @object members each ih =>
      apply readsBack_of_succ (Numberless.object each)
      intro fuel rest enough
      rw [toList_render_object] at enough ⊢
      simp only [List.length_append, List.length_cons, List.length_nil] at enough
      cases members with
      | nil => rfl
      | cons member members =>
          have read := readMembers_render ih fuel (by omega) rest
          rcases head_renderMembers member members ('\x7d' :: rest) with ⟨others, starts⟩
          rw [starts] at read
          simp only [List.cons_append, List.append_assoc, List.nil_append, starts]
          rw [readValue_object, read]
          rfl

/-- A document without numbers is read back whole from its text, which ends behind it. -/
theorem read_render
    {document : Json}
    (numberless : Numberless document) :
    Draft.read document.render = (Draft.ofJson document, true) := by
  have whole := numberless.readsBack (2 * document.render.length + 2) []
    (by rw [String.length_toList]; omega)
  rw [List.append_nil] at whole
  rw [Draft.read, whole]
  rfl

end ItemTable.Json
