import ItemTable.Proofs.Expression.Noting
import ItemTable.Proofs.Expression.Scopes

/-!
# Placeholders that no expression mentions

A request reads its conditions and projections one after the other and then asks for the
placeholders that are left over.  An expression that is read notes just the placeholders
among its tokens, whatever was noted before; one that cannot be read notes some of them.
So nothing is left over just if every placeholder of the request is a token of some
expression, and what is left over is listed in order.

The empty string is a name of a request like others but no token.  It is left over by all
expressions, and it is not missed unless something else is.
-/

namespace ItemTable

/-! ## Placeholders of a kind -/

/-- Placeholders stand for names or for literals. -/
inductive PlaceholderKind where
  | name
  | value

namespace PlaceholderKind

/-- The sign at the beginning of a placeholder. -/
def mark : PlaceholderKind → String
  | name => "#"
  | value => ":"

/-- The token of a placeholder. -/
def token : PlaceholderKind → String → Token
  | name => .name
  | value => .value

/-- The placeholders that a scope explains, in order. -/
def explained (kind : PlaceholderKind) (scope : Scope) : List String :=
  match kind with
  | name => scope.references.names.names
  | value => scope.references.values.names

/-- The placeholders that are noted in a scope. -/
def used (kind : PlaceholderKind) (scope : Scope) : List String :=
  match kind with
  | name => scope.usedNames
  | value => scope.usedValues

/-- The placeholders among tokens. -/
def among (kind : PlaceholderKind) (tokens : List Token) : List String :=
  match kind with
  | name => Scope.namesIn tokens
  | value => Scope.valuesIn tokens

variable (kind : PlaceholderKind)

theorem used_mention (scope : Scope) (tokens : List Token) :
    kind.used (scope.mention tokens) = kind.used scope ++ kind.among tokens := by
  cases kind <;> rfl

theorem mem_among {tokens : List Token} {placeholder : String} :
    placeholder ∈ kind.among tokens ↔
      ∃ word, placeholder = kind.mark ++ word ∧ kind.token word ∈ tokens := by
  cases kind with
  | name => exact Scope.mem_namesIn
  | value => exact Scope.mem_valuesIn

theorem increasing_explained (scope : Scope) : (kind.explained scope).Pairwise (· < ·) := by
  cases kind with
  | name => exact scope.references.names.increasing
  | value => exact scope.references.values.increasing

/-- The token of a placeholder is spelled with its sign and its word. -/
theorem eq_of_spelled
    {word : String}
    {spelling : List Char}
    (spelled : (kind.token word).Spelled spelling) :
    spelling = (kind.mark ++ word).toList := by
  generalize placeholder : kind.token word = token at spelled
  cases kind
  all_goals
    cases spelled with
    | sign isSign =>
        subst placeholder
        simp [PlaceholderKind.token, Token.signs] at isSign
    | keyword start chars isKeyword =>
        subst placeholder
        simp [PlaceholderKind.token, Token.keywords] at isKeyword
    | _ =>
        cases placeholder
        try simp [mark]

/-- A placeholder stands in the text that is spelled with its token. -/
theorem infix_of_lexes
    {text : List Char}
    {tokens : List Token}
    {word : String}
    (lexes : Lexes text tokens)
    (member : kind.token word ∈ tokens) :
    (kind.mark ++ word).toList <:+: text := by
  induction lexes with
  | nil => cases member
  | blank isBlank behind ih => exact (ih member).trans (List.infix_cons (List.infix_refl _))
  | token spelled longest behind ih =>
      rcases List.mem_cons.mp member with rfl | inBehind
      · rw [kind.eq_of_spelled spelled]
        exact (List.prefix_append _ _).isInfix
      · exact (ih inBehind).trans (List.suffix_append _ _).isInfix

end PlaceholderKind

/-! ## Expressions of a request -/

/-- An expression of a request. -/
inductive Expression where
  | condition (text : String)
  | projection (text : String)

/-- What an expression is read as. -/
inductive Reading where
  | condition (condition : Condition)
  | projection (paths : List Path)
deriving DecidableEq

namespace Expression

def text : Expression → String
  | condition text | projection text => text

/-- Read an expression in a scope. -/
def read (scope : Scope) : Expression → Except ExpressionError Reading × Scope
  | condition text => ((scope.condition text).1.map .condition, (scope.condition text).2)
  | projection text => ((scope.projection text).1.map .projection, (scope.projection text).2)

/-- Read an expression and note each placeholder when it is replaced. -/
def readNoting (scope : Scope) : Expression → Except ExpressionError Reading × Scope
  | condition text =>
      let (result, later) := Noting.whole Noting.condition scope text
      (result.map .condition, later)
  | projection text =>
      let (result, later) := Noting.whole (fun _ => Noting.paths) scope text
      (result.map .projection, later)

theorem readNoting_eq (expression : Expression) (scope : Scope) :
    expression.readNoting scope = expression.read scope := by
  cases expression with
  | condition text =>
      rw [read, Scope.condition_eq_whole]
      rfl
  | projection text =>
      rw [read, Scope.projection_eq_whole]
      rfl

/-- A placeholder is one of the tokens of an expression. -/
def Mentions (expression : Expression) (kind : PlaceholderKind) (placeholder : String) : Prop :=
  ∃ tokens word,
    Lexes expression.text.toList tokens ∧ kind.token word ∈ tokens ∧
      placeholder = kind.mark ++ word

theorem infix_of_mentions
    {expression : Expression}
    {kind : PlaceholderKind}
    {placeholder : String}
    (mentions : expression.Mentions kind placeholder) :
    placeholder.toList <:+: expression.text.toList := by
  rcases mentions with ⟨tokens, word, lexes, member, rfl⟩
  exact kind.infix_of_lexes lexes member

/-- No expression mentions the empty placeholder. -/
theorem not_mentions_empty (expression : Expression) (kind : PlaceholderKind) :
    ¬expression.Mentions kind "" := by
  rintro ⟨tokens, word, -, -, empty⟩
  have noMark := (String.append_eq_empty_iff.mp empty.symm).1
  cases kind <;> exact absurd noMark (by decide)

end Expression

/-! ## Reading one expression -/

namespace Scope

variable
    {α β : Type}
    {parser : References → List Token → Except ParseFailure α}
    {text : String}

/-- A parser that changes its results notes the same placeholders. -/
theorem parse_map (make : α → β) (scope : Scope) (text : String) :
    scope.parse (fun references tokens => (parser references tokens).map make) text =
      ((scope.parse parser text).1.map make, (scope.parse parser text).2) := by
  unfold parse
  cases References.scanExpression text with
  | error failure => rfl
  | ok tokens =>
      dsimp only
      cases parser scope.references tokens <;> rfl

/-- What is noted for a text are placeholders among its tokens. -/
theorem exists_parse_snd
    (parser : References → List Token → Except ParseFailure α)
    (scope : Scope)
    (text : String) :
    ∃ taken, (scope.parse parser text).2 = scope.mention taken ∧
      ∀ token ∈ taken, token = .endOfInput ∨
        ∃ tokens, Lexes text.toList tokens ∧ token ∈ tokens := by
  unfold parse
  cases scanned : References.scanExpression text with
  | error failure => exact ⟨[], (mention_nil scope).symm, nofun⟩
  | ok tokens =>
      rcases References.scanExpression_eq_ok_iff.mp scanned with ⟨lexemes, -, rfl, lexes⟩
      have known : ∀ token ∈ lexemes ++ [Token.endOfInput], token = .endOfInput ∨
          ∃ tokens, Lexes text.toList tokens ∧ token ∈ tokens := by
        intro token member
        rcases List.mem_append.mp member with inText | atEnd
        · exact .inr ⟨lexemes, lexes, inText⟩
        · exact .inl (List.mem_singleton.mp atEnd)
      dsimp only
      cases parser scope.references (lexemes ++ [.endOfInput]) with
      | ok value => exact ⟨_, rfl, known⟩
      | error failure => exact ⟨_, rfl, fun token taken => known token (List.mem_of_mem_take taken)⟩

/-- What is noted for a text that is read are all placeholders among its tokens. -/
theorem parse_snd_of_ok
    {scope : Scope}
    {value : α}
    (read : (scope.parse parser text).1 = .ok value) :
    ∃ tokens, Lexes text.toList tokens ∧ (scope.parse parser text).2 = scope.mention tokens := by
  rcases parse_fst_eq_ok_iff.mp read with ⟨tokens, scanned, parsed⟩
  rcases References.scanExpression_eq_ok_iff.mp scanned with ⟨lexemes, -, rfl, lexes⟩
  refine ⟨lexemes, lexes, ?_⟩
  unfold parse
  rw [scanned]
  dsimp only
  rw [parsed, mention_append]
  exact (mention_cons_of_not_placeholder _ [] rfl).trans (mention_nil _)

end Scope

namespace Expression

variable {expression : Expression} {kind : PlaceholderKind} {scope : Scope}

/-- The parser of an expression. -/
def parser : Expression → References → List Token → Except ParseFailure Reading
  | condition _ => fun references tokens => (references.condition tokens).map .condition
  | projection _ => fun references tokens => (references.projection tokens).map .projection

theorem read_eq_parse (expression : Expression) (scope : Scope) :
    expression.read scope = scope.parse expression.parser expression.text := by
  cases expression with
  | condition text => exact (scope.parse_map Reading.condition text).symm
  | projection text => exact (scope.parse_map Reading.projection text).symm

/-- Reading explains nothing anew. -/
theorem references_read (expression : Expression) (scope : Scope) :
    (expression.read scope).2.references = scope.references := by
  rcases Scope.exists_parse_snd expression.parser scope expression.text with ⟨taken, outcome, -⟩
  rw [read_eq_parse, outcome]
  rfl

/-- What is noted for an expression are placeholders that it mentions. -/
theorem exists_used_read (expression : Expression) (kind : PlaceholderKind) (scope : Scope) :
    ∃ noted, kind.used (expression.read scope).2 = kind.used scope ++ noted ∧
      ∀ placeholder ∈ noted, expression.Mentions kind placeholder := by
  rcases Scope.exists_parse_snd expression.parser scope expression.text with
    ⟨taken, outcome, known⟩
  refine ⟨kind.among taken, ?_, ?_⟩
  · rw [read_eq_parse, outcome, kind.used_mention]
  · intro placeholder member
    rcases kind.mem_among.mp member with ⟨word, rfl, isToken⟩
    rcases known _ isToken with atEnd | ⟨tokens, lexes, inTokens⟩
    · cases kind <;> cases atEnd
    · exact ⟨tokens, word, lexes, inTokens, rfl⟩

/-- What is noted for an expression that is read are all placeholders that it mentions. -/
theorem mem_used_read
    {reading : Reading}
    (isRead : (expression.read scope).1 = .ok reading)
    {placeholder : String} :
    placeholder ∈ kind.used (expression.read scope).2 ↔
      placeholder ∈ kind.used scope ∨ expression.Mentions kind placeholder := by
  rw [read_eq_parse] at isRead ⊢
  rcases Scope.parse_snd_of_ok isRead with ⟨tokens, lexes, outcome⟩
  rw [outcome, kind.used_mention, List.mem_append, kind.mem_among]
  apply or_congr_right
  constructor
  · rintro ⟨word, rfl, member⟩
    exact ⟨tokens, word, lexes, member, rfl⟩
  · rintro ⟨others, word, lexesOthers, member, rfl⟩
    rw [lexesOthers.unique lexes] at member
    exact ⟨word, rfl, member⟩

end Expression

/-! ## Reading all of them -/

namespace Scope

/-- Read expressions one after the other. -/
def readAll
    (scope : Scope) :
    List Expression → List (Except ExpressionError Reading) × Scope
  | [] => ([], scope)
  | expression :: others =>
      let (result, next) := expression.read scope
      let (results, last) := next.readAll others
      (result :: results, last)

theorem readAll_cons (scope : Scope) (expression : Expression) (others : List Expression) :
    scope.readAll (expression :: others) =
      ((expression.read scope).1 :: ((expression.read scope).2.readAll others).1,
        ((expression.read scope).2.readAll others).2) :=
  rfl

variable {scope : Scope} {expressions : List Expression} {kind : PlaceholderKind}

theorem references_readAll (scope : Scope) (expressions : List Expression) :
    (scope.readAll expressions).2.references = scope.references := by
  induction expressions generalizing scope with
  | nil => rfl
  | cons expression others ih => exact (ih _).trans (expression.references_read scope)

/-- After expressions that are all read, just the placeholders that they mention are noted
with those before. -/
theorem mem_used_readAll
    (allRead : ∀ result ∈ (scope.readAll expressions).1, ∃ reading, result = .ok reading)
    {placeholder : String} :
    placeholder ∈ kind.used (scope.readAll expressions).2 ↔
      placeholder ∈ kind.used scope ∨
        ∃ expression ∈ expressions, expression.Mentions kind placeholder := by
  induction expressions generalizing scope with
  | nil => simp [readAll]
  | cons expression others ih =>
      -- The others are read in the scope that the first one leaves, hence any scope above.
      rw [readAll_cons] at allRead ⊢
      rcases allRead _ List.mem_cons_self with ⟨reading, isRead⟩
      have behind := ih fun result member => allRead result (List.mem_cons_of_mem _ member)
      rw [behind, Expression.mem_used_read isRead, List.exists_mem_cons_iff, or_assoc]

/-! ## What is left over -/

/-- Every placeholder that is explained is mentioned by one of the expressions; the empty
one need not be. -/
def Covered (scope : Scope) (expressions : List Expression) (kind : PlaceholderKind) : Prop :=
  ∀ placeholder ∈ kind.explained scope,
    placeholder = "" ∨ ∃ expression ∈ expressions, expression.Mentions kind placeholder

/-- The placeholders that are explained and mentioned by no expression, in order. -/
structure Unmentioned
    (scope : Scope)
    (expressions : List Expression)
    (kind : PlaceholderKind)
    (placeholders : List String) : Prop where
  increasing : placeholders.Pairwise (· < ·)
  mem_iff : ∀ placeholder,
    placeholder ∈ placeholders ↔
      placeholder ∈ kind.explained scope ∧
        ∀ expression ∈ expressions, ¬expression.Mentions kind placeholder

section

variable
    (allRead : ∀ result ∈ (scope.readAll expressions).1, ∃ reading, result = .ok reading)
    (unread : ∀ kind : PlaceholderKind, kind.used scope = [])

include allRead unread

theorem mem_used_readAll_iff {placeholder : String} :
    placeholder ∈ kind.used (scope.readAll expressions).2 ↔
      ∃ expression ∈ expressions, expression.Mentions kind placeholder := by
  rw [mem_used_readAll allRead, unread]
  simp

theorem unmentioned_leftOver (kind : PlaceholderKind) :
    Unmentioned scope expressions kind
      (leftOver (kind.explained scope) (kind.used (scope.readAll expressions).2)) := by
  constructor
  · exact (kind.increasing_explained scope).filter _
  · intro placeholder
    rw [mem_leftOver, mem_used_readAll_iff allRead unread]
    simp only [not_exists, not_and]

theorem listing_leftOver_readAll (kind : PlaceholderKind) :
    ExpressionError.listing
        (leftOver (kind.explained scope) (kind.used (scope.readAll expressions).2)) = "" ↔
      Covered scope expressions kind := by
  have distinct : (kind.explained scope).Nodup :=
    (kind.increasing_explained scope).imp fun less => String.ne_of_lt less
  rw [listing_leftOver_eq_empty_iff distinct]
  simp only [mem_used_readAll_iff allRead unread, Covered]

theorem finish_readAll :
    let leftOf (kind : PlaceholderKind) :=
      leftOver (kind.explained scope) (kind.used (scope.readAll expressions).2)
    (Covered scope expressions .name → Covered scope expressions .value →
      (scope.readAll expressions).2.finish = .ok ()) ∧
    (¬Covered scope expressions .name →
      (scope.readAll expressions).2.finish = .error (.unusedNames (leftOf .name))) ∧
    (Covered scope expressions .name → ¬Covered scope expressions .value →
      (scope.readAll expressions).2.finish = .error (.unusedValues (leftOf .value))) := by
  have names := listing_leftOver_readAll allRead unread .name
  have values := listing_leftOver_readAll allRead unread .value
  have explained := references_readAll scope expressions
  simp only [PlaceholderKind.explained, PlaceholderKind.used, ← explained] at names values ⊢
  unfold finish
  refine ⟨?_, ?_, ?_⟩
  · intro namesCovered valuesCovered
    dsimp only
    rw [if_neg (not_not.mpr (names.mpr namesCovered)),
      if_neg (not_not.mpr (values.mpr valuesCovered))]
  · intro missing
    exact if_pos (mt names.mp missing)
  · intro namesCovered missing
    dsimp only
    rw [if_neg (not_not.mpr (names.mpr namesCovered)), if_pos (mt values.mp missing)]

end

/-- What is left over by expressions that are all read are just the placeholders that none
of them mentions, first those of names, then those of literals; the empty one is not missed
alone.  A single expression notes only placeholders that stand in its own text, whether it
is read or not, and notes them as if each were noted when it is replaced. -/
theorem finish_exact
    (names : NameMap String)
    (values : NameMap AttributeValue)
    (expressions : List Expression) :
    let scope := start names values
    let last := (scope.readAll expressions).2
    ((∀ result ∈ (scope.readAll expressions).1, ∃ reading, result = .ok reading) →
      (last.finish = .ok () ↔ ∀ kind, Covered scope expressions kind) ∧
      (¬Covered scope expressions .name →
        ∃ placeholders, Unmentioned scope expressions .name placeholders ∧
          last.finish = .error (.unusedNames placeholders)) ∧
      (Covered scope expressions .name → ¬Covered scope expressions .value →
        ∃ placeholders, Unmentioned scope expressions .value placeholders ∧
          last.finish = .error (.unusedValues placeholders))) ∧
    ∀ (scope : Scope) (expression : Expression),
      expression.readNoting scope = expression.read scope ∧
      ∀ kind : PlaceholderKind, ∃ noted,
        kind.used (expression.read scope).2 = kind.used scope ++ noted ∧
          ∀ placeholder ∈ noted, expression.Mentions kind placeholder ∧
            placeholder.toList <:+: expression.text.toList := by
  intro scope last
  constructor
  · intro allRead
    have unread (kind : PlaceholderKind) : kind.used scope = [] := by
      cases kind <;> rfl
    have left := unmentioned_leftOver allRead unread
    rcases finish_readAll allRead unread with ⟨covered, noName, noValue⟩
    refine ⟨⟨?_, fun all => covered (all .name) (all .value)⟩, ?_, ?_⟩
    · intro finished
      have names : Covered scope expressions .name := by
        by_contra missing
        rw [noName missing] at finished
        cases finished
      rintro (_ | _)
      · exact names
      · by_contra missing
        rw [noValue names missing] at finished
        cases finished
    · exact fun missing => ⟨_, left .name, noName missing⟩
    · exact fun names missing => ⟨_, left .value, noValue names missing⟩
  · intro scope expression
    refine ⟨expression.readNoting_eq scope, fun kind => ?_⟩
    rcases expression.exists_used_read kind scope with ⟨noted, outcome, mentioned⟩
    refine ⟨noted, outcome, fun placeholder member => ?_⟩
    exact ⟨mentioned _ member, Expression.infix_of_mentions (mentioned _ member)⟩

/-- Two expressions mention one of two placeholders, and the other one is left over. -/
theorem finish_exact_unused :
    let scope := start (.ofList [("#a", "author"), ("#b", "book")]) ∅
    let expressions := [Expression.condition "#a = #a", .projection "#a, c"]
    (∀ result ∈ (scope.readAll expressions).1, ∃ reading, result = .ok reading) ∧
      Unmentioned scope expressions .name ["#b"] ∧
      (scope.readAll expressions).2.finish = .error (.unusedNames ["#b"]) := by
  intro scope expressions
  have computed : (scope.readAll expressions).1 =
      [.ok (.condition (.compare (.path ⟨[.attribute "author"]⟩) .equal
        (.path ⟨[.attribute "author"]⟩))),
        .ok (.projection [⟨[.attribute "author"]⟩, ⟨[.attribute "c"]⟩])] := by
    decide +kernel
  have finished : (scope.readAll expressions).2.finish = .error (.unusedNames ["#b"]) := by
    decide +kernel
  have allRead : ∀ result ∈ (scope.readAll expressions).1, ∃ reading, result = .ok reading := by
    rw [computed]
    simp
  rcases (finish_exact (.ofList [("#a", "author"), ("#b", "book")]) ∅ expressions).1 allRead
    with ⟨exact, noName, -⟩
  have noValues : Covered scope expressions .value := fun placeholder member => by
    cases member
  have missing : ¬Covered scope expressions .name := by
    intro names
    have covered : ∀ kind, Covered scope expressions kind := by
      rintro (_ | _)
      · exact names
      · exact noValues
    have succeeded := exact.mpr covered
    rw [finished] at succeeded
    cases succeeded
  rcases noName missing with ⟨placeholders, unmentioned, found⟩
  rw [finished] at found
  cases found
  exact ⟨allRead, unmentioned, finished⟩

/-- The empty placeholder is explained and no expression mentions it, but alone it is not
missed. -/
theorem empty_placeholder_not_missed :
    let scope := start (.ofList [("", "author")]) ∅
    let expressions := [Expression.condition "a = a"]
    (scope.readAll expressions).1 =
        [.ok (.condition (.compare (.path ⟨[.attribute "a"]⟩) .equal
          (.path ⟨[.attribute "a"]⟩)))] ∧
      Unmentioned scope expressions .name [""] ∧
      (scope.readAll expressions).2.finish = .ok () := by
  intro scope expressions
  have explained : PlaceholderKind.name.explained scope = [""] := by decide +kernel
  refine ⟨by decide +kernel, ⟨List.pairwise_singleton _ _, ?_⟩, by decide +kernel⟩
  intro placeholder
  rw [explained, List.mem_singleton]
  constructor
  · rintro rfl
    exact ⟨rfl, fun expression _ => expression.not_mentions_empty .name⟩
  · exact And.left

end Scope

end ItemTable
