import ItemTable.AttributeValue.Basic

/-!
# Placeholders

Expressions never spell out attribute names and literals.  Each name is written
as a placeholder such as `#n0`, each literal as one such as `:v0`, and the
request says what the placeholders stand for.

An `Allotment` gives every key one placeholder, numbered in the order in which
keys are first met.  Numbers whose placeholder is taken already are passed over,
so an allotment can go on from the placeholders of an earlier request.
-/

namespace ItemTable

/-- The placeholders given out for keys, all with one stem. -/
structure Allotment (α : Type) where
  /-- What every new placeholder begins with. -/
  stem : String
  /-- The keys met so far, each with its placeholder. -/
  assigned : List (α × String)
  /-- The placeholders that are in use. -/
  taken : List String
  /-- The first number that has not been tried. -/
  next : Nat

namespace Allotment

variable {α : Type} [DecidableEq α]

/-- The placeholder with a number. -/
def candidate (stem : String) (number : Nat) : String :=
  stem ++ number.repr

/-- No placeholder has been given out. -/
def start (stem : String) : Allotment α where
  stem := stem
  assigned := []
  taken := []
  next := 0

/-- Assign a placeholder to a key that has none. -/
def assign
    (assigned : List (α × String))
    (key : α)
    (placeholder : String) :
    List (α × String) :=
  if (assigned.lookup key).isSome then assigned else assigned ++ [(key, placeholder)]

/-- The placeholders of the map are in use; a key keeps the first of its own. -/
def seeded (stem : String) (meanings : NameMap α) : Allotment α where
  stem := stem
  assigned := meanings.toList.foldl
    (fun assigned (placeholder, key) => assign assigned key placeholder) []
  taken := meanings.names
  next := 0

/-- The first number, from `number` on, whose placeholder is not taken.  Among
one number more than there are placeholders taken, one is free. -/
def free (stem : String) (taken : List String) : Nat → Nat → Nat
  | 0, number => number
  | tries + 1, number =>
      if taken.contains (candidate stem number) then
        free stem taken tries (number + 1)
      else
        number

/-- The placeholder of a key, a new one if the key has none. -/
def allot (allotment : Allotment α) (key : α) : String × Allotment α :=
  match allotment.assigned.lookup key with
  | some placeholder => (placeholder, allotment)
  | none =>
      let number := free allotment.stem allotment.taken allotment.taken.length allotment.next
      let placeholder := candidate allotment.stem number
      (placeholder,
        { allotment with
          assigned := allotment.assigned ++ [(key, placeholder)]
          taken := placeholder :: allotment.taken
          next := number + 1 })

/-- What each placeholder stands for. -/
def meanings (allotment : Allotment α) : NameMap α :=
  .ofList (allotment.assigned.map fun (key, placeholder) => (placeholder, key))

end Allotment

/-- The placeholders for names and for literals of one request. -/
structure PlaceholderTable where
  names : Allotment String
  values : Allotment AttributeValue

namespace PlaceholderTable

/-- No placeholder has been given out. -/
def start : PlaceholderTable where
  names := .start "#n"
  values := .start ":v"

/-- Go on from the placeholders that a request has already. -/
def seeded
    (names : NameMap String)
    (values : NameMap AttributeValue) :
    PlaceholderTable where
  names := .seeded "#n" names
  values := .seeded ":v" values

/-- The placeholder of an attribute name. -/
def name (table : PlaceholderTable) (name : String) : String × PlaceholderTable :=
  let (placeholder, names) := table.names.allot name
  (placeholder, { table with names })

/-- The placeholder of a literal. -/
def value (table : PlaceholderTable) (value : AttributeValue) : String × PlaceholderTable :=
  let (placeholder, values) := table.values.allot value
  (placeholder, { table with values })

end PlaceholderTable

end ItemTable
