import ItemTable.AttributeValue.Basic

/-!
# Cursors

A read of several pages keeps the place where the next page begins.  Before the
first page, and after the last one, there is no such place.
-/

namespace ItemTable

/-- Where the next page of a read begins. -/
inductive Cursor where
  /-- At the beginning. -/
  | exhausted
  /-- Behind a key. -/
  | more (key : Item)
deriving DecidableEq

namespace Cursor

/-- The cursor after a page whose last key is given; an empty key is none. -/
def ofLastKey (key : Item) : Cursor :=
  if key.isEmpty then exhausted else more key

/-- Whether there may be another page. -/
def hasMore : Cursor → Bool
  | more _ => true
  | exhausted => false

/-- The key behind which the next page begins. -/
def start? : Cursor → Option Item
  | more key => some key
  | exhausted => none

/-- The same key as requests carry it, empty at the beginning. -/
def start (cursor : Cursor) : Item :=
  cursor.start?.getD ∅

end Cursor

end ItemTable
