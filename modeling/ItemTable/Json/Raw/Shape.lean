import ItemTable.Base64
import ItemTable.Json.Raw.Basic
import ItemTable.NameMap

/-!
# Shapes of raw documents

What is wanted of a raw document is read, and the rest of it is passed over.  The
rest may hold anything, as long as it is not nested too deeply.

A `Shape` says what is wanted of the members of an object.  A member may be
missing or null.  If it stands there more than once, each of them has to be right
and the last one counts.
-/

namespace ItemTable.Json.Raw

variable {α β : Type}

/-! ## Single values -/

/-- Read a text. -/
def text? : Raw → Option String
  | string written => unescape? written
  | _ => none

/-- Read a truth value. -/
def bool? : Raw → Option Bool
  | bool value => some value
  | _ => none

/-- Read bytes, whose base64 holds no escapes. -/
def bytes? : Raw → Option (List UInt8)
  | string written => Base64.decode? written.toList
  | _ => none

/-- Read an integer of 32 bits, which may be written with a fraction of zero. -/
def int32? : Raw → Option Int
  | number value => value.toInt?.filter isInt32
  | _ => none

/-- Read a binary64 number.  Those that are finite are numbers, the others are
texts. -/
def real? : Raw → Option Binary64
  | number value => if value.isFinite then some value else none
  | string written => do
      let value := (← Numeral.read (← unescape? written).toList).toBinary64
      if value.isFinite then none else some value
  | _ => none

/-! ## Arrays and objects -/

/-- Whether arrays and objects are nested in at most so many levels. -/
def fits : Nat → Raw → Bool
  | 0, array _ => false
  | 0, object _ => false
  | levels + 1, array items => items.all (fits levels)
  | levels + 1, object members => members.all fun (_, value) => fits levels value
  | _, _ => true

/-- Whether a document may be passed over. -/
def isPassable (document : Raw) : Bool :=
  document.fits 512

/-- Read the items of an array.  A null among them is read like any other. -/
def listOf? (read : Raw → Option α) : Raw → Option (List α)
  | array items => items.mapM read
  | _ => none

/-- The members of an object by the names that are meant. -/
def members? : Raw → Option (List (String × Raw))
  | object members => members.mapM fun (name, value) => do return (← unescape? name, value)
  | _ => none

/-- Read an object as a map.  A null in it is read like any other value, and the
last value of a name counts. -/
def mapOf? (read : Raw → Option α) (document : Raw) : Option (NameMap α) := do
  let entries ← (← document.members?).mapM fun (name, value) => do return (name, ← read value)
  return .ofList entries

/-- Read what may be null. -/
def nullable (read : Raw → Option α) : Raw → Option (Option α)
  | null => some none
  | document => (read document).map some

/-! ## Shapes -/

/-- What is wanted of the members of an object. -/
structure Shape (α : Type) where
  /-- The names of the members that are wanted. -/
  names : List String
  /-- What the members say. -/
  build : List (String × Raw) → Option α

namespace Shape

/-- The shape of an object of which nothing is wanted. -/
def pure (value : α) : Shape α where
  names := []
  build _ := some value

/-- What both shapes want, the value of the second given to the first. -/
def apply (first : Shape (α → β)) (second : Shape α) : Shape β where
  names := first.names ++ second.names
  build members := do
    let make ← first.build members
    let value ← second.build members
    return make value

instance : Pure Shape := ⟨pure⟩

instance : Functor Shape where
  map change shape := apply (pure change) shape

instance : Seq Shape := ⟨fun first second => apply first (second ())⟩

/-- The shape of an object of which one member is wanted. -/
def member (name : String) (read : Raw → Option α) : Shape (Option α) where
  names := [name]
  build members := do
    let values ← (members.filter (·.1 == name)).mapM fun (_, value) => nullable read value
    return values.getLast?.join

/-- The shape with another member, which has to be right but does not count
further. -/
def checking (shape : Shape α) (name : String) (read : Raw → Option β) : Shape α :=
  apply ((fun value _ => value) <$> shape) (member name read)

/-- Read an object of the shape. -/
def read? (shape : Shape α) (document : Raw) : Option α := do
  let members ← document.members?
  guard (members.all fun (name, value) => shape.names.contains name || value.isPassable)
  shape.build members

end Shape

end ItemTable.Json.Raw
