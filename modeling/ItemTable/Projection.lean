import ItemTable.Json.Basic
import ItemTable.Resolution

/-!
# Projections

A projection keeps the parts of an item that its paths lead to.  A path of
names keeps its value inside the maps around it; a path with an index keeps the
whole attribute that it begins with.  Paths that lead nowhere keep nothing.
-/

namespace ItemTable

namespace Item

/-- Put a value at the end of a path of names, with maps around it.  Where
something else than a map stands in the way, it is left alone. -/
def insertAt (item : Item) (value : AttributeValue) : List String → Item
  | [] => item
  | [last] => item.insert last value
  | first :: rest =>
      match item.find? first with
      | none => item.insert first (.map (insertAt ∅ value rest))
      | some (.map fields) => item.insert first (.map (insertAt fields value rest))
      | some _ => item

/-- The names of a path without indexes. -/
def names? (path : Path) : Option (List String) :=
  path.elements.mapM fun
    | .attribute name => some name
    | .index _ => none

/-- Keep what a path leads to, besides what is kept already. -/
def keep (item kept : Item) (path : Path) : Item :=
  match item.resolve? path with
  | none => kept
  | some value =>
      match names? path with
      | some names => kept.insertAt value names
      | none =>
          match path.root?, path.root? >>= fun root => item.find? root with
          | some root, some whole => kept.insert root whole
          | _, _ => kept

/-- The parts of an item that the paths lead to. -/
def project (item : Item) (paths : List Path) : Item :=
  paths.foldl item.keep ∅

end Item

/-! ## Projection lists from documents -/

/-- Why a document is no projection list. -/
inductive ProjectionFault where
  /-- An entry is not a string. -/
  | entry (kind : String)
  /-- It is neither a string nor a list. -/
  | shape (kind : String)
deriving DecidableEq

/-- The explanation of the fault. -/
def ProjectionFault.message : ProjectionFault → String
  | entry kind => "projection entries must be strings, found " ++ kind
  | shape kind => "projection must be a string or a list of strings, found " ++ kind

/-- The entries of a projection list: a string is one entry. -/
def projectionEntries : Json → Except ProjectionFault (List String)
  | .string entry => .ok [entry]
  | .array items => items.mapM fun
      | .string entry => .ok entry
      | other => .error (.entry other.kind)
  | other => .error (.shape other.kind)

end ItemTable
