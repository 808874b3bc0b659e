import ItemTable.Proofs.Storage.Calls
import ItemTable.Proofs.Storage.Rows
import Mathlib.Data.List.Sort

/-!
# Tables that answer alike

Two tables with the same keys and indexes in which every key finds the same item can
differ in the order of their partitions, in empty ones and in the texts of their
partition keys.  None of this shows: they list the same rows, count the same items,
and answer every write alike.  A write that is not made leaves a table alike.
-/

namespace ItemTable

instance (forward : Bool) : Std.Irrefl (Row.Precedes forward) where
  irrefl row precedes := by
    have self : directed forward row.1 row.1 = .eq := Std.ReflCmp.compare_self
    rw [Row.Precedes, self] at precedes
    cases precedes

instance (forward : Bool) : Std.Antisymm (Row.Precedes forward) where
  antisymm _ _ less greater := absurd greater (Std.OrientedCmp.not_lt_of_lt less)

namespace Storage

/-- Sound tables that no answer tells apart. -/
structure Alike (left right : Storage) : Prop where
  leftSound : left.Sound
  rightSound : right.Sound
  schema : left.schema = right.schema
  indexes : left.indexes = right.indexes
  item? : ∀ key, left.item? key = right.item? key

namespace Alike

variable {left right : Storage}

theorem refl {storage : Storage} (sound : storage.Sound) : storage.Alike storage where
  leftSound := sound
  rightSound := sound
  schema := rfl
  indexes := rfl
  item? _ := rfl

theorem mem_items
    (alike : left.Alike right)
    (item : Item) :
    item ∈ left.items ↔ item ∈ right.items := by
  rw [alike.leftSound.mem_items_iff, alike.rightSound.mem_items_iff]
  simp only [alike.schema, alike.item?]

/-! ## Reads -/

theorem rows_eq
    {view : ReadView}
    (alike : left.Alike right)
    (keys : right.schema = view.table) :
    view.rows left = view.rows right := by
  have leftKeys := alike.schema.trans keys
  -- Rows come in strictly increasing order: with the same rows they are the same list.
  apply (ReadView.rows_increasing alike.leftSound leftKeys).eq_of_mem_iff
    (ReadView.rows_increasing alike.rightSound keys)
  intro row
  rw [ReadView.mem_rows alike.leftSound leftKeys, ReadView.mem_rows alike.rightSound keys,
    alike.mem_items]

theorem read_eq
    (alike : left.Alike right)
    (request : ReadRequest) :
    left.read request = right.read request := by
  rw [read_eq_view, read_eq_view, view_congr alike.schema alike.indexes]
  cases seen : right.view request with
  | error error => rfl
  | ok view =>
      have rows := alike.rows_eq (view_keys seen).1
      simp only [bind, Except.bind, rows]

theorem itemCount_eq (alike : left.Alike right) : left.itemCount = right.itemCount := by
  rw [← left.length_items, ← right.length_items]
  apply List.Perm.length_eq
  rw [List.perm_ext_iff_of_nodup alike.leftSound.items_nodup alike.rightSound.items_nodup]
  exact alike.mem_items

/-! ## Calls -/

theorem write_eq
    (alike : left.Alike right)
    (write : Write) :
    (left.write write).1 = (right.write write).1 ∧
      (left.after write).Alike (right.after write) := by
  have looked : left.item? = right.item? := funext alike.item?
  rcases left.write_eq_outcome write with ⟨leftAnswer, leftItems⟩
  rcases right.write_eq_outcome write with ⟨rightAnswer, rightItems⟩
  rw [alike.schema, looked] at leftAnswer leftItems
  constructor
  · rw [leftAnswer, rightAnswer]
  · constructor
    · exact alike.leftSound.after write
    · exact alike.rightSound.after write
    · rw [(left.after_schema write).1, alike.schema, (right.after_schema write).1]
    · rw [(left.after_schema write).2, alike.indexes, (right.after_schema write).2]
    · intro key
      rw [leftItems, rightItems]

theorem answer_eq
    (alike : left.Alike right)
    (call : Call) :
    (left.answer call).1 = (right.answer call).1 ∧
      (left.answer call).2.Alike (right.answer call).2 := by
  cases call with
  | write write =>
      rw [answer, answer, write_snd, write_snd]
      exact alike.write_eq write
  | get key =>
      rw [answer, answer, alike.item? key]
      exact ⟨rfl, alike⟩
  | count =>
      rw [answer, answer, alike.itemCount_eq]
      exact ⟨rfl, alike⟩

/-- Tables that are alike answer all calls alike, and are alike afterwards. -/
theorem answers_eq
    (alike : left.Alike right)
    (calls : List Call) :
    (answers answer left calls).1 = (answers answer right calls).1 ∧
      (answers answer left calls).2.Alike (answers answer right calls).2 :=
  answers_of_simulation (fun _ _ call alike => alike.answer_eq call) alike calls

end Alike

/-- A write that is not made leaves a table alike. -/
theorem Sound.after_alike
    {storage : Storage}
    {write : Write}
    (sound : storage.Sound)
    (refused : (storage.write write).1.isError) :
    (storage.after write).Alike storage := by
  rcases storage.write_eq_outcome write with ⟨answered, items⟩
  rw [answered] at refused
  constructor
  · exact sound.after write
  · exact sound
  · exact (storage.after_schema write).1
  · exact (storage.after_schema write).2
  · intro key
    rw [items, Write.outcome_of_isError refused]

end Storage

end ItemTable
