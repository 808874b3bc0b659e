import ItemTable.Proofs.Storage.Lookup

/-!
# Calls to a table

A table is called to write, to find the item with a key and to count its items, and
what it answers is all that can be seen of it.  What a write answers, and what keys
find afterwards, depends on nothing but the key attributes and what keys find before.
-/

namespace ItemTable.Storage

/-- A call to a table. -/
inductive Call : Type 1 where
  | write (write : Write)
  | get (key : PrimaryKey)
  | count

/-- What a table answers. -/
inductive Answer : Type 1 where
  /-- The item that was replaced, or why the item was not stored. -/
  | put {ε : Type} (result : Except (WriteError ε) (Option Item))
  /-- The item that was taken away, or why it stays. -/
  | delete {ε : Type} (result : Except ε (Option Item))
  | item (found : Option Item)
  | count (number : Nat)

/-- Whether the answer says that a write was not made. -/
def Answer.isError : Answer → Bool
  | put (.error _) | delete (.error _) => true
  | _ => false

/-- Answer a write. -/
def write (storage : Storage) : Write → Answer × Storage
  | .put item check =>
      let (result, next) := storage.putIf item check
      (.put result, next)
  | .delete key check =>
      let (result, next) := storage.deleteIf key check
      (.delete result, next)

/-- Answer a call. -/
def answer (storage : Storage) : Call → Answer × Storage
  | .write write => storage.write write
  | .get key => (.item (storage.item? key), storage)
  | .count => (.count storage.itemCount, storage)

theorem write_snd (storage : Storage) (write : Write) :
    (storage.write write).2 = storage.after write := by
  cases write <;> rfl

/-! ## Runs -/

section

variable {σ τ : Type}

/-- The answers to some calls, and the state that they lead to. -/
def answers (step : σ → Call → Answer × σ) (state : σ) : List Call → List Answer × σ
  | [] => ([], state)
  | call :: calls =>
      let (answer, state) := step state call
      let (others, state) := answers step state calls
      (answer :: others, state)

/-- States that are related, and stay so while they answer every call alike, answer all
calls alike. -/
theorem answers_of_simulation
    {left : σ → Call → Answer × σ}
    {right : τ → Call → Answer × τ}
    {related : σ → τ → Prop}
    (simulates : ∀ state other call, related state other →
      (left state call).1 = (right other call).1 ∧
        related (left state call).2 (right other call).2)
    {state : σ}
    {other : τ}
    (start : related state other)
    (calls : List Call) :
    (answers left state calls).1 = (answers right other calls).1 ∧
      related (answers left state calls).2 (answers right other calls).2 := by
  induction calls generalizing state other with
  | nil => exact ⟨rfl, start⟩
  | cons call calls ih =>
      rcases simulates state other call start with ⟨same, next⟩
      rcases ih next with ⟨others, final⟩
      refine ⟨?_, final⟩
      rw [answers, answers]
      dsimp only
      rw [same, others]

end

/-! ## Outcomes of writes -/

/-- What a write answers, and what keys find afterwards, by what they find before. -/
def Write.outcome
    (schema : KeySchema)
    (found : PrimaryKey → Option Item) :
    Write → Answer × (PrimaryKey → Option Item)
  | .put (ε := ε) item check =>
      match schema.primaryKey item with
      | .error error => (.put (ε := ε) (.error (.key error)), found)
      | .ok key =>
          match check (found key) with
          | .error error => (.put (.error (.refused error)), found)
          | .ok () =>
              (.put (ε := ε) (.ok (found key)),
                fun other => if key.isSame other then some item else found other)
  | .delete (ε := ε) key check =>
      match check (found key) with
      | .error error => (.delete (.error error), found)
      | .ok () =>
          (.delete (ε := ε) (.ok (found key)),
            fun other => if key.isSame other then none else found other)

/-- A write that is not made leaves what every key finds. -/
theorem Write.outcome_of_isError
    {schema : KeySchema}
    {found : PrimaryKey → Option Item}
    {write : Write}
    (refused : (write.outcome schema found).1.isError) :
    (write.outcome schema found).2 = found := by
  cases write with
  | put item check =>
      rw [outcome] at refused ⊢
      cases keyed : schema.primaryKey item with
      | error error => rfl
      | ok key =>
          rw [keyed] at refused
          dsimp only at refused ⊢
          cases checked : check (found key) with
          | error error => rfl
          | ok _ =>
              rw [checked] at refused
              cases refused
  | delete key check =>
      rw [outcome] at refused ⊢
      cases checked : check (found key) with
      | error error => rfl
      | ok _ =>
          rw [checked] at refused
          cases refused

/-- A table answers a write, and changes what its keys find, as the write says. -/
theorem write_eq_outcome (storage : Storage) (write : Write) :
    (storage.write write).1 = (write.outcome storage.schema storage.item?).1 ∧
      (storage.after write).item? = (write.outcome storage.schema storage.item?).2 := by
  cases write with
  | put item check =>
      rw [Storage.write, Write.outcome, after]
      rcases storage.putIf_cases item check with
        ⟨error, keyed, refused⟩ | ⟨key, error, keyed, checked, refused, same⟩ |
          ⟨key, keyed, checked, made, stored⟩
      · rw [refused, keyed]
        exact ⟨rfl, rfl⟩
      · rw [keyed]
        dsimp only
        rw [checked, refused]
        exact ⟨rfl, funext same⟩
      · rw [keyed]
        dsimp only
        rw [checked, made]
        exact ⟨rfl, funext stored⟩
  | delete key check =>
      rw [Storage.write, Write.outcome, after]
      rcases storage.deleteIf_cases key check with
        ⟨error, checked, refused⟩ | ⟨checked, made, removed⟩
      · rw [checked, refused]
        exact ⟨rfl, rfl⟩
      · rw [checked]
        dsimp only
        rw [made]
        exact ⟨rfl, funext removed⟩

end ItemTable.Storage
