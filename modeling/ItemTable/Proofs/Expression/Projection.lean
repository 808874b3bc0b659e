import ItemTable.Condition.Render
import ItemTable.Proofs.Expression.RoundTrip
import ItemTable.Proofs.Path.Segments

/-!
# Projections are read back

Every text names a path that begins with an attribute and has list indexes only,
so the paths of a projection can always be spelled.  The spelled paths are read
back as they are, whatever the entries of the projection hold.
-/

namespace ItemTable

/-! ## Reading spelled paths -/

section

variable {naming : Naming} {references : References} {paths : List Path}

theorem Path.scan_spellAll
    (marks : naming.Marks (paths.flatMap Path.names) [])
    (bounded : ∀ path ∈ paths, path.isBounded) :
    Token.scan (Path.spellAll naming paths).toList =
      .ok (Path.tokensAll naming paths ++ [.endOfInput]) := by
  induction paths with
  | nil => exact Token.scan_nil
  | cons path paths ih =>
      have first : naming.Marks path.names [] :=
        marks.mono (List.subset_append_left _ _) (List.Subset.refl _)
      have here := bounded path List.mem_cons_self
      cases paths with
      | nil =>
          have scanned := @Path.scan_spell naming path [] first here rfl
          rw [List.append_nil, Token.scan_nil] at scanned
          exact scanned
      | cons second paths =>
          have others :=
            ih (marks.mono (List.subset_append_right _ _) (List.Subset.refl _))
              fun path member => bounded path (List.mem_cons_of_mem _ member)
          have scanned := fun rest => @Path.scan_spell naming path (',' :: rest) first here rfl
          simp [Path.spellAll, Path.tokensAll, scanned, others, Token.before, Except.map]

namespace References

/-- The tokens of paths with a comma before each of them. -/
def pathTokens (naming : Naming) (paths : List Path) : List Token :=
  paths.flatMap fun path => .comma :: path.tokens naming

theorem tokensAll_eq_pathTokens (path : Path) (paths : List Path) :
    Path.tokensAll naming (path :: paths) = path.tokens naming ++ pathTokens naming paths := by
  induction paths generalizing path with
  | nil => exact (List.append_nil _).symm
  | cons second paths ih =>
      change path.tokens naming ++ .comma :: Path.tokensAll naming (second :: paths) = _
      rw [ih]
      rfl

theorem length_le_length_pathTokens (paths : List Path) (rest : List Token) :
    paths.length ≤ (pathTokens naming paths ++ rest).length := by
  induction paths with
  | nil => exact Nat.zero_le _
  | cons path paths ih =>
      simp only [pathTokens, List.flatMap_cons, List.length_append, List.length_cons] at ih ⊢
      omega

theorem parseMorePaths_tokens
    {fuel : Nat}
    (resolves : naming.Resolves references (paths.flatMap Path.names) [])
    (rooted : ∀ path ∈ paths, path.isRooted)
    (enough : paths.length ≤ fuel) :
    references.parseMorePaths fuel (pathTokens naming paths ++ [.endOfInput]) =
      .ok (paths, [.endOfInput]) := by
  induction paths generalizing fuel with
  | nil => cases fuel <;> rfl
  | cons path paths ih =>
      cases fuel with
      | zero => cases enough
      | succ fuel =>
          have first : naming.Resolves references path.names [] :=
            resolves.mono (List.subset_append_left _ _) (List.Subset.refl _)
          have ends : EndsOperand (pathTokens naming paths ++ [.endOfInput]) := by
            cases paths <;> rfl
          have read := reads_parsePath first ends
          rw [rooted path List.mem_cons_self] at read
          have others :=
            @ih fuel (resolves.mono (List.subset_append_right _ _) (List.Subset.refl _))
              (fun path member => rooted path (List.mem_cons_of_mem _ member))
              (Nat.le_of_succ_le_succ enough)
          have tokens :
              pathTokens naming (path :: paths) ++ [.endOfInput] =
                .comma :: (path.tokens naming ++ (pathTokens naming paths ++ [.endOfInput])) := by
            simp [pathTokens]
          rw [tokens, parseMorePaths, show references.parsePath _ = _ from read, ok_bind]
          change (references.parseMorePaths fuel _ >>= _) = _
          rw [others]
          rfl

/-- The tokens of paths are read as the paths. -/
theorem projection_tokens
    (resolves : naming.Resolves references (paths.flatMap Path.names) [])
    (rooted : ∀ path ∈ paths, path.isRooted)
    (nonempty : paths ≠ []) :
    references.projection (Path.tokensAll naming paths ++ [.endOfInput]) = .ok paths := by
  cases paths with
  | nil => exact absurd rfl nonempty
  | cons path paths =>
      have first : naming.Resolves references path.names [] :=
        resolves.mono (List.subset_append_left _ _) (List.Subset.refl _)
      have ends : EndsOperand (pathTokens naming paths ++ [.endOfInput]) := by
        cases paths <;> rfl
      have read := reads_parsePath first ends
      rw [rooted path List.mem_cons_self] at read
      have others :=
        parseMorePaths_tokens
          (resolves.mono (List.subset_append_right _ _) (List.Subset.refl _))
          (fun path member => rooted path (List.mem_cons_of_mem _ member))
          (@length_le_length_pathTokens naming paths [.endOfInput])
      rw [tokensAll_eq_pathTokens, List.append_assoc, projection,
        show references.parsePath _ = _ from read, ok_bind]
      change (references.parseMorePaths _ _ >>= _) = _
      rw [others]
      rfl

theorem scanExpression_spellAll
    (marks : naming.Marks (paths.flatMap Path.names) [])
    (rooted : ∀ path ∈ paths, path.isRooted)
    (bounded : ∀ path ∈ paths, path.isBounded)
    (nonempty : paths ≠ []) :
    scanExpression (Path.spellAll naming paths) =
      .ok (Path.tokensAll naming paths ++ [.endOfInput]) := by
  rw [scanExpression, Path.scan_spellAll marks bounded]
  cases paths with
  | nil => exact absurd rfl nonempty
  | cons path paths =>
      have begins := rooted path List.mem_cons_self
      rw [tokensAll_eq_pathTokens]
      rcases path with ⟨_ | ⟨_ | _, elements⟩⟩
      · cases begins
      · rfl
      · cases begins

end References

end

/-- The spelling of paths is read as the paths, if their names are spelled by marked
words that stand for them. -/
theorem Scope.projection_spellAll
    {naming : Naming}
    {paths : List Path}
    {scope : Scope}
    (marks : naming.Marks (paths.flatMap Path.names) [])
    (resolves : naming.Resolves scope.references (paths.flatMap Path.names) [])
    (rooted : ∀ path ∈ paths, path.isRooted)
    (bounded : ∀ path ∈ paths, path.isBounded)
    (nonempty : paths ≠ []) :
    scope.projection (Path.spellAll naming paths) =
      (.ok paths, scope.mention (Path.tokensAll naming paths ++ [.endOfInput])) := by
  have tokens := References.projection_tokens resolves rooted nonempty
  have scanned := References.scanExpression_spellAll marks rooted bounded nonempty
  rw [projection, parse, scanned]
  simp only [tokens]

/-- A sound table that knows the names of paths reads their spelling. -/
theorem Scope.projection_spell
    {table : PlaceholderTable}
    {paths : List Path}
    {scope : Scope}
    (sound : table.Sound)
    (knows : table.Knows (paths.flatMap Path.names) [])
    (rooted : ∀ path ∈ paths, path.isRooted)
    (bounded : ∀ path ∈ paths, path.isBounded)
    (nonempty : paths ≠ [])
    (explained : scope.references = table.references) :
    scope.projection (Path.spellAll table.naming paths) =
      (.ok paths, scope.mention (Path.tokensAll table.naming paths ++ [.endOfInput])) := by
  have resolves := sound.resolves knows
  rw [← explained] at resolves
  exact projection_spellAll (sound.marks knows) resolves rooted bounded nonempty

end ItemTable
