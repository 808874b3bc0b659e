import ItemTable.Proofs.Projection.Placing

/-!
# What a projection shows

A projection shows an item along the paths that were asked for.  What these keep is a
set of paths of names: behind a kept path the projection is the item, in front of one it
has maps with just the names on the way, and elsewhere it has nothing.  The order of the
paths is therefore of no account, and to project again changes nothing.
-/

namespace ItemTable

/-! ## What paths keep -/

/-- What a path keeps of an item: a path of names itself, any other only the attribute
that it begins with. -/
def Path.reach (path : Path) : List String :=
  match Item.names? path with
  | some names => names
  | none => path.root?.toList

theorem names?_eq_some_iff
    {path : Path}
    {names : List String} :
    Item.names? path = some names ↔ path = .ofNames names := by
  rcases path with ⟨elements⟩
  rw [Item.names?, Path.ofNames, Path.mk.injEq]
  induction elements generalizing names with
  | nil => cases names <;> simp
  | cons element elements ih =>
      simp only [List.mapM_cons, Option.bind_eq_bind, Option.bind_eq_some_iff, Option.pure_def, ih]
      rcases element with name | position
      · cases names <;> simp [and_comm]
      · cases names <;> simp

namespace Item

/-- The names that the paths keep of an item: a path that leads nowhere keeps nothing. -/
def Kept (item : Item) (paths : List Path) (names : List String) : Prop :=
  ∃ path ∈ paths, (item.resolve? path).isSome ∧ path.reach = names

/-- Some kept path is the given one or stands in front of it. -/
def Reaches (kept : List String → Prop) (names : List String) : Prop :=
  ∃ path, kept path ∧ path <+: names

/-- Some kept path is the given one or stands behind it. -/
def Continues (kept : List String → Prop) (names : List String) : Prop :=
  ∃ path, kept path ∧ names <+: path

/-- The one item shows the other just as far as paths are kept. -/
structure Shows (item shown : Item) (kept : List String → Prop) : Prop where
  /-- What is kept is shown as it is. -/
  whole : ∀ names, names ≠ [] → Reaches kept names → shown.at? names = item.at? names
  /-- On the way there are maps with just the names that are needed. -/
  between : ∀ names, names ≠ [] → ¬Reaches kept names → Continues kept names →
    ∃ fields,
      shown.at? names = some (.map fields) ∧
        ∀ name, (fields.find? name).isSome ↔ Continues kept (names ++ [name])
  /-- There is nothing else. -/
  nothing : ∀ names, names ≠ [] → ¬Reaches kept names → ¬Continues kept names →
    shown.at? names = none

section Kept

variable
  {item shown : Item}
  {kept other : List String → Prop}
  {names : List String}

theorem Reaches.mono
    (reaches : Reaches kept names)
    {more : List String}
    (goesOn : names <+: more) :
    Reaches kept more := by
  rcases reaches with ⟨path, keeps, front⟩
  exact ⟨path, keeps, front.trans goesOn⟩

/-- A new path reaches what it is in front of. -/
theorem reaches_or_eq {path : List String} :
    Reaches (fun names => kept names ∨ names = path) names ↔
      Reaches kept names ∨ path <+: names := by
  simp only [Reaches, or_and_right, exists_or, exists_eq_left]

/-- A new path goes on as what it is behind. -/
theorem continues_or_eq {path : List String} :
    Continues (fun names => kept names ∨ names = path) names ↔
      Continues kept names ∨ names <+: path := by
  simp only [Continues, or_and_right, exists_or, exists_eq_left]

/-- Of what is reached, anything in front is reached as well or goes on as a kept path. -/
theorem Reaches.continues
    {path : List String}
    (reaches : Reaches kept path)
    (front : names <+: path)
    (unreached : ¬Reaches kept names) :
    Continues kept names := by
  rcases reaches with ⟨kept, keeps, before⟩
  rcases List.prefix_or_prefix_of_prefix before front with reached | behind
  · exact absurd ⟨kept, keeps, reached⟩ unreached
  · exact ⟨kept, keeps, behind⟩

/-- One name behind what is not reached a path goes on that is kept. -/
theorem Reaches.continues_concat
    {path : List String}
    {name : String}
    (reaches : Reaches kept path)
    (front : names ++ [name] <+: path)
    (unreached : ¬Reaches kept names) :
    Continues kept (names ++ [name]) := by
  rcases reaches with ⟨kept, keeps, before⟩
  rcases List.prefix_or_prefix_of_prefix before front with reached | behind
  · rcases List.prefix_concat_iff.mp reached with rfl | reached
    · exact ⟨_, keeps, List.prefix_rfl⟩
    · exact absurd ⟨kept, keeps, reached⟩ unreached
  · exact ⟨kept, keeps, behind⟩

theorem Continues.front
    {more : List String}
    (continues : Continues kept more)
    (front : names <+: more) :
    Continues kept names := by
  rcases continues with ⟨path, keeps, behind⟩
  exact ⟨path, keeps, front.trans behind⟩

/-- Before anything is kept, nothing is shown. -/
theorem shows_empty (item : Item) : Shows item ∅ fun _ => False where
  whole := by
    rintro _ _ ⟨_, ⟨⟩, _⟩
  between := by
    rintro _ _ _ ⟨_, ⟨⟩, _⟩
  nothing names named _ _ := by
    cases names with
    | nil => rfl
    | cons name names => rw [at?_cons, NameMap.find?_empty]; rfl

theorem Shows.congr
    (shows : Shows item shown kept)
    (same : ∀ names, kept names ↔ other names) :
    Shows item shown other := by
  rwa [← funext fun names => propext (same names)]

/-- One name behind what is not reached there is something just if a kept path goes on so. -/
theorem Shows.isSome_at?_concat
    (shows : Shows item shown kept)
    (named : names ≠ [])
    (unreached : ¬Reaches kept names)
    (name : String) :
    (shown.at? (names ++ [name])).isSome ↔ Continues kept (names ++ [name]) := by
  rw [at?_append named]
  by_cases continues : Continues kept names
  · rcases shows.between names named unreached continues with ⟨fields, found, namesOf⟩
    rw [found, ← namesOf name, ← at?_singleton]
    rfl
  · rw [shows.nothing names named unreached continues]
    exact iff_of_false nofun fun further => continues (further.front (List.prefix_append _ _))

/-- A path that is reached already may be kept as well. -/
theorem Shows.again
    {path : List String}
    (shows : Shows item shown kept)
    (reached : Reaches kept path) :
    Shows item shown fun names => kept names ∨ names = path := by
  have reaches (names : List String) :
      Reaches (fun names => kept names ∨ names = path) names ↔ Reaches kept names := by
    rw [reaches_or_eq]
    exact or_iff_left_of_imp reached.mono
  constructor
  case whole =>
    intro names named reachesNew
    exact shows.whole names named ((reaches names).mp reachesNew)
  case between =>
    intro names named unreachedNew continues
    have unreached := mt (reaches names).mpr unreachedNew
    have continuesOld : Continues kept names :=
      (continues_or_eq.mp continues).elim id fun front => reached.continues front unreached
    rcases shows.between names named unreached continuesOld with ⟨fields, found, namesOf⟩
    refine ⟨fields, found, fun name => ?_⟩
    rw [namesOf, continues_or_eq]
    exact (or_iff_left_of_imp fun front => reached.continues_concat front unreached).symm
  case nothing =>
    intro names named unreached apart
    rw [reaches] at unreached
    rw [continues_or_eq, not_or] at apart
    exact shows.nothing names named unreached apart.1

/-- In front of the end of a path that is not reached there are maps or nothing. -/
theorem Shows.isOpen
    {path : List String}
    (shows : Shows item shown kept)
    (unreached : ¬Reaches kept path) :
    shown.IsOpen path := by
  intro front name named before value found
  have unreachedFront : ¬Reaches kept front :=
    mt (Reaches.mono · ((List.prefix_append front [name]).trans before)) unreached
  by_cases continues : Continues kept front
  · rcases shows.between front named unreachedFront continues with ⟨fields, there, -⟩
    exact ⟨fields, Option.some.inj (found.symm.trans there)⟩
  · rw [shows.nothing front named unreachedFront continues] at found
    cases found

/-- What stands at the end of a path is shown once it is put there. -/
theorem Shows.insertAt
    {path : List String}
    {value : AttributeValue}
    (shows : Shows item shown kept)
    (unreached : ¬Reaches kept path)
    (pathNamed : path ≠ [])
    (found : item.at? path = some value) :
    Shows item (shown.insertAt value path) fun names => kept names ∨ names = path := by
  have isOpen := shows.isOpen unreached
  constructor
  case whole =>
    intro names named reaches
    by_cases behind : path <+: names
    · rcases behind with ⟨more, rfl⟩
      rw [at?_insertAt_behind isOpen pathNamed, at?_append pathNamed, found]
      rfl
    · have reached := (reaches_or_eq.mp reaches).resolve_right behind
      rw [at?_insertAt_apart isOpen behind fun front => unreached (reached.mono front)]
      exact shows.whole names named reached
  case between =>
    intro names named unreachedNew continues
    rw [reaches_or_eq, not_or] at unreachedNew
    rcases unreachedNew with ⟨unreachedOld, notBehind⟩
    by_cases front : names <+: path
    · rcases front with ⟨rest, rfl⟩
      cases rest with
      | nil =>
          rw [List.append_nil] at notBehind
          exact absurd List.prefix_rfl notBehind
      | cons next behind =>
          rcases at?_insertAt_front isOpen named rfl value with ⟨fields, there, namesOf⟩
          refine ⟨fields, there, fun name => ?_⟩
          rw [namesOf, shows.isSome_at?_concat named unreachedOld, continues_or_eq,
            List.prefix_append_right_inj, List.cons_prefix_cons, or_comm]
          simp
    · have continuesOld := (continues_or_eq.mp continues).resolve_right front
      rcases shows.between names named unreachedOld continuesOld with ⟨fields, there, namesOf⟩
      refine ⟨fields, ?_, fun name => ?_⟩
      · rw [at?_insertAt_apart isOpen notBehind front, there]
      · rw [namesOf, continues_or_eq]
        exact (or_iff_left fun further => front ((List.prefix_append _ _).trans further)).symm
  case nothing =>
    intro names named unreachedNew apart
    rw [reaches_or_eq, not_or] at unreachedNew
    rw [continues_or_eq, not_or] at apart
    rw [at?_insertAt_apart isOpen unreachedNew.2 apart.2]
    exact shows.nothing names named unreachedNew.1 apart.1

end Kept

/-! ## Projecting -/

theorem keep_of_none
    {item : Item}
    {path : Path}
    (nowhere : item.resolve? path = none)
    (shown : Item) :
    item.keep shown path = shown := by
  rw [keep, nowhere]

/-- To keep a path that leads somewhere is to put what stands there at its reach. -/
theorem exists_keep_eq
    {item : Item}
    {path : Path}
    (leads : (item.resolve? path).isSome)
    (shown : Item) :
    path.reach ≠ [] ∧
      ∃ value,
        item.at? path.reach = some value ∧
          item.keep shown path = shown.insertAt value path.reach := by
  rcases Option.isSome_iff_exists.mp leads with ⟨value, found⟩
  cases named : names? path with
  | some names =>
      have reach : path.reach = names := by rw [Path.reach, named]
      obtain rfl := names?_eq_some_iff.mp named
      rw [reach]
      refine ⟨?_, value, found, ?_⟩
      · rintro rfl
        cases found
      · simp only [keep, found, named]
  | none =>
      rcases path with ⟨_ | ⟨name | position, elements⟩⟩
      · cases found
      · have reach : Path.reach ⟨.attribute name :: elements⟩ = [name] := by
          rw [Path.reach, named]
          rfl
        rcases Option.bind_eq_some_iff.mp found with ⟨whole, there, -⟩
        rw [reach, at?_singleton]
        refine ⟨nofun, whole, there, ?_⟩
        simp only [keep, found, named, Path.root?, Option.bind_eq_bind, Option.bind_some, there,
          insertAt]
      · cases found

theorem kept_concat
    {item : Item}
    {paths : List Path}
    {path : Path}
    {names : List String} :
    item.Kept (paths ++ [path]) names ↔
      item.Kept paths names ∨ ((item.resolve? path).isSome ∧ path.reach = names) := by
  simp [Kept, or_and_right, exists_or]

/-- A projection shows an item just as far as its paths are kept. -/
theorem shows_project
    (item : Item)
    (paths : List Path) :
    Shows item (item.project paths) (item.Kept paths) := by
  induction paths using List.reverseRecOn with
  | nil => exact (shows_empty item).congr fun names => by simp [Kept]
  | append_singleton paths path ih =>
      rw [project, List.foldl_append, ← project, List.foldl_cons, List.foldl_nil]
      cases leads : (item.resolve? path).isSome with
      | false =>
          rw [keep_of_none (Option.isNone_iff_eq_none.mp (by simpa using leads))]
          exact ih.congr fun names => by simp [kept_concat, leads]
      | true =>
          rcases exists_keep_eq leads (item.project paths) with ⟨named, value, found, kept⟩
          have same (names : List String) :
              item.Kept paths names ∨ names = path.reach ↔ item.Kept (paths ++ [path]) names := by
            rw [kept_concat, leads, eq_comm]
            simp
          rw [kept]
          by_cases reached : Reaches (item.Kept paths) path.reach
          · have there := ih.whole _ named reached
            rw [insertAt_of_at? (there.trans found)]
            exact (ih.again reached).congr same
          · exact (ih.insertAt reached named found).congr same

section Shows

variable
  {item other shown otherShown : Item}
  {kept : List String → Prop}

/-- What is shown is determined by what is kept and by what stands there. -/
theorem Shows.unique
    (shows : Shows item shown kept)
    (showsOther : Shows other otherShown kept)
    (same : ∀ names, names ≠ [] → Reaches kept names → item.at? names = other.at? names) :
    shown = otherShown := by
  have similar : (AttributeValue.map shown).Similar (.map otherShown) := by
    intro names
    cases names with
    | nil => exact .inr ⟨shown, otherShown, rfl, rfl⟩
    | cons name names =>
        have named := List.cons_ne_nil name names
        rw [AttributeValue.under?_map, AttributeValue.under?_map]
        by_cases reached : Reaches kept (name :: names)
        · rw [shows.whole _ named reached, showsOther.whole _ named reached]
          exact .inl (same _ named reached)
        · by_cases continues : Continues kept (name :: names)
          · rcases shows.between _ named reached continues with ⟨fields, found, -⟩
            rcases showsOther.between _ named reached continues with ⟨others, foundOther, -⟩
            exact .inr ⟨fields, others, found, foundOther⟩
          · rw [shows.nothing _ named reached continues,
              showsOther.nothing _ named reached continues]
            exact .inl rfl
  exact AttributeValue.map.inj (AttributeValue.eq_of_similar _ _ similar)

end Shows

end Item

/-! ## Any path -/

/-- A path begins with names; then it ends or goes on with an index. -/
theorem Path.exists_names
    (path : Path) :
    ∃ (names : List String) (rest : List PathElement),
      path.elements = names.map .attribute ++ rest ∧
        ∀ element ∈ rest.head?, ∃ position, element = .index position := by
  rcases path with ⟨elements⟩
  induction elements with
  | nil => exact ⟨[], [], rfl, nofun⟩
  | cons element elements ih =>
      rcases element with name | position
      · rcases ih with ⟨names, rest, rfl, ends⟩
        exact ⟨name :: names, rest, rfl, ends⟩
      · refine ⟨[], .index position :: elements, rfl, ?_⟩
        rintro _ ⟨⟩
        exact ⟨position, rfl⟩

namespace Item

/-- Behind names that lead somewhere the rest of a path is walked. -/
theorem resolve?_eq_at?
    (item : Item)
    {path : Path}
    {names : List String}
    {rest : List PathElement}
    (elements : path.elements = names.map .attribute ++ rest)
    (named : names ≠ []) :
    item.resolve? path = item.at? names >>= fun value => value.walk? rest := by
  cases names with
  | nil => exact absurd rfl named
  | cons name names =>
      rw [resolve?, elements]
      simp [at?_cons, AttributeValue.walk?, AttributeValue.under?, List.foldlM_append,
        Option.bind_assoc]

/-- A path keeps of the names that it begins with all or the first. -/
theorem reach_prefix
    {path : Path}
    {names : List String}
    {rest : List PathElement}
    (elements : path.elements = names.map .attribute ++ rest)
    (ends : ∀ element ∈ rest.head?, ∃ position, element = .index position)
    (named : names ≠ []) :
    path.reach <+: names := by
  cases whole : names? path with
  | some all =>
      rw [Path.reach, whole]
      obtain rfl := names?_eq_some_iff.mp whole
      cases rest with
      | nil =>
          rw [List.append_nil] at elements
          have same : all = names :=
            Function.Injective.list_map (fun _ _ => PathElement.attribute.inj) elements
          rw [same]
      | cons element rest =>
          rcases ends element rfl with ⟨position, rfl⟩
          have member : PathElement.index position ∈ all.map PathElement.attribute := by
            change _ ∈ (Path.ofNames all).elements
            simp [elements]
          simp at member
  | none =>
      cases names with
      | nil => exact absurd rfl named
      | cons name names =>
          rw [Path.reach, whole, Path.root?, elements]
          exact ⟨names, rfl⟩

/-- Along a path that is kept if it leads anywhere, what is shown is what there is. -/
theorem Shows.resolve?_eq
    {item shown : Item}
    {kept : List String → Prop}
    {path : Path}
    (shows : Shows item shown kept)
    (leads : ∀ names, kept names → (item.at? names).isSome)
    (keeps : (item.resolve? path).isSome → kept path.reach) :
    shown.resolve? path = item.resolve? path := by
  rcases path.exists_names with ⟨names, rest, elements, ends⟩
  cases names with
  | nil =>
      -- Neither nothing nor an index leads anywhere from an item.
      rcases path with ⟨_ | ⟨_ | _, _⟩⟩
      · rfl
      · obtain rfl : _ = rest := elements
        rcases ends _ rfl with ⟨position, impossible⟩
        cases impossible
      · rfl
  | cons name names =>
      have named := List.cons_ne_nil name names
      by_cases reached : Reaches kept (name :: names)
      · rw [resolve?_eq_at? _ elements named, resolve?_eq_at? _ elements named,
          shows.whole _ named reached]
      have nowhere : item.resolve? path = none := by
        by_contra somewhere
        have front := reach_prefix elements ends named
        exact reached ⟨_, keeps (Option.isSome_iff_ne_none.mpr somewhere), front⟩
      rw [nowhere, resolve?_eq_at? _ elements named]
      by_cases continues : Continues kept (name :: names)
      · rcases shows.between _ named reached continues with ⟨fields, found, -⟩
        rw [found]
        cases rest with
        | nil =>
            -- The path itself would lead to what is in front of a kept path.
            rcases continues with ⟨further, keepsFurther, more, rfl⟩
            have there := leads _ keepsFurther
            rw [at?_append named] at there
            rw [resolve?_eq_at? _ elements named] at nowhere
            cases stands : item.at? (name :: names) with
            | none => rw [stands] at there; cases there
            | some value => rw [stands] at nowhere; cases nowhere
        | cons element rest =>
            rcases ends element rfl with ⟨position, rfl⟩
            rfl
      · rw [shows.nothing _ named reached continues]
        rfl

theorem leads_of_kept
    {item : Item}
    {paths : List Path}
    (names : List String)
    (kept : item.Kept paths names) :
    (item.at? names).isSome := by
  rcases kept with ⟨path, -, leads, rfl⟩
  rcases exists_keep_eq leads item with ⟨-, value, found, -⟩
  exact Option.isSome_of_eq_some found

/-- A projection leads along its own paths where the item does. -/
theorem resolve?_project
    {item : Item}
    {paths : List Path}
    {path : Path}
    (asked : path ∈ paths) :
    (item.project paths).resolve? path = item.resolve? path :=
  (shows_project item paths).resolve?_eq leads_of_kept fun leads => ⟨path, asked, leads, rfl⟩

/-- A projection shows of an item exactly what its paths keep: behind a kept path of
names all that the item has there, in front of one a map with just the names on the way,
and nothing elsewhere.  So each path leads to the same value as in the item, the order of
the paths and repetitions do not matter, and to project again changes nothing. -/
theorem project_exact
    (item : Item)
    (paths : List Path) :
    Shows item (item.project paths) (item.Kept paths) ∧
      (∀ path ∈ paths, (item.project paths).resolve? path = item.resolve? path) ∧
      (∀ others : List Path,
        (∀ path, path ∈ others ↔ path ∈ paths) → item.project others = item.project paths) ∧
      (item.project paths).project paths = item.project paths := by
  have shows := shows_project item paths
  refine ⟨shows, fun path => resolve?_project, ?_, ?_⟩
  · intro others same
    refine ((shows_project item others).congr fun names => ?_).unique shows fun _ _ _ => rfl
    simp only [Kept, same]
  · refine ((shows_project _ paths).congr fun names => ?_).unique shows shows.whole
    constructor
    · rintro ⟨path, asked, leads, reach⟩
      exact ⟨path, asked, resolve?_project asked ▸ leads, reach⟩
    · rintro ⟨path, asked, leads, reach⟩
      exact ⟨path, asked, (resolve?_project asked).symm ▸ leads, reach⟩

/-- A thread with a map and a list. -/
def thread : Item :=
  .ofList
    [("Info", .map (.ofList [("Author", .string "User B"), ("Rating", .number "4")])),
      ("Replies", .list [.string "first"])]

/-- A path into the map of the thread, one into its list, and one to the whole map. -/
def threadPaths : List Path :=
  [⟨[.attribute "Info", .attribute "Rating"]⟩, ⟨[.attribute "Replies", .index 0]⟩,
    ⟨[.attribute "Info"]⟩]

/-- The path into the list leads to the reply, and the map may come first. -/
theorem project_exact_thread :
    ⟨[.attribute "Replies", .index 0]⟩ ∈ threadPaths ∧
      (thread.project threadPaths).resolve? ⟨[.attribute "Replies", .index 0]⟩ =
        some (.string "first") ∧
      (∀ path, path ∈ threadPaths.reverse ↔ path ∈ threadPaths) ∧
      thread.project threadPaths.reverse = thread.project threadPaths := by
  rcases project_exact thread threadPaths with ⟨-, leads, anyOrder, -⟩
  have asked : ⟨[.attribute "Replies", .index 0]⟩ ∈ threadPaths := by decide
  have same : ∀ path, path ∈ threadPaths.reverse ↔ path ∈ threadPaths :=
    fun path => List.mem_reverse
  refine ⟨asked, ?_, same, anyOrder _ same⟩
  rw [leads _ asked]
  decide

end Item

end ItemTable
