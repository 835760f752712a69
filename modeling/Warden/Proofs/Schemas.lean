import Mathlib
import Warden.Proofs.FieldMaps
import Warden.Proofs.Run
import Warden.Proofs.Tables
import Warden.Proofs.Yaml.Written
import Warden.Schema
/-! # Declared tables
What a declaration gives is a table of its name with the declared key and the declared columns in
the order of their names (`TableDeclaration.Gives`). It gives one iff it is **sound**, which is to
say that the key is no column too.

Schemas are added one after the other. The tables that come out are those of all entries in order,
and they come out iff every declaration gives one and all names are different
(`Schema.allTables_eq_ok_iff`). Within a schema the names are different anyway, so that only two
schemas can be at odds. A schema that is read from a document is a map (`Schema.isMap_of_ofText`),
which is all that is needed of the reading (`Schema.parseAll_declared`). -/

namespace Warden

namespace TableDeclaration

/-- The name of the declared key; the usual one if none is given. -/
def keyName (declaration : TableDeclaration) : String := declaration.key.getD Table.defaultKey

/-- A declaration is **sound** if the key is not declared as a column too. -/
def Sound (declaration : TableDeclaration) : Prop :=
  declaration.keyName ∉ declaration.columns.keys

/-- A declaration under a name **gives** a table. A column is nullable unless it is declared not to
be. -/
structure Gives (declaration : TableDeclaration) (name : String) (table : Table) : Prop where
  /-- The table has the name. -/
  name : table.name = name
  /-- The key is the declared one. -/
  primaryKey : table.primaryKey = declaration.keyName
  /-- The columns are the declared ones. -/
  columns : table.columns = declaration.columns.keys.map fun column =>
    { name := column, nullable := decide (declaration.columns.get? column ≠ some (some false)) }

variable {name : String} {declaration : TableDeclaration} {table : Table}

/-- The names of the columns are the declared ones. -/
theorem Gives.columnNames (gives : Gives declaration name table) :
    table.columns.map Column.name = declaration.columns.keys := by
  rw [gives.columns, List.map_map]
  exact List.map_id _

/-- Every declaration gives some table. -/
theorem exists_gives (declaration : TableDeclaration) (name : String) :
    ∃ table, Gives declaration name table :=
  ⟨⟨name, declaration.keyName, _⟩, rfl, rfl, rfl⟩

/-- The fields are the key and then the columns. -/
theorem Gives.fieldNames (gives : Gives declaration name table) :
    table.fieldNames = declaration.keyName :: declaration.columns.keys := by
  rw [Table.fieldNames, gives.primaryKey, gives.columnNames]

/-- A sound declaration gives a table that lists no field twice. -/
theorem Gives.nodup_fieldNames (gives : Gives declaration name table) (sound : declaration.Sound)
    (sorted : declaration.columns.Sorted) : table.fieldNames.Nodup := by
  have different : declaration.columns.keys.Nodup :=
    (List.pairwise_map.mpr sorted).imp fun before => before.ne
  rw [Table.nodup_fieldNames_iff, gives.columnNames, gives.primaryKey]
  exact ⟨sound, different⟩

/-- Of columns in name order each is nullable unless it is declared not to be. -/
theorem columns_of_sorted {columns : Fields (Option Bool)} (sorted : columns.Sorted) :
    (columns.map fun entry => ({ name := entry.1, nullable := entry.2.getD true } : Column)) =
      columns.keys.map fun column =>
        { name := column, nullable := decide (columns.get? column ≠ some (some false)) } := by
  rw [Fields.keys, List.map_map]
  refine List.map_congr_left fun entry listed => ?_
  have found : columns.get? entry.1 = some entry.2 := (Fields.get?_eq_some_iff sorted).mpr listed
  rw [Function.comp_apply, found]
  rcases entry with ⟨column, _ | _ | _⟩ <;> rfl

/-- **A declaration gives a table** iff it is sound, and then just one. -/
theorem table_eq_ok_iff (sorted : declaration.columns.Sorted) :
    declaration.table name = .ok table ↔ declaration.Sound ∧ Gives declaration name table := by
  have keyed : declaration.columns.has (declaration.key.getD Table.defaultKey) = true ↔
      ¬ declaration.Sound := by
    rw [Sound, not_not, Fields.has_iff_mem_keys]
    rfl
  rw [TableDeclaration.table, columns_of_sorted sorted]
  by_cases sound : declaration.Sound
  · rw [if_neg (keyed.not.mpr (not_not.mpr sound)), and_iff_right sound]
    constructor
    · intro same
      cases same
      exact ⟨rfl, rfl, rfl⟩
    · rintro ⟨rfl, primaryKey, columns⟩
      rw [← columns]
      exact congrArg (fun key => Except.ok { table with primaryKey := key }) primaryKey.symm
  · rw [if_pos (keyed.mpr sound)]
    exact ⟨nofun, fun both => absurd both.1 sound⟩

/-- A declaration that gives no table is not sound, and the error names the table and its key. -/
theorem eq_of_table_eq_error {error : Error} (refused : declaration.table name = .error error) :
    declaration.keyName ∈ declaration.columns.keys ∧
      error = .schema ("table '" ++ name ++ "' declares primary key '" ++ declaration.keyName ++
        "' as a column") := by
  rw [TableDeclaration.table] at refused
  split at refused
  · next keyed =>
    cases refused
    exact ⟨Fields.has_iff_mem_keys.mp keyed, rfl⟩
  · cases refused

end TableDeclaration

namespace Schema

/-- Of related items the same is made if it is of each two. -/
theorem map_eq_map_of_forall₂ {α β γ : Type} {one : α → γ} {other : β → γ} {items : List α}
    {results : List β} (each : List.Forall₂ (fun item result => other result = one item) items
      results) : results.map other = items.map one := by
  induction each with
  | nil => rfl
  | cons first _ ih => rw [List.map_cons, List.map_cons, first, ih]

/-! ## Adding tables -/

/-- The tables that an entry gives. -/
def entryTable (entry : String × TableDeclaration) : Except Error Table :=
  entry.2.table entry.1

/-- A table that is made has the name of its entry. -/
theorem name_of_entryTable {entry : String × TableDeclaration} {table : Table}
    (made : entryTable entry = .ok table) : table.name = entry.1 := by
  rw [entryTable, TableDeclaration.table] at made
  split at made
  · cases made
  · cases made
    rfl

/-- Tables that are made have the names of their entries. -/
theorem names_of_mapM {entries : List (String × TableDeclaration)} {tables : List Table}
    (made : entries.mapM entryTable = .ok tables) :
    tables.map Table.name = entries.map Prod.fst :=
  map_eq_map_of_forall₂ ((mapM_eq_ok_iff.mp made).imp fun _ _ => name_of_entryTable)

/-- **Tables are added** to different ones iff they are all different, and then at the end. -/
theorem addTables_eq_ok_iff {known new all : List Table}
    (different : (known.map Table.name).Nodup) :
    addTables known new = .ok all ↔
      all = known ++ new ∧ ((known ++ new).map Table.name).Nodup := by
  induction new generalizing known with
  | nil =>
    rw [addTables, List.append_nil, and_iff_left different]
    exact ⟨fun same => by cases same; rfl, fun same => by rw [same]⟩
  | cons table rest ih =>
    have taken : (known.any fun other => other.name == table.name) = true ↔
        table.name ∈ known.map Table.name := by
      simp only [List.any_eq_true, beq_iff_eq, List.mem_map]
    have joined : known ++ table :: rest = (known ++ [table]) ++ rest := by simp
    rw [addTables]
    by_cases there : table.name ∈ known.map Table.name
    · rw [if_pos (taken.mpr there)]
      refine ⟨nofun, fun ⟨_, nodup⟩ => ?_⟩
      rw [List.map_append, List.map_cons, List.nodup_append] at nodup
      exact absurd rfl (nodup.2.2 table.name there table.name List.mem_cons_self)
    · have still : ((known ++ [table]).map Table.name).Nodup := by
        rw [List.map_append]
        refine List.nodup_append.mpr ⟨different, List.nodup_singleton _, ?_⟩
        rintro name listed _ new rfl
        exact there (List.mem_singleton.mp new ▸ listed)
      rw [if_neg (taken.not.mpr there), ih still, ← joined]

/-- Tables that are added stand at the end. -/
theorem eq_of_addTables_eq_ok {known new all : List Table}
    (added : addTables known new = .ok all) : all = known ++ new := by
  induction new generalizing known with
  | nil =>
    cases added
    exact (List.append_nil _).symm
  | cons table rest ih =>
    rw [addTables] at added
    split at added
    · cases added
    · rw [ih added, List.append_assoc]
      rfl

/-- If tables are not added, one of them has a name that is taken. -/
theorem exists_of_addTables_eq_error {known new : List Table} {error : Error}
    (different : (new.map Table.name).Nodup) (refused : addTables known new = .error error) :
    ∃ name ∈ new.map Table.name, name ∈ known.map Table.name ∧
      error = .schema ("duplicate table name: " ++ name) := by
  induction new generalizing known with
  | nil => cases refused
  | cons table rest ih =>
    rw [List.map_cons, List.nodup_cons] at different
    rw [addTables] at refused
    split at refused
    · next taken =>
      cases refused
      obtain ⟨other, listed, same⟩ := List.any_eq_true.mp taken
      exact ⟨table.name, List.mem_cons_self,
        List.mem_map.mpr ⟨other, listed, beq_iff_eq.mp same⟩, rfl⟩
    · obtain ⟨name, later, taken, rfl⟩ := ih different.2 refused
      refine ⟨name, List.mem_cons_of_mem _ later, ?_, rfl⟩
      -- The table that was added in between has another name, so that the name was taken before.
      rw [List.map_append, List.mem_append] at taken
      refine taken.resolve_right fun between => different.1 ?_
      rwa [List.mem_singleton.mp between] at later

/-! ## Adding schemas -/

/-- **The tables of schemas** are those of their entries in order, if all of these give tables of
different names. -/
theorem allTables_eq_ok_iff {known all : List Table} {schemas : List Schema}
    (different : (known.map Table.name).Nodup) :
    allTables known schemas = .ok all ↔
      ∃ new, schemas.flatten.mapM entryTable = .ok new ∧ all = known ++ new ∧
        (all.map Table.name).Nodup := by
  induction schemas generalizing known with
  | nil =>
    rw [allTables]
    constructor
    · intro same
      cases same
      exact ⟨[], rfl, (List.append_nil _).symm, different⟩
    · rintro ⟨new, made, rfl, -⟩
      cases made
      exact congrArg Except.ok (List.append_nil _).symm
  | cons schema rest ih =>
    simp only [allTables, bind_eq_ok_iff, List.flatten_cons, List.mapM_append,
      addTables_eq_ok_iff different]
    constructor
    · rintro ⟨first, made, _, ⟨rfl, nodup⟩, added⟩
      obtain ⟨others, madeRest, joined, all⟩ := (ih nodup).mp added
      exact ⟨first ++ others, ⟨first, made, others, madeRest, rfl⟩,
        joined.trans (List.append_assoc _ _ _), all⟩
    · rintro ⟨_, ⟨first, made, others, madeRest, same⟩, joined, nodup⟩
      cases same
      rw [← List.append_assoc] at joined
      have front : ((known ++ first).map Table.name).Nodup := by
        rw [joined, List.map_append] at nodup
        exact nodup.of_append_left
      exact ⟨first, made, _, ⟨rfl, front⟩, (ih front).mpr ⟨others, madeRest, joined, nodup⟩⟩

/-- A **fault** of schemas, and the error that reports it. -/
inductive Fault (schemas : List Schema) : Error → Prop
  /-- A declaration is not sound. -/
  | key {schema : Schema} {name : String} {declaration : TableDeclaration}
    (listed : schema ∈ schemas) (declared : (name, declaration) ∈ schema)
    (unsound : declaration.keyName ∈ declaration.columns.keys) :
    Fault schemas (.schema ("table '" ++ name ++ "' declares primary key '" ++
      declaration.keyName ++ "' as a column"))
  /-- A name occurs in two of the schemas. -/
  | name {earlier later : List Schema} {other schema : Schema} {name : String}
    (split : schemas = earlier ++ schema :: later) (before : other ∈ earlier)
    (first : name ∈ other.keys) (again : name ∈ schema.keys) :
    Fault schemas (.schema ("duplicate table name: " ++ name))

/-- A fault of schemas is one of more schemas, too. -/
theorem Fault.cons {schemas : List Schema} {error : Error} (fault : Fault schemas error)
    (schema : Schema) : Fault (schema :: schemas) error := by
  cases fault with
  | key listed declared unsound => exact .key (List.mem_cons_of_mem _ listed) declared unsound
  | name split before first again =>
    rw [split, ← List.cons_append]
    exact .name rfl (List.mem_cons_of_mem _ before) first again

/-- If schemas are refused, the error reports a fault. What is there already counts as declared
before. -/
theorem fault_of_allTables_eq_error {known : List Table} {schemas : List Schema} {error : Error}
    (maps : ∀ schema ∈ schemas, schema.keys.Nodup)
    (refused : allTables known schemas = .error error) :
    Fault schemas error ∨ ∃ name ∈ known.map Table.name, ∃ schema ∈ schemas, name ∈ schema.keys ∧
      error = .schema ("duplicate table name: " ++ name) := by
  induction schemas generalizing known with
  | nil => cases refused
  | cons schema rest ih =>
    obtain ⟨different, others⟩ := List.forall_mem_cons.mp maps
    rw [allTables, bind_eq_error_iff] at refused
    rcases refused with unmade | ⟨new, made, refused⟩
    · -- An entry of the first schema gives no table.
      obtain ⟨⟨name, declaration⟩, listed, refusal⟩ := exists_of_mapM_eq_error unmade
      obtain ⟨unsound, rfl⟩ := TableDeclaration.eq_of_table_eq_error refusal
      exact .inl (.key List.mem_cons_self listed unsound)
    · have names : new.map Table.name = schema.keys := names_of_mapM made
      rw [bind_eq_error_iff] at refused
      rcases refused with unadded | ⟨all, added, refused⟩
      · -- A table of the first schema has a name that is taken.
        obtain ⟨name, here, taken, rfl⟩ :=
          exists_of_addTables_eq_error (names ▸ different) unadded
        exact .inr ⟨name, taken, schema, List.mem_cons_self, names ▸ here, rfl⟩
      · rcases ih others refused with fault | ⟨name, taken, later, listed, again, rfl⟩
        · exact .inl (fault.cons schema)
        · rw [eq_of_addTables_eq_ok added, List.map_append, List.mem_append, names] at taken
          rcases taken with before | here
          · exact .inr ⟨name, before, later, List.mem_cons_of_mem _ listed, again, rfl⟩
          · -- The name was taken by the first schema.
            obtain ⟨front, back, rfl⟩ := List.append_of_mem listed
            exact .inl (.name (List.cons_append ..).symm List.mem_cons_self here again)

/-! ## Schemas as maps -/

/-- A schema **is a map** if its tables, and the columns of each, are in the order of their
names. -/
def IsMap (schema : Schema) : Prop :=
  schema.Sorted ∧ ∀ entry ∈ schema, entry.2.columns.Sorted

/-- The names of the tables of a map are different. -/
theorem IsMap.nodup_keys {schema : Schema} (map : schema.IsMap) : schema.keys.Nodup :=
  (List.pairwise_map.mpr map.1).imp fun before => before.ne

/-- Entries of maps give tables iff all of them are sound, and then just these. -/
theorem mapM_eq_ok_iff_gives {entries : List (String × TableDeclaration)} {tables : List Table}
    (sorted : ∀ entry ∈ entries, entry.2.columns.Sorted) :
    entries.mapM entryTable = .ok tables ↔
      (∀ entry ∈ entries, entry.2.Sound) ∧
        List.Forall₂ (fun entry table => entry.2.Gives entry.1 table) entries tables := by
  rw [mapM_eq_ok_iff]
  induction entries generalizing tables with
  | nil => simp
  | cons entry rest ih =>
    obtain ⟨here, there⟩ := List.forall_mem_cons.mp sorted
    have first (table : Table) : entryTable entry = .ok table ↔
        entry.2.Sound ∧ entry.2.Gives entry.1 table := TableDeclaration.table_eq_ok_iff here
    simp only [List.forall₂_cons_left_iff, List.forall_mem_cons, first, ih there]
    constructor
    · rintro ⟨table, others, ⟨sound, gives⟩, ⟨soundRest, givesRest⟩, same⟩
      exact ⟨⟨sound, soundRest⟩, table, others, gives, givesRest, same⟩
    · rintro ⟨⟨sound, soundRest⟩, table, others, gives, givesRest, same⟩
      exact ⟨table, others, ⟨sound, gives⟩, ⟨soundRest, givesRest⟩, same⟩

/-- The names of all entries are different iff no name occurs in two of the maps. -/
theorem nodup_names_iff {schemas : List Schema} (maps : ∀ schema ∈ schemas, schema.IsMap) :
    (schemas.flatten.map Prod.fst).Nodup ↔
      schemas.Pairwise fun one other => ∀ name ∈ one.keys, name ∉ other.keys := by
  rw [List.map_flatten, List.nodup_flatten, List.pairwise_map]
  refine ⟨fun both => both.2.imp fun disjoint name here there => disjoint here there,
    fun apart => ⟨?_, apart.imp fun apart name here there => apart name here there⟩⟩
  rw [List.forall_mem_map]
  exact fun schema listed => (maps schema listed).nodup_keys

/-- **Maps give tables** iff all declarations are sound and no name occurs in two of the maps, and
then just those that are declared. -/
theorem allTables_nil_eq_ok_iff {schemas : List Schema} {tables : List Table}
    (maps : ∀ schema ∈ schemas, schema.IsMap) :
    allTables [] schemas = .ok tables ↔
      ((∀ schema ∈ schemas, ∀ entry ∈ schema, entry.2.Sound) ∧
        schemas.Pairwise fun one other => ∀ name ∈ one.keys, name ∉ other.keys) ∧
      List.Forall₂ (fun entry table => entry.2.Gives entry.1 table) schemas.flatten tables := by
  have sorted : ∀ entry ∈ schemas.flatten, entry.2.columns.Sorted := by
    intro entry listed
    obtain ⟨schema, here, there⟩ := List.mem_flatten.mp listed
    exact (maps schema here).2 entry there
  have sound : (∀ entry ∈ schemas.flatten, entry.2.Sound) ↔
      ∀ schema ∈ schemas, ∀ entry ∈ schema, entry.2.Sound := by
    simp only [List.mem_flatten]
    exact ⟨fun all schema here entry there => all entry ⟨schema, here, there⟩,
      fun all entry ⟨schema, here, there⟩ => all schema here entry there⟩
  have different : (([] : List Table).map Table.name).Nodup := List.nodup_nil
  rw [allTables_eq_ok_iff different, ← nodup_names_iff maps, ← sound]
  simp only [List.nil_append, and_assoc]
  constructor
  · rintro ⟨_, made, rfl, nodup⟩
    obtain ⟨all, gives⟩ := (mapM_eq_ok_iff_gives sorted).mp made
    exact ⟨all, names_of_mapM made ▸ nodup, gives⟩
  · rintro ⟨all, nodup, gives⟩
    have made := (mapM_eq_ok_iff_gives sorted).mpr ⟨all, gives⟩
    exact ⟨tables, made, rfl, names_of_mapM made ▸ nodup⟩

/-! ## Documents -/

open Yaml in
/-- What is read from a document is a map. -/
theorem isMap_of_ofText {text : String} {schema : Schema} (read : ofText text = .ok schema) :
    schema.IsMap := by
  have declaration (node : Node) : (TableDeclaration.ofNode node).Ensures
      fun declaration => declaration.columns.Sorted := by
    refine (Reading.ensures_true _).bind fun record _ =>
      (Reading.ensures_true _).bind fun key _ => ?_
    have columns : (Node.part record "columns" none (Node.optional
        (Node.fields (Node.optional TableDeclaration.columnOf)))).Ensures
          fun columns => ∀ given ∈ columns, given.Sorted ∧ ∀ entry ∈ given, True :=
      Node.ensures_part record "columns" nofun
        (Node.ensures_optional (Node.ensures_fields fun _ => Reading.ensures_true _))
    refine columns.bind fun columns sorted => Reading.ensures_pure ?_
    cases columns with
    | none => exact Fields.sorted_nil
    | some given => exact Fields.sorted_mapValues _ (sorted given rfl).1
  have ensures (node : Node) : (ofNode node).Ensures IsMap :=
    (Reading.ensures_true _).bind fun record _ => (Reading.ensures_true _).bind fun tables _ =>
      Node.ensures_fields declaration tables
  rw [ofText] at read
  split at read
  · next found =>
    cases read
    obtain ⟨document, -, read⟩ := Option.bind_eq_some_iff.mp found
    exact Document.of_read? (ensures document.root) read
  · cases read

/-- Documents that are read give the tables of their schemas. -/
theorem parseAll_eq_allTables {known : List Table} {texts : List String} {schemas : List Schema}
    (read : texts.mapM ofText = .ok schemas) :
    parseAll known texts = allTables known schemas := by
  have each := mapM_eq_ok_iff.mp read
  clear read
  induction each generalizing known with
  | nil => rfl
  | @cons text schema texts schemas first _ ih =>
    rw [parseAll, first, allTables]
    show (allTables known [schema] >>= fun known => parseAll known texts) = _
    simp only [allTables, bind_assoc, ih]
    rfl

/-- **Documents that are read are accepted** iff no key is declared as a column too and no name of a
table occurs in two of them. Then they give the declared tables and no others, document by document
and within a document in the order of their names: the names of all tables are different, and each
table lists its key and then its columns in the order of their names, no field twice. If they are
refused, the error reports a fault that is there. -/
theorem parseAll_declared {texts : List String} {schemas : List Schema}
    (read : texts.mapM ofText = .ok schemas) :
    ((∃ tables, parseAll [] texts = .ok tables) ↔
      (∀ schema ∈ schemas, ∀ entry ∈ schema, entry.2.Sound) ∧
        schemas.Pairwise fun one other => ∀ name ∈ one.keys, name ∉ other.keys) ∧
    (∀ tables, parseAll [] texts = .ok tables →
      List.Forall₂ (fun entry table => entry.2.Gives entry.1 table) schemas.flatten tables ∧
        (∀ schema ∈ schemas, schema.keys.Pairwise (· < ·)) ∧
        (tables.map Table.name).Nodup ∧
        tables.map Table.fieldNames =
          schemas.flatten.map (fun entry => entry.2.keyName :: entry.2.columns.keys) ∧
        ∀ table ∈ tables, table.fieldNames.Nodup ∧
          (table.columns.map Column.name).Pairwise (· < ·)) ∧
    ∀ error, parseAll [] texts = .error error → Fault schemas error := by
  have maps : ∀ schema ∈ schemas, schema.IsMap := by
    intro schema listed
    obtain ⟨text, -, found⟩ := exists_of_mem_right (mapM_eq_ok_iff.mp read) listed
    exact isMap_of_ofText found
  rw [parseAll_eq_allTables read]
  refine ⟨?_, fun tables accepted => ?_, fun error refused => ?_⟩
  · simp only [allTables_nil_eq_ok_iff maps, exists_and_left, and_iff_left_iff_imp]
    exact fun _ => exists_forall₂_iff.mpr fun entry _ => entry.2.exists_gives entry.1
  · obtain ⟨⟨sound, apart⟩, gives⟩ := (allTables_nil_eq_ok_iff maps).mp accepted
    refine ⟨gives, fun schema listed => List.pairwise_map.mpr (maps schema listed).1, ?_, ?_, ?_⟩
    · rw [map_eq_map_of_forall₂ (gives.imp fun _ _ given => given.name)]
      exact (nodup_names_iff maps).mpr apart
    · exact map_eq_map_of_forall₂ (gives.imp fun _ _ given => given.fieldNames)
    · intro table listed
      obtain ⟨entry, here, given⟩ := exists_of_mem_right gives listed
      obtain ⟨schema, among, there⟩ := List.mem_flatten.mp here
      have sorted : entry.2.columns.Sorted := (maps schema among).2 entry there
      refine ⟨given.nodup_fieldNames (sound schema among entry there) sorted, ?_⟩
      rw [given.columnNames]
      exact List.pairwise_map.mpr sorted
  · have keys : ∀ schema ∈ schemas, schema.keys.Nodup := fun schema listed =>
      (maps schema listed).nodup_keys
    rcases fault_of_allTables_eq_error keys refused with fault | ⟨_, taken, -⟩
    · exact fault
    · cases taken

set_option maxRecDepth 4096 in
/-- Two documents: the columns come in the order of their names, and the second table has a key of
its own. -/
theorem parseAll_declared_library :
    let texts := ["{tables: {notes: {columns: {title: {nullable: false}, body: }}}}",
      "{tables: {books: {id: {name: code}, columns: {id: {}}}}}"]
    let notes : TableDeclaration := { columns := [("body", none), ("title", some false)] }
    let books : TableDeclaration := { key := some "code", columns := [("id", none)] }
    texts.mapM ofText = .ok [[("notes", notes)], [("books", books)]] ∧
      ∃ tables, parseAll [] texts = .ok tables ∧ tables.map Table.fieldNames =
        [["id", "body", "title"], ["code", "id"]] := by
  intro texts notes books
  have read : texts.mapM ofText = .ok [[("notes", notes)], [("books", books)]] := by cbv
  obtain ⟨accepted, given, -⟩ := parseAll_declared read
  have apart : (∃ tables, parseAll [] texts = .ok tables) := accepted.mpr (by
    simp [TableDeclaration.Sound, TableDeclaration.keyName, Table.defaultKey, Fields.keys, notes,
      books])
  obtain ⟨tables, parsed⟩ := apart
  obtain ⟨-, -, -, fields, -⟩ := given tables parsed
  exact ⟨read, tables, parsed, fields⟩

end Schema

end Warden
