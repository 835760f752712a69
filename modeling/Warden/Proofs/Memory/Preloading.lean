import Warden.Association.Loading
import Warden.Proofs.Equality
import Warden.Proofs.Memory.Filtering
/-! # Loading the rows of several owners
The rows that belong to one owner are fetched through a relation of the owner's subject, so that
they are **confined** as the owner's restriction says (`Site.Confines`,
`Association.fetch_forOwner`). The rows that belong to several owners are loaded at once, and what
confines them is the restriction of the first owner only (`Association.startFrom_preload`).

Both therefore agree where the owners share one restriction, apart from what limits do
(`Association.loaded_prefix_fetched`). Where they do not, the rows loaded for an owner may be hidden
from that owner's subject: they are fetched for the owner, too, only as far as the owner's own scopes
admit them (`Association.mem_fetched_iff`). -/

namespace Warden

/-! ## What a restriction leaves -/

/-- A restriction **confines** the rows of a model, at a depth of trusted execution, to what
narrowings admit: to everything if there is no subject or execution is trusted, else to what the
scopes of the subject leave. -/
inductive Site.Confines {S : Type} (site : Site S MemoryQuery) (trust : Trust) (model : Model) :
    Restriction S → List Narrowing → Prop where
  /-- Nobody is confined to nothing. -/
  | unbound : Confines site trust model .unbound []
  /-- Trusted execution is not confined. -/
  | trusted {restriction : Restriction S} (trusted : trust.isActive = true) :
    Confines site trust model restriction []
  /-- A subject is confined to what the rules make of its permissions. -/
  | bound {subject : S} {perms : Permissions MemoryQuery} {scopes : List (List Narrowing)}
    (untrusted : trust.isActive = false)
    (evaluated : ((site.evaluate model subject none).startFrom trust).1 = .ok perms)
    (registered : perms.scopes = scopes.map fun scope query => query.narrowBy scope) :
    Confines site trust model (.bound subject) (perms.confinement scopes)

variable {S : Type} {site : Site S MemoryQuery} {memory : Memory} {trust : Trust}

/-- What a relation fetches that was bound afresh: the rows that its own narrowings and its
restriction leave, as records of the same restriction. -/
theorem Relation.fetch_of_confines {model : Model} {restriction : Restriction S}
    {rel : Relation S MemoryQuery} {narrowings confinement : List Narrowing}
    (overModel : rel.model = model) (fresh : rel.binding = .fresh restriction)
    (query : rel.query = (Query.base model.table : MemoryQuery).narrowBy narrowings)
    (stored : site.store = memory.store)
    (confines : site.Confines trust model restriction confinement) :
    ((fetch site).startFrom rel trust).1.1 =
      .ok ((Narrowing.results (narrowings ++ confinement) (memory.rows model.name)).map
        fun row => Guarded.inheriting model row restriction) := by
  have restricted : rel.binding.restriction = restriction := congrArg Binding.restriction fresh
  have selected (confinement : List Narrowing) :
      site.store.fetch (rel.query.narrowBy confinement) =
        Narrowing.results (narrowings ++ confinement) (memory.rows model.name) := by
    rw [query, ← MemoryQuery.narrowBy_append, stored]
    exact memory.select_narrowBy model.table _
  -- The relation's own query is carried out where nothing is enforced.
  have unconfined (free : rel.binding.restriction.isEnforced trust = false) :
      ((fetch site).startFrom rel trust).1.1 =
        .ok ((Narrowing.results (narrowings ++ []) (memory.rows model.name)).map
          fun row => Guarded.inheriting model row restriction) := by
    rw [fetch_of_not_inForce free, overModel, restricted, ← selected []]
    rfl
  cases confines with
  | unbound => exact unconfined (Restriction.isEnforced_of_free (.inl restricted))
  | trusted trusted => exact unconfined (Restriction.isEnforced_of_free (.inr trusted))
  | bound untrusted evaluated registered =>
    rw [← overModel] at evaluated
    rw [fetch_of_enforced (enforced_of_fresh fresh untrusted evaluated),
      Permissions.confine_narrowBy registered, selected]
    dsimp only
    rw [overModel, restricted]

namespace Association

variable {assoc : Association} {first : Guarded S MemoryQuery} {rest : List (Guarded S MemoryQuery)}
  {confinement : List Narrowing}

/-! ## One owner -/

/-- The narrowing to the rows that belong to an owner. -/
def narrowing (assoc : Association) (owner : Guarded S MemoryQuery) : Narrowing :=
  match assoc.ownerKey owner.row owner.model.table with
  | some key => .hasValue assoc.targetField key
  | none => .nothing

/-- Belonging to an owner does not limit the number of rows. -/
theorem limit?_narrowing (assoc : Association) (owner : Guarded S MemoryQuery) :
    (assoc.narrowing owner).limit? = none := by
  rw [narrowing]
  cases assoc.ownerKey owner.row owner.model.table <;> rfl

/-- The rows that belong to an owner are rows of the target. -/
@[simp] theorem model_forOwner (assoc : Association) (owner : Guarded S MemoryQuery) :
    (assoc.forOwner owner).model = assoc.target := by
  rw [forOwner]
  cases assoc.ownerKey owner.row owner.model.table <;> rfl

/-- They are seen by the owner's subject, of which nothing is known yet. -/
@[simp] theorem binding_forOwner (assoc : Association) (owner : Guarded S MemoryQuery) :
    (assoc.forOwner owner).binding = .fresh owner.binding.restriction := by
  rw [forOwner]
  cases assoc.ownerKey owner.row owner.model.table <;> rfl

/-- Nothing else narrows them. -/
theorem query_forOwner (assoc : Association) (owner : Guarded S MemoryQuery) :
    (assoc.forOwner owner).query =
      (Query.base assoc.target.table : MemoryQuery).narrowBy [assoc.narrowing owner] := by
  rw [forOwner, narrowing]
  cases assoc.ownerKey owner.row owner.model.table <;> rfl

/-- **The rows of one owner** are confined by the owner's restriction. -/
theorem fetch_forOwner {owner : Guarded S MemoryQuery} (stored : site.store = memory.store)
    (confines : site.Confines trust assoc.target owner.binding.restriction confinement) :
    ((Relation.fetch site).startFrom (assoc.forOwner owner) trust).1.1 =
      .ok ((Narrowing.results (assoc.narrowing owner :: confinement)
        (memory.rows assoc.target.name)).map
          fun row => Guarded.inheriting assoc.target row owner.binding.restriction) :=
  Relation.fetch_of_confines (assoc.model_forOwner owner) (assoc.binding_forOwner owner)
    (assoc.query_forOwner owner) stored confines

/-! ## Several owners -/

/-- The narrowing to the rows that belong to any of several owners. -/
def narrowingAll (assoc : Association) (owners : List (Guarded S MemoryQuery)) : Narrowing :=
  .hasAnyValue assoc.targetField (assoc.ownerKeys owners)

/-- Those of the loaded rows that belong to an owner are those that fetching them for the owner
looks for. -/
theorem rowsOf_eq (assoc : Association) (rows : List Row) (owner : Guarded S MemoryQuery) :
    assoc.rowsOf rows owner =
      (rows.filter fun row => (assoc.narrowing owner).admits row).map
        fun row => Guarded.inheriting assoc.target row owner.binding.restriction := by
  rw [rowsOf]
  refine congrArg (List.map _) (List.filter_congr fun row _ => ?_)
  rw [narrowing]
  cases assoc.ownerKey owner.row owner.model.table with
  | none => rfl
  | some key =>
    show _ = MemoryQuery.hasValue assoc.targetField key row
    rw [MemoryQuery.hasValue]
    -- Loading compares the owner's key with the row's, fetching the row's with the owner's.
    cases row.get? assoc.targetField with
    | none => rfl
    | some value => exact key.equal_comm value

/-- A query that is narrowed for a subject is narrowed by what confines the subject. -/
theorem startFrom_scopeFor {model : Model} {subject : S} {perms : Permissions MemoryQuery}
    {scopes : List (List Narrowing)} (query : MemoryQuery)
    (evaluated : ((site.evaluate model subject none).startFrom trust).1 = .ok perms)
    (registered : perms.scopes = scopes.map fun scope query => query.narrowBy scope) :
    (site.scopeFor model subject query).startFrom trust =
      (.ok (query.narrowBy (perms.confinement scopes)), trust) := by
  rw [Site.scopeFor, (site.steady_evaluate model subject none).startFrom_bind, evaluated,
    ← Permissions.applyTo_narrowBy registered]
  rfl

/-- **The rows of several owners** are confined by the restriction of the first one. -/
theorem startFrom_preload (stored : site.store = memory.store)
    (confines : site.Confines trust assoc.target first.binding.restriction confinement) :
    ((preload assoc site (first :: rest)).startFrom trust).1 =
      .ok ((first :: rest).map (assoc.rowsOf (Narrowing.results
        (assoc.narrowingAll (first :: rest) :: confinement) (memory.rows assoc.target.name)))) := by
  let wanted : MemoryQuery :=
    Query.filterIn (Query.base assoc.target.table) assoc.targetField
      (assoc.ownerKeys (first :: rest))
  have selected : site.store.fetch (wanted.narrowBy confinement) =
      Narrowing.results (assoc.narrowingAll (first :: rest) :: confinement)
        (memory.rows assoc.target.name) := by
    rw [stored]
    exact memory.select_narrowBy assoc.target.table
      (assoc.narrowingAll (first :: rest) :: confinement)
  have isTrusted : Run.isTrusted.startFrom trust = (.ok trust.isActive, trust) := rfl
  rw [← selected]
  unfold preload
  dsimp only
  -- Whichever way the query is found, it is `wanted`, narrowed by what confines the first owner.
  generalize first.binding.restriction = restriction at confines
  cases confines with
  | unbound => rfl
  | trusted trusted =>
    cases restriction with
    | unbound => rfl
    | bound subject =>
      dsimp only
      rw [Run.startFrom_bind, isTrusted, trusted]
      rfl
  | bound untrusted evaluated registered =>
    dsimp only
    rw [Run.startFrom_bind, isTrusted, untrusted]
    dsimp only
    rw [if_neg Bool.false_ne_true, Run.startFrom_bind,
      startFrom_scopeFor wanted evaluated registered]
    rfl

/-! ## Loading against fetching -/

/-- A narrowing that follows from another one changes no results beside it, if it is no limit. -/
theorem results_of_implied {one other : Narrowing} {narrowings : List Narrowing} {rows : List Row}
    (unlimited : other.limit? = none)
    (implied : ∀ row ∈ rows, one.admits row = true → other.admits row = true) :
    Narrowing.results (one :: other :: narrowings) rows =
      Narrowing.results (one :: narrowings) rows := by
  have limit : Narrowing.smallest? (one :: other :: narrowings) =
      Narrowing.smallest? (one :: narrowings) := Narrowing.smallest?_insert unlimited [one] narrowings
  rw [Narrowing.results, Narrowing.results, limit]
  refine congrArg (fun rows => Narrowing.cut rows _) (List.filter_congr fun row mem => ?_)
  rw [List.all_cons, List.all_cons, List.all_cons]
  cases admitted : one.admits row with
  | false => rfl
  | true => rw [implied row mem admitted, Bool.true_and, Bool.true_and]

section OneOfSeveral

variable {owner : Guarded S MemoryQuery} {owners : List (Guarded S MemoryQuery)}
  {ofFirst own : List Narrowing} {rows : List Row} {row : Row}

/-- The rows that are loaded for an owner, as the first owner is confined. -/
def loaded (assoc : Association) (owners : List (Guarded S MemoryQuery)) (ofFirst : List Narrowing)
    (rows : List Row) (owner : Guarded S MemoryQuery) : List Row :=
  (Narrowing.results (assoc.narrowingAll owners :: ofFirst) rows).filter fun row =>
    (assoc.narrowing owner).admits row

/-- The rows that are fetched for an owner, as the owner is confined. -/
def fetched (assoc : Association) (own : List Narrowing) (rows : List Row)
    (owner : Guarded S MemoryQuery) : List Row :=
  Narrowing.results (assoc.narrowing owner :: own) rows

/-- What confines the first owner admits every loaded row. -/
theorem admits_of_mem_loaded (mem : row ∈ assoc.loaded owners ofFirst rows owner)
    {narrowing : Narrowing} (inForce : narrowing ∈ ofFirst) : narrowing.admits row = true :=
  Narrowing.admits_of_mem_results (List.mem_filter.mp mem).1 (List.mem_cons_of_mem _ inForce)

/-- **A loaded row** is fetched, too, iff what confines the owner admits it, unless that limits the
number of rows. -/
theorem mem_fetched_iff (unlimited : ∀ limit, .atMost limit ∉ own)
    (mem : row ∈ assoc.loaded owners ofFirst rows owner) :
    row ∈ assoc.fetched own rows owner ↔ ∀ narrowing ∈ own, narrowing.admits row = true := by
  obtain ⟨result, belongs⟩ := List.mem_filter.mp mem
  have stored : row ∈ rows := Narrowing.sublist_results.subset result
  -- Belonging to the owner is no limit either.
  have free : ∀ limit, .atMost limit ∉ assoc.narrowing owner :: own := by
    intro limit limited
    rcases List.mem_cons.mp limited with same | later
    · have none := assoc.limit?_narrowing owner
      rw [← same] at none
      cases none
    · exact unlimited limit later
  rw [fetched, Narrowing.results_of_unlimited free, List.mem_filter, List.all_cons, belongs,
    Bool.true_and, List.all_eq_true]
  exact and_iff_right stored

/-- Where the owner is confined as the first one is, what is loaded comes first among what is
fetched, if the rows that belong to the owner belong to some owner. -/
theorem loaded_prefix_fetched
    (found : ∀ row ∈ rows, (assoc.narrowing owner).admits row = true →
      (assoc.narrowingAll owners).admits row = true) :
    assoc.loaded owners ofFirst rows owner <+: assoc.fetched ofFirst rows owner := by
  -- Filtering the limited rows by owner gives the first of the rows that a filter in front gives.
  have inserted : Narrowing.results
      (assoc.narrowing owner :: assoc.narrowingAll owners :: ofFirst) rows = _ :=
    Narrowing.results_insert (assoc.limit?_narrowing owner) [] (assoc.narrowingAll owners :: ofFirst)
  rw [fetched, ← results_of_implied rfl found, inserted]
  exact List.prefix_append _ _

end OneOfSeveral

/-! ## Fluffies

Fluffies belong to dummies, and every user sees their own fluffies only. -/

/-- Where every user sees their own fluffies. -/
def ownFluffies (memory : Memory) : Site String MemoryQuery :=
  { store := memory.store
    book := RuleBook.empty.create.1.register 0
      (.subject fun user => .narrow fun query => query.narrowBy [.hasValue "owner" (.string user)]) }

/-- The fluffies of a dummy. -/
def fluffiesOfDummy : Association :=
  { name := "fluffies", kind := .hasMany, foreignKey := "dummy_id"
    target := { table := Table.withFields "fluffies" ["dummy_id", "owner"], rules := 0 } }

/-- A stored fluffy. -/
def fluffy (id dummy : Int) (owner : String) : Row :=
  (Row.new [("dummy_id", .int dummy), ("id", .int id), ("owner", .string owner)]).markPersisted

/-- A stored dummy, seen by a user. -/
def dummy (id : Int) (user : String) : Guarded String MemoryQuery :=
  Guarded.inheriting { table := Table.withFields "dummies" [], rules := 0 }
    (Row.stored [("id", .int id)]) (.bound user)

/-- A user is confined to their own fluffies. -/
theorem confines_ownFluffies (memory : Memory) (user : String) :
    (ownFluffies memory).Confines {} fluffiesOfDummy.target (.bound user)
      [.hasValue "owner" (.string user)] := by
  let scope : List Narrowing := [.hasValue "owner" (.string user)]
  let perms : Permissions MemoryQuery :=
    (fluffiesOfDummy.target.noPermissions {}).scope fun query => query.narrowBy scope
  have rules : (ownFluffies memory).book.rules fluffiesOfDummy.target.rules =
      [.subject fun user => .narrow fun query =>
        query.narrowBy [.hasValue "owner" (.string user)]] := RuleBook.rules_of_root rfl
  have evaluated : (((ownFluffies memory).evaluate fluffiesOfDummy.target user none).startFrom {}).1
      = .ok perms := by
    rw [Site.evaluate_of_rules rules]
    rfl
  have registered : perms.scopes = [scope].map (fun scope query => query.narrowBy scope) := rfl
  exact .bound rfl evaluated registered

/-- **The first owner's scopes confine what is loaded for all.** Loading the rows of several owners
gives one list for each, in their order, of records with the owner's own restriction. Whoever the
owner is bound to, the rows have passed what confines the first owner. A row that is loaded for an
owner is fetched for that owner, too, iff the owner's own scopes admit it, unless these limit the
number of rows. It always is if the owner carries the first one's restriction; then, even with
limits, what is loaded comes first among what is fetched, provided that every row with the owner's
key has one of the keys that are looked for. -/
theorem preload_of_first (memory : Memory) (assoc : Association) (first : Guarded S MemoryQuery)
    (rest : List (Guarded S MemoryQuery)) (confinement : Restriction S → List Narrowing)
    (stored : site.store = memory.store)
    (confines : ∀ owner ∈ first :: rest, site.Confines trust assoc.target
      owner.binding.restriction (confinement owner.binding.restriction)) :
    let owners := first :: rest
    let rows := memory.rows assoc.target.name
    let records (owner : Guarded S MemoryQuery) (rows : List Row) : List (Guarded S MemoryQuery) :=
      rows.map fun row => Guarded.inheriting assoc.target row owner.binding.restriction
    ∃ lists, ((preload assoc site owners).startFrom trust).1 = .ok lists ∧
      List.Forall₂ (fun owner list =>
        let own := confinement owner.binding.restriction
        ∃ loaded fetched, list = records owner loaded ∧
          ((Relation.fetch site).startFrom (assoc.forOwner owner) trust).1.1 =
            .ok (records owner fetched) ∧
          (∀ row ∈ loaded, ∀ narrowing ∈ confinement first.binding.restriction,
            narrowing.admits row = true) ∧
          ((∀ limit, .atMost limit ∉ own) → ∀ row ∈ loaded,
            (row ∈ fetched ↔ ∀ narrowing ∈ own, narrowing.admits row = true)) ∧
          (owner.binding.restriction = first.binding.restriction →
            ((∀ limit, .atMost limit ∉ own) → ∀ row ∈ loaded, row ∈ fetched) ∧
            ((∀ row ∈ rows, (assoc.narrowing owner).admits row = true →
              (assoc.narrowingAll owners).admits row = true) → loaded <+: fetched)))
        owners lists := by
  intro owners rows records
  -- Every owner's list is made of the same loaded rows, so the owners are taken one by one.
  have ofFirst := confines first List.mem_cons_self
  refine ⟨_, startFrom_preload stored ofFirst, ?_⟩
  rw [List.forall₂_map_right_iff, List.forall₂_same]
  intro owner mem
  refine ⟨assoc.loaded owners (confinement first.binding.restriction) rows owner,
    assoc.fetched (confinement owner.binding.restriction) rows owner, assoc.rowsOf_eq _ owner,
    fetch_forOwner stored (confines owner mem), ?_, ?_, ?_⟩
  · exact fun row isLoaded narrowing inForce => admits_of_mem_loaded isLoaded inForce
  · exact fun unlimited row isLoaded => mem_fetched_iff unlimited isLoaded
  · intro same
    rw [same]
    refine ⟨fun unlimited row isLoaded => ?_, loaded_prefix_fetched⟩
    exact (mem_fetched_iff unlimited isLoaded).mpr fun narrowing inForce =>
      admits_of_mem_loaded isLoaded inForce

/-- Alice's two dummies are loaded with her fluffies, which are those fetched for each of them. -/
theorem preload_of_first_fluffies :
    let memory : Memory :=
      { tables := [("fluffies", [fluffy 10 1 "alice", fluffy 11 2 "bob", fluffy 12 2 "alice"])] }
    let owners := [dummy 1 "alice", dummy 2 "alice"]
    let site := ownFluffies memory
    let own : List Narrowing := [.hasValue "owner" (.string "alice")]
    site.store = memory.store ∧
      (∀ owner ∈ owners,
        site.Confines {} fluffiesOfDummy.target owner.binding.restriction own) ∧
      ∃ lists, ((fluffiesOfDummy.preload site owners).startFrom {}).1 = .ok lists ∧
        lists.map (List.map Guarded.row) = [[fluffy 10 1 "alice"], [fluffy 12 2 "alice"]] ∧
        ∃ records, ((Relation.fetch site).startFrom (fluffiesOfDummy.forOwner (dummy 2 "alice"))
            {}).1.1 = .ok records ∧ fluffy 12 2 "alice" ∈ records.map Guarded.row := by
  intro memory owners site own
  have confines : ∀ owner ∈ owners, site.Confines {} fluffiesOfDummy.target
      owner.binding.restriction own := by
    intro owner mem
    rcases List.mem_cons.mp mem with rfl | mem
    · exact confines_ownFluffies memory "alice"
    · cases List.mem_singleton.mp mem
      exact confines_ownFluffies memory "alice"
  obtain ⟨lists, loads, each⟩ := preload_of_first memory fluffiesOfDummy (dummy 1 "alice")
    [dummy 2 "alice"] (fun _ => own) rfl confines
  have unlimited : ∀ limit, .atMost limit ∉ own := by simp [own]
  cases (startFrom_preload rfl (confines_ownFluffies memory "alice")).symm.trans loads
  refine ⟨rfl, confines, _, loads, rfl, ?_⟩
  -- The second dummy is bound to Alice, as the first one is.
  obtain - | ⟨-, - | ⟨⟨loaded, fetched, same, fetches, -, -, shared⟩, -⟩⟩ := each
  have isLoaded : [fluffy 12 2 "alice"] = loaded := by
    have rows := congrArg (List.map Guarded.row) same
    rw [List.map_map] at rows
    exact rows.trans (List.map_id _)
  subst isLoaded
  have isFetched := (shared rfl).1 unlimited _ List.mem_cons_self
  exact ⟨_, fetches, List.mem_map.mpr ⟨_, List.mem_map_of_mem isFetched, rfl⟩⟩

/-- Bob's dummy is loaded together with Alice's: he gets Alice's fluffy of his dummy, which he may
not see, and not his own, which is what fetching the fluffies of his dummy gives. -/
theorem preload_beyond_scope :
    let memory : Memory :=
      { tables := [("fluffies", [fluffy 10 1 "alice", fluffy 11 2 "alice", fluffy 12 2 "bob"])] }
    let site := ownFluffies memory
    let rows (records : List (Guarded String MemoryQuery)) := records.map Guarded.row
    (∃ lists, ((fluffiesOfDummy.preload site [dummy 1 "alice", dummy 2 "bob"]).startFrom {}).1
        = .ok lists ∧
      lists.map rows = [[fluffy 10 1 "alice"], [fluffy 11 2 "alice"]]) ∧
    (∃ records, ((Relation.fetch site).startFrom (fluffiesOfDummy.forOwner (dummy 2 "bob")) {}).1.1
        = .ok records ∧ rows records = [fluffy 12 2 "bob"]) ∧
    fluffy 11 2 "alice" ∉ [fluffy 12 2 "bob"] := by
  intro memory site rows
  refine ⟨⟨_, startFrom_preload rfl (confines_ownFluffies memory "alice"), rfl⟩,
    ⟨_, fetch_forOwner rfl (confines_ownFluffies memory "bob"), rfl⟩, ?_⟩
  intro shown
  have same : fluffy 11 2 "alice" = fluffy 12 2 "bob" := List.mem_singleton.mp shown
  cases congrArg (fun row => row.get? "id") same

end Association

end Warden
