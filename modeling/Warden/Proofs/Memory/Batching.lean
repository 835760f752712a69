import Warden.Proofs.Memory.Preloading
import Warden.Proofs.Memory.Registered
import Warden.Proofs.Questions
/-! # One query for several owners
Loading the rows of several owners at once saves queries and changes nothing else: where the owners
share one restriction and no scope limits the number of rows, it gives what fetching the rows of one
owner after the other gives, also where it panics (`Association.preload_eq_mapM`).

Two steps of loading might lose rows. Of equal keys only the first is looked for, and a row is only
given to an owner whose key equals its own. As long as the keys are integral, equal keys are the
same, so that every key is looked for (`Association.mem_distinct`). -/

namespace Warden

/-! ## What confines a restriction -/

section Confinement

variable {S : Type} {site : Site S MemoryQuery}

/-- Where rules register no limit, nothing that confines a restriction is one, unless working out
the permissions of its subject panics. -/
theorem Site.confines_or_panics {model : Model}
    (registers : ∀ rule ∈ site.book.rules model.rules,
      rule.Registers fun narrowing => narrowing.limit? = none)
    (restriction : Restriction S) (trust : Trust) :
    (∃ confinement, site.Confines trust model restriction confinement ∧
      ∀ narrowing ∈ confinement, narrowing.limit? = none) ∨
    ∃ subject panic, restriction = .bound subject ∧ trust.isActive = false ∧
      ((site.evaluate model subject none).startFrom trust).1 = .error panic := by
  cases restriction with
  | unbound => exact .inl ⟨[], .unbound, nofun⟩
  | bound subject =>
    cases active : trust.isActive with
    | true => exact .inl ⟨[], .trusted active, nofun⟩
    | false =>
      cases evaluated : ((site.evaluate model subject none).startFrom trust).1 with
      | error panic => exact .inr ⟨subject, panic, rfl, rfl, evaluated⟩
      | ok perms =>
        obtain ⟨scopes, registered, each⟩ :=
          (Site.narrowed_of_evaluate registers evaluated).confinement rfl
        exact .inl ⟨perms.confinement scopes, .bound active evaluated registered, each⟩

end Confinement

namespace Association

variable {S : Type} {site : Site S MemoryQuery} {memory : Memory} {trust : Trust}
  {assoc : Association}

/-! ## Keys -/

/-- Keep a key, unless an equal one is kept already. -/
def keep (kept : List Value) (key : Value) : List Value :=
  if kept.any (·.equal key) then kept else kept ++ [key]

/-- Of integral keys **one more** is kept, or is there already. -/
theorem mem_keep {kept : List Value} {key other : Value}
    (integral : ∀ former ∈ kept, former.isIntegral = true) (isIntegral : key.isIntegral = true) :
    other ∈ keep kept key ↔ other ∈ kept ∨ other = key := by
  rw [keep]
  split
  · next found =>
    -- Nothing is kept, as an equal key is there; but integral keys that are equal are the same.
    obtain ⟨former, mem, equal⟩ := List.any_eq_true.mp found
    have same : former = key := Value.eq_of_equal (integral former mem) isIntegral equal
    refine (or_iff_left_of_imp ?_).symm
    rintro rfl
    exact same ▸ mem
  · rw [List.mem_append, List.mem_singleton]

/-- Of integral keys **all** are kept. -/
theorem mem_foldl_keep {kept keys : List Value} {other : Value}
    (former : ∀ key ∈ kept, key.isIntegral = true)
    (integral : ∀ key ∈ keys, key.isIntegral = true) :
    other ∈ keys.foldl keep kept ↔ other ∈ kept ∨ other ∈ keys := by
  induction keys generalizing kept with
  | nil => exact (or_iff_left List.not_mem_nil).symm
  | cons key rest ih =>
    obtain ⟨first, later⟩ := List.forall_mem_cons.mp integral
    have still : ∀ other ∈ keep kept key, other.isIntegral = true := by
      intro other mem
      rcases (mem_keep former first).mp mem with before | rfl
      · exact former other before
      · exact first
    rw [List.foldl_cons, ih still later, mem_keep former first, List.mem_cons, or_assoc]

/-- **No integral key is lost** by keeping the first of equal keys. -/
theorem mem_distinct {keys : List Value} {key : Value}
    (integral : ∀ key ∈ keys, key.isIntegral = true) : key ∈ distinct keys ↔ key ∈ keys := by
  rw [show distinct keys = keys.foldl keep [] from rfl,
    mem_foldl_keep (List.forall_mem_nil _) integral]
  exact or_iff_right List.not_mem_nil

/-- A row that belongs to an owner belongs to some owner. -/
theorem narrowingAll_of_narrowing {owners : List (Guarded S MemoryQuery)}
    {owner : Guarded S MemoryQuery} {row : Row}
    (integral : ∀ owner ∈ owners, ∀ key, assoc.ownerKey owner.row owner.model.table = some key →
      key.isIntegral = true)
    (mem : owner ∈ owners) (belongs : (assoc.narrowing owner).admits row = true) :
    (assoc.narrowingAll owners).admits row = true := by
  rw [narrowing] at belongs
  -- No row belongs to an owner without a key.
  cases keyed : assoc.ownerKey owner.row owner.model.table with
  | none =>
    rw [keyed] at belongs
    cases belongs
  | some key =>
    rw [keyed] at belongs
    have wanted : key ∈ assoc.ownerKeys owners := by
      refine (mem_distinct ?_).mpr (List.mem_filterMap.mpr ⟨owner, mem, keyed⟩)
      intro other found
      obtain ⟨another, isOwner, its⟩ := List.mem_filterMap.mp found
      exact integral another isOwner other its
    show MemoryQuery.hasAnyValue assoc.targetField (assoc.ownerKeys owners) row = true
    have equal : MemoryQuery.hasValue assoc.targetField key row = true := belongs
    rw [MemoryQuery.hasValue] at equal
    rw [MemoryQuery.hasAnyValue]
    cases held : row.get? assoc.targetField with
    | none =>
      rw [held] at equal
      cases equal
    | some stored =>
      rw [held] at equal
      exact List.any_eq_true.mpr ⟨key, wanted, equal⟩

/-! ## Rows -/

/-- **What is loaded for an owner is what is fetched**, if every row with the owner's key is looked
for and nothing limits the number of rows. -/
theorem loaded_eq_fetched {owners : List (Guarded S MemoryQuery)} {owner : Guarded S MemoryQuery}
    {confinement : List Narrowing} {rows : List Row}
    (unlimited : ∀ narrowing ∈ confinement, narrowing.limit? = none)
    (found : ∀ row ∈ rows, (assoc.narrowing owner).admits row = true →
      (assoc.narrowingAll owners).admits row = true) :
    assoc.loaded owners confinement rows owner = assoc.fetched confinement rows owner := by
  have free (first : Narrowing) (unbounded : first.limit? = none) :
      ∀ limit, .atMost limit ∉ first :: confinement := by
    intro limit limited
    rcases List.mem_cons.mp limited with rfl | later
    · cases unbounded
    · cases unlimited _ later
  rw [loaded, fetched, Narrowing.results_of_unlimited (free _ rfl),
    Narrowing.results_of_unlimited (free _ (assoc.limit?_narrowing owner)), List.filter_filter]
  -- Without limits both sides filter the stored rows, and looking for all keys loses none of the
  -- rows that belong to the owner.
  refine List.filter_congr fun row mem => ?_
  rw [List.all_cons, List.all_cons]
  cases belongs : (assoc.narrowing owner).admits row with
  | false => rfl
  | true => rw [found row mem belongs]; rfl

/-! ## Panics -/

/-- Fetching the rows of an owner panics if working out the permissions of its subject does. -/
theorem fetch_forOwner_of_panic {owner : Guarded S MemoryQuery} {subject : S} {panic : Panic}
    (bound : owner.binding.restriction = .bound subject) (untrusted : trust.isActive = false)
    (panicked : ((site.evaluate assoc.target subject none).startFrom trust).1 = .error panic) :
    ((Relation.fetch site).startFrom (assoc.forOwner owner) trust).1.1 = .error panic := by
  have fresh : (assoc.forOwner owner).binding = .fresh (.bound subject) := by
    rw [binding_forOwner, bound]
  have found : (assoc.forOwner owner).found site false trust = .error panic :=
    Binding.found_of_panic fresh (.inr untrusted) (by rw [model_forOwner]; exact panicked)
  have fetched := Relation.ask_of_panic .fetch found
  exact congrArg (fun fetched => fetched.1.1) fetched

/-- So does loading the rows of several owners, of which it is the first. -/
theorem startFrom_preload_of_panic {first : Guarded S MemoryQuery}
    {rest : List (Guarded S MemoryQuery)} {subject : S} {panic : Panic}
    (bound : first.binding.restriction = .bound subject) (untrusted : trust.isActive = false)
    (panicked : ((site.evaluate assoc.target subject none).startFrom trust).1 = .error panic) :
    ((preload assoc site (first :: rest)).startFrom trust).1 = .error panic := by
  have isTrusted : Run.isTrusted.startFrom trust = (.ok trust.isActive, trust) := rfl
  have steady := site.steady_evaluate assoc.target subject none
  unfold preload
  dsimp only
  rw [bound]
  dsimp only
  rw [Run.startFrom_bind, isTrusted, untrusted]
  dsimp only
  rw [if_neg Bool.false_ne_true, Run.startFrom_bind, Site.scopeFor, steady.startFrom_bind, panicked]

/-! ## One list for each owner -/

section Batch

variable {restriction : Restriction S} {owners : List (Guarded S MemoryQuery)}

/-- Loading the rows of owners of one restriction gives every owner the records that are fetched for
it, as far as the restriction confines. -/
theorem mapM_fetch_of_confines {confinement : List Narrowing} (stored : site.store = memory.store)
    (shared : ∀ owner ∈ owners, owner.binding.restriction = restriction)
    (confines : site.Confines trust assoc.target restriction confinement) :
    (owners.mapM fun owner => ((Relation.fetch site).startFrom (assoc.forOwner owner) trust).1.1) =
      .ok (owners.map fun owner =>
        (assoc.fetched confinement (memory.rows assoc.target.name) owner).map
          fun row => Guarded.inheriting assoc.target row owner.binding.restriction) := by
  refine mapM_eq_ok_iff.mpr ?_
  rw [List.forall₂_map_right_iff, List.forall₂_same]
  intro owner mem
  rw [← shared owner mem] at confines
  exact fetch_forOwner stored confines

/-- **One query serves all owners.** Where owners share one restriction and the rules of the target
register no limit, loading the rows of all of them comes to what fetching the rows of one after the
other comes to, whether it returns or panics. Unless working out the permissions of their subject
panics where these are in force, there is one list for each owner, in the order of the owners, with
the records that are fetched for it, each bound afresh to the restriction that the owners share.

Owners may have the same key, a null one or none at all; the keys of owners must be integral, as
equality of other numbers is not transitive. -/
theorem preload_eq_mapM (memory : Memory) (assoc : Association)
    (owners : List (Guarded S MemoryQuery)) (restriction : Restriction S) (trust : Trust)
    (stored : site.store = memory.store)
    (registers : ∀ rule ∈ site.book.rules assoc.target.rules,
      rule.Registers fun narrowing => narrowing.limit? = none)
    (shared : ∀ owner ∈ owners, owner.binding.restriction = restriction)
    (integral : ∀ owner ∈ owners, ∀ key, assoc.ownerKey owner.row owner.model.table = some key →
      key.isIntegral = true) :
    let fetched (owner : Guarded S MemoryQuery) :=
      ((Relation.fetch site).startFrom (assoc.forOwner owner) trust).1.1
    let preloaded := ((preload assoc site owners).startFrom trust).1
    preloaded = owners.mapM fetched ∧
      ((∀ subject, restriction = .bound subject → trust.isActive = false →
          ∃ perms, ((site.evaluate assoc.target subject none).startFrom trust).1 = .ok perms) →
        ∃ lists, preloaded = .ok lists ∧
          List.Forall₂ (fun owner list => fetched owner = .ok list ∧
            ∀ record ∈ list, record.binding = .fresh restriction) owners lists) := by
  intro fetched preloaded
  -- Without owners there is nobody to ask for.
  rcases owners with - | ⟨first, rest⟩
  · exact ⟨rfl, fun _ => ⟨[], rfl, .nil⟩⟩
  have bound := shared first List.mem_cons_self
  rcases Site.confines_or_panics registers restriction trust with
    ⟨confinement, confines, unlimited⟩ | ⟨subject, panic, rfl, untrusted, panicked⟩
  · -- Each owner's share of the loaded rows is what is fetched for it.
    have all := mapM_fetch_of_confines stored shared confines
    have loads : preloaded = (first :: rest).mapM fetched := by
      refine (startFrom_preload stored (bound.symm ▸ confines)).trans (Eq.trans ?_ all.symm)
      refine congrArg Except.ok (List.map_congr_left fun owner mem => ?_)
      rw [rowsOf_eq, ← loaded_eq_fetched unlimited fun row _ belongs =>
        narrowingAll_of_narrowing integral mem belongs]
      rfl
    refine ⟨loads, fun _ => ⟨_, loads.trans all, ?_⟩⟩
    rw [List.forall₂_map_right_iff, List.forall₂_same]
    intro owner mem
    have restricted := shared owner mem
    refine ⟨fetch_forOwner stored (restricted.symm ▸ confines), fun record isRecord => ?_⟩
    obtain ⟨row, -, rfl⟩ := List.mem_map.mp isRecord
    exact congrArg Binding.fresh restricted
  · -- Batch and single queries ask for the same subject first, so that both panic alike.
    refine ⟨?_, fun evaluates => ?_⟩
    · have loads : preloaded = .error panic := startFrom_preload_of_panic bound untrusted panicked
      have fetches : fetched first = .error panic :=
        fetch_forOwner_of_panic bound untrusted panicked
      rw [loads, List.mapM_cons, fetches]
      rfl
    · obtain ⟨perms, evaluated⟩ := evaluates subject rfl untrusted
      cases panicked.symm.trans evaluated

/-- Of Alice's dummies one is given twice and one has no key; all get the fluffies that are fetched
for them. -/
theorem preload_eq_mapM_fluffies :
    let memory : Memory :=
      { tables := [("fluffies", [fluffy 10 1 "alice", fluffy 11 1 "bob", fluffy 12 2 "alice"])] }
    let site := ownFluffies memory
    let unsaved : Guarded String MemoryQuery :=
      Guarded.inheriting (dummy 1 "alice").model (Row.new []) (.bound "alice")
    let owners := [dummy 1 "alice", unsaved, dummy 2 "alice", dummy 1 "alice"]
    let fetched (owner : Guarded String MemoryQuery) :=
      ((Relation.fetch site).startFrom (fluffiesOfDummy.forOwner owner) {}).1.1
    ∃ lists, ((fluffiesOfDummy.preload site owners).startFrom {}).1 = .ok lists ∧
      owners.mapM fetched = .ok lists ∧
      lists.map (List.map Guarded.row) =
        [[fluffy 10 1 "alice"], [], [fluffy 12 2 "alice"], [fluffy 10 1 "alice"]] := by
  intro memory site unsaved owners fetched
  have rules : site.book.rules fluffiesOfDummy.target.rules =
      [.subject fun user => .narrow fun query =>
        query.narrowBy [.hasValue "owner" (.string user)]] := RuleBook.rules_of_root rfl
  have registers : ∀ rule ∈ site.book.rules fluffiesOfDummy.target.rules,
      rule.Registers fun narrowing => narrowing.limit? = none := by
    rw [rules]
    intro rule mem
    cases List.mem_singleton.mp mem
    refine fun subject _ => ⟨⟨_, rfl, fun narrowing isOwner => ?_⟩, trivial⟩
    cases List.mem_singleton.mp isOwner
    rfl
  have shared : ∀ owner ∈ owners, owner.binding.restriction = .bound "alice" := by
    simp [owners, unsaved, dummy, Guarded.inheriting, Binding.fresh]
  obtain ⟨same, loads⟩ := preload_eq_mapM memory fluffiesOfDummy owners (.bound "alice") {} rfl
    registers shared (by decide)
  have evaluates : ∀ user, Restriction.bound "alice" = .bound user → Trust.isActive {} = false →
      ∃ perms, ((site.evaluate fluffiesOfDummy.target user none).startFrom {}).1 = .ok perms := by
    intro user _ _
    rw [Site.evaluate_of_rules rules]
    exact ⟨_, rfl⟩
  obtain ⟨lists, loaded, -⟩ := loads evaluates
  refine ⟨lists, loaded, same.symm.trans loaded, ?_⟩
  cases (startFrom_preload rfl (confines_ownFluffies memory "alice")).symm.trans loaded
  rfl

end Batch

end Association

end Warden
