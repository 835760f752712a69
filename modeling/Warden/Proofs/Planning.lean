import Warden.Association.Loading
import Warden.Proofs.Enforcement
import Warden.Proofs.Memory.Preloading
import Warden.Proofs.Merging
/-! # Planning what is loaded along
A plan says of every association of a relation whether its rows are read together with the rows of
the relation or on their own. It **sorts** the associations (`LoadPlan.Sorts`): each is listed once,
and both parts keep the order. What is read on its own is read within the scope of its target, and
what is joined is read without; so an association may be joined only if the scope of its target
changes nothing (`Association.Joinable`).

Whether rows are confined and what confines them are asked of the permissions in two different ways.
They **agree**: the associations that a plan joins are joinable (`Relation.loadPlan_sorts`). -/

namespace Warden

/-! ## Sorting associations -/

namespace LoadPlan

/-- A plan **sorts** associations by a test: those that pass it are read on their own. -/
structure Sorts (plan : LoadPlan) (apart : Association → Bool) (assocs : List Association) :
    Prop where
  /-- The others are joined, in their order. -/
  joined : plan.joined = (assocs.filter fun assoc => !apart assoc).map Association.name
  /-- Those that pass keep their order, too. -/
  preloaded : plan.preloaded = (assocs.filter apart).map Association.name

variable {plan : LoadPlan} {apart : Association → Bool} {assocs : List Association}

/-- Every association is listed **once**, in one of the two parts. -/
theorem Sorts.perm (sorts : plan.Sorts apart assocs) :
    (plan.joined ++ plan.preloaded).Perm (assocs.map Association.name) := by
  rw [sorts.joined, sorts.preloaded, ← List.map_append]
  exact (List.perm_append_comm.trans (List.filter_append_perm apart assocs)).map _

/-- Without associations there is nothing to plan. -/
theorem sorts_nil (apart : Association → Bool) : ({} : LoadPlan).Sorts apart [] := ⟨rfl, rfl⟩

/-- One more association in front that is read on its own. -/
theorem Sorts.preload {assoc : Association} (sorts : plan.Sorts apart assocs)
    (passes : apart assoc = true) :
    { plan with preloaded := assoc.name :: plan.preloaded }.Sorts apart (assoc :: assocs) := by
  constructor
  · rw [List.filter_cons_of_neg (by simp [passes])]
    exact sorts.joined
  · rw [List.filter_cons_of_pos passes, List.map_cons, ← sorts.preloaded]

/-- One more association in front that is joined. -/
theorem Sorts.join {assoc : Association} (sorts : plan.Sorts apart assocs)
    (fails : apart assoc = false) :
    { plan with joined := assoc.name :: plan.joined }.Sorts apart (assoc :: assocs) := by
  constructor
  · rw [List.filter_cons_of_pos (by simp [fails]), List.map_cons, ← sorts.joined]
  · rw [List.filter_cons_of_neg (by simp [fails])]
    exact sorts.preloaded

end LoadPlan

/-! ## Targets and their scopes -/

/-- Rows are confined iff the table is paranoid or a scope is registered. -/
theorem Permissions.isScoped_iff {Q : Type} {perms : Permissions Q} :
    perms.isScoped = true ↔ perms.paranoid = true ∨ perms.scopes ≠ [] := by
  rw [isScoped, Bool.or_eq_true, Bool.not_eq_true', List.isEmpty_eq_false_iff]

namespace Site

variable {S Q : Type} [Query Q] {site : Site S Q} {model : Model} {subject : S} {trust : Trust}

/-- Asking whether rows are confined asks the permissions. -/
theorem isScopedFor_eq (site : Site S Q) (model : Model) (subject : S) :
    site.isScopedFor model subject =
      Permissions.isScoped <$> site.evaluate model subject none := by
  rw [isScopedFor, map_eq_pure_bind]

/-- Narrowing a query applies the permissions. -/
theorem scopeFor_eq (site : Site S Q) (model : Model) (subject : S) (query : Q) :
    site.scopeFor model subject query =
      (fun perms => perms.applyTo query) <$> site.evaluate model subject none := by
  rw [scopeFor, map_eq_pure_bind]

/-- Where the permissions confine no rows, a query is **not changed** by narrowing it. -/
theorem scopeFor_of_free {perms : Permissions Q}
    (evaluated : ((site.evaluate model subject none).startFrom trust).1 = .ok perms)
    (free : perms.isScoped = false) (query : Q) :
    (site.scopeFor model subject query).startFrom trust = (.ok query, trust) := by
  rw [scopeFor_eq, (site.steady_evaluate model subject none).startFrom_map, evaluated]
  exact congrArg (fun narrowed => (Except.ok narrowed, trust))
    (Query.MergesNarrowings.applyTo_of_free free query)

end Site

namespace Association

variable {S Q : Type} [Query Q] {site : Site S Q} {subject : S} {trust : Trust}
  {assoc : Association}

/-- The query of all rows that belong to owners, whoever sees them. -/
def ofOwners (assoc : Association) (owners : List (Guarded S Q)) : Q :=
  Query.filterIn (Query.base assoc.target.table) assoc.targetField (assoc.ownerKeys owners)

/-- An association is **joinable** for a subject if its target may be read without regard to scopes:
every query over the target stays as it is, and loading the rows of owners that are bound to the
subject gives every owner all the rows that belong to it. -/
structure Joinable (site : Site S Q) (trust : Trust) (subject : S) (assoc : Association) :
    Prop where
  /-- Nothing is narrowed. -/
  narrowsNothing : ∀ query,
    (site.scopeFor assoc.target subject query).startFrom trust = (.ok query, trust)
  /-- No row is hidden. -/
  hidesNothing : ∀ owners : List (Guarded S Q),
    (∀ owner ∈ owners, owner.binding.restriction = .bound subject) →
      (assoc.preload site owners).startFrom trust =
        (.ok (owners.map (assoc.rowsOf (site.store.fetch (assoc.ofOwners owners)))), trust)

/-- Where nothing is narrowed, no row is hidden either. -/
theorem joinable_of_open (untrusted : trust.isActive = false)
    (free : ∀ query, (site.scopeFor assoc.target subject query).startFrom trust =
      (.ok query, trust)) : assoc.Joinable site trust subject := by
  refine ⟨free, fun owners bound => ?_⟩
  rcases owners with - | ⟨first, rest⟩
  · rfl
  · have isTrusted : Run.isTrusted.startFrom trust = (.ok trust.isActive, trust) := rfl
    unfold preload
    dsimp only
    rw [bound first List.mem_cons_self]
    dsimp only
    rw [Run.startFrom_bind, isTrusted, untrusted]
    dsimp only
    rw [if_neg Bool.false_ne_true, Run.startFrom_bind, free]
    rfl

end Association

/-! ## The plan -/

namespace Relation

variable {S Q : Type} [Query Q] {site : Site S Q} {subject : S} {trust : Trust}

/-- Whether an association is read on its own, as far as its target can be asked. -/
def isApart (site : Site S Q) (trust : Trust) (subject : S) (assoc : Association) : Bool :=
  match ((site.isScopedFor assoc.target subject).startFrom trust).1 with
  | .ok confined => confined
  | .error _ => false

/-- **Planning** asks one target after the other. It panics as soon as one of them does, and sorts
the associations otherwise. -/
theorem startFrom_planFor (site : Site S Q) (subject : S) (trust : Trust)
    (assocs : List Association) :
    (∃ before assoc after panic, assocs = before ++ assoc :: after ∧
      (∀ earlier ∈ before, ∃ perms,
        ((site.evaluate earlier.target subject none).startFrom trust).1 = .ok perms) ∧
      ((site.evaluate assoc.target subject none).startFrom trust).1 = .error panic ∧
      (planFor site subject assocs).startFrom trust = (.error panic, trust)) ∨
    ∃ plan, (planFor site subject assocs).startFrom trust = (.ok plan, trust) ∧
      plan.Sorts (isApart site trust subject) assocs ∧
      ∀ assoc ∈ assocs, ∃ perms,
        ((site.evaluate assoc.target subject none).startFrom trust).1 = .ok perms ∧
          isApart site trust subject assoc = perms.isScoped := by
  induction assocs with
  | nil => exact .inr ⟨{}, rfl, LoadPlan.sorts_nil _, List.forall_mem_nil _⟩
  | cons assoc rest ih =>
    have asked : (site.isScopedFor assoc.target subject).startFrom trust =
        (((site.evaluate assoc.target subject none).startFrom trust).1.map Permissions.isScoped,
          trust) := by
      rw [Site.isScopedFor_eq, (site.steady_evaluate _ _ _).startFrom_map]
    have isApart_eq : isApart site trust subject assoc = match
        ((site.evaluate assoc.target subject none).startFrom trust).1.map Permissions.isScoped with
          | .ok confined => confined
          | .error _ => false := by
      rw [isApart, asked]
    rw [planFor, Run.startFrom_bind, asked]
    cases evaluated : ((site.evaluate assoc.target subject none).startFrom trust).1 with
    | error panic => exact .inl ⟨[], assoc, rest, panic, rfl, List.forall_mem_nil _, evaluated, rfl⟩
    | ok perms =>
      rw [evaluated] at isApart_eq
      have test : isApart site trust subject assoc = perms.isScoped := isApart_eq
      show _ ∨ ∃ plan, (planFor site subject rest >>= _).startFrom trust = _ ∧ _
      rcases ih with ⟨before, other, after, panic, rfl, earlier, panicked, stops⟩ |
        ⟨plan, plans, sorts, each⟩
      · refine .inl ⟨assoc :: before, other, after, panic, rfl,
          List.forall_mem_cons.mpr ⟨⟨perms, evaluated⟩, earlier⟩, panicked, ?_⟩
        show (planFor site subject _ >>= _).startFrom trust = _
        rw [Run.startFrom_bind, stops]
      · refine .inr ?_
        rw [Run.startFrom_bind, plans]
        have all : ∀ other ∈ assoc :: rest, ∃ perms,
            ((site.evaluate other.target subject none).startFrom trust).1 = .ok perms ∧
              isApart site trust subject other = perms.isScoped :=
          List.forall_mem_cons.mpr ⟨⟨perms, evaluated, test⟩, each⟩
        cases confined : perms.isScoped with
        | true => exact ⟨_, rfl, sorts.preload (test.trans confined), all⟩
        | false => exact ⟨_, rfl, sorts.join (test.trans confined), all⟩

/-- **A plan is complete and safe.** Where permissions are not enforced, all associations are joined.
Where they are, the plan lists every association once, in one of two parts that keep the order: it
is read on its own just if its target is paranoid or registers a scope for the subject, and an
association that is joined may be, since no scope would hide any of its rows. There is no plan only
if the rules of a target panic, the first such target deciding. -/
theorem loadPlan_sorts (site : Site S Q) (rel : Relation S Q) (trust : Trust) :
    (rel.binding.restriction = .unbound ∨ trust.isActive = true →
      (rel.loadPlan site).startFrom trust =
        (.ok { joined := rel.includes.map Association.name, preloaded := [] }, trust)) ∧
    ∀ subject, rel.binding.restriction = .bound subject → trust.isActive = false →
      (∃ before assoc after panic, rel.includes = before ++ assoc :: after ∧
        (∀ earlier ∈ before, ∃ perms,
          ((site.evaluate earlier.target subject none).startFrom trust).1 = .ok perms) ∧
        ((site.evaluate assoc.target subject none).startFrom trust).1 = .error panic ∧
        (rel.loadPlan site).startFrom trust = (.error panic, trust)) ∨
      ∃ plan apart, (rel.loadPlan site).startFrom trust = (.ok plan, trust) ∧
        plan.Sorts apart rel.includes ∧
        (plan.joined ++ plan.preloaded).Perm (rel.includes.map Association.name) ∧
        ∀ assoc ∈ rel.includes, ∃ perms,
          ((site.evaluate assoc.target subject none).startFrom trust).1 = .ok perms ∧
          (apart assoc = true ↔
            assoc.target.isParanoid site.config = true ∨ perms.scopes ≠ []) ∧
          (apart assoc = false → assoc.Joinable site trust subject) := by
  constructor
  · intro free
    rw [loadPlan]
    cases bound : rel.binding.restriction with
    | unbound => rfl
    | bound subject =>
      rcases free with unbound | trusted
      · cases bound.symm.trans unbound
      · have isTrusted : Run.isTrusted.startFrom trust = (.ok trust.isActive, trust) := rfl
        dsimp only
        rw [Run.startFrom_bind, isTrusted, trusted]
        rfl
  · intro subject bound untrusted
    have plans : (rel.loadPlan site).startFrom trust =
        (planFor site subject rel.includes).startFrom trust := by
      have isTrusted : Run.isTrusted.startFrom trust = (.ok trust.isActive, trust) := rfl
      rw [loadPlan, bound]
      dsimp only
      rw [Run.startFrom_bind, isTrusted, untrusted]
      rfl
    rw [plans]
    refine (startFrom_planFor site subject trust rel.includes).imp_right ?_
    rintro ⟨plan, planned, sorts, each⟩
    refine ⟨plan, isApart site trust subject, planned, sorts, sorts.perm, fun assoc mem => ?_⟩
    obtain ⟨perms, evaluated, test⟩ := each assoc mem
    have paranoid : perms.paranoid = assoc.target.isParanoid site.config :=
      congrArg (fun frame => frame.2.2) (Site.frame_of_evaluate evaluated)
    refine ⟨perms, evaluated, ?_, fun joined => ?_⟩
    · rw [test, Permissions.isScoped_iff, paranoid]
    · exact Association.joinable_of_open untrusted
        (Site.scopeFor_of_free evaluated (test.symm.trans joined))

/-- Dummies are loaded with their tags, which nobody confines, and with their fluffies, of which
every user sees their own: the tags may be joined. -/
theorem loadPlan_sorts_fluffies :
    let site := Association.ownFluffies {}
    let tags : Association :=
      { name := "tags", kind := .hasMany, foreignKey := "dummy_id"
        target := { table := Table.withFields "tags" ["dummy_id"], rules := 1 } }
    let rel : Relation String MemoryQuery :=
      ((ofSubject { table := Table.withFields "dummies" [], rules := 1 } "alice").including
        Association.fluffiesOfDummy).including tags
    ((rel.binding.restriction = .bound "alice") ∧ ({} : Trust).isActive = false) ∧
    (rel.loadPlan site).startFrom {} =
      (.ok { joined := ["tags"], preloaded := ["fluffies"] }, {}) ∧
    tags.Joinable site {} "alice" := by
  intro site tags rel
  have ruled : site.book.rules Association.fluffiesOfDummy.target.rules =
      [.subject fun user => .narrow fun query =>
        query.narrowBy [.hasValue "owner" (.string user)]] := RuleBook.rules_of_root rfl
  have unruled : site.book.rules tags.target.rules = [] := by
    rw [RuleBook.rules]
    rfl
  have planned : (rel.loadPlan site).startFrom {} =
      (.ok { joined := ["tags"], preloaded := ["fluffies"] }, {}) := by
    show (planFor site "alice" [Association.fluffiesOfDummy, tags]).startFrom {} = _
    rw [planFor, planFor, planFor, Site.isScopedFor, Site.isScopedFor, Site.evaluate_of_rules ruled,
      Site.evaluate_of_rules unruled]
    rfl
  have bound : rel.binding.restriction = .bound "alice" := rfl
  refine ⟨⟨bound, rfl⟩, planned, ?_⟩
  rcases (loadPlan_sorts site rel {}).2 "alice" bound rfl with
    ⟨_, _, _, _, -, -, -, panics⟩ | ⟨plan, apart, plans, sorts, -, each⟩
  · cases planned.symm.trans panics
  · cases planned.symm.trans plans
    obtain ⟨perms, evaluated, test, joinable⟩ :=
      each tags (List.mem_cons_of_mem _ List.mem_cons_self)
    rw [Site.evaluate_of_rules unruled] at evaluated
    cases evaluated
    -- no rule has registered a scope, and tags are not paranoid
    exact joinable (Bool.eq_false_iff.mpr fun passes =>
      (test.mp passes).elim Bool.false_ne_true fun registers => registers rfl)

end Relation

end Warden
