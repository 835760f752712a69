import Warden.Proofs.Evaluation
import Warden.Relation.Reading
/-! # Enforcing what is known
How an object finds the permissions to enforce. Where permissions are **in force**, enforcing them
is asking for them (`Binding.startFrom_enforced`); else there is nothing to enforce. Permissions
that were found once stay with the object, so that asking again gives the same answer without
another evaluation (`Binding.permissions_again`). The same holds for relations and for guarded
records, which differ from a binding only in what they evaluate. -/

namespace Warden

namespace Restriction

variable {S : Type} {restriction : Restriction S} {trust : Trust}

/-- Outside trusted execution permissions are in force for every subject. -/
theorem isEnforced_of_bound {subject : S} (bound : restriction = .bound subject)
    (untrusted : trust.isActive = false) : restriction.isEnforced trust = true := by
  subst bound
  show (true && !trust.isActive) = true
  rw [untrusted]
  rfl

/-- Permissions are in force outside trusted execution only. -/
theorem untrusted_of_isEnforced (inForce : restriction.isEnforced trust = true) :
    trust.isActive = false := by
  rw [← Bool.not_eq_true']
  exact (Bool.and_eq_true_iff.mp inForce).2

/-- They are in force for a subject. -/
theorem bound_of_isEnforced (inForce : restriction.isEnforced trust = true) :
    ∃ subject, restriction = .bound subject := by
  cases restriction with
  | unbound => cases inForce
  | bound subject => exact ⟨subject, rfl⟩

/-- Without a subject, or in trusted execution, they are not. -/
theorem isEnforced_of_free (free : restriction = .unbound ∨ trust.isActive = true) :
    restriction.isEnforced trust = false := by
  rcases free with rfl | trusted
  · rfl
  · rw [isEnforced, trusted, Bool.not_true, Bool.and_false]

end Restriction

namespace Binding

variable {S Q : Type} {evaluate : S → Run (Permissions Q)} {binding : Binding S Q} {trust : Trust}

/-- Permissions that are known are not worked out again. -/
theorem permissions_of_known {perms : Permissions Q} (bound : binding.restriction.hasSubject = true)
    (known : binding.memo = some perms) :
    (permissions evaluate).startFrom binding trust = ((.ok (.ok perms), binding), trust) := by
  obtain ⟨restriction, memo⟩ := binding
  cases restriction with
  | unbound => cases bound
  | bound subject =>
    cases known
    rfl

/-- Nobody's permissions are an error. -/
theorem permissions_of_unbound (unbound : binding.restriction = .unbound) :
    (permissions evaluate).startFrom binding trust =
      ((.ok (.error .unprotectedAccess), binding), trust) := by
  obtain ⟨restriction, memo⟩ := binding
  cases unbound
  rfl

/-- Permissions that are not known are worked out and kept. -/
theorem permissions_of_unknown {subject : S} (unknown : binding.memo = none)
    (bound : binding.restriction = .bound subject) :
    (permissions evaluate).startFrom binding trust =
      match (evaluate subject).startFrom trust with
      | (.ok perms, after) => ((.ok (.ok perms), { binding with memo := some perms }), after)
      | (.error panic, after) => ((.error panic, binding), after) := by
  obtain ⟨restriction, memo⟩ := binding
  cases unknown
  cases bound
  unfold permissions
  rw [RunOn.startFrom_bind, RunOn.startFrom_object]
  show (Run.beside (evaluate subject) >>= fun perms => _).startFrom _ trust = _
  rw [RunOn.startFrom_bind, RunOn.startFrom_beside]
  rcases (evaluate subject).startFrom trust with ⟨_ | perms, after⟩ <;> rfl

/-- A fresh binding finds what a steady evaluation for its subject comes to. -/
theorem permissions_of_fresh {subject : S} {perms : Permissions Q}
    (fresh : binding = .fresh (.bound subject)) (steady : (evaluate subject).Steady)
    (evaluated : ((evaluate subject).startFrom trust).1 = .ok perms) :
    (permissions evaluate).startFrom binding trust =
      ((.ok (.ok perms), { binding with memo := some perms }), trust) := by
  subst fresh
  rw [permissions_of_unknown rfl rfl, steady.startFrom_eq, evaluated]

/-- Asking for somebody's permissions finds some or panics. -/
theorem permissions_of_bound (bound : binding.restriction.hasSubject = true) :
    ∃ answer : Except Panic (Permissions Q),
      ((permissions evaluate).startFrom binding trust).1.1 = answer.map .ok := by
  cases restriction : binding.restriction with
  | unbound =>
    rw [restriction] at bound
    cases bound
  | bound subject =>
    cases known : binding.memo with
    | some perms =>
      rw [permissions_of_known bound known]
      exact ⟨.ok perms, rfl⟩
    | none =>
      rw [permissions_of_unknown known restriction]
      rcases (evaluate subject).startFrom trust with ⟨panic | perms, after⟩
      · exact ⟨.error panic, rfl⟩
      · exact ⟨.ok perms, rfl⟩

/-- Permissions that were found are a subject's, and are known afterwards. -/
theorem known_of_found {left : Binding S Q} {perms : Permissions Q} {after : Trust}
    (found : (permissions evaluate).startFrom binding trust = ((.ok (.ok perms), left), after)) :
    left.restriction.hasSubject = true ∧ left.memo = some perms := by
  cases bound : binding.restriction with
  | unbound =>
    rw [permissions_of_unbound bound] at found
    cases found
  | bound subject =>
    cases known : binding.memo with
    | some stored =>
      rw [permissions_of_known (by rw [bound]; rfl) known] at found
      cases found
      exact ⟨by rw [bound]; rfl, known⟩
    | none =>
      rw [permissions_of_unknown known bound] at found
      rcases result : (evaluate subject).startFrom trust with ⟨panic | stored, between⟩
      · rw [result] at found
        cases found
      · rw [result] at found
        cases found
        exact ⟨by rw [bound]; rfl, rfl⟩

/-- Permissions that were found stay: they are what any later question finds. -/
theorem permissions_again {left : Binding S Q} {perms : Permissions Q} {after later : Trust}
    (found : (permissions evaluate).startFrom binding trust = ((.ok (.ok perms), left), after)) :
    (permissions evaluate).startFrom left later = ((.ok (.ok perms), left), later) := by
  obtain ⟨bound, known⟩ := known_of_found found
  exact permissions_of_known bound known

/-- What is known after asking for permissions was known before or has just been worked out. -/
theorem memo_permissions {subject : S} (bound : binding.restriction = .bound subject)
    {perms : Permissions Q}
    (known : ((permissions evaluate).startFrom binding trust).1.2.memo = some perms) :
    binding.memo = some perms ∨ ((evaluate subject).startFrom trust).1 = .ok perms := by
  cases before : binding.memo with
  | some stored =>
    rw [permissions_of_known (by rw [bound]; rfl) before, before] at known
    exact .inl known
  | none =>
    rw [permissions_of_unknown before bound] at known
    rcases result : (evaluate subject).startFrom trust with ⟨panic | stored, after⟩
    · rw [result] at known
      cases before.symm.trans known
    · rw [result] at known
      cases known
      exact .inr rfl

/-- Asking for permissions does not change whom an object is bound to. -/
theorem restriction_permissions :
    ((permissions evaluate).startFrom binding trust).1.2.restriction = binding.restriction := by
  cases bound : binding.restriction with
  | unbound => rw [permissions_of_unbound bound, bound]
  | bound subject =>
    cases known : binding.memo with
    | some stored => rw [permissions_of_known (by rw [bound]; rfl) known, bound]
    | none =>
      rw [permissions_of_unknown known bound]
      rcases (evaluate subject).startFrom trust with ⟨panic | perms, after⟩ <;> exact bound

/-- A panic while asking for permissions is one of working them out. -/
theorem evaluate_of_panic {subject : S} {panic : Panic}
    (bound : binding.restriction = .bound subject)
    (panicked : ((permissions evaluate).startFrom binding trust).1.1 = .error panic) :
    ((evaluate subject).startFrom trust).1 = .error panic := by
  cases known : binding.memo with
  | some perms =>
    rw [permissions_of_known (by rw [bound]; rfl) known] at panicked
    cases panicked
  | none =>
    rw [permissions_of_unknown known bound] at panicked
    rcases result : (evaluate subject).startFrom trust with ⟨other | perms, after⟩
    · rw [result] at panicked
      cases panicked
      rfl
    · rw [result] at panicked
      cases panicked

/-- Where permissions are in force, they are the subject's. -/
theorem startFrom_enforced (inForce : binding.restriction.isEnforced trust = true) :
    (enforced evaluate).startFrom binding trust =
      let asked := (permissions evaluate).startFrom binding trust
      ((asked.1.1.map Except.toOption, asked.1.2), asked.2) := by
  unfold enforced
  rw [RunOn.startFrom_bind, RunOn.startFrom_object]
  dsimp only
  rw [RunOn.startFrom_bind, RunOn.startFrom_beside, Run.startFrom_trust]
  dsimp only
  rw [if_pos inForce, RunOn.startFrom_bind]
  rcases (permissions evaluate).startFrom binding trust with ⟨⟨panic | answer, left⟩, after⟩
  · rfl
  · cases answer <;> rfl

/-- Where permissions are in force, enforcing them finds some or panics, and what was found is found
again. -/
theorem enforced_of_inForce (steady : ∀ subject, (evaluate subject).Steady)
    (inForce : binding.restriction.isEnforced trust = true) :
    (∃ panic left, (enforced evaluate).startFrom binding trust = ((.error panic, left), trust)) ∨
      ∃ perms left,
        (permissions evaluate).startFrom binding trust = ((.ok (.ok perms), left), trust) ∧
        (enforced evaluate).startFrom binding trust = ((.ok (some perms), left), trust) ∧
        (enforced evaluate).startFrom left trust = ((.ok (some perms), left), trust) := by
  obtain ⟨answer, answered⟩ : ∃ answer : Except Panic (Permissions Q),
      ((permissions evaluate).startFrom binding trust).1.1 = answer.map .ok :=
    permissions_of_bound (Bool.and_eq_true_iff.mp inForce).1
  have same : ((permissions evaluate).startFrom binding trust).1.2.restriction
      = binding.restriction := restriction_permissions
  generalize kept : ((permissions evaluate).startFrom binding trust).1.2 = left at same
  have asked : (permissions evaluate).startFrom binding trust = ((answer.map .ok, left), trust) :=
    Prod.ext (Prod.ext answered kept) (steady_permissions steady _ _)
  rw [startFrom_enforced inForce, asked]
  cases answer with
  | error panic => exact .inl ⟨panic, left, rfl⟩
  | ok perms =>
    refine .inr ⟨perms, left, rfl, rfl, ?_⟩
    rw [← same] at inForce
    rw [startFrom_enforced inForce, permissions_again asked]
    rfl

/-- Elsewhere there is nothing to enforce. -/
theorem startFrom_enforced_of_not (free : binding.restriction.isEnforced trust = false) :
    (enforced evaluate).startFrom binding trust = ((.ok none, binding), trust) := by
  unfold enforced
  rw [RunOn.startFrom_bind, RunOn.startFrom_object]
  dsimp only
  rw [RunOn.startFrom_bind, RunOn.startFrom_beside, Run.startFrom_trust]
  dsimp only
  rw [free]
  rfl

end Binding

/-! ## Relations -/

/-- A query with the rows that permissions confine it to merged in, where they confine it. -/
def Permissions.confine {Q : Type} [Query Q] (perms : Permissions Q) (query : Q) : Q :=
  match perms.relation with
  | .none => query
  | some scope => Query.merge query scope

namespace Relation

variable {S Q : Type} [Query Q] {site : Site S Q} {rel : Relation S Q} {trust : Trust}

/-- A relation asks its binding. -/
theorem startFrom_enforced :
    (enforced site).startFrom rel trust =
      let asked := (Binding.enforced fun subject => site.evaluate rel.model subject none).startFrom
        rel.binding trust
      ((asked.1.1, { rel with binding := asked.1.2 }), asked.2) := rfl

/-- A relation asks its binding. -/
theorem startFrom_permissions :
    (permissions site).startFrom rel trust =
      let asked := (Binding.permissions fun subject =>
        site.evaluate rel.model subject none).startFrom rel.binding trust
      ((asked.1.1, { rel with binding := asked.1.2 }), asked.2) := rfl

/-- What a relation was told, its binding was told. -/
theorem binding_permissions {answer : Except Panic (Except Error (Permissions Q))}
    {left : Relation S Q} {after : Trust}
    (asked : (permissions site).startFrom rel trust = ((answer, left), after)) :
    (Binding.permissions fun subject => site.evaluate rel.model subject none).startFrom
      rel.binding trust = ((answer, left.binding), after) := by
  rw [startFrom_permissions] at asked
  cases asked
  rfl

/-- Where permissions are in force, a relation finds some or panics. What it finds it will find
again, and the relation differs in nothing but what is known. -/
theorem enforced_of_inForce (site : Site S Q)
    (inForce : rel.binding.restriction.isEnforced trust = true) :
    (∃ panic left, (enforced site).startFrom rel trust = ((.error panic, left), trust)) ∨
      ∃ perms binding,
        (permissions site).startFrom rel trust = ((.ok (.ok perms), { rel with binding }), trust) ∧
        (enforced site).startFrom rel trust = ((.ok (some perms), { rel with binding }), trust) ∧
        (enforced site).startFrom { rel with binding } trust =
          ((.ok (some perms), { rel with binding }), trust) := by
  rcases Binding.enforced_of_inForce (fun subject => site.steady_evaluate rel.model subject none)
    inForce with ⟨panic, left, panicked⟩ | ⟨perms, left, found, enforced, again⟩
  · refine .inl ⟨panic, { rel with binding := left }, ?_⟩
    rw [startFrom_enforced, panicked]
  · refine .inr ⟨perms, left, ?_, ?_, ?_⟩
    · rw [startFrom_permissions, found]
    · rw [startFrom_enforced, enforced]
    · rw [startFrom_enforced, again]

/-- A relation that was bound afresh enforces what the evaluation for its subject comes to. -/
theorem enforced_of_fresh {subject : S} {perms : Permissions Q}
    (fresh : rel.binding = .fresh (.bound subject)) (untrusted : trust.isActive = false)
    (evaluated : ((site.evaluate rel.model subject none).startFrom trust).1 = .ok perms) :
    (enforced site).startFrom rel trust =
      ((.ok (some perms), { rel with binding := { rel.binding with memo := some perms } }),
        trust) := by
  have inForce : rel.binding.restriction.isEnforced trust = true :=
    Restriction.isEnforced_of_bound (by rw [fresh]; rfl) untrusted
  have steady := site.steady_evaluate rel.model subject none
  rw [startFrom_enforced, Binding.startFrom_enforced inForce,
    Binding.permissions_of_fresh fresh steady evaluated]
  rfl

/-- The query that is carried out where permissions are enforced. -/
theorem restrictedQuery_of_enforced {perms : Permissions Q} {left : Relation S Q} {after : Trust}
    (known : (enforced site).startFrom rel trust = ((.ok (some perms), left), after)) :
    (restrictedQuery site).startFrom rel trust = ((.ok (perms.confine rel.query), left), after) := by
  unfold restrictedQuery restrictedQueryBy
  rw [RunOn.startFrom_bind, RunOn.startFrom_object]
  dsimp only
  rw [RunOn.startFrom_bind, show enforcedBy site.evaluate = enforced site from rfl, known]
  dsimp only
  rw [Permissions.confine]
  cases perms.relation <;> rfl

/-- What is fetched where permissions are enforced: the rows of the confined query, in their
order, each as a record of the same subject. -/
theorem fetch_of_enforced {perms : Permissions Q} {left : Relation S Q} {after : Trust}
    (known : (enforced site).startFrom rel trust = ((.ok (some perms), left), after)) :
    (fetch site).startFrom rel trust =
      ((.ok ((site.store.fetch (perms.confine rel.query)).map fun row =>
        Guarded.inheriting left.model row left.binding.restriction), left), after) := by
  unfold fetch
  rw [RunOn.startFrom_bind, restrictedQuery_of_enforced known]
  rfl

/-- Where permissions are not in force, there is nothing to enforce. -/
theorem enforced_of_not_inForce (free : rel.binding.restriction.isEnforced trust = false) :
    (enforced site).startFrom rel trust = ((.ok none, rel), trust) := by
  rw [startFrom_enforced, Binding.startFrom_enforced_of_not free]

/-- The query that is carried out where nothing is enforced. -/
theorem restrictedQuery_of_not_inForce
    (free : rel.binding.restriction.isEnforced trust = false) :
    (restrictedQuery site).startFrom rel trust = ((.ok rel.query, rel), trust) := by
  unfold restrictedQuery restrictedQueryBy
  rw [RunOn.startFrom_bind, RunOn.startFrom_object]
  dsimp only
  rw [RunOn.startFrom_bind, show enforcedBy site.evaluate = enforced site from rfl,
    enforced_of_not_inForce free]
  rfl

/-- What is fetched where nothing is enforced: the rows of the relation's own query. -/
theorem fetch_of_not_inForce (free : rel.binding.restriction.isEnforced trust = false) :
    (fetch site).startFrom rel trust =
      ((.ok ((site.store.fetch rel.query).map fun row =>
        Guarded.inheriting rel.model row rel.binding.restriction), rel), trust) := by
  unfold fetch
  rw [RunOn.startFrom_bind, restrictedQuery_of_not_inForce free]
  rfl

/-- What is counted where permissions are enforced. -/
theorem count_of_enforced {perms : Permissions Q} {left : Relation S Q} {after : Trust}
    (known : (enforced site).startFrom rel trust = ((.ok (some perms), left), after)) :
    (count site).startFrom rel trust =
      ((.ok ((site.store.count (perms.confine rel.query)).getD 0), left), after) := by
  unfold count countBy
  rw [RunOn.startFrom_bind, show restrictedQueryBy site.evaluate = restrictedQuery site from rfl,
    restrictedQuery_of_enforced known]
  rfl

end Relation

/-! ## Guarded records -/

namespace Guarded

variable {S Q : Type} [Query Q] {site : Site S Q} {record : Guarded S Q} {trust : Trust}

/-- A record asks its binding. -/
theorem startFrom_permissions :
    (permissions site).startFrom record trust =
      let asked := (Binding.permissions fun subject =>
        site.evaluate record.model subject (some record.row)).startFrom record.binding trust
      ((asked.1.1, { record with binding := asked.1.2 }), asked.2) := rfl

/-- A record asks its binding. -/
theorem startFrom_enforced_binding :
    (enforced site).startFrom record trust =
      let asked := (Binding.enforced fun subject =>
        site.evaluate record.model subject (some record.row)).startFrom record.binding trust
      ((asked.1.1, { record with binding := asked.1.2 }), asked.2) := rfl

/-- Where permissions are in force, they are the subject's. -/
theorem startFrom_enforced (inForce : record.binding.restriction.isEnforced trust = true) :
    (enforced site).startFrom record trust =
      let asked := (permissions site).startFrom record trust
      ((asked.1.1.map Except.toOption, asked.1.2), asked.2) := by
  rw [startFrom_enforced_binding, Binding.startFrom_enforced inForce]
  rfl

/-- Elsewhere there is nothing to enforce. -/
theorem enforced_of_not_inForce (free : record.binding.restriction.isEnforced trust = false) :
    (enforced site).startFrom record trust = ((.ok none, record), trust) := by
  rw [startFrom_enforced_binding, Binding.startFrom_enforced_of_not free]

theorem steady_permissions : (permissions site : RunOn (Guarded S Q) _).Steady :=
  RunOn.steady_object.bind fun record =>
    (Binding.steady_permissions fun subject =>
      site.steady_evaluate record.model subject (some record.row)).focus _ _

/-- A record that was bound afresh finds what the evaluation for its subject comes to. -/
theorem permissions_of_fresh {subject : S} {perms : Permissions Q}
    (fresh : record.binding = .fresh (.bound subject))
    (evaluated : ((site.evaluate record.model subject (some record.row)).startFrom trust).1
      = .ok perms) :
    (permissions site).startFrom record trust =
      ((.ok (.ok perms), { record with binding := { record.binding with memo := some perms } }),
        trust) := by
  have steady := site.steady_evaluate record.model subject (some record.row)
  rw [startFrom_permissions, Binding.permissions_of_fresh fresh steady evaluated]

/-- Asking for permissions touches nothing but what is known of them. -/
theorem left_permissions {answer : Except Panic (Except Error (Permissions Q))}
    {left : Guarded S Q} {after : Trust}
    (asked : (permissions site).startFrom record trust = ((answer, left), after)) :
    left.model = record.model ∧ left.row = record.row ∧
      left.binding.restriction = record.binding.restriction := by
  rw [startFrom_permissions] at asked
  cases asked
  exact ⟨rfl, rfl, Binding.restriction_permissions⟩

/-- What a record was told, its binding was told. -/
theorem binding_permissions {answer : Except Panic (Except Error (Permissions Q))}
    {left : Guarded S Q} {after : Trust}
    (asked : (permissions site).startFrom record trust = ((answer, left), after)) :
    (Binding.permissions fun subject =>
      site.evaluate record.model subject (some record.row)).startFrom record.binding trust =
      ((answer, left.binding), after) := by
  rw [startFrom_permissions] at asked
  cases asked
  rfl

/-- Permissions that were found stay: they are what any later question finds. -/
theorem permissions_again {perms : Permissions Q} {left : Guarded S Q} {after later : Trust}
    (found : (permissions site).startFrom record trust = ((.ok (.ok perms), left), after)) :
    (permissions site).startFrom left later = ((.ok (.ok perms), left), later) := by
  obtain ⟨model, row, -⟩ := left_permissions found
  rw [startFrom_permissions, model, row, Binding.permissions_again (binding_permissions found),
    ← model, ← row]

/-- Where permissions are in force, asking for them finds some or panics. -/
theorem permissions_inForce (site : Site S Q)
    (inForce : record.binding.restriction.isEnforced trust = true) :
    ∃ (answer : Except Panic (Permissions Q)) (left : Guarded S Q),
      (permissions site).startFrom record trust = ((answer.map .ok, left), trust) := by
  have bound : record.binding.restriction.hasSubject = true := (Bool.and_eq_true_iff.mp inForce).1
  obtain ⟨answer, outcome⟩ := Binding.permissions_of_bound bound
  exact ⟨answer, _, Prod.ext (Prod.ext outcome rfl) (steady_permissions record trust)⟩

/-- Enforcing permissions **finds** some, or none where there are none to enforce. What it finds it
will find again, and nothing else is touched. -/
structure Finds (site : Site S Q) (trust : Trust) (record left : Guarded S Q)
    (found : Option (Permissions Q)) : Prop where
  /-- What is found. -/
  first : (enforced site).startFrom record trust = ((.ok found, left), trust)
  /-- It is found again. -/
  again : (enforced site).startFrom left trust = ((.ok found, left), trust)
  /-- The model stays. -/
  model_eq : left.model = record.model
  /-- The row stays. -/
  row_eq : left.row = record.row

/-- Where permissions are in force, a record finds some if asking for them does, and panics
otherwise. -/
theorem finds_of_inForce (site : Site S Q)
    (inForce : record.binding.restriction.isEnforced trust = true) :
    (∃ panic left, (permissions site).startFrom record trust = ((.error panic, left), trust) ∧
      (enforced site).startFrom record trust = ((.error panic, left), trust)) ∨
    ∃ perms left,
      (permissions site).startFrom record trust = ((.ok (.ok perms), left), trust) ∧
      Finds site trust record left (some perms) := by
  obtain ⟨answer, left, asked⟩ := permissions_inForce site inForce
  have enforces : (enforced site).startFrom record trust = _ := startFrom_enforced inForce
  rw [asked] at enforces
  cases answer with
  | error panic => exact .inl ⟨panic, left, asked, enforces⟩
  | ok perms =>
    obtain ⟨model, row, restriction⟩ := left_permissions asked
    refine .inr ⟨perms, left, asked, enforces, ?_, model, row⟩
    rw [startFrom_enforced (by rw [restriction]; exact inForce), permissions_again asked]
    rfl

/-- Elsewhere a record finds none. -/
theorem finds_of_not_inForce (site : Site S Q)
    (free : record.binding.restriction.isEnforced trust = false) :
    Finds site trust record record none :=
  ⟨enforced_of_not_inForce free, enforced_of_not_inForce free, rfl, rfl⟩

end Guarded

end Warden
