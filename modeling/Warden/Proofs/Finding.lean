import Warden.Proofs.Enforcement
/-! # Finding permissions
Whoever needs the permissions of an object's subject gets those that the object knows, or else those
that an evaluation comes to just now. That is what the object **finds** (`Binding.found`), and what
it finds it keeps (`Binding.keeping`). Asking for permissions finds them strictly, that is to say
even in trusted execution, while enforcing them finds none there. Either way trusted execution is
left as it was, and if an evaluation panics, the object is left as it was, too.

These few equations say everything about how an object asks for permissions; what is asked for the
permissions of records and relations builds on them. -/

namespace Warden

/-- Permissions that were found, or the error of asking for nobody's permissions. -/
def Permissions.ofFound {Q : Type} : Option (Permissions Q) → Except Error (Permissions Q)
  | .none => .error .unprotectedAccess
  | .some perms => .ok perms

/-- If no such error is told, some permissions were found, or there was a panic. -/
theorem Permissions.eq_of_told {Q : Type} {found : Except Panic (Option (Permissions Q))}
    {answer : Except Panic (Permissions Q)} (told : found.map ofFound = answer.map .ok) :
    found = answer.map some := by
  rcases found with panic | _ | perms
  · cases answer <;> cases told
    rfl
  · cases answer <;> cases told
  · cases answer <;> cases told
    rfl

namespace Binding

variable {S Q : Type} {evaluate : S → Run (Permissions Q)} {binding : Binding S Q} {strictly : Bool}
  {trust : Trust}

/-- The permissions that a binding **finds** for its subject: those that it knows, or else those
that an evaluation comes to. There are none without a subject, and in trusted execution there are
none unless they are asked for strictly. -/
def found (evaluate : S → Run (Permissions Q)) (strictly : Bool) (binding : Binding S Q)
    (trust : Trust) : Except Panic (Option (Permissions Q)) :=
  match binding.restriction with
  | .unbound => .ok none
  | .bound subject =>
    if trust.isActive && !strictly then .ok none
    else match binding.memo with
      | some perms => .ok (some perms)
      | none => ((evaluate subject).startFrom trust).1.map some

/-- A binding that keeps what it has found. -/
def keeping (binding : Binding S Q) : Except Panic (Option (Permissions Q)) → Binding S Q
  | .ok (some perms) => { binding with memo := some perms }
  | _ => binding

/-- Nobody finds permissions. -/
theorem found_of_unbound (unbound : binding.restriction = .unbound) :
    binding.found evaluate strictly trust = .ok none := by
  rw [found, unbound]

/-- Nothing is enforced in trusted execution. -/
theorem found_of_trusted (trusted : trust.isActive = true) :
    binding.found evaluate false trust = .ok none := by
  rw [found, trusted]
  cases binding.restriction <;> rfl

/-- Nothing is found where permissions are not in force. -/
theorem found_of_free (free : binding.restriction.isEnforced trust = false) :
    binding.found evaluate false trust = .ok none := by
  cases bound : binding.restriction with
  | unbound => exact found_of_unbound bound
  | bound subject =>
    refine found_of_trusted (Bool.of_not_eq_false fun untrusted => ?_)
    rw [Restriction.isEnforced_of_bound bound untrusted] at free
    cases free

/-- Known permissions are found. -/
theorem found_of_known {subject : S} {perms : Permissions Q}
    (bound : binding.restriction = .bound subject)
    (sought : strictly = true ∨ trust.isActive = false) (known : binding.memo = some perms) :
    binding.found evaluate strictly trust = .ok (some perms) := by
  rw [found, bound, known]
  rcases sought with rfl | untrusted
  · rw [Bool.not_true, Bool.and_false]
    rfl
  · rw [untrusted]
    rfl

/-- Unknown permissions are evaluated. -/
theorem found_of_unknown {subject : S} (bound : binding.restriction = .bound subject)
    (sought : strictly = true ∨ trust.isActive = false) (unknown : binding.memo = none) :
    binding.found evaluate strictly trust = ((evaluate subject).startFrom trust).1.map some := by
  rw [found, bound, unknown]
  rcases sought with rfl | untrusted
  · rw [Bool.not_true, Bool.and_false]
    rfl
  · rw [untrusted]
    rfl

/-- Outside trusted execution being strict makes no difference. -/
theorem found_of_untrusted (untrusted : trust.isActive = false) :
    binding.found evaluate strictly trust = binding.found evaluate true trust := by
  rw [found, found, untrusted]
  rfl

/-- A fresh binding finds what an evaluation comes to. -/
theorem found_of_evaluated {subject : S} {perms : Permissions Q}
    (fresh : binding = .fresh (.bound subject))
    (sought : strictly = true ∨ trust.isActive = false)
    (evaluated : ((evaluate subject).startFrom trust).1 = .ok perms) :
    binding.found evaluate strictly trust = .ok (some perms) := by
  rw [fresh, found_of_unknown rfl sought rfl, evaluated]
  rfl

/-- It panics if the evaluation does. -/
theorem found_of_panic {subject : S} {panic : Panic} (fresh : binding = .fresh (.bound subject))
    (sought : strictly = true ∨ trust.isActive = false)
    (panicked : ((evaluate subject).startFrom trust).1 = .error panic) :
    binding.found evaluate strictly trust = .error panic := by
  rw [fresh, found_of_unknown rfl sought rfl, panicked]
  rfl

/-- Permissions that are found are a subject's: they were known, or have just been evaluated. -/
theorem of_found {perms : Permissions Q}
    (found : binding.found evaluate strictly trust = .ok (some perms)) :
    ∃ subject, binding.restriction = .bound subject ∧ (binding.memo = some perms ∨
      binding.memo = none ∧ ((evaluate subject).startFrom trust).1 = .ok perms) := by
  rw [Binding.found] at found
  cases bound : binding.restriction with
  | unbound =>
    rw [bound] at found
    cases found
  | bound subject =>
    refine ⟨subject, rfl, ?_⟩
    rw [bound] at found
    dsimp only at found
    split at found
    · cases found
    · cases known : binding.memo with
      | some stored =>
        rw [known] at found
        cases found
        exact .inl rfl
      | none =>
        rw [known] at found
        cases evaluated : ((evaluate subject).startFrom trust).1 with
        | error panic =>
          rw [evaluated] at found
          cases found
        | ok other =>
          rw [evaluated] at found
          cases found
          exact .inr ⟨rfl, rfl⟩

/-- Keeping permissions does not change whom an object is bound to. -/
@[simp] theorem restriction_keeping (found : Except Panic (Option (Permissions Q))) :
    (binding.keeping found).restriction = binding.restriction := by
  rcases found with _ | _ | _ <;> rfl

/-- Nothing is to be kept of permissions that are known. -/
theorem keeping_of_known {perms : Permissions Q} (known : binding.memo = some perms) :
    binding.keeping (.ok (some perms)) = binding := by
  rw [keeping, ← known]

/-- What is known after permissions were sought was known before or has just been found. -/
theorem memo_keeping {found : Except Panic (Option (Permissions Q))} {perms : Permissions Q}
    (known : (binding.keeping found).memo = some perms) :
    binding.memo = some perms ∨ found = .ok (some perms) := by
  rcases found with _ | _ | other
  · exact .inl known
  · exact .inl known
  · cases known
    exact .inr rfl

/-- What was found is found again, strictly or not, wherever it is sought. -/
theorem found_keeping {perms : Permissions Q} {again : Bool} {later : Trust}
    (found : binding.found evaluate strictly trust = .ok (some perms))
    (sought : again = true ∨ later.isActive = false) :
    (binding.keeping (.ok (some perms))).found evaluate again later = .ok (some perms) := by
  cases bound : binding.restriction with
  | unbound =>
    rw [found_of_unbound bound] at found
    cases found
  | bound subject => exact found_of_known bound sought rfl

/-- **Asking for permissions** finds them strictly and keeps what it finds. -/
theorem startFrom_permissions_eq (steady : ∀ subject, (evaluate subject).Steady)
    (binding : Binding S Q) (trust : Trust) :
    (permissions evaluate).startFrom binding trust =
      let found := binding.found evaluate true trust
      ((found.map Permissions.ofFound, binding.keeping found), trust) := by
  dsimp only
  cases bound : binding.restriction with
  | unbound =>
    rw [permissions_of_unbound bound, found_of_unbound bound]
    rfl
  | bound subject =>
    cases known : binding.memo with
    | some perms =>
      -- What is known already is given again, so that keeping it changes nothing.
      rw [permissions_of_known (by rw [bound]; rfl) known, found_of_known bound (.inl rfl) known,
        keeping_of_known known]
      rfl
    | none =>
      rw [permissions_of_unknown known bound, found_of_unknown bound (.inl rfl) known,
        (steady subject).startFrom_eq]
      rcases ((evaluate subject).startFrom trust).1 with panic | perms <;> rfl

/-- **Enforcing permissions** finds them unless execution is trusted, and keeps what it finds. -/
theorem startFrom_enforced_eq (steady : ∀ subject, (evaluate subject).Steady)
    (binding : Binding S Q) (trust : Trust) :
    (enforced evaluate).startFrom binding trust =
      let found := binding.found evaluate false trust
      ((found, binding.keeping found), trust) := by
  dsimp only
  cases bound : binding.restriction with
  | unbound =>
    rw [startFrom_enforced_of_not (Restriction.isEnforced_of_free (.inl bound)),
      found_of_unbound bound]
    rfl
  | bound subject =>
    cases active : trust.isActive with
    | true =>
      rw [startFrom_enforced_of_not (Restriction.isEnforced_of_free (.inr active)),
        found_of_trusted active]
      rfl
    | false =>
      -- Here enforcing is asking, and the error of asking for nobody's permissions cannot occur.
      rw [startFrom_enforced (Restriction.isEnforced_of_bound bound active),
        startFrom_permissions_eq steady]
      have same : binding.found evaluate false trust = binding.found evaluate true trust :=
        found_of_untrusted active
      rw [same]
      rcases binding.found evaluate true trust with _ | _ | _ <;> rfl

end Binding

/-! ## Records -/

namespace Guarded

variable {S Q : Type} [Query Q] {site : Site S Q} {record : Guarded S Q} {trust : Trust}

/-- The permissions that a record finds for its subject. -/
def found (site : Site S Q) (strictly : Bool) (record : Guarded S Q) (trust : Trust) :
    Except Panic (Option (Permissions Q)) :=
  record.binding.found (fun subject => site.evaluate record.model subject (some record.row))
    strictly trust

omit [Query Q] in
/-- A record that keeps what it has found. -/
def keeping (record : Guarded S Q) (found : Except Panic (Option (Permissions Q))) : Guarded S Q :=
  { record with binding := record.binding.keeping found }

/-- Asking for permissions finds them strictly and keeps what it finds. -/
theorem startFrom_permissions_eq (record : Guarded S Q) (trust : Trust) :
    (permissions site).startFrom record trust =
      let found := record.found site true trust
      ((found.map Permissions.ofFound, record.keeping found), trust) := by
  rw [startFrom_permissions, Binding.startFrom_permissions_eq fun subject =>
    site.steady_evaluate record.model subject (some record.row)]
  rfl

/-- Enforcing permissions finds them unless execution is trusted, and keeps what it finds. -/
theorem startFrom_enforced_eq (record : Guarded S Q) (trust : Trust) :
    (enforced site).startFrom record trust =
      let found := record.found site false trust
      ((found, record.keeping found), trust) := by
  rw [startFrom_enforced_binding, Binding.startFrom_enforced_eq fun subject =>
    site.steady_evaluate record.model subject (some record.row)]
  rfl

/-- Where permissions are in force, what is enforced is what asking tells. -/
theorem found_of_told (answer : Except Panic (Permissions Q))
    (inForce : record.binding.restriction.isEnforced trust = true)
    (told : ((permissions site).startFrom record trust).1.1 = answer.map .ok) :
    record.found site false trust = answer.map some := by
  rw [startFrom_permissions_eq] at told
  -- What is in force is so outside trusted execution, where both ways of seeking agree.
  have untrusted := Restriction.untrusted_of_isEnforced inForce
  have same : record.found site false trust = record.found site true trust :=
    Binding.found_of_untrusted untrusted
  exact same.trans (Permissions.eq_of_told told)

/-- And what is left by enforcing is what asking leaves. -/
theorem found_of_asked {answer : Except Panic (Permissions Q)} {left : Guarded S Q}
    (inForce : record.binding.restriction.isEnforced trust = true)
    (asked : (permissions site).startFrom record trust = ((answer.map .ok, left), trust)) :
    record.found site false trust = answer.map some ∧
      left = record.keeping (answer.map some) := by
  rw [startFrom_permissions_eq] at asked
  have told : (record.found site true trust).map Permissions.ofFound = answer.map .ok :=
    congrArg (fun asked => asked.1.1) asked
  have kept : record.keeping (record.found site true trust) = left :=
    congrArg (fun asked => asked.1.2) asked
  refine ⟨found_of_told answer inForce ?_, ?_⟩
  · rw [startFrom_permissions_eq]
    exact told
  · rw [← kept, Permissions.eq_of_told told]

/-- Where permissions are not in force, none are found. -/
theorem found_of_not_inForce (free : record.binding.restriction.isEnforced trust = false) :
    record.found site false trust = .ok none :=
  Binding.found_of_free free

/-- What a record found it finds again. -/
theorem found_keeping {found : Option (Permissions Q)}
    (finds : record.found site false trust = .ok found) :
    (record.keeping (.ok found)).found site false trust = .ok found := by
  cases found with
  | none => exact finds
  | some perms =>
    cases active : trust.isActive with
    | true =>
      rw [Guarded.found, Binding.found_of_trusted active] at finds
      cases finds
    | false => exact Binding.found_keeping finds (.inr active)

omit [Query Q] in
/-- Keeping again changes nothing. -/
theorem keeping_keeping (record : Guarded S Q) (found : Except Panic (Option (Permissions Q))) :
    (record.keeping found).keeping found = record.keeping found := by
  rcases found with _ | _ | _ <;> rfl

end Guarded

/-! ## Relations -/

namespace Relation

variable {S Q : Type} [Query Q] {site : Site S Q}

/-- The permissions that a relation finds for its subject. -/
def found (site : Site S Q) (strictly : Bool) (rel : Relation S Q) (trust : Trust) :
    Except Panic (Option (Permissions Q)) :=
  rel.binding.found (fun subject => site.evaluate rel.model subject none) strictly trust

omit [Query Q] in
/-- A relation that keeps what it has found. -/
def keeping (rel : Relation S Q) (found : Except Panic (Option (Permissions Q))) : Relation S Q :=
  { rel with binding := rel.binding.keeping found }

/-- Asking for permissions finds them strictly and keeps what it finds. -/
theorem startFrom_permissions_eq (rel : Relation S Q) (trust : Trust) :
    (permissions site).startFrom rel trust =
      let found := rel.found site true trust
      ((found.map Permissions.ofFound, rel.keeping found), trust) := by
  rw [startFrom_permissions, Binding.startFrom_permissions_eq fun subject =>
    site.steady_evaluate rel.model subject none]
  rfl

/-- Enforcing permissions finds them unless execution is trusted, and keeps what it finds. -/
theorem startFrom_enforced_eq (rel : Relation S Q) (trust : Trust) :
    (enforced site).startFrom rel trust =
      let found := rel.found site false trust
      ((found, rel.keeping found), trust) := by
  rw [startFrom_enforced, Binding.startFrom_enforced_eq fun subject =>
    site.steady_evaluate rel.model subject none]
  rfl

/-- Where permissions are in force, what is enforced is what asking tells. -/
theorem found_of_told {rel : Relation S Q} {trust : Trust} (answer : Except Panic (Permissions Q))
    (inForce : rel.binding.restriction.isEnforced trust = true)
    (told : ((permissions site).startFrom rel trust).1.1 = answer.map .ok) :
    rel.found site false trust = answer.map some := by
  rw [startFrom_permissions_eq] at told
  have untrusted := Restriction.untrusted_of_isEnforced inForce
  have same : rel.found site false trust = rel.found site true trust :=
    Binding.found_of_untrusted untrusted
  exact same.trans (Permissions.eq_of_told told)

/-- Where permissions are not in force, none are found. -/
theorem found_of_not_inForce {rel : Relation S Q} {trust : Trust}
    (free : rel.binding.restriction.isEnforced trust = false) :
    rel.found site false trust = .ok none :=
  Binding.found_of_free free

end Relation

end Warden
