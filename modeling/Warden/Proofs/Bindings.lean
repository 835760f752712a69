import Warden.Proofs.Handling
import Warden.Proofs.Questions
/-! # Whom objects are bound to
Records and relations may change hands: they are bound to one subject after the other or to none,
copied, asked, changed, and all that inside and outside of trusted execution. At every point of such
a life (`Guarded.Turn`, `Relation.Turn`) an object is **sound** (`Binding.Sound`): it is marked as
bound iff it holds a subject, and it knows no permissions but those that were evaluated for the
subject that it holds now. Hence asking a bound object for permissions never ends in the error of
asking for nobody's, and nothing is enforced only without a subject or in trusted execution.

A restriction is a subject or none. Where a subject has its own place and a mark says whether it
counts (`Restriction.Layout`), four combinations could be stored; turns only ever store the two that
stand for restrictions. -/

namespace Warden

/-! ## Layouts -/

namespace Restriction

variable {S : Type}

/-- A restriction **laid out** as a place for a subject and a mark that says whether there is one.
Initially there is none. -/
structure Layout (S : Type) where
  /-- The place for a subject. -/
  subject? : Option S := none
  /-- Whether there is a subject. -/
  marked : Bool := false

namespace Layout

/-- Store a subject, in place of the former one. -/
def bind (layout : Layout S) (subject : S) : Layout S :=
  { layout with subject? := some subject, marked := true }

/-- Store that there is no subject. -/
def clear (layout : Layout S) : Layout S := { layout with subject? := none, marked := false }

/-- The subject, if one is stored and marked. -/
def subject (layout : Layout S) : Except Error S :=
  match layout.subject?, layout.marked with
  | some subject, true => .ok subject
  | _, _ => .error .unprotectedAccess

/-- Whether permissions are enforced: there is a mark, and execution is not trusted. -/
def isEnforced (layout : Layout S) (trust : Trust) : Bool := layout.marked && !trust.isActive

end Layout

/-- The layout of a restriction. -/
def layout : Restriction S → Layout S
  | .unbound => {}
  | .bound subject => Layout.bind {} subject

/-- The layout of a restriction is marked iff it holds a subject. -/
theorem marked_layout_iff (restriction : Restriction S) :
    restriction.layout.marked = true ↔ ∃ subject, restriction.layout.subject? = some subject := by
  cases restriction with
  | unbound => exact ⟨nofun, nofun⟩
  | bound subject => exact ⟨fun _ => ⟨subject, rfl⟩, fun _ => rfl⟩

/-- A restriction gives the subject of its layout. -/
theorem subject_layout (restriction : Restriction S) :
    restriction.layout.subject = restriction.subject := by
  cases restriction <;> rfl

/-- A restriction is enforced where its layout is. -/
theorem isEnforced_layout (restriction : Restriction S) (trust : Trust) :
    restriction.layout.isEnforced trust = restriction.isEnforced trust := by
  cases restriction <;> rfl

end Restriction

/-! ## Soundness -/

namespace Binding

variable {S Q : Type} {evaluate : S → Run (Permissions Q)} {binding : Binding S Q} {trust : Trust}

/-- Where permissions are in force, they are found unless an evaluation panics. -/
theorem found_of_inForce (evaluate : S → Run (Permissions Q))
    (inForce : binding.restriction.isEnforced trust = true) :
    ∃ outcome : Except Panic (Permissions Q), ∀ strictly,
      binding.found evaluate strictly trust = outcome.map some := by
  obtain ⟨subject, bound⟩ := Restriction.bound_of_isEnforced inForce
  have untrusted := Restriction.untrusted_of_isEnforced inForce
  cases known : binding.memo with
  | some perms => exact ⟨.ok perms, fun _ => found_of_known bound (.inr untrusted) known⟩
  | none => exact ⟨_, fun _ => found_of_unknown bound (.inr untrusted) known⟩

/-- **Nothing is enforced** only without a subject or in trusted execution. -/
theorem found_eq_none_iff :
    binding.found evaluate false trust = .ok none ↔
      binding.restriction = .unbound ∨ trust.isActive = true := by
  constructor
  · intro none
    by_contra bound
    obtain ⟨hasSubject, untrusted⟩ := not_or.mp bound
    -- Otherwise permissions are in force, and then they are found or there is a panic.
    have inForce : binding.restriction.isEnforced trust = true := by
      rw [Restriction.isEnforced, Bool.eq_false_iff.mpr untrusted]
      cases restriction : binding.restriction with
      | unbound => exact absurd restriction hasSubject
      | bound subject => rfl
    obtain ⟨outcome, found⟩ := found_of_inForce evaluate inForce
    rw [found] at none
    cases outcome <;> cases none
  · rintro (unbound | trusted)
    · exact found_of_unbound unbound
    · exact found_of_trusted trusted

/-- A binding with a layout of its restriction is **sound** for given permissions of each subject
and for given outcomes of asking for permissions and of enforcing them. -/
structure Sound (evaluated : S → Permissions Q → Prop) (layout : Restriction.Layout S)
    (binding : Binding S Q) (asked : Trust → Except Panic (Except Error (Permissions Q)))
    (enforced : Trust → Except Panic (Option (Permissions Q))) : Prop where
  /-- The layout is that of the restriction. -/
  layout_eq : layout = binding.restriction.layout
  /-- Both give the same subject, or the error that there is none. -/
  subject_eq : layout.subject = binding.restriction.subject
  /-- The layout is marked iff it holds a subject. -/
  marked_iff : layout.marked = true ↔ ∃ subject, layout.subject? = some subject
  /-- What is known was evaluated for the subject that it holds. -/
  known : ∀ perms, binding.memo = some perms →
    ∃ subject, layout.subject? = some subject ∧ evaluated subject perms
  /-- Without a subject nothing is known. -/
  unknown : layout.marked = false → binding.memo = none
  /-- Where permissions are in force, asking for them and enforcing them come to the same: they are
  found unless an evaluation panics. -/
  inForce : ∀ trust, layout.isEnforced trust = true → ∃ outcome : Except Panic (Permissions Q),
    asked trust = outcome.map .ok ∧ enforced trust = outcome.map some
  /-- Nothing is enforced only without a subject or in trusted execution. -/
  free_iff : ∀ trust, enforced trust = .ok none ↔ layout.marked = false ∨ trust.isActive = true

/-- A binding is sound if what is known was evaluated for its subject, and what is asked for is what
it finds. -/
theorem sound_of_known (evaluate : S → Run (Permissions Q))
    {evaluated : S → Permissions Q → Prop} {layout : Restriction.Layout S}
    {asked : Trust → Except Panic (Except Error (Permissions Q))}
    {enforced : Trust → Except Panic (Option (Permissions Q))}
    (known : ∀ perms, binding.memo = some perms →
      ∃ subject, binding.restriction = .bound subject ∧ evaluated subject perms)
    (laid : binding.restriction.layout = layout)
    (asks : ∀ trust, asked trust = (binding.found evaluate true trust).map Permissions.ofFound)
    (enforces : ∀ trust, enforced trust = binding.found evaluate false trust) :
    binding.Sound evaluated layout asked enforced where
  layout_eq := laid.symm
  subject_eq := laid ▸ binding.restriction.subject_layout
  marked_iff := laid ▸ binding.restriction.marked_layout_iff
  known := by
    intro perms memo
    obtain ⟨subject, bound, evaluated⟩ := known perms memo
    exact ⟨subject, by rw [← laid, bound]; rfl, evaluated⟩
  unknown := by
    intro unmarked
    -- What is known was evaluated for a subject, and where there is one there is a mark.
    by_contra isKnown
    obtain ⟨perms, memo⟩ := Option.ne_none_iff_exists'.mp isKnown
    obtain ⟨subject, bound, -⟩ := known perms memo
    rw [← laid, bound] at unmarked
    cases unmarked
  inForce := by
    intro trust inForce
    rw [← laid, Restriction.isEnforced_layout] at inForce
    obtain ⟨outcome, found⟩ := found_of_inForce evaluate inForce
    refine ⟨outcome, ?_, (enforces trust).trans (found false)⟩
    rw [asks, found true]
    cases outcome <;> rfl
  free_iff := by
    intro trust
    rw [enforces, found_eq_none_iff, ← laid]
    refine or_congr_left ?_
    cases binding.restriction with
    | unbound => exact ⟨fun _ => rfl, fun _ => rfl⟩
    | bound subject => exact ⟨nofun, nofun⟩

end Binding

/-! ## Records -/

namespace Guarded

variable {S Q : Type} [Query Q] {site : Site S Q} {model : Model} {record : Guarded S Q}

/-- A **turn** in the life of a record: it is handled, or it is asked a question, at a depth of
trusted execution. -/
inductive Turn (S : Type) where
  /-- It is bound to a subject or to none, copied, or its row is changed. -/
  | handled (move : Move S)
  /-- It is asked. -/
  | asked (question : Question) (trust : Trust)

/-- What a turn leaves of a record. -/
def Turn.apply (site : Site S Q) (record : Guarded S Q) : Turn S → Guarded S Q
  | .handled move => move.apply site record
  | .asked question trust => ((question.ask site).startFrom record trust).1.2

/-- What a turn leaves of the layout. -/
def Turn.lay (layout : Restriction.Layout S) : Turn S → Restriction.Layout S
  | .handled (.restrict subject) => layout.bind subject
  | .handled .unrestrict => layout.clear
  | _ => layout

/-- What several turns leave of a record. -/
def through (site : Site S Q) (record : Guarded S Q) (turns : List (Turn S)) : Guarded S Q :=
  turns.foldl (Turn.apply site) record

/-- Keeping what was found keeps a record coherent. -/
theorem Coherent.keeping_found (coherent : record.Coherent site model) (strictly : Bool)
    (trust : Trust) : (record.keeping (record.found site strictly trust)).Coherent site model := by
  cases strictly with
  | true =>
    have asked := coherent.asked trust
    rw [startFrom_permissions_eq] at asked
    exact asked
  | false =>
    have enforced := coherent.enforced trust
    rw [startFrom_enforced_eq] at enforced
    exact enforced

/-- A move changes the layout only if it binds the record to a subject or to none. -/
theorem layout_apply (site : Site S Q) (record : Guarded S Q) (move : Move S) :
    (move.apply site record).binding.restriction.layout =
      (Turn.handled move).lay record.binding.restriction.layout := by
  cases move with
  | asked trust =>
    rw [Move.apply, startFrom_permissions_eq]
    exact congrArg Restriction.layout (Binding.restriction_keeping _)
  | assign values trust =>
    rw [Move.apply, left_assignPermitted, startFrom_enforced_eq]
    exact congrArg Restriction.layout (Binding.restriction_keeping _)
  | _ => rfl

/-- **One turn** keeps a record coherent and changes its layout as it says. -/
theorem Coherent.turn (coherent : record.Coherent site model) (turn : Turn S) :
    (turn.apply site record).Coherent site model ∧
      (turn.apply site record).binding.restriction.layout =
        turn.lay record.binding.restriction.layout := by
  cases turn with
  | handled move => exact ⟨coherent.apply move, layout_apply site record move⟩
  | asked question trust =>
    rw [Turn.apply, startFrom_ask]
    exact ⟨coherent.keeping_found question.isStrict trust,
      congrArg Restriction.layout (Binding.restriction_keeping _)⟩

/-- **Every sequence of turns** does. -/
theorem Coherent.through (coherent : record.Coherent site model) (turns : List (Turn S)) :
    (record.through site turns).Coherent site model ∧
      (record.through site turns).binding.restriction.layout =
        turns.foldl Turn.lay record.binding.restriction.layout := by
  induction turns generalizing record with
  | nil => exact ⟨coherent, rfl⟩
  | cons turn rest ih =>
    obtain ⟨still, layout⟩ := coherent.turn turn
    obtain ⟨stays, layouts⟩ := ih still
    rw [layout] at layouts
    exact ⟨stays, layouts⟩

end Guarded

/-! ## Relations -/

namespace Relation

variable {S Q : Type} [Query Q] {site : Site S Q} {model : Model} {rel : Relation S Q}

/-- A **turn** in the life of a relation. Every way to derive a relation from another is one. -/
inductive Turn (S Q : Type) where
  /-- It is bound to a subject. -/
  | restrict (subject : S)
  /-- It is bound to no subject. -/
  | unrestrict
  /-- It takes over a restriction. -/
  | inherit (restriction : Restriction S)
  /-- It is replaced by a copy. -/
  | clone
  /-- Its query is changed, for example filtered. -/
  | map (change : Q → Q)
  /-- It starts again from all rows. -/
  | unscoped
  /-- It loads an association along. -/
  | including (assoc : Association)
  /-- It is asked, at a depth of trusted execution. -/
  | asked (question : Question) (trust : Trust)

/-- What a turn leaves of a relation. -/
def Turn.apply (site : Site S Q) (rel : Relation S Q) : Turn S Q → Relation S Q
  | .restrict subject => rel.restrict subject
  | .unrestrict => rel.unrestrict
  | .inherit restriction => rel.withRestriction restriction
  | .clone => rel.clone
  | .map change => rel.map change
  | .unscoped => rel.unscoped
  | .including assoc => rel.including assoc
  | .asked question trust => ((question.ask site).startFrom rel trust).1.2

omit [Query Q] in
/-- What a turn leaves of the layout. -/
def Turn.lay (layout : Restriction.Layout S) : Turn S Q → Restriction.Layout S
  | .restrict subject => layout.bind subject
  | .unrestrict => layout.clear
  | .inherit restriction => restriction.layout
  | _ => layout

/-- What several turns leave of a relation. -/
def through (site : Site S Q) (rel : Relation S Q) (turns : List (Turn S Q)) : Relation S Q :=
  turns.foldl (Turn.apply site) rel

/-- A relation is **coherent** if it is one of a model and knows no permissions but those that have
been worked out for the subject that it is bound to. -/
structure Coherent (site : Site S Q) (model : Model) (rel : Relation S Q) : Prop where
  /-- The relation is one of the model. -/
  model_eq : rel.model = model
  /-- What is known has been worked out for the subject. -/
  known : ∀ perms, rel.binding.memo = some perms → ∃ subject,
    rel.binding.restriction = .bound subject ∧
      ∃ earlier, ((site.evaluate model subject none).startFrom earlier).1 = .ok perms

/-- **One turn** keeps a relation coherent and changes its layout as it says. -/
theorem Coherent.turn (coherent : rel.Coherent site model) (turn : Turn S Q) :
    (turn.apply site rel).Coherent site model ∧
      (turn.apply site rel).binding.restriction.layout =
        turn.lay rel.binding.restriction.layout := by
  -- Whatever may change the subject forgets what is known; the other turns leave the subject and
  -- the model alone.
  cases turn with
  | restrict subject => exact ⟨⟨coherent.model_eq, nofun⟩, rfl⟩
  | unrestrict => exact ⟨⟨coherent.model_eq, nofun⟩, rfl⟩
  | inherit restriction => exact ⟨⟨coherent.model_eq, nofun⟩, rfl⟩
  | clone => exact ⟨⟨coherent.model_eq, nofun⟩, rfl⟩
  | map change => exact ⟨⟨coherent.model_eq, coherent.known⟩, rfl⟩
  | unscoped => exact ⟨⟨coherent.model_eq, coherent.known⟩, rfl⟩
  | including assoc => exact ⟨⟨coherent.model_eq, coherent.known⟩, rfl⟩
  | asked question trust =>
    rw [Turn.apply, startFrom_ask]
    have restriction : (rel.keeping (rel.found site question.isStrict trust)).binding.restriction =
        rel.binding.restriction := Binding.restriction_keeping _
    refine ⟨⟨coherent.model_eq, fun perms known => ?_⟩, congrArg Restriction.layout restriction⟩
    -- What is known after a question was known before, or has just been evaluated.
    rcases Binding.memo_keeping known with before | found
    · obtain ⟨subject, bound, evaluated⟩ := coherent.known perms before
      exact ⟨subject, restriction.trans bound, evaluated⟩
    · obtain ⟨subject, bound, before | ⟨-, evaluated⟩⟩ := Binding.of_found found
      · obtain ⟨other, same, earlier, evaluated⟩ := coherent.known perms before
        exact ⟨other, restriction.trans same, earlier, evaluated⟩
      · exact ⟨subject, restriction.trans bound, trust, coherent.model_eq ▸ evaluated⟩

/-- **Every sequence of turns** does. -/
theorem Coherent.through (coherent : rel.Coherent site model) (turns : List (Turn S Q)) :
    (rel.through site turns).Coherent site model ∧
      (rel.through site turns).binding.restriction.layout =
        turns.foldl Turn.lay rel.binding.restriction.layout := by
  induction turns generalizing rel with
  | nil => exact ⟨coherent, rfl⟩
  | cons turn rest ih =>
    obtain ⟨still, layout⟩ := coherent.turn turn
    obtain ⟨stays, layouts⟩ := ih still
    rw [layout] at layouts
    exact ⟨stays, layouts⟩

end Relation

/-! ## At every point of a life -/

/-- **Records and relations are sound** after any turns from the time when they were made: a record
for a row and a restriction, a relation for all rows of a model and nobody. They stay those of their
model. What a record knows was evaluated for its subject with some row, and what a relation knows,
for its subject with none. -/
theorem Site.sound_after {S Q : Type} [Query Q] (site : Site S Q) (model : Model) :
    (∀ (row : Row) (restriction : Restriction S) (turns : List (Guarded.Turn S)),
      let now := (Guarded.inheriting model row restriction).through site turns
      now.model = model ∧ now.binding.Sound
        (fun subject perms => ∃ row trust,
          ((site.evaluate model subject (some row)).startFrom trust).1 = .ok perms)
        (turns.foldl Guarded.Turn.lay restriction.layout)
        (fun trust => ((Guarded.permissions site).startFrom now trust).1.1)
        (fun trust => ((Guarded.enforced site).startFrom now trust).1.1)) ∧
    (∀ turns : List (Relation.Turn S Q),
      let now := (Relation.all model).through site turns
      now.model = model ∧ now.binding.Sound
        (fun subject perms => ∃ trust,
          ((site.evaluate model subject none).startFrom trust).1 = .ok perms)
        (turns.foldl Relation.Turn.lay {})
        (fun trust => ((Relation.permissions site).startFrom now trust).1.1)
        (fun trust => ((Relation.enforced site).startFrom now trust).1.1)) := by
  constructor
  · intro row restriction turns now
    have start : (Guarded.inheriting model row restriction).Coherent site model := ⟨rfl, nofun⟩
    obtain ⟨coherent, layout⟩ := start.through turns
    refine ⟨coherent.model_eq, ?_⟩
    refine Binding.sound_of_known (fun subject => site.evaluate now.model subject (some now.row))
      (fun perms memo => ?_) layout (fun trust => ?_) (fun trust => ?_)
    · obtain ⟨subject, row, earlier, bound, evaluated⟩ := coherent.known perms memo
      exact ⟨subject, bound, row, earlier, evaluated⟩
    · rw [Guarded.startFrom_permissions_eq]
      rfl
    · rw [Guarded.startFrom_enforced_eq]
      rfl
  · intro turns now
    have start : (Relation.all model).Coherent site model := ⟨rfl, nofun⟩
    obtain ⟨coherent, layout⟩ := start.through turns
    refine ⟨coherent.model_eq, Binding.sound_of_known
      (fun subject => site.evaluate now.model subject none) coherent.known layout
      (fun trust => ?_) (fun trust => ?_)⟩
    · rw [Relation.startFrom_permissions_eq]
      rfl
    · rw [Relation.startFrom_enforced_eq]
      rfl

end Warden
