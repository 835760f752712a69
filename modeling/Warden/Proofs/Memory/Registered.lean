import Warden.Proofs.Memory.Scoping
/-! # What rules register
Which scopes a subject has is decided by the scripts of the rules. A script **registers** narrowings
of a kind if all its scopes are made of such narrowings, whatever the script is told on its way
(`Script.Registers`). If all rules of a model do, then so are the scopes of every subject
(`Site.narrowed_of_evaluate`); nothing else that a rule may do touches them. -/

namespace Warden

/-! ## Scopes of permissions -/

namespace Permissions

variable {Q : Type}

/-- Granting registers no scope. -/
@[simp] theorem scopes_can (perms : Permissions Q) (action : Action) (specs : List FieldSpec) :
    (perms.can action specs).scopes = perms.scopes := by
  unfold can
  split <;> rfl

/-- Neither does withdrawing. -/
@[simp] theorem scopes_cannot (perms : Permissions Q) (action : Action) (specs : List FieldSpec) :
    (perms.cannot action specs).scopes = perms.scopes := by
  unfold cannot
  split
  · rfl
  · split <;> rfl

/-- All scopes are made of narrowings of a kind. -/
def Narrowed (kind : Narrowing → Prop) (perms : Permissions MemoryQuery) : Prop :=
  ∃ scopes : List (List Narrowing),
    perms.scopes = scopes.map (fun scope query => query.narrowBy scope) ∧
      ∀ narrowing ∈ scopes.flatten, kind narrowing

variable {kind : Narrowing → Prop} {perms : Permissions MemoryQuery}

/-- Without scopes there is nothing to be made of. -/
theorem narrowed_of_nil (empty : perms.scopes = []) : perms.Narrowed kind :=
  ⟨[], empty, nofun⟩

/-- Only the scopes count. -/
theorem Narrowed.of_scopes_eq {other : Permissions MemoryQuery} (narrowed : perms.Narrowed kind)
    (same : other.scopes = perms.scopes) : other.Narrowed kind := by
  obtain ⟨scopes, registered, each⟩ := narrowed
  exact ⟨scopes, same.trans registered, each⟩

/-- One more scope of the kind. -/
theorem Narrowed.scope {narrowings : List Narrowing} (narrowed : perms.Narrowed kind)
    (each : ∀ narrowing ∈ narrowings, kind narrowing) :
    (perms.scope fun query => query.narrowBy narrowings).Narrowed kind := by
  obtain ⟨scopes, registered, former⟩ := narrowed
  refine ⟨scopes ++ [narrowings], ?_, ?_⟩
  · rw [List.map_append, ← registered]
    rfl
  · intro narrowing mem
    rw [List.flatten_append, List.flatten_singleton] at mem
    exact (List.mem_append.mp mem).elim (former narrowing) (each narrowing)

/-- What confines the subject is of the kind, if hiding every row is. -/
theorem Narrowed.confinement (narrowed : perms.Narrowed kind) (hidden : kind .nothing) :
    ∃ scopes : List (List Narrowing),
      perms.scopes = scopes.map (fun scope query => query.narrowBy scope) ∧
        ∀ narrowing ∈ perms.confinement scopes, kind narrowing := by
  obtain ⟨scopes, registered, each⟩ := narrowed
  refine ⟨scopes, registered, fun narrowing mem => ?_⟩
  -- Besides the registered narrowings there may only be the one that hides every row.
  rw [Permissions.confinement] at mem
  split at mem
  · rw [List.mem_singleton.mp mem]
    exact hidden
  · exact each narrowing mem

end Permissions

/-! ## Scripts and rules -/

section Rules

variable {S : Type} {kind : Narrowing → Prop} {census : Census S}

/-- A script **registers** only scopes that are made of narrowings of a kind. -/
def Script.Registers (kind : Narrowing → Prop) : Script S MemoryQuery → Prop
  | .done => True
  | .abort _ => True
  | .can _ _ next => next.Registers kind
  | .cannot _ _ next => next.Registers kind
  | .scope narrow next =>
    (∃ narrowings : List Narrowing, (narrow = fun query => query.narrowBy narrowings) ∧
      ∀ narrowing ∈ narrowings, kind narrowing) ∧ next.Registers kind
  | .depth next => ∀ depth, (next depth).Registers kind
  | .check _ _ next => ∀ passed, (next passed).Registers kind
  | .insecurely body next => body.Registers kind ∧ next.Registers kind
  | .count _ _ next => ∀ rows, (next rows).Registers kind

/-- A rule registers only such scopes, for every subject and record. -/
def Rule.Registers (kind : Narrowing → Prop) (rule : Rule S MemoryQuery) : Prop :=
  ∀ subject entry, (rule.script subject entry).Registers kind

/-- What a script fills stays made of the narrowings that it registers. -/
theorem Script.narrowed_of_run {script : Script S MemoryQuery}
    {perms filled : Permissions MemoryQuery} {trust after : Trust}
    (registers : script.Registers kind) (narrowed : perms.Narrowed kind)
    (ran : (script.run census perms).startFrom trust = (.ok filled, after)) :
    filled.Narrowed kind := by
  -- By induction on the script: only registering a scope adds one, and it is of the kind.
  induction script generalizing perms filled trust after with
  | done =>
    cases ran
    exact narrowed
  | abort message => cases ran
  | can action specs next ih =>
    exact ih registers (narrowed.of_scopes_eq (perms.scopes_can action specs)) ran
  | cannot action specs next ih =>
    exact ih registers (narrowed.of_scopes_eq (perms.scopes_cannot action specs)) ran
  | scope narrow next ih =>
    obtain ⟨⟨narrowings, rfl, each⟩, rest⟩ := registers
    exact ih rest (narrowed.scope each) ran
  | depth next ih =>
    obtain ⟨depth, between, -, rest⟩ := Run.ok_of_bind ran
    exact ih depth (registers depth) narrowed rest
  | check constraint value next ih =>
    obtain ⟨passed, between, -, rest⟩ := Run.ok_of_bind ran
    exact ih passed (registers passed) narrowed rest
  | insecurely body next ihBody ih =>
    obtain ⟨inner, between, guarded, rest⟩ := Run.ok_of_bind ran
    have inside : ((body.run census perms).startFrom trust.enter).1 = .ok inner :=
      congrArg Prod.fst guarded
    exact ih registers.2 (ihBody registers.1 narrowed (Prod.ext inside rfl)) rest
  | count model subject next ih =>
    obtain ⟨rows, between, -, rest⟩ := Run.ok_of_bind ran
    exact ih rows (registers rows) narrowed rest

/-- What rules fill stays made of the narrowings that they register. -/
theorem Rule.narrowed_of_runAll {rules : List (Rule S MemoryQuery)} {subject : S}
    {entry : Option Row} {perms filled : Permissions MemoryQuery} {trust after : Trust}
    (registers : ∀ rule ∈ rules, rule.Registers kind) (narrowed : perms.Narrowed kind)
    (ran : (Rule.runAll census rules subject entry perms).startFrom trust = (.ok filled, after)) :
    filled.Narrowed kind := by
  induction rules generalizing perms trust with
  | nil =>
    cases ran
    exact narrowed
  | cons rule rest ih =>
    obtain ⟨between, state, first, others⟩ := Run.ok_of_bind ran
    have begun := Script.narrowed_of_run (registers rule List.mem_cons_self subject entry)
      narrowed first
    exact ih (fun other later => registers other (List.mem_cons_of_mem _ later)) begun others

end Rules

/-- **The scopes of a subject** are made of the narrowings that the rules register. -/
theorem Site.narrowed_of_evaluate {S : Type} {site : Site S MemoryQuery} {model : Model}
    {subject : S} {entry : Option Row} {trust : Trust} {perms : Permissions MemoryQuery}
    {kind : Narrowing → Prop}
    (registers : ∀ rule ∈ site.book.rules model.rules, rule.Registers kind)
    (evaluated : ((site.evaluate model subject entry).startFrom trust).1 = .ok perms) :
    perms.Narrowed kind := by
  rw [evaluate_of_rules rfl] at evaluated
  exact Rule.narrowed_of_runAll registers (Permissions.narrowed_of_nil rfl)
    (Prod.ext evaluated rfl)

end Warden
