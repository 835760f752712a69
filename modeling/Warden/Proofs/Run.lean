import Mathlib.Data.List.Forall2
import Warden.Trust
/-! # Runs
How a computation runs from a state of trusted execution, one equation for each way to put a
computation together. `Run.startFrom` answers with the outcome and the state afterwards,
`RunOn.startFrom` also with what is left of the object.

A computation is **steady** if it leaves the depth of trusted execution as it found it, whether it
returns or panics. Whatever is built from steady parts is steady, and for such a computation only
the outcome matters to what runs after it (`Run.Steady.startFrom_bind`).

Much of what runs does not touch any state but may fail; the first section is about such steps. -/

namespace Warden

/-! ## Steps that may fail -/

/-- Of two steps that may fail both succeed if the whole does. -/
theorem bind_eq_ok_iff {ε α β : Type} {first : Except ε α} {next : α → Except ε β} {b : β} :
    first >>= next = .ok b ↔ ∃ a, first = .ok a ∧ next a = .ok b := by
  cases first with
  | error e => exact ⟨nofun, fun ⟨_, failed, _⟩ => nomatch failed⟩
  | ok a =>
    refine ⟨fun succeeded => ⟨a, rfl, succeeded⟩, ?_⟩
    rintro ⟨_, same, succeeded⟩
    cases same
    exact succeeded

/-- Of two steps that may fail the first one does, or the second one after it. -/
theorem bind_eq_error_iff {ε α β : Type} {first : Except ε α} {next : α → Except ε β} {e : ε} :
    first >>= next = .error e ↔ first = .error e ∨ ∃ a, first = .ok a ∧ next a = .error e := by
  cases first with
  | error other =>
    constructor
    · intro failed
      cases failed
      exact .inl rfl
    · rintro (failed | ⟨_, succeeded, _⟩)
      · cases failed
        rfl
      · cases succeeded
  | ok a =>
    refine ⟨fun failed => .inr ⟨a, rfl, failed⟩, ?_⟩
    rintro (failed | ⟨_, same, failed⟩)
    · cases failed
    · cases same
      exact failed

/-- A step that may fail does if making something of its result does. -/
theorem bind_pure_eq_error_iff {ε α β : Type} {first : Except ε α} {make : α → β} {e : ε} :
    first >>= (fun a => pure (make a)) = .error e ↔ first = .error e := by
  rw [bind_eq_error_iff, or_iff_left_iff_imp]
  rintro ⟨_, -, never⟩
  cases never

/-- Of two checks in a row both pass if the whole does. -/
theorem andThen_eq_ok_iff {ε β : Type} {first : Except ε Unit} {next : Except ε β} {b : β} :
    (first >>= fun _ => next) = .ok b ↔ first = .ok () ∧ next = .ok b := by
  rw [bind_eq_ok_iff]
  exact ⟨fun ⟨_, passed, succeeded⟩ => ⟨passed, succeeded⟩, fun both => ⟨(), both⟩⟩

section Several

variable {ε α β : Type}

/-- Several checks in turn succeed iff each of them does. -/
theorem mapM_eq_ok_iff {check : α → Except ε β} {items : List α} {results : List β} :
    items.mapM check = .ok results ↔
      List.Forall₂ (fun item result => check item = .ok result) items results := by
  induction items generalizing results with
  | nil =>
    rw [List.mapM_nil, List.forall₂_nil_left_iff]
    exact ⟨fun same => by cases same; rfl, fun same => by rw [same]; rfl⟩
  | cons item rest ih =>
    simp only [List.mapM_cons, bind_eq_ok_iff, List.forall₂_cons_left_iff, ih]
    constructor
    · rintro ⟨result, checked, others, checkedRest, same⟩
      cases same
      exact ⟨result, others, checked, checkedRest, rfl⟩
    · rintro ⟨result, others, checked, checkedRest, rfl⟩
      exact ⟨result, checked, others, checkedRest, rfl⟩

/-- Several items in turn are made into something iff each of them is. -/
theorem mapM_eq_some_iff {make : α → Option β} {items : List α} {results : List β} :
    items.mapM make = some results ↔
      List.Forall₂ (fun item result => make item = some result) items results := by
  induction items generalizing results with
  | nil =>
    rw [List.mapM_nil, List.forall₂_nil_left_iff]
    exact ⟨fun same => by cases same; rfl, fun same => by rw [same]; rfl⟩
  | cons item rest ih =>
    simp only [List.mapM_cons, List.forall₂_cons_left_iff, ← ih, Option.bind_eq_bind,
      Option.bind_eq_some_iff]
    constructor
    · rintro ⟨result, made, others, madeRest, same⟩
      cases same
      exact ⟨result, others, made, madeRest, rfl⟩
    · rintro ⟨result, others, made, madeRest, rfl⟩
      exact ⟨result, made, others, madeRest, rfl⟩

/-- If several checks in turn fail, one of them does. -/
theorem exists_of_mapM_eq_error {check : α → Except ε β} {items : List α} {e : ε}
    (failed : items.mapM check = .error e) : ∃ item ∈ items, check item = .error e := by
  induction items with
  | nil => cases failed
  | cons item rest ih =>
    rw [List.mapM_cons, bind_eq_error_iff] at failed
    rcases failed with first | ⟨result, -, later⟩
    · exact ⟨item, List.mem_cons_self, first⟩
    · obtain ⟨item, mem, fails⟩ := ih (bind_pure_eq_error_iff.mp later)
      exact ⟨item, List.mem_cons_of_mem _ mem, fails⟩

/-- Lists of related items exist iff each item has a related one. -/
theorem exists_forall₂_iff {related : α → β → Prop} {items : List α} :
    (∃ results, List.Forall₂ related items results) ↔
      ∀ item ∈ items, ∃ result, related item result := by
  induction items with
  | nil => exact ⟨fun _ => nofun, fun _ => ⟨[], .nil⟩⟩
  | cons item rest ih =>
    rw [List.forall_mem_cons, ← ih]
    constructor
    · rintro ⟨results, both⟩
      obtain ⟨result, others, one, more, -⟩ := List.forall₂_cons_left_iff.mp both
      exact ⟨⟨result, one⟩, ⟨others, more⟩⟩
    · rintro ⟨⟨result, one⟩, ⟨others, more⟩⟩
      exact ⟨result :: others, .cons one more⟩

/-- A member of the second of two related lists is related to one of the first. -/
theorem exists_of_mem_right {related : α → β → Prop} {items : List α} {results : List β}
    (each : List.Forall₂ related items results) {result : β} (mem : result ∈ results) :
    ∃ item ∈ items, related item result := by
  induction each with
  | nil => cases mem
  | cons one _ ih =>
    rcases List.mem_cons.mp mem with rfl | later
    · exact ⟨_, List.mem_cons_self, one⟩
    · obtain ⟨item, found, relates⟩ := ih later
      exact ⟨item, List.mem_cons_of_mem _ found, relates⟩

/-- Lists that are related to the same one are related to each other. -/
theorem forall₂_comp {γ : Type} {first : α → β → Prop} {second : β → γ → Prop} {as : List α}
    {bs : List β} {cs : List γ} (one : List.Forall₂ first as bs)
    (other : List.Forall₂ second bs cs) :
    List.Forall₂ (fun a c => ∃ b, first a b ∧ second b c) as cs := by
  induction one generalizing cs with
  | nil =>
    cases other
    exact .nil
  | cons relates _ ih =>
    cases other with
    | cons relates' more => exact .cons ⟨_, relates, relates'⟩ (ih more)

end Several

namespace Run

variable {α β γ : Type}

/-! ## Equations -/

/-- Returning a value does nothing else. -/
@[simp] theorem startFrom_pure (a : α) (trust : Trust) :
    (pure a : Run α).startFrom trust = (.ok a, trust) := rfl

/-- Abandoning a computation does nothing else. -/
@[simp] theorem startFrom_abandon (message : String) (trust : Trust) :
    (abandon message : Run α).startFrom trust = (.error ⟨message⟩, trust) := rfl

@[simp] theorem startFrom_depth (trust : Trust) :
    depth.startFrom trust = (.ok trust.depth, trust) := rfl

@[simp] theorem startFrom_isTrusted (trust : Trust) :
    isTrusted.startFrom trust = (.ok trust.isActive, trust) := rfl

@[simp] theorem startFrom_trust (state : Trust) : trust.startFrom state = (.ok state, state) := rfl

/-- One computation after another; the second one is left out if the first one panics. -/
theorem startFrom_bind (action : Run α) (next : α → Run β) (trust : Trust) :
    (action >>= next).startFrom trust = match action.startFrom trust with
      | (.ok a, after) => (next a).startFrom after
      | (.error panic, after) => (.error panic, after) := by
  -- The layers of the computation open up by definition; what is left is how `action` ended.
  show (ExceptT.bindCont next (action.run.run trust).1).run (action.run.run trust).2 = _
  rw [startFrom]
  rcases action.run.run trust with ⟨_ | _, after⟩ <;> rfl

/-- If two computations in a row return, both of them do. -/
theorem ok_of_bind {action : Run α} {next : α → Run β} {trust after : Trust} {b : β}
    (returned : (action >>= next).startFrom trust = (.ok b, after)) :
    ∃ a between, action.startFrom trust = (.ok a, between) ∧
      (next a).startFrom between = (.ok b, after) := by
  rw [startFrom_bind] at returned
  rcases result : action.startFrom trust with ⟨panic | a, between⟩
  · rw [result] at returned
    cases returned
  · rw [result] at returned
    exact ⟨a, between, rfl, returned⟩

/-- Several computations in turn, of which it is known what they return. -/
theorem startFrom_mapM {action : α → Run β} {result : α → β} {trust : Trust} {items : List α}
    (returns : ∀ item ∈ items, (action item).startFrom trust = (.ok (result item), trust)) :
    (items.mapM action).startFrom trust = (.ok (items.map result), trust) := by
  induction items with
  | nil => rfl
  | cons item rest ih =>
    obtain ⟨first, others⟩ := List.forall_mem_cons.mp returns
    rw [List.mapM_cons, startFrom_bind, first]
    dsimp only
    rw [startFrom_bind, ih others]
    rfl

/-- Inside a guard. -/
theorem startFrom_insecurely (action : Run α) (trust : Trust) :
    (insecurely action).startFrom trust =
      ((action.startFrom trust.enter).1, (action.startFrom trust.enter).2.leave) := rfl

/-- Inside a scope of the task. -/
theorem startFrom_insecurelyScoped (action : Run α) (trust : Trust) :
    (insecurelyScoped action).startFrom trust =
      let (outcome, after) := action.startFrom { trust with scopes := trust.scopes + 1 }
      (outcome, { after with scopes := trust.scopes }) := rfl

/-- What a panic comes to if it is caught. -/
theorem startFrom_attempt (action : Run α) (trust : Trust) :
    (attempt action).startFrom trust =
      (.ok (action.startFrom trust).1, (action.startFrom trust).2) := rfl

/-! ## Steady computations -/

/-- The depth of trusted execution is afterwards what it was before. -/
def Steady (action : Run α) : Prop := ∀ trust, (action.startFrom trust).2 = trust

theorem steady_pure (a : α) : (pure a : Run α).Steady := fun _ => rfl

theorem steady_abandon (message : String) : (abandon message : Run α).Steady := fun _ => rfl

theorem steady_depth : depth.Steady := fun _ => rfl

theorem steady_trust : trust.Steady := fun _ => rfl

/-- What is known of a steady computation is its outcome. -/
theorem Steady.startFrom_eq {action : Run α} (steady : action.Steady) (trust : Trust) :
    action.startFrom trust = ((action.startFrom trust).1, trust) :=
  Prod.ext rfl (steady trust)

/-- What runs after a steady computation starts from the same depth. -/
theorem Steady.startFrom_bind {action : Run α} (steady : action.Steady) (next : α → Run β)
    (trust : Trust) :
    (action >>= next).startFrom trust = match (action.startFrom trust).1 with
      | .ok a => (next a).startFrom trust
      | .error panic => (.error panic, trust) := by
  rw [Run.startFrom_bind, steady.startFrom_eq trust]
  cases (action.startFrom trust).1 <;> rfl

/-- What is computed from the result of a steady computation. -/
theorem Steady.startFrom_map {action : Run α} (steady : action.Steady) (f : α → β)
    (trust : Trust) :
    (f <$> action).startFrom trust = ((action.startFrom trust).1.map f, trust) := by
  rw [map_eq_pure_bind, steady.startFrom_bind]
  cases (action.startFrom trust).1 <;> rfl

theorem Steady.bind {action : Run α} {next : α → Run β} (steady : action.Steady)
    (rest : ∀ a, (next a).Steady) : (action >>= next).Steady := by
  intro trust
  rw [steady.startFrom_bind]
  cases (action.startFrom trust).1 with
  | ok a => exact rest a trust
  | error panic => rfl

/-- A guard is left however the computation inside it ends. -/
theorem Steady.insecurely {action : Run α} (steady : action.Steady) :
    (insecurely action).Steady := by
  intro trust
  rw [startFrom_insecurely, steady]
  exact trust.leave_enter

end Run

namespace RunOn

variable {α β γ : Type}

/-! ## Equations on an object -/

/-- Returning a value does nothing else. -/
@[simp] theorem startFrom_pure (a : α) (state : γ) (trust : Trust) :
    (pure a : RunOn γ α).startFrom state trust = ((.ok a, state), trust) := rfl

@[simp] theorem startFrom_object (state : γ) (trust : Trust) :
    (object : RunOn γ γ).startFrom state trust = ((.ok state, state), trust) := rfl

@[simp] theorem startFrom_change (f : γ → γ) (state : γ) (trust : Trust) :
    (change f).startFrom state trust = ((.ok (), f state), trust) := rfl

/-- One computation after another; the second one is left out if the first one panics. -/
theorem startFrom_bind (action : RunOn γ α) (next : α → RunOn γ β) (state : γ) (trust : Trust) :
    (action >>= next).startFrom state trust = match action.startFrom state trust with
      | ((.ok a, left), after) => (next a).startFrom left after
      | ((.error panic, left), after) => ((.error panic, left), after) := by
  show ((ExceptT.bindCont next ((action.run.run state).run trust).1.1).run
    ((action.run.run state).run trust).1.2).run ((action.run.run state).run trust).2 = _
  rw [startFrom]
  rcases (action.run.run state).run trust with ⟨⟨_ | _, left⟩, after⟩ <;> rfl

/-- Beside an object. -/
theorem startFrom_beside (action : Run α) (state : γ) (trust : Trust) :
    (Run.beside action : RunOn γ α).startFrom state trust =
      (((action.startFrom trust).1, state), (action.startFrom trust).2) := rfl

/-- Working on an object of one's own. -/
theorem startFrom_on (action : RunOn γ α) (state : γ) (trust : Trust) :
    (action.on state).startFrom trust =
      let ((outcome, left), after) := action.startFrom state trust
      (outcome.map fun result => (result, left), after) := rfl

/-! ## Steady computations on an object -/

/-- The depth of trusted execution is afterwards what it was before. -/
def Steady (action : RunOn γ α) : Prop :=
  ∀ state trust, (action.startFrom state trust).2 = trust

theorem steady_pure (a : α) : (pure a : RunOn γ α).Steady := fun _ _ => rfl

theorem steady_object : (object : RunOn γ γ).Steady := fun _ _ => rfl

theorem steady_change (f : γ → γ) : (change f).Steady := fun _ _ => rfl

theorem Steady.bind {action : RunOn γ α} {next : α → RunOn γ β} (steady : action.Steady)
    (rest : ∀ a, (next a).Steady) : (action >>= next).Steady := by
  intro state trust
  -- `next` starts from the depth that `action` leaves, which is the depth that it was given.
  have same : (action.startFrom state trust).2 = trust := steady state trust
  rw [startFrom_bind]
  rcases result : action.startFrom state trust with ⟨⟨panic | a, left⟩, after⟩
  · rw [result] at same
    exact same
  · rw [result] at same
    exact (rest a left after).trans same

theorem steady_beside {action : Run α} (steady : action.Steady) :
    (Run.beside action : RunOn γ α).Steady := fun _ trust => steady trust

theorem Steady.focus {action : RunOn β α} (steady : action.Steady) (read : γ → β)
    (write : β → γ → γ) : (focus read write action).Steady :=
  fun state trust => steady (read state) trust

theorem Steady.on {action : RunOn γ α} (steady : action.Steady) (state : γ) :
    (action.on state).Steady := fun trust => steady state trust

end RunOn

end Warden
