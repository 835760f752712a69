/-! # Trusted execution
Code that works out permissions must be able to look at protected data without asking for
permission again. It runs in *trusted* execution, where every check passes. Trusted execution
nests: a thread counts the guards it has entered and not yet left, and the task it works on counts
its own nested scopes. A computation of type `Run α` starts from such a state, ends in one, and
either returns an `α` or panics; the state survives a panic. `RunOn γ α` also works on an object,
and what it stored in the object before a panic stays there. -/

namespace Warden

/-- How deep the current thread is in trusted execution. -/
structure Trust where
  /-- Guards that the thread has entered and not left. -/
  guards : Nat := 0
  /-- Trusted scopes around the current task. -/
  scopes : Nat := 0
  deriving DecidableEq, Repr, Inhabited

namespace Trust

/-- The total depth. -/
def depth (trust : Trust) : Nat := trust.guards + trust.scopes

/-- Whether execution is trusted. -/
def isActive (trust : Trust) : Bool := 0 < trust.depth

/-- Enter one more guard. -/
def enter (trust : Trust) : Trust := { trust with guards := trust.guards + 1 }

/-- Leave a guard; without one nothing changes. -/
def leave (trust : Trust) : Trust := { trust with guards := trust.guards - 1 }

/-- The state of a thread that has just been started: nothing is inherited. -/
def ofNewThread : Trust := {}

@[simp] theorem leave_enter (trust : Trust) : trust.enter.leave = trust := rfl

@[simp] theorem depth_enter (trust : Trust) : trust.enter.depth = trust.depth + 1 := by
  simp [enter, depth, Nat.add_right_comm]

end Trust

/-- A computation that was abandoned, with the text it gave. -/
structure Panic where
  /-- What was wrong. -/
  message : String
  deriving DecidableEq, Repr

/-- A computation of a thread. -/
abbrev Run (α : Type) : Type := ExceptT Panic (StateM Trust) α

/-- A computation of a thread on an object of type `γ`. -/
abbrev RunOn (γ α : Type) : Type := ExceptT Panic (StateT γ (StateM Trust)) α

namespace Run

variable {α γ : Type}

/-- The outcome and the final state of a computation. -/
def startFrom (action : Run α) (trust : Trust) : Except Panic α × Trust :=
  action.run.run trust

/-- Abandon the computation. -/
def abandon (message : String) : Run α := throw ⟨message⟩

/-- The current depth of trusted execution. -/
def depth : Run Nat := do return (← get).depth

/-- The state of trusted execution. -/
def trust : Run Trust := get

/-- Whether execution is trusted. -/
def isTrusted : Run Bool := do return (← Run.trust).isActive

/-- Run a computation inside one more guard, which is left however the computation ends. -/
def insecurely (action : Run α) : Run α :=
  ExceptT.mk fun trust =>
    let (outcome, after) := action.startFrom trust.enter
    (outcome, after.leave)

/-- Run a computation inside one more scope of the task. Afterwards, however it ends, the task is
as deep as before. -/
def insecurelyScoped (action : Run α) : Run α :=
  ExceptT.mk fun trust =>
    let (outcome, after) := action.startFrom { trust with scopes := trust.scopes + 1 }
    (outcome, { after with scopes := trust.scopes })

/-- Run a computation and take a panic as a result. -/
def attempt (action : Run α) : Run (Except Panic α) :=
  ExceptT.mk fun trust =>
    let (outcome, after) := action.startFrom trust
    (.ok outcome, after)

/-- Run a computation beside an object, which it does not touch. -/
def beside (action : Run α) : RunOn γ α :=
  ExceptT.mk fun object trust =>
    let (outcome, after) := action.startFrom trust
    ((outcome, object), after)

instance : MonadLift Run (RunOn γ) := ⟨beside⟩

end Run

namespace RunOn

variable {α γ : Type}

/-- The outcome, the object and the final state of a computation. -/
def startFrom (action : RunOn γ α) (object : γ) (trust : Trust) : (Except Panic α × γ) × Trust :=
  action.run.run object |>.run trust

/-- The object. -/
def object : RunOn γ γ := ExceptT.mk fun object trust => ((.ok object, object), trust)

/-- Change the object. -/
def change (f : γ → γ) : RunOn γ Unit := ExceptT.mk fun object trust => ((.ok (), f object), trust)

/-- Run a computation on an object of one's own, and return what it leaves of the object. -/
def on (action : RunOn γ α) (object : γ) : Run (α × γ) :=
  ExceptT.mk fun trust =>
    let ((outcome, object), after) := action.startFrom object trust
    (outcome.map fun result => (result, object), after)

/-- Work on a part of an object, given how the part is read and written. -/
def focus {β : Type} (read : γ → β) (write : β → γ → γ) (action : RunOn β α) : RunOn γ α :=
  ExceptT.mk fun object trust =>
    let ((outcome, part), after) := action.startFrom (read object) trust
    ((outcome, write part object), after)

end RunOn

end Warden
