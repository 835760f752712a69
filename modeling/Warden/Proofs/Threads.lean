import Mathlib.Data.Finset.Card
import Mathlib.Data.Finset.SDiff
import Warden.Proofs.Run
/-! # Threads
A **process** runs several threads, and tasks that move between them. Each thread counts the guards
that it has entered and not left, and each open scope of a task carries a depth, from which the next
scope inside it counts on; code outside of tasks is a task without scopes. Guards may be left in any
order. What happened so far is a **history**, a list of moments in any interleaving of the threads;
what it leaves behind is `Process.after`.

Not every list of moments is **legal** (`Process.Legal`). A guard is entered once, it stays on its
thread, and it is left at most once; a task closes only scopes that it has opened. A legal history
tells by itself which guards are live and how deep a task is in its scopes, and the counters say
just that (`Process.Legal.guards_after`, `Process.Legal.carried_after`).

What a thread does on its own is a piece of **work**. Wherever it is in a history, a run of the work
from the depth of its thread ends at the depth that the history leaves, whether it returns or panics
and whatever the other threads do meanwhile (`Work.startFrom_run`, `Process.Agree.interleave`). -/

namespace Warden

/-- What code does to trusted execution. Guards are told apart by number. -/
inductive Act where
  /-- Enter a guard. -/
  | enter (guard : Nat)
  /-- Leave a guard. -/
  | leave (guard : Nat)
  /-- Start a trusted scope of the task. -/
  | openScope
  /-- End the innermost scope of the task. -/
  | closeScope
  deriving DecidableEq

/-- What an act does to a number of guards. -/
def Act.counting : Act → Nat → Nat
  | .enter _, count => count + 1
  | .leave _, count => count - 1
  | .openScope, count => count
  | .closeScope, count => count

/-- What an act does to a number of scopes. -/
def Act.nesting : Act → Nat → Nat
  | .enter _, count => count
  | .leave _, count => count
  | .openScope, count => count + 1
  | .closeScope, count => count - 1

/-- What an act does to the depths that open scopes carry, innermost first. -/
def Act.carrying : Act → List Nat → List Nat
  | .enter _, depths => depths
  | .leave _, depths => depths
  | .openScope, depths => (depths.headD 0 + 1) :: depths
  | .closeScope, depths => depths.tail

/-- Something done on a thread by the task that runs there. -/
structure Moment where
  /-- The thread. -/
  thread : Nat
  /-- The task. -/
  task : Nat
  /-- What is done. -/
  act : Act
  deriving DecidableEq

/-- Trusted execution of all threads and tasks. -/
structure Process where
  /-- How many guards a thread counts. -/
  guards : Nat → Nat
  /-- The depths that the open scopes of a task carry, innermost first. -/
  carried : Nat → List Nat

namespace Process

variable {history earlier later : List Moment} {moment : Moment} {thread other task guard : Nat}

/-! ## What a history leaves behind -/

/-- The state of trusted execution for a task on a thread. -/
def trust (process : Process) (thread task : Nat) : Trust where
  guards := process.guards thread
  scopes := (process.carried task).headD 0

/-- Nothing has been done yet. -/
def initial : Process where
  guards _ := Trust.ofNewThread.guards
  carried _ := []

/-- A moment passes. -/
def perform (process : Process) (moment : Moment) : Process :=
  let trust := process.trust moment.thread moment.task
  match moment.act with
  | .enter _ =>
    { process with guards := Function.update process.guards moment.thread trust.enter.guards }
  | .leave _ =>
    { process with guards := Function.update process.guards moment.thread trust.leave.guards }
  | .openScope =>
    { process with
      carried := Function.update process.carried moment.task
        ((trust.scopes + 1) :: process.carried moment.task) }
  | .closeScope =>
    { process with
      carried := Function.update process.carried moment.task (process.carried moment.task).tail }

/-- Several moments pass. -/
def through (process : Process) (moments : List Moment) : Process := moments.foldl perform process

/-- What a history leaves behind. -/
def after (history : List Moment) : Process := initial.through history

/-- A new task on a new thread inherits nothing. -/
theorem trust_initial (thread task : Nat) : initial.trust thread task = Trust.ofNewThread := rfl

@[simp] theorem through_nil (process : Process) : process.through [] = process := rfl

@[simp] theorem through_cons (process : Process) (moment : Moment) (moments : List Moment) :
    process.through (moment :: moments) = (process.perform moment).through moments := rfl

@[simp] theorem through_append (process : Process) (earlier later : List Moment) :
    process.through (earlier ++ later) = (process.through earlier).through later :=
  List.foldl_append

theorem after_append (earlier later : List Moment) :
    after (earlier ++ later) = (after earlier).through later := through_append ..

/-! ## What a history tells -/

/-- The guards entered on a thread. -/
def entered (history : List Moment) (thread : Nat) : Finset Nat :=
  (history.filterMap fun moment => match moment.act with
    | .enter guard => if moment.thread = thread then some guard else none
    | _ => none).toFinset

/-- The guards left. -/
def left (history : List Moment) : Finset Nat :=
  (history.filterMap fun moment => match moment.act with
    | .leave guard => some guard
    | _ => none).toFinset

/-- The **live** guards of a thread were entered there and not left. -/
def live (history : List Moment) (thread : Nat) : Finset Nat :=
  entered history thread \ left history

/-- How often a task did something. -/
def times (history : List Moment) (task : Nat) (act : Act) : Nat :=
  history.countP fun moment => moment.task = task ∧ moment.act = act

/-- The **nesting** of a task is the number of scopes that it has opened and not closed. -/
def nesting (history : List Moment) (task : Nat) : Nat :=
  times history task .openScope - times history task .closeScope

/-- What may happen next. -/
def Possible (history : List Moment) : Moment → Prop
  | ⟨_, _, .enter guard⟩ => ∀ moment ∈ history, moment.act ≠ .enter guard
  | ⟨thread, _, .leave guard⟩ => guard ∈ live history thread
  | ⟨_, _, .openScope⟩ => True
  | ⟨_, task, .closeScope⟩ => 0 < nesting history task

/-- Histories in which each moment was possible. -/
inductive Legal : List Moment → Prop where
  /-- Nothing has happened yet. -/
  | nil : Legal []
  /-- One thing more has happened. -/
  | concat {earlier : List Moment} {moment : Moment} :
    Legal earlier → Possible earlier moment → Legal (earlier ++ [moment])

/-- What may happen next, and then, and so on. -/
def Continues (history : List Moment) : List Moment → Prop
  | [] => True
  | moment :: later => Possible history moment ∧ Continues (history ++ [moment]) later

theorem legal_concat_iff :
    Legal (history ++ [moment]) ↔ Legal history ∧ Possible history moment := by
  refine ⟨fun legal => ?_, fun ⟨legal, possible⟩ => .concat legal possible⟩
  generalize whole : history ++ [moment] = moments at legal
  cases legal with
  | nil => exact absurd whole (List.append_ne_nil_of_right_ne_nil _ (List.cons_ne_nil _ _))
  | concat legal possible =>
    obtain ⟨rfl, last⟩ := List.append_inj' whole rfl
    cases last
    exact ⟨legal, possible⟩

/-- A legal history is one that legally continues what happened first. -/
theorem legal_append_iff : Legal (earlier ++ later) ↔ Legal earlier ∧ Continues earlier later := by
  induction later generalizing earlier with
  | nil => rw [List.append_nil, Continues, and_true]
  | cons moment later ih => rw [List.append_cons, ih, legal_concat_iff, and_assoc, Continues]

theorem legal_iff_continues : Legal history ↔ Continues [] history :=
  (legal_append_iff : Legal ([] ++ history) ↔ _).trans (and_iff_right .nil)

instance decidablePossible : (moment : Moment) → Decidable (Possible history moment)
  | ⟨_, _, .enter guard⟩ =>
    inferInstanceAs (Decidable (∀ moment ∈ history, moment.act ≠ .enter guard))
  | ⟨thread, _, .leave guard⟩ => inferInstanceAs (Decidable (guard ∈ live history thread))
  | ⟨_, _, .openScope⟩ => inferInstanceAs (Decidable True)
  | ⟨_, task, .closeScope⟩ => inferInstanceAs (Decidable (0 < nesting history task))

instance decidableContinues : (history later : List Moment) → Decidable (Continues history later)
  | _, [] => inferInstanceAs (Decidable True)
  | history, moment :: later =>
    have := decidableContinues (history ++ [moment]) later
    inferInstanceAs (Decidable (Possible history moment ∧ Continues (history ++ [moment]) later))

instance (history : List Moment) : Decidable (Legal history) :=
  decidable_of_iff _ legal_iff_continues.symm

theorem mem_entered : guard ∈ entered history thread ↔
    ∃ moment ∈ history, moment.thread = thread ∧ moment.act = .enter guard := by
  rw [entered, List.mem_toFinset, List.mem_filterMap]
  refine exists_congr fun moment => and_congr_right fun _ => ?_
  cases moment.act <;> simp

theorem mem_left : guard ∈ left history ↔ ∃ moment ∈ history, moment.act = .leave guard := by
  rw [left, List.mem_toFinset, List.mem_filterMap]
  refine exists_congr fun moment => and_congr_right fun _ => ?_
  cases moment.act <;> simp

/-! ## One moment more -/

/-- A guard that may be entered is a new one on every thread. -/
theorem Possible.not_mem_entered (possible : Possible history ⟨thread, task, .enter guard⟩)
    (other : Nat) : guard ∉ entered history other := by
  intro mem
  obtain ⟨moment, listed, -, enters⟩ := mem_entered.mp mem
  exact possible moment listed enters

theorem mem_entered_concat : guard ∈ entered (history ++ [moment]) thread ↔
    guard ∈ entered history thread ∨ (moment.thread = thread ∧ moment.act = .enter guard) := by
  simp [mem_entered, or_and_right, exists_or]

theorem mem_left_concat : guard ∈ left (history ++ [moment]) ↔
    guard ∈ left history ∨ moment.act = .leave guard := by
  simp [mem_left, or_and_right, exists_or]

theorem times_concat (act : Act) : times (history ++ [moment]) task act =
    times history task act + if moment.task = task ∧ moment.act = act then 1 else 0 := by
  rw [times, List.countP_append, List.countP_singleton]
  simp only [decide_eq_true_eq, times]

/-- Every guard that was left had been entered. -/
theorem Legal.exists_of_mem_left (legal : Legal history) (mem : guard ∈ left history) :
    ∃ thread, guard ∈ entered history thread := by
  induction legal with
  | nil => cases mem
  | @concat earlier moment _ possible ih =>
    have before : ∃ thread, guard ∈ entered earlier thread := by
      rcases mem_left_concat.mp mem with before | leaves
      · exact ih before
      · obtain ⟨here, task, act⟩ := moment
        cases leaves
        exact ⟨here, (Finset.mem_sdiff.mp possible).1⟩
    exact before.imp fun _ mem => mem_entered_concat.mpr (.inl mem)

/-- No guard is entered on two threads. -/
theorem Legal.thread_eq (legal : Legal history) (mem : guard ∈ entered history thread)
    (memOther : guard ∈ entered history other) : thread = other := by
  induction legal with
  | nil => cases mem
  | @concat earlier moment _ possible ih =>
    obtain ⟨here, task, act⟩ := moment
    rcases mem_entered_concat.mp mem with before | ⟨rfl, enters⟩
    · rcases mem_entered_concat.mp memOther with beforeOther | ⟨rfl, enters⟩
      · exact ih before beforeOther
      · cases enters
        exact absurd before (possible.not_mem_entered thread)
    · rcases mem_entered_concat.mp memOther with beforeOther | ⟨rfl, -⟩
      · cases enters
        exact absurd beforeOther (possible.not_mem_entered other)
      · rfl

/-- A new guard is live on its thread. -/
theorem Legal.live_enter (legal : Legal history)
    (possible : Possible history ⟨thread, task, .enter guard⟩) :
    live (history ++ [⟨thread, task, .enter guard⟩]) thread =
      insert guard (live history thread) := by
  have unused : guard ∉ left history := fun mem =>
    have ⟨thread, mem⟩ := legal.exists_of_mem_left mem
    possible.not_mem_entered thread mem
  ext found
  simp only [live, Finset.mem_sdiff, Finset.mem_insert, mem_entered_concat, mem_left_concat,
    true_and, reduceCtorEq, or_false, Act.enter.injEq]
  constructor
  · rintro ⟨before | rfl, kept⟩
    · exact .inr ⟨before, kept⟩
    · exact .inl rfl
  · rintro (rfl | ⟨before, kept⟩)
    · exact ⟨.inr rfl, unused⟩
    · exact ⟨.inl before, kept⟩

/-- A guard that was left is live no more. -/
theorem live_leave : live (history ++ [⟨thread, task, .leave guard⟩]) other =
    (live history other).erase guard := by
  ext found
  simp only [live, Finset.mem_sdiff, Finset.mem_erase, mem_entered_concat, mem_left_concat,
    reduceCtorEq, and_false, or_false, Act.leave.injEq, not_or, eq_comm (a := guard)]
  tauto

/-- The live guards of a thread stay as they are if none is entered there and none is left. -/
theorem live_concat_of_unmoved
    (noEnter : ∀ guard, moment.thread = thread → moment.act ≠ .enter guard)
    (noLeave : ∀ guard, moment.act ≠ .leave guard) :
    live (history ++ [moment]) thread = live history thread := by
  ext guard
  have notEntered : ¬ (moment.thread = thread ∧ moment.act = .enter guard) :=
    fun ⟨same, enters⟩ => noEnter guard same enters
  rw [live, live, Finset.mem_sdiff, Finset.mem_sdiff, mem_entered_concat, mem_left_concat,
    or_iff_left notEntered, or_iff_left (noLeave guard)]

/-- What a moment does to the number of live guards of each thread. -/
theorem Legal.card_live_concat (legal : Legal history) (possible : Possible history moment)
    (thread : Nat) : (live (history ++ [moment]) thread).card =
      if moment.thread = thread then moment.act.counting (live history thread).card
      else (live history thread).card := by
  obtain ⟨here, task, act⟩ := moment
  cases act with
  | enter guard =>
    dsimp only [Act.counting]
    split
    case isTrue same =>
      subst same
      -- The guard is new, so that it was not among the live ones.
      rw [legal.live_enter possible, Finset.card_insert_of_notMem]
      exact fun mem => possible.not_mem_entered here (Finset.mem_sdiff.mp mem).1
    case isFalse apart =>
      exact congrArg Finset.card (live_concat_of_unmoved (fun _ same => absurd same apart) nofun)
  | leave guard =>
    dsimp only [Act.counting]
    rw [live_leave]
    split
    case isTrue same =>
      subst same
      exact Finset.card_erase_of_mem possible
    case isFalse apart =>
      -- The guard is live on its own thread, so that it was never entered on this one.
      rw [Finset.erase_eq_of_notMem]
      intro mem
      exact apart (legal.thread_eq (Finset.mem_sdiff.mp possible).1 (Finset.mem_sdiff.mp mem).1)
  | openScope =>
    rw [Act.counting, ite_self]
    exact congrArg Finset.card (live_concat_of_unmoved nofun nofun)
  | closeScope =>
    rw [Act.counting, ite_self]
    exact congrArg Finset.card (live_concat_of_unmoved nofun nofun)

/-- No task closes more scopes than it opened. -/
theorem Legal.closed_le_opened (legal : Legal history) (task : Nat) :
    times history task .closeScope ≤ times history task .openScope := by
  induction legal with
  | nil => exact Nat.le_refl 0
  | @concat earlier moment _ possible ih =>
    obtain ⟨here, doing, act⟩ := moment
    rw [times_concat, times_concat]
    cases act with
    | closeScope =>
      by_cases same : doing = task
      · subst same
        have isOpen : 0 < times earlier doing .openScope - times earlier doing .closeScope :=
          possible
        simp only [reduceCtorEq, and_false, and_self, if_true, if_false, Nat.add_zero]
        omega
      · simp [same, ih]
    | _ =>
      simp only [reduceCtorEq, and_false, if_false, Nat.add_zero]
      omega

/-- What a moment does to the nesting of each task. -/
theorem Legal.nesting_concat (legal : Legal history) (task : Nat) :
    nesting (history ++ [moment]) task =
      if moment.task = task then moment.act.nesting (nesting history task)
      else nesting history task := by
  have balanced := legal.closed_le_opened task
  obtain ⟨here, doing, act⟩ := moment
  rw [nesting, times_concat, times_concat, nesting]
  by_cases same : doing = task
  · cases act <;> simp [same, Act.nesting] <;> omega
  · simp [same]

/-- What a moment does to the guards that each thread counts. -/
theorem guards_perform (process : Process) (moment : Moment) (thread : Nat) :
    (process.perform moment).guards thread =
      if moment.thread = thread then moment.act.counting (process.guards thread)
      else process.guards thread := by
  obtain ⟨here, task, act⟩ := moment
  by_cases same : here = thread
  · subst same
    cases act <;> simp [perform, Act.counting, trust, Trust.enter, Trust.leave]
  · cases act <;> simp [perform, same, Ne.symm same]

/-- What a moment does to the depths that the open scopes of each task carry. -/
theorem carried_perform (process : Process) (moment : Moment) (task : Nat) :
    (process.perform moment).carried task =
      if moment.task = task then moment.act.carrying (process.carried task)
      else process.carried task := by
  obtain ⟨thread, doing, act⟩ := moment
  by_cases same : doing = task
  · subst same
    cases act <;> simp [perform, Act.carrying, trust]
  · cases act <;> simp [perform, same, Ne.symm same]

theorem trust_perform_enter (guard : Nat) (process : Process) :
    (process.perform ⟨thread, task, .enter guard⟩).trust thread task =
      (process.trust thread task).enter := by
  simp [perform, trust, Trust.enter]

theorem trust_perform_leave (guard : Nat) (process : Process) :
    (process.perform ⟨thread, task, .leave guard⟩).trust thread task =
      (process.trust thread task).leave := by
  simp [perform, trust, Trust.leave]

theorem trust_perform_openScope (process : Process) :
    (process.perform ⟨thread, task, .openScope⟩).trust thread task =
      { process.trust thread task with scopes := (process.trust thread task).scopes + 1 } := by
  simp [perform, trust]

theorem trust_perform_closeScope (process : Process) :
    (process.perform ⟨thread, task, .closeScope⟩).trust thread task =
      { process.trust thread task with scopes := (process.carried task).tail.headD 0 } := by
  simp [perform, trust]

/-! ## Counters of a legal history -/

/-- The guards that a thread counts are the live ones. -/
theorem Legal.guards_after (legal : Legal history) (thread : Nat) :
    (after history).guards thread = (live history thread).card := by
  induction legal with
  | nil => rfl
  | concat legal possible ih =>
    rw [after_append, through_cons, through_nil, guards_perform, ih,
      legal.card_live_concat possible]

/-- The depths from a nesting down to one. -/
def countdown : Nat → List Nat
  | 0 => []
  | nesting + 1 => (nesting + 1) :: countdown nesting

@[simp] theorem headD_countdown (nesting : Nat) : (countdown nesting).headD 0 = nesting := by
  cases nesting <;> rfl

theorem carrying_countdown (act : Act) (nesting : Nat) :
    act.carrying (countdown nesting) = countdown (act.nesting nesting) := by
  cases act with
  | openScope => rw [Act.carrying, headD_countdown, Act.nesting, countdown]
  | closeScope => cases nesting <;> rfl
  | _ => rfl

/-- The scopes of a task carry the depths from its nesting down to one. -/
theorem Legal.carried_after (legal : Legal history) (task : Nat) :
    (after history).carried task = countdown (Process.nesting history task) := by
  induction legal with
  | nil => rfl
  | concat legal _ ih =>
    rw [after_append, through_cons, through_nil, carried_perform, ih, legal.nesting_concat,
      carrying_countdown, apply_ite countdown]

/-- **The depth counts** live guards and open scopes. -/
theorem Legal.trust_after (legal : Legal history) (thread task : Nat) :
    (after history).trust thread task =
      ⟨(live history thread).card, Process.nesting history task⟩ := by
  rw [trust, legal.guards_after, legal.carried_after, headD_countdown]

/-! ## What concerns a task on a thread -/

/-- A moment **concerns** a task on a thread if it is a moment of this thread or of this task. -/
def Concerns (thread task : Nat) (moment : Moment) : Prop :=
  moment.thread = thread ∨ moment.task = task

instance : DecidablePred (Concerns thread task) := fun moment =>
  inferInstanceAs (Decidable (moment.thread = thread ∨ moment.task = task))

/-- Two processes **agree** about a task on a thread. -/
structure Agree (thread task : Nat) (process other : Process) : Prop where
  /-- The thread counts as many guards. -/
  guards : process.guards thread = other.guards thread
  /-- The scopes of the task carry the same depths. -/
  carried : process.carried task = other.carried task

namespace Agree

variable {process twin : Process}

theorem trust (agree : Agree thread task process twin) :
    process.trust thread task = twin.trust thread task := by
  rw [Process.trust, Process.trust, agree.guards, agree.carried]

/-- Processes that agree go on to agree when the same happens in both. -/
theorem perform (agree : Agree thread task process twin) (moment : Moment) :
    Agree thread task (process.perform moment) (twin.perform moment) where
  guards := by rw [guards_perform, guards_perform, agree.guards]
  carried := by rw [carried_perform, carried_perform, agree.carried]

/-- Nothing changes for a task on a thread by moments that do not concern it. -/
theorem perform_left (agree : Agree thread task process twin)
    (unconcerned : ¬ Concerns thread task moment) :
    Agree thread task (process.perform moment) twin where
  guards := by rw [guards_perform, if_neg fun same => unconcerned (.inl same), agree.guards]
  carried := by rw [carried_perform, if_neg fun same => unconcerned (.inr same), agree.carried]

/-- **Interleaving** with what does not concern a task on a thread makes no difference to it. -/
theorem interleave (agree : Agree thread task process twin) (moments : List Moment) :
    Agree thread task (process.through moments)
      (twin.through (moments.filter (Concerns thread task))) := by
  induction moments generalizing process twin with
  | nil => exact agree
  | cons moment moments ih =>
    -- What is filtered out happens in the first process only, and its task does not notice.
    by_cases concerns : Concerns thread task moment
    · rw [List.filter_cons, if_pos (decide_eq_true concerns)]
      exact ih (agree.perform moment)
    · rw [List.filter_cons, if_neg fun marked => concerns (of_decide_eq_true marked)]
      exact ih (agree.perform_left concerns)

end Agree

end Process

/-! ## Work on one thread -/

/-- What the code of a task does on a thread, as it comes to be run. A guard that goes because of a
panic is dropped before it. -/
inductive Work where
  /-- Return. -/
  | done
  /-- Panic. -/
  | abandon (message : String)
  /-- Enter a guard, and hold it. -/
  | enter (guard : Nat) (next : Work)
  /-- Drop a guard. -/
  | drop (guard : Nat) (next : Work)
  /-- Run a block inside a guard of its own. -/
  | insecurely (guard : Nat) (body next : Work)
  /-- Run a block inside a scope of its own. -/
  | insecurelyScoped (body next : Work)
  /-- Run a block and catch its panic. -/
  | attempt (body next : Work)

namespace Work

/-- Run the work. -/
def run : Work → Run Unit
  | .done => pure ()
  | .abandon message => Run.abandon message
  | .enter _ next => do
    modify Trust.enter
    next.run
  | .drop _ next => do
    modify Trust.leave
    next.run
  | .insecurely _ body next => do
    Run.insecurely body.run
    next.run
  | .insecurelyScoped body next => do
    Run.insecurelyScoped body.run
    next.run
  | .attempt body next => do
    let _ ← Run.attempt body.run
    next.run

/-- How the work ends. -/
def outcome : Work → Except Panic Unit
  | .done => .ok ()
  | .abandon message => .error ⟨message⟩
  | .enter _ next => next.outcome
  | .drop _ next => next.outcome
  | .insecurely _ body next => body.outcome >>= fun _ => next.outcome
  | .insecurelyScoped body next => body.outcome >>= fun _ => next.outcome
  | .attempt _ next => next.outcome

/-- Whether the work returns. -/
def returns (work : Work) : Bool := work.outcome.isOk

/-- What the work does to trusted execution. A panic leaves the guards and scopes of the blocks
around it, and skips what comes after them. -/
def acts : Work → List Act
  | .done => []
  | .abandon _ => []
  | .enter guard next => .enter guard :: next.acts
  | .drop guard next => .leave guard :: next.acts
  | .insecurely guard body next =>
    .enter guard :: (body.acts ++ .leave guard :: if body.returns then next.acts else [])
  | .insecurelyScoped body next =>
    .openScope :: (body.acts ++ .closeScope :: if body.returns then next.acts else [])
  | .attempt body next => body.acts ++ next.acts

/-- What happens if a task does the work on a thread. -/
def moments (work : Work) (thread task : Nat) : List Moment := work.acts.map (Moment.mk thread task)

variable {thread task : Nat} {process : Process}

/-- What happens in a block that begins and ends with an act, and after it. -/
def blockMoments (first last : Act) (body next : Work) (thread task : Nat) : List Moment :=
  ⟨thread, task, first⟩ :: (body.moments thread task ++ ⟨thread, task, last⟩ ::
    if body.returns then next.moments thread task else [])

theorem moments_insecurely (guard : Nat) (body next : Work) :
    (insecurely guard body next).moments thread task =
      blockMoments (.enter guard) (.leave guard) body next thread task := by
  rw [moments, acts, blockMoments]
  cases body.returns <;> simp [moments]

theorem moments_insecurelyScoped (body next : Work) :
    (insecurelyScoped body next).moments thread task =
      blockMoments .openScope .closeScope body next thread task := by
  rw [moments, acts, blockMoments]
  cases body.returns <;> simp [moments]

theorem moments_attempt (body next : Work) : (attempt body next).moments thread task =
    body.moments thread task ++ next.moments thread task := List.map_append

/-- A block leaves the scopes of the task as they were if its ends do, its body does, and what comes
after it does. -/
theorem carried_blockMoments {first last : Act} {body next : Work}
    (ends : ∀ depths, last.carrying (first.carrying depths) = depths)
    (bodyKeeps : ∀ process : Process, (process.through (body.moments thread task)).carried task =
      process.carried task)
    (nextKeeps : ∀ process : Process, (process.through (next.moments thread task)).carried task =
      process.carried task) (process : Process) :
    (process.through (blockMoments first last body next thread task)).carried task =
      process.carried task := by
  have restKeeps (process : Process) :
      (process.through (if body.returns then next.moments thread task else [])).carried task =
        process.carried task := by
    split
    · exact nextKeeps process
    · rfl
  rw [blockMoments, Process.through_cons, Process.through_append, Process.through_cons, restKeeps,
    Process.carried_perform, if_pos rfl, bodyKeeps, Process.carried_perform, if_pos rfl, ends]

/-- After work the scopes of the task are those that were open before. -/
theorem carried_moments (work : Work) (process : Process) :
    (process.through (work.moments thread task)).carried task = process.carried task := by
  induction work generalizing process with
  | done => rfl
  | abandon message => rfl
  | enter guard next ih =>
    have entering := process.carried_perform ⟨thread, task, .enter guard⟩ task
    exact (ih _).trans (entering.trans (if_pos rfl))
  | drop guard next ih =>
    have dropping := process.carried_perform ⟨thread, task, .leave guard⟩ task
    exact (ih _).trans (dropping.trans (if_pos rfl))
  | insecurely guard body next ihBody ihNext =>
    rw [moments_insecurely]
    exact carried_blockMoments (fun _ => rfl) ihBody ihNext process
  | insecurelyScoped body next ihBody ihNext =>
    rw [moments_insecurelyScoped]
    exact carried_blockMoments (fun _ => rfl) ihBody ihNext process
  | attempt body next ihBody ihNext =>
    rw [moments_attempt, Process.through_append, ihNext, ihBody]

/-- A block and what comes after it. -/
theorem startFrom_block {first last : Act} {body next : Work} {block : Run Unit} {trust : Trust}
    (ran : block.startFrom trust = (body.outcome,
      (((process.perform ⟨thread, task, first⟩).through (body.moments thread task)).perform
        ⟨thread, task, last⟩).trust thread task))
    (ranNext : ∀ process : Process, next.run.startFrom (process.trust thread task) =
      (next.outcome, (process.through (next.moments thread task)).trust thread task)) :
    (block >>= fun _ => next.run).startFrom trust =
      (body.outcome >>= fun _ => next.outcome,
        (process.through (blockMoments first last body next thread task)).trust thread task) := by
  rw [Run.startFrom_bind, ran, blockMoments, Process.through_cons, Process.through_append,
    Process.through_cons, returns]
  cases body.outcome with
  | ok => exact ranNext _
  | error => rfl

/-- **A run of the work** ends as the work does, at the depth that its moments leave. -/
theorem startFrom_run (work : Work) (process : Process) :
    work.run.startFrom (process.trust thread task) =
      (work.outcome, (process.through (work.moments thread task)).trust thread task) := by
  induction work generalizing process with
  | done => rfl
  | abandon message => rfl
  | enter guard next ih =>
    have ranNext := ih (process.perform ⟨thread, task, .enter guard⟩)
    rwa [Process.trust_perform_enter] at ranNext
  | drop guard next ih =>
    have ranNext := ih (process.perform ⟨thread, task, .leave guard⟩)
    rwa [Process.trust_perform_leave] at ranNext
  | insecurely guard body next ihBody ihNext =>
    rw [moments_insecurely]
    refine startFrom_block ?_ ihNext
    rw [Run.startFrom_insecurely, ← Process.trust_perform_enter guard, ihBody,
      Process.trust_perform_leave]
  | insecurelyScoped body next ihBody ihNext =>
    rw [moments_insecurelyScoped]
    refine startFrom_block ?_ ihNext
    rw [Run.startFrom_insecurelyScoped, ← Process.trust_perform_openScope, ihBody,
      Process.trust_perform_closeScope, carried_moments, Process.carried_perform, if_pos rfl]
    -- The depth that the scope carried is gone, and the one below it is that of the start.
    rfl
  | attempt body next ihBody ihNext =>
    -- A panic inside is a result, so that what comes next starts in any case.
    have attempted : (Run.attempt body.run).startFrom (process.trust thread task) =
        (.ok body.outcome, (process.through (body.moments thread task)).trust thread task) := by
      rw [Run.startFrom_attempt, ihBody]
    rw [moments_attempt, Process.through_append, run, Run.startFrom_bind, attempted]
    exact ihNext _

end Work

/-! ## The depth -/

namespace Process

variable {history : List Moment}

/-- **Trusted execution counts guards**, in whatever order they are left and however the threads
take turns. After a legal history the depth of a task on a thread is the number of live guards of
the thread and of open scopes of the task, and execution is trusted iff there are any. Whenever a
guard is left, it takes one off the counter. And code that a task runs on a thread, blocks that
panic included, finds the state that its moments begin with and leaves the one that they end
with. -/
theorem depth_after (legal : Legal history) :
    (∀ thread task,
      let trust := (after history).trust thread task
      let depth := (live history thread).card + nesting history task
      Run.depth.startFrom trust = (.ok depth, trust) ∧
        Run.isTrusted.startFrom trust = (.ok (decide (0 < depth)), trust)) ∧
    (∀ earlier thread task guard later,
      history = earlier ++ ⟨thread, task, .leave guard⟩ :: later →
      let trust := (after earlier).trust thread task
      trust.leave.guards + 1 = trust.guards) ∧
    ∀ earlier later thread task (work : Work), history = earlier ++ later →
      later.filter (Concerns thread task) = work.moments thread task →
      work.run.startFrom ((after earlier).trust thread task) =
        (work.outcome, (after history).trust thread task) := by
  refine ⟨fun thread task => ?_, ?_, ?_⟩
  · have counts := legal.trust_after thread task
    exact ⟨by rw [Run.startFrom_depth, counts, Trust.depth],
      by rw [Run.startFrom_isTrusted, counts, Trust.isActive, Trust.depth]⟩
  · rintro earlier thread task guard later rfl trust
    obtain ⟨legalEarlier, possible, -⟩ := legal_append_iff.mp legal
    have counts : trust.guards = (live earlier thread).card := legalEarlier.guards_after thread
    have isLive : 0 < (live earlier thread).card := Finset.card_pos.mpr ⟨guard, possible⟩
    exact Nat.sub_add_cancel (counts ▸ isLive)
  · rintro earlier later thread task work rfl concerning
    have agree : Agree thread task (after earlier) (after earlier) := ⟨rfl, rfl⟩
    rw [work.startFrom_run, after_append, (agree.interleave later).trust, concerning]

/-- A thread drops its first guard before its second one, after a block that panicked, while another
thread is in a scope. -/
theorem depth_after_outOfOrder :
    let earlier : List Moment := [⟨0, 0, .enter 1⟩, ⟨0, 0, .enter 2⟩, ⟨1, 1, .openScope⟩]
    let block : List Moment := [⟨0, 0, .enter 3⟩, ⟨1, 1, .enter 4⟩, ⟨0, 0, .leave 3⟩]
    let dropped : Moment := ⟨0, 0, .leave 1⟩
    let work : Work := .attempt (.insecurely 3 (.abandon "rule failed") .done) (.drop 1 .done)
    let before := after (earlier ++ block)
    let process := after (earlier ++ (block ++ [dropped]))
    Legal (earlier ++ (block ++ [dropped])) ∧
      Run.depth.startFrom (process.trust 0 0) = (.ok 1, process.trust 0 0) ∧
      Run.isTrusted.startFrom (process.trust 2 0) = (.ok false, process.trust 2 0) ∧
      (before.trust 0 0).leave.guards + 1 = (before.trust 0 0).guards ∧
      work.run.startFrom ((after earlier).trust 0 0) = (.ok (), process.trust 0 0) := by
  intro earlier block dropped work before process
  have legal : Legal (earlier ++ (block ++ [dropped])) := by decide
  obtain ⟨depth, leaves, runs⟩ := depth_after legal
  have counted : (live (earlier ++ (block ++ [dropped])) 0).card +
      nesting (earlier ++ (block ++ [dropped])) 0 = 1 := by decide
  have idle : (live (earlier ++ (block ++ [dropped])) 2).card +
      nesting (earlier ++ (block ++ [dropped])) 0 = 0 := by decide
  have own : (block ++ [dropped]).filter (Concerns 0 0) = work.moments 0 0 := by decide
  refine ⟨legal, ?_, ?_, leaves (earlier ++ block) 0 0 1 [] rfl, runs _ _ 0 0 work rfl own⟩
  · rw [(depth 0 0).1, counted]
  · rw [(depth 2 0).2, idle]
    rfl

end Process

end Warden
