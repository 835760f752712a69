import Mathlib.Data.List.Chain
import Mathlib.Logic.Relation
import Warden.Proofs.Registration
/-! # Lineages of models
Models are defined, on tables or on other models, and rules are registered on them, in any order
(`History`). A model's **lineage** leads from the oldest of its ancestors down to itself. However
definitions and registrations alternate, the rules that run for a model are those registered on the
models of its lineage, one model after the other (`History.rules_run`); a rule registered on an
ancestor counts for a descendant that was defined before. So a rule that is registered on a model
makes no difference to any model that does not descend from it. -/

namespace Warden

/-! ## Counting rules along the parents -/

namespace RuleBook

variable {S Q : Type} {book : RuleBook S Q} {id : RuleSetId}

/-- The count of a set is that of its parent, if it has one, and that of its own rules. -/
theorem ruleCount_of_found {set : RuleSet S Q} (found : book.sets[id]? = some set) :
    book.ruleCount id = set.own.length + (set.parent.map book.ruleCount).getD 0 := by
  rw [ruleCount]
  split
  · next missing =>
    rw [missing] at found
    cases found
  · next other present =>
    rw [present] at found
    cases found
    split
    · next root =>
      rw [root]
      rfl
    · next parent child =>
      have inherited : set.parent.map book.ruleCount = some (book.ruleCount parent) := by
        rw [child]
        rfl
      rw [inherited]
      rfl

/-- The count of a set is the number of rules that run for it. -/
theorem ruleCount_eq_length (book : RuleBook S Q) (id : RuleSetId) :
    book.ruleCount id = (book.rules id).length := by
  induction id using Nat.strongRecOn with
  | ind id ih =>
    cases found : book.sets[id]? with
    | none =>
      rw [rules_of_missing found, ruleCount]
      split
      · rfl
      · next present =>
        rw [present] at found
        cases found
    | some set =>
      rw [ruleCount_of_found found, rules_of_found found, List.length_append, Nat.add_comm]
      cases isParent : set.parent with
      | none => rfl
      | some parent =>
        have older : parent < id := book.parent_lt id set parent found isParent
        exact congrArg (· + set.own.length) (ih parent older)

/-- A set below a known one comes last. -/
theorem inherit_of_known {parent : RuleSetId} (known : parent < book.sets.length) :
    (book.inherit parent).1.sets = book.sets ++ [{ parent := some parent }] ∧
      (book.inherit parent).2 = book.sets.length := by
  rw [inherit, dif_pos known]
  exact ⟨rfl, rfl⟩

end RuleBook

/-! ## Histories -/

/-- A **history** of so many models, which are numbered as they come. -/
inductive History (S Q : Type) : Nat → Type where
  /-- There is no model yet. -/
  | start : History S Q 0
  /-- A model is defined for a table. -/
  | define {n : Nat} (earlier : History S Q n) (table : Table) (paranoid : Option Bool) :
    History S Q (n + 1)
  /-- A model is defined on the table of another one, whose rules run first. -/
  | inherit {n : Nat} (earlier : History S Q n) (parent : Fin n) (paranoid : Option Bool) :
    History S Q (n + 1)
  /-- A rule is registered on a model. -/
  | protect {n : Nat} (earlier : History S Q n) (target : Fin n) (rule : Rule S Q) :
    History S Q n

namespace History

variable {S Q : Type} {n : Nat}

/-- The site after a history, with the models; at the start there are no rule sets. -/
def run (site : Site S Q) : {n : Nat} → History S Q n → Site S Q × Vector Model n
  | _, .start => ({ site with book := .empty }, #v[])
  | _, .define earlier table paranoid =>
    let before := earlier.run site
    let defined := before.1.define table paranoid
    (defined.1, before.2.push defined.2)
  | _, .inherit earlier parent paranoid =>
    let before := earlier.run site
    let defined := before.1.inherit before.2[parent] paranoid
    (defined.1, before.2.push defined.2)
  | _, .protect earlier target rule =>
    let before := earlier.run site
    (before.1.protect before.2[target] rule, before.2)

/-- The model that a model was defined on. -/
def parent? : {n : Nat} → History S Q n → Nat → Option Nat
  | _, .start, _ => none
  | n + 1, .define earlier _ _, i => if i = n then none else earlier.parent? i
  | n + 1, .inherit earlier parent _, i => if i = n then some parent.val else earlier.parent? i
  | _, .protect earlier _ _, i => earlier.parent? i

/-- The rules that were registered on a model, in their order. -/
def registered : {n : Nat} → History S Q n → Nat → List (Rule S Q)
  | _, .start, _ => []
  | _, .define earlier _ _, i => earlier.registered i
  | _, .inherit earlier _ _, i => earlier.registered i
  | _, .protect earlier target rule, i =>
    earlier.registered i ++ if target = i then [rule] else []

/-- The **lineage** of a model: its ancestors, the oldest first, and the model itself. -/
def lineage : {n : Nat} → History S Q n → Nat → List Nat
  | _, .start, _ => []
  | n + 1, .define earlier _ _, i => if i = n then [n] else earlier.lineage i
  | n + 1, .inherit earlier parent _, i =>
    if i = n then earlier.lineage parent ++ [n] else earlier.lineage i
  | _, .protect earlier _ _, i => earlier.lineage i

/-- A model **descends** from another one if it is that one, or was defined on one that does. -/
def Descends (history : History S Q n) : Nat → Nat → Prop :=
  Relation.ReflTransGen fun parent child => history.parent? child = some parent

/-- The rule set of a model after a history. -/
def ruleSet (history : History S Q n) (i : Nat) : RuleSet S Q :=
  { parent := history.parent? i, own := history.registered i }

/-! ## Parents and lineages -/

/-- A parent is older. -/
theorem parent?_lt {history : History S Q n} {i parent : Nat}
    (isParent : history.parent? i = some parent) : parent < i := by
  induction history with
  | start => cases isParent
  | define earlier table paranoid ih =>
    rw [parent?] at isParent
    split at isParent
    · cases isParent
    · exact ih isParent
  | inherit earlier older paranoid ih =>
    rw [parent?] at isParent
    split at isParent
    · next new =>
      cases isParent
      exact new ▸ older.isLt
    · exact ih isParent
  | protect earlier target rule ih => exact ih isParent

/-- No rule was registered on a model that is still to come. -/
theorem registered_of_le (history : History S Q n) {i : Nat} (later : n ≤ i) :
    history.registered i = [] := by
  induction history with
  | start => rfl
  | define earlier table paranoid ih => exact ih (Nat.le_of_succ_le later)
  | inherit earlier parent paranoid ih => exact ih (Nat.le_of_succ_le later)
  | protect earlier target rule ih =>
    have other : ¬ target = i := (target.isLt.trans_le later).ne
    rw [registered, ih later, if_neg other, List.append_nil]

/-- What is younger makes no difference to the lineage of a parent. -/
theorem map_lineage_parent? {earlier : History S Q n} {later : Nat → List Nat}
    (same : ∀ j, j ≠ n → later j = earlier.lineage j) {i : Nat} (known : i < n) :
    (earlier.parent? i).map later = (earlier.parent? i).map earlier.lineage :=
  Option.map_congr fun _ isParent => same _ ((parent?_lt isParent).trans known).ne

/-- The lineage of a model is that of its parent, if it has one, and the model. -/
theorem lineage_eq (history : History S Q n) {i : Nat} (known : i < n) :
    history.lineage i = ((history.parent? i).map history.lineage).getD [] ++ [i] := by
  induction history with
  | start => cases known
  | @define n earlier table paranoid ih =>
    have kept (j : Nat) (old : j ≠ n) :
        (earlier.define table paranoid).lineage j = earlier.lineage j := if_neg old
    rw [parent?]
    split
    · next new =>
      rw [new]
      exact if_pos rfl
    · next old =>
      have before : i < n := Nat.lt_of_le_of_ne (Nat.le_of_lt_succ known) old
      rw [kept i old, map_lineage_parent? kept before, ih before]
  | @inherit n earlier parent paranoid ih =>
    have kept (j : Nat) (old : j ≠ n) :
        (earlier.inherit parent paranoid).lineage j = earlier.lineage j := if_neg old
    rw [parent?]
    split
    · next new =>
      rw [new, Option.map_some, Option.getD_some, kept parent parent.isLt.ne]
      exact if_pos rfl
    · next old =>
      have before : i < n := Nat.lt_of_le_of_ne (Nat.le_of_lt_succ known) old
      rw [kept i old, map_lineage_parent? kept before, ih before]
  | protect earlier target rule ih => exact ih known

/-! ## Rule sets -/

/-- A history changes nothing about the site but the rule sets. -/
theorem run_fst (site : Site S Q) (history : History S Q n) :
    (history.run site).1 = { site with book := (history.run site).1.book } := by
  induction history with
  | start => rfl
  | define earlier table paranoid ih =>
    exact congrArg (fun before => (Site.define before table paranoid).1) ih
  | inherit earlier parent paranoid ih =>
    exact congrArg (fun before => (Site.inherit before (earlier.run site).2[parent] paranoid).1) ih
  | protect earlier target rule ih =>
    exact congrArg (fun before => Site.protect before (earlier.run site).2[target] rule) ih

/-- The rule sets of so many models, and of one more. -/
theorem sets_succ {earlier : History S Q n} {later : History S Q (n + 1)}
    (kept : ∀ i, i ≠ n → later.parent? i = earlier.parent? i)
    (same : later.registered = earlier.registered) :
    (List.range n).map earlier.ruleSet ++ [{ parent := later.parent? n }] =
      (List.range (n + 1)).map later.ruleSet := by
  have old : (List.range n).map earlier.ruleSet = (List.range n).map later.ruleSet :=
    List.map_congr_left fun i before => by
      rw [ruleSet, ruleSet, kept i (List.mem_range.mp before).ne, same]
  have new : later.ruleSet n = { parent := later.parent? n } := by
    rw [ruleSet, same, registered_of_le earlier le_rfl]
  rw [old, List.range_succ, List.map_append, List.map_singleton, new]

/-- One more model, whose rule set has the next number. -/
theorem rules_push {models : Vector Model n} {model : Model}
    (numbered : ∀ i : Fin n, models[i].rules = i) (next : model.rules = n) (i : Fin (n + 1)) :
    (models.push model)[i].rules = i := by
  show (models.push model)[i.val].rules = i
  rw [Vector.getElem_push]
  split
  · next old => exact numbered ⟨i, old⟩
  · next new => exact next.trans (Nat.le_antisymm (Nat.not_lt.mp new) (Nat.le_of_lt_succ i.isLt))

/-- **After a history** every model has its own rule set, which holds what was registered on it. -/
theorem sets_run (site : Site S Q) (history : History S Q n) :
    (history.run site).1.book.sets = (List.range n).map history.ruleSet ∧
      ∀ i : Fin n, (history.run site).2[i].rules = i := by
  induction history with
  | start => exact ⟨rfl, fun i => i.elim0⟩
  | @define n earlier table paranoid ih =>
    obtain ⟨sets, numbered⟩ := ih
    have total : (earlier.run site).1.book.sets.length = n := by simp [sets]
    have root : (earlier.define table paranoid).parent? n = none := if_pos rfl
    have kept (i : Nat) (old : i ≠ n) :
        (earlier.define table paranoid).parent? i = earlier.parent? i := if_neg old
    refine ⟨?_, rules_push numbered total⟩
    show (earlier.run site).1.book.sets ++ [{ parent := none }] = _
    rw [sets, ← sets_succ kept rfl, root]
  | @inherit n earlier parent paranoid ih =>
    obtain ⟨sets, numbered⟩ := ih
    have total : (earlier.run site).1.book.sets.length = n := by simp [sets]
    have child : (earlier.inherit parent paranoid).parent? n = some parent.val := if_pos rfl
    have kept (i : Nat) (old : i ≠ n) :
        (earlier.inherit parent paranoid).parent? i = earlier.parent? i := if_neg old
    have known : (earlier.run site).2[parent].rules < (earlier.run site).1.book.sets.length := by
      rw [numbered, total]
      exact parent.isLt
    obtain ⟨added, number⟩ := RuleBook.inherit_of_known known
    refine ⟨added.trans ?_, rules_push numbered (number.trans total)⟩
    rw [sets, numbered, ← sets_succ kept rfl, child]
  | @protect n earlier target rule ih =>
    obtain ⟨sets, numbered⟩ := ih
    refine ⟨?_, numbered⟩
    show (earlier.run site).1.book.sets.modify (earlier.run site).2[target].rules _ = _
    rw [sets, numbered]
    refine List.ext_getElem ?_ ?_
    · rw [List.length_modify, List.length_map, List.length_map]
    · intro i _ _
      -- The rule ends the rules of its target, and every other set stays as it was.
      rw [List.getElem_modify, List.getElem_map, List.getElem_map, List.getElem_range, ruleSet,
        ruleSet, registered]
      split
      · rfl
      · rw [List.append_nil]
        rfl

/-! ## What runs for a model -/

/-- The rules that run for a model are those registered on the models of its lineage. -/
theorem rules_run (site : Site S Q) (history : History S Q n) {i : Nat} (known : i < n) :
    (history.run site).1.book.rules i = (history.lineage i).flatMap history.registered := by
  obtain ⟨sets, -⟩ := history.sets_run site
  induction i using Nat.strongRecOn with
  | ind i ih =>
    have found : (history.run site).1.book.sets[i]? = some (history.ruleSet i) := by
      rw [sets, List.getElem?_map, List.getElem?_range known]
      rfl
    rw [RuleBook.rules_of_found found, lineage_eq history known, List.flatMap_append,
      List.flatMap_singleton, ruleSet]
    cases isParent : history.parent? i with
    | none => rfl
    | some parent =>
      have older : parent < i := parent?_lt isParent
      rw [Option.map_some, Option.map_some, Option.getD_some, Option.getD_some,
        ih parent older (older.trans known)]

/-- The rule set that a model was given is the one with its number. -/
theorem rules_of_model (site : Site S Q) (history : History S Q n) (i : Fin n) :
    (history.run site).1.book.rules (history.run site).2[i].rules =
      (history.lineage i).flatMap history.registered := by
  rw [(history.sets_run site).2 i, rules_run site history i.isLt]

/-- A model for notes is defined, and one for drafts on it; a rule is registered on the drafts, and
then one on the notes. For drafts the rule of the notes runs first. -/
example :
    let readAll : Rule String Unit := .plain (.grant .read [])
    let hideOwner : Rule String Unit := .plain (.withdraw .read [.field "owner"])
    let notes : History String Unit 1 := .define .start (Table.withFields "notes" ["owner"]) none
    let history := ((notes.inherit 0 none).protect 1 hideOwner).protect 0 readAll
    (history.lineage 1).flatMap history.registered = [readAll, hideOwner] ∧
      (history.lineage 0).flatMap history.registered = [readAll] :=
  ⟨rfl, rfl⟩

/-- A lineage ends with its model, each of its models was defined on the one before, and the first
one on none. -/
theorem isChain_lineage (history : History S Q n) {i : Nat} (known : i < n) :
    (history.lineage i).getLast? = some i ∧
      (history.lineage i).IsChain (fun parent child => history.parent? child = some parent) ∧
      ∀ root ∈ (history.lineage i).head?, history.parent? root = none := by
  induction i using Nat.strongRecOn with
  | ind i ih =>
    rw [lineage_eq history known]
    refine ⟨List.getLast?_concat, ?_⟩
    cases isParent : history.parent? i with
    | none =>
      refine ⟨List.isChain_singleton i, fun root first => ?_⟩
      cases first
      exact isParent
    | some parent =>
      have older : parent < i := parent?_lt isParent
      obtain ⟨last, chain, root⟩ := ih parent older (older.trans known)
      refine ⟨List.isChain_append.mpr ⟨chain, List.isChain_singleton i, ?_⟩, ?_⟩
      · intro latest isLast child isChild
        cases isChild
        rw [Option.map_some, Option.getD_some, last] at isLast
        cases isLast
        exact isParent
      · -- The lineage of the parent is not empty, so that its first model stays the first.
        have nonempty : history.lineage parent ≠ [] := by
          intro empty
          rw [empty] at last
          cases last
        intro first isFirst
        rw [Option.map_some, Option.getD_some, List.head?_append_of_ne_nil _ nonempty] at isFirst
        exact root first isFirst

/-- The lineage of a model holds the models that it descends from. -/
theorem mem_lineage_iff (history : History S Q n) {i j : Nat} (known : j < n) :
    i ∈ history.lineage j ↔ history.Descends i j := by
  induction j using Nat.strongRecOn with
  | ind j ih =>
    rw [lineage_eq history known, List.mem_append, List.mem_singleton, Descends,
      Relation.ReflTransGen.cases_tail_iff, or_comm, eq_comm]
    refine or_congr_right ?_
    cases isParent : history.parent? j with
    | none => exact ⟨nofun, fun ⟨_, _, missing⟩ => nomatch missing⟩
    | some parent =>
      have older : parent < j := parent?_lt isParent
      rw [Option.map_some, Option.getD_some, ih parent older (older.trans known)]
      exact ⟨fun descends => ⟨parent, descends, rfl⟩, fun ⟨_, descends, same⟩ =>
        Option.some.inj same ▸ descends⟩

/-- What a model descends from is not younger. -/
theorem Descends.le {history : History S Q n} {i j : Nat} (descends : history.Descends i j) :
    i ≤ j := by
  induction descends with
  | refl => exact le_rfl
  | tail _ isParent ih => exact ih.trans (parent?_lt isParent).le

/-- No model descends from one that descends from it, nor from another one with the same parent, nor
from one that shares no ancestor with it. -/
theorem not_descends {history : History S Q n} {i j : Nat}
    (apart : (history.Descends j i ∧ j ≠ i) ∨ (history.parent? j = history.parent? i ∧ j ≠ i) ∨
      ∀ k, history.Descends k i → ¬ history.Descends k j) : ¬ history.Descends i j := by
  intro descends
  rcases apart with ⟨ancestor, other⟩ | ⟨sibling, other⟩ | strange
  · exact other (le_antisymm ancestor.le descends.le)
  · rcases Relation.ReflTransGen.cases_tail descends with same | ⟨parent, before, isParent⟩
    · exact other same
    · have older : parent < i := parent?_lt (sibling ▸ isParent)
      exact absurd (Descends.le before) (Nat.not_le.mpr older)
  · exact strange i .refl descends

variable [Query Q]

/-- **Evaluating** a model runs the rules registered on the models of its lineage, in order. -/
theorem evaluate_run (site : Site S Q) (history : History S Q n) (i : Fin n) (subject : S)
    (entry : Option Row) :
    (history.run site).1.evaluate (history.run site).2[i] subject entry =
      Run.insecurely (Rule.runAll (site.censusBy (site.evaluateNested 0))
        ((history.lineage i).flatMap history.registered) subject entry
        ((history.run site).2[i].noPermissions site.config)) := by
  -- Of the site only the rule sets have changed, which counting rows does not look at.
  rw [Site.evaluate_of_rules (rules_of_model site history i), run_fst]
  rfl

/-- A registered rule makes no difference to what does not descend from its model. -/
theorem evaluate_protect (site : Site S Q) (history : History S Q n) {target other : Fin n}
    (apart : ¬ history.Descends target other) (rule : Rule S Q) (subject : S)
    (entry : Option Row) :
    ((history.protect target rule).run site).1.evaluate
        ((history.protect target rule).run site).2[other] subject entry =
      (history.run site).1.evaluate (history.run site).2[other] subject entry := by
  have same : ((history.protect target rule).lineage other).flatMap
      (history.protect target rule).registered =
        (history.lineage other).flatMap history.registered := by
    refine List.flatMap_congr fun i mem => ?_
    have elsewhere : target ≠ i := by
      rintro rfl
      exact apart ((mem_lineage_iff history other.isLt).mp mem)
    rw [registered, if_neg elsewhere, List.append_nil]
  rw [evaluate_run, evaluate_run, same]
  rfl

/-- **Inheriting is concatenating.** Whatever was defined and registered, and in which order: a
lineage leads from a model without parent, always to one defined on it, to the model that it is of.
The rules that run for a model are those registered on the models of its lineage, one model after
the other and each time in the order of their registration. They are as many as are counted, and
evaluating the model runs just them, on permissions that hold nothing yet. A rule that is registered
on a model makes no difference to the evaluation of any model that does not descend from it, such as
an ancestor, another model with the same parent, or one without a common ancestor. -/
theorem executes_lineage (site : Site S Q) (history : History S Q n) :
    (∀ i : Fin n,
      let models := (history.run site).2
      let book := (history.run site).1.book
      let rules := (history.lineage i).flatMap history.registered
      ((history.lineage i).getLast? = some i.val ∧
        (history.lineage i).IsChain (fun parent child => history.parent? child = some parent) ∧
        ∀ root ∈ (history.lineage i).head?, history.parent? root = none) ∧
      book.rules models[i].rules = rules ∧
      book.ruleCount models[i].rules = rules.length ∧
      ∀ subject entry, (history.run site).1.evaluate models[i] subject entry =
        Run.insecurely (Rule.runAll (site.censusBy (site.evaluateNested 0)) rules subject entry
          (models[i].noPermissions site.config))) ∧
    ∀ (target other : Fin n) (rule : Rule S Q),
      let after := (history.protect target rule).run site
      (¬ history.Descends target other → ∀ subject entry,
        after.1.evaluate after.2[other] subject entry =
          (history.run site).1.evaluate (history.run site).2[other] subject entry) ∧
      ((history.Descends other target ∧ other ≠ target) ∨
          (history.parent? other = history.parent? target ∧ other ≠ target) ∨
          (∀ k, history.Descends k target → ¬ history.Descends k other) →
        ¬ history.Descends target other) := by
  refine ⟨fun i => ?_, fun target other rule => ⟨?_, ?_⟩⟩
  · have rules := rules_of_model site history i
    refine ⟨isChain_lineage history i.isLt, rules, ?_, evaluate_run site history i⟩
    rw [RuleBook.ruleCount_eq_length, rules]
  · intro apart subject entry
    exact evaluate_protect site history apart rule subject entry
  · simp only [ne_eq, Fin.ext_iff]
    exact not_descends

/-- A model for drafts is defined on one for notes; a rule that is then registered on the drafts
makes no difference to the notes. -/
theorem executes_lineage_drafts :
    let site : Site String Unit := { book := RuleBook.empty }
    let notes : History String Unit 1 := .define .start (Table.withFields "notes" ["owner"]) none
    let history : History String Unit 2 := notes.inherit 0 none
    let before := history.run site
    let after := (history.protect 1 (.plain (.grant .read []))).run site
    history.Descends 0 1 ∧ ¬ history.Descends 1 0 ∧
      after.1.evaluate (after.2.get 0) "ada" none =
        before.1.evaluate (before.2.get 0) "ada" none := by
  intro site notes history before after
  have inherited : history.Descends 0 1 := .single rfl
  obtain ⟨-, others⟩ := executes_lineage site history
  obtain ⟨unchanged, apart⟩ := others 1 0 (.plain (.grant .read []))
  have not_back : ¬ history.Descends 1 0 := apart (.inl ⟨inherited, by decide⟩)
  exact ⟨inherited, not_back, unchanged not_back "ada" none⟩

end History

end Warden
