import Warden.Proofs.Memory.Scoping
/-! # Filtering what a subject sees
Scopes and filters of a relation act together, unless execution is trusted and there are no scopes
in force: a row has to pass all of them, and only rows that do count towards a limit. A further
filter therefore takes rows away from what a relation shows, and where a limit had **cut off** rows
that pass everything, those of them that pass the new filter as well move up into the places that
became free (`Narrowing.results_insert`).

Nothing else can come into view. Where no limit cuts anything off a filter only narrows, and a row
that moves up passes every filter of the relation and of the scopes; but it was not shown before. -/

namespace Warden

/-! ## Cutting before and after filtering -/

/-- **Filtering before cutting** leaves the rows that filtering after cutting leaves, and then rows
from behind the cut, as many as the filter removes in front of it. -/
theorem take_filter_eq {α : Type} (rows : List α) (keep : α → Bool) (limit : Nat) :
    (rows.filter keep).take limit =
      (rows.take limit).filter keep ++
        ((rows.drop limit).filter keep).take ((rows.take limit).countP fun row => !keep row) := by
  have parts : rows.filter keep =
      (rows.take limit).filter keep ++ (rows.drop limit).filter keep := by
    rw [← List.filter_append, List.take_append_drop]
  have shorter : ((rows.take limit).filter keep).length ≤ limit :=
    (List.length_filter_le _ _).trans (List.length_take_le _ _)
  rw [parts, List.take_append, List.take_of_length_le shorter]
  by_cases reached : limit ≤ rows.length
  · -- As many places become free in front of the cut as the filter removes rows there.
    have counted := List.length_eq_countP_add_countP keep (l := rows.take limit)
    rw [List.length_take, Nat.min_eq_left reached, List.countP_eq_length_filter] at counted
    have free : limit - ((rows.take limit).filter keep).length =
        (rows.take limit).countP fun row => !keep row := by
      simp only [Bool.not_eq_true, Bool.decide_eq_false] at counted
      omega
    rw [free]
  · rw [List.drop_eq_nil_of_le (by omega), List.filter_nil, List.take_nil, List.take_nil]

namespace Narrowing

/-- The rows behind a limit, if there is one. -/
def behind (rows : List Row) : Option Nat → List Row
  | none => []
  | some limit => rows.drop limit

theorem cut_append_behind (rows : List Row) (limit : Option Nat) :
    cut rows limit ++ behind rows limit = rows := by
  cases limit with
  | none => exact List.append_nil rows
  | some limit => exact List.take_append_drop limit rows

/-- Filtering before cutting, whether or not there is a limit. -/
theorem cut_filter (rows : List Row) (keep : Row → Bool) (limit : Option Nat) :
    cut (rows.filter keep) limit = (cut rows limit).filter keep ++
      ((behind rows limit).filter keep).take ((cut rows limit).countP fun row => !keep row) := by
  cases limit with
  | none =>
    rw [cut, behind, cut, List.filter_nil, List.take_nil, List.append_nil]
  | some limit => exact take_filter_eq rows keep limit

/-- Rows are cut off only by a limit that is reached. -/
theorem limit_of_behind {rows : List Row} {limit : Option Nat} (more : behind rows limit ≠ []) :
    limit = some (cut rows limit).length := by
  cases limit with
  | none => exact absurd rfl more
  | some limit =>
    have beyond : limit < rows.length := by
      by_contra short
      exact more (List.drop_eq_nil_of_le (Nat.le_of_not_lt short))
    rw [cut, List.length_take, Nat.min_eq_left beyond.le]

/-! ## One more narrowing -/

variable {narrowings : List Narrowing} {stored : List Row}

/-- The smallest limit is one of the limits. -/
theorem mem_of_smallest? {limit : Nat} (least : smallest? narrowings = some limit) :
    .atMost limit ∈ narrowings := by
  induction narrowings generalizing limit with
  | nil => cases least
  | cons first rest ih =>
    rw [smallest?] at least
    cases later : smallest? rest with
    | none =>
      rw [later, Option.merge_none_right] at least
      cases first with
      | atMost bound =>
        cases least
        exact List.mem_cons_self
      | _ => cases least
    | some other =>
      rw [later] at least
      cases first with
      | atMost bound =>
        have smaller : min bound other = limit := Option.some.inj least
        rcases Nat.le_total bound other with le | le
        · rw [← smaller, Nat.min_eq_left le]
          exact List.mem_cons_self
        · rw [← smaller, Nat.min_eq_right le]
          exact List.mem_cons_of_mem _ (ih later)
      | _ =>
        cases least
        exact List.mem_cons_of_mem _ (ih later)

/-- The smallest limit does not depend on narrowings that are no limits. -/
theorem smallest?_insert {narrowing : Narrowing} (unlimited : narrowing.limit? = none)
    (front back : List Narrowing) :
    smallest? (front ++ narrowing :: back) = smallest? (front ++ back) := by
  induction front with
  | nil =>
    rw [List.nil_append, smallest?, unlimited]
    exact Option.merge_none_left
  | cons first rest ih => rw [List.cons_append, smallest?, ih, List.cons_append, smallest?]

/-- The stored rows that every narrowing admits, whether or not a limit cuts them off. -/
def admitted (narrowings : List Narrowing) (stored : List Row) : List Row :=
  stored.filter fun row => narrowings.all (admits row)

/-- The admitted rows that are cut off. -/
def cutOff (narrowings : List Narrowing) (stored : List Row) : List Row :=
  behind (admitted narrowings stored) (smallest? narrowings)

theorem results_append_cutOff (narrowings : List Narrowing) (stored : List Row) :
    results narrowings stored ++ cutOff narrowings stored = admitted narrowings stored :=
  cut_append_behind _ _

/-- Where rows are cut off there are as many results as one of the limits allows. -/
theorem limit_of_cutOff (more : cutOff narrowings stored ≠ []) :
    .atMost (results narrowings stored).length ∈ narrowings :=
  mem_of_smallest? (limit_of_behind more)

/-- One more narrowing that is no limit filters the admitted rows. -/
theorem admitted_insert (front back : List Narrowing) (narrowing : Narrowing) :
    admitted (front ++ narrowing :: back) stored =
      (admitted (front ++ back) stored).filter fun row => narrowing.admits row := by
  rw [admitted, admitted, List.filter_filter]
  refine List.filter_congr fun row _ => ?_
  rw [List.all_append, List.all_cons, List.all_append, Bool.and_left_comm]

/-- **One more filter** takes rows away from the results, and rows that had been cut off move up. -/
theorem results_insert {narrowing : Narrowing} (unlimited : narrowing.limit? = none)
    (front back : List Narrowing) :
    results (front ++ narrowing :: back) stored =
      (results (front ++ back) stored).filter (fun row => narrowing.admits row) ++
        ((cutOff (front ++ back) stored).filter fun row => narrowing.admits row).take
          ((results (front ++ back) stored).countP fun row => !narrowing.admits row) := by
  show cut (admitted _ stored) _ = _
  rw [admitted_insert, smallest?_insert unlimited, cut_filter]
  rfl

end Narrowing

/-! ## What is in force -/

namespace Permissions

/-- The narrowings in force at a depth of trusted execution, given those of each registered scope:
inside of it there are none. -/
def inForce (perms : Permissions MemoryQuery) (trust : Trust) (scopes : List (List Narrowing)) :
    List Narrowing :=
  if trust.isActive then [] else perms.confinement scopes

variable {perms : Permissions MemoryQuery} {trust : Trust} {scopes : List (List Narrowing)}

theorem inForce_of_trusted (trusted : trust.isActive = true) : perms.inForce trust scopes = [] :=
  if_pos trusted

theorem inForce_of_untrusted (untrusted : trust.isActive = false) :
    perms.inForce trust scopes = perms.confinement scopes :=
  if_neg (Bool.eq_false_iff.mp untrusted)

/-- What the narrowings in force admit together with others is what these and those of the scopes
admit; in a paranoid table without scopes it is nothing. -/
theorem admitted_inForce (perms : Permissions MemoryQuery) (trust : Trust)
    (narrowings : List Narrowing) (scopes : List (List Narrowing)) (stored : List Row) :
    Narrowing.admitted (narrowings ++ perms.inForce trust scopes) stored =
      if trust.isActive = false ∧ perms.paranoid = true ∧ scopes = [] then []
      else Narrowing.admitted
        (narrowings ++ if trust.isActive then [] else scopes.flatten) stored := by
  cases trusted : trust.isActive with
  | true =>
    rw [inForce_of_trusted trusted, if_neg (fun hidden => nomatch hidden.1), if_pos rfl]
  | false =>
    rw [inForce_of_untrusted trusted, if_neg Bool.false_ne_true]
    by_cases hidden : perms.paranoid = true ∧ scopes = []
    · rw [if_pos ⟨rfl, hidden⟩, hidden.2, confinement_of_paranoid hidden.1]
      refine List.filter_eq_nil_iff.mpr fun row _ admitted => ?_
      rw [List.all_append, Bool.and_eq_true] at admitted
      cases admitted.2
    · rw [if_neg fun inside => hidden inside.2, confinement_of_not hidden]

/-- A limit that is in force, besides others, is one of a scope. -/
theorem limit_of_inForce {narrowings : List Narrowing} {limit : Nat}
    (limited : .atMost limit ∈ narrowings ++ perms.inForce trust scopes) :
    .atMost limit ∈ narrowings ++ if trust.isActive then [] else scopes.flatten := by
  rcases List.mem_append.mp limited with own | confined
  · exact List.mem_append_left _ own
  · refine List.mem_append_right _ ?_
    rw [inForce] at confined
    split at confined
    · cases confined
    · next untrusted =>
      rw [if_neg untrusted]
      rw [confinement] at confined
      split at confined
      · cases List.mem_singleton.mp confined
      · exact confined

end Permissions

namespace Relation

variable {S : Type} {site : Site S MemoryQuery} {memory : Memory} {model : Model} {subject : S}
  {trust : Trust} {perms : Permissions MemoryQuery} {rel : Relation S MemoryQuery}
  {scopes : List (List Narrowing)} {narrowings : List Narrowing}

/-- A relation **shows** rows if fetching gives records of just these, in their order. -/
def Shows (site : Site S MemoryQuery) (trust : Trust) (rel : Relation S MemoryQuery)
    (rows : List Row) : Prop :=
  ∃ records, ((fetch site).startFrom rel trust).1.1 = .ok records ∧
    records.map Guarded.row = rows

/-- A relation shows one list of rows only. -/
theorem Shows.unique {rows others : List Row} (one : rel.Shows site trust rows)
    (other : rel.Shows site trust others) : rows = others := by
  obtain ⟨records, fetched, rfl⟩ := one
  obtain ⟨again, fetchedAgain, rfl⟩ := other
  cases fetched.symm.trans fetchedAgain
  rfl

/-- What is shown by a relation that was derived by narrowings. -/
theorem Derived.shows (derived : rel.Derived model subject narrowings)
    (stored : site.store = memory.store)
    (evaluated : ((site.evaluate model subject none).startFrom trust).1 = .ok perms)
    (registered : perms.scopes = scopes.map fun scope query => query.narrowBy scope) :
    rel.Shows site trust (Narrowing.results (narrowings ++ perms.inForce trust scopes)
      (memory.rows model.name)) := by
  cases trusted : trust.isActive with
  | false =>
    obtain ⟨records, fetched, rows, -⟩ := derived.fetch stored trusted evaluated registered
    rw [Permissions.inForce_of_untrusted trusted]
    exact ⟨records, fetched, rows⟩
  | true =>
    -- Nothing is enforced, so the relation's own query is carried out.
    have free : rel.binding.restriction.isEnforced trust = false := by
      rw [Restriction.isEnforced, trusted]
      exact Bool.and_false _
    have selected : memory.select rel.query =
        Narrowing.results narrowings (memory.rows model.name) := by
      rw [derived.query_eq, Memory.select_narrowBy]
      rfl
    rw [Permissions.inForce_of_trusted trusted, List.append_nil]
    refine ⟨_, congrArg (fun run => run.1.1) (fetch_of_not_inForce free), ?_⟩
    rw [List.map_map, stored]
    exact (List.map_id _).trans selected

/-- A further narrowing that is no limit, of a derived relation. -/
theorem Derived.shows_map (derived : rel.Derived model subject narrowings)
    (stored : site.store = memory.store)
    (evaluated : ((site.evaluate model subject none).startFrom trust).1 = .ok perms)
    (registered : perms.scopes = scopes.map fun scope query => query.narrowBy scope)
    {narrowing : Narrowing} (unlimited : narrowing.limit? = none) :
    let inForce := narrowings ++ perms.inForce trust scopes
    let shown := Narrowing.results inForce (memory.rows model.name)
    let cut := Narrowing.cutOff inForce (memory.rows model.name)
    (rel.map narrowing.apply).Shows site trust
      (shown.filter (fun row => narrowing.admits row) ++
        (cut.filter fun row => narrowing.admits row).take
          (shown.countP fun row => !narrowing.admits row)) := by
  have shows := (derived.map narrowing).shows stored evaluated registered
  rwa [List.append_assoc, List.singleton_append, Narrowing.results_insert unlimited] at shows

/-- **A filter narrows, up to the rows that limits had cut off.** A relation shows rows and has some
cut off, which together are the stored rows that pass all its filters and, unless execution is
trusted, all scopes; rows are cut off only by a limit that is reached. Filtered further, the
relation shows those of its rows that pass the filter and, in the places of those that do not, the
first of the cut off rows that do. -/
theorem fetch_filtered (memory : Memory) (scopes : List (List Narrowing)) (steps : List Step)
    (stored : site.store = memory.store)
    (evaluated : ((site.evaluate model subject none).startFrom trust).1 = .ok perms)
    (registered : perms.scopes = scopes.map fun scope query => query.narrowBy scope) :
    let rel : Relation S MemoryQuery := (ofSubject model subject).derive steps
    let all := ownNarrowings steps ++ if trust.isActive then [] else scopes.flatten
    let hidden := trust.isActive = false ∧ model.isParanoid site.config = true ∧ scopes = []
    ∃ shown cut : List Row, rel.Shows site trust shown ∧
      shown ++ cut = (if hidden then []
        else (memory.rows model.name).filter fun row => all.all fun n => n.admits row) ∧
      (cut ≠ [] → .atMost shown.length ∈ all) ∧
      (∀ field value,
        let passes := MemoryQuery.hasValue field value
        (rel.filterEq field value).Shows site trust
          (shown.filter passes ++ (cut.filter passes).take (shown.countP fun row => !passes row))) ∧
      ∀ field values,
        let passes := MemoryQuery.hasAnyValue field values
        (rel.filterIn field values).Shows site trust
          (shown.filter passes ++
            (cut.filter passes).take (shown.countP fun row => !passes row)) := by
  intro rel all hidden
  have derived : rel.Derived model subject (ownNarrowings steps) :=
    (derived_ofSubject model subject).derive steps
  have paranoid : perms.paranoid = model.isParanoid site.config :=
    congrArg (fun frame => frame.2.2) (Site.frame_of_evaluate evaluated)
  refine ⟨_, _, derived.shows stored evaluated registered,
    (Narrowing.results_append_cutOff _ _).trans ?_,
    fun more => Permissions.limit_of_inForce (Narrowing.limit_of_cutOff more), ?_, ?_⟩
  · rw [Permissions.admitted_inForce, paranoid]
    rfl
  · intro field value passes
    have unlimited : (Narrowing.hasValue field value).limit? = none := rfl
    have shows := derived.shows_map stored evaluated registered unlimited
    exact shows
  · intro field values passes
    have unlimited : (Narrowing.hasAnyValue field values).limit? = none := rfl
    have shows := derived.shows_map stored evaluated registered unlimited
    exact shows

/-- Of three notes a scope shows the first two. Filtered for the second and third note, the relation
shows the second, and the third in the place of the first. -/
theorem fetch_filtered_moved_up :
    let note (id : Int) : Row := (Row.new [("id", .int id)]).markPersisted
    let memory : Memory := { tables := [("notes", [note 1, note 2, note 3])] }
    let scope : List Narrowing := [.atMost 2]
    let site : Site Unit MemoryQuery :=
      { store := memory.store
        book := RuleBook.empty.create.1.register 0
          (.plain (.narrow fun query => query.narrowBy scope)) }
    let model : Model := { table := { name := "notes" }, rules := 0 }
    let perms := (model.noPermissions site.config).scope fun query => query.narrowBy scope
    let rel : Relation Unit MemoryQuery := ofSubject model ()
    site.store = memory.store ∧
      ((site.evaluate model () none).startFrom {}).1 = .ok perms ∧
      perms.scopes = [scope].map (fun scope query => query.narrowBy scope) ∧
      rel.Shows site {} [note 1, note 2] ∧
      (rel.filterIn "id" [.int 2, .int 3]).Shows site {} [note 2, note 3] := by
  intro note memory scope site model perms rel
  have rules : site.book.rules model.rules =
      [.plain (.narrow fun query => query.narrowBy scope)] := RuleBook.rules_of_root rfl
  have evaluated : ((site.evaluate model () none).startFrom {}).1 = .ok perms := by
    rw [Site.evaluate_of_rules rules]
    rfl
  have registered : perms.scopes = [scope].map (fun scope query => query.narrowBy scope) := rfl
  have stored : site.store = memory.store := rfl
  have firstTwo : rel.Shows site {} [note 1, note 2] :=
    (derived_ofSubject model ()).shows stored evaluated registered
  obtain ⟨shown, cut, shows, together, -, -, filtered⟩ :=
    fetch_filtered memory [scope] [] stored evaluated registered
  cases firstTwo.unique shows
  cases List.append_cancel_left (together.trans (rfl : _ = [note 1, note 2] ++ [note 3]))
  exact ⟨stored, evaluated, registered, firstTwo, filtered "id" [.int 2, .int 3]⟩

/-- **A filter can reveal a row**: where a scope shows the first note only, filtering for the second
one shows that one. -/
theorem filterEq_reveals :
    let note (id : Int) : Row := (Row.new [("id", .int id)]).markPersisted
    let memory : Memory := { tables := [("notes", [note 1, note 2])] }
    let scope : List Narrowing := [.atMost 1]
    let site : Site Unit MemoryQuery :=
      { store := memory.store
        book := RuleBook.empty.create.1.register 0
          (.plain (.narrow fun query => query.narrowBy scope)) }
    let model : Model := { table := { name := "notes" }, rules := 0 }
    let rel : Relation Unit MemoryQuery := ofSubject model ()
    rel.Shows site {} [note 1] ∧ (rel.filterEq "id" (.int 2)).Shows site {} [note 2] ∧
      note 2 ∉ [note 1] := by
  intro note memory scope site model rel
  let perms : Permissions MemoryQuery :=
    (model.noPermissions site.config).scope fun query => query.narrowBy scope
  have rules : site.book.rules model.rules =
      [.plain (.narrow fun query => query.narrowBy scope)] := RuleBook.rules_of_root rfl
  have evaluated : ((site.evaluate model () none).startFrom {}).1 = .ok perms := by
    rw [Site.evaluate_of_rules rules]
    rfl
  have registered : perms.scopes = [scope].map (fun scope query => query.narrowBy scope) := rfl
  have stored : site.store = memory.store := rfl
  have fresh : rel.Derived model () [] := derived_ofSubject model ()
  refine ⟨fresh.shows stored evaluated registered,
    (fresh.map (.hasValue "id" (.int 2))).shows stored evaluated registered, ?_⟩
  intro revealed
  have same : note 2 = note 1 := List.mem_singleton.mp revealed
  cases congrArg (fun row => row.get? "id") same

end Relation

end Warden
