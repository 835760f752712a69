import Warden.Proofs.Assigning
/-! # Tracking changes
A record that has never been stored is checked by the pending changes of its row alone: a field that
is not among them is not checked. So it matters which fields a row counts as assigned. That depends
on where the row **comes from** (`Row.Origin`) and on what was done with it since (`Row.Step`).

A row **tracks** some fields (`Row.Tracks`) if it counts no field as assigned that it does not hold,
and, as long as it is new, counts those fields that it is to track. A new row of values tracks them
all, and every assignment adds its field, so that the check before the row is saved is about
everything that it holds. A row that was read from a document tracks nothing but what is assigned
later (`Guarded.validates_tracked`): its other fields are saved unchecked. -/

namespace Warden

namespace Row

/-! ## Origins and steps -/

/-- Where a row **comes from**. -/
inductive Origin where
  /-- It was made of some values. -/
  | new (values : FieldValues)
  /-- It was made of the fields of a value. -/
  | ofValue (value : Value)
  /-- It was read from a store. -/
  | stored (values : FieldValues)
  /-- It is the row without fields. -/
  | blank
  /-- It was read from a document. -/
  | document (value : Value)

namespace Origin

/-- The row; there is none if a document is not that of a row. -/
def row? : Origin → Except Error Row
  | new values => .ok (Row.new values)
  | ofValue value => .ok (Row.ofValue value)
  | stored values => .ok (Row.stored values)
  | blank => .ok {}
  | document value => Row.ofDocument? value

/-- Whether the row was read from a document. -/
def isDocument : Origin → Bool
  | document _ => true
  | _ => false

end Origin

/-- What is done with a row. -/
inductive Step where
  /-- A field is assigned. -/
  | set (field : String) (value : Value)
  /-- The row is noted to have been stored. -/
  | markPersisted

/-- Whether a step assigns a field. -/
def Step.Assigns (field : String) : Step → Prop
  | set assigned _ => assigned = field
  | markPersisted => False

/-- Take a step. -/
def Step.apply (row : Row) : Step → Row
  | set field value => row.set field value
  | markPersisted => row.markPersisted

/-- Take several steps. -/
def after (row : Row) (steps : List Step) : Row := steps.foldl Step.apply row

/-! ## What a row tracks -/

/-- A row **tracks** those of its fields that are to be watched. -/
structure Tracks (row : Row) (watched : String → Prop) : Prop where
  /-- A field that counts as assigned has a value. -/
  held : ∀ field ∈ row.changed.keys, field ∈ row.values.keys
  /-- In a new row, a field with a value counts as assigned just if it is watched. -/
  exactly : row.isNew = true → ∀ field ∈ row.values.keys,
    (field ∈ row.changed.keys ↔ watched field)

variable {row start : Row} {watched : String → Prop}

/-- The names after a store. -/
theorem mem_keys_insert {α : Type} {fields : Fields α} {name other : String} {value : α} :
    other ∈ (fields.insert name value).keys ↔ name = other ∨ other ∈ fields.keys := by
  rw [← Fields.has_iff_mem_keys, ← Fields.has_iff_mem_keys, Fields.has, Fields.get?_insert]
  by_cases same : name = other
  · simp [same]
  · simp [same, Fields.has]

/-- **One step** adds the field that it assigns. -/
theorem Tracks.apply (tracks : row.Tracks watched) (step : Step) :
    (step.apply row).Tracks fun field => watched field ∨ step.Assigns field := by
  cases step with
  | set assigned value =>
    refine ⟨fun field mem => ?_, fun isNew field mem => ?_⟩
    · exact mem_keys_insert.mpr ((mem_keys_insert.mp mem).imp_right (tracks.held field))
    · refine mem_keys_insert.trans ?_
      by_cases same : assigned = field
      · exact iff_of_true (.inl same) (.inr same)
      · have listed : field ∈ row.values.keys := (mem_keys_insert.mp mem).resolve_left same
        rw [or_iff_right same, tracks.exactly isNew field listed]
        exact (or_iff_left same).symm
  | markPersisted => exact ⟨nofun, nofun⟩

/-- **Several steps** add what they assign. -/
theorem Tracks.after (tracks : row.Tracks watched) (steps : List Step) :
    (row.after steps).Tracks fun field => watched field ∨ ∃ step ∈ steps, step.Assigns field := by
  -- By induction on the steps, whatever was watched before them.
  induction steps generalizing row watched with
  | nil => simpa [Row.after] using tracks
  | cons step rest ih =>
    have later : ((step.apply row).after rest).Tracks fun field =>
        (watched field ∨ step.Assigns field) ∨ ∃ step ∈ rest, step.Assigns field :=
      ih (tracks.apply step)
    simp only [List.exists_mem_cons_iff, ← or_assoc]
    exact later

/-- A row that was read from a document has no pending changes, and counts as never stored. -/
theorem changed_of_ofDocument? {value : Value} (read : ofDocument? value = .ok row) :
    row.changed = [] ∧ row.persisted = false := by
  rw [ofDocument?] at read
  split at read
  · cases read
    exact ⟨rfl, rfl⟩
  · cases read

/-- **At first**, all fields are watched but those of a document. -/
theorem tracks_origin {origin : Origin} (made : origin.row? = .ok start) :
    start.Tracks fun _ => origin.isDocument = false := by
  have tracks_new (values : FieldValues) : (new values).Tracks fun _ => True := by
    have same : (new values).changed.keys = values.keys :=
      Fields.keys_mapValues (fun _ => ()) values
    refine ⟨fun field mem => ?_, fun _ field mem => iff_of_true ?_ trivial⟩
    · rwa [same] at mem
    · rwa [same]
  have tracks_blank (watched : String → Prop) : ({} : Row).Tracks watched := ⟨nofun, nofun⟩
  cases origin with
  | new values =>
    cases made
    simpa [Origin.isDocument] using tracks_new values
  | ofValue value =>
    cases made
    cases value with
    | object values =>
      show (new values).Tracks _
      simpa [Origin.isDocument] using tracks_new values
    | _ => exact tracks_blank _
  | stored values =>
    cases made
    exact ⟨nofun, nofun⟩
  | blank =>
    cases made
    exact tracks_blank _
  | document value =>
    obtain ⟨settled, -⟩ := changed_of_ofDocument? made
    refine ⟨?_, fun _ field _ => iff_of_false ?_ nofun⟩
    · rw [settled]
      exact nofun
    · rw [settled]
      exact nofun

/-! ## Pending changes -/

/-- A field that is held has a value. -/
theorem isSome_get?_iff {field : String} :
    (∃ value, row.get? field = some value) ↔ field ∈ row.values.keys := by
  rw [← Option.isSome_iff_exists, get?, ← Fields.has, Fields.has_iff_mem_keys]

/-- A pending change of a row that tracks its fields is of a field that it holds, with its current
value. -/
theorem Tracks.mem_changes_iff (tracks : row.Tracks watched) {entry : String × Value} :
    entry ∈ row.changes ↔ entry.1 ∈ row.changed.keys ∧ row.get? entry.1 = some entry.2 := by
  rw [changes, List.mem_map]
  constructor
  · rintro ⟨marked, mem, rfl⟩
    have isMarked : marked.1 ∈ row.changed.keys := List.mem_map_of_mem mem
    obtain ⟨value, holds⟩ := isSome_get?_iff.mpr (tracks.held marked.1 isMarked)
    refine ⟨isMarked, ?_⟩
    rw [holds]
    rfl
  · rintro ⟨isMarked, holds⟩
    obtain ⟨marked, mem, same⟩ := List.mem_map.mp isMarked
    refine ⟨marked, mem, ?_⟩
    rw [same, holds]
    rfl

end Row

/-! ## The check before a row is saved -/

/-- Values may be written iff their action is granted at all and each of them is taken. -/
theorem Permissions.isModifiable_iff {Q : Type} {perms : Permissions Q} {trust : Trust}
    {action : Action} {values : FieldValues} :
    ((perms.isModifiable action (some values)).startFrom trust).1 = .ok true ↔
      perms.granted action ≠ [] ∧ ∀ entry ∈ values, perms.Takes trust action entry.1 entry.2 := by
  rw [← perms.firstUnmodifiable_eq_none, ← firstRejected_eq_none_iff]
  by_cases nothing : perms.granted action = []
  · have stops : perms.firstUnmodifiable action values =
        pure (some (values.keys.head?.getD baseField)) := by
      unfold firstUnmodifiable
      dsimp only
      rw [nothing]
      rfl
    rw [stops]
    exact iff_of_false nofun fun both => both.1 nothing
  · have walks : perms.firstUnmodifiable action values =
        firstRejected (perms.granted action) values := by
      unfold firstUnmodifiable
      dsimp only
      rw [if_neg (by simpa using nothing)]
    rw [walks]
    exact (and_iff_right nothing).symm

namespace Guarded

variable {S Q : Type} [Query Q]

/-- **What is tracked is checked.** Wherever a row comes from and whatever was done with it since, a
pending change is of a field that the row holds, with its current value. As long as the row is new,
every field that it holds is a pending change, unless the row was read from a document and the field
was not assigned since. A new record with the row, on which permissions are enforced, passes the
check iff creating is granted at all and the value of every such field is taken by the permissions
found. -/
theorem validates_tracked (site : Site S Q) {origin : Row.Origin} {start : Row}
    (made : origin.row? = .ok start) (steps : List Row.Step) :
    let row := start.after steps
    let watched (field : String) :=
      origin.isDocument = false ∨ ∃ step ∈ steps, step.Assigns field
    (∀ entry ∈ row.changes, row.get? entry.1 = some entry.2) ∧
    (row.isNew = true →
      (∀ field value, row.get? field = some value →
        ((field, value) ∈ row.changes ↔ watched field)) ∧
      ∀ (record : Guarded S Q) (trust : Trust) (lookup : String → String → String),
        record.row = row → record.binding.restriction.isEnforced trust = true →
          (((validateWith site lookup).startFrom record trust).1.1 = .ok (.ok ()) ↔
            ∃ perms, ((permissions site).startFrom record trust).1.1 = .ok (.ok perms) ∧
              perms.granted .create ≠ [] ∧
              ∀ field value, row.get? field = some value → watched field →
                perms.Takes trust .create field value)) := by
  intro row watched
  have tracks : row.Tracks watched := (Row.tracks_origin made).after steps
  have pending (isNew : row.isNew = true) (field : String) (value : Value)
      (holds : row.get? field = some value) : (field, value) ∈ row.changes ↔ watched field := by
    rw [tracks.mem_changes_iff, and_iff_left holds]
    exact tracks.exactly isNew field (Row.isSome_get?_iff.mp ⟨value, holds⟩)
  have current : ∀ entry ∈ row.changes, row.get? entry.1 = some entry.2 :=
    fun entry mem => (tracks.mem_changes_iff.mp mem).2
  refine ⟨current, fun isNew => ⟨pending isNew, fun record trust lookup same inForce => ?_⟩⟩
  have creates : record.savingAction = .create := by
    rw [savingAction, same, if_pos isNew]
  rw [validateWith_ok_iff lookup inForce, Permits, creates, same]
  refine exists_congr fun perms => and_congr_right fun _ => ?_
  rw [Permissions.isModifiable_iff]
  refine and_congr_right fun _ => ⟨fun taken field value holds isWatched => ?_,
    fun taken entry mem => ?_⟩
  · exact taken (field, value) ((pending isNew field value holds).mpr isWatched)
  · have holds := current entry mem
    exact taken entry.1 entry.2 holds ((pending isNew entry.1 entry.2 holds).mp mem)

/-- What everybody may do with a note does not cover notes that are published. -/
theorem not_takes_published :
    ¬ draftPermissions.Takes {} .create "state" (.string "published") := by
  rintro ⟨constraint, granted, accepts⟩
  have literal : draftPermissions.constraint? .create "state" =
      some (.literal (.string "draft")) := rfl
  cases literal.symm.trans granted
  cases accepts

/-- A note that was read from a document is published, and does not pass the check any more. -/
theorem validates_tracked_published :
    let origin : Row.Origin := .document (.object [("values", .object [("state", .string "draft")])])
    let steps : List Row.Step := [.set "state" (.string "published")]
    ∃ start, origin.row? = .ok start ∧
      ((validateWith draftsOnly Refusal.defaultMessage).startFrom
        (Guarded.inheriting noteModel (start.after steps) (.bound ())) {}).1.1 ≠ .ok (.ok ()) := by
  intro origin steps
  have made : origin.row? = .ok { values := [("state", .string "draft")] } := rfl
  refine ⟨_, made, fun passes => ?_⟩
  obtain ⟨-, checked⟩ := validates_tracked draftsOnly made steps
  obtain ⟨perms, found, -, taken⟩ :=
    ((checked rfl).2 (Guarded.inheriting noteModel _ (.bound ())) {} _ rfl rfl).mp passes
  cases (permissions_draft _).symm.trans found
  refine not_takes_published (taken "state" (.string "published") rfl (.inr ?_))
  exact ⟨_, List.mem_cons_self, rfl⟩

/-- **A row that was read from a document hides its fields.** It counts as never stored and holds a
state, but nothing is pending. So the note passes the check, although notes may not be created in
that state. -/
theorem passes_unchecked :
    let value : Value := .object [("values", .object [("state", .string "published")])]
    ∃ row, Row.ofDocument? value = .ok row ∧ row.isNew = true ∧
      row.get? "state" = some (.string "published") ∧ row.changes = [] ∧
      ((validateWith draftsOnly Refusal.defaultMessage).startFrom
        (Guarded.inheriting noteModel row (.bound ())) {}).1.1 = .ok (.ok ()) ∧
      ¬ draftPermissions.Takes {} .create "state" (.string "published") := by
  intro value
  have read : Row.ofDocument? value = .ok { values := [("state", .string "published")] } := rfl
  refine ⟨_, read, rfl, rfl, rfl, ?_, not_takes_published⟩
  refine (validateWith_ok_iff _ rfl).mpr ⟨draftPermissions, permissions_draft _, ?_⟩
  exact Permissions.isModifiable_iff.mpr ⟨nofun, List.forall_mem_nil _⟩

end Guarded

end Warden
