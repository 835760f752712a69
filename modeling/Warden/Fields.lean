/-! # Fields: finite maps from names
A *field map* lists each name at most once, in the order of the names' code points (which is also
the order of their UTF-8 bytes). Records, permission tables and documents are all field maps, so
every answer that walks one does so in name order. The order is not stored in the type, because
values nest field maps inside themselves; `Fields.Sorted` states it, and every map built from
`Fields.empty` by `Fields.insert` and `Fields.erase` satisfies it. -/

namespace Warden

/-- A map from names to `α`, kept as a list of entries in name order. -/
abbrev Fields (α : Type) := List (String × α)

namespace Fields

variable {α β : Type}

/-- The map without entries. -/
def empty : Fields α := []

/-- The value stored under a name. -/
def get? (fields : Fields α) (name : String) : Option α :=
  match fields with
  | [] => none
  | (key, value) :: rest => if key = name then some value else Fields.get? rest name

/-- Whether a name has an entry. -/
def has (fields : Fields α) (name : String) : Bool :=
  (Fields.get? fields name).isSome

/-- Store a value under a name, replacing the former one; a new name takes its place in order. -/
def insert (fields : Fields α) (name : String) (value : α) : Fields α :=
  match fields with
  | [] => [(name, value)]
  | (key, old) :: rest =>
    if key = name then (name, value) :: rest
    else if name < key then (name, value) :: (key, old) :: rest
    else (key, old) :: Fields.insert rest name value

/-- Drop the entry of a name, if there is one. -/
def erase (fields : Fields α) (name : String) : Fields α :=
  match fields with
  | [] => []
  | (key, value) :: rest =>
    if key = name then rest else (key, value) :: Fields.erase rest name

/-- Store every pair in turn, so that the last pair of a repeated name stays. -/
def insertAll (fields : Fields α) (pairs : List (String × α)) : Fields α :=
  pairs.foldl (fun acc pair => Fields.insert acc pair.1 pair.2) fields

/-- The map of a list of pairs in any order; of a repeated name the last pair stays. -/
def ofList (pairs : List (String × α)) : Fields α :=
  Fields.insertAll Fields.empty pairs

/-- The names, in order. -/
def keys (fields : Fields α) : List String :=
  fields.map Prod.fst

/-- The values, in the order of their names. -/
def values (fields : Fields α) : List α :=
  fields.map Prod.snd

/-- The entries whose name passes a test. -/
def restrict (fields : Fields α) (keep : String → Bool) : Fields α :=
  fields.filter fun entry => keep entry.1

/-- Change every value, keeping the names. -/
def mapValues (change : α → β) (fields : Fields α) : Fields β :=
  fields.map fun entry => (entry.1, change entry.2)

/-- The names are strictly increasing. -/
def Sorted (fields : Fields α) : Prop :=
  fields.Pairwise fun a b => a.1 < b.1

@[simp] theorem get?_nil (name : String) : get? ([] : Fields α) name = none := rfl

@[simp] theorem get?_cons (key name : String) (value : α) (rest : Fields α) :
    get? ((key, value) :: rest) name = if key = name then some value else get? rest name := rfl

/-- Looking up after a store finds the new value under its name and nothing else changed. -/
theorem get?_insert (fields : Fields α) (name other : String) (value : α) :
    get? (insert fields name value) other =
      if name = other then some value else get? fields other := by
  induction fields with
  | nil => simp [insert]
  | cons entry rest ih =>
    obtain ⟨key, old⟩ := entry
    by_cases same : key = name
    · subst same
      by_cases hit : key = other <;> simp [insert, hit]
    · by_cases before : name < key
      · simp [insert, same, before]
      · simp only [insert, same, before, if_false, get?_cons, ih]
        by_cases hit : key = other
        · subst hit
          simp [Ne.symm same]
        · simp [hit]

end Fields

end Warden
