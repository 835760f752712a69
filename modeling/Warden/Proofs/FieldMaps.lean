import Mathlib.Data.String.Basic
import Warden.Fields
/-! # Laws of field maps
Two questions about a field map come up wherever one is built: is it still sorted, and what does it
say about a name. `Fields.insert` and `Fields.erase` keep the order, and each changes the answer for
one name only. After a list of pairs has been stored the answer is that of the *last* pair with the
name (`Fields.last?`), or the former one if there is none (`Fields.get?_insertAll`). Storing the
entries of a sorted map gives back that map (`Fields.ofList_of_sorted`). -/

namespace Warden

namespace Fields

variable {α β : Type}

/-! ## Order -/

@[simp] theorem sorted_nil : Sorted ([] : Fields α) := List.Pairwise.nil

/-- A map is sorted iff its first name comes before all others and the rest is sorted. -/
theorem sorted_cons {entry : String × α} {rest : Fields α} :
    Sorted (entry :: rest) ↔ (∀ other ∈ rest, entry.1 < other.1) ∧ Sorted rest :=
  List.pairwise_cons

/-- A map is sorted if its names are increasing. -/
theorem sorted_of_keys {fields : Fields α} {names : List String}
    (increasing : names.Pairwise (· < ·)) (named : fields.keys = names) : Sorted fields := by
  rw [← named] at increasing
  exact List.pairwise_map.mp increasing

/-- Every entry after a store is the new one or an old one. -/
theorem mem_insert {fields : Fields α} {name : String} {value : α} {entry : String × α}
    (found : entry ∈ insert fields name value) : entry = (name, value) ∨ entry ∈ fields := by
  induction fields with
  | nil => simpa [insert] using found
  | cons head rest ih =>
    obtain ⟨key, old⟩ := head
    by_cases same : key = name
    · rw [insert, if_pos same, List.mem_cons] at found
      exact found.imp id (List.mem_cons_of_mem _)
    · by_cases before : name < key
      · rw [insert, if_neg same, if_pos before, List.mem_cons] at found
        exact found
      · rw [insert, if_neg same, if_neg before, List.mem_cons] at found
        rcases found with rfl | found
        · exact .inr List.mem_cons_self
        · exact (ih found).imp id (List.mem_cons_of_mem _)

/-- Storing keeps a map sorted. -/
theorem sorted_insert {fields : Fields α} (sorted : Sorted fields) (name : String) (value : α) :
    Sorted (insert fields name value) := by
  induction fields with
  | nil => exact sorted_cons.mpr ⟨by simp, sorted_nil⟩
  | cons head rest ih =>
    obtain ⟨key, old⟩ := head
    obtain ⟨first, tail⟩ := sorted_cons.mp sorted
    by_cases same : key = name
    · subst same
      rw [insert, if_pos rfl]
      exact sorted_cons.mpr ⟨first, tail⟩
    · by_cases before : name < key
      · rw [insert, if_neg same, if_pos before]
        refine sorted_cons.mpr ⟨fun other h => ?_, sorted⟩
        rcases List.mem_cons.mp h with rfl | h
        · exact before
        · exact before.trans (first other h)
      · rw [insert, if_neg same, if_neg before]
        have after : key < name := lt_of_le_of_ne (not_lt.mp before) same
        refine sorted_cons.mpr ⟨fun other h => ?_, ih tail⟩
        rcases mem_insert h with rfl | h
        · exact after
        · exact first other h

/-- Every entry left after a drop was there before. -/
theorem mem_of_mem_erase {fields : Fields α} {name : String} {entry : String × α}
    (found : entry ∈ erase fields name) : entry ∈ fields := by
  induction fields with
  | nil => exact found
  | cons head rest ih =>
    obtain ⟨key, value⟩ := head
    by_cases same : key = name
    · rw [erase, if_pos same] at found
      exact List.mem_cons_of_mem _ found
    · rw [erase, if_neg same, List.mem_cons] at found
      exact List.mem_cons.mpr (found.imp id ih)

/-- Every entry left after several drops was there before. -/
theorem mem_of_mem_foldl_erase {fields : Fields α} {names : List String}
    {entry : String × α} (found : entry ∈ names.foldl erase fields) : entry ∈ fields := by
  induction names generalizing fields with
  | nil => exact found
  | cons name rest ih => exact mem_of_mem_erase (ih found)

/-- Dropping keeps a map sorted. -/
theorem sorted_erase {fields : Fields α} (sorted : Sorted fields) (name : String) :
    Sorted (erase fields name) := by
  induction fields with
  | nil => exact sorted_nil
  | cons head rest ih =>
    obtain ⟨key, value⟩ := head
    obtain ⟨first, tail⟩ := sorted_cons.mp sorted
    by_cases same : key = name
    · rw [erase, if_pos same]
      exact tail
    · rw [erase, if_neg same]
      exact sorted_cons.mpr ⟨fun other h => first other (mem_of_mem_erase h), ih tail⟩

/-- Storing a list of pairs keeps a map sorted. -/
theorem sorted_insertAll {fields : Fields α} (sorted : Sorted fields)
    (pairs : List (String × α)) : Sorted (insertAll fields pairs) := by
  induction pairs generalizing fields with
  | nil => exact sorted
  | cons pair rest ih => exact ih (sorted_insert sorted pair.1 pair.2)

/-- A map made from a list of pairs is sorted. -/
theorem sorted_ofList (pairs : List (String × α)) : Sorted (ofList pairs) :=
  sorted_insertAll sorted_nil pairs

/-- Dropping several names keeps a map sorted. -/
theorem sorted_foldl_erase {fields : Fields α} (sorted : Sorted fields) (names : List String) :
    Sorted (names.foldl erase fields) := by
  induction names generalizing fields with
  | nil => exact sorted
  | cons name rest ih => exact ih (sorted_erase sorted name)

/-- There is nothing to drop from an empty map. -/
theorem foldl_erase_nil (names : List String) :
    names.foldl erase ([] : Fields α) = [] := by
  induction names with
  | nil => rfl
  | cons name rest ih => exact ih

/-! ## Looking up -/

/-- A map has an entry for each of its names and for nothing else. -/
theorem has_iff_mem_keys {fields : Fields α} {name : String} :
    has fields name = true ↔ name ∈ fields.keys := by
  induction fields with
  | nil => simp [has, keys]
  | cons head rest ih =>
    obtain ⟨key, value⟩ := head
    rw [has] at ih ⊢
    by_cases same : key = name
    · simp [keys, same]
    · rw [get?_cons, if_neg same, ih, keys, keys, List.map_cons, List.mem_cons]
      exact ⟨.inr, fun h => h.resolve_left (Ne.symm same)⟩

/-- A name that is not listed has no value. -/
theorem get?_eq_none {fields : Fields α} {name : String} (absent : name ∉ fields.keys) :
    get? fields name = none := by
  rw [← has_iff_mem_keys, has] at absent
  simpa using absent

/-- In a sorted map a name that comes before all others is not listed. -/
theorem get?_eq_none_of_lt {fields : Fields α} {name : String}
    (before : ∀ entry ∈ fields, name < entry.1) : get? fields name = none := by
  refine get?_eq_none fun listed => ?_
  obtain ⟨entry, h, same⟩ := List.mem_map.mp listed
  exact absurd (before entry h) (by rw [same]; exact lt_irrefl name)

/-- What is found under a name is listed with it. -/
theorem mem_of_get? {fields : Fields α} {name : String} {value : α}
    (found : get? fields name = some value) : (name, value) ∈ fields := by
  induction fields with
  | nil => cases found
  | cons head rest ih =>
    obtain ⟨key, old⟩ := head
    rw [get?_cons] at found
    split at found
    · next same =>
      cases found
      rw [same]
      exact List.mem_cons_self
    · exact List.mem_cons_of_mem _ (ih found)

/-- In a sorted map what is listed with a name is found under it. -/
theorem get?_eq_some_iff {fields : Fields α} (sorted : Sorted fields) {name : String} {value : α} :
    get? fields name = some value ↔ (name, value) ∈ fields := by
  refine ⟨mem_of_get?, fun listed => ?_⟩
  induction fields with
  | nil => cases listed
  | cons head rest ih =>
    obtain ⟨first, tail⟩ := sorted_cons.mp sorted
    rcases List.mem_cons.mp listed with rfl | later
    · exact if_pos rfl
    · have other : head.1 ≠ name := (first (name, value) later).ne
      rw [get?_cons, if_neg other]
      exact ih tail later

/-- Looking up after a drop finds nothing under its name and nothing else changed. -/
theorem get?_erase {fields : Fields α} (sorted : Sorted fields) (name other : String) :
    get? (erase fields name) other = if name = other then none else get? fields other := by
  induction fields with
  | nil => simp [erase]
  | cons head rest ih =>
    obtain ⟨key, value⟩ := head
    obtain ⟨first, tail⟩ := sorted_cons.mp sorted
    by_cases same : key = name
    · subst same
      rw [erase, if_pos rfl, get?_cons]
      by_cases hit : key = other
      · subst hit
        rw [if_pos rfl, get?_eq_none_of_lt first]
      · rw [if_neg hit, if_neg hit]
    · rw [erase, if_neg same, get?_cons, get?_cons, ih tail]
      by_cases hit : key = other
      · subst hit
        rw [if_pos rfl, if_neg (Ne.symm same), if_pos rfl]
      · rw [if_neg hit, if_neg hit]

/-- Looking up after several drops. -/
theorem get?_foldl_erase {fields : Fields α} (sorted : Sorted fields) (names : List String)
    (other : String) :
    get? (names.foldl erase fields) other = if other ∈ names then none else get? fields other := by
  induction names generalizing fields with
  | nil => simp
  | cons name rest ih =>
    rw [List.foldl_cons, ih (sorted_erase sorted name), get?_erase sorted]
    by_cases hit : name = other
    · subst hit
      simp
    · simp [hit, Ne.symm hit]

/-- Looking up in two lists of entries, one after the other. -/
theorem get?_append (front back : Fields α) (name : String) :
    get? (front ++ back) name = (get? front name).or (get? back name) := by
  induction front with
  | nil => simp
  | cons head rest ih =>
    obtain ⟨key, value⟩ := head
    by_cases hit : key = name <;> simp [hit, ih]

/-- Looking up after changing every value. -/
theorem get?_mapValues (change : α → β) (fields : Fields α) (name : String) :
    get? (mapValues change fields) name = (get? fields name).map change := by
  induction fields with
  | nil => rfl
  | cons head rest ih =>
    obtain ⟨key, value⟩ := head
    rw [mapValues, List.map_cons, get?_cons, get?_cons, ← mapValues, ih]
    split <;> rfl

/-- The names are kept when every value is changed. -/
@[simp] theorem keys_mapValues (change : α → β) (fields : Fields α) :
    (mapValues change fields).keys = fields.keys := by
  simp [keys, mapValues, Function.comp_def]

/-- The order is kept when every value is changed. -/
theorem sorted_mapValues (change : α → β) {fields : Fields α} (sorted : Sorted fields) :
    Sorted (mapValues change fields) :=
  List.Pairwise.map _ (fun _ _ => id) sorted

/-- A name is listed iff it was before every value was changed. -/
@[simp] theorem has_mapValues (change : α → β) (fields : Fields α) (name : String) :
    has (mapValues change fields) name = has fields name := by
  rw [has, has, get?_mapValues, Option.isSome_map]

/-- Changing every value makes no map empty. -/
@[simp] theorem isEmpty_mapValues (change : α → β) (fields : Fields α) :
    (mapValues change fields).isEmpty = fields.isEmpty := by
  cases fields <;> rfl

/-- Storing a value and then changing every value stores the changed value. -/
theorem mapValues_insert (change : α → β) (fields : Fields α) (name : String) (value : α) :
    mapValues change (insert fields name value) =
      insert (mapValues change fields) name (change value) := by
  induction fields with
  | nil => rfl
  | cons head rest ih =>
    obtain ⟨key, old⟩ := head
    rw [show mapValues change ((key, old) :: rest) = (key, change old) :: mapValues change rest
      from rfl, insert, insert]
    split
    · rfl
    · split
      · rfl
      · rw [← ih]
        rfl

/-- So does storing several. -/
theorem mapValues_insertAll (change : α → β) (fields : Fields α) (pairs : List (String × α)) :
    mapValues change (insertAll fields pairs) =
      insertAll (mapValues change fields) (mapValues change pairs) := by
  induction pairs generalizing fields with
  | nil => rfl
  | cons pair rest ih =>
    have stored : insertAll fields (pair :: rest) = insertAll (insert fields pair.1 pair.2) rest :=
      rfl
    rw [stored, ih, mapValues_insert]
    rfl

/-- Dropping an entry and changing every value may change places. -/
theorem mapValues_erase (change : α → β) (fields : Fields α) (name : String) :
    mapValues change (erase fields name) = erase (mapValues change fields) name := by
  induction fields with
  | nil => rfl
  | cons head rest ih =>
    obtain ⟨key, value⟩ := head
    rw [show mapValues change ((key, value) :: rest) = (key, change value) :: mapValues change rest
      from rfl, erase, erase]
    split
    · rfl
    · rw [← ih]
      rfl

/-- So may dropping several. -/
theorem mapValues_foldl_erase (change : α → β) (fields : Fields α) (names : List String) :
    mapValues change (names.foldl erase fields) = names.foldl erase (mapValues change fields) := by
  induction names generalizing fields with
  | nil => rfl
  | cons name rest ih => rw [List.foldl_cons, List.foldl_cons, ih, mapValues_erase]

/-- Changing the values changes nothing iff it changes no value. -/
theorem mapValues_eq_self_iff {change : α → α} {fields : Fields α} :
    mapValues change fields = fields ↔ ∀ entry ∈ fields, change entry.2 = entry.2 := by
  have same (entry : String × α) :
      (entry.1, change entry.2) = id entry ↔ change entry.2 = entry.2 :=
    ⟨congrArg Prod.snd, fun kept => Prod.ext rfl kept⟩
  have mapped : mapValues change fields = fields.map id ↔
      ∀ entry ∈ fields, (entry.1, change entry.2) = id entry := List.map_inj_left
  simpa only [List.map_id, same] using mapped

/-- Giving every name the same value changes nothing iff every name has it already. -/
theorem mapValues_const_eq_self {fields : Fields α} {value : α} :
    mapValues (fun _ => value) fields = fields ↔ ∀ entry ∈ fields, entry.2 = value := by
  rw [mapValues_eq_self_iff]
  exact forall₂_congr fun _ _ => eq_comm

/-! ## Lists of pairs -/

/-- The value of the **last pair** with a name. -/
def last? (pairs : List (String × α)) (name : String) : Option α :=
  get? pairs.reverse name

@[simp] theorem last?_nil (name : String) : last? ([] : List (String × α)) name = none := rfl

/-- A pair counts only if no later one has its name. -/
theorem last?_cons (pair : String × α) (rest : List (String × α)) (name : String) :
    last? (pair :: rest) name
      = (last? rest name).or (if pair.1 = name then some pair.2 else none) := by
  rw [last?, List.reverse_cons, get?_append]
  rfl

/-- There is a last pair with a name iff a pair has it. -/
theorem isSome_last? (pairs : List (String × α)) (name : String) :
    (last? pairs name).isSome = true ↔ name ∈ pairs.map Prod.fst := by
  have listed : has pairs.reverse name = true ↔ name ∈ keys pairs.reverse := has_iff_mem_keys
  rw [has] at listed
  rw [last?, listed, keys, List.map_reverse, List.mem_reverse]

/-- Changing every value changes the last one of a name. -/
theorem last?_mapValues (change : α → β) (pairs : List (String × α)) (name : String) :
    last? (mapValues change pairs) name = (last? pairs name).map change := by
  rw [last?, last?, ← get?_mapValues, mapValues, mapValues, List.map_reverse]

/-- Where all names have the same value, that is the last one of each. -/
theorem last?_map_const {names : List String} {name : String} (value : α)
    (listed : name ∈ names) : last? (names.map fun name => (name, value)) name = some value := by
  have each : names.map (fun name => (name, value)) =
      mapValues (fun _ => value) (names.map fun name => (name, ())) := by
    rw [mapValues, List.map_map]
    rfl
  have found : (last? (names.map fun name => (name, ())) name).isSome = true := by
    rw [isSome_last?, List.map_map]
    exact List.mem_map.mpr ⟨name, listed, rfl⟩
  obtain ⟨_, last⟩ := Option.isSome_iff_exists.mp found
  rw [each, last?_mapValues, last]
  rfl

/-- After a list of pairs has been stored, the last pair with a name tells its value. -/
theorem get?_insertAll (fields : Fields α) (pairs : List (String × α)) (name : String) :
    get? (insertAll fields pairs) name = (last? pairs name).or (get? fields name) := by
  induction pairs generalizing fields with
  | nil => rfl
  | cons pair rest ih =>
    have stored : insertAll fields (pair :: rest)
        = insertAll (insert fields pair.1 pair.2) rest := rfl
    rw [stored, ih, last?_cons, get?_insert]
    cases last? rest name with
    | some value => rfl
    | none => split <;> rfl

theorem restrict_cons (entry : String × α) (rest : Fields α) (keep : String → Bool) :
    restrict (entry :: rest) keep
      = if keep entry.1 then entry :: restrict rest keep else restrict rest keep :=
  List.filter_cons

/-- Looking up in the entries whose name passes a test. -/
theorem get?_restrict (fields : Fields α) (keep : String → Bool) (name : String) :
    get? (restrict fields keep) name = if keep name then get? fields name else none := by
  induction fields with
  | nil => exact (ite_self none).symm
  | cons head rest ih =>
    obtain ⟨key, value⟩ := head
    rw [restrict_cons, get?_cons]
    by_cases same : key = name
    · subst same
      by_cases kept : keep key = true
      · simp [kept]
      · rw [if_neg kept, ih, if_neg kept, if_neg kept]
    · rw [if_neg same, ← ih]
      split
      · rw [get?_cons, if_neg same]
      · rfl

/-- The names of the entries whose name passes a test. -/
theorem mem_keys_restrict {fields : Fields α} {keep : String → Bool} {name : String} :
    name ∈ (restrict fields keep).keys ↔ name ∈ fields.keys ∧ keep name = true := by
  rw [← has_iff_mem_keys, ← has_iff_mem_keys, has, has, get?_restrict]
  cases keep name <;> simp

/-- A part of a sorted map is sorted. -/
theorem sorted_restrict {fields : Fields α} (sorted : Sorted fields) (keep : String → Bool) :
    Sorted (restrict fields keep) :=
  List.Pairwise.filter _ sorted

/-- A name that comes before all others is stored at the start. -/
theorem insert_eq_cons {fields : Fields α} {name : String} (value : α)
    (before : ∀ entry ∈ fields, name < entry.1) :
    insert fields name value = (name, value) :: fields := by
  cases fields with
  | nil => rfl
  | cons head rest =>
    obtain ⟨key, old⟩ := head
    have first : name < key := before (key, old) List.mem_cons_self
    rw [insert, if_neg first.ne', if_pos first]

/-- A name that comes after all others is stored at the end. -/
theorem insert_eq_append {fields : Fields α} {name : String} (value : α)
    (after : ∀ entry ∈ fields, entry.1 < name) :
    insert fields name value = fields ++ [(name, value)] := by
  induction fields with
  | nil => rfl
  | cons head rest ih =>
    obtain ⟨key, old⟩ := head
    have first : key < name := after (key, old) List.mem_cons_self
    rw [insert, if_neg first.ne, if_neg first.asymm,
      ih fun entry h => after entry (List.mem_cons_of_mem _ h), List.cons_append]

/-- Pairs that continue a sorted map are stored at its end. -/
theorem insertAll_eq_append {fields : Fields α} {pairs : List (String × α)}
    (sorted : Sorted (fields ++ pairs)) : insertAll fields pairs = fields ++ pairs := by
  induction pairs generalizing fields with
  | nil => simp [insertAll]
  | cons pair rest ih =>
    have after : ∀ entry ∈ fields, entry.1 < pair.1 := fun entry h =>
      (List.pairwise_append.mp sorted).2.2 entry h pair List.mem_cons_self
    have stored : insertAll fields (pair :: rest)
        = insertAll (insert fields pair.1 pair.2) rest := rfl
    have joined : fields ++ pair :: rest = (fields ++ [pair]) ++ rest := by simp
    rw [stored, insert_eq_append pair.2 after, joined]
    rw [joined] at sorted
    exact ih sorted

/-- Storing the entries of a sorted map in turn gives back the map. -/
theorem ofList_of_sorted {fields : Fields α} (sorted : Sorted fields) : ofList fields = fields :=
  insertAll_eq_append sorted

/-- In a sorted map the last entry with a name is the only one. -/
theorem last?_of_sorted {fields : Fields α} (sorted : Sorted fields) (name : String) :
    last? fields name = get? fields name := by
  have stored : get? (ofList fields) name = (last? fields name).or none :=
    get?_insertAll empty fields name
  rw [ofList_of_sorted sorted, Option.or_none] at stored
  exact stored.symm

/-- Of the entries of a map that is made from pairs, the last one with a name is the last pair with
the name. -/
theorem last?_ofList (pairs : List (String × α)) (name : String) :
    last? (ofList pairs) name = last? pairs name := by
  rw [last?_of_sorted (sorted_ofList pairs), ofList, get?_insertAll]
  exact Option.or_none

/-- What stands under a name in a map that is made from pairs is the value of the last pair with the
name. -/
theorem get?_ofList (pairs : List (String × α)) (name : String) :
    get? (ofList pairs) name = last? pairs name := by
  rw [← last?_of_sorted (sorted_ofList pairs), last?_ofList]

/-- The last pair with a name is one of the pairs. -/
theorem mem_of_last? {pairs : List (String × α)} {name : String} {value : α}
    (found : last? pairs name = some value) : (name, value) ∈ pairs :=
  List.mem_reverse.mp (mem_of_get? found)

/-- The entries of a map that is made from pairs are among the pairs. -/
theorem mem_of_mem_ofList {pairs : List (String × α)} {entry : String × α}
    (mem : entry ∈ ofList pairs) : entry ∈ pairs := by
  refine mem_of_last? ?_
  rw [← get?_ofList]
  exact (get?_eq_some_iff (sorted_ofList pairs)).mpr mem

/-- The names of a map that is made from pairs are those of the pairs. -/
theorem mem_keys_ofList {pairs : List (String × α)} {name : String} :
    name ∈ (ofList pairs).keys ↔ name ∈ pairs.map Prod.fst := by
  rw [← has_iff_mem_keys, has, get?_ofList, isSome_last?]

end Fields

end Warden
