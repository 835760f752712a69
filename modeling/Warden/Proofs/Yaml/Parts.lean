import Mathlib.Data.List.Nodup
import Mathlib.Data.List.Count
import Warden.Yaml.Datum
/-! # Records of known parts
A record is read by its known parts, which its keys address by name or by position
(`Yaml.Datum.parts?`). Reading succeeds iff every key is a text or a position, no part is addressed
twice and, unless other entries are passed over, every key addresses a part
(`Yaml.Datum.exists_parts?_iff`). What is found under a part is then the only datum whose key
addresses it (`Yaml.Datum.toList_lookup`). -/

namespace Warden

namespace Yaml

namespace Datum

variable {parts : List String} {tolerant : Bool} {entries : List (Datum × Datum)}
  {found : List (Nat × Datum)}

/-- Whether a datum is a text or a position, and so can be a key of a record. -/
def isKey : Datum → Bool
  | .text _ | .natural _ => true
  | _ => false

/-- The data whose keys address the part at a place. -/
def placed (parts : List String) (place : Nat) (entries : List (Datum × Datum)) : List Datum :=
  (entries.filter fun entry => part? parts entry.1 == some (some place)).map Prod.snd

/-- The data whose keys address the same part as a name does. -/
def under (parts : List String) (name : String) (entries : List (Datum × Datum)) : List Datum :=
  (entries.filter fun entry => part? parts entry.1 == part? parts (.text name)).map Prod.snd

/-- What a name addresses stands at its place. -/
theorem under_eq_placed {name : String} {place : Nat}
    (named : part? parts (.text name) = some (some place)) :
    under parts name entries = placed parts place entries := by
  rw [under, named, placed]

/-- A datum under a name is among what the name addresses. -/
theorem mem_under {name : String} {datum : Datum} (mem : (.text name, datum) ∈ entries) :
    datum ∈ under parts name entries :=
  List.mem_map.mpr ⟨_, List.mem_filter.mpr ⟨mem, beq_self_eq_true _⟩, rfl⟩

/-- Keys of records, and no others, address a part or none. -/
theorem isSome_part? (parts : List String) (key : Datum) :
    (part? parts key).isSome = key.isKey := by
  cases key <;> rfl

/-- There are as many places as parts. -/
theorem lt_of_part? {key : Datum} {place : Nat} (addressed : part? parts key = some (some place)) :
    place < parts.length := by
  cases key with
  | text name =>
    rw [part?, Option.some.injEq, List.findIdx?_eq_some_iff_findIdx_eq] at addressed
    exact addressed.1
  | natural n =>
    rw [part?, Option.some.injEq] at addressed
    split at addressed
    · next inside =>
      cases addressed
      exact inside
    · cases addressed
  | _ => cases addressed

/-- Something is found at a place iff the place is there. -/
theorem isSome_lookup_iff {place : Nat} :
    (found.lookup place).isSome = true ↔ place ∈ found.map Prod.fst := by
  rw [← Option.ne_none_iff_isSome, Ne, List.lookup_eq_none_iff, List.mem_map, not_forall]
  refine exists_congr fun entry => ?_
  rw [Classical.not_imp, bne_iff_ne, not_not, eq_comm]

/-- The only datum found at a place is what looking up finds. -/
theorem toList_lookup_of_nodup (once : (found.map Prod.fst).Nodup) (place : Nat) :
    (found.lookup place).toList = (found.filter fun entry => entry.1 == place).map Prod.snd := by
  induction found with
  | nil => rfl
  | cons entry rest ih =>
    obtain ⟨key, datum⟩ := entry
    rw [List.map_cons, List.nodup_cons] at once
    obtain ⟨fresh, once⟩ := once
    rw [List.lookup_cons, List.filter_cons]
    by_cases same : place = key
    · -- The place is not found again in the rest.
      subst same
      have absent : (rest.filter fun entry => entry.1 == place) = [] := by
        rw [List.filter_eq_nil_iff]
        intro later mem again
        exact fresh (List.mem_map.mpr ⟨later, mem, eq_of_beq again⟩)
      simp [absent]
    · rw [beq_eq_false_iff_ne.mpr same, if_neg (by simpa using Ne.symm same)]
      exact ih once

/-- What an entry adds to the parts of a record. -/
def addressed (parts : List String) (entry : Datum × Datum) : Option (Nat × Datum) :=
  (part? parts entry.1).join.map fun place => (place, entry.2)

/-- Of what is addressed, the data at a place are those placed there. -/
theorem placed_eq (parts : List String) (place : Nat) (entries : List (Datum × Datum)) :
    placed parts place entries =
      ((entries.filterMap (addressed parts)).filter fun entry => entry.1 == place).map
        Prod.snd := by
  induction entries with
  | nil => rfl
  | cons entry rest ih =>
    rw [placed] at ih
    rw [placed, List.filter_cons, List.filterMap_cons, addressed]
    cases part? parts entry.1 with
    | none => simpa using ih
    | some part =>
      cases part with
      | none => simpa using ih
      | some other =>
        by_cases same : other = place
        · subst same
          simpa using ih
        · simpa [same] using ih

/-- **Reading a record** by its parts. -/
theorem parts?_eq_some_iff :
    parts? parts tolerant entries = some found ↔
      (∀ entry ∈ entries, entry.1.isKey = true ∧
        (tolerant = true ∨ (addressed parts entry).isSome = true)) ∧
      entries.filterMap (addressed parts) = found ∧ (found.map Prod.fst).Nodup := by
  induction entries generalizing found with
  | nil =>
    rw [parts?]
    constructor
    · intro same
      cases same
      exact ⟨nofun, rfl, List.nodup_nil⟩
    · rintro ⟨-, same, -⟩
      exact congrArg some same
  | cons entry rest ih =>
    obtain ⟨key, datum⟩ := entry
    have isKey : key.isKey = (part? parts key).isSome := (isSome_part? parts key).symm
    rw [List.forall_mem_cons, parts?, List.filterMap_cons, isKey, addressed]
    cases part? parts key with
    | none => exact ⟨nofun, fun ⟨⟨⟨never, _⟩, _⟩, _⟩ => nomatch never⟩
    | some part =>
      cases part with
      | none =>
        -- The key addresses no part, which is no fault iff other entries are passed over.
        show ((parts? parts tolerant rest).bind fun others =>
          if tolerant = true then some others else none) = some found ↔ _
        cases tolerant with
        | true =>
          simpa using @ih found
        | false => simp
      | some place =>
        -- The key addresses a part, which must not be addressed again.
        show ((parts? parts tolerant rest).bind fun others =>
          if (others.lookup place).isSome then none else some ((place, datum) :: others)) =
            some found ↔ _
        rw [Option.bind_eq_some_iff]
        constructor
        · rintro ⟨others, read, taken⟩
          obtain ⟨keys, rfl, once⟩ := ih.mp read
          split at taken
          · cases taken
          · next fresh =>
            cases taken
            refine ⟨⟨⟨rfl, .inr rfl⟩, keys⟩, rfl, List.nodup_cons.mpr ⟨?_, once⟩⟩
            rwa [isSome_lookup_iff] at fresh
        · rintro ⟨⟨-, keys⟩, rfl, once⟩
          obtain ⟨fresh, once⟩ := List.nodup_cons.mp once
          refine ⟨_, ih.mpr ⟨keys, rfl, once⟩, ?_⟩
          rw [← isSome_lookup_iff] at fresh
          rw [if_neg fresh]
          rfl

/-- **Which records can be read**: those with keys only, of which none addresses a part again and,
unless other entries are passed over, each addresses one. -/
theorem exists_parts?_iff :
    (∃ found, parts? parts tolerant entries = some found) ↔
      (∀ entry ∈ entries, entry.1.isKey = true ∧
        (tolerant = true ∨ (addressed parts entry).isSome = true)) ∧
      ∀ place < parts.length, (placed parts place entries).length ≤ 1 := by
  -- Only the places of parts are addressed, so that no other place could be there twice.
  have inside : ∀ entry ∈ entries.filterMap (addressed parts), entry.1 < parts.length := by
    intro entry mem
    obtain ⟨given, -, addresses⟩ := List.mem_filterMap.mp mem
    obtain ⟨place, addressed, rfl⟩ := Option.map_eq_some_iff.mp addresses
    exact lt_of_part? (Option.join_eq_some_iff.mp addressed)
  simp only [parts?_eq_some_iff, placed_eq, List.length_map]
  generalize entries.filterMap (addressed parts) = found at inside
  have counted (place : Nat) : (found.map Prod.fst).count place =
      (found.filter fun entry => entry.1 == place).length := by
    rw [List.count_eq_countP, List.countP_map, List.countP_eq_length_filter]
    rfl
  constructor
  · rintro ⟨_, keys, rfl, once⟩
    refine ⟨keys, fun place _ => ?_⟩
    rw [← counted]
    exact List.nodup_iff_count_le_one.mp once place
  · rintro ⟨keys, once⟩
    refine ⟨found, keys, rfl, List.nodup_iff_count_le_one.mpr fun place => ?_⟩
    by_cases known : place < parts.length
    · rw [counted]
      exact once place known
    · have absent : place ∉ found.map Prod.fst := by
        intro mem
        obtain ⟨entry, there, rfl⟩ := List.mem_map.mp mem
        exact known (inside entry there)
      rw [List.count_eq_zero.mpr absent]
      exact Nat.zero_le 1

/-- What is read for the place of a part is the only datum whose key addresses it. -/
theorem toList_lookup (read : parts? parts tolerant entries = some found) (place : Nat) :
    (found.lookup place).toList = placed parts place entries := by
  obtain ⟨-, rfl, once⟩ := parts?_eq_some_iff.mp read
  rw [toList_lookup_of_nodup once, placed_eq]

/-- Options with the same members are the same. -/
theorem eq_of_toList_eq {α : Type} {a b : Option α} (same : a.toList = b.toList) : a = b := by
  cases a <;> cases b <;> cases same <;> rfl

/-- What is read for the place of a part, if it is known what stands there. -/
theorem lookup_of_placed (read : parts? parts tolerant entries = some found) {place : Nat}
    {datum : Option Datum} (is : placed parts place entries = datum.toList) :
    found.lookup place = datum :=
  eq_of_toList_eq ((toList_lookup read place).trans is)

/-- A key that addresses a part has a place. -/
theorem exists_place_of_addressed {entry : Datum × Datum}
    (addresses : (addressed parts entry).isSome = true) :
    ∃ place, part? parts entry.1 = some (some place) := by
  obtain ⟨_, is⟩ := Option.isSome_iff_exists.mp addresses
  obtain ⟨place, is, -⟩ := Option.map_eq_some_iff.mp is
  exact ⟨place, Option.join_eq_some_iff.mp is⟩

end Datum

end Yaml

end Warden
