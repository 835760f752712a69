import Warden.Query
import Warden.Value.Json
/-! # Recorded queries
A kind of query that is never carried out: it keeps a **journal** of what was asked of it, one line
for each request in the order of the requests. An application that looks into a journal sees which
narrowings its rules apply, and in which order. -/

namespace Warden

/-- A query as the record of the requests that made it. -/
structure Journal where
  /-- One line for each request. -/
  lines : List String
  deriving DecidableEq, Repr

namespace Journal

/-- Add one line. -/
def note (journal : Journal) (line : String) : Journal := ⟨journal.lines ++ [line]⟩

/-- Ask for at most so many rows. -/
def atMost (journal : Journal) (limit : Nat) : Journal := journal.note ("limit " ++ toString limit)

@[simp] theorem lines_note (journal : Journal) (line : String) :
    (journal.note line).lines = journal.lines ++ [line] := rfl

end Journal

instance : Query Journal where
  base table := ⟨[table.name]⟩
  none journal := journal.note "none"
  merge journal other := ⟨journal.lines ++ "merge" :: other.lines⟩
  filterEq journal field value := journal.note (field ++ "=" ++ value.json)
  filterIn journal field values := journal.note (field ++ " in " ++ (Value.array values).json)

end Warden
