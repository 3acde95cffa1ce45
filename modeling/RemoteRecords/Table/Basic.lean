import RemoteRecords.Bounds
import RemoteRecords.Table.Reader

namespace RemoteRecords

/-- A header and the rows below it, which may have any width. -/
structure Table where
  header : List String
  rows : List (List String)
  deriving DecidableEq, Repr

namespace Table

/-- The table in a file. A file without a row has an empty header. -/
def ofBytes (separator : Separator) (bytes : Bytes) : Except BadCell Table := do
  match ← decodeRows 0 (rowsOf separator.byte bytes) with
  | [] => return ⟨[], []⟩
  | header :: rows => return ⟨header, rows⟩

/-- The rows after the first `offset`, at most `limit` of them; a limit of zero is no limit. There
is nothing when the places of the first row and behind the last one are not those of a slice. -/
def select? (table : Table) (offset limit : Nat) : Option (List (List String)) :=
  let count := table.rows.length
  let start := min offset count
  Bounds.slice? table.rows start
    (if limit = 0 then count else min (Bounds.saturatingSum start limit) count)

/-- The rows that `select?` gives. -/
def select (table : Table) (offset limit : Nat) : List (List String) :=
  (table.select? offset limit).getD []

end Table

end RemoteRecords
