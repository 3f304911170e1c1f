import MasterSchema.Format.Toml.Lexis

/-!
# Tables inside other tables

What the entries of a nested table make, in every format. Two entries of one key make no table. A
table that starts with the entry `dateKey` stands for a date: it is how a date travels through a
format that has none. At the top of a file neither rule holds: there the last entry of a key wins
(`lastWins`).
-/

namespace MasterSchema.Format

/-- The key under which a date lies in a table that stands for a date. -/
def dateKey : String := "$__toml_private_datetime"

/-- The date that a text writes. -/
def dateOfText (text : String) : Option Value :=
  (Reader.whole Toml.dateTime text).map .date

/-- The date or the table that the entries of a nested table make. A date's table has no further
    entry. -/
def nestedTable (entries : Table) : Option Value :=
  match entries with
  | [] => some (.table [])
  | (key, v) :: rest =>
    if key == dateKey then
      match v, rest with
      | .text s, [] => dateOfText s
      | _, _ => none
    else if decide entries.keys.Nodup then some (.table entries)
    else none

/-- The table of a file's entries: each key once, where it stood first, with its last value. -/
def lastWins (entries : Table) : Table :=
  entries.foldl
    (fun table entry =>
      if table.contains entry.1 then
        table.map fun other => if other.1 == entry.1 then entry else other
      else table ++ [entry])
    []

/-- The entries of a value where a table is asked for: a date has one, under the date key. -/
def entriesOf : Value → Option Table
  | .table entries => some entries
  | .date text => some [(dateKey, .text text)]
  | _ => none

end MasterSchema.Format
