/-!
# Values of data files

All data files, whatever their format, hold the same values. A table keeps its entries in the
order they were written in; readers never give one key twice. A float is its IEEE 754 bits, so
that values can be compared, and a date is the text it is written as.
-/

namespace MasterSchema

inductive Value where
  | text (s : String)
  | integer (n : Int)
  | float (bits : UInt64)
  | boolean (b : Bool)
  | date (text : String)
  | array (items : List Value)
  | table (entries : List (String × Value))
  deriving Repr, Inhabited

/-- A table's entries, in written order. -/
abbrev Table := List (String × Value)

namespace Table

/-- The value under a key. -/
def get? (t : Table) (key : String) : Option Value :=
  (t.find? fun entry => entry.1 == key).map (·.2)

def keys (t : Table) : List String :=
  t.map (·.1)

def contains (t : Table) (key : String) : Bool :=
  t.any fun entry => entry.1 == key

theorem contains_eq (t : Table) (key : String) : t.contains key = decide (key ∈ t.keys) := by
  rw [Bool.eq_iff_iff, decide_eq_true_eq, keys, List.mem_map]
  simp [contains]

end Table

namespace Value

def asText? : Value → Option String
  | .text s => some s
  | _ => none

def asTable? : Value → Option Table
  | .table entries => some entries
  | _ => none

end Value

end MasterSchema
