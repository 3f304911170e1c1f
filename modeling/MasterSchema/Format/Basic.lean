import MasterSchema.Format.Json.Document
import MasterSchema.Format.Ron.Document
import MasterSchema.Format.Toml.Document
import MasterSchema.Path.Basic

/-!
# The formats of data files

A file's extension says its format (`ofPath?`). A data file is read as a table (`readTable`), an id
file as the entries of its member `id` (`readIdEntries`), of which it may have none. What cannot be
read is nothing; the formats say no more about it.
-/

namespace MasterSchema

inductive DataFormat where
  | ron
  | toml
  | json
  deriving DecidableEq, Repr

namespace DataFormat

/-- The format that an extension stands for. -/
def ofExtension? (extension : String) : Option DataFormat :=
  if extension == "ron" then some .ron
  else if extension == "toml" then some .toml
  else if extension == "json" then some .json
  else none

def ofPath? (p : Path) : Option DataFormat :=
  p.extension.bind ofExtension?

/-! ## 1. Dates in TOML tables -/

/-- Whether entries stand for a date, whatever follows the first of them. -/
def startsDate (entries : Table) : Bool :=
  entries.head?.any fun entry => entry.1 == Format.dateKey

mutual

/-- A value in which all tables that stand for dates are dates. -/
def dated? : Value → Option Value
  | .array items => (datedItems? items).map .array
  | .table entries =>
    if startsDate entries then
      (entries.head?.bind fun entry => entry.2.asText?).bind Format.dateOfText
    else (datedEntries? entries).map .table
  | v => some v

def datedItems? : List Value → Option (List Value)
  | [] => some []
  | item :: rest => do
    let v ← dated? item
    let more ← datedItems? rest
    some (v :: more)

def datedEntries? : List (String × Value) → Option Table
  | [] => some []
  | (key, item) :: rest => do
    let v ← dated? item
    let more ← datedEntries? rest
    some ((key, v) :: more)

end

/-! ## 2. Data files -/

/-- The table of a data file. -/
def readTable (text : String) : DataFormat → Option Table
  | .ron => (Ron.readMap text).bind Ron.table?
  | .toml => (Toml.read text).bind datedEntries?
  | .json => (Json.read text).bind Json.table?

/-! ## 3. Id files -/

/-- The member of an id file under which the domains are. -/
def idMember : String := "id"

/-- The name that the record of an id file may carry. -/
def idRecordName : String := "IdFile"

/-- The only value under a key, if there is one; two are none at all. -/
def only? {α : Type} (key : String) (members : List (String × α)) : Option (Option α) :=
  match members.filter fun entry => entry.1 == key with
  | [] => some none
  | [(_, v)] => some (some v)
  | _ => none

def tomlIdEntries (document : Table) : Option Table :=
  match document.get? idMember with
  | none => some []
  | some v => (Format.entriesOf v).bind datedEntries?

/-- An object whose entries are two levels below the top of a file. -/
def jsonIdTable : Json → Option Table
  | .object members =>
    (Json.memberValues? (Json.nestingLimit - 2) members).map Format.lastWins
  | _ => none

/-- An id file is an object, or an array of the one member. Members that are not asked for are
    not looked at, but the keys of all are. -/
def jsonIdEntries : Json → Option Table
  | .object members => do
    let keyed ← members.mapM fun (key, v) => key.map fun key => (key, v)
    match ← only? idMember keyed with
    | none => some []
    | some v => jsonIdTable v
  | .array [] => some []
  | .array [v] => jsonIdTable v
  | _ => none

/-- An id file is a record; only its map counts. -/
def ronIdEntries (members : List (String × Ron)) : Option Table := do
  match ← only? idMember members with
  | none => some []
  | some (.map entries) =>
    let keyed ← entries.mapM fun (key, v) => (key.key? false).map fun key => (key, v)
    Ron.table? keyed
  | some _ => none

/-- The entries under the id member of an id file. -/
def readIdEntries (text : String) : DataFormat → Option Table
  | .ron => (Ron.readRecord idRecordName text).bind ronIdEntries
  | .toml => (Toml.read text).bind tomlIdEntries
  | .json => (Json.read text).bind jsonIdEntries

end DataFormat

end MasterSchema
