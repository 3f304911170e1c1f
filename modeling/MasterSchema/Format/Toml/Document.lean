import MasterSchema.Format.Toml.Lexis

/-!
# The tables of a TOML document

The lines of a document build one table. While it is built, a table knows how it came to be:
by a header of its own, by a header below it, or by a dotted key. A header may define a table that
a header below it only implied; a dotted key may only go into tables that dotted keys made.

A table stands where it is first mentioned, but for one case: when a header defines a table that
was only implied, the table moves behind all that stands beside it.
-/

namespace MasterSchema.Toml

/-! ## 1. Tables under construction -/

/-- How a table came to be. -/
inductive Origin where
  /-- By a header of its own. -/
  | header
  /-- By a header of a table below it. -/
  | implied
  /-- By a dotted key. -/
  | dotted
  deriving DecidableEq, Repr

/-- What a key stands for while the document is read. -/
inductive Node where
  /-- A value that nothing can be added to. -/
  | closed (v : Value)
  | table (origin : Origin) (entries : List (String × Node))
  /-- An array of tables; additions go to the last of them. -/
  | tables (items : List Node)

abbrev Nodes := List (String × Node)

namespace Nodes

def get? (nodes : Nodes) (key : String) : Option Node :=
  (nodes.find? fun entry => entry.1 == key).map (·.2)

/-- Another node under a key that is there. -/
def replace (nodes : Nodes) (key : String) (node : Node) : Nodes :=
  nodes.map fun entry => if entry.1 == key then (key, node) else entry

/-- Another node under a key that is there, behind all others. -/
def moveLast (nodes : Nodes) (key : String) (node : Node) : Nodes :=
  (nodes.filter fun entry => entry.1 != key) ++ [(key, node)]

end Nodes

/-- An array of tables with a change in its last table. -/
def changeLast (f : Nodes → Option Nodes) (items : List Node) : Option Node :=
  match items.getLast? with
  | some (.table origin entries) => do
    let changed ← f entries
    some (.tables (items.dropLast ++ [.table origin changed]))
  | _ => none

/-- A new value under a dotted key, the keys before the last being `path`. -/
def insertDotted (path : List String) (last : String) (v : Value) (nodes : Nodes) : Option Nodes :=
  match path with
  | [] =>
    match nodes.get? last with
    | none => some (nodes ++ [(last, .closed v)])
    | some _ => none
  | key :: rest =>
    match nodes.get? key with
    | none => do
      let inner ← insertDotted rest last v []
      some (nodes ++ [(key, .table .dotted inner)])
    | some (.table .header _) => none
    | some (.table origin entries) =>
      if rest.isEmpty && origin == .implied then none
      else do
        let inner ← insertDotted rest last v entries
        some (nodes.replace key (.table origin inner))
    | some (.tables items) =>
      if rest.isEmpty then none
      else do
        let node ← changeLast (insertDotted rest last v) items
        some (nodes.replace key node)
    | some (.closed _) => none

/-- A change in the table that the keys of a header lead to. Tables that are not there yet are
    implied. -/
def changeAt (path : List String) (f : Nodes → Option Nodes) (nodes : Nodes) : Option Nodes :=
  match path with
  | [] => f nodes
  | key :: rest =>
    match nodes.get? key with
    | none => do
      let inner ← changeAt rest f []
      some (nodes ++ [(key, .table .implied inner)])
    | some (.table origin entries) => do
      let inner ← changeAt rest f entries
      some (nodes.replace key (.table origin inner))
    | some (.tables items) => do
      let node ← changeLast (changeAt rest f) items
      some (nodes.replace key node)
    | some (.closed _) => none

/-- The header `[path.last]`. -/
def openTable (path : List String) (last : String) : Nodes → Option Nodes :=
  changeAt path fun nodes =>
    match nodes.get? last with
    | none => some (nodes ++ [(last, .table .header [])])
    | some (.table .implied entries) => some (nodes.moveLast last (.table .header entries))
    | some _ => none

/-- The header `[[path.last]]`. -/
def openItem (path : List String) (last : String) : Nodes → Option Nodes :=
  changeAt path fun nodes =>
    match nodes.get? last with
    | none => some (nodes ++ [(last, .tables [.table .header []])])
    | some (.tables items) => some (nodes.replace last (.tables (items ++ [.table .header []])))
    | some _ => none

mutual

/-- The value that a finished node is. -/
def Node.value : Node → Value
  | .closed v => v
  | .table _ entries => .table (entryValues entries)
  | .tables items => .array (itemValues items)

/-- The table that finished entries make. -/
def entryValues : List (String × Node) → Table
  | [] => []
  | (key, node) :: rest => (key, node.value) :: entryValues rest

def itemValues : List Node → List Value
  | [] => []
  | node :: rest => node.value :: itemValues rest

end

/-! ## 2. Values -/

open Reader

/-- Blanks, line ends and comments between the items of an array. -/
def gap : Reader Unit := do
  let _ ← many ((do let _ ← run1 isBlank) <|> newline <|> (do comment; newline))

/-- An array of values; a comma may follow the last. -/
def array (item : Reader Value) : Reader Value := do
  char '['
  let items ← separated (do gap; let v ← item; gap; pure v) (char ',')
  if !items.isEmpty then
    let _ ← accepts (char ',')
  gap
  char ']'
  pure (.array items)

/-- Keys with their values, as inside braces. -/
def pair (value : Reader Value) : Reader ((List String × String) × Value) := do
  let key ← dottedKey
  char '='
  blanks
  let v ← value
  blanks
  pure (key, v)

/-- The table that pairs make on their own. -/
def ofPairs (pairs : List ((List String × String) × Value)) : Option Nodes :=
  pairs.foldlM (fun nodes (key, v) => insertDotted key.1 key.2 v nodes) []

def inlineTable (value : Reader Value) : Reader Value := do
  char '\x7b'
  let pairs ← separated (pair value) (char ',')
  blanks
  char '\x7d'
  let nodes ← StateT.lift (ofPairs pairs)
  pure (.table (entryValues nodes))

/-- A value with at most so many arrays and tables inside one another. -/
def value : Nat → Reader Value
  | 0 => scalar
  | depth + 1 => array (value depth) <|> inlineTable (value depth) <|> scalar

/-! ## 3. Lines -/

inductive Line where
  | empty
  | table (path : List String) (last : String)
  | item (path : List String) (last : String)
  | pair (path : List String) (last : String) (v : Value)

def line : Reader Line := do
  blanks
  (do comment; lineEnd; pure .empty)
    <|> (do newline; pure .empty)
    <|> (do
      word "[["
      let key ← dottedKey
      word "]]"
      lineRest
      pure (.item key.1 key.2))
    <|> (do
      char '['
      let key ← dottedKey
      char ']'
      lineRest
      pure (.table key.1 key.2))
    <|> (do
      let (key, v) ← pair (value (nestingLimit - 1))
      lineRest
      pure (.pair key.1 key.2 v))

/-- All lines of a document, which a byte order mark may lead. -/
def lines : Reader (List Line) := do
  let _ ← accepts (char '\ufeff')
  let all ← many line
  blanks
  pure all

/-- What is read so far, and the keys of the header that the next pairs belong to. -/
structure Draft where
  nodes : Nodes := []
  header : List String := []

/-- One more line. -/
def Draft.add (draft : Draft) : Line → Option Draft
  | .empty => some draft
  | .table path last => do
    let nodes ← openTable path last draft.nodes
    some ⟨nodes, path ++ [last]⟩
  | .item path last => do
    let nodes ← openItem path last draft.nodes
    some ⟨nodes, path ++ [last]⟩
  | .pair path last v => do
    let nodes ← changeAt draft.header (insertDotted path last v) draft.nodes
    some ⟨nodes, draft.header⟩

/-- The table of a TOML document. -/
def read (text : String) : Option Table := do
  let all ← whole lines text
  let draft ← all.foldlM Draft.add {}
  some (entryValues draft.nodes)

end MasterSchema.Toml
