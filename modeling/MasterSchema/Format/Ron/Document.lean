import MasterSchema.Format.Ron.Lexis
import MasterSchema.Format.Table

/-!
# RON documents

`Ron` is what a text of the format writes; `value?` says which of it is a value of a data file:
tuples are arrays, an optional value is the value itself, and a record with one member is a table.
A file is a map (`readMap`) or a record (`readRecord`).
-/

namespace MasterSchema

inductive Ron where
  /-- Nothing: `()`, `None`, or a name without members. -/
  | unit
  /-- An optional value that is there. -/
  | present (v : Ron)
  | boolean (b : Bool)
  | number (n : Ron.Number)
  | text (s : String)
  | character (c : Char)
  /-- A list or a tuple. -/
  | list (items : List Ron)
  | map (entries : List (Ron × Ron))
  | record (members : List (String × Ron))
  deriving Repr

namespace Ron.Grammar

open Reader

variable {α β : Type}

/-! ## 1. Items between brackets -/

/-- Blanks, and one comma among them if there is one. -/
def comma : Reader Unit := do
  gap
  let _ ← accepts (char ',')
  gap

/-- Items with commas between them, between two brackets; a comma may follow the last. -/
def bracketed (opening closing : Char) (item : Reader α) : Reader (List α) := do
  char opening
  gap
  let items ← separated item (do gap; char ','; gap)
  if !items.isEmpty then comma
  char closing
  pure items

/-- Two parts with a colon between them. -/
def pair (first : Reader α) (second : Reader β) : Reader (α × β) := do
  let a ← first
  gap
  char ':'
  gap
  let b ← second
  pure (a, b)

/-- Whether a parenthesis with a named member follows. -/
def opensRecord : Reader Bool := fun cs =>
  let opening := do
    char '('
    gap
    let _ ← name
    gap
    char ':'
  some ((opening cs).isSome, cs)

/-! ## 2. Values -/

/-- A value in words, not counting names. -/
def wordValue : Reader Ron :=
  (do keyword "true"; pure (Ron.boolean true))
  <|> (do keyword "false"; pure (Ron.boolean false))
  <|> (do keyword "None"; pure Ron.unit)
  <|> (do let bits ← specialFloat; pure (Ron.number (.float bits)))

/-- Values that hold no others. -/
def scalar : Reader Ron :=
  wordValue
  <|> (do let s ← text; pure (Ron.text s))
  <|> (do let c ← character; pure (Ron.character c))
  <|> (do let n ← number; pure (Ron.number n))

/-- An optional value that is there. -/
def presentValue (inner : Reader Ron) : Reader Ron := do
  keyword "Some"
  gap
  char '('
  gap
  let v ← inner
  comma
  char ')'
  pure (Ron.present v)

/-- A record or a tuple; without members it is nothing. -/
def members (inner : Reader Ron) : Reader Ron :=
  (do
    char '('
    gap
    char ')'
    pure Ron.unit)
  <|> (do
    if ← opensRecord then
      let members ← bracketed '(' ')' (pair name inner)
      pure (Ron.record members)
    else
      let items ← bracketed '(' ')' inner
      pure (Ron.list items))

/-- The same with a name in front, or the name alone. -/
def named (inner : Reader Ron) : Reader Ron := do
  let n ← name
  if n == "Some" then failure
  gap
  if (← peek) == some '(' then members inner else pure Ron.unit

def bracketedValue (inner : Reader Ron) : Reader Ron :=
  (do
    let items ← bracketed '[' ']' inner
    pure (Ron.list items))
  <|> (do
    let entries ← bracketed '\x7b' '\x7d' (pair inner inner)
    pure (Ron.map entries))

/-- A value; every bracket takes one of the levels, and every value in it one more. -/
def value : (levels : Nat) → Reader Ron
  | 0, cs => (scalar <|> named failure <|> members failure) cs
  | 1, cs =>
    (scalar <|> presentValue (value 0) <|> named failure <|> members failure
      <|> bracketedValue failure) cs
  | levels + 2, cs =>
    (scalar <|> presentValue (value (levels + 1)) <|> named (value levels)
      <|> members (value levels) <|> bracketedValue (value levels)) cs

/-- How many brackets and values in them may stand inside one another. -/
def nestingLimit : Nat := 128

/-! ## 3. Whole files -/

/-- The extensions a file may ask for. None of them changes how its values are read. -/
def extensions : List String :=
  ["unwrap_newtypes", "implicit_some", "unwrap_variant_newtypes"]

/-- A mark and the blanks behind it. -/
def mark (s : String) : Reader Unit := do
  word s
  gap

/-- A line in front of a file that asks for extensions. -/
def header : Reader Unit := do
  mark "#"
  mark "!"
  mark "["
  mark "enable"
  mark "("
  let names ← separated1 name (do gap; mark ",")
  comma
  mark ")"
  mark "]"
  if !names.all extensions.contains then failure

/-- The content of a file, blanks around it and headers in front. -/
def file (content : Reader α) : Reader α := do
  gap
  let _ ← many header
  let a ← content
  gap
  pure a

/-- A record of the given name; the name may be left out. -/
def fileRecord (recordName : String) : Reader (List (String × Ron)) := do
  match ← optional name with
  | some n => if n != recordName then failure
  | none => pure ()
  gap
  bracketed '(' ')' (pair name (value (nestingLimit - 2)))

end Ron.Grammar

namespace Ron

/-- The entries of a file that is a map; its keys are texts. -/
def readMap (source : String) : Option (List (String × Ron)) :=
  let entry := Grammar.pair Grammar.text (Grammar.value (Grammar.nestingLimit - 2))
  Reader.whole (Grammar.file (Grammar.bracketed '\x7b' '\x7d' entry)) source

/-- The members of a file that is a record of the given name. -/
def readRecord (recordName source : String) : Option (List (String × Ron)) :=
  Reader.whole (Grammar.file (Grammar.fileRecord recordName)) source

/-! ## 4. Values -/

/-- The key that stands in front of a map's entry; a character is one only in the first. -/
def key? (isFirst : Bool) : Ron → Option String
  | .text s => some s
  | .character c => if isFirst then some (String.singleton c) else none
  | _ => none

mutual

def value? : Ron → Option Value
  | .unit => none
  | .present v => v.value?
  | .boolean b => some (.boolean b)
  | .number (.integer n) => if n ≤ Digits.maxInteger then some (.integer n) else none
  | .number (.float bits) => some (.float bits)
  | .text s => some (.text s)
  | .character c => some (.text (String.singleton c))
  | .list items => (itemValues? items).map .array
  | .map entries => (entryValues? true entries).bind Format.nestedTable
  | .record [(name, v)] => v.value?.map fun v => .table [(name, v)]
  | .record _ => none

def itemValues? : List Ron → Option (List Value)
  | [] => some []
  | item :: rest => do
    let v ← item.value?
    let more ← itemValues? rest
    some (v :: more)

def entryValues? (isFirst : Bool) : List (Ron × Ron) → Option Table
  | [] => some []
  | (key, item) :: rest => do
    let k ← key.key? isFirst
    let v ← item.value?
    let more ← entryValues? false rest
    some ((k, v) :: more)

end

/-- The table that the entries of a map make at the top of a file. -/
def table? (entries : List (String × Ron)) : Option Table := do
  let values ← entries.mapM fun (key, v) => v.value?.map fun v => (key, v)
  some (Format.lastWins values)

end Ron

end MasterSchema
