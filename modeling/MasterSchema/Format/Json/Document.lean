import MasterSchema.Format.Json.Number
import MasterSchema.Format.Reader
import MasterSchema.Format.Table

/-!
# JSON documents

`read` checks the grammar and nothing else: it keeps null, repeated keys, numbers of any size and
texts whose escapes make no characters. What of it is a value of a data file is said by `value?`,
what a table file is by `table?`.
-/

namespace MasterSchema

inductive Json where
  | null
  | boolean (b : Bool)
  | number (n : Json.Number)
  /-- A text; none if an escape in it is half of a surrogate pair. -/
  | text (s : Option String)
  | array (items : List Json)
  | object (members : List (Option String × Json))
  deriving Repr

namespace Json.Grammar

open Reader

/-! ## 1. Texts -/

def isBlank (c : Char) : Bool := c == ' ' || c == '\n' || c == '\t' || c == '\r'

def blanks : Reader Unit := do
  let _ ← run isBlank

/-- A character that needs no escape. -/
def isPlain (c : Char) : Bool := decide (' ' ≤ c) && c != '"' && c != '\\'

/-- The second half of a surrogate pair. -/
def lowSurrogate : Reader Nat := do
  word "\\u"
  let unit ← hexNumber 4
  if 0xDC00 ≤ unit ∧ unit ≤ 0xDFFF then pure unit else failure

/-- The character of a `\u` escape, a surrogate pair taking two of them. Half a pair is none. -/
def unicodeEscape : Reader (Option Char) := do
  let unit ← hexNumber 4
  if 0xD800 ≤ unit ∧ unit ≤ 0xDBFF then
    match ← optional lowSurrogate with
    | some low => pure (Digits.char? (0x10000 + (unit - 0xD800) * 0x400 + (low - 0xDC00)))
    | none => pure none
  else pure (Digits.char? unit)

def escape : Reader (Option Char) := do
  char '\\'
  match ← any with
  | '"' => pure (some '"')
  | '\\' => pure (some '\\')
  | '/' => pure (some '/')
  | 'b' => pure (some '\x08')
  | 'f' => pure (some '\x0c')
  | 'n' => pure (some '\n')
  | 'r' => pure (some '\r')
  | 't' => pure (some '\t')
  | 'u' => unicodeEscape
  | _ => failure

/-- Characters written out, or one escaped. -/
def piece : Reader (Option (List Char)) :=
  (do let cs ← run1 isPlain; pure (some cs))
  <|> (do let c ← escape; pure (c.map fun c => [c]))

def string : Reader (Option String) := do
  char '"'
  let pieces ← many piece
  char '"'
  pure ((pieces.mapM id).map fun cs => String.ofList cs.flatten)

/-! ## 2. Numbers -/

def wholePart : Reader (List Char) :=
  (do
    char '0'
    notBefore Char.isDigit
    pure ['0'])
  <|> (do
    notBefore (· == '0')
    run1 Char.isDigit)

def exponentPart : Reader (Bool × List Char) := do
  let _ ← satisfying fun c => c == 'e' || c == 'E'
  let down ← (do char '-'; pure true) <|> (do let _ ← accepts (char '+'); pure false)
  let digits ← run1 Char.isDigit
  pure (down, digits)

def number : Reader Number := do
  let negative ← accepts (char '-')
  let whole ← wholePart
  let fraction ← announced (· == '.') (do char '.'; run1 Char.isDigit)
  let exponent ← announced (fun c => c == 'e' || c == 'E') exponentPart
  pure ⟨negative, whole, fraction, exponent⟩

/-! ## 3. Documents -/

/-- A part with blanks around it. -/
def spaced {α : Type} (part : Reader α) : Reader α := do
  blanks
  let a ← part
  blanks
  pure a

def member (value : Reader Json) : Reader (Option String × Json) := do
  let key ← spaced string
  char ':'
  let v ← spaced value
  pure (key, v)

def array (value : Reader Json) : Reader Json := do
  char '['
  blanks
  let items ← separated (spaced value) (char ',')
  char ']'
  pure (.array items)

def object (value : Reader Json) : Reader Json := do
  char '\x7b'
  blanks
  let members ← separated (member value) (char ',')
  char '\x7d'
  pure (.object members)

/-- A value with fewer than so many arrays and objects inside one another. -/
def valueWithin : Nat → Reader Json
  | 0, _ => none
  | levels + 1, cs =>
    ((do word "null"; pure Json.null)
      <|> (do word "true"; pure (Json.boolean true))
      <|> (do word "false"; pure (Json.boolean false))
      <|> (do let s ← string; pure (Json.text s))
      <|> (do let n ← number; pure (Json.number n))
      <|> array (valueWithin levels)
      <|> object (valueWithin levels)) cs

end Json.Grammar

namespace Json

/-- The document that a text writes. -/
def read (text : String) : Option Json :=
  Reader.whole (Grammar.spaced (Grammar.valueWithin (text.length + 1))) text

/-! ## 4. Values -/

/-- How many tables and arrays may stand inside one another. -/
def nestingLimit : Nat := 127

mutual

/-- The value of a document that may be nested so deep. -/
def value? (levels : Nat) : Json → Option Value
  | .null => none
  | .boolean b => some (.boolean b)
  | .number n => n.value?
  | .text s => s.map .text
  | .array items =>
    match levels with
    | 0 => none
    | levels + 1 => (itemValues? levels items).map .array
  | .object members =>
    match levels with
    | 0 => none
    | levels + 1 => (memberValues? levels members).bind Format.nestedTable

def itemValues? (levels : Nat) : List Json → Option (List Value)
  | [] => some []
  | item :: rest => do
    let v ← value? levels item
    let more ← itemValues? levels rest
    some (v :: more)

def memberValues? (levels : Nat) : List (Option String × Json) → Option Table
  | [] => some []
  | (key, item) :: rest => do
    let k ← key
    let v ← value? levels item
    let more ← memberValues? levels rest
    some ((k, v) :: more)

end

/-- The table of a document that is an object. -/
def table? : Json → Option Table
  | .object members => (memberValues? (nestingLimit - 1) members).map Format.lastWins
  | _ => none

end Json

end MasterSchema
