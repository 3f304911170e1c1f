import MasterSchema.Format.Reader
import MasterSchema.Number.Binary64
import MasterSchema.Value

/-!
# Keys and single values of TOML

The readers of what stands on one line of a TOML file: blanks and comments, strings, keys, numbers,
and dates with times. A date is kept as the text of its canonical form.
-/

namespace MasterSchema.Toml

open Reader

/-! ## 1. Blanks, comments, line ends -/

def isBlank (c : Char) : Bool := c == ' ' || c == '\t'

def blanks : Reader Unit := do
  let _ ← run isBlank

/-- A character that may stand in text: no control character but the tab. -/
def isTextChar (c : Char) : Bool :=
  c == '\t' || (decide (' ' ≤ c) && decide (c ≠ '\x7f'))

def newline : Reader Unit := char '\n' <|> word "\r\n"

def comment : Reader Unit := do
  char '#'
  let _ ← run isTextChar

/-- The end of a line or of the file. -/
def lineEnd : Reader Unit := newline <|> finish

/-- What may follow on a line that says everything it says. -/
def lineRest : Reader Unit := do
  blanks
  let _ ← accepts comment
  lineEnd

/-! ## 2. Strings -/

/-- The character that an escape stands for, its backslash being read. -/
def escaped : Reader Char := do
  match ← any with
  | 'b' => pure '\x08'
  | 't' => pure '\t'
  | 'n' => pure '\n'
  | 'f' => pure '\x0c'
  | 'r' => pure '\r'
  | '"' => pure '"'
  | '\\' => pure '\\'
  | 'u' => hexChar 4
  | 'U' => hexChar 8
  | _ => failure

/-- A character of a basic string, written out or escaped. -/
def basicChar : Reader Char :=
  (do char '\\'; escaped) <|> satisfying fun c => isTextChar c && c != '"' && c != '\\'

def basicString : Reader String := do
  char '"'
  let cs ← many basicChar
  char '"'
  pure (String.ofList cs)

def literalString : Reader String := do
  char '\''
  let cs ← run fun c => isTextChar c && c != '\''
  char '\''
  pure (String.ofList cs)

/-- A line end that a backslash takes away, and with it all blanks and line ends behind it. -/
def foldedNewline : Reader Unit := do
  char '\\'
  blanks
  newline
  let _ ← many ((do let _ ← satisfying isBlank) <|> newline)

/-- One or two quotes inside a string that three quotes end. -/
def innerQuotes (quote : Char) : Reader (List Char) := do
  let quotes ← run1 (· == quote)
  if quotes.length ≤ 2 then pure quotes else failure

/-- The quotes that end a string over several lines: three, with up to two that belong to it. -/
def closingQuotes (quote : Char) : Reader (List Char) := do
  let quotes ← run1 (· == quote)
  if 3 ≤ quotes.length ∧ quotes.length ≤ 5 then pure (quotes.drop 3) else failure

/-- A string over several lines; every line end in it is a line feed, the first is dropped. -/
def longString (quote : Char) (piece : Reader (List Char)) : Reader String := do
  word (String.ofList [quote, quote, quote])
  let _ ← accepts newline
  let pieces ← many (piece <|> (do newline; pure ['\n']) <|> innerQuotes quote)
  let quotes ← closingQuotes quote
  pure (String.ofList (pieces.flatten ++ quotes))

def longBasicString : Reader String :=
  longString '"' ((do foldedNewline; pure []) <|> (do let c ← basicChar; pure [c]))

def longLiteralString : Reader String :=
  longString '\'' (do let c ← satisfying fun c => isTextChar c && c != '\''; pure [c])

def string : Reader String :=
  longBasicString <|> basicString <|> longLiteralString <|> literalString

/-! ## 3. Keys -/

/-- How deep values and keys may be nested. -/
def nestingLimit : Nat := 80

def isBareKeyChar (c : Char) : Bool := c.isAlphanum || c == '-' || c == '_'

def simpleKey : Reader String :=
  basicString <|> literalString <|> (do let cs ← run1 isBareKeyChar; pure (String.ofList cs))

/-- A key, blanks around it included. -/
def spacedKey : Reader String := do
  blanks
  let key ← simpleKey
  blanks
  pure key

/-- Keys with dots between them: those before the last, and the last. -/
def dottedKey : Reader (List String × String) := do
  let keys ← separated1 spacedKey (char '.')
  match keys.getLast? with
  | some last => if keys.length < nestingLimit then pure (keys.dropLast, last) else failure
  | none => failure

/-! ## 4. Numbers -/

/-- Digits of a base, an underscore allowed between two of them. -/
def digitsOf (base : Nat) : Reader (List Char) := do
  let first ← satisfying (Digits.isDigitOf base)
  let rest ← many (do let _ ← accepts (char '_'); satisfying (Digits.isDigitOf base))
  pure (first :: rest)

/-- A sign; whether it is a minus. -/
def sign : Reader Bool :=
  (do char '-'; pure true) <|> (do let _ ← accepts (char '+'); pure false)

/-- Decimal digits without a leading zero. -/
def wholeDigits : Reader (List Char) :=
  (do char '0'; pure ['0']) <|> digitsOf 10

/-- An integer within the limits. -/
def bounded (n : Int) : Reader Value :=
  if Digits.minInteger ≤ n ∧ n ≤ Digits.maxInteger then pure (.integer n) else failure

def integerOf (base : Nat) (mark : String) : Reader Value := do
  word mark
  let digits ← digitsOf base
  bounded (Digits.number base digits)

def decimalInteger : Reader Value := do
  let negative ← sign
  let digits ← wholeDigits
  let n : Int := Digits.number 10 digits
  bounded (if negative then -n else n)

def integer : Reader Value :=
  integerOf 16 "0x" <|> integerOf 8 "0o" <|> integerOf 2 "0b" <|> decimalInteger

def exponent : Reader Int := do
  let _ ← satisfying fun c => c == 'e' || c == 'E'
  let negative ← sign
  let digits ← digitsOf 10
  let n : Int := Digits.number 10 digits
  pure (if negative then -n else n)

/-- Infinity and what is no number. -/
def specialFloat : Reader Value := do
  let negative ← sign
  (do word "inf"; pure (.float (Binary64.signed negative Binary64.infinity)))
    <|> (do word "nan"; pure (.float Binary64.notANumber))

/-- A float with a fraction, an exponent or both. It may be too large for a number only below
    zero. -/
def decimalFloat : Reader Value := do
  let negative ← sign
  let whole ← wholeDigits
  let fraction ← optional (do char '.'; digitsOf 10)
  let power ← optional exponent
  if fraction.isNone && power.isNone then failure
  let places := fraction.getD []
  let magnitude :=
    Binary64.ofDecimal (Digits.number 10 (whole ++ places)) (power.getD 0 - places.length)
  if magnitude == Binary64.infinity && !negative then failure
  else pure (.float (Binary64.signed negative magnitude))

def float : Reader Value := decimalFloat <|> specialFloat

/-! ## 5. Dates and times -/

/-- A number of exactly `width` decimal digits, between two bounds. -/
def field (width least greatest : Nat) : Reader Nat := do
  let digits ← exactly width Char.isDigit
  let n := Digits.number 10 digits
  if least ≤ n ∧ n ≤ greatest then pure n else failure

def isLeapYear (year : Nat) : Bool :=
  year % 4 == 0 && (year % 100 != 0 || year % 400 == 0)

def daysIn (year month : Nat) : Nat :=
  if month == 2 then (if isLeapYear year then 29 else 28)
  else if month == 4 || month == 6 || month == 9 || month == 11 then 30
  else 31

def date : Reader String := do
  let year ← field 4 0 9999
  char '-'
  let month ← field 2 1 12
  char '-'
  let day ← field 2 1 31
  if day ≤ daysIn year month then
    pure (Digits.padded 4 year ++ "-" ++ Digits.padded 2 month ++ "-" ++ Digits.padded 2 day)
  else failure

/-- A fraction of a second: nine places count, trailing zeros vanish. -/
def secondFraction : Reader String := do
  char '.'
  let places ← run1 Char.isDigit
  let kept := ((places.take 9).reverse.dropWhile (· == '0')).reverse
  pure (if kept.isEmpty then "" else "." ++ String.ofList kept)

def time : Reader String := do
  let hour ← field 2 0 23
  char ':'
  let minute ← field 2 0 59
  char ':'
  let second ← field 2 0 60
  let fraction ← optional secondFraction
  pure (Digits.padded 2 hour ++ ":" ++ Digits.padded 2 minute ++ ":" ++ Digits.padded 2 second
    ++ fraction.getD "")

/-- An offset from universal time; none below zero is zero. -/
def offset : Reader String :=
  (do let _ ← satisfying fun c => c == 'Z' || c == 'z'; pure "Z")
  <|> (do
    let mark ← satisfying fun c => c == '+' || c == '-'
    let hour ← field 2 0 23
    char ':'
    let minute ← field 2 0 59
    let shown := if hour == 0 && minute == 0 then "+" else String.ofList [mark]
    pure (shown ++ Digits.padded 2 hour ++ ":" ++ Digits.padded 2 minute))

/-- A time behind a date, with the letter between them. -/
def timeOfDay : Reader String := do
  let _ ← satisfying fun c => c == 'T' || c == 't' || c == ' '
  let clock ← time
  let zone ← optional offset
  pure ("T" ++ clock ++ zone.getD "")

def dateTime : Reader String :=
  (do
    let day ← date
    let clock ← optional timeOfDay
    pure (day ++ clock.getD ""))
  <|> time

/-! ## 6. Single values -/

def boolean : Reader Value :=
  (do word "true"; pure (.boolean true)) <|> (do word "false"; pure (.boolean false))

/-- A value that holds no others. A date is tried before a float, a float before an integer. -/
def scalar : Reader Value :=
  (do let s ← string; pure (.text s))
  <|> boolean
  <|> (do let d ← dateTime; pure (.date d))
  <|> float
  <|> integer

end MasterSchema.Toml
