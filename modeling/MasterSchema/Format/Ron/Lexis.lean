import MasterSchema.Format.Reader
import MasterSchema.Number.Binary64

/-!
# Blanks, names, texts and numbers of RON

The readers of what holds no other values. A number is an integer if its digits are digits of its
base and fit; otherwise it is read once more as a float.
-/

namespace MasterSchema.Ron

/-- A number as read. -/
inductive Number where
  | integer (n : Int)
  | float (bits : UInt64)
  deriving DecidableEq, Repr

namespace Grammar

open Reader

/-! ## 1. Blanks and comments -/

def isBlank (c : Char) : Bool := c == ' ' || c == '\n' || c == '\t' || c == '\r'

def lineComment : Reader Unit := do
  word "//"
  let _ ← run (· != '\n')

/-- What is left behind a block comment, `level` comments being open. -/
def closeComment : (level : Nat) → List Char → Option (List Char)
  | 0, cs => some cs
  | level + 1, '*' :: '/' :: rest => closeComment level rest
  | level + 1, '/' :: '*' :: rest => closeComment (level + 2) rest
  | level + 1, _ :: rest => closeComment (level + 1) rest
  | _ + 1, [] => none

def blockComment : Reader Unit := do
  word "/*"
  fun cs => (closeComment 1 cs).map fun rest => ((), rest)

/-- Blanks and comments. -/
def gap : Reader Unit := do
  let _ ← many ((do let _ ← run1 isBlank) <|> lineComment <|> blockComment)

/-! ## 2. Names -/

def isNameStart (c : Char) : Bool := c.isAlpha || c == '_'

def isNamePart (c : Char) : Bool := c.isAlphanum || c == '_'

/-- What a name written with `r#` in front may hold. -/
def isRawNamePart (c : Char) : Bool := isNamePart c || c == '.' || c == '+' || c == '-'

/-- A name; what starts a raw text is none. -/
def name : Reader String
  | 'r' :: '"' :: _ => none
  | 'r' :: '#' :: rest => do
    let (cs, left) ← run1 isRawNamePart rest
    some (String.ofList cs, left)
  | c :: rest =>
    if isNameStart c then
      some (String.ofList (c :: rest.takeWhile isNamePart), rest.dropWhile isNamePart)
    else none
  | [] => none

/-- A given word that no name goes on from. -/
def keyword (s : String) : Reader Unit := do
  word s
  notBefore isNamePart

/-! ## 3. Texts -/

/-- Up to six hexadecimal digits between braces. -/
def bracedChar : Reader Char := do
  char '\x7b'
  let digits ← run1 (Digits.isDigitOf 16)
  char '\x7d'
  if digits.length ≤ 6 then StateT.lift (Digits.char? (Digits.number 16 digits)) else failure

def escape : Reader Char := do
  char '\\'
  match ← any with
  | '\'' => pure '\''
  | '"' => pure '"'
  | '\\' => pure '\\'
  | 'n' => pure '\n'
  | 'r' => pure '\r'
  | 't' => pure '\t'
  | '0' => pure '\x00'
  | 'x' => hexChar 2
  | 'u' => bracedChar
  | _ => failure

def quotedText : Reader String := do
  char '"'
  let pieces ← many
    ((run1 fun c => c != '"' && c != '\\') <|> (do let c ← escape; pure [c]))
  char '"'
  pure (String.ofList pieces.flatten)

/-- The characters up to an ending, and what is left behind it. -/
def upToEnding (ending : List Char) : List Char → Option (List Char × List Char)
  | [] => none
  | c :: rest =>
    if ending.isPrefixOf (c :: rest) then some ([], (c :: rest).drop ending.length)
    else (upToEnding ending rest).map fun (taken, left) => (c :: taken, left)

/-- A text without escapes, between quotes with as many `#` on both sides. -/
def rawText : Reader String := do
  char 'r'
  let hashes ← run (· == '#')
  char '"'
  let cs ← (fun cs => upToEnding ('"' :: hashes) cs : Reader (List Char))
  pure (String.ofList cs)

def text : Reader String := quotedText <|> rawText

/-- A single character between single quotes. -/
def character : Reader Char := do
  char '\''
  let c ← escape <|> satisfying fun c => c != '\'' && c != '\\'
  char '\''
  pure c

/-! ## 4. Numbers -/

def isFloatChar (c : Char) : Bool :=
  c.isDigit || c == '.' || c == 'e' || c == 'E' || c == '+' || c == '-' || c == '_'

def isIntegerChar (c : Char) : Bool :=
  Digits.isDigitOf 16 c || c == '_'

/-- Digits that may follow the base's mark, without underscores. -/
def digitsOf (base : Nat) : Reader Nat := do
  notBefore (· == '_')
  let digits := (← run1 isIntegerChar).filter (· != '_')
  if digits.all (Digits.isDigitOf base) then pure (Digits.number base digits) else failure

def unsigned : Reader Nat :=
  (do word "0x"; digitsOf 16)
  <|> (do word "0o"; digitsOf 8)
  <|> (do word "0b"; digitsOf 2)
  <|> (do notBefore (· == '_'); digitsOf 10)

/-- A sign; whether it is a minus. -/
def sign : Reader Bool :=
  (do char '-'; pure true) <|> (do let _ ← accepts (char '+'); pure false)

/-- An integer; with a sign it has 64 bits including the sign, without one 64 bits. -/
def integer : Reader Int := do
  let isSigned := (← peek).any fun c => c == '+' || c == '-'
  let negative ← sign
  let n ← unsigned
  let greatest : Int := if isSigned then Digits.maxInteger else Digits.maxUnsigned
  let value : Int := if negative then -n else n
  if Digits.minInteger ≤ value ∧ value ≤ greatest then pure value else failure

/-- A decimal number with digits before or behind the point, and perhaps an exponent. -/
def decimal : Reader UInt64 := do
  let negative ← sign
  let whole ← run Char.isDigit
  let fraction := (← announced (· == '.') (do char '.'; run Char.isDigit)).getD []
  if whole.isEmpty && fraction.isEmpty then failure
  let power ← announced (fun c => c == 'e' || c == 'E') (do
    let _ ← any
    let down ← sign
    let digits ← run1 Char.isDigit
    let n : Int := Digits.number 10 digits
    pure (if down then -n else n))
  let magnitude :=
    Binary64.ofDecimal (Digits.number 10 (whole ++ fraction)) (power.getD 0 - fraction.length)
  pure (Binary64.signed negative magnitude)

/-- Infinity and what is no number, as words. -/
def specialFloat : Reader UInt64 := do
  let negative ← sign
  (do keyword "inf"; pure (Binary64.signed negative Binary64.infinity))
    <|> (do keyword "NaN"; pure Binary64.notANumber)

/-- A float: all characters that may belong to one must. -/
def float : Reader UInt64 :=
  specialFloat <|> (do
    let cs ← run1 isFloatChar
    StateT.lift (complete decimal cs))

/-- Whether what follows a sign goes on longer as a float than as an integer. -/
def looksLikeFloat (cs : List Char) : Bool :=
  (cs.takeWhile isIntegerChar).length < (cs.takeWhile isFloatChar).length

def number : Reader Number := fun cs =>
  let unsignedPart := if cs.head?.any fun c => c == '+' || c == '-' then cs.tail else cs
  let asFloat := do
    let bits ← float
    pure (Number.float bits)
  let asInteger := do
    let n ← integer
    pure (Number.integer n)
  if looksLikeFloat unsignedPart then asFloat cs else (asInteger <|> asFloat) cs

end Grammar

end MasterSchema.Ron
