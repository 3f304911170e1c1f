import MasterSchema.Number.Digits

/-!
# Readers

A reader takes something off the front of a text, or fails; where it fails nothing is taken. The
formats are put together from the readers of this module.

* `many` repeats a reader as long as it succeeds. As long as it takes something each time, the
  length of the text bounds the repetitions;
* `separated` reads items with a separator between them;
* `hexNumber` and `hexChar` read the escapes with hexadecimal digits that the formats share;
* `whole` demands that the reader takes all of the text.
-/

namespace MasterSchema

/-- Takes something off the front of a list of characters. -/
abbrev Reader (α : Type) := StateT (List Char) Option α

namespace Reader

variable {α : Type}

/-! ## 1. Characters -/

/-- The next character, which is not taken. -/
def peek : Reader (Option Char) := fun cs => some (cs.head?, cs)

/-- A character of a class. -/
def satisfying (p : Char → Bool) : Reader Char
  | c :: rest => if p c then some (c, rest) else none
  | [] => none

def any : Reader Char := satisfying fun _ => true

def char (c : Char) : Reader Unit := do
  let _ ← satisfying (· == c)

/-- A given text. -/
def word (s : String) : Reader Unit := fun cs =>
  if s.toList.isPrefixOf cs then some ((), cs.drop s.toList.length) else none

/-- All characters of a class up to the first other one. -/
def run (p : Char → Bool) : Reader (List Char) := fun cs =>
  some (cs.takeWhile p, cs.dropWhile p)

/-- At least one character of a class, up to the first other one. -/
def run1 (p : Char → Bool) : Reader (List Char) := do
  let c ← satisfying p
  let rest ← run p
  pure (c :: rest)

/-- Exactly `n` characters of a class. -/
def exactly (n : Nat) (p : Char → Bool) : Reader (List Char) := fun cs =>
  let taken := cs.take n
  if taken.length == n && taken.all p then some (taken, cs.drop n) else none

/-- The end of the text. -/
def finish : Reader Unit
  | [] => some ((), [])
  | _ :: _ => none

/-- The text ends here or goes on with a character outside a class. -/
def notBefore (p : Char → Bool) : Reader Unit
  | [] => some ((), [])
  | c :: rest => if p c then none else some ((), c :: rest)

/-! ## 2. Repetition -/

/-- As many items as there are, but no more than `bound` has members. -/
def upTo (item : Reader α) : (bound : List Char) → Reader (List α)
  | [], cs => some ([], cs)
  | _ :: bound, cs =>
    match item cs with
    | none => some ([], cs)
    | some (first, left) =>
      match upTo item bound left with
      | none => none
      | some (rest, left) => some (first :: rest, left)

/-- As many items as there are. -/
def many (item : Reader α) : Reader (List α) := fun cs => upTo item cs cs

/-- Items with a separator between them, at least one. -/
def separated1 (item : Reader α) (separator : Reader Unit) : Reader (List α) := do
  let first ← item
  let rest ← many (do separator; item)
  pure (first :: rest)

/-- Items with a separator between them. -/
def separated (item : Reader α) (separator : Reader Unit) : Reader (List α) :=
  separated1 item separator <|> pure []

/-- Whether a reader succeeds; it takes what it takes. -/
def accepts (reader : Reader Unit) : Reader Bool :=
  (do reader; pure true) <|> pure false

/-- A part that a mark announces: behind the mark it must be there. -/
def announced (mark : Char → Bool) (part : Reader α) : Reader (Option α) := do
  match (← peek).map mark with
  | some true => let a ← part; pure (some a)
  | _ => pure none

/-! ## 3. Escapes -/

/-- The number that exactly `n` hexadecimal digits write. -/
def hexNumber (n : Nat) : Reader Nat := do
  let digits ← exactly n (Digits.isDigitOf 16)
  pure (Digits.number 16 digits)

/-- The character whose code point is written in exactly `n` hexadecimal digits. -/
def hexChar (n : Nat) : Reader Char := do
  let codePoint ← hexNumber n
  StateT.lift (Digits.char? codePoint)

/-! ## 4. Whole texts -/

/-- What a reader makes of characters, all of which it must take. -/
def complete (reader : Reader α) (cs : List Char) : Option α :=
  match reader cs with
  | some (a, []) => some a
  | _ => none

/-- What a reader makes of a text, all of which it must take. -/
def whole (reader : Reader α) (text : String) : Option α :=
  complete reader text.toList

end Reader

end MasterSchema
