/-!
# Texts

What the library does with texts whatever they are of.

* Blanks are cut off at both ends (`trimmed`).
* Names are ordered by their characters, which for well-formed text is the order of the bytes of
  their UTF-8 form. Lists of names are ordered name by name, a proper start of a list before the
  list itself (`namesLe`). Sets of names are kept as sorted lists without repetition (`nameSet`).
* `joined` puts a separator between the members of a list, `ofLines` ends every line with a line
  feed, and `withSeparators` spreads a list over lines, all but the last followed by a separator.
* `quotedList` is how a message lists names. The names it is used for are identifiers, so no
  character in them needs an escape.
-/

namespace MasterSchema.Text

/-! ## 1. Blanks -/

/-- The code points to which Unicode gives the property `White_Space`, as closed ranges. -/
def blankRanges : List (Nat × Nat) :=
  [(0x09, 0x0D), (0x20, 0x20), (0x85, 0x85), (0xA0, 0xA0), (0x1680, 0x1680), (0x2000, 0x200A),
   (0x2028, 0x2029), (0x202F, 0x202F), (0x205F, 0x205F), (0x3000, 0x3000)]

def isBlank (c : Char) : Bool :=
  blankRanges.any fun range => range.1 ≤ c.toNat && c.toNat ≤ range.2

/-- The characters without the blanks at both ends. -/
def trimmed (cs : List Char) : List Char :=
  ((cs.dropWhile isBlank).reverse.dropWhile isBlank).reverse

/-! ## 2. The order of names -/

/-- Lists of names, ordered name by name. -/
def namesLe : List String → List String → Bool
  | [], _ => true
  | _ :: _, [] => false
  | a :: as, b :: bs => decide (a < b) || (decide (a = b) && namesLe as bs)

/-- The names of a list, each once, in increasing order. -/
def nameSet (names : List String) : List String :=
  names.eraseDups.mergeSort fun a b => decide (a ≤ b)

/-! ## 3. Lists and lines -/

/-- The members of a list in order, with a separator between neighbours. -/
def joined (separator : String) : List String → String
  | [] => ""
  | [s] => s
  | s :: rest => s ++ separator ++ joined separator rest

theorem joined_eq_intercalate (separator : String) : ∀ members : List String,
    joined separator members = separator.intercalate members
  | [] => String.intercalate_nil.symm
  | [_] => String.intercalate_singleton.symm
  | s :: t :: rest => by
      rw [joined, joined_eq_intercalate separator (t :: rest), String.intercalate_cons_cons]
      exact List.cons_ne_nil t rest

/-- The text of a list of lines, each ended by a line feed. -/
def ofLines : List String → String
  | [] => ""
  | line :: rest => line ++ "\n" ++ ofLines rest

/-- The members of a list on lines of their own: all but the last are followed by `separator`, the
    last one by `closing`. Without members there is one line, the closing. -/
def withSeparators (separator closing : String) : List String → List String
  | [] => [closing]
  | [s] => [s ++ closing]
  | s :: rest => (s ++ separator) :: withSeparators separator closing rest

/-- Names in double quotes, between square brackets. -/
def quotedList (names : List String) : String :=
  "[" ++ joined ", " (names.map fun name => "\"" ++ name ++ "\"") ++ "]"

end MasterSchema.Text
