/-!
# Names that may stand in generated code

A generated name must be an identifier of C++ (`isIdentifier`) and none of its keywords and
alternative operator tokens (`isReserved`).
-/

namespace MasterSchema

/-- The first character of an identifier: an ASCII letter or an underscore. -/
def isIdentifierStart (c : Char) : Bool :=
  c.isAlpha || c == '_'

/-- A later character of an identifier: an ASCII letter, a digit or an underscore. -/
def isIdentifierPart (c : Char) : Bool :=
  c.isAlphanum || c == '_'

/-- Whether a name has the shape `[A-Za-z_][A-Za-z0-9_]*`. -/
def isIdentifier (name : String) : Bool :=
  match name.toList with
  | [] => false
  | c :: rest => isIdentifierStart c && rest.all isIdentifierPart

/-- The keywords and alternative operator tokens of C++. -/
def reservedWords : List String :=
  ["alignas", "alignof", "and", "and_eq", "asm", "auto", "bitand", "bitor", "bool", "break",
   "case", "catch", "char", "char8_t", "char16_t", "char32_t", "class", "compl", "concept",
   "const", "consteval", "constexpr", "constinit", "const_cast", "continue", "co_await",
   "co_return", "co_yield", "decltype", "default", "delete", "do", "double", "dynamic_cast",
   "else", "enum", "explicit", "export", "extern", "false", "float", "for", "friend", "goto",
   "if", "inline", "int", "long", "mutable", "namespace", "new", "noexcept", "not", "not_eq",
   "nullptr", "operator", "or", "or_eq", "private", "protected", "public", "register",
   "reinterpret_cast", "requires", "return", "short", "signed", "sizeof", "static",
   "static_assert", "static_cast", "struct", "switch", "template", "this", "thread_local",
   "throw", "true", "try", "typedef", "typeid", "typename", "union", "unsigned", "using",
   "virtual", "void", "volatile", "wchar_t", "while", "xor", "xor_eq"]

def isReserved (name : String) : Bool :=
  reservedWords.contains name

/-- Why a name may not stand in generated code. -/
inductive NameFault where
  | notIdentifier
  | reserved
  deriving DecidableEq, Repr

/-- What is wrong with a name, if anything; the shape is judged before the reserved words. -/
def nameFault? (name : String) : Option NameFault :=
  if !isIdentifier name then some .notIdentifier
  else if isReserved name then some .reserved
  else none

end MasterSchema
