import MasterSchema.Number.Digits

/-!
# Identifier domains

A domain is a named closed range of identifier values. The id registry keeps the domains in file
order, none of them inverted and no name twice (`make`). A value belongs to the first domain that
contains it.

A query text of digits is a value if it fits into 64 signed bits; any other text is a name.
-/

namespace MasterSchema

structure IdDomain where
  name : String
  first : Int
  last : Int
  deriving DecidableEq, Repr

namespace IdDomain

def contains (domain : IdDomain) (value : Int) : Bool :=
  decide (domain.first ≤ value) && decide (value ≤ domain.last)

end IdDomain

/-- Why domains do not make an id registry. -/
inductive IdRegistryError where
  | invertedRange (name : String) (first last : Int)
  | duplicateName (name : String)
  deriving DecidableEq, Repr

def IdRegistryError.message : IdRegistryError → String
  | .invertedRange name first last =>
      "id domain '" ++ name ++ "' has begin " ++ toString first ++ " after end " ++ toString last
  | .duplicateName name => "id domain '" ++ name ++ "' declared twice"

/-- The domains in file order. -/
structure IdRegistry where
  domains : List IdDomain := []
  deriving DecidableEq, Repr

namespace IdRegistry

/-- Checks domains in order against the names before them; an inverted range is reported before a
    repeated name. -/
def check (seen : List String) : List IdDomain → Except IdRegistryError Unit
  | [] => .ok ()
  | domain :: rest =>
    if domain.last < domain.first then
      .error (.invertedRange domain.name domain.first domain.last)
    else if seen.contains domain.name then .error (.duplicateName domain.name)
    else check (domain.name :: seen) rest

/-- The registry of domains that pass the check. -/
def make (domains : List IdDomain) : Except IdRegistryError IdRegistry :=
  match check [] domains with
  | .error e => .error e
  | .ok () => .ok ⟨domains⟩

/-- The first domain that contains a value. -/
def findByValue (ids : IdRegistry) (value : Int) : Option IdDomain :=
  ids.domains.find? fun domain => domain.contains value

def findByName (ids : IdRegistry) (name : String) : Option IdDomain :=
  ids.domains.find? fun domain => domain.name == name

end IdRegistry

/-! ## Queries -/

/-- What is asked of an id registry. -/
inductive IdQuery where
  | value (v : Int)
  | name (s : String)
  deriving DecidableEq, Repr

/-- What is answered: the line, and whether there was a domain. -/
structure IdAnswer where
  line : String
  found : Bool
  deriving DecidableEq, Repr

namespace IdQuery

/-- What a text asks for. -/
def ofText (text : String) : IdQuery :=
  let digits := text.toList
  let value : Int := Digits.number 10 digits
  if !digits.isEmpty && digits.all Char.isDigit && decide (value ≤ Digits.maxInteger) then
    .value value
  else .name text

def answer (ids : IdRegistry) : IdQuery → IdAnswer
  | .value v =>
    match ids.findByValue v with
    | some domain => ⟨toString v ++ " is within " ++ domain.name, true⟩
    | none => ⟨"Not found: " ++ toString v, false⟩
  | .name s =>
    match ids.findByName s with
    | some domain =>
      ⟨domain.name ++ "ID exists (range: " ++ toString domain.first ++ "-" ++ toString domain.last
        ++ ")", true⟩
    | none => ⟨"Not found: " ++ s, false⟩

end IdQuery

end MasterSchema
