import MasterSchema.Path.Basic

/-!
# Command lines

A command line names a command, and options before or behind that name. The options before it and
those behind it are two levels: each must be right on its own, and where both give a value the one
behind the command's name counts.

Everything is read from left to right; the first thing that is wrong ends the reading.
-/

namespace MasterSchema.CommandLine

/-! ## 1. What is asked for -/

/-- The configuration file of a command line that names none. -/
def defaultConfig : Path := ⟨"mdgen.toml"⟩

inductive Command where
  | generate
  | validate
  | id (query : String)
  deriving DecidableEq, Repr

/-- A command line that was understood. -/
structure Invocation where
  config : Path := defaultConfig
  verbose : Nat := 0
  quiet : Bool := false
  command : Command
  deriving DecidableEq, Repr

/-- Why a command line asks for no command. -/
inductive Refusal where
  /-- It asks for help. -/
  | help
  /-- It cannot be understood. -/
  | usage
  deriving DecidableEq, Repr

/-! ## 2. Options -/

/-- The options of one level. -/
structure Options where
  config : Option String := none
  verbose : Nat := 0
  quiet : Bool := false
  deriving DecidableEq, Repr

inductive Flag where
  | verbose
  | quiet
  | help
  deriving DecidableEq, Repr

/-- What an argument is by its form. -/
inductive Argument where
  | flags (fs : List (Option Flag))
  /-- The option that takes a value, and the value if it is attached. -/
  | config (attached : Option String)
  /-- Two dashes: what follows is no option. -/
  | separator
  /-- No option. -/
  | plain
  /-- An option that there is not. -/
  | unknown
  deriving DecidableEq, Repr

def shortFlag? (c : Char) : Option Flag :=
  if c == 'v' then some .verbose
  else if c == 'q' then some .quiet
  else if c == 'h' then some .help
  else none

/-- A long option: its name, and what an equals sign attaches to it. -/
def longOption (name : List Char) (attached : Option (List Char)) : Argument :=
  if name == "config".toList then .config (attached.map String.ofList)
  else if attached.isSome then .unknown
  else if name == "verbose".toList then .flags [some .verbose]
  else if name == "quiet".toList then .flags [some .quiet]
  else if name == "help".toList then .flags [some .help]
  else .unknown

/-- The characters before the first equals sign, and those behind it if there is one. -/
def cutAtEquals (cs : List Char) : List Char × Option (List Char) :=
  match cs.dropWhile (· != '=') with
  | [] => (cs, none)
  | _ :: value => (cs.takeWhile (· != '='), some value)

def Argument.ofText (text : String) : Argument :=
  match text.toList with
  | ['-', '-'] => .separator
  | '-' :: '-' :: cs => longOption (cutAtEquals cs).1 (cutAtEquals cs).2
  | '-' :: c :: cs => .flags ((c :: cs).map shortFlag?)
  | _ => .plain

/-- One flag; the quiet flag may not be repeated. -/
def Options.setFlag (options : Options) : Option Flag → Except Refusal Options
  | none => .error .usage
  | some .help => .error .help
  | some .verbose => .ok { options with verbose := options.verbose + 1 }
  | some .quiet => if options.quiet then .error .usage else .ok { options with quiet := true }

/-- The configuration's path; it is not empty and not given twice. -/
def Options.setConfig (options : Options) (value : String) : Except Refusal Options :=
  if options.config.isSome || value == "" then .error .usage
  else .ok { options with config := some value }

/-- Reads the options in front of the first argument that is none, and gives the arguments from
    that one on. -/
def readOptions (options : Options) : List String → Except Refusal (Options × List String)
  | [] => .ok (options, [])
  | arg :: rest =>
    match Argument.ofText arg with
    | .separator | .plain => .ok (options, arg :: rest)
    | .unknown => .error .usage
    | .flags fs =>
      match fs.foldlM Options.setFlag options with
      | .error e => .error e
      | .ok options => readOptions options rest
    | .config (some value) =>
      match options.setConfig value with
      | .error e => .error e
      | .ok options => readOptions options rest
    | .config none =>
      match rest with
      | [] => .error .usage
      | value :: rest =>
        if Argument.ofText value = .plain then
          match options.setConfig value with
          | .error e => .error e
          | .ok options => readOptions options rest
        else .error .usage

/-- The quiet and the verbose flag exclude one another. -/
def Options.check (options : Options) : Except Refusal Unit :=
  if options.quiet && decide (0 < options.verbose) then .error .usage else .ok ()

/-! ## 3. Commands -/

/-- Accepts arguments that are all options, two dashes at the end included. -/
def readEnd (options : Options) (args : List String) : Except Refusal Options :=
  match readOptions options args with
  | .error e => .error e
  | .ok (options, []) => .ok options
  | .ok (options, ["--"]) => .ok options
  | .ok _ => .error .usage

/-- The arguments of a command that takes none. -/
def readPlain (command : Command) (args : List String) : Except Refusal (Options × Command) :=
  match readEnd {} args with
  | .error e => .error e
  | .ok options => .ok (options, command)

/-- The arguments of the command that takes a query. -/
def readQuery (args : List String) : Except Refusal (Options × Command) :=
  match readOptions {} args with
  | .error e => .error e
  | .ok (options, ["--", query]) => .ok (options, .id query)
  | .ok (_, "--" :: _) => .error .usage
  | .ok (_, []) => .error .usage
  | .ok (options, query :: rest) =>
    match readEnd options rest with
    | .error e => .error e
    | .ok options => .ok (options, .id query)

/-- The names of the commands. -/
def commandNames : List String := ["generate", "validate", "id", "help"]

/-- What follows the name of the help command. -/
def readHelp : List String → Refusal
  | [] => .help
  | [name] => if commandNames.contains name then .help else .usage
  | _ => .usage

/-- A command's name and its arguments. -/
def readCommand : List String → Except Refusal (Options × Command)
  | "generate" :: args => readPlain .generate args
  | "validate" :: args => readPlain .validate args
  | "id" :: args => readQuery args
  | "help" :: args => .error (readHelp args)
  | _ => .error .usage

/-- The options of both levels together. -/
def combine (outer inner : Options) (command : Command) : Invocation where
  config :=
    match inner.config.or outer.config with
    | some text => ⟨text⟩
    | none => defaultConfig
  verbose := if 0 < inner.verbose then inner.verbose else outer.verbose
  quiet := inner.quiet || outer.quiet
  command := command

/-- Reads a command line. What is behind the command's name is judged before the flags in front of
    it are compared with one another. -/
def read (args : List String) : Except Refusal Invocation := do
  let (outer, rest) ← readOptions {} args
  let (inner, command) ← readCommand rest
  inner.check
  outer.check
  pure (combine outer inner command)

end MasterSchema.CommandLine
