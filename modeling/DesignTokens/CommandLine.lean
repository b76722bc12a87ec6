import DesignTokens.Digest
import DesignTokens.Path

/-!
# Reading command lines

A command line is options for every command, the name of a command, and options and names for that
command. An option has a long name after two hyphens, and perhaps a letter after one; its value
follows it or is joined by an equals sign. After a lone pair of hyphens everything is a name. Each
option stands at most once before and once after the name of the command, and what stands after it
counts more. Arguments are judged in their order, so that a request for the version is heard only if
nothing before it is wrong.

Arguments and environment variables are texts. So the paths given here are UTF-8, though those that
are discovered below them may not be.
-/

set_option autoImplicit false

namespace DesignTokens

/-- The options that say which documents are compiled. -/
structure SourceOptions where
  input : Option Path
  permissive : Bool
deriving DecidableEq, Repr

/-- A command. -/
inductive Command where
  /-- Compiles the documents and writes the stylesheet. -/
  | build (source : SourceOptions) (output : Option Path) (json : Bool)
  /-- Tells whether the stylesheet is what the documents compile to. -/
  | check (source : SourceOptions) (output : Option Path) (digest : Option Digest)
  /-- Lists the final tokens. -/
  | list (source : SourceOptions) (json : Bool)
  /-- Shows the final spelling of names. -/
  | name (raw : List String)
deriving DecidableEq, Repr

/-- A command with the settings file that is named. -/
structure Invocation where
  config : Option Path
  command : Command
deriving DecidableEq, Repr

/-- Why a command line names no command to run. -/
inductive Stop where
  | usageError
  | version
  | help
deriving DecidableEq, Repr

/-- The environment variables that a command line looks at. -/
structure Environment where
  input : Option String
  output : Option String
deriving DecidableEq, Repr

namespace CommandLine

/-- What is shown for the version. -/
def versionText : String := "tokensmith 0.1.0"

/-- What is shown for the use of the program. -/
def usage : String := "Usage: tokensmith [OPTIONS] <build|check|list|name>"

/-! ## Options -/

/-- What an option does. -/
inductive OptionKind where
  /-- It stands alone, once. -/
  | flag
  /-- It stands alone, any number of times. -/
  | repeatableFlag
  /-- It takes a path. -/
  | path
  /-- It takes a digest. -/
  | digest
  /-- It ends the reading at once. -/
  | stop (reason : Stop)
deriving DecidableEq, Repr

/-- Whether an option takes a value. -/
def OptionKind.takesValue : OptionKind → Bool
  | .path => true
  | .digest => true
  | _ => false

/-- Whether a text can be the value of an option. A path must not be empty. -/
def OptionKind.admits : OptionKind → String → Bool
  | .path, text => text != ""
  | .digest, text => (Digest.parse text).isOk
  | _, _ => false

/-- An option. -/
structure OptionSpec where
  name : String
  letter : Option Char
  kind : OptionKind
deriving DecidableEq, Repr

/-- What may stand at one place of a command line: options, names of commands, and other names. -/
structure Level where
  options : List OptionSpec
  commands : List String
  takesNames : Bool

/-- The options of every command. -/
def globalOptions : List OptionSpec :=
  [⟨"config", none, .path⟩, ⟨"verbose", some 'v', .repeatableFlag⟩, ⟨"quiet", some 'q', .flag⟩,
    ⟨"help", some 'h', .stop .help⟩]

/-- What stands before the name of a command. -/
def rootLevel : Level where
  options := ⟨"version", some 'V', .stop .version⟩ :: globalOptions
  commands := ["build", "check", "list", "name", "help"]
  takesNames := false

/-- The options that say which documents are compiled. -/
def sourceOptions : List OptionSpec := [⟨"input", none, .path⟩, ⟨"permissive", none, .flag⟩]

/-- What stands after the name of a command. -/
def commandLevel (command : String) : Level where
  options := globalOptions ++
    match command with
    | "build" => sourceOptions ++ [⟨"output", none, .path⟩, ⟨"json", none, .flag⟩]
    | "check" => sourceOptions ++ [⟨"output", none, .path⟩, ⟨"digest", none, .digest⟩]
    | "list" => sourceOptions ++ [⟨"json", none, .flag⟩]
    | _ => []
  commands := []
  takesNames := command == "name"

/-! ## Reading one level -/

/-- What has been read at one level. -/
structure Given where
  values : List (String × String)
  flags : List String
  names : List String

/-- Nothing read yet. -/
def Given.none : Given := ⟨[], [], []⟩

/-- Whether an option has been given. -/
def Given.has (given : Given) (option : String) : Bool := given.flags.contains option

/-- The value of an option. -/
def Given.value? (given : Given) (option : String) : Option String :=
  (given.values.find? fun value => value.1 == option).map Prod.snd

/-- Adds an option that stands alone. -/
def Given.addFlag (given : Given) (option : OptionSpec) : Except Stop Given :=
  match option.kind with
  | .flag =>
      if given.has option.name then .error .usageError
      else .ok { given with flags := option.name :: given.flags }
  | .repeatableFlag => .ok { given with flags := option.name :: given.flags }
  | .stop reason => .error reason
  | .path => .error .usageError
  | .digest => .error .usageError

/-- Adds an option with its value, which has to be admitted. -/
def Given.addValue (given : Given) (option : OptionSpec) (value : String) : Except Stop Given :=
  if (given.value? option.name).isSome || !option.kind.admits value then .error .usageError
  else .ok { given with values := (option.name, value) :: given.values }

/-- The shapes of an argument. -/
inductive Shape where
  /-- A pair of hyphens. -/
  | escape
  | long (name : String) (value : Option String)
  | letters (letters : List Char)
  | plain

/-- The shape of an argument. A lone hyphen is plain. -/
def shape (argument : String) : Shape :=
  match argument.toList with
  | ['-', '-'] => .escape
  | '-' :: '-' :: rest =>
      match rest.span (· != '=') with
      | (name, _ :: value) => .long (String.ofList name) (some (String.ofList value))
      | (name, []) => .long (String.ofList name) Option.none
  | '-' :: c :: rest => .letters (c :: rest)
  | _ => .plain

/-- Whether an argument can be the value of the option before it. -/
def isValue (argument : String) : Bool :=
  match shape argument with
  | .plain => true
  | _ => false

/-- The option with a long name. -/
def Level.named? (level : Level) (name : String) : Option OptionSpec :=
  level.options.find? fun option => option.name == name

/-- The option with a letter. -/
def Level.lettered? (level : Level) (letter : Char) : Option OptionSpec :=
  level.options.find? fun option => option.letter == some letter

/-- Adds the option of a letter. -/
def addLetter (level : Level) (given : Given) (letter : Char) : Except Stop Given :=
  match level.lettered? letter with
  | some option => given.addFlag option
  | Option.none => .error .usageError

/-- Adds everything after a pair of hyphens. -/
def addTrailing (level : Level) (given : Given) (names : List String) : Except Stop Given :=
  if level.takesNames || names.isEmpty then .ok { given with names := given.names ++ names }
  else .error .usageError

/-- The name of a command, with the arguments after it. -/
abbrev Choice := String × List String

/-- Reads the arguments of a level, up to the name of a command. -/
def readLevel (level : Level) (given : Given) : List String → Except Stop (Given × Option Choice)
  | [] => .ok (given, Option.none)
  | argument :: rest =>
      match shape argument with
      | .escape => (addTrailing level given rest).map fun all => (all, Option.none)
      | .letters letters => do readLevel level (← letters.foldlM (addLetter level) given) rest
      | .plain =>
          -- The first name that is no option value chooses the command.
          if level.commands.contains argument then .ok (given, some (argument, rest))
          else if level.takesNames then
            readLevel level { given with names := given.names ++ [argument] } rest
          else .error .usageError
      | .long name attached =>
          match level.named? name with
          | Option.none => .error .usageError
          | some option =>
              if option.kind.takesValue then
                match attached with
                | some value => do readLevel level (← given.addValue option value) rest
                | Option.none =>
                    match rest with
                    | value :: others =>
                        -- What has the shape of an option is not taken for a value.
                        if isValue value then do
                          readLevel level (← given.addValue option value) others
                        else .error .usageError
                    | [] => .error .usageError
              else if attached.isSome then .error .usageError
              else do readLevel level (← given.addFlag option) rest

/-! ## Commands -/

/-- The path that an option gives. -/
def pathOption (given : Given) (option : String) : Option Path :=
  (given.value? option).map Path.ofText

/-- The path that an option gives, or else a variable of the environment. The variable counts only
where the option is not given. -/
def pathOr (given : Given) (option : String) (fallback : Option String) :
    Except Stop (Option Path) :=
  match pathOption given option, fallback with
  | some path, _ => .ok (some path)
  | Option.none, some text =>
      if OptionKind.path.admits text then .ok (some (.ofText text)) else .error .usageError
  | Option.none, Option.none => .ok Option.none

/-- The digest that an option gives. -/
def digestOption (given : Given) : Option Digest :=
  (given.value? "digest").bind fun text => (Digest.parse text).toOption

/-- The options that say which documents are compiled. -/
def source (environment : Environment) (given : Given) : Except Stop SourceOptions := do
  return ⟨← pathOr given "input" environment.input, given.has "permissive"⟩

/-- The command of a name with what has been read after it. -/
def command (environment : Environment) (name : String) (given : Given) :
    Except Stop Command := do
  match name with
  | "build" =>
      return .build (← source environment given)
        (← pathOr given "output" environment.output) (given.has "json")
  | "check" =>
      return .check (← source environment given)
        (← pathOr given "output" environment.output) (digestOption given)
  | "list" => return .list (← source environment given) (given.has "json")
  | "name" => if given.names.isEmpty then throw .usageError else return .name given.names
  | _ => throw .help

/-- Refuses options that exclude each other at one level. -/
def checkVerbosity (given : Given) : Except Stop Unit :=
  if given.has "verbose" && given.has "quiet" then .error .usageError else .ok ()

/-- Reads a command line. -/
def read (environment : Environment) (arguments : List String) : Except Stop Invocation := do
  let (general, choice) ← readLevel rootLevel .none arguments
  match choice with
  | Option.none => throw .usageError
  | some (name, rest) =>
      let (given, _) ← readLevel (commandLevel name) .none rest
      checkVerbosity general
      checkVerbosity given
      let config := (pathOption given "config").or (pathOption general "config")
      return ⟨config, ← command environment name given⟩

end CommandLine

end DesignTokens
