import DesignTokens.Artifact
import DesignTokens.CommandLine
import DesignTokens.Listing
import DesignTokens.Report.Encoding
import DesignTokens.Report.Summary
import DesignTokens.Settings

/-!
# Running commands

What a command does to a file tree, and what it shows. Only `build` changes the tree.
-/

set_option autoImplicit false

namespace DesignTokens

/-- What a command shows: the lines it prints, and the error it ends with. -/
structure Response where
  lines : List String
  error : Option String
deriving DecidableEq, Repr

namespace Response

/-- A command that prints lines and succeeds. -/
def printed (lines : List String) : Response := ⟨lines, none⟩

/-- A command that fails. -/
def failed (message : String) : Response := ⟨[], some message⟩

/-- Whether a command succeeds. -/
def succeeds (response : Response) : Bool := response.error.isNone

/-- The exit code of a command. -/
def exitCode (response : Response) : Nat := if response.succeeds then 0 else 1

/-- The printed text: every line ends in a line feed. -/
def output (response : Response) : String := Stylesheet.joinLines response.lines

end Response

namespace Command

/-! ## The commands with settings -/

/-- Compiles the documents and writes the stylesheet. -/
def runBuild (settings : Settings) (json : Bool) (tree : FileTree) : FileTree × Response :=
  let compiled := compileDirectory settings.options tree settings.input
  match Artifact.write .standard tree settings.output compiled.css with
  | (changed, .ok ()) =>
      (changed, .printed
        [if json then compiled.report.toJson.pretty
          else compiled.report.summary settings.output.text])
  | (changed, .error e) =>
      (changed, .failed ("Failed to write " ++ settings.output.text ++ ": " ++ e.message))

/-- The digest that was expected of a stylesheet but is not its digest, with the digest it has. -/
def digestMismatch? (expected : Option Digest) (actual : Option Digest) :
    Option (Digest × Digest) :=
  match expected, actual with
  | some e, some a => if e = a then none else some (e, a)
  | _, _ => none

/-- What is shown after comparing the stylesheet that is there with the one that should be. -/
def compare (path : Path) (compiled : Compiled) :
    Except StorageError (Option String) → Response
  | .error e => .failed e.message
  | .ok none => .failed (path.text ++ " is missing; run `tokensmith build`")
  | .ok (some existing) =>
      if existing = compiled.css then
        .printed [path.text ++ " is up to date (" ++ toString compiled.tokens.size ++ " variables)"]
      else .failed (path.text ++ " is out of date; run `tokensmith build`")

/-- Tells whether the stylesheet is what the documents compile to. -/
def runCheck (settings : Settings) (expected : Option Digest) (tree : FileTree) : Response :=
  let compiled := compileDirectory settings.options tree settings.input
  match digestMismatch? expected compiled.report.digest with
  | some (e, a) =>
      .failed ("digest mismatch: expected " ++ e.render ++ ", got " ++ a.render)
  | none => compare settings.output compiled (Artifact.read tree settings.output)

/-- Lists the final tokens. -/
def runList (settings : Settings) (json : Bool) (tree : FileTree) : Response :=
  let tokens := (compileDirectory settings.options tree settings.input).tokens
  .printed (if json then Listing.jsonLines tokens else Listing.table tokens)

/-! ## Names -/

/-- Shows the final spelling of names, up to the first that has none. -/
def runName : List String → Response
  | [] => .printed []
  | raw :: rest =>
      match CanonicalName.derive? raw with
      -- What came before it has been printed already.
      | none => .failed ("'" ++ raw ++ "' has no canonical name")
      | some canonical =>
          let others := runName rest
          { others with lines := canonical.text :: others.lines }

/-! ## All commands -/

/-- The settings of a command. -/
def settings (invocation : Invocation) (tree : FileTree) (source : SourceOptions)
    (output : Option Path) : Except ConfigError Settings :=
  match Config.load tree invocation.config with
  | .error e => .error e
  | .ok config => (config.resolve source.input output source.permissive).mapError .rule

/-- Goes on with settings, or fails without them. -/
def withSettings (tree : FileTree) (settings : Except ConfigError Settings)
    (run : Settings → FileTree × Response) : FileTree × Response :=
  match settings with
  | .ok settings => run settings
  | .error e => (tree, .failed e.message)

end Command

/-- Runs a command on a file tree. -/
def Invocation.run (invocation : Invocation) (tree : FileTree) : FileTree × Response :=
  match invocation.command with
  | .build source output json =>
      Command.withSettings tree (Command.settings invocation tree source output) fun settings =>
        Command.runBuild settings json tree
  | .check source output digest =>
      Command.withSettings tree (Command.settings invocation tree source output) fun settings =>
        (tree, Command.runCheck settings digest tree)
  | .list source json =>
      Command.withSettings tree (Command.settings invocation tree source none) fun settings =>
        (tree, Command.runList settings json tree)
  | .name raw => (tree, Command.runName raw)

end DesignTokens
