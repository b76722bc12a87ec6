import DesignTokens.Loading
import DesignTokens.Toml.Reader

/-!
# Settings

The settings of a command. A value given on the command line counts most, then the settings file,
then the defaults. The rules of the settings file are added after the built-in ones, keywords first.
-/

set_option autoImplicit false

namespace DesignTokens

/-- A keyword rule of a settings file. -/
structure KeywordSetting where
  family : String
  literal : String
  replacement : String
deriving DecidableEq, Repr

/-- The contents of a settings file. -/
structure Config where
  input : Option Path
  output : Option Path
  permissive : Option Bool
  pixelFamilies : List String
  keywords : List KeywordSetting
deriving DecidableEq, Repr

/-- Why there are no settings. -/
inductive ConfigError where
  /-- The settings file cannot be read. -/
  | file (path : Path) (cause : FileError)
  /-- The settings file does not hold settings. -/
  | invalid (path : Path)
  /-- A rule of the settings file cannot be made. -/
  | rule (cause : RuleError)
deriving DecidableEq, Repr

/-- The sentence shown for a settings error. -/
def ConfigError.message : ConfigError → String
  | .file path cause => "failed to read config " ++ path.text ++ ": " ++ cause.message
  | .invalid path => "invalid config " ++ path.text
  | .rule cause => cause.message

namespace Config

/-- The settings file that is read if no other one is named. -/
def defaultFile : Path := "tokensmith.toml"

/-- The directory of the token documents if nothing else is said. -/
def defaultInput : Path := "src/styles/import"

/-- The file of the stylesheet if nothing else is said. -/
def defaultOutput : Path := "src/styles/tokens.css"

/-- The contents of a settings file that says nothing. -/
def empty : Config := ⟨none, none, none, [], []⟩

instance : Inhabited Config := ⟨empty⟩

/-! ## Reading -/

/-- The parts of a record by their names: the entries of a table, none of them unknown, or the items
of an array in order. A part that is not there is `none`. -/
def parts? (names : List String) : Toml → Option (List (Option Toml))
  | .table entries =>
      -- A misspelt entry is refused rather than passed over.
      if entries.all fun entry => names.contains entry.1 then
        some (names.map fun name => OrderedMap.lookup name entries)
      else none
  | .array items => some ((items.take names.length).map some ++
      List.replicate (names.length - items.length) none)
  | _ => none

/-- The text of a string. -/
def text? : Toml → Option String
  | .string text => some text
  | _ => none

/-- The path that a string is. -/
def path? (toml : Toml) : Option Path := (text? toml).map Path.ofText

/-- A boolean. -/
def boolean? : Toml → Option Bool
  | .boolean value => some value
  | _ => none

/-- The items of an array. -/
def items? : Toml → Option (List Toml)
  | .array items => some items
  | _ => none

/-- Reads a part that may be missing. -/
def optional? {α : Type} (read : Toml → Option α) : Option Toml → Option (Option α)
  | none => some none
  | some toml => (read toml).map some

/-- Reads an array that may be missing. -/
def list? {α : Type} (read : Toml → Option α) : Option Toml → Option (List α)
  | none => some []
  | some toml => do (← items? toml).mapM read

/-- Reads a keyword rule, of which no part may be missing. -/
def keyword? (toml : Toml) : Option KeywordSetting := do
  match ← parts? ["family", "from", "to"] toml with
  | [some family, some literal, some replacement] =>
      return ⟨← text? family, ← text? literal, ← text? replacement⟩
  | _ => none

/-- Reads the pixel families and the keyword rules. -/
def rules? : Option Toml → Option (List String × List KeywordSetting)
  | none => some ([], [])
  | some toml => do
      match ← parts? ["px_families", "keywords"] toml with
      | [families, keywords] => return (← list? text? families, ← list? keyword? keywords)
      | _ => none

/-- Reads settings. -/
def ofToml? (toml : Toml) : Option Config := do
  match ← parts? ["input", "output", "permissive", "rules"] toml with
  | [input, output, permissive, rules] =>
      let (pixelFamilies, keywords) ← rules? rules
      return {
        input := ← optional? path? input
        output := ← optional? path? output
        permissive := ← optional? boolean? permissive
        pixelFamilies, keywords }
  | _ => none

/-- Reads the text of a settings file. -/
def parse? (text : String) : Option Config := do ofToml? (← Toml.read? text)

/-- Reads a settings file. -/
def ofFile (tree : FileTree) (path : Path) : Except ConfigError Config :=
  match tree.readText path with
  | .error e => .error (.file path e)
  | .ok text =>
      match parse? text with
      | some config => .ok config
      | none => .error (.invalid path)

/-- Reads the settings file that is named, or the default one if it is there. -/
def load (tree : FileTree) : Option Path → Except ConfigError Config
  | some path => ofFile tree path
  | none => if tree.isFile defaultFile then ofFile tree defaultFile else .ok empty

/-! ## Rules -/

/-- The rules of a settings file, keywords first. -/
def rules (config : Config) : Except RuleError (List Rule) := do
  let keywords ← config.keywords.mapM fun keyword =>
    Rule.replacingKeyword keyword.family keyword.literal keyword.replacement
  let units ← config.pixelFamilies.mapM Rule.appendingPixel
  return keywords ++ units

/-- The built-in rules and those of a settings file. -/
def ruleTable (config : Config) : Except RuleError RuleTable :=
  config.rules.map RuleTable.builtIn.addAll

end Config

/-! ## Settings -/

/-- The settings of a command. -/
structure Settings where
  input : Path
  output : Path
  options : CompileOptions

/-- Combines a settings file with the values of the command line. -/
def Config.resolve (config : Config) (input output : Option Path) (permissive : Bool) :
    Except RuleError Settings :=
  config.ruleTable.map fun rules =>
    { input := (input.or config.input).getD defaultInput
      output := (output.or config.output).getD defaultOutput
      options :=
        { mode := if permissive || config.permissive.getD false then .permissive else .strict
          rules } }

end DesignTokens
