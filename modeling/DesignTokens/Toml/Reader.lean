import DesignTokens.Toml.Assembly
import DesignTokens.Toml.Token

/-!
# Reading TOML

A TOML text is read by a machine that takes one token at a time. Its state is the statements that
are complete, the arrays and tables that are open in the value of the present statement, and what is
due next (`TomlReader.Due`). The statements are then assembled to one table.
-/

set_option autoImplicit false

namespace DesignTokens

namespace TomlReader

/-- Something that waits for a value or is open, with its parts in reverse. -/
inductive Frame where
  /-- A statement that gives a value to a path of keys. -/
  | statement (path : List String)
  | array (items : List Toml)
  | table (members : List (List String × Toml))
  /-- A table in braces with a path of keys whose value is not there yet. -/
  | member (members : List (List String × Toml)) (path : List String)

/-- What is due next in a TOML text. Paths of keys are in reverse. -/
inductive Due where
  | statement
  /-- After the bracket that opens a header. -/
  | headerStart
  | headerKey (isArray : Bool) (path : List String)
  | headerNext (isArray : Bool) (path : List String)
  /-- Between the two brackets that close the header of an array. -/
  | headerEnd (path : List String)
  | lineEnd
  | key (path : List String)
  | keyNext (path : List String)
  | value
  | itemOrEnd
  | commaOrEnd
  | memberOrEnd
  | commaOrBrace

/-- What has been read. -/
structure State where
  statements : List TomlStatement
  frames : List Frame
  due : Due

/-- Whether a character may stand in a key without quotes. -/
def isKeyChar (c : Char) : Bool := c.isAlphanum || c == '_' || c == '-'

/-- The key that a token is. -/
def key? : TomlToken → Option String
  | .word word => if word.all isKeyChar then some (String.ofList word) else none
  | .string text => some text
  | _ => none

/-- The value that a token is. -/
def value? : TomlToken → Option Toml
  | .string text => some (.string text)
  | .longString text => some (.string text)
  | .word ['t', 'r', 'u', 'e'] => some (.boolean true)
  | .word ['f', 'a', 'l', 's', 'e'] => some (.boolean false)
  | _ => none

/-- The state after a complete value. -/
def deliver (state : State) (value : Toml) : List Frame → Option State
  | .statement path :: _ =>
      some ⟨.assign path.reverse value :: state.statements, [], .lineEnd⟩
  | .array items :: frames => some ⟨state.statements, .array (value :: items) :: frames, .commaOrEnd⟩
  | .member members path :: frames =>
      some ⟨state.statements, .table ((path.reverse, value) :: members) :: frames, .commaOrBrace⟩
  | _ => none

/-- The state after the token that closes an array or a table. -/
def close (state : State) : Option State :=
  match state.frames with
  | .array items :: frames => deliver state (.array items.reverse) frames
  | .table members :: frames => do deliver state (← Toml.ofAssignments? members.reverse) frames
  | _ => none

/-- A token where a value is due. -/
def stepValue (state : State) (token : TomlToken) : Option State :=
  match token with
  | .openBracket => some { state with frames := .array [] :: state.frames, due := .itemOrEnd }
  | .openBrace => some { state with frames := .table [] :: state.frames, due := .memberOrEnd }
  | _ => do deliver state (← value? token) state.frames

/-- The state after the equals sign that follows a path of keys. -/
def awaitValue (state : State) (path : List String) : Option State :=
  match state.frames with
  | [] => some { state with frames := [.statement path], due := .value }
  | .table members :: frames =>
      some { state with frames := .member members path :: frames, due := .value }
  | _ => none

/-- The state after a complete header. -/
def endHeader (state : State) (statement : TomlStatement) : State :=
  { state with statements := statement :: state.statements, due := .lineEnd }

/-- The state when something else is due. -/
def await (state : State) (due : Due) : Option State := some { state with due }

/-- The state after one more token. -/
def step (state : State) (token : TomlToken) : Option State :=
  match state.due, token with
  | .headerStart, .blank => await state (.headerKey false [])
  -- Nothing stands between the two brackets of an array's header.
  | .headerEnd _, .blank => none
  | _, .blank => some state
  | .statement, .newline => some state
  | .lineEnd, .newline => await state .statement
  | .itemOrEnd, .newline => some state
  | .commaOrEnd, .newline => some state
  | .memberOrEnd, .newline => some state
  | .commaOrBrace, .newline => some state
  | _, .newline => none
  | .statement, .openBracket => await state .headerStart
  | .statement, _ => do await state (.keyNext [← key? token])
  | .headerStart, .openBracket => await state (.headerKey true [])
  | .headerStart, _ => do await state (.headerNext false [← key? token])
  | .headerKey isArray path, _ => do await state (.headerNext isArray ((← key? token) :: path))
  | .headerNext isArray path, .dot => await state (.headerKey isArray path)
  | .headerNext false path, .closeBracket => some (endHeader state (.header path.reverse))
  | .headerNext true path, .closeBracket => await state (.headerEnd path)
  | .headerNext _ _, _ => none
  | .headerEnd path, .closeBracket => some (endHeader state (.arrayHeader path.reverse))
  | .headerEnd _, _ => none
  | .lineEnd, _ => none
  | .key path, _ => do await state (.keyNext ((← key? token) :: path))
  | .keyNext path, .dot => await state (.key path)
  | .keyNext path, .equals => awaitValue state path
  | .keyNext _, _ => none
  | .value, _ => stepValue state token
  | .itemOrEnd, .closeBracket => close state
  | .itemOrEnd, _ => stepValue state token
  | .commaOrEnd, .comma => await state .itemOrEnd
  | .commaOrEnd, .closeBracket => close state
  | .commaOrEnd, _ => none
  | .memberOrEnd, .closeBrace => close state
  | .memberOrEnd, _ => do await state (.keyNext [← key? token])
  | .commaOrBrace, .comma => await state .memberOrEnd
  | .commaOrBrace, .closeBrace => close state
  | .commaOrBrace, _ => none

/-- The statements of a text that ends in a given state. -/
def finish (state : State) : Option (List TomlStatement) :=
  match state.due with
  | .statement => some state.statements.reverse
  | .lineEnd => some state.statements.reverse
  | _ => none

/-- The statements of a text. -/
def statements? (text : String) : Option (List TomlStatement) := do
  finish (← (← TomlToken.readAll text).foldlM step ⟨[], [], .statement⟩)

end TomlReader

/-- Reads a TOML text; none if it is not well-formed. -/
def Toml.read? (text : String) : Option Toml := do ofStatements? (← TomlReader.statements? text)

end DesignTokens
