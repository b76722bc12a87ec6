import DesignTokens.Json.Token

/-!
# Reading JSON

A JSON text is read by a machine that takes one token at a time. Its state is the stack of arrays
and objects that are open, and what is due next (`JsonReader.Due`).

`Json.readRaw` gives the value of a document as written, with every repeated key. `Json.read` keeps
each key once, at its first position and with its last value. A document nests at most
`Json.maxDepth` arrays and objects.

`Json.skim?` is for texts of which only some members matter: it nests to any depth and does not
mind a string or number without a value.
-/

set_option autoImplicit false

namespace DesignTokens

namespace JsonReader

/-- An array or object that is open, with its parts in reverse. -/
inductive Frame where
  | array (items : List Json)
  | object (members : List (String × Json))
  /-- An object with a key whose value is not there yet. -/
  | member (members : List (String × Json)) (key : String)

/-- What is due next in a JSON text. -/
inductive Due where
  | value
  | itemOrEnd
  | item
  | keyOrEnd
  | key
  | colon
  | commaOrEnd
  | nothing (value : Json)

/-- The stack of open arrays and objects, innermost first, and what is due. -/
structure State where
  frames : List Frame
  due : Due

/-- The state after a complete value. -/
def deliver (value : Json) : List Frame → State
  | .array items :: frames => ⟨.array (value :: items) :: frames, .commaOrEnd⟩
  | .member members key :: frames => ⟨.object ((key, value) :: members) :: frames, .commaOrEnd⟩
  | .object members :: frames => ⟨.object members :: frames, .commaOrEnd⟩
  | [] => ⟨[], .nothing value⟩

/-- The state after the closing bracket of an array or the closing brace of an object. -/
def close : List Frame → State
  | .array items :: frames => deliver (.array items.reverse) frames
  | .object members :: frames => deliver (.object members.reverse) frames
  | .member members _ :: frames => deliver (.object members.reverse) frames
  | [] => ⟨[], .value⟩

/-- A fault at the place after the first octet of a token. -/
def faultAfter (fault : JsonFault) (position : Nat) : Except JsonFlaw State :=
  .error ⟨fault, position + 1, 0⟩

/-- Opens an array or object, unless `depth` of them are open. -/
def enter (depth : Nat) (frames : List Frame) (frame : Frame) (due : Due) (position : Nat) :
    Except JsonFlaw State :=
  if frames.length < depth then .ok ⟨frame :: frames, due⟩ else faultAfter .tooDeep position

/-- A token where a value is due. -/
def stepValue (depth : Nat) (frames : List Frame) (lexeme : JsonLexeme) :
    Except JsonFlaw State :=
  match lexeme.token with
  | .openArray => enter depth frames (.array []) .itemOrEnd lexeme.position
  | .openObject => enter depth frames (.object []) .keyOrEnd lexeme.position
  | .string text => .ok (deliver (.string text) frames)
  | .scalar value => .ok (deliver value frames)
  | .badString flaw _ => .error flaw
  | .bad flaw _ => .error flaw
  | _ => faultAfter .expectedValue lexeme.position

/-- A token where a key is due. -/
def stepKey (frames : List Frame) (lexeme : JsonLexeme) : Except JsonFlaw State :=
  match frames, lexeme.token with
  | .object members :: outer, .string key => .ok ⟨.member members key :: outer, .colon⟩
  | _, .badString flaw _ => .error flaw
  | _, _ => faultAfter .keyNotString lexeme.position

/-- A token after a complete part of an array or object. -/
def stepAfterPart (frames : List Frame) (lexeme : JsonLexeme) : Except JsonFlaw State :=
  match frames, lexeme.token with
  | .array _ :: _, .comma => .ok ⟨frames, .item⟩
  | .array _ :: _, .closeArray => .ok (close frames)
  | .array _ :: _, _ => faultAfter .expectedCommaOrBracket lexeme.position
  | _, .comma => .ok ⟨frames, .key⟩
  | _, .closeObject => .ok (close frames)
  | _, _ => faultAfter .expectedCommaOrBrace lexeme.position

/-- The state after one more token, where at most `depth` arrays and objects may be open. -/
def step (depth : Nat) (state : State) (lexeme : JsonLexeme) : Except JsonFlaw State :=
  match state.due, lexeme.token with
  | .value, _ => stepValue depth state.frames lexeme
  | .itemOrEnd, .closeArray => .ok (close state.frames)
  | .itemOrEnd, _ => stepValue depth state.frames lexeme
  -- A comma has been read, so an end comes too early.
  | .item, .closeArray => faultAfter .trailingComma lexeme.position
  | .item, _ => stepValue depth state.frames lexeme
  | .keyOrEnd, .closeObject => .ok (close state.frames)
  | .keyOrEnd, _ => stepKey state.frames lexeme
  | .key, .closeObject => faultAfter .trailingComma lexeme.position
  | .key, _ => stepKey state.frames lexeme
  | .colon, .colon => .ok ⟨state.frames, .value⟩
  | .colon, _ => faultAfter .expectedColon lexeme.position
  | .commaOrEnd, _ => stepAfterPart state.frames lexeme
  -- The value is complete.
  | .nothing _, _ => faultAfter .trailingCharacters lexeme.position

/-- The value of a text that ends in a given state after `length` octets. -/
def finish (state : State) (length : Nat) : Except JsonFlaw Json :=
  match state.due, state.frames with
  | .nothing value, _ => .ok value
  | .value, _ => .error ⟨.endInValue, length, 0⟩
  | .item, _ => .error ⟨.endInValue, length, 0⟩
  | .key, _ => .error ⟨.endInValue, length, 0⟩
  | .itemOrEnd, _ => .error ⟨.endInList, length, 0⟩
  | .keyOrEnd, _ => .error ⟨.endInObject, length, 0⟩
  | .colon, _ => .error ⟨.endInObject, length, 0⟩
  | .commaOrEnd, .array _ :: _ => .error ⟨.endInList, length, 0⟩
  | .commaOrEnd, _ => .error ⟨.endInObject, length, 0⟩

/-- The value of the tokens of a text of `length` octets. -/
def run (depth length : Nat) (lexemes : List JsonLexeme) : Except JsonFlaw Json := do
  let state ← lexemes.foldlM (step depth) ⟨[], .value⟩
  finish state length

end JsonReader

namespace Json

mutual

/-- The value with each key once in every object, at its first position and with its last value. -/
def unifyKeys : Json → Json
  | .array items => .array (unifyItems items)
  | .object members => .object (OrderedMap.ofList (unifyMembers members)).entries
  | value => value
termination_by structural value => value

/-- `unifyKeys` for every item of an array. -/
def unifyItems : List Json → List Json
  | [] => []
  | item :: rest => item.unifyKeys :: unifyItems rest
termination_by structural items => items

/-- `unifyKeys` for the value of every member. -/
def unifyMembers : List (String × Json) → List (String × Json)
  | [] => []
  | (key, value) :: rest => (key, value.unifyKeys) :: unifyMembers rest
termination_by structural members => members

end

/-- The greatest number of arrays and objects around a value of a document. -/
def maxDepth : Nat := 127

/-- Reads a JSON text with all members as they are written. -/
def readRaw (bytes : ByteArray) : Except JsonError Json :=
  let octets := bytes.data.toList
  match JsonReader.run maxDepth octets.length (JsonToken.readAll octets) with
  | .ok value => .ok value
  | .error flaw => .error (flaw.locate octets)

/-- Reads a JSON text; a repeated key keeps its first position and takes its last value. -/
def read (bytes : ByteArray) : Except JsonError Json := (readRaw bytes).map unifyKeys

/-- Reads the UTF-8 form of a JSON text. -/
def readText (text : String) : Except JsonError Json := read text.toUTF8

/-- Reads a JSON text with all members as they are written. It may nest to any depth, which is
never more than its number of octets, and a string or number that has an end and no value is read
as `JsonToken.standIn`. -/
def skim? (text : String) : Option Json :=
  let octets := text.toUTF8.data.toList
  (JsonReader.run octets.length octets.length
    ((JsonToken.readAll octets).map JsonLexeme.skim)).toOption

end Json

end DesignTokens
