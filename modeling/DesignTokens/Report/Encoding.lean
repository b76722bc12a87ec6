import DesignTokens.Json.Reader
import DesignTokens.Report.Basic

/-!
# Reports as JSON

A report is written as an object with a member for each part; the digest has no member if it is not
set. Reading accepts the members in any order and passes over members that it does not know. Each
part may stand once, and only the digest may be missing. A record may also be written as the array
of its parts, in the order of its members.

What is passed over need not have a value, so a report is read from its skimmed text. No part of a
report is a truth value, so that `JsonToken.standIn` is never taken for one.
-/

set_option autoImplicit false

namespace DesignTokens

namespace BuildStatus

/-- The name of an outcome. -/
def name : BuildStatus → String
  | .ok => "Ok"
  | .degraded => "Degraded"

/-- The outcome of a name. -/
def ofName? (name : String) : Option BuildStatus :=
  if name = BuildStatus.ok.name then some .ok
  else if name = BuildStatus.degraded.name then some .degraded
  else none

end BuildStatus

/-! ## Writing -/

/-- A digest as JSON. -/
def Digest.toJson (digest : Digest) : Json :=
  .object [("alg", .string digest.algorithm.name), ("b64", .string digest.encoded)]

/-- A document that was left out as JSON. -/
def SkippedDocument.toJson (skipped : SkippedDocument) : Json :=
  .object [("document", .string skipped.document), ("reason", .string skipped.reason)]

/-- Counters as JSON. -/
def Counters.toJson (counters : Counters) : Json :=
  .object (counters.entries.map fun entry => (entry.1, .number (.integer entry.2)))

/-- A report as JSON. -/
def Report.toJson (report : Report) : Json :=
  .object (
    [("status", .string report.status.name),
      ("warnings", .array (report.warnings.map Json.string)),
      ("metrics", report.metrics.toJson),
      ("skipped", .array (report.skipped.map SkippedDocument.toJson))] ++
    (report.digest.map fun digest => ("digest", digest.toJson)).toList)

/-! ## Reading -/

namespace Report

/-- The parts of a record by their names: the members of an object, of which each known one stands
at most once, or the items of an array, of which there is one for each part. A part that is not
there is `none`. -/
def parts? (names : List String) : Json → Option (List (Option Json))
  | .object members =>
      -- Members of other names are not looked at.
      names.mapM fun name =>
        match members.filter fun member => member.1 == name with
        | [] => some none
        | [member] => some (some member.2)
        | _ => none
  | .array items => if items.length = names.length then some (items.map some) else none
  | _ => none

/-- The text of a string. -/
def text? : Json → Option String
  | .string text => some text
  | _ => none

/-- The items of an array. -/
def items? : Json → Option (List Json)
  | .array items => some items
  | _ => none

/-- The greatest count: an unsigned integer of 64 bits. -/
def maxCount : Nat := Nat.pow 2 64 - 1

/-- A count. -/
def count? : Json → Option Nat
  | .number (.integer n) => if 0 ≤ n ∧ n.toNat ≤ maxCount then some n.toNat else none
  | _ => none

/-- The name of one of several cases: a string, or an object whose only member has the name and
holds nothing. -/
def caseName? : Json → Option String
  | .string name => some name
  | .object [(name, .null)] => some name
  | _ => none

/-- Reads counters; of a repeated name the last count holds. -/
def counters? : Json → Option Counters
  | .object members => do
      let entries ← members.mapM fun member => (count? member.2).map fun n => (member.1, n)
      return Counters.empty.setAll entries
  | _ => none

/-- Reads a document that was left out. -/
def skipped? (json : Json) : Option SkippedDocument := do
  match ← parts? ["document", "reason"] json with
  | [some document, some reason] => return ⟨← text? document, ← text? reason⟩
  | _ => none

/-- Reads a digest. The encoded hash may be any text. -/
def digest? (json : Json) : Option Digest := do
  match ← parts? ["alg", "b64"] json with
  | [some algorithm, some encoded] =>
      return ⟨← HashAlgorithm.ofName? (← caseName? algorithm), ← text? encoded⟩
  | _ => none

/-- Reads a digest that may be missing or null. -/
def optionalDigest? : Option Json → Option (Option Digest)
  | none => some none
  | some .null => some none
  | some json => (digest? json).map some

/-- Reads a report. -/
def ofJson? (json : Json) : Option Report := do
  match ← parts? ["status", "warnings", "metrics", "skipped", "digest"] json with
  | [some status, some warnings, some metrics, some skipped, digest] =>
      return {
        status := ← BuildStatus.ofName? (← caseName? status)
        warnings := ← (← items? warnings).mapM text?
        metrics := ← counters? metrics
        skipped := ← (← items? skipped).mapM skipped?
        digest := ← optionalDigest? digest }
  | _ => none

/-- Reads the JSON text of a report. -/
def readText? (text : String) : Option Report := (Json.skim? text).bind ofJson?

end Report

end DesignTokens
