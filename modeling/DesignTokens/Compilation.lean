import DesignTokens.Report.Basic
import DesignTokens.Stylesheet

/-!
# Compiling documents

From token documents to one stylesheet. Each document is collected and normalized by itself, and
the documents that can be collected are merged. A document that could not be loaded or cannot be
collected is left out and named in the report; it has no other effect.
-/

set_option autoImplicit false

namespace DesignTokens

/-- A token document: its identifier, usually its path, and its token tree. -/
structure Document where
  id : String
  tree : Json

/-- What is known of a document before it is compiled: the document, or why it could not be
loaded. -/
abbrev LoadResult := Except SkippedDocument Document

/-- The choices of a compilation. -/
structure CompileOptions where
  mode : CollectMode
  rules : RuleTable

/-- The options where nothing else is said. -/
def CompileOptions.standard : CompileOptions := ⟨.strict, .builtIn⟩

/-- The result of a compilation. -/
structure Compiled where
  css : String
  tokens : TokenMap
  report : Report

namespace Compilation

/-- The normalized tokens of a document, or why it is left out. -/
def tokensOf (options : CompileOptions) : LoadResult → Except SkippedDocument NormalTokens
  | .error skipped => .error skipped
  | .ok document =>
      match collect options.mode document.tree with
      | .ok tokens => .ok (options.rules.normalizeAll tokens)
      | .error e => .error ⟨document.id, e.message⟩

/-- The documents among outcomes. -/
def kept : Except SkippedDocument NormalTokens → Option NormalTokens
  | .ok tokens => some tokens
  | .error _ => none

/-- The documents left out among outcomes. -/
def skipped : Except SkippedDocument NormalTokens → Option SkippedDocument
  | .ok _ => none
  | .error document => some document

/-- The report of a compilation. -/
def reportOf (left : List SkippedDocument) (merged : Merged) (css : String) : Report :=
  let counted := ((left.foldl Report.skip .initial).recordMerge merged.stats).setMetric
    Report.variablesMetric merged.tokens.size
  -- A build from which every document was left out has its own warning.
  let warned :=
    if merged.stats.documents = 0 ∧ left = [] then counted.warn Report.noDocumentsWarning
    else counted
  { warned with digest := some (Digest.ofText css) }

end Compilation

/-- Compiles a list of load results. -/
def compile (options : CompileOptions) (inputs : List LoadResult) : Compiled :=
  let outcomes := inputs.map (Compilation.tokensOf options)
  let merged := merge (outcomes.filterMap Compilation.kept)
  let css := TokenMap.stylesheet merged.tokens
  ⟨css, merged.tokens, Compilation.reportOf (outcomes.filterMap Compilation.skipped) merged css⟩

end DesignTokens
