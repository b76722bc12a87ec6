import DesignTokens.Main
import DesignTokens.Proofs.OrderedMap.Insertion
import DesignTokens.Proofs.Collection.Leaves
import DesignTokens.Proofs.Merge.Correction
import DesignTokens.Proofs.Resolution.Normalization
import DesignTokens.Proofs.Compilation.Survivors
import DesignTokens.Proofs.Compilation.Values
import DesignTokens.Proofs.Compilation.Names
import DesignTokens.Proofs.Compilation.Isolation
import DesignTokens.Proofs.Name.Words
import DesignTokens.Proofs.Name.Runs
import DesignTokens.Proofs.Name.Spelling
import DesignTokens.Proofs.Name.Collected
import DesignTokens.Proofs.Name.Regrouping
import DesignTokens.Proofs.Name.Respelling
import DesignTokens.Proofs.Pattern.Matching
import DesignTokens.Proofs.Pattern.Languages
import DesignTokens.Proofs.Digest.Reading
import DesignTokens.Proofs.Rule.BuiltIn
import DesignTokens.Proofs.Reference.Reading
import DesignTokens.Proofs.Reference.Targets
import DesignTokens.Proofs.Compilation.References
import DesignTokens.Proofs.Collection.Steps
import DesignTokens.Proofs.Collection.Reached
import DesignTokens.Proofs.Collection.Gaps
import DesignTokens.Proofs.Collection.Nesting
import DesignTokens.Proofs.Merge.Override
import DesignTokens.Proofs.Merge.Originals
import DesignTokens.Proofs.Merge.Counts
import DesignTokens.Proofs.Merge.Overrides
import DesignTokens.Proofs.Compilation.Locality
import DesignTokens.Proofs.Compilation.Balance
import DesignTokens.Proofs.Compilation.Overrides
import DesignTokens.Proofs.Compilation.Edits
import DesignTokens.Proofs.Compilation.Modes
import DesignTokens.Proofs.FileTree.Kinds
import DesignTokens.Proofs.FileTree.Walks
import DesignTokens.Proofs.Text.Octets
import DesignTokens.Proofs.Path.DocumentNames
import DesignTokens.Proofs.FileTree.Lookups
import DesignTokens.Proofs.FileTree.Changes
import DesignTokens.Proofs.FileTree.Visits
import DesignTokens.Proofs.FileTree.Removal
import DesignTokens.Proofs.FileTree.LinkFree
import DesignTokens.Proofs.Artifact.Writing
import DesignTokens.Proofs.Artifact.Outcomes
import DesignTokens.Proofs.Artifact.Undisturbed
import DesignTokens.Proofs.Loading.Discovery
import DesignTokens.Proofs.Command.BuildCheck
import DesignTokens.Proofs.Decimal.Places
import DesignTokens.Proofs.Rule.Numerals
import DesignTokens.Proofs.Rule.Application
import DesignTokens.Proofs.Rule.Extension
import DesignTokens.Proofs.Resolution.Precedence
import DesignTokens.Proofs.Resolution.Settled
import DesignTokens.Proofs.Stylesheet.Reading
import DesignTokens.Proofs.Command.PinnedDigest
import DesignTokens.Proofs.Listing.Rows
import DesignTokens.Proofs.Report.RoundTrip
